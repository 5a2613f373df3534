import Hyperchess.Proofs.Board.Symmetry
import Hyperchess.Proofs.Safety.Decision

/-!
# Judgements on boards turned around

Rules respect a symmetry if the candidate moves of a piece are carried onto those of its image (`RuleBook.Respects`).
Then a team and its image have their royal pieces on squares that are exchanged for each other, and are threatened alike
(`threatened_image_iff`); a judgement is the same as that of the image (`royalAttacked_image`, `exposure_image`). So the
choice among moves is carried onto the choice among their images, in whatever order these are given (`unexposed_image`).
-/

namespace Hyperchess

/-- On boards whose pieces all have rules, candidate moves are found, and they are carried onto those of the image. -/
def RuleBook.Respects {size : Coord} (book : RuleBook) (σ : Symmetry size) : Prop :=
  ∀ ⦃a b : Board⦄, Board.Image σ a b → a.Ruled book →
    ∀ ⦃c : Coord⦄ ⦃p : Piece⦄, a.get c = .ok (some (.piece p)) →
      ∃ found found', a.candidates book c = .ok found ∧ b.candidates book (σ.square c) = .ok found' ∧
        found'.Perm (found.map σ.move)

namespace Board

variable {size : Coord} {σ : Symmetry size} {a b : Board} {v : Variant} {team : Data} {c : Coord} {m : Move}

/-! ## What stands on the image -/

theorem Image.ruled {book : RuleBook} (h : Image σ a b) (hruled : a.Ruled book) : b.Ruled book := by
  intro d q hq
  obtain ⟨c, rfl⟩ := σ.exists_eq_square d
  obtain ⟨p, hp, himage⟩ := h.exists_preimage hq
  rw [himage.id]
  exact hruled hp

theorem Image.orderly_iff (h : Image σ a b) : b.Orderly ↔ a.Orderly := by
  constructor
  · intro horderly
    constructor
    · intro c p hp
      obtain ⟨q, hq, himage⟩ := h.exists_image hp
      rw [← σ.isKey_team, ← himage.team]
      exact horderly.isKey hq
    · intro c d p p' hp hp' hne
      obtain ⟨q, hq, himage⟩ := h.exists_image hp
      obtain ⟨q', hq', himage'⟩ := h.exists_image hp'
      rw [← σ.isComparable_team, ← himage.team, ← himage'.team]
      rw [← σ.same_team, ← himage.team, ← himage'.team] at hne
      exact horderly.isComparable hq hq' hne
  · intro horderly
    constructor
    · intro d q hq
      obtain ⟨c, rfl⟩ := σ.exists_eq_square d
      obtain ⟨p, hp, himage⟩ := h.exists_preimage hq
      rw [himage.team, σ.isKey_team]
      exact horderly.isKey hp
    · intro d d' q q' hq hq' hne
      obtain ⟨c, rfl⟩ := σ.exists_eq_square d
      obtain ⟨c', rfl⟩ := σ.exists_eq_square d'
      obtain ⟨p, hp, himage⟩ := h.exists_preimage hq
      obtain ⟨p', hp', himage'⟩ := h.exists_preimage hq'
      rw [himage.team, himage'.team] at hne ⊢
      rw [σ.same_team] at hne
      rw [σ.isComparable_team]
      exact horderly.isComparable hp hp' hne

/-- A team and its image have their royal pieces on squares that are exchanged for each other. -/
theorem Image.holdsRoyal_iff (h : Image σ a b) :
    b.HoldsRoyal v (σ.team team) (σ.square c) ↔ a.HoldsRoyal v team c := by
  constructor
  · rintro ⟨q, hq, hteam, hroyal⟩
    obtain ⟨p, hp, himage⟩ := h.exists_preimage hq
    rw [himage.team, σ.same_team] at hteam
    rw [himage.id] at hroyal
    exact ⟨p, hp, hteam, hroyal⟩
  · rintro ⟨p, hp, hteam, hroyal⟩
    obtain ⟨q, hq, himage⟩ := h.exists_image hp
    refine ⟨q, hq, ?_, ?_⟩
    · rw [himage.team, σ.same_team, hteam]
    · rw [himage.id, hroyal]

/-! ## Judgements -/

section Judgements

variable (h : Image σ a b) (hbook : v.book.Respects σ) (hruled : a.Ruled v.book)

include h hbook hruled

theorem supplied_of_respects : a.Supplied v.book ∧ b.Supplied v.book := by
  constructor
  · intro c p hp
    obtain ⟨found, -, hfound, -⟩ := hbook h hruled hp
    exact ⟨found, hfound⟩
  · intro d q hq
    obtain ⟨c, rfl⟩ := σ.exists_eq_square d
    obtain ⟨p, hp, -⟩ := h.exists_preimage hq
    obtain ⟨-, found', -, hfound', -⟩ := hbook h hruled hp
    exact ⟨found', hfound'⟩

/-- A team is threatened exactly if its image is. -/
theorem threatened_image_iff : b.Threatened v (σ.team team) ↔ a.Threatened v team := by
  constructor
  · rintro ⟨d, q, replies', hq, hteam, hreplies', reply', hmem', hroyal⟩
    obtain ⟨c, rfl⟩ := σ.exists_eq_square d
    obtain ⟨p, hp, himage⟩ := h.exists_preimage hq
    obtain ⟨found, found', hfound, hfound', hperm⟩ := hbook h hruled hp
    rw [hfound'] at hreplies'
    cases hreplies'
    obtain ⟨reply, hmem, rfl⟩ := List.mem_map.1 (hperm.mem_iff.1 hmem')
    rw [himage.team, σ.same_team] at hteam
    exact ⟨c, p, found, hp, hteam, hfound, reply, hmem, h.holdsRoyal_iff.1 hroyal⟩
  · rintro ⟨c, p, replies, hp, hteam, hreplies, reply, hmem, hroyal⟩
    obtain ⟨q, hq, himage⟩ := h.exists_image hp
    obtain ⟨found, found', hfound, hfound', hperm⟩ := hbook h hruled hp
    rw [hfound] at hreplies
    cases hreplies
    have hmem' : σ.move reply ∈ found' := hperm.mem_iff.2 (List.mem_map_of_mem hmem)
    rw [← σ.same_team, ← himage.team] at hteam
    exact ⟨σ.square c, q, found', hq, hteam, hfound', σ.move reply, hmem', h.holdsRoyal_iff.2 hroyal⟩

/-- **A board and its image are judged alike.** -/
theorem royalAttacked_image (team : Data) : b.royalAttacked v (σ.team team) = a.royalAttacked v team := by
  obtain ⟨hsupplied, hsupplied'⟩ := supplied_of_respects h hbook hruled
  have hroyal : (∃ d, b.HoldsRoyal v (σ.team team) d) ↔ ∃ c, a.HoldsRoyal v team c := by
    constructor
    · rintro ⟨d, hd⟩
      obtain ⟨c, rfl⟩ := σ.exists_eq_square d
      exact ⟨c, h.holdsRoyal_iff.1 hd⟩
    · rintro ⟨c, hc⟩
      exact ⟨σ.square c, h.holdsRoyal_iff.2 hc⟩
  have hthreatened : b.Threatened v (σ.team team) ↔ a.Threatened v team := threatened_image_iff h hbook hruled
  rw [royalAttacked_eq h.left_sound hsupplied, royalAttacked_eq h.right_sound hsupplied', hroyal, h.orderly_iff,
    hthreatened]

/-- **A move and its image are judged alike.** -/
theorem exposure_image (hs : a.contains m.src = true) (hd : a.contains m.dst = true) (team : Data) :
    b.exposure v (σ.move m) (σ.team team) = a.exposure v m team := by
  have hs' : b.contains (σ.move m).src = true := (h.contains_eq m.src).trans hs
  have hd' : b.contains (σ.move m).dst = true := (h.contains_eq m.dst).trans hd
  have hmoved : Image σ (a.moved m) (b.moved (σ.move m)) := h.moved hs hd
  have hjudged := royalAttacked_image hmoved hbook (hruled.moved h.left_sound hs hd) team
  have hsome : (b.pieceAt (σ.move m).src).isSome = (a.pieceAt m.src).isSome := h.isSome_pieceAt m.src
  rw [exposure_eq h.left_sound hs hd, exposure_eq h.right_sound hs' hd', hsome, hjudged]

theorem exposure_image_error (hs : a.contains m.src = true) (hd : a.contains m.dst = true) {e : Fault}
    (hfail : a.exposure v m team = .error e) : e = .wrongType := by
  have hmoved := supplied_of_respects (h.moved hs hd) hbook (hruled.moved h.left_sound hs hd)
  exact exposure_eq_error h.left_sound hs hd hmoved.1 hfail

section Choices

variable {found found' : List Move} (hends : ∀ m ∈ found, a.contains m.src = true ∧ a.contains m.dst = true)

include hends

theorem unexposed_image_error {e : Fault} (hfail : a.unexposed v team found = .error e) : e = .wrongType := by
  rw [unexposed_eq_flatMapM] at hfail
  obtain ⟨m, hm, hfail⟩ := Outcome.exists_of_flatMapM_eq_error hfail
  obtain ⟨hs, hd⟩ := hends m hm
  exact exposure_image_error h hbook hruled hs hd (Outcome.map_eq_error_iff.1 hfail)

theorem unexposed_map (team : Data) :
    b.unexposed v (σ.team team) (found.map σ.move) = (a.unexposed v team found).map (List.map σ.move) := by
  induction found with
  | nil => rfl
  | cons m rest ih =>
    obtain ⟨⟨hs, hd⟩, hrest⟩ := List.forall_mem_cons.1 hends
    have hexposure := exposure_image h hbook hruled hs hd team
    rw [List.map_cons, unexposed, unexposed, hexposure, ih hrest]
    cases a.exposure v m team with
    | error e => rfl
    | ok exposed =>
      cases a.unexposed v team rest with
      | error e => rfl
      | ok kept => cases exposed <;> rfl

/-- **The choice among moves is carried onto the choice among their images.** -/
theorem unexposed_image (hperm : found'.Perm (found.map σ.move)) (team : Data) :
    Outcome.Shuffled ((a.unexposed v team found).map (List.map σ.move)) (b.unexposed v (σ.team team) found') := by
  rw [← unexposed_map h hbook hruled hends team, unexposed_eq_flatMapM, unexposed_eq_flatMapM]
  apply Outcome.flatMapM_perm hperm.symm .wrongType
  intro m' hm' e hfail
  obtain ⟨m, hm, rfl⟩ := List.mem_map.1 hm'
  obtain ⟨hs, hd⟩ := hends m hm
  rw [Outcome.map_eq_error_iff, exposure_image h hbook hruled hs hd team] at hfail
  exact exposure_image_error h hbook hruled hs hd hfail

end Choices

end Judgements

end Board

end Hyperchess
