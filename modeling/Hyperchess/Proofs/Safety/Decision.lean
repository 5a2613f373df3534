import Hyperchess.Audit
import Hyperchess.Proofs.Reach.Supply
import Hyperchess.Proofs.Safety.Verdict

/-!
# Boards on which every move can be judged

The teams on a board can be listed exactly if they can be put in order (`Orderly`), as integers can
(`orderly_of_integerTeams`). If, besides, every piece finds its candidate moves, a judgement is always given: whether
the team has a royal piece and is threatened (`royalAttacked_eq`). So what is judged is a matter of what stands where,
and not of the order in which it is looked at. Moves bring no new pieces to a board, so each of them can be judged if
the board behind none of them lacks a rule (`exists_exposure`), and so can several in turn (`exists_unexposed`).
-/

namespace Hyperchess.Board

variable {b : Board} {v : Variant} {m : Move} {team : Data}

/-! ## Teams in order -/

/-- The teams of the pieces on the board can be put in order: none is a list or a map, and any two of them that are not
the same have an order. -/
structure Orderly (b : Board) : Prop where
  isKey : ∀ ⦃c : Coord⦄ ⦃p : Piece⦄, b.get c = .ok (some (.piece p)) → p.team.isKey = true
  isComparable : ∀ ⦃c d : Coord⦄ ⦃p q : Piece⦄, b.get c = .ok (some (.piece p)) → b.get d = .ok (some (.piece q)) →
    p.team.same q.team = false → p.team.isComparable q.team = true

/-- The teams of the pieces on the board are integers; a truth value counts as one. -/
def IntegerTeams (b : Board) : Prop :=
  ∀ ⦃c : Coord⦄ ⦃p : Piece⦄, b.get c = .ok (some (.piece p)) → Audit.isInteger p.team = true

theorem isKey_of_isInteger {t : Data} (h : Audit.isInteger t = true) : t.isKey = true := by
  cases t <;> first | rfl | cases h

theorem isComparable_of_isInteger {s t : Data} (hs : Audit.isInteger s = true) (ht : Audit.isInteger t = true) :
    s.isComparable t = true := by
  have hscale {t : Data} (ht : Audit.isInteger t = true) : t.scale? = some .numbers := by
    cases t <;> first | rfl | cases ht
  exact Data.isComparable_iff.2 ⟨.numbers, hscale hs, hscale ht⟩

/-- Integers can be put in order. -/
theorem orderly_of_integerTeams (h : b.IntegerTeams) : b.Orderly := by
  constructor
  · intro c p hp
    exact isKey_of_isInteger (h hp)
  · intro c d p q hp hq _
    exact isComparable_of_isInteger (h hp) (h hq)

theorem teamOf_piece (p : Piece) : teamOf (.piece p) = if p.team.isKey = true then .ok p.team else .error .wrongType :=
  rfl

theorem Sound.exists_get (h : b.Sound) {e : Coord × Occupant} (he : e ∈ b.index) :
    ∃ p, e.2 = .piece p ∧ b.get e.1 = .ok (some (.piece p)) := by
  obtain ⟨-, p, hp, -⟩ := h.of_mem_index he
  exact ⟨p, hp, h.get_eq_piece_iff.2 (hp ▸ he)⟩

/-- The teams that are gathered are those of the pieces on the board. -/
theorem mem_mapM_teamOf (h : b.Sound) {all : List Data} (hall : (b.index.mapM fun e => teamOf e.2) = .ok all) :
    (∀ ⦃c : Coord⦄ ⦃p : Piece⦄, b.get c = .ok (some (.piece p)) → p.team.isKey = true) ∧
      ∀ t, t ∈ all ↔ ∃ c p, b.get c = .ok (some (.piece p)) ∧ p.team = t := by
  have hkey : ∀ ⦃c : Coord⦄ ⦃p : Piece⦄, b.get c = .ok (some (.piece p)) → p.team.isKey = true := by
    intro c p hp
    obtain ⟨t, ht⟩ := Outcome.exists_of_mapM hall _ (h.get_eq_piece_iff.1 hp)
    rw [teamOf_piece] at ht
    split at ht
    · assumption
    · cases ht
  refine ⟨hkey, fun t => ?_⟩
  rw [Outcome.mem_mapM hall]
  constructor
  · rintro ⟨e, he, ht⟩
    obtain ⟨p, hp, hget⟩ := h.exists_get he
    rw [hp, teamOf_piece, if_pos (hkey hget)] at ht
    exact ⟨e.1, p, hget, Except.ok.inj ht⟩
  · rintro ⟨c, p, hp, rfl⟩
    exact ⟨(c, .piece p), h.get_eq_piece_iff.1 hp, by rw [teamOf_piece, if_pos (hkey hp)]⟩

/-- Teams cannot be gathered if one of them is a list or a map. -/
theorem mapM_teamOf_eq_error (h : b.Sound) {e : Fault} (hall : (b.index.mapM fun e => teamOf e.2) = .error e) :
    e = .wrongType ∧ ¬b.Orderly := by
  obtain ⟨entry, hentry, hfail⟩ := Outcome.exists_of_mapM_eq_error hall
  obtain ⟨p, hp, hget⟩ := h.exists_get hentry
  rw [hp, teamOf_piece] at hfail
  split at hfail
  · cases hfail
  · rename_i hkey
    cases hfail
    exact ⟨rfl, fun horderly => hkey (horderly.isKey hget)⟩

/-- **The teams of a sound board are listed exactly if they can be put in order.** -/
theorem teams_eq_of_sound (h : b.Sound) :
    b.Orderly ∧ (∃ teams, b.teams = .ok teams) ∨ ¬b.Orderly ∧ b.teams = .error .wrongType := by
  unfold teams
  cases hall : b.index.mapM fun e => teamOf e.2 with
  | error e =>
    obtain ⟨rfl, hnot⟩ := mapM_teamOf_eq_error h hall
    exact Or.inr ⟨hnot, rfl⟩
  | ok all =>
    obtain ⟨hkey, hmem⟩ := mem_mapM_teamOf h hall
    have hsorted : (∃ sorted, Data.sorted? (Data.distinct all) = some sorted) ↔ b.Orderly := by
      rw [Data.exists_sorted?_iff]
      constructor
      · intro hcomparable
        refine ⟨hkey, fun c d p q hp hq hne => ?_⟩
        exact hcomparable _ ((hmem _).2 ⟨c, p, hp, rfl⟩) _ ((hmem _).2 ⟨d, q, hq, rfl⟩) hne
      · intro horderly x hx y hy hne
        obtain ⟨c, p, hp, rfl⟩ := (hmem x).1 hx
        obtain ⟨d, q, hq, rfl⟩ := (hmem y).1 hy
        exact horderly.isComparable hp hq hne
    rw [← hsorted, Outcome.ok_bind]
    cases Data.sorted? (Data.distinct all) with
    | none => exact Or.inr ⟨by simp, rfl⟩
    | some sorted => exact Or.inl ⟨⟨sorted, rfl⟩, sorted, rfl⟩

/-! ## Judgements that are given -/

/-- The royal squares are found where every piece has a rule. -/
theorem exists_squaresOf (h : b.Sound) (hruled : b.Ruled v.book) (team : Data) :
    ∃ royal, b.squaresOf team v.isRoyal = .ok royal := by
  apply Outcome.exists_filterMapM
  intro e he
  obtain ⟨p, hp, hget⟩ := h.exists_get he
  obtain ⟨kind, hkind⟩ := hruled.exists_text hget
  have hroyal : v.isRoyal p.id = .ok (p.id.isIn v.royals) := by
    rw [hkind]
    rfl
  simp only [hp, Occupant.asPiece, Outcome.ok_bind, hroyal]
  split
  · split
    · exact ⟨_, rfl⟩
    · exact ⟨_, rfl⟩
  · exact ⟨_, rfl⟩

/-- Where every piece finds its candidate moves, it can be said whether squares are attacked. -/
theorem exists_attacked (h : b.Sound) (hsupplied : b.Supplied v.book) (team : Data) (squares : List Coord)
    (others : List Data) : ∃ verdict, b.attacked v team squares others = .ok verdict := by
  induction others with
  | nil => exact ⟨false, rfl⟩
  | cons other rest ih =>
    have hteam : ∃ replies, b.teamCandidates v.book other = .ok replies := by
      apply (exists_teamCandidates_iff h).2
      intro c p hp _
      exact hsupplied hp
    obtain ⟨replies, hreplies⟩ := hteam
    unfold attacked
    rw [hreplies]
    split
    · exact ih
    · rw [Outcome.ok_bind]
      split
      · exact ⟨true, rfl⟩
      · exact ih

open Classical in
/-- **A judgement is given where every piece finds its candidate moves**, unless there is a royal piece and the teams
cannot be put in order. -/
theorem royalAttacked_eq (h : b.Sound) (hsupplied : b.Supplied v.book) (team : Data) : b.royalAttacked v team =
    if ∃ c, b.HoldsRoyal v team c then
      if b.Orderly then .ok (decide (b.Threatened v team)) else .error .wrongType
    else .ok false := by
  obtain ⟨royal, hroyal⟩ := exists_squaresOf h hsupplied.ruled team
  have hempty : royal.isEmpty = true ↔ ¬∃ c, b.HoldsRoyal v team c := by
    rw [List.isEmpty_iff, List.eq_nil_iff_forall_not_mem, not_exists]
    exact forall_congr' fun c => not_congr (mem_squaresOf h hroyal)
  by_cases hholds : ∃ c, b.HoldsRoyal v team c
  · have hne : ¬royal.isEmpty = true := fun he => hempty.1 he hholds
    rw [if_pos hholds]
    rcases teams_eq_of_sound h with ⟨horderly, teams, hteams⟩ | ⟨hnot, hteams⟩
    · obtain ⟨verdict, hverdict⟩ := exists_attacked h hsupplied team royal teams
      have hresult : b.royalAttacked v team = .ok verdict := by
        rw [royalAttacked, hroyal, Outcome.ok_bind, if_neg hne, hteams]
        exact hverdict
      rw [if_pos horderly, hresult]
      congr 1
      exact Bool.eq_iff_iff.2 ((royalAttacked_eq_true_iff h hresult).trans decide_eq_true_iff.symm)
    · rw [if_neg hnot, royalAttacked, hroyal, Outcome.ok_bind, if_neg hne, hteams]
      rfl
  · rw [if_neg hholds, royalAttacked, hroyal, Outcome.ok_bind, if_pos (hempty.2 hholds)]
    rfl

/-- A judgement that is not given is one for which teams that have no order would have to be listed. -/
theorem royalAttacked_eq_error (h : b.Sound) (hsupplied : b.Supplied v.book) {e : Fault}
    (hfail : b.royalAttacked v team = .error e) : e = .wrongType := by
  rw [royalAttacked_eq h hsupplied] at hfail
  split at hfail
  · split at hfail
    · cases hfail
    · cases hfail
      rfl
  · cases hfail

/-! ## Judging moves -/

section Moved

variable (h : b.Sound) (hs : b.contains m.src = true) (hd : b.contains m.dst = true)

include h hs hd

/-- A move brings no new pieces to the board. -/
theorem exists_get_of_moved {c : Coord} {p : Piece} (hp : (b.moved m).get c = .ok (some (.piece p))) :
    ∃ d, b.get d = .ok (some (.piece p)) := by
  rcases get_piece_moved h hs hd hp with ⟨-, hp⟩ | ⟨-, -, hp⟩
  · exact ⟨m.src, hp⟩
  · exact ⟨c, hp⟩

theorem Ruled.moved {book : RuleBook} (hruled : b.Ruled book) : (b.moved m).Ruled book := by
  intro c p hp
  obtain ⟨d, hp⟩ := exists_get_of_moved h hs hd hp
  exact hruled hp

theorem Orderly.moved (horderly : b.Orderly) : (b.moved m).Orderly := by
  constructor
  · intro c p hp
    obtain ⟨d, hp⟩ := exists_get_of_moved h hs hd hp
    exact horderly.isKey hp
  · intro c d p q hp hq hne
    obtain ⟨c, hp⟩ := exists_get_of_moved h hs hd hp
    obtain ⟨d, hq⟩ := exists_get_of_moved h hs hd hq
    exact horderly.isComparable hp hq hne

/-- A move between two squares is judged by the board behind it, if it is the move of a piece. -/
theorem exposure_eq (v : Variant) (team : Data) : b.exposure v m team =
    if (b.pieceAt m.src).isSome then (b.moved m).royalAttacked v team else .ok false := by
  rw [exposure, h.populated.get_eq hs, move_eq h hs hd]
  cases b.pieceAt m.src <;> rfl

/-- A judgement of a move that is not given is one for which teams that have no order would have to be listed. -/
theorem exposure_eq_error (hsupplied : (b.moved m).Supplied v.book) {e : Fault}
    (hfail : b.exposure v m team = .error e) : e = .wrongType := by
  rw [exposure_eq h hs hd] at hfail
  split at hfail
  · exact royalAttacked_eq_error (h.moved hs hd) hsupplied hfail
  · cases hfail

/-- Where every piece has a rule and the teams can be put in order, a move between two squares can be judged. -/
theorem exists_exposure (hroom : v.book.Roomy) (hclosed : v.book.Closed) (hruled : b.Ruled v.book)
    (horderly : b.Orderly) (team : Data) : ∃ verdict, b.exposure v m team = .ok verdict := by
  have hmoved : (b.moved m).Sound := h.moved hs hd
  have hsupplied : (b.moved m).Supplied v.book := (hruled.moved h hs hd).supplied hmoved.populated hroom hclosed
  rw [exposure_eq h hs hd, royalAttacked_eq hmoved hsupplied, if_pos (horderly.moved h hs hd)]
  split
  · split
    · exact ⟨_, rfl⟩
    · exact ⟨false, rfl⟩
  · exact ⟨false, rfl⟩

end Moved

/-- A move that leaves the board is refused, unless it is seen before that its source is empty. -/
theorem exposure_outside (h : b.Sound) (hm : ¬(b.contains m.src = true ∧ b.contains m.dst = true)) (v : Variant)
    (team : Data) : b.exposure v m team =
      if (b.pieceAt m.src).isSome || !b.contains m.src then .error (b.edgeFault m) else .ok false := by
  rw [exposure, move_eq_error hm]
  cases hs : b.contains m.src with
  | false => simp [get_eq_error hs, edgeFault, hs]
  | true =>
    rw [h.populated.get_eq hs]
    cases b.pieceAt m.src <;> rfl

/-- Choosing among moves judges each of them. -/
theorem unexposed_eq_flatMapM (b : Board) (v : Variant) (team : Data) (moves : List Move) :
    b.unexposed v team moves =
      moves.flatMapM fun m => (b.exposure v m team).map fun exposed => if exposed then [] else [m] := by
  induction moves with
  | nil => rfl
  | cons m rest ih =>
    rw [unexposed, List.flatMapM_cons, ih]
    cases b.exposure v m team with
    | error e => rfl
    | ok exposed =>
      cases exposed with
      | false => rfl
      | true =>
        rw [Except.map, Outcome.ok_bind, Outcome.ok_bind]
        rfl

/-- Moves between squares of the board can be chosen from. -/
theorem exists_unexposed (h : b.Sound) (hroom : v.book.Roomy) (hclosed : v.book.Closed) (hruled : b.Ruled v.book)
    (horderly : b.Orderly) (team : Data) {moves : List Move}
    (hends : ∀ m ∈ moves, b.contains m.src = true ∧ b.contains m.dst = true) :
    ∃ kept, b.unexposed v team moves = .ok kept := by
  rw [unexposed_eq_flatMapM]
  apply Outcome.exists_flatMapM_iff.2
  intro m hm
  obtain ⟨hs, hd⟩ := hends m hm
  obtain ⟨verdict, hverdict⟩ := exists_exposure h hs hd hroom hclosed hruled horderly team
  exact ⟨if verdict then [] else [m], by rw [hverdict]; rfl⟩

end Hyperchess.Board
