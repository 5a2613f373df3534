import Hyperchess.Proofs.Board.Arrangement
import Hyperchess.Proofs.Data.Order
import Hyperchess.Proofs.Safety.Trial

/-!
# What the judgement of a move means

A team is threatened if a piece of another team has a candidate move to a square with a royal piece of that team
(`Threatened`). Judging a board finds out whether that is so (`royalAttacked_eq_true_iff`): it looks at one team after
the other and stops at the first candidate of that kind, so it may succeed although a rule is missing. A move is judged
by the board behind it, and choosing among moves is filtering by that judgement (`exposes_exact`).
-/

namespace Hyperchess.Board

variable {b : Board} {v : Variant} {m : Move} {team : Data} {c : Coord}

/-- A royal piece of a team stands on the square. -/
def HoldsRoyal (b : Board) (v : Variant) (team : Data) (c : Coord) : Prop :=
  ∃ p, b.get c = .ok (some (.piece p)) ∧ p.team.same team = true ∧ v.isRoyal p.id = .ok true

/-- A piece of another team has a candidate move to a square with a royal piece of the team. -/
def Threatened (b : Board) (v : Variant) (team : Data) : Prop :=
  ∃ c p replies, b.get c = .ok (some (.piece p)) ∧ p.team.same team = false ∧ b.candidates v.book c = .ok replies ∧
    ∃ reply ∈ replies, b.HoldsRoyal v team reply.dst

/-- The move leads from an occupied square to a board on which the team is threatened. -/
def Exposed (b : Board) (v : Variant) (team : Data) (m : Move) : Prop :=
  ∃ o captured b', b.get m.src = .ok (some o) ∧ b.move m = (.ok captured, b') ∧ b'.Threatened v team

/-! ## Royal squares -/

/-- The squares found are those with royal pieces of the team. -/
theorem mem_squaresOf (h : b.Sound) {royal : List Coord} (hr : b.squaresOf team v.isRoyal = .ok royal) :
    c ∈ royal ↔ b.HoldsRoyal v team c := by
  rw [Outcome.mem_filterMapM hr]
  constructor
  · rintro ⟨e, he, hf⟩
    obtain ⟨-, p, hp, -⟩ := h.of_mem_index he
    rw [hp] at hf
    simp only [Occupant.asPiece, Outcome.ok_bind] at hf
    split at hf
    · rename_i hteam
      obtain ⟨royal, hroyal, hf⟩ := Outcome.bind_eq_ok_iff.1 hf
      cases royal with
      | false => cases hf
      | true =>
        cases hf
        exact ⟨p, h.get_eq_piece_iff.2 (hp ▸ he), hteam, hroyal⟩
    · cases hf
  · rintro ⟨p, hp, hteam, hroyal⟩
    refine ⟨(c, .piece p), h.get_eq_piece_iff.1 hp, ?_⟩
    simp [Occupant.asPiece, hteam, hroyal]

/-! ## Teams -/

theorem team_eq_of_teamOf {p : Piece} {t : Data} (h : teamOf (.piece p) = .ok t) : p.team = t := by
  simp only [teamOf, Occupant.asPiece, Outcome.ok_bind] at h
  split at h
  · cases h
    rfl
  · cases h

/-- The teams found are those of the pieces on the board, up to values that count as the same. -/
theorem teams_spec (h : b.Sound) {teams : List Data} (ht : b.teams = .ok teams) :
    (∀ t ∈ teams, ∃ c p, b.get c = .ok (some (.piece p)) ∧ p.team = t) ∧
      ∀ c p, b.get c = .ok (some (.piece p)) → ∃ t ∈ teams, t.same p.team = true := by
  obtain ⟨all, hall, ht⟩ := Outcome.bind_eq_ok_iff.1 ht
  have hteams : ∀ t, t ∈ teams ↔ t ∈ Data.distinct all := by
    intro t
    split at ht
    · rename_i sorted hs
      cases ht
      exact Data.mem_of_sorted? hs
    · cases ht
  constructor
  · intro t hin
    obtain ⟨e, he, hte⟩ := (Outcome.mem_mapM hall).1 (Data.mem_of_mem_distinct ((hteams t).1 hin))
    obtain ⟨-, p, hp, -⟩ := h.of_mem_index he
    rw [hp] at hte
    exact ⟨e.1, p, h.get_eq_piece_iff.2 (hp ▸ he), team_eq_of_teamOf hte⟩
  · intro c p hp
    have he := h.get_eq_piece_iff.1 hp
    obtain ⟨t, hte⟩ := Outcome.exists_of_mapM hall _ he
    obtain ⟨s, hs, hst⟩ := Data.exists_mem_distinct ((Outcome.mem_mapM hall).2 ⟨_, he, hte⟩)
    exact ⟨s, (hteams s).2 hs, team_eq_of_teamOf hte ▸ hst⟩

/-! ## Candidates of a team -/

section Candidates

variable {book : RuleBook} {entries : List (Coord × Occupant)} {found : List Move}

theorem candidatesFrom_cons {e : Coord × Occupant} {p : Piece} (he : e.2 = .piece p) (rest : List (Coord × Occupant)) :
    b.candidatesFrom book team (e :: rest) =
      (if p.team.same team then b.candidates book e.1 else .ok []) >>= fun moves => do
        let more ← b.candidatesFrom book team rest
        return moves ++ more := by
  simp only [candidatesFrom, he, Occupant.asPiece, Outcome.ok_bind]
  split <;> rfl

/-- The candidates of a team are those of its pieces. -/
theorem mem_candidatesFrom (hp : ∀ e ∈ entries, ∃ p, e.2 = .piece p)
    (hf : b.candidatesFrom book team entries = .ok found) {r : Move} :
    r ∈ found ↔ ∃ e ∈ entries, ∃ p replies, e.2 = .piece p ∧ p.team.same team = true ∧
      b.candidates book e.1 = .ok replies ∧ r ∈ replies := by
  induction entries generalizing found with
  | nil =>
    cases hf
    simp
  | cons e rest ih =>
    obtain ⟨⟨p, he⟩, hrest⟩ := List.forall_mem_cons.1 hp
    rw [candidatesFrom_cons he] at hf
    obtain ⟨moves, hmoves, hf⟩ := Outcome.bind_eq_ok_iff.1 hf
    obtain ⟨more, hmore, hf⟩ := Outcome.bind_eq_ok_iff.1 hf
    cases hf
    rw [List.mem_append, ih hrest hmore, List.exists_mem_cons_iff]
    refine or_congr ?_ Iff.rfl
    cases ht : p.team.same team with
    | false =>
      rw [ht] at hmoves
      cases hmoves
      simp [he, ht]
    | true =>
      rw [if_pos ht] at hmoves
      simp [he, ht, hmoves]

/-- The candidates of a team are found if and only if those of each of its pieces are. -/
theorem exists_candidatesFrom_iff (hp : ∀ e ∈ entries, ∃ p, e.2 = .piece p) :
    (∃ found, b.candidatesFrom book team entries = .ok found) ↔
      ∀ e ∈ entries, ∀ p, e.2 = .piece p → p.team.same team = true →
        ∃ replies, b.candidates book e.1 = .ok replies := by
  induction entries with
  | nil => simp [candidatesFrom]
  | cons e rest ih =>
    obtain ⟨⟨p, he⟩, hrest⟩ := List.forall_mem_cons.1 hp
    rw [List.forall_mem_cons, ← ih hrest, candidatesFrom_cons he]
    constructor
    · rintro ⟨found, hf⟩
      obtain ⟨moves, hmoves, hf⟩ := Outcome.bind_eq_ok_iff.1 hf
      obtain ⟨more, hmore, -⟩ := Outcome.bind_eq_ok_iff.1 hf
      refine ⟨fun p' hp' ht => ⟨moves, ?_⟩, more, hmore⟩
      rw [he] at hp'
      cases hp'
      rwa [if_pos ht] at hmoves
    · rintro ⟨hfirst, more, hmore⟩
      cases ht : p.team.same team with
      | false => exact ⟨more, by simp [hmore]⟩
      | true =>
        obtain ⟨replies, hr⟩ := hfirst p he ht
        exact ⟨replies ++ more, by simp [hr, hmore]⟩

theorem Sound.exists_piece (h : b.Sound) : ∀ e ∈ b.index, ∃ p, e.2 = .piece p :=
  fun _ he => (h.of_mem_index he).2.imp fun _ hp => hp.1

/-- A reply is among the candidates of a team if and only if a piece of the team has it. -/
theorem mem_teamCandidates (h : b.Sound) (hf : b.teamCandidates book team = .ok found) {r : Move} :
    r ∈ found ↔ ∃ c p replies, b.get c = .ok (some (.piece p)) ∧ p.team.same team = true ∧
      b.candidates book c = .ok replies ∧ r ∈ replies := by
  rw [mem_candidatesFrom h.exists_piece hf]
  constructor
  · rintro ⟨⟨c, o⟩, he, p, replies, rfl, hr⟩
    exact ⟨c, p, replies, h.get_eq_piece_iff.2 he, hr⟩
  · rintro ⟨c, p, replies, hp, hr⟩
    exact ⟨(c, .piece p), h.get_eq_piece_iff.1 hp, p, replies, rfl, hr⟩

/-- The candidates of a team are found if and only if those of each of its pieces are. -/
theorem exists_teamCandidates_iff (h : b.Sound) : (∃ found, b.teamCandidates book team = .ok found) ↔
    ∀ c p, b.get c = .ok (some (.piece p)) → p.team.same team = true →
      ∃ replies, b.candidates book c = .ok replies := by
  refine (exists_candidatesFrom_iff h.exists_piece).trans ?_
  constructor
  · exact fun hall c p hp => hall _ (h.get_eq_piece_iff.1 hp) p rfl
  · rintro hall ⟨c, o⟩ he p rfl
    exact hall c p (h.get_eq_piece_iff.2 he)

end Candidates

/-! ## Attacks -/

section Attacks

variable {squares : List Coord} {others : List Data}

/-- If the squares are attacked, one of the other teams has a candidate move to one of them. -/
theorem exists_of_attacked (ha : b.attacked v team squares others = .ok true) :
    ∃ other ∈ others, other.same team = false ∧ ∃ replies, b.teamCandidates v.book other = .ok replies ∧
      ∃ r ∈ replies, r.dst ∈ squares := by
  induction others with
  | nil => cases ha
  | cons other rest ih =>
    unfold attacked at ha
    split at ha
    · obtain ⟨t, ht, hrest⟩ := ih ha
      exact ⟨t, List.mem_cons_of_mem _ ht, hrest⟩
    · rename_i hne
      obtain ⟨replies, hr, ha⟩ := Outcome.bind_eq_ok_iff.1 ha
      split at ha
      · rename_i hany
        obtain ⟨r, hin, hdst⟩ := List.any_eq_true.1 hany
        exact ⟨other, List.mem_cons_self, by simpa using hne, replies, hr, r, hin, by simpa using hdst⟩
      · obtain ⟨t, ht, hrest⟩ := ih ha
        exact ⟨t, List.mem_cons_of_mem _ ht, hrest⟩

/-- If the squares are not attacked, the candidates of all other teams were found, and none leads to one of them. -/
theorem forall_of_not_attacked (ha : b.attacked v team squares others = .ok false) :
    ∀ other ∈ others, other.same team = false → ∃ replies, b.teamCandidates v.book other = .ok replies ∧
      ∀ r ∈ replies, r.dst ∉ squares := by
  induction others with
  | nil => exact fun _ hin => absurd hin List.not_mem_nil
  | cons other rest ih =>
    unfold attacked at ha
    split at ha
    · rename_i hsame
      refine List.forall_mem_cons.2 ⟨fun hne => ?_, ih ha⟩
      rw [hsame] at hne
      cases hne
    · obtain ⟨replies, hr, ha⟩ := Outcome.bind_eq_ok_iff.1 ha
      split at ha
      · cases ha
      · rename_i hany
        refine List.forall_mem_cons.2 ⟨fun _ => ⟨replies, hr, fun r hin hdst => hany ?_⟩, ih ha⟩
        exact List.any_eq_true.2 ⟨r, hin, by simpa using hdst⟩

end Attacks

/-- A team that is found to be attacked is threatened. -/
theorem threatened_of_royalAttacked (h : b.Sound) (hv : b.royalAttacked v team = .ok true) : b.Threatened v team := by
  obtain ⟨royal, hroyal, hv⟩ := Outcome.bind_eq_ok_iff.1 hv
  split at hv
  · cases hv
  · obtain ⟨teams, -, hv⟩ := Outcome.bind_eq_ok_iff.1 hv
    obtain ⟨other, -, hne, replies, hr, r, hin, hdst⟩ := exists_of_attacked hv
    obtain ⟨c, p, own, hp, hteam, hown, hmem⟩ := (mem_teamCandidates h hr).1 hin
    have hother : p.team.same team = false := (Data.same_congr hteam team).trans hne
    exact ⟨c, p, own, hp, hother, hown, r, hmem, (mem_squaresOf h hroyal).1 hdst⟩

/-- If a team with a royal piece is found not to be attacked, the candidates of every other piece were found, and none
leads to a royal piece of the team. -/
theorem candidates_of_not_royalAttacked (h : b.Sound) (hv : b.royalAttacked v team = .ok false)
    (hroyal : ∃ d, b.HoldsRoyal v team d) {p : Piece} (hp : b.get c = .ok (some (.piece p)))
    (hteam : p.team.same team = false) :
    ∃ replies, b.candidates v.book c = .ok replies ∧ ∀ r ∈ replies, ¬b.HoldsRoyal v team r.dst := by
  obtain ⟨d, hd⟩ := hroyal
  obtain ⟨royal, hr, hv⟩ := Outcome.bind_eq_ok_iff.1 hv
  split at hv
  · rename_i hempty
    have hin := (mem_squaresOf h hr).2 hd
    rw [List.isEmpty_iff.1 hempty] at hin
    cases hin
  · obtain ⟨teams, ht, hv⟩ := Outcome.bind_eq_ok_iff.1 hv
    obtain ⟨t, hin, hsame⟩ := (teams_spec h ht).2 c p hp
    have hne : t.same team = false := (Data.same_congr hsame team).trans hteam
    obtain ⟨found, hfound, hnone⟩ := forall_of_not_attacked hv t hin hne
    rw [Data.same_comm] at hsame
    obtain ⟨replies, hreplies⟩ := (exists_teamCandidates_iff h).1 ⟨found, hfound⟩ c p hp hsame
    refine ⟨replies, hreplies, fun r hmem hholds => hnone r ?_ ((mem_squaresOf h hr).2 hholds)⟩
    exact (mem_teamCandidates h hfound).2 ⟨c, p, replies, hp, hsame, hreplies, hmem⟩

/-- **What is found out about a board is whether the team is threatened.** -/
theorem royalAttacked_eq_true_iff (h : b.Sound) {verdict : Bool} (hv : b.royalAttacked v team = .ok verdict) :
    verdict = true ↔ b.Threatened v team := by
  cases verdict with
  | true => simp [threatened_of_royalAttacked h hv]
  | false =>
    simp only [Bool.false_eq_true, false_iff]
    rintro ⟨c, p, replies, hp, hteam, hr, r, hin, hholds⟩
    obtain ⟨replies', hr', hnone⟩ := candidates_of_not_royalAttacked h hv ⟨_, hholds⟩ hp hteam
    rw [hr] at hr'
    cases hr'
    exact hnone r hin hholds

/-! ## Judging moves -/

/-- A judgement that is given says whether the move exposes the team. -/
theorem exposure_eq_true_iff (h : b.Sound) {verdict : Bool} (hv : b.exposure v m team = .ok verdict) :
    verdict = true ↔ b.Exposed v team m := by
  unfold exposure at hv
  split at hv
  · cases hv
  · rename_i hnone
    cases hv
    simp only [Bool.false_eq_true, false_iff]
    rintro ⟨o, captured, b', ho, -⟩
    rw [hnone] at ho
    cases ho
  · rename_i o ho
    split at hv
    · cases hv
    · rename_i captured b' hmove
      have hb' : b'.Sound := by simpa [hmove] using h.move m
      rw [royalAttacked_eq_true_iff hb' hv]
      constructor
      · exact fun ht => ⟨o, captured, b', ho, hmove, ht⟩
      · rintro ⟨_, _, _, -, hmove', ht⟩
        rw [hmove] at hmove'
        cases hmove'
        exact ht

/-- Choosing among moves keeps those that are judged not to expose the team, in their order. -/
theorem unexposed_eq_filter {moves kept : List Move} (hk : b.unexposed v team moves = .ok kept) :
    (∀ m ∈ moves, ∃ verdict, b.exposure v m team = .ok verdict) ∧
      kept = moves.filter fun m => b.exposure v m team = .ok false := by
  induction moves generalizing kept with
  | nil =>
    cases hk
    simp
  | cons m rest ih =>
    obtain ⟨exposed, hexposed, hk⟩ := Outcome.bind_eq_ok_iff.1 hk
    obtain ⟨kept', hkept', hk⟩ := Outcome.bind_eq_ok_iff.1 hk
    obtain ⟨hall, hfilter⟩ := ih hkept'
    refine ⟨List.forall_mem_cons.2 ⟨⟨exposed, hexposed⟩, hall⟩, ?_⟩
    cases hk
    cases exposed with
    | true => simp [hexposed, hfilter]
    | false => simp [hexposed, hfilter]

open Classical in
/-- **Judgements are exact.** Whether a move exposes a team, if that can be said at all, is whether the team is
threatened on the board behind it, and never so without a royal piece there; and the moves chosen among several are
those that do not expose the team, as the board was before, in their order and as often as they were given. -/
theorem exposes_legal_exact (h : b.Sound) (v : Variant) (team : Data) :
    (∀ m verdict, (b.exposes v m team).1 = .ok verdict → (verdict = true ↔ b.Exposed v team m) ∧
      ((∀ c, ¬(b.move m).2.HoldsRoyal v team c) → verdict = false)) ∧
    ∀ moves kept, (b.legal v team moves).1 = .ok kept →
      kept = moves.filter (fun m => (b.exposes v m team).1 = .ok false) ∧
        kept = moves.filter fun m => ¬b.Exposed v team m := by
  simp only [exposes_eq h, legal_eq h]
  refine ⟨fun m verdict hv => ⟨exposure_eq_true_iff h hv, fun hnone => ?_⟩, fun moves kept hk => ?_⟩
  · refine Bool.eq_false_iff.2 fun htrue => ?_
    obtain ⟨_, _, _, -, hmove, _, _, _, -, -, -, _, -, hholds⟩ := (exposure_eq_true_iff h hv).1 htrue
    rw [hmove] at hnone
    exact hnone _ hholds
  · obtain ⟨hall, hfilter⟩ := unexposed_eq_filter hk
    refine ⟨hfilter, hfilter.trans (List.filter_congr fun m hm => ?_)⟩
    obtain ⟨verdict, hv⟩ := hall m hm
    rw [hv, ← exposure_eq_true_iff h hv]
    cases verdict <;> simp

open Classical in
/-- A king that steps in front of a rook is exposed, one that steps aside is not. -/
theorem exposes_legal_exact_rook :
    let king : Coord × Piece := (⟨0, 1, 0, 0⟩, ⟨0, .text "K", .int 0⟩)
    let rook : Coord × Piece := (⟨2, 0, 0, 0⟩, ⟨1, .text "R", .int 1⟩)
    let v : Variant := ⟨{ custom := [] }, [.text "K"]⟩
    let front : Move := ⟨⟨0, 1, 0, 0⟩, ⟨0, 0, 0, 0⟩, none⟩
    let aside : Move := ⟨⟨0, 1, 0, 0⟩, ⟨1, 1, 0, 0⟩, none⟩
    ∃ b, arranged ⟨3, 2, 1, 1⟩ #[[], []] [king, rook] = .ok b ∧ b.Exposed v (.int 0) front ∧
      [aside, aside] = [aside, front, aside].filter fun m => ¬b.Exposed v (.int 0) m := by
  intro king rook v front aside
  have hrun : (arranged ⟨3, 2, 1, 1⟩ #[[], []] [king, rook] >>= fun b =>
      (b.exposes v front (.int 0)).1 >>= fun verdict =>
        (b.legal v (.int 0) [aside, front, aside]).1 >>= fun kept => .ok (verdict, kept)) =
      .ok (true, [aside, aside]) := by decide +kernel
  obtain ⟨b, hb, hrun⟩ := Outcome.bind_eq_ok_iff.1 hrun
  obtain ⟨verdict, hv, hrun⟩ := Outcome.bind_eq_ok_iff.1 hrun
  obtain ⟨kept, hk, hrun⟩ := Outcome.bind_eq_ok_iff.1 hrun
  cases hrun
  have hsound : b.Sound := arranged_sound hb (by simp [king, rook, contains, arranged_size hb])
  have hexact := exposes_legal_exact hsound v (.int 0)
  exact ⟨b, hb, (hexact.1 front true hv).1.1 rfl, (hexact.2 _ _ hk).2⟩

end Hyperchess.Board
