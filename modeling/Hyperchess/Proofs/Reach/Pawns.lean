import Hyperchess.Proofs.Reach.Supply
import Hyperchess.Proofs.Rule.Builtin

/-!
# Pawns

Pawns make one step at a time, along one of the leaves of their team. A leaf leads to its square if its conditions count
and the square can be entered: a quiet leaf only if the square is empty, a capturing one also if a piece of another team
stands there (`leadsTo_quiet_iff`, `leadsTo_capturing_iff`). Put together, the leaves of a team lead to the goals of its
pawns (`PawnGoal`, `pawnGoal_iff`), and these are the squares of their candidate moves (`candidates_pawn`).
-/

namespace Hyperchess

namespace Standing

variable {s : Standing} {forward : Int} {d : Coord}

/-- The squares that a pawn moves to, in a team that goes forward in this direction. -/
inductive PawnGoal (s : Standing) (forward : Int) : Coord → Prop
  /-- Forward along the second axis. -/
  | up : s.board.get (s.square + ⟨0, forward, 0, 0⟩) = .ok none → PawnGoal s forward (s.square + ⟨0, forward, 0, 0⟩)
  /-- Forward along the fourth axis. -/
  | across : s.board.get (s.square + ⟨0, 0, 0, forward⟩) = .ok none → PawnGoal s forward (s.square + ⟨0, 0, 0, forward⟩)
  /-- Two squares forward, before the pawn has moved. -/
  | double : (s.board.flagsOf s.piece).has Flags.firstMove = true →
      s.board.get (s.square + ⟨0, forward, 0, 0⟩) = .ok none →
      s.board.get (s.square + ⟨0, 2 * forward, 0, 0⟩) = .ok none →
      PawnGoal s forward (s.square + ⟨0, 2 * forward, 0, 0⟩)
  /-- Onto a piece of another team, or onto an empty square with a flag. -/
  | left : s.Enemy (s.square + ⟨1, forward, 0, 0⟩) ∨
      (s.board.flagsOf s.piece).has Flags.left = true ∧ s.board.get (s.square + ⟨1, forward, 0, 0⟩) = .ok none →
      PawnGoal s forward (s.square + ⟨1, forward, 0, 0⟩)
  /-- The same on the other side, with another flag. -/
  | right : s.Enemy (s.square + ⟨-1, forward, 0, 0⟩) ∨
      (s.board.flagsOf s.piece).has Flags.right = true ∧ s.board.get (s.square + ⟨-1, forward, 0, 0⟩) = .ok none →
      PawnGoal s forward (s.square + ⟨-1, forward, 0, 0⟩)

/-! ## Conditions of pawns -/

theorem enemy_iff : s.Enemy d ↔ ∃ q ∈ s.board.pieceAt d, q.team.same s.piece.team = false := by
  simp [Enemy, Board.pieceAt_eq_some_iff]

theorem meets_enemy_iff : s.Meets d { enemy := some .origin } ↔ s.Enemy d := by
  simp [Meets, fulfils_iff, enemy_iff, Coord.add_origin]

theorem meets_team_iff {n : Int} : s.Meets d { team := some n } ↔ s.piece.team.same (.int n) = true := by
  simp [Meets, fulfils_iff]

theorem meets_flag_iff {n : Int} : s.Meets d { flag := some n } ↔ (s.board.flagsOf s.piece).has (.int n) = true := by
  simp [Meets, fulfils_iff]

theorem meets_vacant_iff {offset : Coord} :
    s.Meets d { piece := some offset, inverted := true } ↔ s.board.pieceAt (d + offset) = none := by
  simp [Meets, fulfils_iff]

/-- The conditions of a leaf count, and the square that it leads to in one step can be entered. -/
def LeadsTo (s : Standing) (leaf : Terms × Coord) : Prop :=
  (∀ c ∈ leaf.1.conditions, s.Meets (s.square + leaf.2) c) ∧
    s.Enters (leaf.1.captures = some 1) (s.square + leaf.2)

theorem leadsTo_quiet_iff {conditions : List Condition} : s.LeadsTo (Rule.quiet conditions, d) ↔
    (∀ c ∈ conditions, s.Meets (s.square + d) c) ∧ s.board.get (s.square + d) = .ok none := by
  simp [LeadsTo, Rule.quiet, Enters]

theorem leadsTo_capturing_iff {conditions : List Condition} : s.LeadsTo (Rule.capturing conditions, d) ↔
    (∀ c ∈ conditions, s.Meets (s.square + d) c) ∧
      (s.board.get (s.square + d) = .ok none ∨ s.Enemy (s.square + d)) := by
  simp [LeadsTo, Rule.capturing, Enters]

/-! ## Leaves of pawns -/

theorem leadsTo_free_iff : s.LeadsTo (Rule.quiet [], d) ↔ s.board.get (s.square + d) = .ok none := by
  simp [leadsTo_quiet_iff]

theorem leadsTo_attack_iff :
    s.LeadsTo (Rule.capturing [{ enemy := some .origin }], d) ↔ s.Enemy (s.square + d) := by
  rw [leadsTo_capturing_iff, List.forall_mem_singleton, meets_enemy_iff]
  exact and_iff_left_of_imp Or.inr

theorem leadsTo_flag_iff {n : Int} : s.LeadsTo (Rule.capturing [{ flag := some n }], d) ↔
    (s.board.flagsOf s.piece).has (.int n) = true ∧
      (s.board.get (s.square + d) = .ok none ∨ s.Enemy (s.square + d)) := by
  rw [leadsTo_capturing_iff, List.forall_mem_singleton, meets_flag_iff]

/-- Between two squares of a column there are only squares of the board. -/
theorem contains_between {b : Board} {c : Coord} (h : b.contains c = true)
    (hdouble : b.contains (c + ⟨0, 2 * forward, 0, 0⟩) = true) : b.contains (c + ⟨0, forward, 0, 0⟩) = true := by
  rw [Board.contains_iff] at h hdouble ⊢
  simp only [Coord.add_x, Coord.add_y, Coord.add_z, Coord.add_w] at hdouble ⊢
  omega

/-- The square that a double step passes is on the board, so it is empty if no piece is found there. -/
theorem leadsTo_double_iff (h : s.board.Populated) (hsquare : s.board.contains s.square = true) :
    s.LeadsTo (Rule.quiet [{ flag := some 0 }, { piece := some ⟨0, -forward, 0, 0⟩, inverted := true }],
      ⟨0, 2 * forward, 0, 0⟩) ↔
    (s.board.flagsOf s.piece).has Flags.firstMove = true ∧
      s.board.get (s.square + ⟨0, forward, 0, 0⟩) = .ok none ∧
      s.board.get (s.square + ⟨0, 2 * forward, 0, 0⟩) = .ok none := by
  have hmiddle : s.square + ⟨0, 2 * forward, 0, 0⟩ + ⟨0, -forward, 0, 0⟩ = s.square + ⟨0, forward, 0, 0⟩ := by
    apply (Coord.mk.injEq ..).mpr
    simp only [Coord.add_x, Coord.add_y, Coord.add_z, Coord.add_w]
    omega
  have hvacant (hin : s.board.contains (s.square + ⟨0, forward, 0, 0⟩) = true) :
      s.board.pieceAt (s.square + ⟨0, forward, 0, 0⟩) = none ↔
        s.board.get (s.square + ⟨0, forward, 0, 0⟩) = .ok none := by
    rw [h.get_eq hin]
    simp
  rw [leadsTo_quiet_iff, List.forall_mem_cons, List.forall_mem_singleton, meets_flag_iff, meets_vacant_iff, hmiddle,
    and_assoc]
  apply and_congr_right
  intro _
  constructor
  · rintro ⟨hpassed, hgoal⟩
    exact ⟨(hvacant (contains_between hsquare (Board.contains_of_get hgoal).1)).1 hpassed, hgoal⟩
  · rintro ⟨hpassed, hgoal⟩
    exact ⟨(hvacant (Board.contains_of_get hpassed).1).2 hpassed, hgoal⟩

/-! ## The steps of a team -/

/-- **The leaves of a team lead to the goals of its pawns.** -/
theorem pawnGoal_iff (h : s.board.Populated) (hsquare : s.board.contains s.square = true) :
    s.PawnGoal forward d ↔ ∃ leaf ∈ RuleBook.pawnSteps forward, s.LeadsTo leaf ∧ d = s.square + leaf.2 := by
  constructor
  · intro hgoal
    cases hgoal with
    | up hempty => exact ⟨_, by simp [RuleBook.pawnSteps], leadsTo_free_iff.2 hempty, rfl⟩
    | across hempty => exact ⟨_, by simp [RuleBook.pawnSteps], leadsTo_free_iff.2 hempty, rfl⟩
    | double hfirst hpassed hempty =>
      exact ⟨_, by simp [RuleBook.pawnSteps], (leadsTo_double_iff h hsquare).2 ⟨hfirst, hpassed, hempty⟩, rfl⟩
    | left hside =>
      rcases hside with henemy | ⟨hleft, hempty⟩
      · exact ⟨_, by simp [RuleBook.pawnSteps], leadsTo_attack_iff.2 henemy, rfl⟩
      · exact ⟨_, by simp [RuleBook.pawnSteps], leadsTo_flag_iff.2 ⟨hleft, Or.inl hempty⟩, rfl⟩
    | right hside =>
      rcases hside with henemy | ⟨hright, hempty⟩
      · exact ⟨_, by simp [RuleBook.pawnSteps], leadsTo_attack_iff.2 henemy, rfl⟩
      · exact ⟨_, by simp [RuleBook.pawnSteps], leadsTo_flag_iff.2 ⟨hright, Or.inl hempty⟩, rfl⟩
  · rintro ⟨leaf, hleaf, hleads, rfl⟩
    simp only [RuleBook.pawnSteps, List.mem_cons, List.not_mem_nil, or_false] at hleaf
    rcases hleaf with rfl | rfl | rfl | rfl | rfl | rfl | rfl
    · exact .up (leadsTo_free_iff.1 hleads)
    · exact .across (leadsTo_free_iff.1 hleads)
    · exact .left (Or.inl (leadsTo_attack_iff.1 hleads))
    · exact .right (Or.inl (leadsTo_attack_iff.1 hleads))
    · obtain ⟨hfirst, hpassed, hempty⟩ := (leadsTo_double_iff h hsquare).1 hleads
      exact .double hfirst hpassed hempty
    -- a flag does not keep a pawn from taking a piece, which it may do without
    · obtain ⟨hleft, hempty | henemy⟩ := leadsTo_flag_iff.1 hleads
      · exact .left (Or.inr ⟨hleft, hempty⟩)
      · exact .left (Or.inl henemy)
    · obtain ⟨hright, hempty | henemy⟩ := leadsTo_flag_iff.1 hleads
      · exact .right (Or.inr ⟨hright, hempty⟩)
      · exact .right (Or.inl henemy)

theorem captures_of_mem_pawnSteps (forward : Int) :
    ∀ leaf ∈ RuleBook.pawnSteps forward, leaf.1.captures = some 0 ∨ leaf.1.captures = some 1 := by
  simp [RuleBook.pawnSteps, Rule.quiet, Rule.capturing]

/-- The walk along a leaf of a pawn is one step. -/
theorem mem_ray_pawnStep_iff (h : s.board.Populated) {leaf : Terms × Coord}
    (hleaf : leaf ∈ RuleBook.pawnSteps forward) {m : Move} :
    (∃ moves, s.ray leaf.2 ((⟨some (.int 1), none⟩ : Budget).within leaf.1) = .ok moves ∧ m ∈ moves) ↔
      m = ⟨s.square, s.square + leaf.2, none⟩ ∧ s.Enters (leaf.1.captures = some 1) (s.square + leaf.2) := by
  rcases captures_of_mem_pawnSteps forward leaf hleaf with hcaptures | hcaptures
  · have hbudget : (⟨some (.int 1), none⟩ : Budget).within leaf.1 = ⟨some (.int 1), some 0⟩ := by
      simp [Budget.within, hcaptures]
    rw [hbudget, mem_ray_one_iff h, hcaptures]
    rfl
  · have hbudget : (⟨some (.int 1), none⟩ : Budget).within leaf.1 = ⟨some (.int 1), some 1⟩ := by
      simp [Budget.within, hcaptures]
    rw [hbudget, mem_ray_one_iff h, hcaptures]
    rfl

/-- The moves of a pawn along the leaves of a team: none, if it is not of this team. -/
def pawnMoves (s : Standing) (team forward : Int) : Except Fault (List Move) :=
  if s.piece.team.same (.int team) then
    s.gather ⟨some (.int 1), none⟩ ((RuleBook.pawnSteps forward).map fun l => ⟨[], .leaf l.1 l.2⟩)
  else .ok []

theorem gather_pawn (s : Standing) (book : RuleBook) (entered : List Text) :
    s.gather {} (book.chains entered Rule.pawn.roots) = do
      return (← s.pawnMoves 0 1) ++ (← s.pawnMoves 1 (-1)) := by
  rw [RuleBook.chains_pawn, gather_append, gather_below, gather_below]
  simp only [List.forall_mem_singleton, meets_team_iff]
  rfl

/-- The leaves of its team lead a pawn to its goals. -/
theorem pawnMoves_spec (h : s.board.Populated) (hsquare : s.board.contains s.square = true) (team forward : Int) :
    ∃ found, s.pawnMoves team forward = .ok found ∧ ∀ m, m ∈ found ↔
      s.piece.team.same (.int team) = true ∧ ∃ d, m = ⟨s.square, d, none⟩ ∧ s.PawnGoal forward d := by
  rw [pawnMoves]
  split
  · rename_i hteam
    obtain ⟨found, hfound⟩ := Outcome.exists_flatMapM_iff.2 fun l _ =>
      ray_ok h (Prod.snd l) ((⟨some (.int 1), none⟩ : Budget).within l.1)
    rw [gather_leaves]
    refine ⟨found, hfound, fun m => ?_⟩
    rw [Outcome.mem_flatMapM hfound, and_iff_right hteam]
    constructor
    · rintro ⟨leaf, hleaf, hmoves⟩
      obtain ⟨hmem, hmeets⟩ := List.mem_filter.1 hleaf
      obtain ⟨rfl, henters⟩ := (mem_ray_pawnStep_iff h hmem).1 hmoves
      exact ⟨_, rfl, (pawnGoal_iff h hsquare).2 ⟨leaf, hmem, ⟨of_decide_eq_true hmeets, henters⟩, rfl⟩⟩
    · rintro ⟨d, rfl, hgoal⟩
      obtain ⟨leaf, hmem, ⟨hmeets, henters⟩, rfl⟩ := (pawnGoal_iff h hsquare).1 hgoal
      exact ⟨leaf, List.mem_filter.2 ⟨hmem, decide_eq_true hmeets⟩, (mem_ray_pawnStep_iff h hmem).2 ⟨rfl, henters⟩⟩
  · rename_i hteam
    exact ⟨[], rfl, fun m => by simp [hteam]⟩

end Standing

/-! ## Candidates -/

namespace Board

variable {b : Board} {book : RuleBook} {c : Coord} {p : Piece}

/-- **Pawn moves are exact.** With the built-in rules, whatever its flags, a pawn of team 0 has candidate moves exactly
to the goals of a pawn that goes up the board, a pawn of team 1 to those of one that goes down, and a pawn of another
team has none. -/
theorem candidates_pawn (h : b.Populated) (hcustom : book.custom = []) (hroom : book.Roomy)
    (hp : b.get c = .ok (some (.piece p))) (hid : p.id = .text "P") :
    ∃ found, b.candidates book c = .ok found ∧
      (p.team.same (.int 0) = true → ∀ m, m ∈ found ↔ ∃ d, m = ⟨c, d, none⟩ ∧ (b.standing p c).PawnGoal 1 d) ∧
      (p.team.same (.int 1) = true → ∀ m, m ∈ found ↔ ∃ d, m = ⟨c, d, none⟩ ∧ (b.standing p c).PawnGoal (-1) d) ∧
      (p.team.same (.int 0) = false → p.team.same (.int 1) = false → found = []) := by
  let s := b.standing p c
  have hrule : book.get? "P" = some Rule.pawn := (RuleBook.get?_eq_builtin hcustom "P").trans rfl
  have hin : s.board.contains s.square = true := (contains_of_get hp).1
  obtain ⟨up, hup, hmemUp⟩ := s.pawnMoves_spec h hin 0 1
  obtain ⟨down, hdown, hmemDown⟩ := s.pawnMoves_spec h hin 1 (-1)
  have hmem (m : Move) : m ∈ up ++ down ↔
      (p.team.same (.int 0) = true ∧ ∃ d, m = ⟨c, d, none⟩ ∧ s.PawnGoal 1 d) ∨
        (p.team.same (.int 1) = true ∧ ∃ d, m = ⟨c, d, none⟩ ∧ s.PawnGoal (-1) d) :=
    List.mem_append.trans (or_congr (hmemUp m) (hmemDown m))
  refine ⟨up ++ down, ?_, fun hzero m => ?_, fun hone m => ?_, fun hzero hone => ?_⟩
  · rw [candidates_eq_gather h hroom hp hid hrule, Standing.gather_pawn, hup, hdown]
    rfl
  · have hone : p.team.same (.int 1) = false := (Data.same_congr hzero _).trans rfl
    simp [hmem, hzero, hone, s]
  · have hzero : p.team.same (.int 0) = false := (Data.same_congr hone _).trans rfl
    simp [hmem, hzero, hone, s]
  · apply List.eq_nil_iff_forall_not_mem.2
    intro m
    simp [hmem, hzero, hone]

/-- A pawn that has not moved yet goes one or two squares up, takes a piece on its right, and with its flag goes to the
left, where nothing stands. Along the fourth axis it is blocked. -/
theorem candidates_pawn_first :
    let pawn : Coord × Piece := (⟨1, 0, 0, 0⟩, ⟨0, .text "P", .int 0⟩)
    let own : Coord × Piece := (⟨1, 0, 0, 1⟩, ⟨1, .text "R", .int 0⟩)
    let other : Coord × Piece := (⟨0, 1, 0, 0⟩, ⟨2, .text "R", .int 1⟩)
    let book : RuleBook := { custom := [] }
    let goals : List Coord := [⟨1, 1, 0, 0⟩, ⟨0, 1, 0, 0⟩, ⟨1, 2, 0, 0⟩, ⟨2, 1, 0, 0⟩]
    ∃ b, arranged ⟨3, 3, 1, 2⟩ #[[Flags.firstMove, Flags.left], [], []] [pawn, own, other] = .ok b ∧
      b.candidates book pawn.1 = .ok (goals.map fun d => ⟨pawn.1, d, none⟩) ∧
      ∀ d, (b.standing pawn.2 pawn.1).PawnGoal 1 d ↔ d ∈ goals := by
  intro pawn own other book goals
  have hrun : (arranged ⟨3, 3, 1, 2⟩ #[[Flags.firstMove, Flags.left], [], []] [pawn, own, other] >>= fun b =>
      b.get pawn.1 >>= fun o => b.candidates book pawn.1 >>= fun found => .ok (o, found)) =
      .ok (some (.piece pawn.2), goals.map fun d => ⟨pawn.1, d, none⟩) := by decide +kernel
  obtain ⟨b, hb, hrun⟩ := Outcome.bind_eq_ok_iff.1 hrun
  obtain ⟨o, ho, hrun⟩ := Outcome.bind_eq_ok_iff.1 hrun
  obtain ⟨found, hfound, hrun⟩ := Outcome.bind_eq_ok_iff.1 hrun
  cases hrun
  have hsound : b.Sound := arranged_sound hb (by simp [pawn, own, other, contains, arranged_size hb])
  obtain ⟨found, hfound', hup, -⟩ :=
    candidates_pawn hsound.populated rfl (by decide +kernel : book.Roomy) ho rfl
  cases hfound.symm.trans hfound'
  refine ⟨b, hb, hfound, fun d => ?_⟩
  have hmem := hup rfl ⟨pawn.1, d, none⟩
  simpa using hmem.symm

end Board

end Hyperchess
