import Hyperchess.Proofs.Reach.Likeness
import Hyperchess.Proofs.Reach.Supply
import Hyperchess.Proofs.Rule.Builtin

/-!
# Fans

A fan is walks in several directions within the same limits (`Standing.fan`). Rook and bishop have a fan each, within
the limits of pieces that slide. The queen refers to both rules and sets no limits, so each fan keeps its own, and the
king refers to the queen's rule below a limit of one step, which holds for both fans (`gather_queen`, `gather_king`).
With the knight, these are five kinds whose candidates are found by a fan (`candidates_eq_fan`).

Fans know nothing of the kind of the piece, only of its team and of the teams around it (`SameTeams.fan_eq`). In
directions that lead to a neighbour, one step finds what is found without a limit, as far as it is near (`fan_step`). So
the moves of the queen are those of the rook and those of the bishop, and the moves of the king are those of the queen
to squares nearby (`candidates_queen_king`).
-/

namespace Hyperchess

/-! ## Squares nearby -/

namespace Coord

/-- The squares differ by at most one on every axis. -/
def Near (c d : Coord) : Prop :=
  (d.x - c.x).natAbs ≤ 1 ∧ (d.y - c.y).natAbs ≤ 1 ∧ (d.z - c.z).natAbs ≤ 1 ∧ (d.w - c.w).natAbs ≤ 1

instance (c d : Coord) : Decidable (c.Near d) := inferInstanceAs (Decidable (_ ∧ _ ∧ _ ∧ _))

/-- The direction leads to a neighbour. -/
def IsStep (direction : Coord) : Prop := origin.Near direction ∧ direction ≠ origin

instance (direction : Coord) : Decidable direction.IsStep := inferInstanceAs (Decidable (_ ∧ _))

/-- Of the squares in the direction of a neighbour, only the neighbour is near. -/
theorem IsStep.near_add_scale_iff {direction : Coord} (h : direction.IsStep) (c : Coord) {k : Nat} (hk : 1 ≤ k) :
    c.Near (c + direction.scale k) ↔ k = 1 := by
  obtain ⟨dx, dy, dz, dw⟩ := direction
  obtain ⟨hnear, hne⟩ := h
  have haxis (a n : Int) : (a + n * k - a).natAbs = n.natAbs * k := by
    rw [add_sub_cancel_left, Int.natAbs_mul, Int.natAbs_natCast]
  simp only [Near, origin, Int.sub_zero] at hnear
  simp only [Near, add_x, add_y, add_z, add_w, scale, haxis]
  constructor
  · rintro ⟨hx, hy, hz, hw⟩
    by_contra hmore
    have hzero {n : Int} (hn : n.natAbs * k ≤ 1) : n = 0 := by
      by_contra hn0
      have hle := Nat.le_mul_of_pos_left k (Int.natAbs_pos.2 hn0)
      omega
    exact hne ((Coord.mk.injEq ..).mpr ⟨hzero hx, hzero hy, hzero hz, hzero hw⟩)
  · rintro rfl
    simpa using hnear

end Coord

/-- The directions of rook and bishop lead to neighbours. -/
theorem Rule.isStep_of_mem : ∀ d ∈ Rule.straight ++ Rule.diagonal, d.IsStep := by decide

namespace Standing

variable {s t : Standing} {direction : Coord}

/-! ## Walks in several directions -/

/-- Walks in several directions, one after the other. -/
def fan (s : Standing) (directions : List Coord) (budget : Budget) : Except Fault (List Move) :=
  directions.flatMapM fun d => s.ray d budget

theorem fan_ok (h : s.board.Populated) (directions : List Coord) (budget : Budget) :
    ∃ moves, s.fan directions budget = .ok moves :=
  Outcome.exists_flatMapM_iff.2 fun d _ => ray_ok h d budget

theorem fan_append (s : Standing) (front back : List Coord) (budget : Budget) :
    s.fan (front ++ back) budget = do return (← s.fan front budget) ++ (← s.fan back budget) :=
  Outcome.flatMapM_append ..

theorem SameTeams.fan_eq (h : s.SameTeams t) (directions : List Coord) (budget : Budget) :
    s.fan directions budget = t.fan directions budget := by
  simp only [fan, h.ray_eq]

/-- A fan leads to the squares that are reached in its directions, as far as it goes. -/
theorem mem_fan (h : s.board.Populated) {directions : List Coord} {limit : Number} {moves : List Move}
    (hmoves : s.fan directions ⟨some limit, some 1⟩ = .ok moves) {m : Move} : m ∈ moves ↔
      ∃ d ∈ directions, ∃ k : Nat, 1 ≤ k ∧ k ≤ s.stepsWithin limit ∧ s.Reached d true s.square k ∧
        m = ⟨s.square, s.square + d.scale k, none⟩ := by
  rw [Outcome.mem_flatMapM hmoves]
  refine exists_congr fun d => and_congr_right fun _ => ?_
  obtain ⟨n, hwalk, hn⟩ := walk_eq h d true (s.stepsWithin limit) s.square
  have hray : s.ray d ⟨some limit, some 1⟩ = .ok ((line s.square d n).map fun c => ⟨s.square, c, none⟩) := by
    simp only [ray, Int.one_pos, decide_true, hwalk, Outcome.ok_bind, Outcome.pure_eq]
  simp only [hray, Except.ok.injEq, exists_eq_left', line, List.mem_map, List.mem_range'_1]
  constructor
  · rintro ⟨_, ⟨k, hk, rfl⟩, rfl⟩
    obtain ⟨hsteps, hreached⟩ := (hn k hk.1).1 (by omega)
    exact ⟨k, hk.1, hsteps, hreached, rfl⟩
  · rintro ⟨k, hk, hsteps, hreached, rfl⟩
    have hle := (hn k hk).2 ⟨hsteps, hreached⟩
    exact ⟨_, ⟨k, by omega, rfl⟩, rfl⟩

/-! ## One step -/

theorem filter_line (hstep : direction.IsStep) (here : Coord) (n : Nat) :
    (line here direction n).filter (fun c => here.Near c) = line here direction (min n 1) := by
  have hfilter : (List.range' 1 n).filter (fun k : Nat => here.Near (here + direction.scale k)) =
      (List.range' 1 n).filter fun k => k = 1 := by
    apply List.filter_congr
    intro k hk
    exact decide_eq_decide.2 (hstep.near_add_scale_iff here (List.mem_range'_1.1 hk).1)
  rw [line, List.filter_map, Function.comp_def, hfilter, line]
  congr 1
  cases n with
  | zero => rfl
  | succ n =>
    have hrest : (List.range' 2 n).filter (fun k => k = 1) = [] := by
      apply List.filter_eq_nil_iff.2
      intro k hk
      have := (List.mem_range'_1.1 hk).1
      simp only [decide_eq_true_eq]
      omega
    rw [List.range'_succ, List.filter_cons_of_pos rfl, hrest, Nat.min_eq_right (by omega)]
    rfl

/-- **One step finds what is found without a limit, as far as it is near.** -/
theorem ray_step (h : s.board.Populated) (hstep : direction.IsStep) (captures : Option Int) :
    s.ray direction ⟨some (.int 1), captures⟩ =
      (s.ray direction ⟨some (.float .infinity), captures⟩).map (List.filter fun m => s.square.Near m.dst) := by
  cases captures with
  | none => rfl
  | some captures =>
    obtain ⟨m, hlimit, hone, hm⟩ := walk_one h direction (0 < captures) s.square
    obtain ⟨n, hall, hn⟩ := walk_eq h direction (0 < captures) (s.board.span + 1) s.square
    have hmin : m = min n 1 := by
      have hfirst : 1 ≤ m ↔ 1 ≤ n := by
        rw [hm, hn 1 le_rfl, reached_one_iff, and_iff_right (Nat.le_add_left 1 s.board.span)]
      omega
    have hunlimited : s.stepsWithin (.float .infinity) = s.board.span + 1 := rfl
    simp only [ray, stepsWithin_one, hunlimited, hone, hall, Outcome.ok_bind, Outcome.pure_eq, Except.map,
      List.filter_map]
    rw [hmin, ← filter_line hstep]
    rfl

theorem fan_step (h : s.board.Populated) {directions : List Coord} (hsteps : ∀ d ∈ directions, d.IsStep)
    (captures : Option Int) : s.fan directions ⟨some (.int 1), captures⟩ =
      (s.fan directions ⟨some (.float .infinity), captures⟩).map (List.filter fun m => s.square.Near m.dst) := by
  rw [fan, fan, Outcome.filter_flatMapM]
  exact Outcome.flatMapM_congr fun d hd => ray_step h (hsteps d hd) captures

/-! ## Rook, bishop, queen and king -/

@[simp] theorem within_conditions (outer : Budget) (conditions : List Condition) :
    outer.within { conditions } = outer := by
  simp [Budget.within]

/-- Walks under common terms are a fan, if the terms have no conditions. -/
theorem gather_walks (s : Standing) (book : RuleBook) (entered : List Text) (outer : Budget) {terms : Terms}
    (hterms : terms.conditions = []) (directions : List Coord) :
    s.gather outer (book.chains entered [Rule.walks terms directions]) = s.fan directions (outer.within terms) := by
  have hleaves := s.gather_leaves (outer.within terms) (directions.map fun d => ({}, d))
  rw [List.map_map, List.filter_eq_self.2 (by simp), Outcome.flatMapM_map] at hleaves
  rw [RuleBook.chains_walks, gather_below, if_pos (by simp [hterms])]
  simp only [within_conditions] at hleaves
  exact hleaves

section Custom

variable {book : RuleBook} {entered : List Text} (s : Standing) (outer : Budget)

theorem gather_rook : s.gather outer (book.chains entered Rule.rook.roots) =
    s.fan Rule.straight (outer.within Rule.sliding) :=
  gather_walks s book entered outer rfl Rule.straight

theorem gather_bishop : s.gather outer (book.chains entered Rule.bishop.roots) =
    s.fan Rule.diagonal (outer.within Rule.sliding) :=
  gather_walks s book entered outer rfl Rule.diagonal

theorem gather_knight : s.gather outer (book.chains entered Rule.knight.roots) =
    s.fan Rule.jumps (outer.within Rule.stepping) :=
  gather_walks s book entered outer rfl Rule.jumps

variable (hcustom : book.custom = [])

include hcustom

/-- The queen's own node limits nothing. -/
theorem gather_queen (hrook : ("R" : Text) ∉ entered) (hbishop : ("B" : Text) ∉ entered) :
    s.gather outer (book.chains entered Rule.queen.roots) =
      s.fan (Rule.straight ++ Rule.diagonal) (outer.within Rule.sliding) := by
  rw [RuleBook.chains_queen hcustom hrook hbishop, gather_below, if_pos (by simp), within_conditions,
    gather_append, gather_rook, gather_bishop, fan_append]

/-- The king's own node limits both fans of the queen. -/
theorem gather_king (hqueen : ("Q" : Text) ∉ entered) (hrook : ("R" : Text) ∉ entered)
    (hbishop : ("B" : Text) ∉ entered) : s.gather outer (book.chains entered Rule.king.roots) =
      s.fan (Rule.straight ++ Rule.diagonal) ((outer.within Rule.stepping).within Rule.sliding) := by
  have hrook' : ("R" : Text) ∉ ("Q" : Text) :: entered := List.not_mem_cons_of_ne_of_not_mem (by decide) hrook
  have hbishop' : ("B" : Text) ∉ ("Q" : Text) :: entered := List.not_mem_cons_of_ne_of_not_mem (by decide) hbishop
  rw [RuleBook.chains_king hcustom hqueen, gather_below, if_pos (by simp [Rule.stepping]),
    gather_queen s _ hcustom hrook' hbishop']

end Custom

end Standing

/-- The built-in kinds, apart from pawns, with the directions in which they go and with how far they go. -/
def Rule.fans : List (Text × List Coord × Number) :=
  [("R", straight, .float .infinity), ("B", diagonal, .float .infinity), ("Q", straight ++ diagonal, .float .infinity),
    ("N", jumps, .int 1), ("K", straight ++ diagonal, .int 1)]

/-- The candidate moves of every built-in piece but the pawn are a fan. -/
theorem Board.candidates_eq_fan {b : Board} {book : RuleBook} {c : Coord} (h : b.Populated) (hcustom : book.custom = [])
    (hroom : book.Roomy) {p : Piece} (hp : b.get c = .ok (some (.piece p))) {kind : Text} {directions : List Coord}
    {limit : Number} (hfan : (kind, directions, limit) ∈ Rule.fans) (hid : p.id = .text kind) :
    b.candidates book c = (b.standing p c).fan directions ⟨some limit, some 1⟩ := by
  have hfound (rule : Rule) (hrule : RuleBook.find? Rule.builtin kind = some rule) :
      b.candidates book c = (b.standing p c).gather {} (book.chains [kind] rule.roots) :=
    candidates_eq_gather h hroom hp hid ((RuleBook.get?_eq_builtin hcustom kind).trans hrule)
  simp only [Rule.fans, List.mem_cons, Prod.mk.injEq, List.not_mem_nil, or_false] at hfan
  obtain ⟨rfl, rfl, rfl⟩ | ⟨rfl, rfl, rfl⟩ | ⟨rfl, rfl, rfl⟩ | ⟨rfl, rfl, rfl⟩ | ⟨rfl, rfl, rfl⟩ := hfan
  · exact (hfound Rule.rook rfl).trans (Standing.gather_rook _ _)
  · exact (hfound Rule.bishop rfl).trans (Standing.gather_bishop _ _)
  · exact (hfound Rule.queen rfl).trans (Standing.gather_queen _ _ hcustom (by decide) (by decide))
  · exact (hfound Rule.knight rfl).trans (Standing.gather_knight _ _)
  · exact (hfound Rule.king rfl).trans
      (Standing.gather_king _ _ hcustom (by decide) (by decide) (by decide))

/-! ## Pieces of several kinds on one square -/

namespace Board

variable {b : Board} {book : RuleBook} {c : Coord}

/-- The candidate moves of a piece that is put on a square, in the place of what stands there. -/
def candidatesOf (b : Board) (book : RuleBook) (c : Coord) (p : Piece) : Except Fault (List Move) := do
  (← b.put c (some (.piece p))).2.candidates book c

/-- A piece on the square where it has been put. -/
def posted (b : Board) (c : Coord) (p : Piece) : Standing := (b.placed c (some (.piece p))).standing p c

theorem candidatesOf_eq_gather (h : b.Populated) (hc : b.contains c = true) (hroom : book.Roomy) {p : Piece}
    {kind : Text} (hid : p.id = .text kind) {rule : Rule} (hrule : book.get? kind = some rule) :
    b.candidatesOf book c p = (b.posted c p).gather {} (book.chains [kind] rule.roots) := by
  have hplaced : (b.placed c (some (.piece p))).Populated := h.placed hc (some p)
  have hget : (b.placed c (some (.piece p))).get c = .ok (some (.piece p)) := by
    rw [get_placed h.toFramed hc, if_pos rfl]
  rw [candidatesOf, put_eq h.toFramed hc, Outcome.ok_bind, candidates_eq_gather hplaced hroom hget hid hrule]
  rfl

/-- A piece that is put where it stands has the candidate moves that it had. -/
theorem candidatesOf_of_get (h : b.Populated) {p : Piece} (hp : b.get c = .ok (some (.piece p))) :
    b.candidatesOf book c p = b.candidates book c := by
  obtain ⟨hc, hocc⟩ := (get_eq_ok_iff h.toFramed).1 hp
  have hlike : (b.placed c (some (.piece p))).Resembles b := by
    refine ⟨rfl, fun {d} hd => ⟨_, _, cell_eq (h.toFramed.placed c _) hd, h.cell_eq hd, ?_⟩⟩
    have hsame : (b.placed c (some (.piece p))).occupant d = (b.pieceAt d).map .piece := by
      rw [occupant_placed h.toFramed hc hd, ← h.occupant_eq_pieceAt hd]
      split
      · rename_i hdc
        rw [hdc, hocc]
      · rfl
    rw [hsame]
    cases b.pieceAt d with
    | none => exact .none
    | some q => exact .piece ⟨rfl, rfl, fun _ => rfl⟩
  rw [candidatesOf, put_eq h.toFramed hc, Outcome.ok_bind, hlike.candidates_eq_of_contains book hc]

/-- Pieces of one team that have been put on the same square cannot be told apart by fans. -/
theorem sameTeams_posted (h : b.Populated) (hc : b.contains c = true) {p q : Piece} (hteam : p.team = q.team) :
    (b.posted c p).SameTeams (b.posted c q) where
  size := rfl
  cells {d} hd := by
    refine ⟨_, _, cell_eq (h.toFramed.placed c _) hd, cell_eq (h.toFramed.placed c _) hd, ?_⟩
    show Occupant.SameTeam ((b.placed c _).occupant d) ((b.placed c _).occupant d)
    rw [occupant_placed h.toFramed hc hd, occupant_placed h.toFramed hc hd]
    by_cases hdc : d = c
    · rw [if_pos hdc, if_pos hdc]
      exact .piece hteam
    · rw [if_neg hdc, if_neg hdc, h.occupant_eq_pieceAt hd]
      cases b.pieceAt d with
      | none => exact .none
      | some r => exact .piece rfl
  team := hteam
  square := rfl

/-- **Queen and king by reference.** Put on a square of a board in the place of what stands there, the queen of a team
has the candidate moves of the rook of this team and behind them those of the bishop, and the king has those of the
queen to squares nearby, in their order. -/
theorem candidates_queen_king (h : b.Populated) (hc : b.contains c = true) (hcustom : book.custom = [])
    (hroom : book.Roomy) (team : Data) (serial : Text → Nat) :
    let found (kind : Text) := b.candidatesOf book c ⟨serial kind, .text kind, team⟩
    ∃ rooks bishops, found "R" = .ok rooks ∧ found "B" = .ok bishops ∧ found "Q" = .ok (rooks ++ bishops) ∧
      found "K" = .ok ((rooks ++ bishops).filter fun m => c.Near m.dst) := by
  intro found
  let s := b.posted c ⟨serial "R", .text "R", team⟩
  have hs : s.board.Populated := h.placed hc (some _)
  have hfound (kind : Text) (rule : Rule) (hrule : RuleBook.find? Rule.builtin kind = some rule) :
      found kind = (b.posted c ⟨serial kind, .text kind, team⟩).gather {} (book.chains [kind] rule.roots) :=
    candidatesOf_eq_gather h hc hroom rfl ((RuleBook.get?_eq_builtin hcustom kind).trans hrule)
  have hteams (kind : Text) : (b.posted c ⟨serial kind, .text kind, team⟩).SameTeams s := sameTeams_posted h hc rfl
  obtain ⟨rooks, hrooks⟩ := Standing.fan_ok hs Rule.straight ⟨some (.float .infinity), some 1⟩
  obtain ⟨bishops, hbishops⟩ := Standing.fan_ok hs Rule.diagonal ⟨some (.float .infinity), some 1⟩
  have hboth : s.fan (Rule.straight ++ Rule.diagonal) ⟨some (.float .infinity), some 1⟩ = .ok (rooks ++ bishops) := by
    rw [Standing.fan_append, hrooks, hbishops]
    rfl
  have hsliding : ({} : Budget).within Rule.sliding = ⟨some (.float .infinity), some 1⟩ := rfl
  have hstepping : (({} : Budget).within Rule.stepping).within Rule.sliding = ⟨some (.int 1), some 1⟩ := rfl
  refine ⟨rooks, bishops, ?_, ?_, ?_, ?_⟩
  · rw [hfound "R" Rule.rook rfl, Standing.gather_rook, hsliding, (hteams "R").fan_eq, hrooks]
  · rw [hfound "B" Rule.bishop rfl, Standing.gather_bishop, hsliding, (hteams "B").fan_eq, hbishops]
  · rw [hfound "Q" Rule.queen rfl, Standing.gather_queen _ _ hcustom (by decide) (by decide), hsliding,
      (hteams "Q").fan_eq, hboth]
  · rw [hfound "K" Rule.king rfl, Standing.gather_king _ _ hcustom (by decide) (by decide) (by decide), hstepping,
      (hteams "K").fan_eq, Standing.fan_step hs Rule.isStep_of_mem, hboth]
    rfl

/-- In a corner, a queen with a piece of its own team beside it along the first axis and one of another team across the
board has five moves. A king in its place would have three of them. -/
theorem candidates_queen_king_corner :
    let own : Coord × Piece := (⟨2, 0, 0, 0⟩, ⟨0, .text "N", .int 0⟩)
    let other : Coord × Piece := (⟨2, 2, 0, 0⟩, ⟨1, .text "N", .int 1⟩)
    let book : RuleBook := { custom := [] }
    let corner : Coord := .origin
    let reach (x y : Int) : Move := ⟨corner, ⟨x, y, 0, 0⟩, none⟩
    let piece (kind : Text) : Piece := ⟨2, .text kind, .int 0⟩
    ∃ b, arranged ⟨3, 3, 1, 1⟩ #[[], [], []] [own, other, (corner, piece "Q")] = .ok b ∧
      b.candidates book corner = .ok [reach 1 0, reach 0 1, reach 0 2, reach 1 1, reach 2 2] ∧
      b.candidatesOf book corner (piece "K") = .ok [reach 1 0, reach 0 1, reach 1 1] := by
  intro own other book corner reach piece
  have hrun : (arranged ⟨3, 3, 1, 1⟩ #[[], [], []] [own, other, (corner, piece "Q")] >>= fun b =>
      b.get corner >>= fun queen =>
        b.candidatesOf book corner (piece "R") >>= fun rooks =>
          b.candidatesOf book corner (piece "B") >>= fun bishops => .ok (queen, rooks, bishops)) =
      .ok (some (.piece (piece "Q")), [reach 1 0, reach 0 1, reach 0 2], [reach 1 1, reach 2 2]) := by decide +kernel
  obtain ⟨b, hb, hrun⟩ := Outcome.bind_eq_ok_iff.1 hrun
  obtain ⟨queen, hget, hrun⟩ := Outcome.bind_eq_ok_iff.1 hrun
  obtain ⟨rooks, hrooks, hrun⟩ := Outcome.bind_eq_ok_iff.1 hrun
  obtain ⟨bishops, hbishops, hrun⟩ := Outcome.bind_eq_ok_iff.1 hrun
  cases hrun
  have hsound : b.Sound := arranged_sound hb (by simp [own, other, corner, Coord.origin, contains, arranged_size hb])
  obtain ⟨rooks, bishops, hrooks', hbishops', hqueen, hking⟩ :=
    candidates_queen_king hsound.populated (contains_of_get hget).1 rfl (by decide +kernel : book.Roomy) (.int 0)
      fun _ => 2
  cases hrooks.symm.trans hrooks'
  cases hbishops.symm.trans hbishops'
  exact ⟨b, hb, (candidatesOf_of_get hsound.populated hget).symm.trans hqueen, hking⟩

end Board

end Hyperchess
