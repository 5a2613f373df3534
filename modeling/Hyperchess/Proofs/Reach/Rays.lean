import Hyperchess.Proofs.Reach.Unbounded

/-!
# Rays

A walk goes from square to square in one direction. A square is reached in `k` steps if the squares passed on the way
are empty and the last one can be entered (`Reached`): it is empty, or it holds a piece of another team and captures are
allowed. The squares that a walk of at most `n` steps finds are those reached in one step, two steps and so on, up to
some number of steps (`walk_eq`).

With a limit on steps that need not be an integer, and may be infinite, the moves of a piece along a ray are those to
the squares that are reached in fewer steps than one more than the limit (`ray_exact`): the number of steps worth
trying is no limit of its own, since a piece that stands on its square blocks the direction that leads nowhere, and all
other directions lead off the board.
-/

namespace Hyperchess

namespace Coord

theorem add_assoc (a b c : Coord) : a + b + c = a + (b + c) :=
  (Coord.mk.injEq ..).mpr ⟨Int.add_assoc .., Int.add_assoc .., Int.add_assoc .., Int.add_assoc ..⟩

theorem scale_one (direction : Coord) : direction.scale (1 : Nat) = direction := by simp [scale]

/-- One step, and then `k` steps. -/
theorem add_add_scale (here direction : Coord) (k : Nat) :
    here + direction + direction.scale k = here + direction.scale (k + 1 : Nat) := by
  rw [← add_scale_succ, add_assoc, add_assoc]
  congr 1
  exact (Coord.mk.injEq ..).mpr ⟨Int.add_comm .., Int.add_comm .., Int.add_comm .., Int.add_comm ..⟩

/-- Squares in one direction from a square are told apart by the number of steps. -/
theorem add_scale_inj {direction : Coord} (hdir : direction ≠ origin) (here : Coord) {j k : Nat} :
    here + direction.scale j = here + direction.scale k ↔ j = k := by
  constructor
  · intro h
    by_contra hne
    have haxis {a n : Int} (hn : a + n * j = a + n * k) : n = 0 := by
      by_contra hn0
      have hmul : n * (j : Int) = n * k := by omega
      have := Int.eq_of_mul_eq_mul_left hn0 hmul
      omega
    obtain ⟨hx, hy, hz, hw⟩ := (Coord.mk.injEq ..).mp h
    exact hdir ((Coord.mk.injEq ..).mpr ⟨haxis hx, haxis hy, haxis hz, haxis hw⟩)
  · rintro rfl
    rfl

end Coord

namespace Standing

variable {s : Standing} {direction here : Coord} {capture : Bool} {k n : Nat}

/-! ## Squares that are reached -/

/-- A piece of another team than the moving piece stands on a square. -/
def Enemy (s : Standing) (c : Coord) : Prop :=
  ∃ q, s.board.get c = .ok (some (.piece q)) ∧ q.team.same s.piece.team = false

/-- The square is on the board and empty, or it holds a piece of another team and captures are allowed. -/
def Enters (s : Standing) (capture : Bool) (c : Coord) : Prop :=
  s.board.get c = .ok none ∨ capture = true ∧ s.Enemy c

/-- A square that can be entered is on the board. -/
theorem Enters.contains {c : Coord} (h : s.Enters capture c) : s.board.contains c = true := by
  obtain hempty | ⟨-, q, hq, -⟩ := h
  · exact (Board.contains_of_get hempty).1
  · exact (Board.contains_of_get hq).1

/-- Of the squares in a direction from a square, the one that is `k` steps away can be entered, and those in front of it
are empty. -/
structure Reached (s : Standing) (direction : Coord) (capture : Bool) (here : Coord) (k : Nat) : Prop where
  clear : ∀ j : Nat, 1 ≤ j → j < k → s.board.get (here + direction.scale j) = .ok none
  enters : s.Enters capture (here + direction.scale k)

theorem reached_one_iff : s.Reached direction capture here 1 ↔ s.Enters capture (here + direction) := by
  constructor
  · intro h
    rw [← Coord.scale_one direction]
    exact h.enters
  · intro h
    refine ⟨fun j hj hlt => by omega, ?_⟩
    rw [Coord.scale_one]
    exact h

/-- A square that is more than one step away is reached across an empty square. -/
theorem reached_succ_iff (hk : 1 ≤ k) : s.Reached direction capture here (k + 1) ↔
    s.board.get (here + direction) = .ok none ∧ s.Reached direction capture (here + direction) k := by
  constructor
  · intro h
    refine ⟨?_, fun j hj hlt => ?_, ?_⟩
    · have hfirst := h.clear 1 (by omega) (by omega)
      rwa [Coord.scale_one] at hfirst
    · rw [Coord.add_add_scale]
      exact h.clear (j + 1) (by omega) (by omega)
    · rw [Coord.add_add_scale]
      exact h.enters
  · rintro ⟨hfirst, h⟩
    refine ⟨fun j hj hlt => ?_, ?_⟩
    · obtain rfl | hmore : j = 1 ∨ 1 < j := by omega
      · rw [Coord.scale_one]
        exact hfirst
      · obtain ⟨i, rfl⟩ : ∃ i, j = i + 1 := ⟨j - 1, by omega⟩
        rw [← Coord.add_add_scale]
        exact h.clear i (by omega) (by omega)
    · rw [← Coord.add_add_scale]
      exact h.enters

/-- Where the first step cannot be made, nothing is reached. -/
theorem not_reached (h : ¬s.Enters capture (here + direction)) (hk : 1 ≤ k) : ¬s.Reached direction capture here k := by
  intro hreached
  obtain rfl | hmore : k = 1 ∨ 1 < k := by omega
  · exact h (reached_one_iff.1 hreached)
  · obtain ⟨i, rfl⟩ : ∃ i, k = i + 1 := ⟨k - 1, by omega⟩
    exact h (Or.inl ((reached_succ_iff (by omega)).1 hreached).1)

/-- Behind a square that is not empty, nothing is reached. -/
theorem reached_iff_eq_one (h : s.Enters capture (here + direction)) (hfull : s.board.get (here + direction) ≠ .ok none)
    (hk : 1 ≤ k) : s.Reached direction capture here k ↔ k = 1 := by
  obtain rfl | hmore : k = 1 ∨ 1 < k := by omega
  · simp [reached_one_iff, h]
  · obtain ⟨i, rfl⟩ : ∃ i, k = i + 1 := ⟨k - 1, by omega⟩
    rw [reached_succ_iff (by omega)]
    constructor
    · intro hreached
      exact absurd hreached.1 hfull
    · intro hone
      omega

/-! ## Walks -/

/-- The squares in a direction, from the first one to the one that is `n` steps away. -/
def line (here direction : Coord) (n : Nat) : List Coord :=
  (List.range' 1 n).map fun k : Nat => here + direction.scale k

@[simp] theorem line_zero (here direction : Coord) : line here direction 0 = [] := rfl

theorem line_succ (here direction : Coord) (n : Nat) :
    line here direction (n + 1) = (here + direction) :: line (here + direction) direction n := by
  have hshift : List.range' 2 n = (List.range' 1 n).map (· + 1) := by
    simp [List.range'_eq_map_range, Function.comp_def, Nat.add_comm, Nat.add_left_comm]
  rw [line, List.range'_succ, hshift, List.map_cons, List.map_map, Coord.scale_one, line]
  congr 1
  exact List.map_congr_left fun k _ => (Coord.add_add_scale here direction k).symm

/-- **A walk finds the squares that are reached**, one after the other: all those up to some number of steps, and no
square behind them is reached within the steps that the walk may make. -/
theorem walk_eq (h : s.board.Populated) (direction : Coord) (capture : Bool) (n : Nat) (here : Coord) :
    ∃ m, s.walk direction capture n here = .ok (line here direction m) ∧
      ∀ k, 1 ≤ k → (k ≤ m ↔ k ≤ n ∧ s.Reached direction capture here k) := by
  induction n generalizing here with
  | zero =>
    refine ⟨0, rfl, fun k hk => ?_⟩
    omega
  | succ n ih =>
    have hstop (hnot : ¬s.Enters capture (here + direction)) (k : Nat) (hk : 1 ≤ k) :
        k ≤ 0 ↔ k ≤ n + 1 ∧ s.Reached direction capture here k := by
      have := not_reached hnot hk
      constructor
      · omega
      · rintro ⟨-, hreached⟩
        exact absurd hreached this
    rw [walk]
    cases hin : s.board.contains (here + direction) with
    | false =>
      refine ⟨0, rfl, hstop ?_⟩
      simp [Enters, Enemy, Board.get_eq_error hin]
    | true =>
      simp only [if_true, h.cell_eq hin, Outcome.ok_bind]
      have hget := h.get_eq hin
      cases hq : s.board.pieceAt (here + direction) with
      | none =>
        rw [hq] at hget
        obtain ⟨m, hwalk, hm⟩ := ih (here + direction)
        refine ⟨m + 1, ?_, fun k hk => ?_⟩
        · rw [line_succ]
          simp [hwalk]
        · obtain rfl | hmore : k = 1 ∨ 1 < k := by omega
          · have hfirst : s.Reached direction capture here 1 := reached_one_iff.2 (Or.inl hget)
            simp [hfirst]
          · obtain ⟨i, rfl⟩ : ∃ i, k = i + 1 := ⟨k - 1, by omega⟩
            have hi : 1 ≤ i := by omega
            rw [reached_succ_iff hi, Nat.add_le_add_iff_right, Nat.add_le_add_iff_right, hm i hi]
            exact and_congr_right fun _ => (and_iff_right hget).symm
      | some q =>
        rw [hq] at hget
        have hfull : s.board.get (here + direction) ≠ .ok none := by simp [hget]
        have henters : s.Enters capture (here + direction) ↔ q.team.same s.piece.team = false ∧ capture = true := by
          simp [Enters, Enemy, hget, and_comm]
        by_cases hcapture : q.team.same s.piece.team = false ∧ capture = true
        · refine ⟨1, ?_, fun k hk => ?_⟩
          · simp [Occupant.asPiece, hcapture, line_succ]
          · rw [reached_iff_eq_one (henters.2 hcapture) hfull hk]
            omega
        · refine ⟨0, ?_, hstop fun hin => hcapture (henters.1 hin)⟩
          simpa [Occupant.asPiece] using hcapture

/-- A walk of one step finds the neighbour in the direction, if that can be entered. -/
theorem walk_one (h : s.board.Populated) (direction : Coord) (capture : Bool) (here : Coord) :
    ∃ n ≤ 1, s.walk direction capture 1 here = .ok (line here direction n) ∧
      (1 ≤ n ↔ s.Enters capture (here + direction)) := by
  obtain ⟨n, hwalk, hn⟩ := walk_eq h direction capture 1 here
  have hlimit : n ≤ 1 := by
    by_contra hmore
    exact hmore ((hn n (by omega)).1 le_rfl).1
  refine ⟨n, hlimit, hwalk, ?_⟩
  rw [hn 1 le_rfl, reached_one_iff, and_iff_right le_rfl]

/-! ## Rays -/

/-- A move along a leaf leads from the square of the piece to a square that can be entered. -/
theorem of_mem_ray (h : s.board.Populated) {budget : Budget} {moves : List Move}
    (hmoves : s.ray direction budget = .ok moves) {m : Move} (hm : m ∈ moves) :
    ∃ c, m = ⟨s.square, c, none⟩ ∧ s.Enters true c := by
  unfold ray at hmoves
  split at hmoves
  · rename_i limit captures _ _
    obtain ⟨last, hwalk, hlast⟩ := walk_eq h direction (0 < captures) (s.stepsWithin limit) s.square
    rw [hwalk] at hmoves
    cases hmoves
    obtain ⟨c, hc, rfl⟩ := List.mem_map.1 hm
    obtain ⟨k, hk, rfl⟩ := List.mem_map.1 hc
    obtain ⟨hfirst, hbehind⟩ := List.mem_range'_1.1 hk
    have hreached := ((hlast k hfirst).1 (by omega)).2
    exact ⟨_, rfl, hreached.enters.imp_right fun ⟨_, henemy⟩ => ⟨rfl, henemy⟩⟩
  · cases hmoves
    cases hm

/-- The moves along a ray lead to the first squares in its direction. -/
theorem exists_line_of_ray (h : s.board.Populated) {budget : Budget} {moves : List Move}
    (hmoves : s.ray direction budget = .ok moves) :
    ∃ n, moves = (line s.square direction n).map fun c => ⟨s.square, c, none⟩ := by
  unfold ray at hmoves
  split at hmoves
  · rename_i limit captures _ _
    obtain ⟨n, hwalk, -⟩ := walk_eq h direction (0 < captures) (s.stepsWithin limit) s.square
    rw [hwalk] at hmoves
    cases hmoves
    exact ⟨n, rfl⟩
  · cases hmoves
    exact ⟨0, rfl⟩

/-- No square is found twice along a ray. -/
theorem nodup_ray (h : s.board.Populated) (hdir : direction ≠ .origin) {budget : Budget} {moves : List Move}
    (hmoves : s.ray direction budget = .ok moves) : (moves.map Move.dst).Nodup := by
  obtain ⟨n, rfl⟩ := exists_line_of_ray h hmoves
  have hsquares : ((line s.square direction n).map fun c => Move.mk s.square c none).map Move.dst =
      line s.square direction n := by
    rw [List.map_map]
    exact List.map_id' _
  rw [hsquares]
  exact (List.nodup_range' (s := 1) (n := n)).map fun j k => (Coord.add_scale_inj hdir s.square).1

theorem stepsWithin_one (s : Standing) : s.stepsWithin (.int 1) = 1 :=
  Nat.min_eq_left (Nat.le_add_left 1 s.board.span)

/-- One step leads to the neighbour in the direction, if that can be entered. -/
theorem mem_ray_one_iff (h : s.board.Populated) {captures : Int} {m : Move} :
    (∃ moves, s.ray direction ⟨some (.int 1), some captures⟩ = .ok moves ∧ m ∈ moves) ↔
      m = ⟨s.square, s.square + direction, none⟩ ∧ s.Enters (0 < captures) (s.square + direction) := by
  obtain ⟨n, hlimit, hwalk, hone⟩ := walk_one h direction (0 < captures) s.square
  simp only [ray, stepsWithin_one, hwalk, Outcome.ok_bind, Outcome.pure_eq, Except.ok.injEq, exists_eq_left', ← hone]
  obtain rfl | rfl : n = 0 ∨ n = 1 := by omega
  · simp
  · simp [line_succ]

/-- A piece that a square of the board holds stands there. -/
theorem occupies_of_get (hp : s.board.get s.square = .ok (some (.piece s.piece))) : s.Occupies := by
  obtain ⟨hin, hcell⟩ := Board.contains_of_get hp
  exact ⟨hin, _, hcell, rfl⟩

/-- No more steps lead to a square that is reached than the largest extent, since its own piece blocks a direction that
leads nowhere. -/
theorem lt_span_of_reached (hp : s.board.get s.square = .ok (some (.piece s.piece)))
    (h : s.Reached direction capture s.square (k + 1)) : k < s.board.span := by
  have hdir : direction = .origin → k = 0 := by
    rintro rfl
    by_contra hk
    have hfirst := h.clear 1 (by omega) (by omega)
    rw [Coord.origin_scale, Coord.add_origin, hp] at hfirst
    cases hfirst
  apply lt_span (occupies_of_get hp) hdir
  obtain rfl | hpos : k = 0 ∨ 1 ≤ k := by omega
  · rw [Coord.scale_zero, Coord.add_origin]
    exact (occupies_of_get hp).inside
  · exact (Board.contains_of_get (h.clear k hpos (by omega))).1

/-- The number of steps worth trying leaves out no square that is reached below the limit. -/
theorem le_stepsWithin_iff {limit : Number} (hp : s.board.get s.square = .ok (some (.piece s.piece)))
    (hlimit : limit.ge (.int 1) = true) (hk : 1 ≤ k) (h : s.Reached direction capture s.square k) :
    k ≤ s.stepsWithin limit ↔ (Number.int (k - 1)).lt limit = true := by
  obtain ⟨i, rfl⟩ : ∃ i, k = i + 1 := ⟨k - 1, by omega⟩
  have hspan := lt_span_of_reached hp h
  have hcount : ((i + 1 : Nat) - 1 : Int) = i := by omega
  rw [hcount, lt_limit_iff hlimit hspan.le]
  omega

/-- **Rays are exact.** The moves of a piece along a ray lead in the order of the steps to those squares that are
reached in fewer steps than one more than the limit: the squares in front of them are empty, and they are empty
themselves or, if captures are allowed, hold a piece of another team. -/
theorem ray_exact (h : s.board.Populated) (hp : s.board.get s.square = .ok (some (.piece s.piece))) (direction : Coord)
    {limit : Number} (hlimit : limit.ge (.int 1) = true) (captures : Int) :
    ∃ m, s.ray direction ⟨some limit, some captures⟩ =
        .ok ((List.range' 1 m).map fun k : Nat => ⟨s.square, s.square + direction.scale k, none⟩) ∧
      ∀ k : Nat, 1 ≤ k → (k ≤ m ↔ (Number.int (k - 1)).lt limit = true ∧
        (∀ j : Nat, 1 ≤ j → j < k → s.board.get (s.square + direction.scale j) = .ok none) ∧
        (s.board.get (s.square + direction.scale k) = .ok none ∨ 1 ≤ captures ∧
          ∃ q, s.board.get (s.square + direction.scale k) = .ok (some (.piece q)) ∧
            q.team.same s.piece.team = false)) := by
  obtain ⟨m, hwalk, hm⟩ := walk_eq h direction (0 < captures) (s.stepsWithin limit) s.square
  refine ⟨m, ?_, fun k hk => ?_⟩
  · simp only [ray, hwalk, Outcome.ok_bind, line, List.map_map]
    rfl
  · have henters (c : Coord) : s.Enters (0 < captures) c ↔ s.board.get c = .ok none ∨ 1 ≤ captures ∧ s.Enemy c := by
      have hpositive : 0 < captures ↔ 1 ≤ captures := by omega
      simp [Enters, hpositive]
    rw [hm k hk]
    constructor
    · rintro ⟨hsteps, hreached⟩
      exact ⟨(le_stepsWithin_iff hp hlimit hk hreached).1 hsteps, hreached.clear, (henters _).1 hreached.enters⟩
    · rintro ⟨hsteps, hclear, hlast⟩
      have hreached : s.Reached direction (0 < captures) s.square k := ⟨hclear, (henters _).2 hlast⟩
      exact ⟨(le_stepsWithin_iff hp hlimit hk hreached).2 hsteps, hreached⟩

/-- With a limit of two and a half steps there are three moves along a row, the third one onto a piece of the other
team. -/
theorem ray_exact_fraction :
    let rook : Coord × Piece := (⟨1, 0, 0, 0⟩, ⟨0, .text "R", .int 0⟩)
    let pawn : Coord × Piece := (⟨4, 0, 0, 0⟩, ⟨1, .text "P", .int 1⟩)
    let limit : Number := .float (.finite false 5 (-1))
    let step : Coord := ⟨1, 0, 0, 0⟩
    ∃ b, Board.arranged ⟨6, 1, 1, 1⟩ #[[], []] [rook, pawn] = .ok b ∧ limit.ge (.int 1) = true ∧
      (b.standing rook.2 rook.1).ray step ⟨some limit, some 1⟩ =
        .ok [⟨rook.1, ⟨2, 0, 0, 0⟩, none⟩, ⟨rook.1, ⟨3, 0, 0, 0⟩, none⟩, ⟨rook.1, ⟨4, 0, 0, 0⟩, none⟩] ∧
      ∀ k : Nat, 1 ≤ k → (k ≤ 3 ↔ (Number.int (k - 1)).lt limit = true ∧
        (∀ j : Nat, 1 ≤ j → j < k → b.get (rook.1 + step.scale j) = .ok none) ∧
        (b.get (rook.1 + step.scale k) = .ok none ∨ 1 ≤ (1 : Int) ∧
          ∃ q, b.get (rook.1 + step.scale k) = .ok (some (.piece q)) ∧ q.team.same rook.2.team = false)) := by
  intro rook pawn limit step
  obtain ⟨b, hb, hrook, hray⟩ : ∃ b, Board.arranged ⟨6, 1, 1, 1⟩ #[[], []] [rook, pawn] = .ok b ∧
      b.get rook.1 = .ok (some (.piece rook.2)) ∧
      (b.standing rook.2 rook.1).ray step ⟨some limit, some 1⟩ =
        .ok [⟨rook.1, ⟨2, 0, 0, 0⟩, none⟩, ⟨rook.1, ⟨3, 0, 0, 0⟩, none⟩, ⟨rook.1, ⟨4, 0, 0, 0⟩, none⟩] :=
    ⟨_, rfl, rfl, by decide +kernel⟩
  have hsound : b.Sound := Board.arranged_sound hb (by simp [rook, pawn, Board.contains, Board.arranged_size hb])
  have hlimit : limit.ge (.int 1) = true := by decide +kernel
  obtain ⟨m, hm, hreached⟩ := ray_exact (s := b.standing rook.2 rook.1) hsound.populated hrook step hlimit 1
  have hlength := congrArg (Except.map List.length) (hm.symm.trans hray)
  obtain rfl : m = 3 := by simpa [Except.map] using hlength
  exact ⟨b, hb, hlimit, hray, hreached⟩

end Standing

end Hyperchess
