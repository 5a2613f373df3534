import Hyperchess.Proofs.Board.Arrangement
import Mathlib.Tactic.Ring

/-!
# All cells in their order

The addresses of a shape, in lexicographic order, lead through the places of an array from the first to the last
(`Grid.map_locate_addresses`), whatever the number of axes. The squares of a board are visited in the order of their
addresses (`Board.map_address_squares`), so a visit goes through all cells of the grid in the order in which the array
has them (`Board.map_locate_squares`), and there are as many as the extents multiply to (`Board.length_squares`). A
visitor is taken to the cells as they are listed (`Board.visit_eq`). Main statement: `Board.contents_exact`.
-/

namespace Hyperchess

/-! ## Places in the order of their addresses -/

namespace Grid

/-- All addresses of a shape, in lexicographic order. -/
def addresses : (shape : List Nat) → List (List Nat)
  | [] => [[]]
  | n :: shape => (List.range n).flatMap fun i => (addresses shape).map (i :: ·)

/-- Rows of numbers, one behind the other. -/
theorem flatMap_row (n v : Nat) :
    (List.range n).flatMap (fun i => (List.range v).map (i * v + ·)) = List.range (n * v) := by
  induction n with
  | zero =>
    rw [Nat.zero_mul]
    rfl
  | succ n ih => rw [List.range_succ, List.flatMap_append, ih, List.flatMap_singleton, Nat.succ_mul, List.range_add]

/-- **The addresses of a shape lead through its places, from the first to the last.** -/
theorem map_locate_addresses (shape : List Nat) :
    (addresses shape).map (locate shape) = (List.range (volume shape)).map fun k => some (k, []) := by
  induction shape with
  | nil => rfl
  | cons n shape ih =>
    -- the addresses with one first entry lead through one row of places
    have hrow (i : Nat) (hi : i ∈ List.range n) :
        ((addresses shape).map (i :: ·)).map (locate (n :: shape)) =
          ((List.range (volume shape)).map (i * volume shape + ·)).map fun k => some (k, []) := by
      have hfirst : locate (n :: shape) ∘ (i :: ·) =
          Option.map (fun r : Nat × List Nat => (i * volume shape + r.1, r.2)) ∘ locate shape := by
        funext address
        simp only [Function.comp_apply, locate, if_pos (List.mem_range.1 hi)]
      rw [List.map_map, hfirst, ← List.map_map, ih, List.map_map, List.map_map]
      rfl
    rw [addresses, List.map_flatMap, List.flatMap_congr hrow, ← List.map_flatMap, flatMap_row]
    rfl

theorem length_addresses (shape : List Nat) : (addresses shape).length = volume shape := by
  have hlength := congrArg List.length (map_locate_addresses shape)
  rwa [List.length_map, List.length_map, List.length_range] at hlength

end Grid

namespace Board

variable {b : Board} {c d : Coord}

/-! ## Squares in the order of their addresses -/

theorem map_address_squares (b : Board) : b.squares.map address = Grid.addresses (shapeOf b.size) := by
  simp only [squares, shapeOf, address, Coord.nested, Grid.addresses, List.map_flatMap, List.map_map, Function.comp_def,
    List.map_cons, List.map_nil, Int.toNat_natCast, ← List.map_eq_flatMap]

/-- **A visit goes through the places of the array from the first to the last.** -/
theorem map_locate_squares (h : b.Framed) :
    b.squares.map (fun c => Grid.locate b.grid.shape (address c)) =
      (List.range b.grid.cells.size).map fun k => some (k, []) := by
  have hplaces := Grid.map_locate_addresses b.grid.shape
  rw [h.shape, ← map_address_squares, List.map_map, ← h.shape, ← h.room] at hplaces
  exact hplaces

/-- There are as many squares as the extents multiply to. -/
theorem length_squares (b : Board) (hsize : ∀ n ∈ b.size.axes, 0 ≤ n) :
    (b.squares.length : Int) = b.size.x * b.size.y * b.size.z * b.size.w := by
  have hlength : b.squares.length = Grid.volume (shapeOf b.size) := by
    rw [← Grid.length_addresses, ← map_address_squares, List.length_map]
  simp only [Coord.axes, List.forall_mem_cons] at hsize
  obtain ⟨hx, hy, hz, hw, -⟩ := hsize
  rw [hlength]
  simp only [Grid.volume, shapeOf, address, Coord.nested, List.map_cons, List.map_nil, List.foldr_cons, List.foldr_nil,
    Nat.cast_mul, Nat.cast_one, Int.toNat_of_nonneg hx, Int.toNat_of_nonneg hy, Int.toNat_of_nonneg hz,
    Int.toNat_of_nonneg hw]
  ring

/-! ## Visitors -/

/-- A visitor is taken to the cells as they are listed. -/
theorem visit_eq (h : b.Framed) {σ : Type} (visitor : σ → Coord → Option Occupant → Except Fault σ) (s : σ) :
    b.visit visitor s =
      (b.squares.map fun c => (c, b.occupant c)).foldlM (fun s e => visitor s e.1 e.2) s := by
  have hall (cs : List Coord) (hcs : ∀ c ∈ cs, b.contains c = true) (s : σ) :
      cs.foldlM (fun s c => do visitor s c (← b.cell c)) s = cs.foldlM (fun s c => visitor s c (b.occupant c)) s := by
    induction cs generalizing s with
    | nil => rfl
    | cons c cs ih =>
      obtain ⟨hc, hcs⟩ := List.forall_mem_cons.1 hcs
      rw [List.foldlM_cons, List.foldlM_cons, cell_eq h hc, Outcome.ok_bind]
      exact congrArg _ (funext (ih hcs))
  rw [visit, hall _ (fun _ => mem_squares.1) s, List.foldlM_map]

/-! ## What is listed of a board -/

/-- A list of squares with what stands on them has every square of the board once and no other one, in lexicographic
order with `w` first and `x` last. -/
structure Enumerates (b : Board) (cells : List (Coord × Option Occupant)) : Prop where
  once : ∀ c, (cells.map (·.1)).count c = if b.contains c = true then 1 else 0
  inOrder : (cells.map fun e => e.1.nested).Pairwise (· < ·)
  length : (cells.length : Int) = b.size.x * b.size.y * b.size.z * b.size.w
  read : ∀ e ∈ cells, b.get e.1 = .ok e.2

theorem enumerates_squares (h : b.Framed) (hsize : ∀ n ∈ b.size.axes, 0 ≤ n) :
    b.Enumerates (b.squares.map fun c => (c, b.occupant c)) where
  once c := by
    have hsquares : (b.squares.map fun c => (c, b.occupant c)).map (·.1) = b.squares := by
      rw [List.map_map]
      exact List.map_id _
    rw [hsquares, (nodup_squares b).count]
    simp only [mem_squares]
  inOrder := by
    rw [List.map_map, List.pairwise_map]
    exact b.visits_squares.inOrder.imp Coord.visitedBefore_iff_nested.1
  length := by rw [List.length_map, length_squares b hsize]
  read e he := by
    obtain ⟨c, hc, rfl⟩ := List.mem_map.1 he
    exact get_eq h (mem_squares.1 hc)

theorem exists_empty_framed {size : Coord} (hsize : ∀ n ∈ size.axes, 0 ≤ n) :
    ∃ b, empty size = .ok b ∧ b.size = size ∧ b.Framed :=
  have hempty := empty_of_nonneg hsize (some Integer.digitLimit)
  ⟨_, hempty, rfl, (sound_empty hempty).toFramed⟩

/-- Writing to a square changes what is read there, and nothing else. -/
theorem exists_put (h : b.Framed) (hc : b.contains c = true) (o : Option Occupant) :
    ∃ before b', b.put c o = .ok (before, b') ∧ b'.Framed ∧ b'.size = b.size ∧ b'.get c = .ok o ∧
      ∀ d, b.contains d = true → c ≠ d → b'.get d = b.get d := by
  have hafter := h.placed c o
  refine ⟨_, _, put_eq h hc o, hafter, rfl, ?_, fun d hd hne => ?_⟩
  · rw [get_eq hafter hc, occupant_placed h hc hc, if_pos rfl]
  · rw [get_eq hafter hd, get_eq h hd, occupant_placed h hc hd, if_neg hne.symm]

theorem locate_ne (h : b.Framed) (hc : b.contains c = true) (hd : b.contains d = true) (hne : c ≠ d) :
    Grid.locate b.grid.shape (address c) ≠ Grid.locate b.grid.shape (address d) := by
  rw [locate_address h hc, locate_address h hd]
  intro heq
  exact hne (slot_inj h hc hd (congrArg Prod.fst (Option.some.inj heq)))

/-- **All cells are visited, each once and in order.** There are boards of every size that is nowhere below zero; their
grids have the shape of the size, and keep it when they are written to. Of such a board
- all squares are listed, in order and with what stands on them, and they are as many as the extents multiply to;
- a visitor is taken to what is listed, as it is listed;
- the cells of these squares are all the places of the array, from the first to the last;
- two squares have different places, and writing to one of them does not change what is read on the other. -/
theorem contents_exact :
    (∀ size : Coord, (∀ n ∈ size.axes, 0 ≤ n) → ∃ b, empty size = .ok b ∧ b.size = size ∧ b.Framed) ∧
    ∀ b : Board, b.Framed → (∀ n ∈ b.size.axes, 0 ≤ n) →
      (∃ cells, b.contents = .ok cells ∧ b.Enumerates cells ∧
        (∀ {σ : Type} (visitor : σ → Coord → Option Occupant → Except Fault σ) (s : σ),
          b.visit visitor s = cells.foldlM (fun s e => visitor s e.1 e.2) s) ∧
        cells.map (fun e => Grid.locate b.grid.shape (address e.1)) =
          (List.range b.grid.cells.size).map fun k => some (k, [])) ∧
      ∀ c d, b.contains c = true → b.contains d = true → c ≠ d →
        Grid.locate b.grid.shape (address c) ≠ Grid.locate b.grid.shape (address d) ∧
        ∀ o, ∃ before b', b.put c o = .ok (before, b') ∧ b'.Framed ∧ b'.size = b.size ∧ b'.get c = .ok o ∧
          b'.get d = b.get d := by
  refine ⟨fun _ => exists_empty_framed, fun b h hsize => ⟨⟨_, contents_eq h, enumerates_squares h hsize, ?_, ?_⟩, ?_⟩⟩
  · exact visit_eq h
  · rw [List.map_map]
    exact map_locate_squares h
  · intro c d hc hd hne
    refine ⟨locate_ne h hc hd hne, fun o => ?_⟩
    obtain ⟨before, b', hput, hframed, hsize, hget, hother⟩ := exists_put h hc o
    exact ⟨before, b', hput, hframed, hsize, hget, hother d hd hne⟩

/-- A board with three axes longer than one: it has twelve squares, and writing to one of them does not change what is
read on another; and a board with an axis without extent, which has no squares. -/
theorem contents_exact_layers :
    (∃ b, empty ⟨3, 1, 2, 2⟩ = .ok b ∧ b.Framed ∧
      (∃ cells, b.contents = .ok cells ∧ b.Enumerates cells ∧ cells.length = 12) ∧
      ∃ before b', b.put ⟨2, 0, 1, 0⟩ (some (.word 7)) = .ok (before, b') ∧
        b'.get ⟨2, 0, 1, 0⟩ = .ok (some (.word 7)) ∧ b'.get ⟨0, 0, 0, 1⟩ = b.get ⟨0, 0, 0, 1⟩) ∧
    ∃ b, empty ⟨3, 0, 2, 1⟩ = .ok b ∧ b.contents = .ok [] := by
  obtain ⟨hmade, hexact⟩ := contents_exact
  constructor
  · obtain ⟨b, hempty, hsize, hframed⟩ := hmade ⟨3, 1, 2, 2⟩ (by decide)
    obtain ⟨⟨cells, hcells, hlisted, -⟩, hapart⟩ := hexact b hframed (by rw [hsize]; decide)
    have hlength := hlisted.length
    have hc : b.contains ⟨2, 0, 1, 0⟩ = true := by rw [contains_iff, hsize]; decide
    have hd : b.contains ⟨0, 0, 0, 1⟩ = true := by rw [contains_iff, hsize]; decide
    obtain ⟨-, hput⟩ := hapart _ _ hc hd (by decide)
    obtain ⟨before, b', hwritten, -, -, hread, hother⟩ := hput (some (.word 7))
    rw [hsize] at hlength
    have htwelve : cells.length = 12 := Int.ofNat.inj hlength
    exact ⟨b, hempty, hframed, ⟨cells, hcells, hlisted, htwelve⟩, before, b', hwritten, hread, hother⟩
  · obtain ⟨b, hempty, hsize, hframed⟩ := hmade ⟨3, 0, 2, 1⟩ (by decide)
    obtain ⟨⟨cells, hcells, hlisted, -⟩, -⟩ := hexact b hframed (by rw [hsize]; decide)
    have hlength := hlisted.length
    rw [hsize] at hlength
    obtain rfl : cells = [] := by simpa using hlength
    exact ⟨b, hempty, hcells⟩

end Board

end Hyperchess
