import Hyperchess.Board
import Hyperchess.Proofs.Outcome
import Mathlib.Data.List.Nodup

/-!
# The cells of a board as a function of its squares

A grid of the shape that the size of its board calls for (`Framed`) has one cell for each square (`slot_inj`,
`slot_lt`), so reading never fails there (`cell_eq`, `get_eq`) and writing changes one square only (`setCell_eq`,
`occupant_withCell`). The laws of writing (`withCell_self`, `withCell_withCell`, `withCell_comm`) are equations between
boards: they say that a board is the very same again, not only that it looks the same. On most boards the cells hold
pieces and nothing else (`Populated`), and are known from what `pieceAt` finds on each square.
-/

namespace Hyperchess

namespace Grid

/-- An address with an entry below the extent of every axis leads to a cell. -/
theorem exists_locate {shape address : List Nat} (h : List.Forall₂ (· < ·) address shape) :
    ∃ i, locate shape address = some (i, []) := by
  induction h with
  | nil => exact ⟨0, locate_nil []⟩
  | @cons a n address shape ha _ ih =>
    obtain ⟨i, hi⟩ := ih
    exact ⟨a * volume shape + i, by simp [locate, ha, hi]⟩

end Grid

attribute [ext] Board

namespace Board

variable {b : Board} {c d : Coord} {o : Option Occupant}

/-! ## Squares -/

theorem contains_iff : b.contains c = true ↔
    (0 ≤ c.x ∧ c.x < b.size.x) ∧ (0 ≤ c.y ∧ c.y < b.size.y) ∧ (0 ≤ c.z ∧ c.z < b.size.z) ∧
      (0 ≤ c.w ∧ c.w < b.size.w) := by
  simp only [contains, Bool.and_eq_true, decide_eq_true_eq]
  tauto

/-- Whether a square is on a board is a matter of its size. -/
theorem contains_congr {b' : Board} (h : b'.size = b.size) (c : Coord) : b'.contains c = b.contains c := by
  simp only [contains, h]

/-- There are boards of every size. -/
theorem exists_of_size (size : Coord) : ∃ b : Board, b.size = size := ⟨{ (default : Board) with size }, rfl⟩

theorem check_eq (h : b.contains c = true) : b.check c = .ok () := by simp [check, h]

theorem check_eq_error (h : b.contains c = false) : b.check c = .error (b.edgeFaultAt c) := by
  simp [check, h]

/-- A square beyond the edge is refused. -/
theorem get_eq_error (h : b.contains c = false) : b.get c = .error (b.edgeFaultAt c) := by
  simp [get, check_eq_error h]

/-- What is read is on the board. -/
theorem contains_of_get (h : b.get c = .ok o) : b.contains c = true ∧ b.cell c = .ok o := by
  cases hc : b.contains c with
  | false => cases (get_eq_error hc).symm.trans h
  | true =>
    rw [get, check_eq hc, Outcome.ok_bind] at h
    exact ⟨rfl, h⟩

/-- Squares of a board are told apart by the addresses of their cells. -/
theorem address_inj (hc : b.contains c = true) (hd : b.contains d = true) (h : address c = address d) : c = d := by
  obtain ⟨hcx, hcy, hcz, hcw⟩ := contains_iff.1 hc
  obtain ⟨hdx, hdy, hdz, hdw⟩ := contains_iff.1 hd
  simp only [address, Coord.nested, List.map_cons, List.map_nil, List.cons.injEq, and_true] at h
  obtain ⟨hw, hz, hy, hx⟩ := h
  cases c
  cases d
  simp only at *
  congr 1 <;> omega

/-- The address of a square is below the shape. -/
theorem address_lt (h : b.contains c = true) : List.Forall₂ (· < ·) (address c) (shapeOf b.size) := by
  obtain ⟨hx, hy, hz, hw⟩ := contains_iff.1 h
  simp only [shapeOf, address, Coord.nested, List.map_cons, List.map_nil]
  refine .cons ?_ (.cons ?_ (.cons ?_ (.cons ?_ .nil))) <;> omega

/-! ## Places in the grid -/

/-- The grid has the shape that the size calls for, with room for anything in the cell of every square. -/
structure Framed (b : Board) : Prop where
  shape : b.grid.shape = shapeOf b.size
  kind : b.grid.kind = .anything
  room : b.grid.cells.size = Grid.volume b.grid.shape

/-- The place of a square in the array of cells. -/
def slot (b : Board) (c : Coord) : Nat := ((Grid.locate b.grid.shape (address c)).map (·.1)).getD 0

/-- What stands on a square, as far as the grid goes. -/
def occupant (b : Board) (c : Coord) : Option Occupant := b.grid.cells.getD (b.slot c) none

/-- The board with something else in the cell of a square. -/
def withCell (b : Board) (c : Coord) (o : Option Occupant) : Board :=
  { b with grid := { b.grid with cells := b.grid.cells.setIfInBounds (b.slot c) o } }

theorem locate_address (h : b.Framed) (hc : b.contains c = true) :
    Grid.locate b.grid.shape (address c) = some (b.slot c, []) := by
  obtain ⟨i, hi⟩ := Grid.exists_locate (address_lt hc)
  rw [← h.shape] at hi
  simp [slot, hi]

theorem slot_lt (h : b.Framed) (hc : b.contains c = true) : b.slot c < b.grid.cells.size := by
  rw [h.room]
  exact Grid.locate_lt (locate_address h hc)

/-- Different squares have different places. -/
theorem slot_inj (h : b.Framed) (hc : b.contains c = true) (hd : b.contains d = true) (e : b.slot c = b.slot d) :
    c = d := by
  have hl := locate_address h hd
  rw [← e] at hl
  exact address_inj hc hd (Grid.locate_inj (locate_address h hc) hl)

/-! ## Reading and writing -/

theorem cell_eq (h : b.Framed) (hc : b.contains c = true) : b.cell c = .ok (b.occupant c) := by
  simp [cell, Grid.read, locate_address h hc, occupant]

theorem get_eq (h : b.Framed) (hc : b.contains c = true) : b.get c = .ok (b.occupant c) := by
  simp [get, check_eq hc, cell_eq h hc]

/-- Reading a square succeeds exactly on the board, with what stands there. -/
theorem get_eq_ok_iff (h : b.Framed) : b.get c = .ok o ↔ b.contains c = true ∧ b.occupant c = o := by
  cases hc : b.contains c with
  | false => simp [get_eq_error hc]
  | true => simp [get_eq h hc]

theorem write_eq (h : b.Framed) (hc : b.contains c = true) :
    b.grid.write (address c) o = .ok (b.withCell c o).grid := by
  simp [Grid.write, locate_address h hc, h.kind, Grid.stored, withCell]

theorem setCell_eq (h : b.Framed) (hc : b.contains c = true) : b.setCell c o = .ok (b.withCell c o) := by
  simp [setCell, write_eq h hc, withCell]

theorem Framed.withCell (h : b.Framed) (c : Coord) (o : Option Occupant) : (b.withCell c o).Framed where
  shape := h.shape
  kind := h.kind
  room := by simpa [Board.withCell] using h.room

/-- Writing changes one square. -/
theorem occupant_withCell (h : b.Framed) (hc : b.contains c = true) (hd : b.contains d = true) :
    (b.withCell c o).occupant d = if d = c then o else b.occupant d := by
  show (b.grid.cells.setIfInBounds (b.slot c) o).getD (b.slot d) none = _
  have hlt := slot_lt h hc
  by_cases e : d = c
  · subst e
    simp [hlt]
  · have hne : b.slot c ≠ b.slot d := fun k => e (slot_inj h hd hc k.symm)
    simp [e, occupant, Array.getElem?_setIfInBounds_ne hne]

/-! ## Laws of writing -/

/-- Writing what is there changes nothing. -/
theorem withCell_self (h : b.Framed) (hc : b.contains c = true) : b.withCell c (b.occupant c) = b := by
  have hlt := slot_lt h hc
  have hcells : b.grid.cells.setIfInBounds (b.slot c) (b.occupant c) = b.grid.cells := by
    refine Array.ext (by simp) fun i hi hi' => ?_
    rw [Array.getElem_setIfInBounds hi']
    split
    · rename_i e
      subst e
      simp [occupant, hlt]
    · rfl
  simp [withCell, hcells]

/-- Of two writings to one square the second counts. -/
theorem withCell_withCell (b : Board) (c : Coord) (o o' : Option Occupant) :
    (b.withCell c o).withCell c o' = b.withCell c o' := by
  simp only [withCell, slot, Array.setIfInBounds_setIfInBounds]

/-- Writings to different squares can be exchanged. -/
theorem withCell_comm (h : b.Framed) (hc : b.contains c = true) (hd : b.contains d = true) (e : c ≠ d)
    (o o' : Option Occupant) : (b.withCell c o).withCell d o' = (b.withCell d o').withCell c o := by
  have hne : b.slot c ≠ b.slot d := fun k => e (slot_inj h hc hd k)
  have hcells : (b.grid.cells.setIfInBounds (b.slot c) o).setIfInBounds (b.slot d) o' =
      (b.grid.cells.setIfInBounds (b.slot d) o').setIfInBounds (b.slot c) o := Array.setIfInBounds_comm o o' hne
  simp only [withCell, slot] at hcells ⊢
  simp only [hcells]

/-! ## Boards with pieces only -/

/-- A list of squares with pieces on them, as an index lists them. -/
theorem exists_map_piece {entries : List (Coord × Occupant)} (h : ∀ e ∈ entries, ∃ p, e.2 = .piece p) :
    ∃ pieces : List (Coord × Piece), entries = pieces.map fun e => (e.1, .piece e.2) := by
  induction entries with
  | nil => exact ⟨[], rfl⟩
  | cons e rest ih =>
    obtain ⟨⟨p, hp⟩, hrest⟩ := List.forall_mem_cons.1 h
    obtain ⟨pieces, hmap⟩ := ih hrest
    refine ⟨(e.1, p) :: pieces, ?_⟩
    rw [List.map_cons, ← hmap, ← hp]

/-- Every square is empty or holds a piece. -/
structure Populated (b : Board) : Prop extends Framed b where
  pieces : ∀ {c : Coord} {o : Occupant}, b.contains c = true → b.occupant c = some o → ∃ p, o = .piece p

theorem Populated.occupant_eq (h : b.Populated) (hc : b.contains c = true) :
    ∃ p : Option Piece, b.occupant c = p.map .piece := by
  cases ho : b.occupant c with
  | none => exact ⟨none, rfl⟩
  | some o =>
    obtain ⟨p, rfl⟩ := h.pieces hc ho
    exact ⟨some p, rfl⟩

/-- The piece on a square, if it is on the board and holds one. -/
def pieceAt (b : Board) (c : Coord) : Option Piece :=
  match b.get c with
  | .ok (some (.piece p)) => some p
  | _ => none

theorem pieceAt_eq_none (hc : b.contains c = false) : b.pieceAt c = none := by
  simp [pieceAt, get_eq_error hc]

theorem pieceAt_eq_some_iff {p : Piece} : b.pieceAt c = some p ↔ b.get c = .ok (some (.piece p)) := by
  unfold pieceAt
  split
  · rename_i q hq
    simp [hq]
  · rename_i hother
    exact ⟨fun h => (by cases h), fun h => absurd h (hother p)⟩

theorem Populated.occupant_eq_pieceAt (h : b.Populated) (hc : b.contains c = true) :
    b.occupant c = (b.pieceAt c).map .piece := by
  obtain ⟨p, hp⟩ := h.occupant_eq hc
  rw [pieceAt, get_eq h.toFramed hc, hp]
  cases p <;> rfl

/-- What is read on a square of a board with nothing but pieces. -/
theorem Populated.cell_eq (h : b.Populated) (hc : b.contains c = true) : b.cell c = .ok ((b.pieceAt c).map .piece) := by
  rw [Board.cell_eq h.toFramed hc, h.occupant_eq_pieceAt hc]

theorem Populated.get_eq (h : b.Populated) (hc : b.contains c = true) : b.get c = .ok ((b.pieceAt c).map .piece) := by
  rw [Board.get_eq h.toFramed hc, h.occupant_eq_pieceAt hc]

end Board

end Hyperchess
