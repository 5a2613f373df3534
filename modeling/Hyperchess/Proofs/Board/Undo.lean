import Hyperchess.Proofs.Board.Mirror

/-!
# Taking moves back

On a sound board a move that is played succeeds exactly if both of its ends are on the board (`play_eq`,
`play_eq_error`), and taking it back gives the very board from before (`undo_moved`): the cells, the index with its
order, and the flags of all pieces.
-/

namespace Hyperchess.Board

variable {b : Board} {m : Move}

/-! ## Flags -/

theorem setFlags_self (b : Board) (p : Piece) : b.setFlags p (b.flagsOf p) = b := by
  have hflags : b.flags.setIfInBounds p.serial (b.flagsOf p) = b.flags := by
    refine Array.ext (by simp) fun i hi hi' => ?_
    rw [Array.getElem_setIfInBounds hi']
    split
    · rename_i e
      subst e
      simp [flagsOf, hi']
    · rfl
  simp [setFlags, hflags]

/-- Of two changes of the flags of one piece the second counts. -/
theorem setFlags_setFlags (b : Board) (p : Piece) (fs fs' : Flags) :
    (b.setFlags p fs).setFlags p fs' = b.setFlags p fs' := by
  simp only [setFlags, Array.setIfInBounds_setIfInBounds]

/-! ## Playing -/

/-- What is kept of a board to take a move back. -/
def record (b : Board) (m : Move) : Played where
  move := m
  src := b.occupant m.src
  dst := b.occupant m.dst
  flags := match b.occupant m.src with | some (.piece p) => some (b.flagsOf p) | _ => none
  index := b.index

/-- Between two squares of a sound board, a move can be played. -/
theorem play_eq (h : b.Sound) (hs : b.contains m.src = true) (hd : b.contains m.dst = true) :
    b.play m = (.ok (b.record m), b.moved m) := by
  obtain ⟨p, hp⟩ := h.occupant_eq hs
  cases p with
  | none => simp [play, get_eq h.toFramed hs, get_eq h.toFramed hd, hp, movedFlags, move_eq h hs hd, record]
  | some p => simp [play, get_eq h.toFramed hs, get_eq h.toFramed hd, hp, movedFlags, move_eq h hs hd, record]

/-- Beyond the edge, playing a move is refused and changes nothing. -/
theorem play_eq_error (h : b.Framed) (hm : ¬(b.contains m.src = true ∧ b.contains m.dst = true)) :
    b.play m = (.error (b.edgeFault m), b) := by
  unfold play edgeFault
  cases hs : b.contains m.src with
  | false => simp [get_eq_error hs]
  | true =>
    have hd : b.contains m.dst = false := by simpa [hs] using hm
    simp [get_eq h hs, get_eq_error hd]

/-! ## Taking back -/

theorem withCell_grid_congr {b' : Board} (h : b'.grid = b.grid) (c : Coord) (o : Option Occupant) :
    (b'.withCell c o).grid = (b.withCell c o).grid := by
  simp only [withCell, slot, h]

/-- The two cells of a move are as before once both have been written back. -/
theorem withCell_back (h : b.Framed) {s d : Coord} (hs : b.contains s = true) (hd : b.contains d = true)
    (o o' : Option Occupant) :
    (((b.withCell s o).withCell d o').withCell d (b.occupant d)).withCell s (b.occupant s) = b := by
  rw [withCell_withCell]
  by_cases e : s = d
  · subst e
    rw [withCell_withCell, withCell_withCell, withCell_self h hs]
  · rw [withCell_comm h hs hd e, withCell_withCell, withCell_self h hd, withCell_self h hs]

/-- The grid of a board on which a move has been taken back. -/
theorem grid_back (h : b.Sound) (hs : b.contains m.src = true) (hd : b.contains m.dst = true) :
    (((b.moved m).withCell m.dst (b.occupant m.dst)).withCell m.src (b.occupant m.src)).grid = b.grid := by
  have hgrid : (b.moved m).grid = ((b.withCell m.src none).withCell m.dst (b.occupant m.src)).grid := by
    rw [moved, settled_grid, placed_grid]
    exact withCell_grid_congr rfl _ _
  rw [withCell_grid_congr (withCell_grid_congr hgrid m.dst (b.occupant m.dst)), withCell_back h.toFramed hs hd]

/-- The flags of a board on which a move has been taken back. -/
theorem flags_back {p : Piece} (hp : b.occupant m.src = some (.piece p)) :
    ((b.moved m).setFlags p (b.flagsOf p)).flags = b.flags := by
  simp only [moved, hp, settled, setFlags_setFlags]
  show (b.setFlags p (b.flagsOf p)).flags = b.flags
  rw [setFlags_self]

/-- **Taking a move back gives the board from before it.** -/
theorem undo_moved (h : b.Sound) (hs : b.contains m.src = true) (hd : b.contains m.dst = true) :
    (b.moved m).undo (b.record m) = (.ok (), b) := by
  have hframed := (h.moved hs hd).toFramed
  have hdst := setCell_eq (o := b.occupant m.dst) hframed ((moved_contains b m m.dst).trans hd)
  have hsrc := setCell_eq (o := b.occupant m.src) (hframed.withCell m.dst (b.occupant m.dst))
    ((moved_contains b m m.src).trans hs)
  have hgrid := grid_back h hs hd
  have hsize := moved_size b m
  have hdigits := moved_digits b m
  -- the size and the grid are as before in any case, the flags only need a change if a piece has moved
  obtain ⟨p, hp⟩ := h.occupant_eq hs
  cases p with
  | none =>
    have hflags : (b.moved m).flags = b.flags := by simp [moved, hp, settled]
    simp only [hp, Option.map_none] at hsrc hgrid
    simp only [undo, record, hdst, hp, Option.map_none, hsrc]
    exact congrArg (Prod.mk _) (Board.ext hsize hgrid rfl hflags hdigits)
  | some p =>
    have hflags := flags_back hp
    simp only [hp, Option.map_some] at hsrc hgrid
    simp only [undo, record, hdst, hp, Option.map_some, hsrc]
    exact congrArg (Prod.mk _) (Board.ext hsize hgrid rfl hflags hdigits)

end Hyperchess.Board
