import Hyperchess.Game
import Hyperchess.Proofs.Board.Undo

/-!
# Changes of a game

What the operations that change a game do to it, on a board whose grid has the right shape: they succeed on the squares
of the board (`set_eq`, `move_eq`), with an empty cache behind them, and are refused beyond the edge, where they change
nothing at all (`set_eq_error`, `move_eq_error`).
-/

namespace Hyperchess.Game

variable {g : Game} {c : Coord} {m : Move}

@[simp] theorem clearCache_board (g : Game) : g.clearCache.board = g.board := by
  unfold clearCache; split <;> rfl

@[simp] theorem clearCache_variant (g : Game) : g.clearCache.variant = g.variant := by
  unfold clearCache; split <;> rfl

/-- Setting a square of the board succeeds. -/
theorem set_eq (h : g.board.Framed) (hc : g.board.contains c = true) (o : Option Occupant) :
    g.set c o = (.ok (g.board.occupant c), { g.clearCache with board := g.board.placed c o }) := by
  simp [set, Board.check_eq hc, Board.put_eq h hc]

/-- Beyond the edge, setting is refused. -/
theorem set_eq_error (hc : g.board.contains c = false) (o : Option Occupant) :
    g.set c o = (.error (g.board.edgeFaultAt c), g) := by
  simp [set, Board.check_eq_error hc]

/-- Moving between two squares of the board succeeds. -/
theorem move_eq (h : g.board.Sound) (hs : g.board.contains m.src = true) (hd : g.board.contains m.dst = true)
    (invalidate : Bool) : g.move m invalidate = (.ok ((g.board.placed m.src none).occupant m.dst),
      { (if invalidate then g.clearCache else g) with board := g.board.moved m }) := by
  cases invalidate <;> simp [move, Board.check_eq hs, Board.check_eq hd, Board.move_eq h hs hd]

/-- Beyond the edge, moving is refused. -/
theorem move_eq_error (hm : ¬(g.board.contains m.src = true ∧ g.board.contains m.dst = true)) (invalidate : Bool) :
    g.move m invalidate = (.error (g.board.edgeFault m), g) := by
  unfold move Board.edgeFault
  cases hs : g.board.contains m.src with
  | false => simp [Board.check_eq_error hs]
  | true =>
    have hd : g.board.contains m.dst = false := by simpa [hs] using hm
    simp [Board.check_eq hs, Board.check_eq_error hd]

end Hyperchess.Game
