import Hyperchess.Audit
import Hyperchess.Cache
import Hyperchess.Layout

/-!
# Games

A game is a board with a variant, a cache of legal moves and a journal. Every operation gives its answer together with
the game after it, also when it fails; the operations that change the board empty the cache first.
-/

namespace Hyperchess

/-- A game. -/
structure Game where
  board : Board
  variant : Variant
  /-- Nothing for a game that is played without a cache. -/
  cache : Option Cache
  journal : List Entry := []
  deriving Repr, Inhabited

namespace Game

/-- The game with more entries in its journal. -/
def report (g : Game) (entries : List Entry) : Game := { g with journal := g.journal ++ entries }

/-! ## The cache -/

/-- Empties the cache. -/
def clearCache (g : Game) : Game :=
  match g.cache with
  | none => g
  | some c => { g with cache := some c.clear }.report c.clearEntries

/-- The cached moves of a square. -/
def remembered (g : Game) (square : Coord) : Option (List Move) × Game :=
  match g.cache with
  | none => (none, g)
  | some c =>
    let r := c.get square
    (r.1, { g with cache := some r.2 })

/-- Caches the moves of a square. -/
def remember (g : Game) (square : Coord) (moves : List Move) : Game :=
  { g with cache := g.cache.map fun c => c.store square moves }

/-! ## Changes -/

/-- Puts something, or nothing, on a square. The answer is what stood there. -/
def set (g : Game) (square : Coord) (o : Option Occupant) : Except Fault (Option Occupant) × Game :=
  match g.board.check square with
  | .error e => (.error e, g)
  | .ok _ =>
    let g := g.clearCache
    match g.board.put square o with
    | .error e => (.error e, g)
    | .ok (before, board) => (.ok before, { g with board })

/-- Makes a move without asking whether it is legal. The answer is what was captured. The cache may be left as it is. -/
def move (g : Game) (m : Move) (invalidate : Bool := true) : Except Fault (Option Occupant) × Game :=
  match g.board.check m.src, g.board.check m.dst with
  | .error e, _ => (.error e, g)
  | _, .error e => (.error e, g)
  | .ok _, .ok _ =>
    let g := if invalidate then g.clearCache else g
    let r := g.board.move m
    (r.1, { g with board := r.2 })

/-! ## Moves -/

/-- The moves that do not expose a team. -/
def legal (g : Game) (moves : List Move) (team : Data) : Except Fault (List Move) × Game :=
  match g.board.legal g.variant team moves with
  | (.error e, board) => (.error e, { g with board })
  | (.ok kept, board) =>
    let g := { g with board }
    let dropped := moves.length - kept.length
    if dropped = 0 then (.ok kept, g)
    else (.ok kept, g.report [Reporter.engine.entry .debug ("将军检测过滤掉 " ++ Integer.text dropped ++ " 个走法")])

/-- The moves of what stands on a square: the candidates, or with `safe` those that do not expose its team. -/
def moves (g : Game) (square : Coord) (safe : Bool) : Except Fault (List Move) × Game :=
  match g.board.get square with
  | .error e => (.error e, g)
  | .ok none => (.ok [], g)
  | .ok (some o) =>
    if safe then
      match g.remembered square with
      | (some moves, g) => (.ok moves, g)
      | (none, g) =>
        match g.board.candidates g.variant.book square, o.asPiece with
        | .error e, _ => (.error e, g)
        | _, .error e => (.error e, g)
        | .ok candidates, .ok piece =>
          match g.legal candidates piece.team with
          | (.error e, g) => (.error e, g)
          | (.ok moves, g) => (.ok moves, g.remember square moves)
    else (g.board.candidates g.variant.book square, g)

/-- The moves of a team's pieces among index entries, one piece after the other. -/
def movesFrom (g : Game) (team : Data) (safe : Bool) : List (Coord × Occupant) → Except Fault (List Move) × Game
  | [] => (.ok [], g)
  | e :: rest =>
    match e.2.asPiece with
    | .error f => (.error f, g)
    | .ok piece =>
      if piece.team.same team then
        match g.moves e.1 safe with
        | (.error f, g) => (.error f, g)
        | (.ok moves, g) =>
          match movesFrom g team safe rest with
          | (.error f, g) => (.error f, g)
          | (.ok more, g) => (.ok (moves ++ more), g)
      else movesFrom g team safe rest

/-- The moves of a team, in the order of the index. -/
def teamMoves (g : Game) (team : Data) (safe : Bool) : Except Fault (List Move) × Game :=
  g.movesFrom team safe g.board.index

/-- Whether a move is among the moves of its source. A move that leaves the board is not. -/
def allows (g : Game) (m : Move) (safe : Bool) : Except Fault Bool × Game :=
  if g.board.contains m.src && g.board.contains m.dst then
    match g.moves m.src safe with
    | (.error e, g) => (.error e, g)
    | (.ok moves, g) => (.ok (moves.any m.sameEnds), g)
  else (.ok false, g)

/-- Makes a move if it is legal. The answer is whether it was made, and what was captured. A move that is refused is
reported, so it has to be one that can be written. -/
def tryMove (g : Game) (m : Move) : Except Fault (Bool × Option Occupant) × Game :=
  match g.allows m true with
  | (.error e, g) => (.error e, g)
  | (.ok false, g) =>
    match m.written g.board.digits with
    | .error e => (.error e, g)
    | .ok text => (.ok (false, none), g.report [Reporter.game.entry .debug ("拒绝非法走法: " ++ text)])
  | (.ok true, g) =>
    match g.move m with
    | (.error e, g) => (.error e, g)
    | (.ok captured, g) => (.ok (true, captured), g)

/-- Whether a move exposes a team. -/
def exposes (g : Game) (m : Move) (team : Data) : Except Fault Bool × Game :=
  let r := g.board.exposes g.variant m team
  (r.1, { g with board := r.2 })

end Game

end Hyperchess
