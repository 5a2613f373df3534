import Hyperchess.Safety

/-!
# Audits

An audit looks for damage to a board: a grid of the wrong shape, an index that differs from the grid, pieces with
improper fields or in several cells. It returns a message for everything it finds.
-/

namespace Hyperchess

namespace Audit

/-- The message, unless all is well. -/
def complaint (well : Bool) (message : Text) : List Text := if well then [] else [message]

/-- The grid has the shape that the size calls for, and cells that can hold anything. The extents of an array never have
too many digits. -/
def structureErrors (b : Board) : List Text :=
  let expected := Board.shapeOf b.size
  complaint (b.grid.shape == expected)
      ("棋盘数组形状错误: " ++ Grid.tuple b.grid.shape ++ ", 应为" ++ Grid.tuple expected) ++
    complaint (b.grid.kind == .anything) ("棋盘数据类型错误: " ++ b.grid.kind.name ++ ", 应为object")

/-- The occupied squares with what stands on them, in visiting order. -/
def scanned (b : Board) : Except Fault (List (Coord × Occupant)) := do
  return (← b.contents).filterMap fun (c, o) => o.map fun o => (c, o)

/-- Insertion of an entry into entries in visiting order. -/
def insertVisited (e : Coord × Occupant) : List (Coord × Occupant) → List (Coord × Occupant)
  | [] => [e]
  | f :: rest => if e.1.visitedBefore f.1 then e :: f :: rest else f :: insertVisited e rest

/-- Entries in visiting order. -/
def visited (entries : List (Coord × Occupant)) : List (Coord × Occupant) := entries.foldr insertVisited []

/-- One of the entries is for this square and this individual. -/
def lists (entries : List (Coord × Occupant)) (e : Coord × Occupant) : Bool :=
  entries.any fun f => f.1 == e.1 && f.2.isSame e.2

/-- A message about each entry, with the text of its square, unless one cannot be written. -/
def linesOn (b : Board) (message : Text) (entries : List (Coord × Occupant)) : Except Fault (List Text) :=
  entries.mapM fun e => do return message ++ (← e.1.written b.digits)

/-- The index lists exactly what the cells hold. -/
def indexErrors (b : Board) : Except Fault (List Text) := do
  let cells ← scanned b
  let missing ← linesOn b "占位索引缺少棋子: " (cells.filter fun e => !lists b.index e)
  let extra ← linesOn b "占位索引存在多余条目: " (visited (b.index.filter fun e => !lists cells e))
  return missing ++ extra ++
    complaint (b.index.length == cells.length)
      ("占位索引数量 " ++ Integer.text b.index.length ++ " 与棋盘棋子数 " ++ Integer.text cells.length ++ " 不一致")

/-- A kind is a text that is not empty. -/
def isKind : Data → Bool
  | .text s => !s.isEmpty
  | _ => false

/-- Teams and flags are integers; a truth value counts as one. -/
def isInteger : Data → Bool
  | .int _ | .bool _ => true
  | _ => false

/-- The message with what is wrong behind it, unless all is well. What is wrong is looked at only then. -/
def complaintOn (well : Bool) (message : Text) (wrong : Except Fault Text) : Except Fault (List Text) :=
  if well then .ok [] else do return [message ++ (← wrong)]

/-- The errors of a piece on a square, when the pieces `seen` stand on earlier ones. -/
def pieceErrors (b : Board) (c : Coord) (seen : List Nat) (p : Piece) : Except Fault (List Text) := do
  let place : Text ← c.written b.digits
  let flags := b.flagsOf p
  let ofKind ← complaintOn (isKind p.id) (place ++ " 处棋子类型无效: ") (p.id.written b.digits)
  let ofTeam ← complaintOn (isInteger p.team) (place ++ " 处棋子队伍无效: ") (p.team.written b.digits)
  let ofFlags ← complaintOn (flags.all isInteger) (place ++ " 处棋子标志无效: ") (flags.written b.digits)
  return complaint (!seen.contains p.serial) (place ++ " 处的棋子同时出现在多个格子") ++ ofKind ++ ofTeam ++ ofFlags

/-- The errors of what stands on these squares, when the pieces `seen` stand on earlier ones. -/
def occupantErrors (b : Board) (seen : List Nat) : List (Coord × Occupant) → Except Fault (List Text)
  | [] => .ok []
  | (c, .piece p) :: rest => do
    return (← pieceErrors b c seen p) ++ (← occupantErrors b (p.serial :: seen) rest)
  | (c, o) :: rest => do
    let place : Text ← c.written b.digits
    let error := place ++ " 处不是棋子对象: " ++ (← b.occupantText o)
    return error :: (← occupantErrors b seen rest)

/-- Every occupied cell holds a proper piece, and no two cells the same one. -/
def fieldErrors (b : Board) : Except Fault (List Text) := do
  occupantErrors b [] (← scanned b)

/-- All errors of a board. -/
def errors (b : Board) : Except Fault (List Text) := do
  let ofStructure := structureErrors b
  let ofIndex ← indexErrors b
  let ofFields ← fieldErrors b
  return ofStructure ++ ofIndex ++ ofFields

/-- One more for a team. -/
def increment (counts : List (Data × Nat)) (team : Data) : List (Data × Nat) :=
  counts.map fun e => if e.1.same team then (e.1, e.2 + 1) else e

/-- The number of royal pieces of every team, in increasing order of teams. -/
def royalCounts (b : Board) (v : Variant) : Except Fault (List (Data × Nat)) := do
  let teams ← b.teams
  (← b.indexedPieces).foldlM (fun counts e => do
    return if ← v.isRoyal e.2.id then increment counts e.2.team else counts) (teams.map fun t => (t, 0))

/-- What an audit found. -/
structure Report where
  pieceCount : Nat
  royals : List (Data × Nat)
  ofStructure : List Text
  ofIndex : List Text
  ofFields : List Text
  deriving Repr

/-- The number of errors in a report. -/
def Report.total (r : Report) : Nat := r.ofStructure.length + r.ofIndex.length + r.ofFields.length

/-- The report on a board. -/
def report (b : Board) (v : Variant) : Except Fault Report := do
  let royals ← royalCounts b v
  let ofStructure := structureErrors b
  let ofIndex ← indexErrors b
  let ofFields ← fieldErrors b
  return ⟨b.index.length, royals, ofStructure, ofIndex, ofFields⟩

end Audit

end Hyperchess
