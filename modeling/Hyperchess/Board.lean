import Hyperchess.Grid.Shown
import Hyperchess.Machine
import Hyperchess.Move

/-!
# Boards

A board keeps its pieces twice: in the cells of a grid, and in an index that lists the occupied squares in the order in
which they were filled. `put` changes both together. The flags of the pieces are kept beside them, by serial number, so
that a piece that stands in several cells has one set of flags.
-/

namespace Hyperchess

/-- A board. -/
structure Board where
  size : Coord
  grid : Grid
  index : List (Coord × Occupant)
  /-- The flags of every piece made for this board, by serial number. -/
  flags : Array Flags
  /-- The largest number of digits of an integer that is written, if there is a limit. -/
  digits : Option Nat := some Integer.digitLimit
  deriving Repr, Inhabited

/-- What is needed to take a move back. -/
structure Played where
  move : Move
  src : Option Occupant
  dst : Option Occupant
  /-- The flags of the piece on the source square before the move. -/
  flags : Option Flags
  index : List (Coord × Occupant)
  deriving DecidableEq, Repr, Inhabited

namespace Board

/-! ## Squares -/

/-- Every axis is at least zero and below the extent of the board. -/
def contains (b : Board) (c : Coord) : Bool :=
  0 ≤ c.x && c.x < b.size.x && 0 ≤ c.y && c.y < b.size.y && 0 ≤ c.z && c.z < b.size.z && 0 ≤ c.w && c.w < b.size.w

/-- The report on a square that is not on the board: it shows the square and the size, unless they cannot be written. -/
def edgeFaultAt (b : Board) (c : Coord) : Fault :=
  if c.isWithin b.digits && b.size.isWithin b.digits then .outOfBounds c.text b.size.text else .tooManyDigits b.digits

/-- Refuses a square that is not on the board. -/
def check (b : Board) (c : Coord) : Except Fault Unit := if b.contains c then .ok () else .error (b.edgeFaultAt c)

/-- The address of a square's cell. -/
def address (c : Coord) : List Nat := c.nested.map Int.toNat

/-- The shape of the grid of a board of this size. -/
def shapeOf (size : Coord) : List Nat := address size

/-- An empty board. -/
def empty (size : Coord) (digits : Option Nat := some Integer.digitLimit) : Except Fault Board :=
  if size.nested.any (· < 0) then .error .negativeExtent
  else .ok ⟨size, Grid.empty (shapeOf size) .anything, [], #[], digits⟩

/-- The largest extent. -/
def span (b : Board) : Nat := (max (max b.size.x b.size.y) (max b.size.z b.size.w)).toNat

/-- What stands in the cell of a square, which may be off the board. -/
def cell (b : Board) (c : Coord) : Except Fault (Option Occupant) := b.grid.read (address c)

/-- What stands on a square of the board. -/
def get (b : Board) (c : Coord) : Except Fault (Option Occupant) := do
  b.check c
  b.cell c

/-- The squares in the order in which they are visited: along `x` first, along `w` last. -/
def squares (b : Board) : List Coord :=
  (List.range b.size.w.toNat).flatMap fun (w : Nat) =>
    (List.range b.size.z.toNat).flatMap fun (z : Nat) =>
      (List.range b.size.y.toNat).flatMap fun (y : Nat) =>
        (List.range b.size.x.toNat).map fun (x : Nat) => ⟨x, y, z, w⟩

/-- The squares with what stands on them, in visiting order. -/
def contents (b : Board) : Except Fault (List (Coord × Option Occupant)) :=
  b.squares.mapM fun c => do return (c, ← b.cell c)

/-- Takes a visitor to all squares in turn. Every square is read when it is its turn, and what the visitor makes of it
is handed on. -/
def visit {σ : Type} (b : Board) (visitor : σ → Coord → Option Occupant → Except Fault σ) (s : σ) : Except Fault σ :=
  b.squares.foldlM (fun s c => do visitor s c (← b.cell c)) s

/-! ## Pieces -/

/-- A new piece made from a design. -/
def enroll (b : Board) (d : Design) : Piece × Board :=
  (⟨b.flags.size, d.id, d.team⟩, { b with flags := b.flags.push d.flags })

/-- The flags of a piece. -/
def flagsOf (b : Board) (p : Piece) : Flags := b.flags.getD p.serial []

/-- The board with other flags for a piece. -/
def setFlags (b : Board) (p : Piece) (flags : Flags) : Board :=
  { b with flags := b.flags.setIfInBounds p.serial flags }

/-- There is only one value like this: null, a truth value, a small integer, a text of at most one common character. -/
def isUnique : Data → Bool
  | .null | .bool _ => true
  | .int n => -5 ≤ n && n ≤ 256
  | .text s => s.isEmpty || (s.length = 1 && s.points.all fun p => p.code < 256)
  | _ => false

/-- A new occupant made from plain data. It takes a serial number like a piece, unless there is only one such value. -/
def enrollValue (b : Board) (d : Data) : Occupant × Board :=
  if isUnique d then (.value 0 d, b) else (.value (b.flags.size + 1) d, { b with flags := b.flags.push [] })

/-- How messages show what stands in a cell among others. A word has never too many digits. -/
def cellText (b : Board) : Option Occupant → Except Fault Text
  | none => .ok "None"
  | some (.piece p) => pieceLiteral b.digits p.id p.team (b.flagsOf p)
  | some (.value _ (.list items)) => do return "list(" ++ (← (Data.list items).written b.digits) ++ ")"
  | some (.value _ d) => d.written b.digits
  | some (.word n) => .ok ("np.int64(" ++ Integer.text n ++ ")")
  | some (.part ..) => .ok Grid.omission

/-- How messages show an occupant. -/
def occupantText (b : Board) : Occupant → Except Fault Text
  | .value _ d => d.written b.digits
  | .part start shape => b.grid.partText b.cellText start shape
  | o => b.cellText (some o)

/-! ## The index -/

/-- The index without the entry for a square. -/
def unindexed (index : List (Coord × Occupant)) (c : Coord) : List (Coord × Occupant) :=
  index.filter fun e => e.1 != c

/-- The index entry for a square is replaced where it stands, a new one is put at the end. -/
def indexed (index : List (Coord × Occupant)) (c : Coord) (o : Occupant) : List (Coord × Occupant) :=
  match index with
  | [] => [(c, o)]
  | e :: rest => if e.1 = c then (c, o) :: rest else e :: indexed rest c o

/-! ## Changes -/

/-- The board with something else on a square, in the grid and in the index, and what stood there before. The entry of
the new occupant is the last one. -/
def put (b : Board) (c : Coord) (o : Option Occupant) : Except Fault (Option Occupant × Board) := do
  let before ← b.cell c
  let grid ← b.grid.write (address c) o
  let index := unindexed b.index c
  return (before, { b with grid, index := match o with | none => index | some o => index ++ [(c, o)] })

/-- A board with pieces made from designs, placed one after the other. -/
def ofPlacements (size : Coord) (placements : List (Coord × Design))
    (digits : Option Nat := some Integer.digitLimit) : Except Fault Board := do
  placements.foldlM (fun b (c, d) => do
    let (p, b) := b.enroll d
    return (← b.put c (some (.piece p))).2) (← empty size digits)

/-- The board with pieces that a machine makes, if it can make an array of the size. -/
def build (m : Machine) (size : Coord) (placements : List (Coord × Design)) : Except Fault Board := do
  m.array size.nested
  ofPlacements size placements m.digits

/-- The first-move flag of a piece that has moved is cleared; nothing else has flags. -/
def clearFirstMove (b : Board) : Occupant → Except Fault Board
  | .piece p => .ok (b.setFlags p ((b.flagsOf p).without Flags.firstMove))
  | _ => .error .lacksMember

/-- A move without further questions: what stands on the source goes to the destination, and what stood there is
captured. On a sound board the move fails only if one end is off the board, and then changes nothing. -/
def move (b : Board) (m : Move) : Except Fault (Option Occupant) × Board :=
  match b.check m.src, b.check m.dst with
  | .error e, _ => (.error e, b)
  | _, .error e => (.error e, b)
  | .ok _, .ok _ =>
    match b.put m.src none with
    | .error e => (.error e, b)
    | .ok (moved, b₁) =>
      match b₁.put m.dst moved with
      | .error e => (.error e, b₁)
      | .ok (captured, b₂) =>
        match moved with
        | none => (.ok captured, b₂)
        | some o =>
          match b₂.clearFirstMove o with
          | .error e => (.error e, b₂)
          | .ok b₃ => (.ok captured, b₃)

/-- The flags of what stands on the source of a move. -/
def movedFlags (b : Board) : Option Occupant → Except Fault (Option Flags)
  | none => .ok none
  | some (.piece p) => .ok (some (b.flagsOf p))
  | some (.value ..) => .error .lacksMember
  | some _ => .error .wrongType

/-- A move that can be taken back. -/
def play (b : Board) (m : Move) : Except Fault Played × Board :=
  let record : Except Fault Played := do
    let src ← b.get m.src
    let dst ← b.get m.dst
    return ⟨m, src, dst, ← b.movedFlags src, b.index⟩
  match record with
  | .error e => (.error e, b)
  | .ok played =>
    match b.move m with
    | (.error e, b') => (.error e, b')
    | (.ok _, b') => (.ok played, b')

/-- The board with one cell of the grid changed and the index as it was. -/
def setCell (b : Board) (c : Coord) (o : Option Occupant) : Except Fault Board := do
  return { b with grid := ← b.grid.write (address c) o }

/-- The board with the index entry of one square changed and the grid as it was. -/
def setEntry (b : Board) (c : Coord) (o : Option Occupant) : Board :=
  { b with index := match o with | none => unindexed b.index c | some o => indexed b.index c o }

/-- Takes a move back: the two cells, the flags of the piece that moved, and the index. -/
def undo (b : Board) (p : Played) : Except Fault Unit × Board :=
  match b.setCell p.move.dst p.dst with
  | .error e => (.error e, b)
  | .ok b₁ =>
    match b₁.setCell p.move.src p.src with
    | .error e => (.error e, b₁)
    | .ok b₂ =>
      let b₃ := match p.src, p.flags with | some (.piece q), some flags => b₂.setFlags q flags | _, _ => b₂
      (.ok (), { b₃ with index := p.index })

/-! ## Questions -/

/-- The pieces of the index with their squares; fails if something else is among them. -/
def indexedPieces (b : Board) : Except Fault (List (Coord × Piece)) :=
  b.index.mapM fun e => do return (e.1, ← e.2.asPiece)

/-- The team of what the index has for a square; lists and maps are refused. -/
def teamOf (o : Occupant) : Except Fault Data := do
  let p ← o.asPiece
  if p.team.isKey then return p.team else throw .wrongType

/-- The teams of the indexed pieces, each once, in increasing order. -/
def teams (b : Board) : Except Fault (List Data) := do
  match Data.sorted? (Data.distinct (← b.index.mapM fun e => teamOf e.2)) with
  | some teams => return teams
  | none => throw .wrongType

/-- The squares of the indexed pieces of a team whose kind passes a test. -/
def squaresOf (b : Board) (team : Data) (kind : Data → Except Fault Bool) : Except Fault (List Coord) :=
  b.index.filterMapM fun e => do
    let p ← e.2.asPiece
    if p.team.same team then
      if ← kind p.id then return some e.1
    return none

end Board

end Hyperchess
