import Hyperchess.Board

/-!
# Layouts

A layout is a text `X,Y,Z,W body`: the extents of a board and what stands on it. In the body `|` separates the layers
of `w`, `/` those of `z` and `,` the rows; in a row a digit stands for as many empty squares and any other character for
a piece, of team 0 if it is its own upper case and of team 1 otherwise. What is missing is empty, what is too much is
ignored. A row may be too wide to be filled up with empty squares; `parseWithin` reads as `parse` does what a machine
has room for (`parse_of_parseWithin`).
-/

namespace Hyperchess.Layout

/-- The opening position on an ordinary board. -/
def standard : String := "8,8,1,1 RNBQKBNR,PPPPPPPP,8,8,8,8,pppppppp,rnbqkbnr"

/-! ## Reading -/

/-- The extents in front of a layout. -/
def parseSize (text : Text) : Except Fault Coord :=
  match (text.chars.splitOn ',').map Integer.parse? with
  | [x, y, z, w] =>
    match x, y, z, w with
    | some x, some y, some z, some w =>
      if x < 0 ∨ y < 0 ∨ z < 0 ∨ w < 0 then .error (.layout text "尺寸分量不能为负") else .ok ⟨x, y, z, w⟩
    | _, _, _, _ => .error (.layout text "尺寸分量必须是整数")
  | _ => .error (.layout text "尺寸应包含4个分量")

/-- The piece that a code point stands for. -/
def designOf (p : CodePoint) : Design :=
  Design.ofKind (Text.singleton p) (.int (if Text.upperPoint p = [p] then 0 else 1))

/-- The squares of a row with room for `room` more. -/
def rowFrom : (room : Nat) → List CodePoint → List (Option Design)
  | 0, _ => []
  | room + 1, [] => List.replicate (room + 1) none
  | room + 1, p :: rest =>
    match Text.digitValue? p.toChar with
    | some d => List.replicate (min d (room + 1)) none ++ rowFrom (room + 1 - d) rest
    | none => some (designOf p) :: rowFrom room rest

/-- The squares of a row of a width, which counts as zero if it is negative. -/
def parseRow (row : List CodePoint) (width : Int) : List (Option Design) := rowFrom width.toNat row

/-- The first `extent` parts between separators, with their numbers. -/
def parts (separator : Char) (extent : Int) (body : List CodePoint) : List (List CodePoint × Nat) :=
  ((body.splitOn (.char separator)).take extent.toNat).zipIdx

/-- The pieces of a body with their squares, in visiting order. -/
def placements (size : Coord) (body : List CodePoint) : List (Coord × Design) :=
  (parts '|' size.w body).flatMap fun (layer, w) =>
    (parts '/' size.z layer).flatMap fun (plane, z) =>
      (parts ',' size.y plane).flatMap fun (row, y) =>
        (parseRow row size.x).zipIdx.filterMap fun (square, x) =>
          square.map fun d => (⟨x, y, z, w⟩, d)

/-- The extents and the body of a layout. Whatever follows the body is ignored. -/
def outline (layout : Text) : Except Fault (Coord × List CodePoint) := do
  match layout.fields with
  | [] => throw (.layout layout "布局为空")
  | first :: rest => return (← parseSize first, (rest.headD Text.empty).points)

/-- The extents and the pieces of a layout. -/
def parse (layout : Text) : Except Fault (Coord × List (Coord × Design)) := do
  let (size, body) ← outline layout
  return (size, placements size body)

/-! ## Room -/

/-- The parts between separators, as many as an extent: missing ones are empty. -/
def allParts (separator : Char) (extent : Int) (body : List CodePoint) : List (List CodePoint) :=
  let found := (body.splitOn (.char separator)).take extent.toNat
  found ++ List.replicate (extent.toNat - found.length) []

/-- All rows of a body, in visiting order. -/
def rows (size : Coord) (body : List CodePoint) : List (List CodePoint) :=
  (allParts '|' size.w body).flatMap fun layer =>
    (allParts '/' size.z layer).flatMap fun plane => allParts ',' size.y plane

/-- The number of squares that a row takes up if it is given all that it needs. -/
def extentOf (row : List CodePoint) : Nat :=
  row.foldl (fun n p => n + (Text.digitValue? p.toChar).getD 1) 0

/-- The number of empty squares that fill a row up to a width; below zero if the width is. -/
def lacking (row : List CodePoint) (width : Int) : Int := width - min width.toNat (extentOf row)

/-- Refuses a width up to which a machine cannot fill a row with empty squares. -/
def checkRow (m : Machine) (width : Int) (row : List CodePoint) : Except Fault Unit := do
  let more ← Grid.inWord (lacking row width)
  if 0 < more ∧ !m.fits more.toNat then throw .noRoom

/-- The extents and the pieces of a layout, on a machine that has to fill its rows first. -/
def parseWithin (m : Machine) (layout : Text) : Except Fault (Coord × List (Coord × Design)) := do
  let (size, body) ← outline layout
  (rows size body).forM (checkRow m size.x)
  return (size, placements size body)

/-- What a machine reads is what is read without a thought about room. -/
theorem parse_of_parseWithin {m : Machine} {layout : Text} {r : Coord × List (Coord × Design)}
    (h : parseWithin m layout = .ok r) : parse layout = .ok r := by
  unfold parseWithin at h
  unfold parse
  cases ho : outline layout with
  | error e => simp [ho, bind, Except.bind] at h
  | ok p =>
    cases hr : (rows p.1 p.2).forM (checkRow m p.1.x) with
    | error e => simp [ho, hr, bind, Except.bind] at h
    | ok u => simpa [ho, hr, bind, Except.bind] using h

/-! ## Writing -/

/-- A run of empty squares: nines, and a digit for what is left. -/
def gap (n : Nat) : List Char :=
  List.replicate (n / 9) '9' ++ (if n % 9 = 0 then [] else Nat.toDigits 10 (n % 9))

/-- A row behind `gap` empty squares. -/
def rowText : (empty : Nat) → List (Option Text) → List CodePoint
  | empty, [] => (gap empty).map .char
  | empty, none :: rest => rowText (empty + 1) rest
  | empty, some symbol :: rest => (gap empty).map .char ++ symbol.points ++ rowText 0 rest

/-- The symbol of what stands on a square. -/
def symbolAt (b : Board) (c : Coord) : Except Fault (Option Text) := do
  match ← b.get c with
  | none => return none
  | some o => return some (← (← o.asPiece).symbol)

/-- The texts of `n` parts with separators between them. -/
def joined (separator : Char) (n : Int) (part : Nat → Except Fault (List CodePoint)) :
    Except Fault (List CodePoint) := do
  return [.char separator].intercalate (← (List.range n.toNat).mapM part)

/-- The layout of a board. -/
def print (b : Board) : Except Fault Text := do
  let body ← joined '|' b.size.w fun w =>
    joined '/' b.size.z fun z =>
      joined ',' b.size.y fun y => do
        return rowText 0 (← (List.range b.size.x.toNat).mapM fun (x : Nat) => symbolAt b ⟨x, y, z, w⟩)
  return ⟨(b.size.chars ++ [' ']).map .char ++ body⟩

/-- The board of a layout. -/
def board (layout : Text) : Except Fault Board := do
  let (size, placements) ← parse layout
  Board.ofPlacements size placements

end Hyperchess.Layout
