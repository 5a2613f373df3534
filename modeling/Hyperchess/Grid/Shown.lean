import Hyperchess.Grid

/-!
# How a part of a grid is shown

The cells stand in nested brackets, on lines of at most 75 characters. Of a part with more than a thousand cells only
three rows at each end of an axis are shown. Behind the cells stands what cannot be told from them: the shape of a part
that is empty or shortened, and the kind of its cells unless they are integers.
-/

namespace Hyperchess.Grid

/-- The number of cells from which on a part is shortened. -/
def shownLimit : Nat := 1000

/-- The longest line. -/
def lineLimit : Nat := 75

/-- What is shown of an axis: places on it, and nothing for those left out. -/
def picks (short : Bool) (n : Nat) : List (Option Nat) :=
  if short && 6 < n then [some 0, some 1, some 2, none, some (n - 3), some (n - 2), some (n - 1)]
  else (List.range n).map some

/-- The mark for what is left out. -/
def omission : Text := "..."

/-- The places of all cells that are shown of a part. -/
def shownPlaces (short : Bool) : (shape : List Nat) → (start : Nat) → List Nat
  | [], start => [start]
  | n :: shape, start =>
    (picks short n).flatMap fun
      | some i => shownPlaces short shape (start + i * volume shape)
      | none => []

/-- Words on lines of at most `width` characters, each line behind `indent`. A line has one word at least. -/
def wrap (width : Nat) (indent : Text) (words : List Text) : Text :=
  let last := words.length - 1
  let step : Text × Text × Nat → Text → Text × Text × Nat := fun (done, line, i) word =>
    let full := width < line.length + word.length && indent.length < line.length
    let done := if full then done ++ line.stripEnd ++ "\n" else done
    let line := (if full then indent else line) ++ word
    (done, if i < last then line ++ ", " else line, i + 1)
  let (done, line, _) := words.foldl step (Text.empty, indent, 0)
  done ++ line

/-- The cells of a part in nested brackets. `word` shows the cell at a place. -/
def brackets (short : Bool) (word : Nat → Except Fault Text) :
    (shape : List Nat) → (start width : Nat) → (indent : Text) → Except Fault Text
  | [], start, _, _ => word start
  | [n], start, width, indent => do
    let words ← (picks short n).mapM fun
      | some i => word (start + i)
      | none => .ok omission
    return "[" ++ (wrap (width - 1) indent words).drop indent.length ++ "]"
  | n :: m :: shape, start, width, indent => do
    let rows ← (picks short n).mapM fun
      | some i => brackets short word (m :: shape) (start + i * volume (m :: shape)) (width - 1) (indent ++ " ")
      | none => .ok omission
    let gap := "," ++ Text.replicate (shape.length + 1) '\n' ++ indent
    return "[" ++ Text.intercalate gap rows ++ "]"

/-- The integer at a place. -/
def wordText (g : Grid) (place : Nat) : String :=
  match g.cells.getD place none with
  | some (.word n) => Integer.text n
  | _ => ""

/-- The cell at a place. `cell` shows a cell that can hold anything, integers are written with a width. -/
def cellWord (g : Grid) (cell : Option Occupant → Except Fault Text) (width place : Nat) : Except Fault Text :=
  match g.kind with
  | .anything => cell (g.cells.getD place none)
  | .integers =>
    let text := g.wordText place
    .ok (Text.replicate (width - text.length) ' ' ++ text)

/-- What is said about a part behind its cells. -/
def remarks (shape : List Nat) (kind : CellKind) : List String :=
  let size := volume shape
  (if (size = 0 && shape != [0]) || shownLimit < size then ["shape=" ++ tuple shape] else []) ++
    if kind = .anything || size = 0 then ["dtype=" ++ kind.name] else []

/-- How a part of a grid is shown. `cell` shows a cell. -/
def partText (g : Grid) (cell : Option Occupant → Except Fault Text) (start : Nat) (shape : List Nat) :
    Except Fault Text := do
  let short := shownLimit < volume shape
  let widest := ((shownPlaces short shape start).map fun place => (g.wordText place).length).foldl max 0
  let word := g.cellWord cell widest
  let body : Text ← if volume shape = 0 then pure "[]" else brackets short word shape start (lineLimit - 1) "       "
  let front : Text := "array(" ++ body
  match remarks shape g.kind with
  | [] => return front ++ ")"
  | notes =>
    let front := front ++ ","
    let note := ", ".intercalate notes ++ ")"
    let line := (front.splitOn '\n').getLastD Text.empty
    return front ++ (if lineLimit < line.length + note.length + 1 then "\n      " else " " : String) ++ note

end Hyperchess.Grid
