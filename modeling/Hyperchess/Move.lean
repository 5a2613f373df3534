import Hyperchess.Coord

/-!
# Moves

A move leads from a square to another. It may carry further squares that it passes, which are written and read but
play no part in comparing moves.
-/

namespace Hyperchess

/-- A move. `via` is nothing, or the squares written behind the two ends. -/
structure Move where
  src : Coord
  dst : Coord
  via : Option (List Coord) := none
  deriving DecidableEq, Repr, Inhabited

namespace Move

/-- The two moves have the same ends. -/
def sameEnds (m n : Move) : Bool := m.src == n.src && m.dst == n.dst

/-- The text of a move, as characters: its squares with slashes between them. -/
def chars (m : Move) : List Char :=
  m.src.chars ++ '/' :: m.dst.chars ++ (m.via.getD []).flatMap fun c => '/' :: c.chars

/-- The text of a move. -/
def text (m : Move) : String := String.ofList m.chars

/-- The squares that are written: the ends, and those passed. -/
def squares (m : Move) : List Coord := m.src :: m.dst :: m.via.getD []

/-- The text of a move, unless an axis has more digits than a limit. -/
def written (m : Move) (limit : Option Nat := some Integer.digitLimit) : Except Fault String :=
  if m.squares.all (Coord.isWithin limit) then .ok m.text else .error (.tooManyDigits limit)

/-- The move between the first two parts; further parts are squares passed. -/
def ofParts? : List (List Char) → Option Move
  | src :: dst :: [] => some ⟨Coord.ofChars src, Coord.ofChars dst, none⟩
  | src :: dst :: via => some ⟨Coord.ofChars src, Coord.ofChars dst, some (via.map Coord.ofChars)⟩
  | _ => none

/-- The move that a text stands for; it needs a slash. -/
def ofText (t : Text) : Except Fault Move :=
  match ofParts? (t.chars.splitOn '/') with
  | some m => .ok m
  | none => .error (.badMove t)

/-- The label of a move: the labels of its two ends. -/
def label (m : Move) : String := String.ofList (m.src.labelChars ++ m.dst.labelChars)

/-- The label of a move, unless an end is too far away for one. `limit` is the largest number of letters of an axis, if
there is one. -/
def labelled (limit : Option Nat) (m : Move) : Except Fault String := do
  let _ ← m.src.labelled limit
  let _ ← m.dst.labelled limit
  return m.label

end Move

end Hyperchess
