import Hyperchess.Data
import Hyperchess.Error
import Hyperchess.Text.Case

/-!
# Pieces

A piece is an individual: two pieces of one kind and team are still two. `Piece` names an individual, by a serial
number, together with what never changes about it; its flags change and are kept by the board. A `Design` is what a
piece is made from.
-/

namespace Hyperchess

/-- The flags of a piece, without repetitions. -/
abbrev Flags := List Data

namespace Flags

/-- Not moved yet. -/
def firstMove : Data := .int 0

/-- A pawn may step diagonally to the left onto an empty square; kings start with it. -/
def left : Data := .int 1

/-- A pawn may step diagonally to the right onto an empty square; kings start with it. -/
def right : Data := .int 2

/-- The flag is among the flags. -/
def has (flags : Flags) (flag : Data) : Bool := flag.isIn flags

/-- The flags without one. -/
def without (flags : Flags) (flag : Data) : Flags := flags.filter fun f => !f.same flag

/-- Flags from values, each once; lists and maps are refused. -/
def ofItems (items : List Data) : Except Fault Flags :=
  if items.all Data.isKey then .ok (Data.distinct items) else .error .wrongType

/-- The flags in increasing order. -/
def sorted (flags : Flags) : Except Fault (List Data) :=
  match Data.sorted? flags with
  | some items => .ok items
  | none => .error .wrongType

/-- The form in which messages show flags, unless an integer in them has more digits than a limit. -/
def written (limit : Option Nat) (flags : Flags) : Except Fault Text := do
  if flags.isEmpty then return "set()"
  let items ← flags.mapM (Data.written limit)
  return "\x7b" ++ Text.intercalate ", " items ++ "\x7d"

end Flags

/-- What a piece is made from. Proper pieces have a text as their kind and an integer as their team. -/
structure Design where
  id : Data
  team : Data
  flags : Flags
  deriving DecidableEq, Repr, Inhabited

/-- An individual piece. -/
structure Piece where
  serial : Nat
  id : Data
  team : Data
  deriving DecidableEq, Repr, Inhabited

/-- The flags that a new piece of a kind has. -/
def initialFlags (id : Text) : Flags :=
  if id = "P" then [Flags.firstMove] else if id = "K" then [Flags.left, Flags.right] else []

namespace Design

/-- The design of a new piece. The kind is written in upper case. -/
def ofKind (id : Text) (team : Data) : Design :=
  let kind := Text.upper id
  ⟨.text kind, team, initialFlags kind⟩

/-- The design of a new piece whose kind is given as a value. -/
def ofData (id team : Data) : Except Fault Design :=
  match id with
  | .text s => .ok (ofKind s team)
  | _ => .error .lacksMember

end Design

/-- The symbol of a piece in a layout: the kind in upper case for team 0 and in lower case for all others. -/
def symbolOf (id team : Data) : Except Fault Text :=
  match id with
  | .text s => .ok (if team.same (.int 0) then Text.upper s else Text.lower s)
  | _ => .error .lacksMember

/-- The form in which messages show a piece, unless an integer in it has more digits than a limit. -/
def pieceLiteral (limit : Option Nat) (id team : Data) (flags : Flags) : Except Fault Text := do
  let kind ← id.written limit
  let side ← if team.isWithin limit then pure team.display else throw (.tooManyDigits limit)
  let sorted ← (Data.list (← flags.sorted)).written limit
  return "Piece(id=" ++ kind ++ ", team=" ++ side ++ ", flags=" ++ sorted ++ ")"

namespace Piece

/-- The letter of a piece in a layout. -/
def symbol (p : Piece) : Except Fault Text := symbolOf p.id p.team

end Piece

end Hyperchess
