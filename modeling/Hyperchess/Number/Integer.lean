import Hyperchess.Text.Blank
import Hyperchess.Text.Digit

/-!
# Integer literals

Reading and writing integers in decimal. A literal may have blanks around it, one sign, digits of any script, and
single underscores between digits; it may not have more than 4300 digits. What is written is a literal again, as long as
it is within that limit.
-/

namespace Hyperchess.Integer

open Hyperchess.Text

/-- The largest number of digits in a literal. -/
def digitLimit : Nat := 4300

/-- An integer in decimal. -/
def literal (n : Int) : List Char :=
  if n < 0 then '-' :: Nat.toDigits 10 n.natAbs else Nat.toDigits 10 n.natAbs

/-- An integer in decimal, as a text. -/
def text (n : Int) : String :=
  String.ofList (literal n)

/-- The integer has no more digits than a limit, if there is one. -/
def isWithin (limit : Option Nat) (n : Int) : Bool := limit.all fun digits => n.natAbs < Nat.pow 10 digits

/-- The integer has no more digits than a literal may have. -/
def isWritable (n : Int) : Bool := isWithin (some digitLimit) n

/-- The values of digits with single underscores between them. -/
def digits? : List Char → Option (List Nat)
  | [] => none
  | [c] => (digitValue? c).map ([·])
  | c :: d :: rest => do
    let value ← digitValue? c
    let more ← if d = '_' then digits? rest else digits? (d :: rest)
    return value :: more

/-- The number with these digits, most significant first. -/
def ofDigits (values : List Nat) : Nat :=
  values.foldl (fun n d => 10 * n + d) 0

/-- A literal without sign. -/
def natural? (cs : List Char) : Option Nat := do
  let values ← digits? cs
  if values.length ≤ digitLimit then some (ofDigits values) else none

/-- A literal with an optional sign. -/
def signed? : List Char → Option Int
  | '-' :: rest => (natural? rest).map fun n => -(n : Int)
  | '+' :: rest => (natural? rest).map Int.ofNat
  | cs => (natural? cs).map Int.ofNat

/-- A literal with optional blanks around it. -/
def parse? (cs : List Char) : Option Int :=
  signed? (trim isNumberBlank cs)

end Hyperchess.Integer
