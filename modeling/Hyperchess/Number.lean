import Hyperchess.Number.Shortest

/-!
# Numbers

A number is an integer of any size or a binary64 number. Numbers of both kinds are compared by their exact values.
-/

namespace Hyperchess

/-- An integer or a floating point number. -/
inductive Number where
  | int (n : Int)
  | float (x : Binary64)
  deriving DecidableEq, Repr, Inhabited

namespace Number

/-- The value on the extended line: a multiple of the smallest positive binary64 number, or an infinity. -/
inductive Extent where
  | negativeInfinity
  | units (u : Int)
  | positiveInfinity
  deriving DecidableEq, Repr

/-- The exact value; nothing for what is not a number. -/
def extent? : Number → Option Extent
  | .int n => some (.units (n * Binary64.unitsPerOne))
  | .float .nan => none
  | .float (.infinite negative) => some (if negative then .negativeInfinity else .positiveInfinity)
  | .float x => x.units?.map .units

/-- The order of the extended line. -/
def Extent.lt : Extent → Extent → Bool
  | .negativeInfinity, .negativeInfinity => false
  | .negativeInfinity, _ => true
  | .units _, .negativeInfinity => false
  | .units a, .units b => decide (a < b)
  | .units _, .positiveInfinity => true
  | .positiveInfinity, _ => false

/-- Strictly smaller; false if either is not a number. -/
def lt (a b : Number) : Bool :=
  match a, b with
  | .int m, .int n => decide (m < n)
  | _, _ =>
    match a.extent?, b.extent? with
    | some s, some t => s.lt t
    | _, _ => false

/-- At least as large; false if either is not a number. -/
def ge (a b : Number) : Bool :=
  match a, b with
  | .int m, .int n => decide (n ≤ m)
  | _, _ =>
    match a.extent?, b.extent? with
    | some s, some t => !s.lt t
    | _, _ => false

/-- The least integer that is not smaller; nothing for infinities and for what is not a number. -/
def ceil? : Number → Option Int
  | .int n => some n
  | .float x => x.units?.map fun u => -((-u).fdiv Binary64.unitsPerOne)

/-- The integer part, toward zero; zero for infinities and for what is not a number. -/
def truncate : Number → Int
  | .int n => n
  | .float x => x.truncate?.getD 0

/-- The text of a number. -/
def text : Number → String
  | .int n => Integer.text n
  | .float x => x.text

end Number

end Hyperchess
