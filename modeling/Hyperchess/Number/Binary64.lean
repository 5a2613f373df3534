/-!
# Binary floating point numbers

Binary64 numbers as exact values: a sign, a significand and an exponent of two. Every conversion goes through
`ofRatio`, which rounds a ratio to the nearest number, a tie to the even significand.
-/

namespace Hyperchess

/-- A binary64 number. `finite negative m e` is `±m · 2 ^ e`; `ofRatio` gives `m < 2 ^ 53`, and `2 ^ 52 ≤ m` unless
`e = -1074`. -/
inductive Binary64 where
  | nan
  | infinite (negative : Bool)
  | finite (negative : Bool) (significand : Nat) (exponent : Int)
  deriving DecidableEq, Repr, Inhabited

namespace Binary64

/-- The exponent of the smallest positive number. -/
def minExponent : Int := -1074

/-- The exponent of the largest finite numbers. -/
def maxExponent : Int := 971

/-- Zero with a plus sign. -/
def zero : Binary64 := .finite false 0 minExponent

/-- Positive infinity. -/
def infinity : Binary64 := .infinite false

/-- The quotient rounded to the nearest integer, a tie to the even one. -/
def roundDiv (num den : Nat) : Nat :=
  let q := num / den
  let r := num % den
  if 2 * r < den then q
  else if den < 2 * r then q + 1
  else q + q % 2

/-- `num / den` scaled by `2 ^ -e`, as a numerator and a denominator. -/
def scale (num den : Nat) (e : Int) : Nat × Nat :=
  if 0 ≤ e then (num, den <<< e.toNat) else (num <<< (-e).toNat, den)

/-- The number nearest to `±num / den`, a tie going to the even significand. -/
def ofRatio (negative : Bool) (num den : Nat) : Binary64 :=
  if num = 0 then .finite negative 0 minExponent
  else
    let guess : Int := (num.log2 : Int) - den.log2 - 53
    let scaled := scale num den guess
    let e := max minExponent (if scaled.1 / scaled.2 < 1 <<< 53 then guess else guess + 1)
    let s := scale num den e
    let m := roundDiv s.1 s.2
    let r : Nat × Int := if m = 1 <<< 53 then (1 <<< 52, e + 1) else (m, e)
    if maxExponent < r.2 then .infinite negative else .finite negative r.1 r.2

/-- The number nearest to `±digits · 10 ^ exponent`. Whether it is beyond all finite numbers, or nearer to zero than to
any other number, is told from bounds on its decimal logarithm, so that no huge power is computed. -/
def ofDecimal (negative : Bool) (digits : Nat) (exponent : Int) : Binary64 :=
  let below : Int := exponent + (digits.log2 : Int) * 30102 / 100000
  let above : Int := exponent + ((digits.log2 : Int) + 1) * 30103 / 100000 + 1
  if digits = 0 then .finite negative 0 minExponent
  else if 310 < below then .infinite negative
  else if above < -330 then .finite negative 0 minExponent
  else if 0 ≤ exponent then ofRatio negative (digits * Nat.pow 10 exponent.toNat) 1
  else ofRatio negative digits (Nat.pow 10 (-exponent).toNat)

/-- The number nearest to an integer. -/
def ofInt (n : Int) : Binary64 :=
  ofRatio (decide (n < 0)) n.natAbs 1

/-- A finite number as a multiple of the smallest positive one, `2 ^ -1074`. -/
def units? : Binary64 → Option Int
  | .finite negative m e =>
    let u : Nat := m <<< (e - minExponent).toNat
    some (if negative then -(u : Int) else u)
  | _ => none

/-- How many of the smallest positive numbers make one. -/
def unitsPerOne : Nat := 1 <<< 1074

/-- The integer part, toward zero; nothing for infinities and for what is not a number. -/
def truncate? (x : Binary64) : Option Int :=
  x.units?.map fun u => u.tdiv unitsPerOne

/-- The sign of a number. -/
def isNegative : Binary64 → Bool
  | .nan => false
  | .infinite negative => negative
  | .finite negative _ _ => negative

/-- The product, rounded to the nearest number. -/
def mul : Binary64 → Binary64 → Binary64
  | .finite s m e, .finite t n f =>
    if 0 ≤ e + f then ofRatio (s != t) ((m * n) <<< (e + f).toNat) 1
    else ofRatio (s != t) (m * n) (1 <<< (-(e + f)).toNat)
  | .infinite s, .infinite t => .infinite (s != t)
  | .infinite s, .finite t m _ => if m = 0 then .nan else .infinite (s != t)
  | .finite s m _, .infinite t => if m = 0 then .nan else .infinite (s != t)
  | _, _ => .nan

/-- The number with the opposite sign. -/
def neg : Binary64 → Binary64
  | .nan => .nan
  | .infinite negative => .infinite (!negative)
  | .finite negative m e => .finite (!negative) m e

/-- The sum, rounded to the nearest number; a sum that is zero is negative only if both numbers are. -/
def add (x y : Binary64) : Binary64 :=
  match x, y with
  | .nan, _ | _, .nan => .nan
  | .infinite s, .infinite t => if s = t then x else .nan
  | .infinite _, _ => x
  | _, .infinite _ => y
  | _, _ =>
    let sum := x.units?.getD 0 + y.units?.getD 0
    let negative := if sum = 0 then x.isNegative && y.isNegative else decide (sum < 0)
    ofRatio negative sum.natAbs unitsPerOne

end Binary64

end Hyperchess
