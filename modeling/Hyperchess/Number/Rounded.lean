import Hyperchess.Number.Shortest

/-!
# Rounded decimal texts

The text of a binary64 number with as many digits as are asked for: so many places behind the point (`fixed`), so many
behind the first digit and an exponent (`scientific`), or so many digits in all, in the layout that suits the exponent
(`general`). The exact value is rounded, a tie goes to the even digit. With `pointed`, a point is written also if no
digit follows it, and the general form keeps zeros at its end. All texts are of the absolute value.
-/

namespace Hyperchess.Binary64

/-- The multiple of `10 ^ exponent` nearest to `num / den`. -/
def roundTo (num den : Nat) (exponent : Int) : Nat :=
  if 0 ≤ exponent then roundDiv num (den * Nat.pow 10 exponent.toNat)
  else roundDiv (num * Nat.pow 10 (-exponent).toNat) den

/-- The `count` leading digits of `m · 2 ^ e`, and the position of the point in front of which they begin. Zero has
zeros for digits. -/
def leadingDigits (m : Nat) (e : Int) (count : Nat) : List Char × Int :=
  if m = 0 then (List.replicate count '0', 1)
  else
    let r := ratio m e
    let point := pointPosition r.1 r.2
    let digits := Nat.toDigits 10 (roundTo r.1 r.2 (point - count))
    (digits.take count, if digits.length ≤ count then point else point + 1)

/-- Digits with a point in front of those that follow it. -/
def withPoint (pointed : Bool) (whole fraction : List Char) : List Char :=
  if fraction.isEmpty && !pointed then whole else whole ++ '.' :: fraction

/-- So many places behind the point. -/
def fixed (pointed : Bool) (places m : Nat) (e : Int) : List Char :=
  let r := ratio m e
  let n := roundTo r.1 r.2 (-places)
  let fraction := Nat.toDigits 10 (n % Nat.pow 10 places)
  withPoint pointed (Nat.toDigits 10 (n / Nat.pow 10 places))
    (if places = 0 then [] else List.replicate (places - fraction.length) '0' ++ fraction)

/-- Digits with a point behind the first one, and an exponent. -/
def withExponent (pointed : Bool) (digits : List Char) (point : Int) : List Char :=
  withPoint pointed (digits.take 1) (digits.drop 1) ++ exponentText plainFormat (point - 1)

/-- So many places behind the first digit, and an exponent. -/
def scientific (pointed : Bool) (places m : Nat) (e : Int) : List Char :=
  let d := leadingDigits m e (places + 1)
  withExponent pointed d.1 d.2

/-- So many digits: positional for exponents from -4 up to the number of digits, with an exponent otherwise. -/
def general (pointed : Bool) (count m : Nat) (e : Int) : List Char :=
  let count := max 1 count
  let d := leadingDigits m e count
  let digits := if pointed then d.1 else dropZeros d.1
  let digits := if digits.isEmpty then ['0'] else digits
  if d.2 ≤ -4 ∨ (count : Int) < d.2 then withExponent pointed digits d.2
  else if d.2 ≤ 0 then withPoint pointed ['0'] (List.replicate (-d.2).toNat '0' ++ digits)
  else
    let whole := digits.take d.2.toNat
    withPoint pointed (whole ++ List.replicate (d.2.toNat - whole.length) '0') (digits.drop d.2.toNat)

end Hyperchess.Binary64
