import Hyperchess.Number.Binary64
import Hyperchess.Number.Integer

/-!
# Shortest decimal texts

The text of a binary64 number has the fewest significant digits that read back as the same number, and of the texts
with that many digits the one nearest to it. It is positional for decimal exponents from -4 to 15 and has an exponent
of at least two digits otherwise; a number without a fraction ends in `.0`.
-/

namespace Hyperchess.Binary64

/-- How the digits of a number are laid out. -/
structure DecimalFormat where
  /-- Numbers below `10 ^ positionalFrom` have an exponent. -/
  positionalFrom : Int
  /-- Numbers from `10 ^ positionalTo` on have an exponent. -/
  positionalTo : Int
  /-- The least number of digits of an exponent. -/
  exponentWidth : Nat
  nanText : String
  infinityText : String

/-- The format of messages and of written settings. -/
def plainFormat : DecimalFormat := ⟨-4, 16, 2, "nan", "inf"⟩

/-- The number of digits before the point of `num / den`, not positive for ratios below one tenth. -/
def pointPosition (num den : Nat) : Int :=
  if den ≤ num then (Nat.toDigits 10 (num / den)).length
  else 1 - (go 340 (num * 10) 1 : Int)
where
  /-- The least `j` with `10 ^ j · num ≥ den`, from the scaled numerator. -/
  go : Nat → Nat → Nat → Nat
    | 0, _, j => j
    | fuel + 1, scaled, j => if den ≤ scaled then j else go fuel (scaled * 10) (j + 1)

/-- A digit string `n` and the exponent of its last digit. -/
structure Digits where
  value : Nat
  exponent : Int
  deriving DecidableEq, Repr

/-- The multiples of `10 ^ exponent` on both sides of `num / den`, nearest first; a tie puts the even one first. -/
def neighbours (num den : Nat) (exponent : Int) : List Digits :=
  let s : Nat × Nat :=
    if 0 ≤ exponent then (num, den * Nat.pow 10 exponent.toNat) else (num * Nat.pow 10 (-exponent).toNat, den)
  let below := s.1 / s.2
  let nearest := roundDiv s.1 s.2
  if nearest = below then [⟨below, exponent⟩, ⟨below + 1, exponent⟩] else [⟨below + 1, exponent⟩, ⟨below, exponent⟩]

/-- The shortest digits of `num / den` that read back as `x`, trying `count` digits and up. -/
def searchDigits (x : Binary64) (num den : Nat) (point : Int) : (fuel count : Nat) → Option Digits
  | 0, _ => none
  | fuel + 1, count =>
    match (neighbours num den (point - count)).find? fun d => ofDecimal false d.value d.exponent == x with
    | some d => some d
    | none => searchDigits x num den point fuel (count + 1)

/-- The number `m · 2 ^ e` as a ratio. -/
def ratio (m : Nat) (e : Int) : Nat × Nat := if 0 ≤ e then (m <<< e.toNat, 1) else (m, 1 <<< (-e).toNat)

/-- The shortest digits of the positive number `m · 2 ^ e`. -/
def shortestDigits (m : Nat) (e : Int) : Digits :=
  let r := ratio m e
  (searchDigits (.finite false m e) r.1 r.2 (pointPosition r.1 r.2) 17 1).getD ⟨m, 0⟩

/-- Digits without trailing zeros. -/
def dropZeros (digits : List Char) : List Char :=
  (digits.reverse.dropWhile (· == '0')).reverse

/-- The exponent part of a text. -/
def exponentText (format : DecimalFormat) (exponent : Int) : List Char :=
  let digits := Nat.toDigits 10 exponent.natAbs
  'e' :: (if exponent < 0 then '-' else '+') :: (List.replicate (format.exponentWidth - digits.length) '0' ++ digits)

/-- The text of `0.d₁d₂… · 10 ^ point`, where the digits have no trailing zeros. -/
def layOut (format : DecimalFormat) (digits : List Char) (point : Int) : List Char :=
  if format.positionalFrom < point ∧ point ≤ format.positionalTo then
    if point ≤ 0 then '0' :: '.' :: (List.replicate (-point).toNat '0' ++ digits)
    else
      let whole := digits.take point.toNat
      let fraction := digits.drop point.toNat
      whole ++ List.replicate (point.toNat - whole.length) '0' ++ '.' :: (if fraction.isEmpty then ['0'] else fraction)
  else
    match digits with
    | [] => []
    | [d] => d :: exponentText format (point - 1)
    | d :: rest => d :: '.' :: rest ++ exponentText format (point - 1)

/-- The text of a number in a format. -/
def toText (format : DecimalFormat) : Binary64 → String
  | .nan => format.nanText
  | .infinite negative => (if negative then "-" else "") ++ format.infinityText
  | .finite negative m e =>
    let body :=
      if m = 0 then ['0', '.', '0']
      else
        let d := shortestDigits m e
        let digits := Nat.toDigits 10 d.value
        layOut format (dropZeros digits) (d.exponent + digits.length)
    String.ofList (if negative then '-' :: body else body)

/-- The text of a number. -/
def text (x : Binary64) : String := x.toText plainFormat

end Hyperchess.Binary64
