import Hyperchess.Data
import Hyperchess.Yaml.Token.Scalar

/-!
# What plain scalars mean

A plain scalar stands for null, a truth value, an integer, a floating point number or a point in time if it is written
as one, and for its own text otherwise. Integers may have underscores between digits and be written in base 2, 8, 10, 16
or 60; floating point numbers need a point, and a sign in the exponent.
-/

namespace Hyperchess.Yaml

/-- The spellings of null; a missing value counts as one. -/
def nullWords : List String := ["", "~", "null", "Null", "NULL"]

/-- The spellings of true. -/
def trueWords : List String := ["yes", "Yes", "YES", "true", "True", "TRUE", "on", "On", "ON"]

/-- The spellings of false. -/
def falseWords : List String := ["no", "No", "NO", "false", "False", "FALSE", "off", "Off", "OFF"]

/-- A sign in front, true for minus, and the rest. -/
def splitSign : List Char → Bool × List Char
  | '-' :: rest => (true, rest)
  | '+' :: rest => (false, rest)
  | cs => (false, cs)

/-- The characters without underscores. -/
def plainDigits (cs : List Char) : List Char := cs.filter (· ≠ '_')

/-- All characters are digits of a base, at most 16, or underscores. -/
def areDigits (base : Nat) (cs : List Char) : Bool :=
  cs.all fun c => c == '_' || ((hexDigit? c).map (decide <| · < base)).getD false

/-- The number with these digits, underscores left out. -/
def numberOf (base : Nat) (cs : List Char) : Nat :=
  ((plainDigits cs).filterMap hexDigit?).foldl (fun n d => base * n + d) 0

/-- A decimal number, which may not have too many digits. -/
def decimalOf (cs : List Char) : Except ReadError Nat :=
  let n := (plainDigits cs).length
  if Integer.digitLimit < n then
    .error (.badValue ("Exceeds the limit (4300 digits) for integer string conversion: value has " ++
      Integer.text n ++ " digits; use sys.set_int_max_str_digits() to increase the limit"))
  else .ok (numberOf 10 cs)

/-- The parts behind the first one of a number in base 60: one or two digits, below 60. -/
def areSixtieths (parts : List (List Char)) : Bool :=
  parts.all fun
    | [c] => c.isDigit
    | [c, d] => '0' ≤ c && c ≤ '5' && d.isDigit
    | _ => false

/-- A decimal number that does not begin with zero. -/
def isCounting : List Char → Bool
  | c :: rest => '1' ≤ c && c ≤ '9' && areDigits 10 rest
  | [] => false

/-- An integer without sign, if the characters are written as one. -/
def natural? (cs : List Char) : Option (Except ReadError Nat) :=
  let based (base : Nat) (digits : List Char) : Option (Except ReadError Nat) :=
    if (plainDigits digits).isEmpty then
      some (.error (.badValue ("invalid literal for int() with base " ++ Integer.text base ++ ": \x27\x27")))
    else some (.ok (numberOf base digits))
  match cs with
  | ['0'] => some (.ok 0)
  | '0' :: 'b' :: digits => if !digits.isEmpty && areDigits 2 digits then based 2 digits else none
  | '0' :: 'x' :: digits => if !digits.isEmpty && areDigits 16 digits then based 16 digits else none
  | '0' :: digits => if areDigits 8 digits then based 8 cs else none
  | _ =>
    match cs.splitOn ':' with
    | [whole] => if isCounting whole then some (decimalOf whole) else none
    | whole :: parts =>
      if isCounting whole && areSixtieths parts then
        some ((decimalOf whole).map fun n => parts.foldl (fun n part => 60 * n + numberOf 10 part) n)
      else none
    | [] => none

/-- An integer, if the characters are written as one. -/
def integer? (cs : List Char) : Option (Except ReadError Int) :=
  let signed := splitSign cs
  (natural? signed.2).map (·.map fun n => if signed.1 then -(n : Int) else n)

/-- The exponent that the characters behind a fraction stand for, if they are one or nothing. -/
def exponent? : List Char → Option Int
  | [] => some 0
  | e :: sign :: digits =>
    if (e == 'e' || e == 'E') && (sign == '+' || sign == '-') && !digits.isEmpty && digits.all Char.isDigit then
      some (if sign == '-' then -(numberOf 10 digits : Int) else numberOf 10 digits)
    else none
  | _ => none

/-- A decimal fraction: digits before the point, the fraction behind it, and perhaps an exponent. -/
def fraction? (negative : Bool) (whole behind : List Char) : Option Binary64 :=
  let places := behind.takeWhile fun c => c.isDigit || c == '_'
  (exponent? (behind.drop places.length)).map fun e =>
    Binary64.ofDecimal negative (numberOf 10 (whole ++ places)) (e - (plainDigits places).length)

/-- The number with these digits before and behind the point. -/
def decimal (whole places : List Char) : Binary64 :=
  .ofDecimal false (numberOf 10 (whole ++ places)) (-(plainDigits places).length)

/-- The sum of parts in base 60, the last part first. Every product and every sum is rounded. There are so many parts
at most that the place of each one is a finite number. -/
def sumOfSixtieths (parts : List Binary64) : Except ReadError Binary64 := do
  let r ← parts.foldlM (fun (sum, base) part =>
    match Binary64.ofInt base with
    | .infinite _ => .error .oversized
    | place => .ok (Binary64.add sum (part.mul place), base * 60)) (Binary64.zero, (1 : Int))
  return r.1

/-- A number in base 60 with a fraction. -/
def sixtieths? (negative : Bool) (whole behind : List Char) : Option (Except ReadError Binary64) :=
  match whole.splitOn ':' with
  | first :: part :: parts =>
    if isNumeral first && areSixtieths (part :: parts) && areDigits 10 behind then
      match (first :: part :: parts).reverse with
      | last :: front =>
        let sum := sumOfSixtieths (decimal last behind :: front.map fun p => decimal p [])
        some (sum.map fun x => if negative then x.neg else x)
      | [] => none
    else none
  | _ => none
where
  isNumeral : List Char → Bool
    | c :: rest => c.isDigit && areDigits 10 rest
    | [] => false

/-- A floating point number, if the characters are written as one. -/
def float? (cs : List Char) : Option (Except ReadError Binary64) :=
  let signed := splitSign cs
  let whole := signed.2.takeWhile (· ≠ '.')
  match whole, signed.2.drop whole.length with
  | _, [] => none
  | [], _ :: behind =>
    if ["inf", "Inf", "INF"].contains (String.ofList behind) then some (.ok (.infinite signed.1))
    else if signed.2.length < cs.length then none
    else if ["nan", "NaN", "NAN"].contains (String.ofList behind) then some (.ok .nan)
    else
      match behind with
      | c :: _ => if c.isDigit then (fraction? false [] behind).map .ok else none
      | [] => none
  | c :: rest, _ :: behind =>
    if c.isDigit && areDigits 10 rest then (fraction? signed.1 whole behind).map .ok
    else sixtieths? signed.1 whole behind

/-! ## Points in time -/

/-- A mark at the front is taken off. -/
def dropMark? (mark : Char) : List Char → Option (List Char)
  | c :: rest => if c = mark then some rest else none
  | [] => none

/-- A number of two digits at the front. -/
def twoDigits? : List Char → Option (Nat × List Char)
  | c :: d :: rest => if c.isDigit && d.isDigit then some (numberOf 10 [c, d], rest) else none
  | _ => none

/-- A number of one or two digits at the front. -/
def shortNumber? (cs : List Char) : Option (Nat × List Char) :=
  twoDigits? cs <|>
    match cs with
    | c :: rest => if c.isDigit then some (numberOf 10 [c], rest) else none
    | [] => none

/-- The rest without spaces and tabs in front. -/
def dropBlanks (cs : List Char) : List Char := cs.dropWhile fun c => c == ' ' || c == '\t'

/-- The offset in minutes at the end of a point in time, which may be missing. -/
def zone? (cs : List Char) : Option (Option Int) :=
  match dropBlanks cs with
  | [] => if cs.isEmpty then some none else none
  | ['Z'] => some (some 0)
  | sign :: rest =>
    if sign == '+' || sign == '-' then do
      let (hours, rest) ← shortNumber? rest
      let minutes ←
        match rest with
        | [] => some 0
        | ':' :: rest =>
          match twoDigits? rest with
          | some (n, []) => some n
          | _ => none
        | _ => none
      let offset : Int := 60 * hours + minutes
      return some (if sign == '-' then -offset else offset)
    else none

/-- The first six digits behind the point, as a number of millionths. -/
def millionths (places : List Char) : Nat :=
  let digits := places.take 6
  numberOf 10 (digits ++ List.replicate (6 - digits.length) '0')

/-- A time of day, and perhaps an offset. -/
def clock? (cs : List Char) : Option (Clock × Option Int) := do
  let (hour, rest) ← shortNumber? cs
  let (minute, rest) ← twoDigits? (← dropMark? ':' rest)
  let (second, rest) ← twoDigits? (← dropMark? ':' rest)
  let places := match rest with | '.' :: rest => rest.takeWhile Char.isDigit | _ => []
  let rest := match rest with | '.' :: rest => rest.drop places.length | rest => rest
  return (⟨hour, minute, second, millionths places⟩, ← zone? rest)

/-- A day and the time of day behind it. -/
def timestampOf? (cs : List Char) : Option Timestamp := do
  let year := cs.take 4
  if year.length != 4 || !year.all Char.isDigit then none
  let (month, rest) ← shortNumber? (← dropMark? '-' (cs.drop 4))
  let (day, rest) ← shortNumber? (← dropMark? '-' rest)
  let date : Date := ⟨numberOf 10 year, month, day⟩
  let clock := fun (cs : List Char) => (clock? cs).map fun
    | (c, some offset) => Timestamp.zoned date c offset
    | (c, none) => Timestamp.time date c
  match rest with
  | [] => if cs.length = 10 then some (.day date) else none
  | c :: rest =>
    if c == 'T' || c == 't' then clock rest else if c == ' ' || c == '\t' then clock (dropBlanks rest) else none

/-- A point in time, if the characters are written as one. -/
def timestamp? (cs : List Char) : Option (Except ReadError Timestamp) :=
  (timestampOf? cs).map fun t =>
    match t.problem? with
    | some text => .error (.badValue text)
    | none => .ok t

/-! ## Values -/

/-- The value of a plain scalar. The signs for a default value and for merging maps are refused. -/
def plainValue (t : Text) : Except ReadError Data :=
  let cs := t.chars
  let s := String.ofList cs
  if nullWords.contains s then .ok .null
  else if trueWords.contains s then .ok (.bool true)
  else if falseWords.contains s then .ok (.bool false)
  else if s = "=" || s = "<<" then .error .malformed
  else
    match float? cs, integer? cs, timestamp? cs with
    | some x, _, _ => x.map .float
    | _, some n, _ => n.map .int
    | _, _, some t => t.map .time
    | none, none, none => .ok (.text t)

end Hyperchess.Yaml
