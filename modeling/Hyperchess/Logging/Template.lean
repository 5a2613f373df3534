import Hyperchess.Data
import Hyperchess.Number.Rounded

/-!
# Message templates

A message may have places for values. A place begins with a percent sign and ends with the kind of what stands there:
`s`, `r` and `a` for a value as it is displayed, as it stands inside others and the latter in ASCII; `d`, `i`, `u`, `o`
and `x` for an integer; `e`, `f` and `g` for a number with a point; `c` for a character. In between may stand the name
of the value in parentheses, marks for the layout, a width, and behind a point a precision; an asterisk takes either
from the values. Two percent signs are one. A message without values is taken as it is.
-/

namespace Hyperchess

/-- A width or a precision. -/
inductive Amount where
  | absent
  | fixed (n : Nat)
  /-- The next value tells it. -/
  | given
  deriving DecidableEq, Repr, Inhabited

/-- A place for a value. -/
structure Slot where
  key : Option Text
  marks : List Char
  width : Amount
  precision : Amount
  kind : Char
  deriving DecidableEq, Repr, Inhabited

namespace Slot

/-- The place has a mark. -/
def has (s : Slot) (mark : Char) : Bool := s.marks.contains mark

end Slot

/-- A message with places for values. -/
abbrev Template := List (CodePoint ⊕ Slot)

namespace Template

/-! ## Reading -/

/-- The text up to the parenthesis that closes the ones open, and what follows it. -/
def keyAt? : (opened : Nat) → List CodePoint → Option (List CodePoint × List CodePoint)
  | _, [] => none
  | opened, p :: rest =>
    if p = .char ')' ∧ opened = 0 then some ([], rest)
    else
      let opened := if p = .char '(' then opened + 1 else if p = .char ')' then opened - 1 else opened
      (keyAt? opened rest).map fun r => (p :: r.1, r.2)

/-- A width or a precision, and what follows it. -/
def amountAt (ps : List CodePoint) : Amount × List CodePoint :=
  match ps with
  | .char '*' :: rest => (.given, rest)
  | _ =>
    let digits := ps.takeWhile fun p => p.toChar.isDigit
    (if digits.isEmpty then .absent else .fixed (Integer.ofDigits (digits.map fun p => p.code - '0'.toNat)),
      ps.drop digits.length)

/-- A precision behind a point, zero if there is only the point. -/
def precisionAt (ps : List CodePoint) : Amount × List CodePoint :=
  match ps with
  | .char '.' :: rest =>
    let r := amountAt rest
    (if r.1 = .absent then .fixed 0 else r.1, r.2)
  | _ => (.absent, ps)

/-- The marks that a place may have. -/
def markChars : List Char := ['-', '+', ' ', '#', '0']

/-- The letters in front of a kind that mean nothing. -/
def sizeChars : List Char := ['h', 'l', 'L']

/-- The place that begins behind a percent sign, and what follows it. -/
def slotAt? (ps : List CodePoint) : Option (Slot × List CodePoint) := do
  let (key, ps) ← match ps with
    | .char '(' :: rest => (keyAt? 0 rest).map fun r => (some (Text.mk r.1), r.2)
    | _ => some (none, ps)
  let marks := (ps.map CodePoint.toChar).takeWhile markChars.contains
  let (width, ps) := amountAt (ps.drop marks.length)
  let (precision, ps) := precisionAt ps
  let ps := match ps with
    | p :: rest => if sizeChars.contains p.toChar then rest else ps
    | [] => []
  match ps with
  | kind :: rest => return (⟨key, marks, width, precision, kind.toChar⟩, rest)
  | [] => none

/-- The template in the first `fuel` code points; every place is read from one of them at least. -/
def ofPoints? : (fuel : Nat) → List CodePoint → Option Template
  | 0, _ => some []
  | _, [] => some []
  | fuel + 1, .char '%' :: .char '%' :: rest => (ofPoints? fuel rest).map (.inl '%' :: ·)
  | fuel + 1, .char '%' :: rest => do
    let (slot, rest) ← slotAt? rest
    return .inr slot :: (← ofPoints? fuel rest)
  | fuel + 1, p :: rest => (ofPoints? fuel rest).map (.inl p :: ·)

/-- The template that a text stands for. -/
def ofText? (t : Text) : Option Template := ofPoints? t.length t.points

/-! ## Values -/

/-- The values for the places to come, and those that have names. -/
structure Supply where
  named : Option (List (Data × Data))
  pending : List Data
  deriving Repr

namespace Supply

/-- The supply of a list of values: a single map that is not empty also gives its values by name. -/
def ofValues : List Data → Supply
  | [.map (e :: entries)] => ⟨some (e :: entries), [.map (e :: entries)]⟩
  | values => ⟨none, values⟩

/-- The next value. -/
def next? (s : Supply) : Option (Data × Supply) :=
  match s.pending with
  | d :: rest => some (d, { s with pending := rest })
  | [] => none

/-- The supply in which the value with a name comes next, and nothing after it. -/
def select? (s : Supply) (key : Text) : Option Supply := do
  return { s with pending := [← Data.lookup (.text key) (← s.named)] }

/-- All values have been used, or they have names. -/
def isDone (s : Supply) : Bool := s.named.isSome || s.pending.isEmpty

end Supply

/-- The integer that a value stands for, without its fraction. -/
def integer? : Data → Option Int
  | .bool b => some (if b then 1 else 0)
  | .int n => some n
  | .float x => x.truncate?
  | _ => none

/-- The integer that a value is. -/
def exactInteger? : Data → Option Int
  | .float _ => none
  | d => integer? d

/-- The floating point number that a value stands for; no integer may be too large for it. -/
def real? : Data → Option Binary64
  | .float x => some x
  | d =>
    match exactInteger? d with
    | some n =>
      match Binary64.ofInt n with
      | .infinite _ => none
      | x => some x
    | none => none

/-- The largest width or precision that there is room for. -/
def amountLimit : Nat := (1 <<< 31) - 4

/-- A width or a precision, taken from the values if need be. -/
def measure? (a : Amount) (s : Supply) : Option (Option Int × Supply) := do
  let (n, s) ← match a with
    | .absent => some (none, s)
    | .fixed n => some (some (n : Int), s)
    | .given => do
      let (d, s) ← s.next?
      pure (some (← exactInteger? d), s)
  if amountLimit < (n.getD 0).natAbs then none else return (n, s)

/-! ## Writing -/

/-- What stands at a place before it is laid out: a number has its sign and the mark of its base apart. -/
structure Body where
  isNumber : Bool := false
  negative : Bool := false
  base : List Char := []
  text : List CodePoint
  deriving Repr

/-- A character as an escape unless it is in ASCII. -/
def asciiChar (c : Char) : List Char :=
  if c.toNat < 0x80 then [c] else Text.codeEscape c.toNat

/-- A text cut off behind a precision. -/
def clipped (precision : Option Nat) (text : List CodePoint) : List CodePoint :=
  match precision with
  | some n => text.take n
  | none => text

/-- An integer in a base, with at least so many digits. -/
def integerBody (base : Nat) (mark : List Char) (precision : Option Nat) (n : Int) : Body :=
  let digits := Nat.toDigits base n.natAbs
  ⟨true, n < 0, mark, (List.replicate (precision.getD 0 - digits.length) '0' ++ digits).map .char⟩

/-- A number with a point, in a form that has so many digits. -/
def realBody (form : Nat → Int → List Char) : Binary64 → Body
  | .nan => ⟨true, false, [], ['n', 'a', 'n']⟩
  | .infinite negative => ⟨true, negative, [], ['i', 'n', 'f']⟩
  | .finite negative m e => ⟨true, negative, [], (form m e).map .char⟩

/-- The body of a number in upper case. -/
def Body.upper (b : Body) : Body :=
  { b with base := b.base.map Char.toUpper, text := b.text.map fun p => .char p.toChar.toUpper }

/-- The code point that a value stands for. -/
def point? : Data → Option CodePoint
  | .text s =>
    match s.points with
    | [p] => some p
    | _ => none
  | d =>
    match exactInteger? d with
    | some n => if 0 ≤ n ∧ n < 0x110000 then some (.ofCode n.toNat) else none
    | none => none

/-- What stands at a place for a value; nothing if the value is not of the kind. -/
def body? (s : Slot) (precision : Option Nat) (d : Data) : Option Body :=
  let pointed := s.has '#'
  let mark := fun (c : Char) => if pointed then ['0', c] else []
  let places := precision.getD 6
  match s.kind with
  | 's' => some { text := clipped precision d.display.points }
  | 'r' => some { text := clipped precision (d.literal.toList.map .char) }
  | 'a' => some { text := clipped precision ((d.literal.toList.flatMap asciiChar).map .char) }
  | 'c' => (point? d).map fun p => { text := [p] }
  | 'd' | 'i' | 'u' => (integer? d).map (integerBody 10 [] precision)
  | 'o' => (exactInteger? d).map (integerBody 8 (mark 'o') precision)
  | 'x' => (exactInteger? d).map (integerBody 16 (mark 'x') precision)
  | 'X' => (exactInteger? d).map fun n => (integerBody 16 (mark 'x') precision n).upper
  | 'e' => (real? d).map (realBody (Binary64.scientific pointed places))
  | 'f' => (real? d).map (realBody (Binary64.fixed pointed places))
  | 'g' => (real? d).map (realBody (Binary64.general pointed places))
  | 'E' => (real? d).map fun x => (realBody (Binary64.scientific pointed places) x).upper
  | 'F' => (real? d).map fun x => (realBody (Binary64.fixed pointed places) x).upper
  | 'G' => (real? d).map fun x => (realBody (Binary64.general pointed places) x).upper
  | _ => none

/-- The sign in front of a body. -/
def signOf (s : Slot) (b : Body) : List Char :=
  if b.negative then ['-']
  else if b.isNumber && s.has '+' then ['+']
  else if b.isNumber && s.has ' ' then [' ']
  else []

/-- A body in its width: zeros stand between the sign and a number, blanks in front of all else or behind it. -/
def layOut (s : Slot) (width : Int) (b : Body) : List CodePoint :=
  let front : List CodePoint := (signOf s b ++ b.base).map .char
  let filler := fun (c : Char) => List.replicate (width.natAbs - (front.length + b.text.length)) (CodePoint.char c)
  if s.has '-' || width < 0 then front ++ b.text ++ filler ' '
  else if s.has '0' && b.isNumber then front ++ filler '0' ++ b.text
  else filler ' ' ++ front ++ b.text

/-- The text at a place, and the values that are left. -/
def fillSlot? (slot : Slot) (s : Supply) : Option (List CodePoint × Supply) := do
  let s ← match slot.key with
    | some key => s.select? key
    | none => some s
  let (width, s) ← measure? slot.width s
  let (precision, s) ← measure? slot.precision s
  let (d, s) ← s.next?
  return (layOut slot (width.getD 0) (← body? slot (precision.map Int.toNat) d), s)

/-- The text of a template, and the values that are left. -/
def fillFrom? : Template → Supply → Option (List CodePoint × Supply)
  | [], s => some ([], s)
  | .inl p :: rest, s => do
    let (text, s) ← fillFrom? rest s
    return (p :: text, s)
  | .inr slot :: rest, s => do
    let (front, s) ← fillSlot? slot s
    let (text, s) ← fillFrom? rest s
    return (front ++ text, s)

/-- The message of a template with values; nothing if they do not fit. -/
def fill? (template : Text) (values : List Data) : Option Text :=
  if values.isEmpty then some template
  else do
    let (text, s) ← fillFrom? (← ofText? template) (Supply.ofValues values)
    if s.isDone then return ⟨text⟩ else none

end Template

end Hyperchess
