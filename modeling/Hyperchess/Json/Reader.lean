import Hyperchess.Data

/-!
# Reading JSON

A reader from characters to plain data. A number with a fraction or an exponent is a floating point number, any other
an integer; of entries with the same key the last one counts, at the place of the first. Besides the standard it
accepts `NaN`, `Infinity` and `-Infinity`.
-/

namespace Hyperchess.Json

/-- Why a text is not read. -/
inductive ReadError where
  | malformed
  /-- An integer with more digits than `Integer.digitLimit`. -/
  | oversized (digits : Nat)
  /-- Lists and maps are nested too deeply. -/
  | tooDeep
  deriving DecidableEq, Repr

/-- The characters that may stand between tokens. -/
def isSpace (c : Char) : Bool := c == ' ' || c == '\t' || c == '\n' || c == '\r'

/-- What is left behind such characters. -/
def skipSpaces (cs : List Char) : List Char := cs.dropWhile isSpace

/-- The value of a hexadecimal digit. -/
def hexValue? (c : Char) : Option Nat :=
  if '0' ≤ c ∧ c ≤ '9' then some (c.toNat - 48)
  else if 'a' ≤ c ∧ c ≤ 'f' then some (c.toNat - 87)
  else if 'A' ≤ c ∧ c ≤ 'F' then some (c.toNat - 55)
  else none

/-- Four hexadecimal digits. -/
def hexQuad? : List Char → Option (Nat × List Char)
  | a :: b :: c :: d :: rest => do
    return ((((← hexValue? a) * 16 + (← hexValue? b)) * 16 + (← hexValue? c)) * 16 + (← hexValue? d), rest)
  | _ => none

/-- The character of a one-letter escape. -/
def shortEscape? : Char → Option Char
  | '"' => some '"'
  | '\\' => some '\\'
  | '/' => some '/'
  | 'b' => some '\x08'
  | 'f' => some '\x0c'
  | 'n' => some '\n'
  | 'r' => some '\r'
  | 't' => some '\t'
  | _ => none

/-- The second half of a surrogate pair, behind its escape. -/
def lowHalf? : List Char → Option (Nat × List Char)
  | '\\' :: 'u' :: rest => do
    let (n, rest) ← hexQuad? rest
    if 0xDC00 ≤ n ∧ n < 0xE000 then some (n, rest) else none
  | _ => none

/-- The code point behind `\u`. A half of a pair may stand alone. -/
def unicodeEscape? (cs : List Char) : Option (CodePoint × List Char) := do
  let (n, rest) ← hexQuad? cs
  if 0xD800 ≤ n ∧ n < 0xDC00 then
    match lowHalf? rest with
    | some (m, rest) => some (.ofCode (0x10000 + (n - 0xD800) * 0x400 + (m - 0xDC00)), rest)
    | none => some (.ofCode n, rest)
  else some (.ofCode n, rest)

/-- The code points of a text behind its opening quote, up to the closing one. -/
def textBody : (fuel : Nat) → List Char → Option (List CodePoint × List Char)
  | 0, _ => none
  | _ + 1, [] => none
  | _ + 1, '"' :: rest => some ([], rest)
  | fuel + 1, '\\' :: 'u' :: rest => do
    let (p, rest) ← unicodeEscape? rest
    let (more, rest) ← textBody fuel rest
    return (p :: more, rest)
  | fuel + 1, '\\' :: e :: rest => do
    let c ← shortEscape? e
    let (more, rest) ← textBody fuel rest
    return (.char c :: more, rest)
  | fuel + 1, c :: rest =>
    if c.toNat < 0x20 ∨ c = '\\' then none
    else do
      let (more, rest) ← textBody fuel rest
      return (.char c :: more, rest)

/-- A text behind its opening quote. -/
def text (cs : List Char) : Except ReadError (Text × List Char) :=
  match textBody (cs.length + 1) cs with
  | some (body, rest) => .ok (⟨body⟩, rest)
  | none => .error .malformed

/-- The digits at the front. -/
def digitRun (cs : List Char) : List Char × List Char := cs.span Char.isDigit

/-- The value of ASCII digits. -/
def digitsValue (cs : List Char) : Nat := Integer.ofDigits (cs.map fun c => c.toNat - 48)

/-- The digits of a fraction, if a point and a digit stand at the front. -/
def fraction? : List Char → Option (List Char × List Char)
  | '.' :: c :: rest => if c.isDigit then some (digitRun (c :: rest)) else none
  | _ => none

/-- A signed run of digits. -/
def exponentBody? (cs : List Char) : Option (Int × List Char) :=
  let signed : Bool × List Char :=
    match cs with
    | '-' :: rest => (true, rest)
    | '+' :: rest => (false, rest)
    | _ => (false, cs)
  match digitRun signed.2 with
  | ([], _) => none
  | (ds, rest) => some (if signed.1 then -(digitsValue ds : Int) else digitsValue ds, rest)

/-- An exponent, if one stands at the front. -/
def exponent? : List Char → Option (Int × List Char)
  | c :: rest => if c = 'e' ∨ c = 'E' then exponentBody? rest else none
  | [] => none

/-- A number without sign. -/
def unsigned (negative : Bool) (cs : List Char) : Except ReadError (Data × List Char) :=
  let whole : List Char × List Char :=
    match cs with
    | '0' :: rest => (['0'], rest)
    | _ => digitRun cs
  if whole.1.isEmpty then .error .malformed
  else
    let fraction := fraction? whole.2
    let afterFraction := (fraction.map (·.2)).getD whole.2
    let exponent := exponent? afterFraction
    let rest := (exponent.map (·.2)).getD afterFraction
    if fraction.isNone && exponent.isNone then
      if Integer.digitLimit < whole.1.length then .error (.oversized whole.1.length)
      else
        let n : Int := digitsValue whole.1
        .ok (.int (if negative then -n else n), rest)
    else
      let places := (fraction.map (·.1)).getD []
      let power : Int := (exponent.map (·.1)).getD 0
      .ok (.float (Binary64.ofDecimal negative (digitsValue (whole.1 ++ places)) (power - places.length)), rest)

/-- The rest of `cs` behind `word`. -/
def afterWord? (word cs : List Char) : Option (List Char) :=
  if word.isPrefixOf cs then some (cs.drop word.length) else none

/-- A number or one of the words. -/
def scalar (cs : List Char) : Except ReadError (Data × List Char) :=
  match cs with
  | 'n' :: rest => ((afterWord? "ull".toList rest).map fun r => (Data.null, r)) |> orMalformed
  | 't' :: rest => ((afterWord? "rue".toList rest).map fun r => (Data.bool true, r)) |> orMalformed
  | 'f' :: rest => ((afterWord? "alse".toList rest).map fun r => (Data.bool false, r)) |> orMalformed
  | 'N' :: rest => ((afterWord? "aN".toList rest).map fun r => (Data.float .nan, r)) |> orMalformed
  | 'I' :: rest => ((afterWord? "nfinity".toList rest).map fun r => (Data.float .infinity, r)) |> orMalformed
  | '-' :: 'I' :: rest =>
    ((afterWord? "nfinity".toList rest).map fun r => (Data.float (.infinite true), r)) |> orMalformed
  | '-' :: rest => unsigned true rest
  | _ => unsigned false cs
where
  orMalformed : Option (Data × List Char) → Except ReadError (Data × List Char)
    | some r => .ok r
    | none => .error .malformed

/-- The room that is left inside a list or a map; there is none if too many are nested. -/
def enter : (room : Nat) → Except ReadError Nat
  | 0 => .error .tooDeep
  | room + 1 => .ok room

mutual

/-- A value behind blanks, with room for so many lists and maps inside one another. Each call uses up one unit of fuel
and every two calls one character. -/
def value : (room fuel : Nat) → List Char → Except ReadError (Data × List Char)
  | _, 0, _ => .error .malformed
  | room, fuel + 1, cs =>
    match skipSpaces cs with
    | '"' :: rest => do
      let (s, rest) ← text rest
      return (.text s, rest)
    | '[' :: rest => do
      let room ← enter room
      match skipSpaces rest with
      | ']' :: rest => return (.list [], rest)
      | rest =>
        let (items, rest) ← items room fuel rest
        return (.list items, rest)
    | '\x7b' :: rest => do
      let room ← enter room
      match skipSpaces rest with
      | '\x7d' :: rest => return (.map [], rest)
      | rest =>
        let (entries, rest) ← entries room fuel [] rest
        return (.map entries, rest)
    | rest => scalar rest
termination_by structural _ fuel => fuel

/-- The items of a list, up to its closing bracket. -/
def items : (room fuel : Nat) → List Char → Except ReadError (List Data × List Char)
  | _, 0, _ => .error .malformed
  | room, fuel + 1, cs => do
    let (x, rest) ← value room fuel cs
    match skipSpaces rest with
    | ',' :: rest =>
      let (more, rest) ← items room fuel rest
      return (x :: more, rest)
    | ']' :: rest => return ([x], rest)
    | _ => throw .malformed
termination_by structural _ fuel => fuel

/-- The entries of a map behind those already read, up to its closing brace. -/
def entries :
    (room fuel : Nat) → List (Data × Data) → List Char → Except ReadError (List (Data × Data) × List Char)
  | _, 0, _, _ => .error .malformed
  | room, fuel + 1, done, cs =>
    match skipSpaces cs with
    | '"' :: rest => do
      let (key, rest) ← text rest
      match skipSpaces rest with
      | ':' :: rest =>
        let (x, rest) ← value room fuel rest
        let done := Data.put done (.text key) x
        match skipSpaces rest with
        | ',' :: rest => entries room fuel done rest
        | '\x7d' :: rest => return (done, rest)
        | _ => throw .malformed
      | _ => throw .malformed
    | _ => .error .malformed
termination_by structural _ fuel => fuel

end

/-- The value that a text consists of, with room for so many lists and maps inside one another. -/
def readWithin (room : Nat) (s : String) : Except ReadError Data := do
  let cs := s.toList
  let (d, rest) ← value room (2 * cs.length + 2) cs
  if (skipSpaces rest).isEmpty then return d else throw .malformed

/-- The value that a text consists of. Without a limit on lists and maps inside one another there is room for as many
as the text has characters. -/
def read (limit : Option Nat) (s : String) : Except ReadError Data := readWithin (limit.getD s.length) s

end Hyperchess.Json
