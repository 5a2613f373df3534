import Hyperchess.Text
import Hyperchess.Yaml.Cursor
import Hyperchess.Yaml.Token

/-!
# Scalars in a text

Plain scalars end where a gap is followed by something else than more of them; quoted ones end at their quote. Both may
go on over several lines, a line break then standing for a space and further ones for themselves.
-/

namespace Hyperchess.Yaml

/-! ## Plain scalars -/

/-- A colon before `rest` ends a plain scalar. -/
def endsKey (inFlow : Bool) (rest : List Char) : Bool :=
  atGap rest || (inFlow && (rest.head?.map fun c => ",[]\x7b\x7d".toList.contains c).getD false)

/-- The length of the word at the front of a plain scalar. -/
def wordLength (inFlow : Bool) : List Char → Nat
  | [] => 0
  | c :: rest =>
    if isGap c || (c == ':' && endsKey inFlow rest) || (inFlow && ",?[]\x7b\x7d".toList.contains c) then 0
    else wordLength inFlow rest + 1

/-- White space inside a scalar: what it stands for, the place behind it, and whether it has a line break. -/
structure Fold where
  chars : List Char
  after : Cursor
  crossed : Bool

/-- The line breaks that come next, with spaces between them; nothing in front of a document marker. -/
def breaksOf : (fuel : Nat) → Cursor → Option (List Char) × Cursor
  | 0, c => (some [], c)
  | fuel + 1, c =>
    if c.rest.head? == some ' ' then breaksOf fuel c.step
    else
      match c.takeBreak? with
      | none => (some [], c)
      | some (x, d) =>
        if d.atMarker then (none, d)
        else
          let more := breaksOf fuel d
          (more.1.map (x :: ·), more.2)

/-- What a line break stands for that is followed by further ones: a single line feed becomes a space, the first of
several is dropped. -/
def folded (first : Char) (more : List Char) : List Char :=
  if first ≠ '\n' then first :: more else if more.isEmpty then [' '] else more

/-- The white space behind a word of a plain scalar. It stands for nothing in front of a document marker. -/
def plainFold (c : Cursor) : Fold :=
  let spaces := c.rest.takeWhile (· == ' ')
  let d := c.advance spaces.length
  match d.takeBreak? with
  | none => ⟨spaces, d, false⟩
  | some (first, e) =>
    if e.atMarker then ⟨[], e, true⟩
    else
      match breaksOf (e.rest.length + 1) e with
      | (none, f) => ⟨[], f, true⟩
      | (some more, f) => ⟨folded first more, f, true⟩

/-- A plain scalar whose further lines are indented by at least `indent`: its characters, the place behind it, and
whether a line break was passed at the end. `before` is the white space in front. -/
def plainScalar (inFlow : Bool) (indent : Nat) :
    (fuel : Nat) → (before : List Char) → (crossed : Bool) → Cursor → List Char × Cursor × Bool
  | 0, _, crossed, c => ([], c, crossed)
  | fuel + 1, before, crossed, c =>
    let n := if c.rest.head? == some '#' then 0 else wordLength inFlow c.rest
    if n = 0 then ([], c, crossed)
    else
      let word := before ++ c.rest.take n
      let fold := plainFold (c.advance n)
      if fold.chars.isEmpty || fold.after.rest.head? == some '#' || (!inFlow && fold.after.column < indent) then
        (word, fold.after, fold.crossed)
      else
        let more := plainScalar inFlow indent fuel fold.chars fold.crossed fold.after
        (word ++ more.1, more.2)

/-! ## Quoted scalars -/

/-- The character of an escape with one letter. -/
def escape? : Char → Option Char
  | '0' => some '\x00'
  | 'a' => some '\x07'
  | 'b' => some '\x08'
  | 't' | '\t' => some '\t'
  | 'n' => some '\n'
  | 'v' => some '\x0b'
  | 'f' => some '\x0c'
  | 'r' => some '\r'
  | 'e' => some '\x1b'
  | ' ' => some ' '
  | '"' => some '"'
  | '\\' => some '\\'
  | '/' => some '/'
  | 'N' => some '\x85'
  | '_' => some '\xa0'
  | 'L' => some '\u2028'
  | 'P' => some '\u2029'
  | _ => none

/-- The number of digits of an escape by code. -/
def escapeWidth? : Char → Option Nat
  | 'x' => some 2
  | 'u' => some 4
  | 'U' => some 8
  | _ => none

/-- The value of a hexadecimal digit. -/
def hexDigit? (c : Char) : Option Nat :=
  if '0' ≤ c ∧ c ≤ '9' then some (c.toNat - 48)
  else if 'a' ≤ c ∧ c ≤ 'f' then some (c.toNat - 87)
  else if 'A' ≤ c ∧ c ≤ 'F' then some (c.toNat - 55)
  else none

/-- The code point of an escape by code, which may name half of a pair. -/
def codeEscape (width : Nat) (cs : List Char) : Except ReadError CodePoint :=
  match (cs.take width).mapM hexDigit? with
  | some digits =>
    if digits.length < width then .error .malformed
    else
      let n := digits.foldl (fun n d => 16 * n + d) 0
      if 0x7fffffff < n then .error .oversized
      else if 0x10ffff < n then .error (.badValue "chr() arg not in range(0x110000)")
      else .ok (.ofCode n)
  | none => .error .malformed

/-- The line breaks that come next inside quotes. -/
def quotedBreaks : (fuel : Nat) → Cursor → Except ReadError (List Char × Cursor)
  | 0, _ => .error .malformed
  | fuel + 1, c =>
    if c.atMarker then .error .malformed
    else
      let d := c.skip fun x => x == ' ' || x == '\t'
      match d.takeBreak? with
      | none => .ok ([], d)
      | some (x, e) => do
        let more ← quotedBreaks fuel e
        return (x :: more.1, more.2)

/-- The white space that comes next inside quotes. -/
def quotedFold (c : Cursor) : Except ReadError (List Char × Cursor) :=
  let spaces := c.rest.takeWhile fun x => x == ' ' || x == '\t'
  let d := c.advance spaces.length
  match d.takeBreak? with
  | none => .ok (spaces, d)
  | some (first, e) => do
    let more ← quotedBreaks (e.rest.length + 1) e
    return (folded first more.1, more.2)

/-- The rest of a quoted scalar, with the place behind its closing quote. -/
def quotedScalar (double : Bool) : (fuel : Nat) → Cursor → Except ReadError (List CodePoint × Cursor)
  | 0, _ => .error .malformed
  | fuel + 1, c =>
    let go (points : List CodePoint) (d : Cursor) : Except ReadError (List CodePoint × Cursor) := do
      let more ← quotedScalar double fuel d
      return (points ++ more.1, more.2)
    match c.rest with
    | [] => .error .malformed
    | x :: rest =>
      if x == '\'' && !double then
        if rest.head? == some '\'' then go [.char '\''] c.step.step else .ok ([], c.step)
      else if x == '"' && double then .ok ([], c.step)
      else if x == '\\' && double then
        match rest with
        | [] => .error .malformed
        | y :: digits =>
          match escape? y, escapeWidth? y with
          | some z, _ => go [.char z] c.step.step
          | none, some width => do go [← codeEscape width digits] (c.advance (width + 2))
          | none, none =>
            match c.step.takeBreak? with
            | some (_, d) => do
              let breaks ← quotedBreaks (d.rest.length + 1) d
              go (breaks.1.map .char) breaks.2
            | none => .error .malformed
      else if isGap x then do
        let fold ← quotedFold c
        go (fold.1.map .char) fold.2
      else go [.char x] c.step

end Hyperchess.Yaml
