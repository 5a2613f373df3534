import Hyperchess.Yaml.Page
import Hyperchess.Yaml.Scalar

/-!
# How a text is written

A text is written plainly if it would be read back as the same text, otherwise between single quotes, and between double
quotes if it holds characters that only an escape can show. Long texts are broken at single spaces.
-/

namespace Hyperchess.Yaml

/-! ## The choice of quotes -/

/-- Without quotes, the text would be read back as a text. -/
def readsAsText (t : Text) : Bool :=
  match plainValue t with
  | .ok (.text _) => true
  | _ => false

/-- A line break inside a text. -/
def isTextBreak (c : Char) : Bool := c == '\n' || c == '\x85' || c == '\u2028' || c == '\u2029'

/-- A character that needs an escape. -/
def isSpecial (c : Char) : Bool :=
  let n := c.toNat
  !(c == '\n' || (0x20 ≤ n && n ≤ 0x7e) ||
    ((n == 0x85 || (0xa0 ≤ n && n ≤ 0xd7ff) || (0xe000 ≤ n && n ≤ 0xfffd) || (0x10000 ≤ n && n < 0x10ffff)) &&
      n != 0xfeff))

/-- A character of the first class is followed by one of the second. -/
def hasPair (p q : Char → Bool) : List Char → Bool
  | c :: d :: rest => (p c && q d) || hasPair p q (d :: rest)
  | _ => false

/-- Behind its first character the text holds a colon before a gap or a comment sign behind one. -/
def hasInnerMark : List Char → Bool
  | c :: d :: rest => (d == ':' && atGap rest) || (d == '#' && isGap c) || hasInnerMark (d :: rest)
  | _ => false

/-- The text begins like something else than a plain scalar, or holds a mark that ends one. -/
def hasMarks (cs : List Char) : Bool :=
  "---".toList.isPrefixOf cs || "...".toList.isPrefixOf cs || hasInnerMark cs ||
    match cs with
    | c :: rest =>
      "#,[]\x7b\x7d&*!|>'\"%@\x60".toList.contains c || ((c == '?' || c == ':' || c == '-') && atGap rest)
    | [] => false

/-- The ways to write a text. -/
inductive Style where
  | plain
  | single
  | double
  deriving DecidableEq, Repr

/-- The style of a text. Keys stay on one line, so they are plain or quoted so that they have no break. -/
def styleOf (isKey : Bool) (t : Text) : Style :=
  let cs := t.chars
  let breaks := cs.any isTextBreak
  let isSpace := fun (c : Char) => c == ' '
  let edges := (cs.head?.toList ++ cs.getLast?.toList).any fun c => isSpace c || isTextBreak c
  let bothOrders := hasPair isTextBreak isSpace cs || hasPair isSpace isTextBreak cs
  let escapes := !t.isEncodable || cs.any isSpecial || bothOrders
  if readsAsText t && !cs.isEmpty && !edges && !escapes && !breaks && !hasMarks cs then .plain
  else if !escapes && !(isKey && breaks) then .single
  else .double

/-! ## Writing -/

/-- A line is broken at the first opportunity behind this column. -/
def lineWidth : Nat := 80

/-- The maximal runs of characters of one class. -/
def runs (cls : Char → Nat) (cs : List Char) : List (List Char) := cs.splitBy fun a b => cls a == cls b

/-- Plain text. A single space becomes a line break where the line is full. -/
def putPlain (p : Page) (indent : Nat) (split : Bool) (cs : List Char) : Page :=
  let start := (if p.spaced then p else p.put [' ']).inText
  (runs (fun c => if c == ' ' then 1 else 0) cs).foldl (fun p run =>
    if run == [' '] && lineWidth < p.column && split then (p.indentTo indent).inText else p.put run) start

/-- Text between single quotes; a quote inside is written twice. -/
def putSingle (p : Page) (indent : Nat) (split : Bool) (cs : List Char) : Page :=
  let parts := runs (fun c => if c == ' ' then 1 else if isTextBreak c then 2 else 0) cs
  let last := parts.length - 1
  let write : Page → List Char × Nat → Page := fun p (run, i) =>
    match run with
    | ' ' :: _ =>
      if run.length == 1 && lineWidth < p.column && split && i != 0 && i != last then p.indentTo indent else p.put run
    | c :: _ =>
      if isTextBreak c then
        let p := if c == '\n' then p.breakLine else p
        (run.foldl (fun p c => p.breakLine c) p).indentTo indent
      else p.put (run.flatMap fun c => if c == '\'' then ['\'', '\''] else [c])
    | [] => p
  (parts.zipIdx.foldl write (p.mark ['\''] true false)).mark ['\''] false false

/-- `n` in hexadecimal, upper case, with at least `width` digits. -/
def upperHex (width n : Nat) : List Char :=
  let digits := (Nat.toDigits 16 n).map Char.toUpper
  List.replicate (width - digits.length) '0' ++ digits

/-- The letter of an escape, for characters that have one. -/
def shortEscape? (c : Char) : Option Char :=
  match c with
  | '\x00' => some '0'
  | '\x07' => some 'a'
  | '\x08' => some 'b'
  | '\t' => some 't'
  | '\n' => some 'n'
  | '\x0b' => some 'v'
  | '\x0c' => some 'f'
  | '\r' => some 'r'
  | '\x1b' => some 'e'
  | '"' => some '"'
  | '\\' => some '\\'
  | '\x85' => some 'N'
  | '\xa0' => some '_'
  | '\u2028' => some 'L'
  | '\u2029' => some 'P'
  | _ => none

/-- The escape of a code point. -/
def escapeOf (p : CodePoint) : List Char :=
  let n := p.code
  match p.char?.bind shortEscape? with
  | some letter => ['\\', letter]
  | none =>
    if n ≤ 0xff then '\\' :: 'x' :: upperHex 2 n
    else if n ≤ 0xffff then '\\' :: 'u' :: upperHex 4 n
    else '\\' :: 'U' :: upperHex 8 n

/-- A character that stands for itself between double quotes. -/
def isBare (c : Char) : Bool :=
  let n := c.toNat
  c != '"' && c != '\\' && n != 0x2028 && n != 0x2029 && n != 0xfeff &&
    ((0x20 ≤ n && n ≤ 0x7e) || (0xa0 ≤ n && n ≤ 0xd7ff) || (0xe000 ≤ n && n ≤ 0xfffd))

/-- The rest of a text between double quotes, behind characters that are not written yet. A line that is full is broken
in front of a space or behind an escape, with a backslash at its end, but not next to the quotes. -/
def doubleFrom (indent : Nat) (split : Bool) (p : Page) (held : List Char) (first : Bool) : List CodePoint → Page
  | [] => p.put held
  | x :: rest =>
    let bare? := x.char?.filter isBare
    let p := if bare?.isSome then p else (p.put held).put (escapeOf x)
    let held := if bare?.isSome then held else []
    let reach : Int := if bare?.isSome then p.column + held.length else (p.column : Int) - 1
    let opportunity := bare? == some ' ' || bare?.isNone || held.isEmpty
    let full := !first && !rest.isEmpty && opportunity && (lineWidth : Int) < reach && split
    if full then
      let p := ((p.put (held ++ ['\\'])).indentTo indent).inText
      let next := if bare?.isSome then bare? else rest.head?.bind CodePoint.char?
      let p := if next == some ' ' then p.put ['\\'] else p
      doubleFrom indent split p bare?.toList false rest
    else doubleFrom indent split p (held ++ bare?.toList) false rest

/-- Text between double quotes. -/
def putDouble (p : Page) (indent : Nat) (split : Bool) (ps : List CodePoint) : Page :=
  (doubleFrom indent split (p.mark ['"'] true false) [] true ps).mark ['"'] false false

/-- A text in its style. Lines after the first begin at `indent`; keys are not broken. -/
def putText (p : Page) (indent : Nat) (isKey : Bool) (t : Text) : Page :=
  match styleOf isKey t with
  | .plain => putPlain p indent (!isKey) t.chars
  | .single => putSingle p indent (!isKey) t.chars
  | .double => putDouble p indent (!isKey) t.points

end Hyperchess.Yaml
