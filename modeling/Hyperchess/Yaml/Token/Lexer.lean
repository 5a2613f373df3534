import Hyperchess.Source
import Hyperchess.Yaml.Token.Scalar

/-!
# From a text to its tokens

A scalar before a colon is known to be a key only when the colon is met, so that the marks for it are put in front of
it later. Block scalars, anchors, tags and directives are refused.
-/

namespace Hyperchess.Yaml

/-- A scalar or collection that may turn out to be a key: the number of tokens before it, its place, and whether it has
to be a key because of its column. -/
structure PendingKey where
  before : Nat
  required : Bool
  index : Nat
  line : Nat
  column : Nat
  deriving Repr

/-- The state between two tokens. -/
structure Lexer where
  cursor : Cursor
  tokens : List Token := []
  /-- How many flow collections are open. -/
  depth : Nat := 0
  /-- The column of the innermost block collection. -/
  indent : Int := -1
  /-- The columns of the block collections around it. -/
  indents : List Int := []
  /-- A key may begin here. -/
  keyAllowed : Bool := true
  /-- Possible keys, by the number of open flow collections. -/
  keys : List (Nat × PendingKey) := []

namespace Lexer

/-- The lexer with one more token. -/
def emit (l : Lexer) (t : Token) : Lexer := { l with tokens := l.tokens ++ [t] }

/-- Spaces, comments and line breaks are skipped. Behind a line break outside of flow collections a key may begin. -/
def skipBlank : (fuel : Nat) → Lexer → Lexer
  | 0, l => l
  | fuel + 1, l =>
    let c := l.cursor.skip (· == ' ')
    let c := if c.rest.head? == some '#' then c.skip (fun x => !isBreak x) else c
    match c.takeBreak? with
    | none => { l with cursor := c }
    | some (_, d) => skipBlank fuel { l with cursor := d, keyAllowed := l.keyAllowed || l.depth == 0 }

/-- A possible key is on another line or too far back. -/
def isStale (l : Lexer) (k : PendingKey) : Bool := k.line != l.cursor.line || 1024 < l.cursor.index - k.index

/-- Possible keys that are on another line or too far back are given up. -/
def dropStale (l : Lexer) : Except ReadError Lexer :=
  if l.keys.any fun e => l.isStale e.2 && e.2.required then .error .malformed
  else .ok { l with keys := l.keys.filter fun e => !l.isStale e.2 }

/-- The possible key of the innermost collection is given up. -/
def dropKey (l : Lexer) : Except ReadError Lexer :=
  if l.keys.any fun e => e.1 == l.depth && e.2.required then .error .malformed
  else .ok { l with keys := l.keys.filter fun e => e.1 != l.depth }

/-- What begins here may be a key. -/
def saveKey (l : Lexer) : Except ReadError Lexer :=
  if l.keyAllowed then do
    let l ← l.dropKey
    let required := l.depth == 0 && l.indent == (l.cursor.column : Int)
    let k : PendingKey := ⟨l.tokens.length, required, l.cursor.index, l.cursor.line, l.cursor.column⟩
    return { l with keys := (l.depth, k) :: l.keys }
  else .ok l

/-- Block collections that are indented by more than a column end. -/
def unwind (column : Int) (l : Lexer) : Lexer :=
  if l.depth != 0 then l
  else
    let outer := (l.indent :: l.indents).dropWhile (column < ·)
    let ended := l.indents.length + 1 - outer.length
    match outer with
    | [] => l
    | indent :: indents => { l with indent, indents, tokens := l.tokens ++ List.replicate ended .blockEnd }

/-- A block collection begins at a column if that column is further in; its first token is put at a place. -/
def openBlock (l : Lexer) (column : Nat) (start : Token) (place : Nat) : Lexer :=
  if l.indent < column then
    { l with indent := column, indents := l.indent :: l.indents, tokens := l.tokens.insertIdx place start }
  else l

/-- The lexer behind `n` characters. -/
def pass (l : Lexer) (n : Nat) : Lexer := { l with cursor := l.cursor.advance n }

/-- A mark of one character that opens a flow collection. -/
def openFlow (l : Lexer) (t : Token) : Except ReadError Lexer := do
  let l ← l.saveKey
  return ({ l with depth := l.depth + 1, keyAllowed := true }.emit t).pass 1

/-- A mark of one character that closes a flow collection. -/
def closeFlow (l : Lexer) (t : Token) : Except ReadError Lexer := do
  let l ← l.dropKey
  if l.depth = 0 then throw .malformed
  return ({ l with depth := l.depth - 1, keyAllowed := false }.emit t).pass 1

/-- A comma. -/
def flowEntry (l : Lexer) : Except ReadError Lexer := do
  let l ← { l with keyAllowed := true }.dropKey
  return (l.emit .flowEntry).pass 1

/-- A hyphen before an item, or a question mark before a key. Outside of flow collections it may begin a collection. -/
def blockMark (l : Lexer) (start mark : Token) (keyAfter : Bool) : Except ReadError Lexer := do
  if l.depth == 0 && !l.keyAllowed then throw .malformed
  let l := if l.depth == 0 then l.openBlock l.cursor.column start l.tokens.length else l
  let l ← { l with keyAllowed := keyAfter }.dropKey
  return (l.emit mark).pass 1

/-- A colon behind a key, which may be a pending one or missing. -/
def valueMark (l : Lexer) : Except ReadError Lexer := do
  match l.keys.find? fun e => e.1 == l.depth with
  | some (_, k) =>
    let l := { l with keys := l.keys.filter fun e => e.1 != l.depth, tokens := l.tokens.insertIdx k.before .key }
    let l := if l.depth == 0 then l.openBlock k.column .mappingStart k.before else l
    return ({ l with keyAllowed := false }.emit .value).pass 1
  | none => l.blockMark .mappingStart .value (l.depth == 0)

/-- A marker between documents. -/
def marker (l : Lexer) (t : Token) : Except ReadError Lexer := do
  let l ← (l.unwind (-1)).dropKey
  return ({ l with keyAllowed := false }.emit t).pass 3

/-- A quoted scalar. -/
def quotedToken (l : Lexer) (double : Bool) : Except ReadError Lexer := do
  let l ← l.saveKey
  let r ← quotedScalar double (l.cursor.rest.length + 1) l.cursor.step
  return { l with cursor := r.2, keyAllowed := false }.emit (.scalar false ⟨r.1⟩)

/-- A plain scalar. -/
def plainToken (l : Lexer) : Except ReadError Lexer := do
  let l ← l.saveKey
  let r := plainScalar (l.depth != 0) (l.indent + 1).toNat (l.cursor.rest.length + 1) [] false l.cursor
  return { l with cursor := r.2.1, keyAllowed := r.2.2 }.emit (.scalar true (.ofChars r.1))

/-- A plain scalar may begin with `c`, before `rest`. -/
def startsPlain (inFlow : Bool) (c : Char) (rest : List Char) : Bool :=
  !(isGap c || "-?:,[]\x7b\x7d#&*!|>'\"%@\x60".toList.contains c) ||
    (!atGap rest && (c == '-' || (!inFlow && (c == '?' || c == ':'))))

/-- The next token, behind blanks; nothing at the end. -/
def next (l : Lexer) : Except ReadError (Lexer × Bool) := do
  let l ← (l.skipBlank (l.cursor.rest.length + 1)).dropStale
  let l := l.unwind l.cursor.column
  let more := fun (l : Lexer) => (l, true)
  match l.cursor.rest with
  | [] => return (← (l.unwind (-1)).dropKey, false)
  | c :: rest =>
    let inFlow := l.depth != 0
    if l.cursor.column == 0 && l.cursor.atMarker then
      more <$> l.marker (if c == '-' then .documentStart else .documentEnd)
    else if c == '[' then more <$> l.openFlow .flowSequenceStart
    else if c == '\x7b' then more <$> l.openFlow .flowMappingStart
    else if c == ']' then more <$> l.closeFlow .flowSequenceEnd
    else if c == '\x7d' then more <$> l.closeFlow .flowMappingEnd
    else if c == ',' then more <$> l.flowEntry
    else if c == '-' && atGap rest then more <$> l.blockMark .sequenceStart .blockEntry true
    else if c == '?' && (inFlow || atGap rest) then more <$> l.blockMark .mappingStart .key (!inFlow)
    else if c == ':' && (inFlow || atGap rest) then more <$> l.valueMark
    else if c == '\'' then more <$> l.quotedToken false
    else if c == '"' then more <$> l.quotedToken true
    else if startsPlain inFlow c rest then more <$> l.plainToken
    else throw .malformed

/-- How many tokens are settled: those in front of the first one that may turn out to be a key. -/
def settled (l : Lexer) : Nat :=
  (l.keys.filter fun e => !l.isStale e.2).foldl (fun n e => min n e.2.before) l.tokens.length

/-- The settled tokens, and no more. What comes later is not looked at before the next token is looked for. -/
def breakOff (l : Lexer) (e : ReadError) : List Token := l.tokens.take l.settled ++ [.broken e]

/-- All tokens, up to the end or to the place where there are none. Each call but the last takes a character. With
`ending`, the text cannot be read to its end: a token that reaches as far is none. -/
def finish (ending : Option ReadError) : (fuel : Nat) → Lexer → List Token
  | 0, l => l.breakOff .malformed
  | fuel + 1, l =>
    match l.next, ending with
    | .error e, _ => l.breakOff e
    | .ok (m, more), none => if more then finish ending fuel m else m.tokens
    | .ok (m, _), some e => if m.cursor.rest.isEmpty then l.breakOff e else finish ending fuel m

end Lexer

/-- A character that a document may hold. -/
def isAllowed (c : Char) : Bool :=
  let n := c.toNat
  n == 9 || n == 10 || n == 13 || (0x20 ≤ n && n ≤ 0x7e) || n == 0x85 || (0xa0 ≤ n && n ≤ 0xd7ff) ||
    (0xe000 ≤ n && n ≤ 0xfffd) || 0x10000 ≤ n

/-- The tokens of a text. A byte order mark in front is skipped. Blocks with a character that is not allowed are not
read. -/
def tokens (s : Source) : List Token :=
  let (cs, allowed) := Source.blocksOf isAllowed s.chars
  let ending := if !allowed then some .malformed else if !s.isWhole then some .notText else none
  let c : Cursor := ⟨cs, 0, 0, 0⟩
  let c := if cs.head? == some '\ufeff' then c.step else c
  Lexer.finish ending (cs.length + 1) ⟨c, [], 0, -1, [], true, []⟩

end Hyperchess.Yaml
