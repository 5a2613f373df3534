/-!
# Cursors

A cursor is a place in a text, with its line and column.
-/

namespace Hyperchess.Yaml

/-- A line break. -/
def isBreak (c : Char) : Bool :=
  c == '\n' || c == '\r' || c == '\x85' || c == '\u2028' || c == '\u2029'

/-- A space, a tab or a line break. -/
def isGap (c : Char) : Bool := c == ' ' || c == '\t' || isBreak c

/-- The text ends, or a gap follows. -/
def atGap : List Char → Bool
  | [] => true
  | c :: _ => isGap c

/-- The characters begin with a document marker, `---` or `...` before a gap. -/
def atMarker : List Char → Bool
  | '-' :: '-' :: '-' :: rest => atGap rest
  | '.' :: '.' :: '.' :: rest => atGap rest
  | _ => false

/-- A place in a text: what follows, and where it is. -/
structure Cursor where
  rest : List Char
  index : Nat := 0
  line : Nat := 0
  column : Nat := 0
  deriving Repr, Inhabited

namespace Cursor

/-- The place behind the next character. -/
def step (c : Cursor) : Cursor :=
  match c.rest with
  | [] => c
  | x :: rest =>
    if isBreak x && !(x == '\r' && rest.head? == some '\n') then ⟨rest, c.index + 1, c.line + 1, 0⟩
    else ⟨rest, c.index + 1, c.line, if x == '\ufeff' then c.column else c.column + 1⟩

/-- The place behind the next `n` characters. -/
def advance : (n : Nat) → Cursor → Cursor
  | 0, c => c
  | n + 1, c => advance n c.step

/-- The place behind a line break, and the character that the break stands for. -/
def takeBreak? (c : Cursor) : Option (Char × Cursor) :=
  match c.rest with
  | '\r' :: '\n' :: _ => some ('\n', c.step.step)
  | x :: _ =>
    if x == '\u2028' || x == '\u2029' then some (x, c.step) else if isBreak x then some ('\n', c.step) else none
  | [] => none

/-- The place behind all characters of a class that come next. -/
def skip (p : Char → Bool) (c : Cursor) : Cursor := advance (c.rest.takeWhile p).length c

/-- Whether the cursor is at a document marker. -/
def atMarker (c : Cursor) : Bool := Yaml.atMarker c.rest

end Cursor

end Hyperchess.Yaml
