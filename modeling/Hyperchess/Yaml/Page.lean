/-!
# Pages

A page is text that is being written, together with what decides where the next line begins: the column, whether white
space is already in front, and whether the line holds nothing but indentation and list marks.
-/

namespace Hyperchess.Yaml

/-- Text that is being written. -/
structure Page where
  /-- The characters so far, the last one first. -/
  behind : List Char := []
  column : Nat := 0
  /-- White space is in front of what comes next. -/
  spaced : Bool := true
  /-- The line holds indentation and list marks only. -/
  fresh : Bool := true
  deriving Inhabited

namespace Page

/-- The text of a page. -/
def text (p : Page) : String := String.ofList p.behind.reverse

/-- Characters without line breaks at the end of the page. -/
def put (p : Page) (cs : List Char) : Page :=
  { p with behind := cs.reverse ++ p.behind, column := p.column + cs.length }

/-- A line break, written as the character that it is. -/
def breakLine (p : Page) (c : Char := '\n') : Page := ⟨c :: p.behind, 0, true, true⟩

/-- The page at a column of a line that holds nothing else; a new line is begun unless the column is still ahead. -/
def indentTo (p : Page) (column : Nat) : Page :=
  let q := if !p.fresh || column < p.column || (p.column == column && !p.spaced) then p.breakLine else p
  if q.column < column then { q.put (List.replicate (column - q.column) ' ') with spaced := true } else q

/-- A mark, with a space in front if one is needed. List marks leave a fresh line fresh. -/
def mark (p : Page) (cs : List Char) (needsSpace listMark : Bool) : Page :=
  { p.put (if needsSpace && !p.spaced then ' ' :: cs else cs) with spaced := false, fresh := p.fresh && listMark }

/-- Text has been written: what comes next needs space in front of it. -/
def inText (p : Page) : Page := { p with spaced := false, fresh := false }

end Page

end Hyperchess.Yaml
