import Hyperchess.Yaml.Style

/-!
# Writing YAML

Values in block style: every item and every entry begins a line, entries stand in the order of their keys, and the items
of a list that is a value are not indented. Empty lists and maps are written as brackets.
-/

namespace Hyperchess.Yaml

/-- A floating point number, with a point in front of an exponent. -/
def floatText (x : Binary64) : List Char :=
  match x with
  | .nan => ".nan".toList
  | .infinite negative => if negative then "-.inf".toList else ".inf".toList
  | x =>
    let cs := x.text.toList
    if cs.contains '.' || !cs.contains 'e' then cs else cs.flatMap fun c => if c == 'e' then ['.', '0', 'e'] else [c]

/-- The plain form of a value that is neither text nor a collection. -/
def wordOf : Data → List Char
  | .null => "null".toList
  | .bool b => if b then "true".toList else "false".toList
  | .int n => Integer.literal n
  | .float x => floatText x
  | .time t => t.text.toList
  | _ => []

/-- How much a key's kind adds to its length when it is decided whether the key fits in front of its colon. -/
def kindLength : Data → Nat
  | .null | .bool _ => 6
  | .float _ => 7
  | .time _ => 11
  | _ => 5

/-- A key stands in front of its colon if it is short and has no line break; otherwise a question mark announces it. -/
def isShortKey : Data → Bool
  | .text s => !s.isEmpty && !s.chars.any isTextBreak && kindLength (.text s) + s.length < 128
  | d => kindLength d + (wordOf d).length < 128

/-- A key. -/
def putKey (p : Page) (indent : Nat) (short : Bool) : Data → Page
  | .text s => putText p (indent + 2) short s
  | d => putPlain p (indent + 2) (!short) (wordOf d)

/-- The key as far as its colon. -/
def putKeyMark (p : Page) (indent : Nat) (key : Data) : Page :=
  let p := p.indentTo indent
  if isShortKey key then (putKey p indent true key).mark [':'] false false
  else ((putKey (p.mark ['?'] true true) indent false key).indentTo indent).mark [':'] true true

/-! ## Order of keys -/

/-- Whether the key of an entry comes before that of another. -/
def entryBefore (e f : Data × Data) : Bool := e.1.before f.1

/-- How many entries at the front are in an order in which each one comes before its neighbour or does not, as told by
`descending`. -/
def runLength (descending : Bool) : List (Data × Data) → Nat
  | e :: f :: rest => if entryBefore f e == descending then runLength descending (f :: rest) + 1 else 1
  | [_] => 1
  | [] => 0

/-- The place for an entry among ordered ones, between `low` and `high`, found by halving. What is not a number has no
order, so that the way of searching matters. -/
def placeFor (e : Data × Data) (done : Array (Data × Data)) (low high : Nat) : Nat :=
  if h : low < high then
    let middle := low + (high - low) / 2
    if entryBefore e (done.getD middle e) then placeFor e done low middle else placeFor e done (middle + 1) high
  else low
termination_by high - low

/-- Entries in the order of their keys: the longest ordered run at the front, with the others inserted one by one. -/
def arranged (entries : List (Data × Data)) : List (Data × Data) :=
  let descending := runLength true entries
  let run := if 1 < descending then (entries.take descending).reverse else entries.take (runLength false entries)
  let insert := fun (done : Array (Data × Data)) (e : Data × Data) =>
    done.insertIdxIfInBounds (placeFor e done 0 done.size) e
  ((entries.drop run.length).foldl insert run.toArray).toList

/-- Entries in the order of their keys, or as they are if the keys cannot be compared. -/
def inKeyOrder (entries : List (Data × Data)) : List (Data × Data) :=
  if Data.areComparable (entries.map (·.1)) then arranged entries else entries

mutual

/-- The value with the entries of all its maps in the order of their keys. -/
def ordered : Data → Data
  | .list items => .list (orderedItems items)
  | .map entries => .map (inKeyOrder (orderedEntries entries))
  | d => d

/-- The items with ordered maps. -/
def orderedItems : List Data → List Data
  | [] => []
  | d :: rest => ordered d :: orderedItems rest

/-- The entries with ordered values. -/
def orderedEntries : List (Data × Data) → List (Data × Data)
  | [] => []
  | (key, d) :: rest => (key, ordered d) :: orderedEntries rest

end

/-! ## Values -/

mutual

/-- A value below a column. `asValue` tells that it stands behind a key. -/
def putData (below : Nat) (asValue : Bool) (p : Page) : Data → Page
  | .text s => putText p (below + 2) false s
  | .list [] => p.mark ['[', ']'] true false
  | .map [] => p.mark ['\x7b', '\x7d'] true false
  | .list items => putItems (if asValue && !p.fresh then below else below + 2) p items
  | .map entries => putEntries (below + 2) p entries
  | d => putPlain p (below + 2) true (wordOf d)

/-- The items of a list, each behind a hyphen. -/
def putItems (indent : Nat) (p : Page) : List Data → Page
  | [] => p
  | d :: rest => putItems indent (putData indent false ((p.indentTo indent).mark ['-'] true true) d) rest

/-- The entries of a map, each behind its key. -/
def putEntries (indent : Nat) (p : Page) : List (Data × Data) → Page
  | [] => p
  | (key, d) :: rest => putEntries indent (putData indent true (putKeyMark p indent key) d) rest

end

/-- The page with a document on it. -/
def putDocument (p : Page) : Data → Page
  | .list (d :: rest) => putItems 0 p (d :: rest)
  | .map (e :: rest) => putEntries 0 p (e :: rest)
  | d => putData 0 false p d

/-- A plain scalar that is a whole document is followed by an end mark. -/
def needsEnd : Data → Bool
  | .text s => styleOf false s == .plain
  | .list _ | .map _ => false
  | _ => true

/-- The document of a value. -/
def write (d : Data) : String :=
  let p := (putDocument {} (ordered d)).indentTo 0
  (if needsEnd d then p.put "...\n".toList else p).text

end Hyperchess.Yaml
