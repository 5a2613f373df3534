import Hyperchess.Error

/-!
# Writing JSON

Plain data as JSON, either on one line (`compact`) or with one item a line, indented by two spaces (`indented`).
Characters beyond ASCII are written as they are. An indented document is written piece by piece: at a point in time, at
a text that cannot be encoded, or at an integer with too many digits the writing stops, and what is in front of it
remains.
-/

namespace Hyperchess.Json

/-- One character inside quotes. -/
def escaped (c : Char) : List Char :=
  if c = '"' ∨ c = '\\' then ['\\', c]
  else if c = '\n' then ['\\', 'n']
  else if c = '\r' then ['\\', 'r']
  else if c = '\t' then ['\\', 't']
  else if c = '\x08' then ['\\', 'b']
  else if c = '\x0c' then ['\\', 'f']
  else if c.toNat < 0x20 then '\\' :: 'u' :: Text.hex 4 c.toNat
  else [c]

/-- One code point inside quotes, a half of a pair as an escape. -/
def fullyEscaped : CodePoint → List Char
  | .char c => escaped c
  | .half n => '\\' :: 'u' :: Text.hex 4 (CodePoint.half n).code

/-- One code point inside quotes, a half of a pair as it is. -/
def barelyEscaped : CodePoint → List CodePoint
  | .char c => (escaped c).map .char
  | p => [p]

/-- A text between quotes. -/
def quote (t : Text) : Text := ⟨.char '"' :: (t.points.flatMap barelyEscaped ++ [.char '"'])⟩

/-- A text between quotes, always encodable. -/
def fullQuote (t : Text) : String :=
  String.ofList ('"' :: (t.points.flatMap fullyEscaped ++ ['"']))

/-- The layout of floating point numbers, with the words that the reader accepts. -/
def floatFormat : Binary64.DecimalFormat := ⟨-4, 16, 2, "NaN", "Infinity"⟩

/-- A key as a text; what is no text is written as it would be as a value. -/
def keyText : Data → Text
  | .text s => s
  | .null => "null"
  | .bool b => if b then "true" else "false"
  | .int n => Integer.text n
  | .float x => x.toText floatFormat
  | d => d.display

/-! ## On one line -/

mutual

/-- A value on one line; a point in time as its text. -/
def compact : Data → String
  | .null => "null"
  | .bool b => if b then "true" else "false"
  | .int n => Integer.text n
  | .float x => x.toText floatFormat
  | .text s => fullQuote s
  | .time t => fullQuote t.text
  | .list items => "[" ++ ", ".intercalate (compactItems items) ++ "]"
  | .map entries => "\x7b" ++ ", ".intercalate (compactEntries entries) ++ "\x7d"

/-- The items of a list. -/
def compactItems : List Data → List String
  | [] => []
  | x :: rest => compact x :: compactItems rest

/-- The entries of a map. -/
def compactEntries : List (Data × Data) → List String
  | [] => []
  | (k, x) :: rest => (fullQuote (keyText k) ++ ": " ++ compact x) :: compactEntries rest

end

/-! ## With one item a line -/

/-- Text that has been written, and why the writing stopped, if it did. -/
structure Written where
  text : String
  fault : Option Fault := none
  deriving Repr

namespace Written

/-- A piece of text; nothing of a piece is written if it cannot be encoded. -/
def piece (t : Text) : Written :=
  match t.string? with
  | some s => ⟨s, none⟩
  | none => ⟨"", some (.notEncodable t.encodingComplaint)⟩

/-- The writing stops. -/
def stop (e : Fault) : Written := ⟨"", some e⟩

/-- More text, unless the writing has stopped. -/
def append (a b : Written) : Written := if a.fault.isSome then a else ⟨a.text ++ b.text, b.fault⟩

instance : Append Written := ⟨append⟩

end Written

/-- A new line at a depth. -/
def newline (depth : Nat) : String := "\n" ++ String.ofList (List.replicate (2 * depth) ' ')

mutual

/-- A value at a depth. What is in `front` belongs to the first piece. -/
def indentedAt (depth : Nat) (front : Text) : Data → Written
  | .list [] => .piece (front ++ "[]")
  | .map [] => .piece (front ++ "\x7b\x7d")
  | .list items =>
    .piece front ++ indentedItems (depth + 1) "[" items ++ .piece (newline depth ++ "]")
  | .map entries =>
    .piece (front ++ "\x7b" ++ newline (depth + 1)) ++ indentedEntries (depth + 1) "" entries ++
      .piece (newline depth ++ "\x7d")
  | .time _ => .piece front ++ .stop .wrongType
  | .null => .piece (front ++ "null")
  | .bool b => .piece (front ++ (if b then "true" else "false" : String))
  | .int n => if Integer.isWritable n then .piece (front ++ Integer.text n) else .stop .tooManyDigits
  | .float x => .piece (front ++ x.toText floatFormat)
  | .text s => .piece (front ++ quote s)

/-- The items of a list at a depth, the first one behind `mark` and the others behind commas. -/
def indentedItems (depth : Nat) (mark : Text) : List Data → Written
  | [] => .piece ""
  | x :: rest => indentedAt depth (mark ++ newline depth) x ++ indentedItems depth "," rest

/-- The entries of a map at a depth, the first one behind `gap` and the others behind commas. -/
def indentedEntries (depth : Nat) (gap : Text) : List (Data × Data) → Written
  | [] => .piece ""
  | (.time _, _) :: _ => .stop .wrongType
  | (k, x) :: rest =>
    if !k.isWritable then .stop .tooManyDigits
    else .piece gap ++ .piece (quote (keyText k)) ++ .piece ": " ++ indentedAt depth "" x ++
      indentedEntries depth ("," ++ newline depth) rest

end

/-- A document with one item a line. -/
def indented (d : Data) : Written := indentedAt 0 "" d

end Hyperchess.Json
