/-!
# Texts

A text is a list of code points: characters, and halves of surrogate pairs, which an escape can name alone. A half is no
character and has no UTF-8 form, so a text that holds one can be compared and shown, but not be encoded; in the name of
a file some halves stand for bytes that are no text. Main statement: a string as a text has the characters of the string
(`chars_ofString`).
-/

namespace Hyperchess

/-- A character, or half of a surrogate pair. -/
inductive CodePoint where
  | char (c : Char)
  /-- The half whose code is greater than `0xd800` by `n`. -/
  | half (n : Fin 0x800)
  deriving DecidableEq, Repr, Inhabited

namespace CodePoint

instance : Coe Char CodePoint := ⟨char⟩

/-- The code of a code point. -/
def code : CodePoint → Nat
  | char c => c.toNat
  | half n => 0xd800 + n

/-- The code point with a code below `0x110000`. -/
def ofCode (n : Nat) : CodePoint :=
  if h : 0xd800 ≤ n ∧ n < 0xe000 then .half ⟨n - 0xd800, by omega⟩ else .char (Char.ofNat n)

/-- The character that a code point is. -/
def char? : CodePoint → Option Char
  | char c => some c
  | half _ => none

/-- The character that stands for a code point where only characters are looked for: the replacement character, which
is neither a digit nor a blank nor a mark of any kind, for a half. -/
def toChar : CodePoint → Char
  | char c => c
  | half _ => '\ufffd'

end CodePoint

/-- A text. -/
structure Text where
  points : List CodePoint
  deriving DecidableEq, Repr, Inhabited

namespace Text

/-- The text of characters. -/
def ofChars (cs : List Char) : Text := ⟨cs.map .char⟩

/-- A string as a text. -/
def ofString (s : String) : Text := ofChars s.toList

instance : Coe String Text := ⟨ofString⟩

/-- The text without code points. -/
def empty : Text := ⟨[]⟩

/-- The text of one code point. -/
def singleton (p : CodePoint) : Text := ⟨[p]⟩

/-- One text behind another. -/
def append (s t : Text) : Text := ⟨s.points ++ t.points⟩

instance : Append Text := ⟨append⟩

/-- The same code point `n` times. -/
def replicate (n : Nat) (p : CodePoint) : Text := ⟨List.replicate n p⟩

/-- The text behind its first `n` code points. -/
def drop (t : Text) (n : Nat) : Text := ⟨t.points.drop n⟩

/-- The number of code points. -/
def length (t : Text) : Nat := t.points.length

/-- The text has no code points. -/
def isEmpty (t : Text) : Bool := t.points.isEmpty

/-- The characters of a text, with replacement characters for halves. -/
def chars (t : Text) : List Char := t.points.map CodePoint.toChar

/-- A text as a string, with replacement characters for halves. -/
def string (t : Text) : String := String.ofList t.chars

/-- The string that a text is, if it holds no halves. -/
def string? (t : Text) : Option String := (t.points.mapM CodePoint.char?).map String.ofList

/-- The first text comes first: at the first difference it has the smaller code, or it ends. -/
def before (s t : Text) : Bool := decide (s.points.map CodePoint.code < t.points.map CodePoint.code)

/-- Texts one behind another, with a text between any two. -/
def intercalate (gap : Text) (texts : List Text) : Text := ⟨List.intercalate gap.points (texts.map points)⟩

/-- The parts of a text between separators. -/
def splitOn (t : Text) (separator : Char) : List Text := (t.points.splitOn (.char separator)).map Text.mk

/-- The text begins with another one. -/
def startsWith (t front : Text) : Bool := front.points.isPrefixOf t.points

/-- A part of the text is equal to another one. -/
def includes (t part : Text) : Bool :=
  (List.range (t.length + 1)).any fun start => part.points.isPrefixOf (t.points.drop start)

/-! ## Encoding -/

/-- The text has a UTF-8 form. -/
def isEncodable (t : Text) : Bool := t.points.all fun p => p.char?.isSome

/-- The complaint about a text in which not all code points are of a class, as halves are not: where the first halves
stand that have no place in it. -/
def complaintBy (fits : CodePoint → Bool) (t : Text) : String :=
  let start := (t.points.takeWhile fits).length
  let halves := (t.points.drop start).takeWhile fun p => p.char?.isNone
  let place := match halves with
    | [p] => "character '\\u" ++ String.ofList (Nat.toDigits 16 p.code) ++ "' in position " ++ decimal start
    | _ => "characters in position " ++ decimal start ++ "-" ++ decimal (start + halves.length - 1)
  "'utf-8' codec can't encode " ++ place ++ ": surrogates not allowed"
where
  decimal (n : Nat) : String := String.ofList (Nat.toDigits 10 n)

/-- The complaint about a text without a UTF-8 form. -/
def encodingComplaint (t : Text) : String := t.complaintBy fun p => p.char?.isSome

/-! ## Laws -/

@[simp] theorem chars_ofChars (cs : List Char) : (ofChars cs).chars = cs := by
  simp [ofChars, chars, List.map_map, Function.comp_def, CodePoint.toChar]

/-- A string as a text has the characters of the string. -/
@[simp] theorem chars_ofString (s : String) : (ofString s).chars = s.toList := chars_ofChars s.toList

end Text

end Hyperchess
