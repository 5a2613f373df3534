import Hyperchess.Text

/-!
# Names of files

The name of a file is a sequence of bytes. As a text it is read as UTF-8, and a byte that is no part of a character is
the half of a pair that stands for it, so that every name is a text.
-/

namespace Hyperchess

namespace CodePoint

/-- The byte that a half stands for: those with codes from `0xdc80` to `0xdcff` stand for the bytes from `0x80` on. -/
def byte? : CodePoint → Option UInt8
  | char _ => none
  | half n => if 0x480 ≤ n.val ∧ n.val < 0x500 then some (n.val - 0x400).toUInt8 else none

/-- The half that stands for a byte of a name. -/
def ofByte (b : UInt8) : CodePoint := ofCode (0xdc00 + b.toNat)

end CodePoint

namespace Text

/-- The code point has a place in the name of a file. -/
def isInName (p : CodePoint) : Bool := p.char?.isSome || p.byte?.isSome

/-- The bytes of a name; halves that have no place in one are left out. -/
def nameBytes (t : Text) : ByteArray :=
  t.points.foldl (fun bytes p =>
    match p with
    | .char c => bytes ++ (String.singleton c).toUTF8
    | .half n => (CodePoint.half n).byte?.elim bytes bytes.push) .empty

/-- The code points of the name with these bytes from a place on: bytes that are no text are halves. -/
def pointsOfBytes (bytes : ByteArray) : (fuel place : Nat) → List CodePoint
  | 0, _ => []
  | fuel + 1, place =>
    match bytes.utf8DecodeChar? place, bytes[place]? with
    | some c, _ => .char c :: pointsOfBytes bytes fuel (place + c.utf8Size)
    | none, some b => .ofByte b :: pointsOfBytes bytes fuel (place + 1)
    | none, none => []

/-- A name as it is read again: halves that together are the bytes of a character are that character. A text that is no
name is left as it is. -/
def asName (t : Text) : Text :=
  if t.isEncodable || !t.points.all isInName then t
  else ⟨pointsOfBytes t.nameBytes t.nameBytes.size 0⟩

end Text

end Hyperchess
