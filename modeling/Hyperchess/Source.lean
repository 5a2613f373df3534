/-!
# Sources

A source is a text that is read from bytes. It is read in blocks, and a block is there as a whole or not at all: bytes
that are not UTF-8, or characters that the reader does not allow, take away the block that they are in and everything
behind it. Every line end is read as one line feed.
-/

namespace Hyperchess

/-- A text that is read. -/
structure Source where
  chars : List Char
  /-- There are no further bytes, which cannot be read. -/
  isWhole : Bool := true
  deriving Repr, Inhabited

namespace Source

/-- The place where the block begins that the character at a place is in. Blocks have 4096 characters, and the first two
are read at once. -/
def blockStart (index : Nat) : Nat := if index < 8192 then 0 else index - index % 4096

/-- Every line end as one line feed. -/
def plainLines : List Char → List Char
  | [] => []
  | '\r' :: '\n' :: rest => '\n' :: plainLines rest
  | '\r' :: rest => '\n' :: plainLines rest
  | c :: rest => c :: plainLines rest

/-- The characters of bytes from a place on, behind those already found, and the place where there are no more. -/
def leading (bytes : ByteArray) : (fuel place : Nat) → (found : Array Char) → Array Char × Nat
  | 0, place, found => (found, place)
  | fuel + 1, place, found =>
    match bytes.utf8DecodeChar? place with
    | some c => leading bytes fuel (place + c.utf8Size) (found.push c)
    | none => (found, place)

/-- The characters of bytes as far as they are UTF-8, and the place of the first byte that is not. -/
def front (bytes : ByteArray) : Array Char × Nat := leading bytes bytes.size 0 #[]

/-- The characters in the whole blocks of 8192 bytes in front of the first byte that is not UTF-8. -/
def intact (bytes : ByteArray) : List Char :=
  let place := (front bytes).2
  plainLines (front (bytes.extract 0 (place - place % 8192))).1.toList

/-- The text that is read from bytes. -/
def ofBytes (bytes : ByteArray) : Source :=
  match String.fromUTF8? bytes with
  | some s => ⟨plainLines s.toList, true⟩
  | none => ⟨(intact bytes).take (blockStart (intact bytes).length), false⟩

/-- The blocks in front of the first character that is not of a class, and whether that is everything. -/
def blocksOf (p : Char → Bool) (cs : List Char) : List Char × Bool :=
  let good := (cs.takeWhile p).length
  if good = cs.length then (cs, true) else (cs.take (blockStart good), false)

end Source

end Hyperchess
