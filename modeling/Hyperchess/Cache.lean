import Hyperchess.Move
import Hyperchess.Journal

/-!
# The cache of legal moves

Lists of legal moves by the text of their square. A disabled cache keeps nothing and counts nothing.
-/

namespace Hyperchess

/-- A cache and how often it was of use. -/
structure Cache where
  enabled : Bool
  entries : List (String × List Move) := []
  hits : Nat := 0
  misses : Nat := 0
  deriving DecidableEq, Repr, Inhabited

namespace Cache

/-- The moves kept for a square. -/
def find? (c : Cache) (square : Coord) : Option (List Move) :=
  (c.entries.find? fun e => e.1 == square.text).map (·.2)

/-- Moves are kept for the square. -/
def contains (c : Cache) (square : Coord) : Bool := (c.find? square).isSome

/-- The number of squares with moves kept. -/
def size (c : Cache) : Nat := c.entries.length

/-- The moves kept for a square, with the count of hits and misses. -/
def get (c : Cache) (square : Coord) : Option (List Move) × Cache :=
  if c.enabled then
    match c.find? square with
    | some moves => (some moves, { c with hits := c.hits + 1 })
    | none => (none, { c with misses := c.misses + 1 })
  else (none, c)

/-- Moves under a key in place of those kept. -/
def assign (entries : List (String × List Move)) (key : String) (moves : List Move) : List (String × List Move) :=
  match entries with
  | [] => [(key, moves)]
  | e :: rest => if e.1 = key then (key, moves) :: rest else e :: assign rest key moves

/-- Keeps moves for a square. -/
def store (c : Cache) (square : Coord) (moves : List Move) : Cache :=
  if c.enabled then { c with entries := assign c.entries square.text moves } else c

/-- Keeps nothing any more. -/
def clear (c : Cache) : Cache := { c with entries := [] }

/-- What clearing reports. -/
def clearEntries (c : Cache) : List Entry :=
  if c.entries.isEmpty then []
  else [Reporter.cache.entry .debug ("清空走法缓存 (" ++ Integer.text c.size ++ " 项)")]

end Cache

end Hyperchess
