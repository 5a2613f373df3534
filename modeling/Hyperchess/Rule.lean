import Hyperchess.Move

/-!
# Rules

How a kind of piece moves is a rule: a list of paths. A path is a tree whose leaves are directions to walk in. Every
node has terms: conditions under which it counts, and limits on steps and captures that hold for what is below it. A
path may also refer to the whole rule of another kind.
-/

namespace Hyperchess

/-- What has to hold for a node to count. All tests that are set must pass; an inverted condition counts when they do
not. The offsets are taken from the square that the node leads to in one step. -/
structure Condition where
  /-- The moving piece is of this team. -/
  team : Option Int := none
  /-- The moving piece has this flag. -/
  flag : Option Int := none
  /-- A piece stands at this offset. -/
  piece : Option Coord := none
  /-- A piece of another team stands at this offset. -/
  enemy : Option Coord := none
  inverted : Bool := false
  deriving DecidableEq, Repr, Inhabited

/-- The terms of a node. -/
structure Terms where
  /-- The largest number of steps; a number below one sets no limit. -/
  steps : Option Number := none
  /-- The largest number of captures; a negative number sets no limit. -/
  captures : Option Int := none
  conditions : List Condition := []
  deriving DecidableEq, Repr, Inhabited

/-- A node of a rule. -/
inductive Path where
  /-- A walk in one direction. -/
  | leaf (terms : Terms) (direction : Coord)
  /-- Everything that the nodes below lead to. -/
  | branches (terms : Terms) (below : List Path)
  /-- A node that leads nowhere. -/
  | bare (terms : Terms)
  /-- The whole rule of another kind. -/
  | reference (id : Text)
  deriving Repr, Inhabited

/-- The rule of a kind of piece. -/
structure Rule where
  roots : List Path
  deriving Repr, Inhabited

end Hyperchess
