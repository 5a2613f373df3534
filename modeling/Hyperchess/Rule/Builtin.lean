import Hyperchess.Rule

/-!
# Built-in rules

The rules of rook, bishop, queen, knight, pawn and king on four axes.
-/

namespace Hyperchess.Rule

/-- The direction that has these values on these axes and zero on all others. -/
def direction (values : List (Nat × Int)) : Coord :=
  let axis := fun i => ((values.find? fun v => v.1 == i).map (·.2)).getD 0
  ⟨axis 0, axis 1, axis 2, axis 3⟩

/-- The pairs of different axes. -/
def axisPairs : List (Nat × Nat) := [(0, 1), (0, 2), (0, 3), (1, 2), (1, 3), (2, 3)]

/-- One step along one axis, both ways. -/
def straight : List Coord :=
  [0, 1, 2, 3].flatMap fun axis => [1, -1].map fun sign => direction [(axis, sign)]

/-- One step along each of two axes. -/
def diagonal : List Coord :=
  axisPairs.flatMap fun (a, b) =>
    [1, -1].flatMap fun s => [1, -1].map fun t => direction [(a, s), (b, t)]

/-- Two steps along one axis and one along another. -/
def jumps : List Coord :=
  axisPairs.flatMap fun (a, b) =>
    [1, -1].flatMap fun t => [1, -1].flatMap fun s => [direction [(a, 2 * s), (b, t)], direction [(a, s), (b, 2 * t)]]

/-- Walks in several directions under common terms. -/
def walks (terms : Terms) (directions : List Coord) : Path :=
  .branches terms (directions.map fun d => .leaf {} d)

/-- The terms of pieces that slide. -/
def sliding : Terms := { steps := some (.float .infinity), captures := some 1 }

/-- The terms of pieces that make one step. -/
def stepping : Terms := { steps := some (.int 1), captures := some 1 }

/-- Along one axis, any distance. -/
def rook : Rule := ⟨[walks sliding straight]⟩

/-- Along two axes at once, any distance. -/
def bishop : Rule := ⟨[walks sliding diagonal]⟩

/-- Two along one axis and one along another. -/
def knight : Rule := ⟨[walks stepping jumps]⟩

/-- Rook and bishop together. -/
def queen : Rule := ⟨[.branches {} [.reference "R", .reference "B"]]⟩

/-- The queen's directions, one step. -/
def king : Rule := ⟨[.branches stepping [.reference "Q"]]⟩

/-- The terms of a pawn's step to an empty square. -/
def quiet (conditions : List Condition) : Terms := { captures := some 0, conditions }

/-- The terms of a pawn's diagonal step. -/
def capturing (conditions : List Condition) : Terms := { captures := some 1, conditions }

/-- The steps of the pawns of one team. The square passed by the first double step must be empty. -/
def pawnOf (team forward : Int) : Path :=
  .branches { steps := some (.int 1), conditions := [{ team := some team }] }
    [ .leaf (quiet []) ⟨0, forward, 0, 0⟩,
      .leaf (quiet []) ⟨0, 0, 0, forward⟩,
      .leaf (capturing [{ enemy := some Coord.origin }]) ⟨1, forward, 0, 0⟩,
      .leaf (capturing [{ enemy := some Coord.origin }]) ⟨-1, forward, 0, 0⟩,
      .leaf (quiet [{ flag := some 0 }, { piece := some ⟨0, -forward, 0, 0⟩, inverted := true }])
        ⟨0, 2 * forward, 0, 0⟩,
      .leaf (capturing [{ flag := some 1 }]) ⟨1, forward, 0, 0⟩,
      .leaf (capturing [{ flag := some 2 }]) ⟨-1, forward, 0, 0⟩ ]

/-- A pawn moves up or down the board with its team. -/
def pawn : Rule := ⟨[pawnOf 0 1, pawnOf 1 (-1)]⟩

/-- The built-in rules. -/
def builtin : List (Text × Rule) :=
  [("R", rook), ("B", bishop), ("Q", queen), ("N", knight), ("P", pawn), ("K", king)]

end Hyperchess.Rule
