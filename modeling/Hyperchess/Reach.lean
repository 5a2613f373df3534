import Hyperchess.Board
import Hyperchess.Rule.Book

/-!
# Candidate moves

What a piece may do by its rule alone, without regard to the safety of its king. A path is evaluated from the root to
the leaves: its conditions are tested, the limits set furthest outside hold, and a leaf is walked as far as they allow.
A reference to a kind that is already being evaluated leads nowhere, so the evaluation ends; a book may also limit how
deeply it is nested.
-/

namespace Hyperchess

/-- The limits set so far on the way from the root. -/
structure Budget where
  steps : Option Number := none
  captures : Option Int := none
  deriving DecidableEq, Repr, Inhabited

/-- The limits below a node: what is set outside is kept. -/
def Budget.within (outer : Budget) (terms : Terms) : Budget where
  steps := outer.steps <|> terms.steps.filter fun n => n.ge (.int 1)
  captures := outer.captures <|> terms.captures.filter fun n => 0 ≤ n

/-- A piece on a square of a board. -/
structure Standing where
  board : Board
  piece : Piece
  square : Coord
  /-- How deeply an evaluation may be nested, if there is a limit. -/
  room : Option Nat := none

namespace Standing

variable (s : Standing)

/-! ## Conditions -/

/-- The moving piece's team passes the test. -/
def teamPasses (c : Condition) : Bool :=
  match c.team with
  | none => true
  | some t => s.piece.team.same (.int t)

/-- The moving piece's flags pass the test. -/
def flagPasses (c : Condition) : Bool :=
  match c.flag with
  | none => true
  | some f => (s.board.flagsOf s.piece).has (.int f)

/-- Something stands at the offset, if one is given. -/
def piecePasses (base : Coord) (c : Condition) : Except Fault Bool :=
  match c.piece with
  | none => .ok true
  | some offset =>
    if s.board.contains (base + offset) then do return (← s.board.cell (base + offset)).isSome
    else .ok false

/-- A piece of another team stands at the offset, if one is given. -/
def enemyPasses (base : Coord) (c : Condition) : Except Fault Bool :=
  match c.enemy with
  | none => .ok true
  | some offset =>
    if s.board.contains (base + offset) then do
      match ← s.board.cell (base + offset) with
      | none => return false
      | some o => return !(← o.asPiece).team.same s.piece.team
    else .ok false

/-- All tests of a condition pass. The tests are made in this order, up to the first that fails. -/
def passes (base : Coord) (c : Condition) : Except Fault Bool := do
  if !s.teamPasses c then return false
  if !s.flagPasses c then return false
  if !(← s.piecePasses base c) then return false
  s.enemyPasses base c

/-- All conditions hold, each after its inversion. -/
def allHold (base : Coord) : List Condition → Except Fault Bool
  | [] => .ok true
  | c :: rest => do
    if (← s.passes base c) != c.inverted then allHold base rest else return false

/-! ## Walks -/

/-- The squares reached by at most `n` steps in a direction: empty squares, and at the end a square with a piece of
another team if captures are allowed. -/
def walk (direction : Coord) (capture : Bool) : (n : Nat) → Coord → Except Fault (List Coord)
  | 0, _ => .ok []
  | n + 1, here => do
    let next := here + direction
    if s.board.contains next then
      match ← s.board.cell next with
      | none => return next :: (← walk direction capture n next)
      | some o =>
        let other ← o.asPiece
        return if !other.team.same s.piece.team && capture then [next] else []
    else return []

/-- The number of steps worth trying: a walk leaves the board or meets its own piece within one step more than the
largest extent. -/
def stepsWithin (limit : Number) : Nat :=
  match limit.ceil? with
  | some n => min n.toNat (s.board.span + 1)
  | none => s.board.span + 1

/-- The moves along a direction; none unless both limits are set. -/
def ray (direction : Coord) (budget : Budget) : Except Fault (List Move) :=
  match budget.steps, budget.captures with
  | some steps, some captures => do
    let squares ← s.walk direction (0 < captures) (s.stepsWithin steps) s.square
    return squares.map fun c => ⟨s.square, c, none⟩
  | _, _ => .ok []

/-! ## Paths -/

/-- Refuses an evaluation that is nested too deeply. -/
def checkDepth (depth : Nat) : Except Fault Unit :=
  if s.room.all (depth ≤ ·) then .ok () else .error .tooDeep

/-- Without a limit no evaluation is nested too deeply. -/
theorem checkDepth_of_room_eq_none {s : Standing} (h : s.room = none) (depth : Nat) : s.checkDepth depth = .ok () := by
  simp [checkDepth, h]

mutual

/-- The moves of a path at a depth, with `follow` giving those of references. A walk is five levels deeper than its
leaf, and a rule two levels deeper than the reference to it. -/
def pathMoves (follow : (depth : Nat) → Text → Budget → Except Fault (List Move)) :
    (depth : Nat) → Path → Budget → Except Fault (List Move)
  | depth, .reference id, budget => do
    s.checkDepth depth
    follow (depth + 2) id budget
  | depth, .leaf terms direction, budget => do
    s.checkDepth (depth + 5)
    if ← s.allHold (s.square + direction) terms.conditions then s.ray direction (budget.within terms)
    else return []
  | depth, .branches terms below, budget => do
    s.checkDepth depth
    if ← s.allHold s.square terms.conditions then pathsMoves follow (depth + 1) below (budget.within terms)
    else return []
  | depth, .bare terms, _ => do
    s.checkDepth depth
    let _ ← s.allHold s.square terms.conditions
    return []

/-- The moves of several paths at a depth, one after the other. -/
def pathsMoves (follow : (depth : Nat) → Text → Budget → Except Fault (List Move)) :
    (depth : Nat) → List Path → Budget → Except Fault (List Move)
  | _, [], _ => .ok []
  | depth, p :: rest, budget => do
    let moves ← pathMoves follow depth p budget
    return moves ++ (← pathsMoves follow depth rest budget)

end

/-- The moves of the rule of a kind that is referred to, while the rules of the kinds `entered` are being evaluated. The
fuel bounds the depth of references; as many as the book has kinds are enough, since no kind is entered twice. -/
def follow (book : RuleBook) :
    (fuel : Nat) → (entered : List Text) → (depth : Nat) → Text → Budget → Except Fault (List Move)
  | 0, _, _, _, _ => .ok []
  | fuel + 1, entered, depth, id, budget =>
    if entered.contains id then .ok []
    else do
      let rule ← book.get id
      s.pathsMoves (follow book fuel (id :: entered)) depth rule.roots budget

end Standing

/-- The candidate moves of what stands on a square. -/
def Board.candidates (b : Board) (book : RuleBook) (square : Coord) : Except Fault (List Move) := do
  match ← b.get square with
  | none => return []
  | some o =>
    let piece ← o.asPiece
    let rule ← book.getFor piece.id
    let s : Standing := ⟨b, piece, square, book.room⟩
    s.pathsMoves (s.follow book book.ids.length [piece.id.display]) 0 rule.roots {}

/-- The candidate moves from these squares, one square after the other. -/
def Board.candidatesFrom (b : Board) (book : RuleBook) (team : Data) :
    List (Coord × Occupant) → Except Fault (List Move)
  | [] => .ok []
  | e :: rest => do
    let piece ← e.2.asPiece
    let moves ← if piece.team.same team then b.candidates book e.1 else pure []
    return moves ++ (← b.candidatesFrom book team rest)

/-- The candidate moves of a team, in the order of the index. -/
def Board.teamCandidates (b : Board) (book : RuleBook) (team : Data) : Except Fault (List Move) :=
  b.candidatesFrom book team b.index

end Hyperchess
