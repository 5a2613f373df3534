import Hyperchess.Reach
import Hyperchess.Proofs.Outcome

/-!
# Boards that look alike

Two boards resemble each other if they have the same size and, on every square, nothing or pieces of one kind, team and
set of flags. Rules cannot tell such boards apart: conditions, walks, paths and references give the same on both, and so
do the candidate moves of every square (`Resembles.candidates_eq`). Walks depend on less: on the squares that are
occupied and on the teams that stand there (`SameTeams.ray_eq`).
-/

namespace Hyperchess

/-- Two pieces, each on its board, have the same kind, team and flags. -/
structure Piece.Resembles (a b : Board) (p q : Piece) : Prop where
  id : p.id = q.id
  team : p.team = q.team
  flags : ∀ f, (a.flagsOf p).has f = (b.flagsOf q).has f

/-- Two cells are both empty or hold pieces that resemble each other. -/
inductive Occupant.Resembles (a b : Board) : Option Occupant → Option Occupant → Prop
  | none : Resembles a b .none .none
  | piece {p q : Piece} : p.Resembles a b q → Resembles a b (some (.piece p)) (some (.piece q))

/-- Two cells are both empty or hold pieces of one team. -/
inductive Occupant.SameTeam : Option Occupant → Option Occupant → Prop
  | none : SameTeam .none .none
  | piece {p q : Piece} : p.team = q.team → SameTeam (some (.piece p)) (some (.piece q))

theorem Occupant.Resembles.sameTeam {a b : Board} {x y : Option Occupant} (h : Occupant.Resembles a b x y) :
    Occupant.SameTeam x y := by
  cases h with
  | none => exact .none
  | piece hp => exact .piece hp.team

/-- Two boards have the same size and resemble each other on every square. -/
structure Board.Resembles (a b : Board) : Prop where
  size : a.size = b.size
  cells : ∀ {c : Coord}, a.contains c = true →
    ∃ x y, a.cell c = .ok x ∧ b.cell c = .ok y ∧ Occupant.Resembles a b x y

namespace Standing

/-- Pieces that resemble each other stand on one square of boards that resemble each other. -/
structure Resembles (s t : Standing) : Prop where
  board : s.board.Resembles t.board
  piece : s.piece.Resembles s.board t.board t.piece
  square : s.square = t.square
  room : s.room = t.room

/-- Pieces of one team stand on one square of boards of one size, on which the same squares are occupied by the same
teams. -/
structure SameTeams (s t : Standing) : Prop where
  size : s.board.size = t.board.size
  cells : ∀ {c : Coord}, s.board.contains c = true →
    ∃ x y, s.board.cell c = .ok x ∧ t.board.cell c = .ok y ∧ Occupant.SameTeam x y
  team : s.piece.team = t.piece.team
  square : s.square = t.square

variable {s t : Standing}

theorem Resembles.contains_eq (h : s.Resembles t) (c : Coord) : s.board.contains c = t.board.contains c := by
  simp only [Board.contains, h.board.size]

/-! ## Conditions -/

theorem Resembles.piecePasses_eq (h : s.Resembles t) (base : Coord) (c : Condition) :
    s.piecePasses base c = t.piecePasses base c := by
  unfold piecePasses
  cases c.piece with
  | none => rfl
  | some offset =>
    simp only [← h.contains_eq]
    split
    · rename_i hc
      obtain ⟨x, y, hx, hy, hxy⟩ := h.board.cells hc
      rw [hx, hy]
      cases hxy <;> rfl
    · rfl

theorem Resembles.enemyPasses_eq (h : s.Resembles t) (base : Coord) (c : Condition) :
    s.enemyPasses base c = t.enemyPasses base c := by
  unfold enemyPasses
  cases c.enemy with
  | none => rfl
  | some offset =>
    simp only [← h.contains_eq]
    split
    · rename_i hc
      obtain ⟨x, y, hx, hy, hxy⟩ := h.board.cells hc
      rw [hx, hy]
      cases hxy with
      | none => rfl
      | piece hp => simp [Occupant.asPiece, hp.team, h.piece.team]
    · rfl

theorem Resembles.passes_eq (h : s.Resembles t) (base : Coord) (c : Condition) :
    s.passes base c = t.passes base c := by
  have hteam : s.teamPasses c = t.teamPasses c := by simp only [teamPasses, h.piece.team]
  have hflag : s.flagPasses c = t.flagPasses c := by simp only [flagPasses, h.piece.flags]
  simp only [passes, hteam, hflag, h.piecePasses_eq, h.enemyPasses_eq]

theorem Resembles.allHold_eq (h : s.Resembles t) (base : Coord) (cs : List Condition) :
    s.allHold base cs = t.allHold base cs := by
  induction cs with
  | nil => rfl
  | cons c rest ih => simp only [allHold, h.passes_eq, ih]

/-! ## Walks -/

theorem SameTeams.walk_eq (h : s.SameTeams t) (direction : Coord) (capture : Bool) (n : Nat) (here : Coord) :
    s.walk direction capture n here = t.walk direction capture n here := by
  have hcontains (c : Coord) : s.board.contains c = t.board.contains c := by simp only [Board.contains, h.size]
  induction n generalizing here with
  | zero => rfl
  | succ n ih =>
    simp only [walk, ← hcontains]
    split
    · rename_i hc
      obtain ⟨x, y, hx, hy, hxy⟩ := h.cells hc
      rw [hx, hy]
      cases hxy with
      | none => simp [ih]
      | piece hp => simp [Occupant.asPiece, hp, h.team]
    · rfl

theorem SameTeams.ray_eq (h : s.SameTeams t) (direction : Coord) (budget : Budget) :
    s.ray direction budget = t.ray direction budget := by
  have hsteps (limit : Number) : s.stepsWithin limit = t.stepsWithin limit := by
    simp only [stepsWithin, Board.span, h.size]
  simp only [ray, hsteps, h.walk_eq, h.square]

theorem Resembles.sameTeams (h : s.Resembles t) : s.SameTeams t where
  size := h.board.size
  cells hc := by
    obtain ⟨x, y, hx, hy, hxy⟩ := h.board.cells hc
    exact ⟨x, y, hx, hy, hxy.sameTeam⟩
  team := h.piece.team
  square := h.square

/-! ## Paths -/

theorem Resembles.checkDepth_eq (h : s.Resembles t) (depth : Nat) : s.checkDepth depth = t.checkDepth depth := by
  simp only [checkDepth, h.room]

section Paths

variable (follow : (depth : Nat) → Text → Budget → Except Fault (List Move))

mutual

theorem Resembles.pathMoves_eq (h : s.Resembles t) (depth : Nat) (path : Path) (budget : Budget) :
    s.pathMoves follow depth path budget = t.pathMoves follow depth path budget := by
  cases path with
  | reference id => simp only [pathMoves, h.checkDepth_eq]
  | leaf terms direction => simp only [pathMoves, h.checkDepth_eq, h.square, h.allHold_eq, h.sameTeams.ray_eq]
  | branches terms below =>
    simp only [pathMoves, h.checkDepth_eq, h.square, h.allHold_eq,
      h.pathsMoves_eq (depth + 1) below (budget.within terms)]
  | bare terms => simp only [pathMoves, h.checkDepth_eq, h.square, h.allHold_eq]

theorem Resembles.pathsMoves_eq (h : s.Resembles t) (depth : Nat) (paths : List Path) (budget : Budget) :
    s.pathsMoves follow depth paths budget = t.pathsMoves follow depth paths budget := by
  cases paths with
  | nil => simp only [pathsMoves]
  | cons path rest => simp only [pathsMoves, h.pathMoves_eq depth path budget, h.pathsMoves_eq depth rest budget]

end

end Paths

theorem Resembles.follow_eq (h : s.Resembles t) (book : RuleBook) (fuel : Nat) (entered : List Text) :
    s.follow book fuel entered = t.follow book fuel entered := by
  induction fuel generalizing entered with
  | zero =>
    funext depth id budget
    rfl
  | succ fuel ih =>
    funext depth id budget
    simp only [follow, ih, h.pathsMoves_eq]

end Standing

/-! ## Candidates -/

/-- **Rules cannot tell boards apart that look alike.** -/
theorem Board.Resembles.candidates_eq_of_contains {a b : Board} (h : a.Resembles b) (book : RuleBook) {square : Coord}
    (hc : a.contains square = true) : a.candidates book square = b.candidates book square := by
  have hc' : b.contains square = true := by simpa only [Board.contains, h.size] using hc
  obtain ⟨x, y, hx, hy, hxy⟩ := h.cells hc
  simp only [Board.candidates, Board.get, Board.check, hc, hc', if_true, Outcome.ok_bind, hx, hy]
  cases hxy with
  | none => rfl
  | @piece p q hp =>
    have hs : Standing.Resembles ⟨a, p, square, book.room⟩ ⟨b, q, square, book.room⟩ := ⟨h, hp, rfl, rfl⟩
    simp only [Occupant.asPiece, Outcome.ok_bind, hp.id, hs.follow_eq, hs.pathsMoves_eq]

/-- A square that is not on the boards gets the same report, if both write the same integers. -/
theorem Board.Resembles.candidates_eq {a b : Board} (h : a.Resembles b) (hdigits : a.digits = b.digits)
    (book : RuleBook) (square : Coord) : a.candidates book square = b.candidates book square := by
  cases hc : a.contains square with
  | true => exact h.candidates_eq_of_contains book hc
  | false =>
    have hc' : b.contains square = false := by simpa only [Board.contains, h.size] using hc
    have hfault : a.edgeFaultAt square = b.edgeFaultAt square := by simp only [Board.edgeFaultAt, h.size, hdigits]
    simp only [Board.candidates, Board.get, Board.check, hc, hc', Bool.false_eq_true, if_false, Outcome.error_bind,
      hfault]

end Hyperchess
