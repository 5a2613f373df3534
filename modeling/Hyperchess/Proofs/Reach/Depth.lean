import Hyperchess.Reach
import Hyperchess.Proofs.Outcome

/-!
# Limits on nesting

A limit on how deeply an evaluation may be nested never changes what is found. Either the evaluation reports that it is
nested too deeply, or it gives what it gives without a limit (`Board.candidates_eq_or_tooDeep`).
-/

namespace Hyperchess

/-- The first outcome is the second one, or reports that an evaluation is nested too deeply. -/
def OrTooDeep {α : Type} (x y : Except Fault α) : Prop := x = .error .tooDeep ∨ x = y

namespace OrTooDeep

variable {α β : Type} {x y : Except Fault α} {f g : α → Except Fault β}

theorem refl (x : Except Fault α) : OrTooDeep x x := .inr rfl

theorem bind (h : OrTooDeep x y) (hfg : ∀ a, OrTooDeep (f a) (g a)) : OrTooDeep (x >>= f) (y >>= g) := by
  obtain rfl | rfl := h
  · exact .inl rfl
  · cases x with
    | error e => exact .refl _
    | ok a => exact hfg a

end OrTooDeep

/-- The same rules without a limit on nesting. -/
def RuleBook.unlimited (book : RuleBook) : RuleBook := { book with room := none }

namespace Standing

/-- The same piece on the same square, without a limit on nesting. -/
def unlimited (s : Standing) : Standing := { s with room := none }

variable (s : Standing)

/-! ## Conditions and walks -/

theorem allHold_unlimited (base : Coord) (cs : List Condition) : s.unlimited.allHold base cs = s.allHold base cs := by
  induction cs with
  | nil => rfl
  | cons c rest ih =>
    rw [allHold, allHold, ih]
    rfl

theorem walk_unlimited (direction : Coord) (capture : Bool) (n : Nat) (here : Coord) :
    s.unlimited.walk direction capture n here = s.walk direction capture n here := by
  induction n generalizing here with
  | zero => rfl
  | succ n ih =>
    rw [walk, walk, ih]
    rfl

theorem ray_unlimited (direction : Coord) (budget : Budget) :
    s.unlimited.ray direction budget = s.ray direction budget := by
  unfold ray
  simp only [walk_unlimited]
  rfl

/-! ## Paths -/

theorem checkDepth_orTooDeep (depth : Nat) : OrTooDeep (s.checkDepth depth) (s.unlimited.checkDepth depth) := by
  rw [checkDepth_of_room_eq_none (s := s.unlimited) rfl]
  unfold checkDepth
  split
  · exact .refl _
  · exact .inl rfl

section Paths

variable {f g : (depth : Nat) → Text → Budget → Except Fault (List Move)}

mutual

theorem pathMoves_orTooDeep (hfg : ∀ depth id budget, OrTooDeep (f depth id budget) (g depth id budget)) (depth : Nat)
    (path : Path) (budget : Budget) :
    OrTooDeep (s.pathMoves f depth path budget) (s.unlimited.pathMoves g depth path budget) := by
  cases path with
  | reference id =>
    unfold pathMoves
    exact (s.checkDepth_orTooDeep depth).bind fun _ => hfg _ _ _
  | leaf terms direction =>
    unfold pathMoves
    rw [allHold_unlimited, ray_unlimited]
    exact (s.checkDepth_orTooDeep _).bind fun _ => .refl _
  | branches terms below =>
    unfold pathMoves
    rw [allHold_unlimited]
    refine (s.checkDepth_orTooDeep depth).bind fun _ => (OrTooDeep.refl _).bind fun holds => ?_
    split
    · exact pathsMoves_orTooDeep hfg (depth + 1) below (budget.within terms)
    · exact .refl _
  | bare terms =>
    unfold pathMoves
    rw [allHold_unlimited]
    exact (s.checkDepth_orTooDeep depth).bind fun _ => .refl _

theorem pathsMoves_orTooDeep (hfg : ∀ depth id budget, OrTooDeep (f depth id budget) (g depth id budget)) (depth : Nat)
    (paths : List Path) (budget : Budget) :
    OrTooDeep (s.pathsMoves f depth paths budget) (s.unlimited.pathsMoves g depth paths budget) := by
  cases paths with
  | nil => simpa only [pathsMoves] using .refl _
  | cons path rest =>
    unfold pathsMoves
    exact (pathMoves_orTooDeep hfg depth path budget).bind fun _ =>
      (pathsMoves_orTooDeep hfg depth rest budget).bind fun _ => .refl _

end

end Paths

theorem follow_orTooDeep (book : RuleBook) (fuel : Nat) (entered : List Text) (depth : Nat) (id : Text)
    (budget : Budget) : OrTooDeep (s.follow book fuel entered depth id budget)
      (s.unlimited.follow book.unlimited fuel entered depth id budget) := by
  induction fuel generalizing entered depth id budget with
  | zero => exact .refl _
  | succ fuel ih =>
    unfold follow
    split
    · exact .refl _
    · exact (OrTooDeep.refl _).bind fun rule => s.pathsMoves_orTooDeep (ih (id :: entered)) depth rule.roots budget

/-- A limit that a book sets is not seen by the references. -/
theorem follow_unlimited (book : RuleBook) (fuel : Nat) (entered : List Text) :
    s.follow book.unlimited fuel entered = s.follow book fuel entered := by
  induction fuel generalizing entered with
  | zero => rfl
  | succ fuel ih =>
    funext depth id budget
    rw [follow, follow, ih]
    rfl

end Standing

/-! ## Candidates -/

theorem Board.candidates_orTooDeep (b : Board) (book : RuleBook) (square : Coord) :
    OrTooDeep (b.candidates book square) (b.candidates book.unlimited square) := by
  unfold candidates
  refine (OrTooDeep.refl _).bind fun o => ?_
  cases o with
  | none => exact .refl _
  | some o =>
    refine (OrTooDeep.refl _).bind fun piece => (OrTooDeep.refl _).bind fun rule => ?_
    exact Standing.pathsMoves_orTooDeep _ (Standing.follow_orTooDeep _ book _ _) 0 rule.roots {}

/-- **A limit on nesting changes nothing but that it may be reported.** -/
theorem Board.candidates_eq_or_tooDeep (b : Board) (book : RuleBook) (square : Coord) :
    b.candidates book square = b.candidates book.unlimited square ∨
      book.room ≠ none ∧ b.candidates book square = .error .tooDeep := by
  by_cases hroom : book.room = none
  · have hsame : book = book.unlimited := by rw [RuleBook.unlimited, ← hroom]
    exact .inl (congrArg (b.candidates · square) hsame)
  · obtain hdeep | heq := b.candidates_orTooDeep book square
    · exact .inr ⟨hroom, hdeep⟩
    · exact .inl heq

end Hyperchess
