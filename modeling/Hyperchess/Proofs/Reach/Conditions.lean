import Hyperchess.Reach
import Hyperchess.Proofs.Board.Cells

/-!
# What conditions say

A condition is a conjunction: every test that it sets has to succeed, and a test for something at an offset fails beyond
the edge of the board (`Fulfils`). Inversion concerns one condition as a whole (`Meets`). On a board with nothing but
pieces, testing conditions always gives an answer, and it is this one (`allHold_eq`).
-/

namespace Hyperchess.Standing

variable {s : Standing} {base : Coord} {c : Condition}

/-- All tests that the condition sets succeed. -/
structure Fulfils (s : Standing) (base : Coord) (c : Condition) : Prop where
  team : ∀ t ∈ c.team, s.piece.team.same (.int t) = true
  flag : ∀ f ∈ c.flag, (s.board.flagsOf s.piece).has (.int f) = true
  piece : ∀ offset ∈ c.piece, (s.board.pieceAt (base + offset)).isSome
  enemy : ∀ offset ∈ c.enemy, ∃ q ∈ s.board.pieceAt (base + offset), q.team.same s.piece.team = false

theorem fulfils_iff : s.Fulfils base c ↔
    (∀ t ∈ c.team, s.piece.team.same (.int t) = true) ∧
    (∀ f ∈ c.flag, (s.board.flagsOf s.piece).has (.int f) = true) ∧
    (∀ offset ∈ c.piece, (s.board.pieceAt (base + offset)).isSome) ∧
    (∀ offset ∈ c.enemy, ∃ q ∈ s.board.pieceAt (base + offset), q.team.same s.piece.team = false) :=
  ⟨fun ⟨ht, hf, hp, he⟩ => ⟨ht, hf, hp, he⟩, fun ⟨ht, hf, hp, he⟩ => ⟨ht, hf, hp, he⟩⟩

instance : Decidable (s.Fulfils base c) := decidable_of_iff _ fulfils_iff.symm

/-- The condition counts: its tests succeed, or they do not all succeed if it is inverted. -/
def Meets (s : Standing) (base : Coord) (c : Condition) : Prop :=
  if c.inverted then ¬s.Fulfils base c else s.Fulfils base c

instance : Decidable (s.Meets base c) :=
  inferInstanceAs (Decidable (if c.inverted then ¬s.Fulfils base c else s.Fulfils base c))

/-! ## Tests -/

theorem teamPasses_iff : s.teamPasses c = true ↔ ∀ t ∈ c.team, s.piece.team.same (.int t) = true := by
  unfold teamPasses
  cases c.team <;> simp

theorem flagPasses_iff : s.flagPasses c = true ↔ ∀ f ∈ c.flag, (s.board.flagsOf s.piece).has (.int f) = true := by
  unfold flagPasses
  cases c.flag <;> simp

theorem piecePasses_spec (h : s.board.Populated) (base : Coord) (c : Condition) : ∃ r, s.piecePasses base c = .ok r ∧
    (r = true ↔ ∀ offset ∈ c.piece, (s.board.pieceAt (base + offset)).isSome) := by
  unfold piecePasses
  cases c.piece with
  | none => exact ⟨true, rfl, by simp⟩
  | some offset =>
    dsimp only
    cases hd : s.board.contains (base + offset) with
    | false => exact ⟨false, rfl, by simp [Board.pieceAt_eq_none hd]⟩
    | true =>
      refine ⟨(s.board.pieceAt (base + offset)).isSome, ?_, by simp⟩
      simp [h.cell_eq hd]

theorem enemyPasses_spec (h : s.board.Populated) (base : Coord) (c : Condition) : ∃ r, s.enemyPasses base c = .ok r ∧
    (r = true ↔ ∀ offset ∈ c.enemy, ∃ q ∈ s.board.pieceAt (base + offset), q.team.same s.piece.team = false) := by
  unfold enemyPasses
  cases c.enemy with
  | none => exact ⟨true, rfl, by simp⟩
  | some offset =>
    dsimp only
    cases hd : s.board.contains (base + offset) with
    | false => exact ⟨false, rfl, by simp [Board.pieceAt_eq_none hd]⟩
    | true =>
      rw [h.cell_eq hd]
      cases hq : s.board.pieceAt (base + offset) with
      | none => exact ⟨false, by simp, by simp [hq]⟩
      | some q => exact ⟨!q.team.same s.piece.team, by simp [Occupant.asPiece], by simp [hq]⟩

/-! ## Conditions -/

theorem passes_spec (h : s.board.Populated) (base : Coord) (c : Condition) :
    ∃ r, s.passes base c = .ok r ∧ (r = true ↔ s.Fulfils base c) := by
  obtain ⟨rp, hp, hpiece⟩ := piecePasses_spec h base c
  obtain ⟨re, he, henemy⟩ := enemyPasses_spec h base c
  refine ⟨s.teamPasses c && s.flagPasses c && rp && re, ?_, ?_⟩
  · unfold passes
    rw [hp, he]
    cases s.teamPasses c <;> cases s.flagPasses c <;> cases rp <;> rfl
  · rw [fulfils_iff, ← teamPasses_iff, ← flagPasses_iff, ← hpiece, ← henemy]
    simp only [Bool.and_eq_true, and_assoc]

/-- **Testing conditions gives an answer**: whether each of them counts. -/
theorem allHold_eq (h : s.board.Populated) (base : Coord) (cs : List Condition) :
    s.allHold base cs = .ok (decide (∀ c ∈ cs, s.Meets base c)) := by
  induction cs with
  | nil => rfl
  | cons c rest ih =>
    obtain ⟨p, hp, hfulfils⟩ := passes_spec h base c
    have hmeets : (p != c.inverted) = true ↔ s.Meets base c := by
      unfold Meets
      rw [← hfulfils]
      cases p <;> cases c.inverted <;> simp
    rw [allHold, hp, ih, Outcome.ok_bind]
    simp only [List.forall_mem_cons, ← hmeets]
    cases p != c.inverted <;> simp

end Hyperchess.Standing
