import Hyperchess.Safety
import Hyperchess.Proofs.Board.Undo

/-!
# Trying moves

To judge a move it is played on the board itself and taken back. On a sound board this leaves the very same board
behind, whether the judgement succeeds or not, so judging is a function of the board (`exposes_eq`), and judging several
moves in turn judges each of them on the board from before (`legal_eq`).
-/

namespace Hyperchess.Board

variable {b : Board} {v : Variant} {m : Move} {team : Data}

/-- Whether a move exposes a team: nothing is exposed by a move from an empty square, and any other move is judged by
the board behind it. -/
def exposure (b : Board) (v : Variant) (m : Move) (team : Data) : Except Fault Bool :=
  match b.get m.src with
  | .error e => .error e
  | .ok none => .ok false
  | .ok (some _) =>
    match b.move m with
    | (.error e, _) => .error e
    | (.ok _, b') => b'.royalAttacked v team

/-- The moves among several that do not expose a team. -/
def unexposed (b : Board) (v : Variant) (team : Data) : List Move → Except Fault (List Move)
  | [] => .ok []
  | m :: rest => do
    let exposed ← b.exposure v m team
    let kept ← b.unexposed v team rest
    return if exposed then kept else m :: kept

/-- **Judging a move leaves the board as it was.** -/
theorem exposes_eq (h : b.Sound) (v : Variant) (m : Move) (team : Data) :
    b.exposes v m team = (b.exposure v m team, b) := by
  unfold exposes exposure
  cases hs : b.contains m.src with
  | false => simp [get_eq_error hs]
  | true =>
    rw [get_eq h.toFramed hs]
    cases b.occupant m.src with
    | none => rfl
    | some o =>
      cases hd : b.contains m.dst with
      | false =>
        have hm : ¬(b.contains m.src = true ∧ b.contains m.dst = true) := by simp [hd]
        simp [play_eq_error h.toFramed hm, move_eq_error hm]
      | true => simp [play_eq h hs hd, undo_moved h hs hd, move_eq h hs hd]

/-- **Judging moves in turn judges each of them on the board from before.** -/
theorem legal_eq (h : b.Sound) (v : Variant) (team : Data) (moves : List Move) :
    b.legal v team moves = (b.unexposed v team moves, b) := by
  induction moves with
  | nil => rfl
  | cons m rest ih =>
    rw [legal, exposes_eq h, unexposed]
    cases b.exposure v m team with
    | error e => rfl
    | ok exposed =>
      simp only [ih, Outcome.ok_bind]
      cases b.unexposed v team rest <;> rfl

end Hyperchess.Board
