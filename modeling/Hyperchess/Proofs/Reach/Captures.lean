import Hyperchess.Proofs.Reach.Supply

/-!
# What candidate moves may do

Whatever rules a book has, a candidate move leads from the square of its piece to another square of the board, passes
nothing that is written down, and ends on an empty square or takes a piece of another team (`candidates_enter`). So no
rule lets a piece stay where it is or take a piece of its own team.
-/

namespace Hyperchess.Board

variable {b : Board} {book : RuleBook} {c d : Coord} {m : Move} {o : Option Occupant}

/-- A move between two different squares takes what stands on the second one. -/
theorem Populated.move_captures (h : b.Populated) (hs : b.contains m.src = true) (hd : b.get m.dst = .ok o)
    (hne : m.dst ≠ m.src) : (b.move m).1 = .ok o := by
  obtain ⟨hin, rfl⟩ := (get_eq_ok_iff h.toFramed).1 hd
  rw [h.move_eq hs hin, occupant_placed h.toFramed hs hin, if_neg hne]

/-- **What candidate moves may do.** Whatever the rules, a candidate move leads from the square of a piece to another
square of the board, which is empty or holds a piece of another team; and a piece on it, royal or not, is what the move
takes. -/
theorem candidates_enter (h : b.Populated) {found : List Move} (hfound : b.candidates book c = .ok found)
    (hm : m ∈ found) : ∃ p, b.get c = .ok (some (.piece p)) ∧
      m.src = c ∧ m.via = none ∧ m.dst ≠ c ∧ b.contains m.dst = true ∧
      (b.get m.dst = .ok none ∨ ∃ q, b.get m.dst = .ok (some (.piece q)) ∧ q.team.same p.team = false) ∧
      ∀ q, b.get m.dst = .ok (some (.piece q)) → q.team.same p.team = false ∧ (b.move m).1 = .ok (some (.piece q)) := by
  obtain ⟨p, hp, d, rfl, henters⟩ := entered_of_mem_candidates h hfound hm
  have hin : b.contains d = true := henters.contains
  have hoccupied : b.get d = .ok none ∨ ∃ q, b.get d = .ok (some (.piece q)) ∧ q.team.same p.team = false :=
    henters.imp_right fun ⟨_, henemy⟩ => henemy
  have hother (q : Piece) (hq : b.get d = .ok (some (.piece q))) : q.team.same p.team = false := by
    obtain hempty | ⟨q', hq', hteam⟩ := hoccupied
    · cases hempty.symm.trans hq
    · cases hq'.symm.trans hq
      exact hteam
  have hne : d ≠ c := by
    rintro rfl
    have hself := hother p hp
    rw [Data.same_self] at hself
    cases hself
  exact ⟨p, hp, rfl, rfl, hne, hin, hoccupied, fun q hq =>
    ⟨hother q hq, h.move_captures (contains_of_get hp).1 hq hne⟩⟩

/-- A rule with a direction that leads nowhere, without end, and a reference to a rule that leads along a row: the piece
takes a king at the end of the row, and does not stay where it is. -/
theorem candidates_enter_king :
    let piece : Coord × Piece := (⟨0, 0, 0, 0⟩, ⟨0, .text "A", .int 0⟩)
    let king : Coord × Piece := (⟨2, 0, 0, 0⟩, ⟨1, .text "K", .int 1⟩)
    let endless : Terms := { steps := some (.float (.infinite false)), captures := some 1 }
    let book : RuleBook := { custom := [("A", ⟨[.branches endless [.leaf {} .origin, .reference "B"]]⟩),
      ("B", ⟨[.leaf {} ⟨1, 0, 0, 0⟩]⟩)] }
    let reach (x : Int) : Move := ⟨piece.1, ⟨x, 0, 0, 0⟩, none⟩
    ∃ b, arranged ⟨4, 1, 1, 1⟩ #[[], []] [piece, king] = .ok b ∧
      b.candidates book piece.1 = .ok [reach 1, reach 2] ∧
      ∃ p, b.get piece.1 = .ok (some (.piece p)) ∧ king.2.team.same p.team = false ∧ (reach 2).dst ≠ piece.1 ∧
        (b.move (reach 2)).1 = .ok (some (.piece king.2)) := by
  intro piece king endless book reach
  obtain ⟨b, hb, hking, hfound⟩ : ∃ b, arranged ⟨4, 1, 1, 1⟩ #[[], []] [piece, king] = .ok b ∧
      b.get king.1 = .ok (some (.piece king.2)) ∧ b.candidates book piece.1 = .ok [reach 1, reach 2] :=
    ⟨_, rfl, rfl, by decide +kernel⟩
  have hsound : b.Sound := arranged_sound hb (by simp [piece, king, contains, arranged_size hb])
  obtain ⟨p, hp, -, -, hne, -, -, htakes⟩ := candidates_enter hsound.populated hfound (m := reach 2) (by simp)
  obtain ⟨hteam, hmove⟩ := htakes king.2 hking
  exact ⟨b, hb, hfound, p, hp, hteam, hne, hmove⟩

end Hyperchess.Board
