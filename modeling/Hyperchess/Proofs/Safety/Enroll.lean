import Hyperchess.Proofs.Board.Arrangement
import Hyperchess.Proofs.Reach.Likeness
import Hyperchess.Proofs.Safety.Trial

/-!
# New pieces change no judgement

Making a piece adds its flags to those that a board keeps and nothing else. On a board that keeps the flags of all its
pieces this makes no difference to what any of them can do (`candidates_enroll`), and it can be done before or after a
move (`moved_enroll`), so it makes no difference to the judgement of moves either (`unexposed_enroll`).
-/

namespace Hyperchess.Board

variable {b : Board} {d : Design} {m : Move}

@[simp] theorem enroll_index (b : Board) (d : Design) : (b.enroll d).2.index = b.index := rfl
@[simp] theorem enroll_contains (b : Board) (d : Design) (c : Coord) : (b.enroll d).2.contains c = b.contains c := rfl
@[simp] theorem enroll_occupant (b : Board) (d : Design) (c : Coord) : (b.enroll d).2.occupant c = b.occupant c := rfl
@[simp] theorem enroll_get (b : Board) (d : Design) (c : Coord) : (b.enroll d).2.get c = b.get c := rfl

theorem Sound.enroll (h : b.Sound) (d : Design) : (b.enroll d).2.Sound := h.congr rfl rfl rfl

theorem Enrolled.enroll (h : b.Enrolled) (d : Design) : (b.enroll d).2.Enrolled := by
  intro c p hp
  have hlt := h (c := c) (p := p) hp
  simp only [Board.enroll, Array.size_push]
  omega

/-- The flags of the pieces made before stay. -/
theorem flagsOf_enroll {p : Piece} (hp : p.serial < b.flags.size) (d : Design) :
    (b.enroll d).2.flagsOf p = b.flagsOf p := by
  have hne : p.serial ≠ b.flags.size := by omega
  simp [Board.enroll, flagsOf, Array.getElem?_push, hne]

/-! ## Candidates -/

theorem resembles_enroll (h : b.Sound) (he : b.Enrolled) (d : Design) : (b.enroll d).2.Resembles b where
  size := rfl
  cells {c} hc := by
    rw [enroll_contains] at hc
    refine ⟨b.occupant c, b.occupant c, cell_eq (h.enroll d).toFramed hc, cell_eq h.toFramed hc, ?_⟩
    obtain ⟨p, hp⟩ := h.occupant_eq hc
    rw [hp]
    cases p with
    | none => exact .none
    | some p =>
      have hlt : p.serial < b.flags.size := he ((get_eq_ok_iff h.toFramed).2 ⟨hc, hp⟩)
      exact .piece ⟨rfl, rfl, fun f => by rw [flagsOf_enroll hlt]⟩

/-- A new piece makes no difference to what the others can do. -/
theorem candidates_enroll (h : b.Sound) (he : b.Enrolled) (d : Design) (book : RuleBook) (c : Coord) :
    (b.enroll d).2.candidates book c = b.candidates book c :=
  (resembles_enroll h he d).candidates_eq rfl book c

theorem teamCandidates_enroll (h : b.Sound) (he : b.Enrolled) (d : Design) (book : RuleBook) (team : Data) :
    (b.enroll d).2.teamCandidates book team = b.teamCandidates book team := by
  unfold teamCandidates
  rw [enroll_index]
  induction b.index with
  | nil => rfl
  | cons e rest ih => simp only [candidatesFrom, candidates_enroll h he, ih]

/-! ## Judgements -/

theorem attacked_enroll (h : b.Sound) (he : b.Enrolled) (d : Design) (v : Variant) (team : Data) (squares : List Coord)
    (others : List Data) : (b.enroll d).2.attacked v team squares others = b.attacked v team squares others := by
  induction others with
  | nil => rfl
  | cons other rest ih => simp only [attacked, teamCandidates_enroll h he, ih]

theorem royalAttacked_enroll (h : b.Sound) (he : b.Enrolled) (d : Design) (v : Variant) (team : Data) :
    (b.enroll d).2.royalAttacked v team = b.royalAttacked v team := by
  simp only [royalAttacked, squaresOf, teams, enroll_index, attacked_enroll h he]

/-- A piece can be made before or after a move. -/
theorem moved_enroll (h : b.Sound) (he : b.Enrolled) (d : Design) (hs : b.contains m.src = true) :
    (b.enroll d).2.moved m = ((b.moved m).enroll d).2 := by
  obtain ⟨p, hp⟩ := h.occupant_eq hs
  cases p with
  | none =>
    simp only [moved, enroll_occupant, hp, Option.map_none, settled]
    rfl
  | some p =>
    have hlt : p.serial < b.flags.size := he ((get_eq_ok_iff h.toFramed).2 ⟨hs, hp⟩)
    have hflags := flagsOf_enroll hlt d
    simp only [moved, enroll_occupant, hp, Option.map_some, settled]
    refine Board.ext rfl rfl rfl ?_ rfl
    show ((b.flags.push d.flags).setIfInBounds p.serial (((b.enroll d).2.flagsOf p).without Flags.firstMove)) =
      (b.flags.setIfInBounds p.serial ((b.flagsOf p).without Flags.firstMove)).push d.flags
    rw [hflags, Array.setIfInBounds, dif_pos (by simp; omega), Array.setIfInBounds, dif_pos hlt, Array.set_push,
      dif_pos hlt]

/-- A new piece makes no difference to the judgement of a move. -/
theorem exposure_enroll (h : b.Sound) (he : b.Enrolled) (d : Design) (v : Variant) (m : Move) (team : Data) :
    (b.enroll d).2.exposure v m team = b.exposure v m team := by
  unfold exposure
  rw [enroll_get]
  by_cases hm : b.contains m.src = true ∧ b.contains m.dst = true
  · rw [move_eq h hm.1 hm.2, move_eq (h.enroll d) hm.1 hm.2, moved_enroll h he d hm.1]
    simp only [royalAttacked_enroll (h.moved hm.1 hm.2) (he.moved h hm.1 hm.2)]
  · rw [move_eq_error hm, move_eq_error (b := (b.enroll d).2) hm]
    rfl

theorem unexposed_enroll (h : b.Sound) (he : b.Enrolled) (d : Design) (v : Variant) (team : Data) (moves : List Move) :
    (b.enroll d).2.unexposed v team moves = b.unexposed v team moves := by
  induction moves with
  | nil => rfl
  | cons m rest ih => simp only [unexposed, exposure_enroll h he, ih]

end Hyperchess.Board
