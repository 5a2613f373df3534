import Hyperchess.Text
import Mathlib.Data.List.Lex

/-!
# The order of texts

Code points are told apart by their codes (`CodePoint.code_injective`), so texts are ordered strictly, and of two texts
one comes before the other (`before_or`).
-/

namespace Hyperchess

theorem CodePoint.code_injective : Function.Injective CodePoint.code := by
  have apart (c : Char) (n : Fin 0x800) : c.toNat ≠ 0xd800 + n := by
    have hvalid : c.toNat < 0xd800 ∨ 0xdfff < c.toNat ∧ c.toNat < 0x110000 := c.valid
    omega
  intro p q h
  cases p with
  | char c =>
    cases q with
    | char d => rw [Char.toNat_inj.1 h]
    | half n => exact absurd h (apart c n)
  | half n =>
    cases q with
    | char c => exact absurd h.symm (apart c n)
    | half m =>
      have hn : (n : Nat) = m := Nat.add_left_cancel h
      rw [Fin.ext hn]

namespace Text

variable {s t u : Text}

/-- The codes of a text. -/
def codes (t : Text) : List Nat := t.points.map CodePoint.code

theorem codes_injective : Function.Injective codes := by
  rintro ⟨p⟩ ⟨q⟩ h
  have hpoints : p = q := List.map_injective_iff.2 CodePoint.code_injective h
  rw [hpoints]

theorem before_iff : s.before t = true ↔ s.codes < t.codes := decide_eq_true_iff

theorem not_before_self (s : Text) : ¬ s.before s = true := by
  rw [before_iff]
  exact lt_irrefl _

theorem before_trans (h : s.before t = true) (k : t.before u = true) : s.before u = true :=
  before_iff.2 (lt_trans (before_iff.1 h) (before_iff.1 k))

/-- Of two texts, one comes before the other. -/
theorem before_or (h : s ≠ t) : s.before t = true ∨ t.before s = true := by
  rw [before_iff, before_iff]
  exact lt_or_gt_of_ne fun e => h (codes_injective e)

end Text

end Hyperchess
