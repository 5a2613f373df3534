import Hyperchess.Number
import Mathlib.Algebra.Order.Ring.Int

/-!
# Counting up to a number

An integer is below a number exactly if it is below its ceiling (`lt_iff_lt_ceil`), and below positive infinity in any
case, so counting while the count is below a number that is at least one ends at the ceiling, or not at all.
-/

namespace Hyperchess.Number

variable {x : Number} {n : Int}

theorem unitsPerOne_pos : (0 : Int) < Binary64.unitsPerOne := by
  have h : 0 < Binary64.unitsPerOne := by decide +kernel
  exact_mod_cast h

/-- The ceiling of a quotient: what is below it, is below the quotient. -/
theorem lt_neg_fdiv_neg {k u v : Int} (hv : 0 < v) : k < -((-u).fdiv v) ↔ k * v < u := by
  rw [Int.fdiv_eq_ediv_of_nonneg _ hv.le]
  have h : -u / v < -k ↔ -u < -k * v := Int.ediv_lt_iff_lt_mul hv
  rw [Int.neg_mul] at h
  omega

/-- An integer is below a number exactly if it is below its ceiling. -/
theorem lt_iff_lt_ceil (h : x.ceil? = some n) (k : Int) : (Number.int k).lt x = true ↔ k < n := by
  cases x with
  | int m =>
    cases h
    simp [lt]
  | float y =>
    obtain ⟨u, hu, rfl⟩ := Option.map_eq_some_iff.1 h
    cases y with
    | nan => cases hu
    | infinite negative => cases hu
    | finite negative m e =>
      rw [lt_neg_fdiv_neg unitsPerOne_pos]
      simp [lt, extent?, hu, Extent.lt]

/-- A number without a ceiling that is at least one is above every integer. -/
theorem lt_of_ceil_eq_none (h : x.ceil? = none) (hx : x.ge (.int 1) = true) (k : Int) :
    (Number.int k).lt x = true := by
  cases x with
  | int m => cases h
  | float y =>
    cases y with
    | nan => simp [ge, extent?] at hx
    | infinite negative =>
      cases negative with
      | true => simp [ge, extent?, Extent.lt] at hx
      | false => rfl
    | finite negative m e => simp [ceil?, Binary64.units?] at h

end Hyperchess.Number
