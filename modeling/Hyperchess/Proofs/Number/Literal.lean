import Hyperchess.Proofs.Coord.Text
import Mathlib.Algebra.Order.Ring.Nat
import Mathlib.Algebra.Order.Ring.Int

/-!
# Integers and their literals

What is written for an integer is read as that integer, as long as a literal may have that many digits
(`parse?_literal`), and no other integers are read from any literal (`isWritable_of_parse?`).
-/

namespace Hyperchess

namespace Text

theorem trim_eq_self {α : Type} {blank : α → Bool} {cs : List α} (h : ∀ c ∈ cs, blank c = false) :
    trim blank cs = cs := by
  have hdrop (ds : List α) (hds : ∀ c ∈ ds, blank c = false) : ds.dropWhile blank = ds := by
    cases ds with
    | nil => rfl
    | cons d rest => rw [List.dropWhile_cons_of_neg (by simp [hds d List.mem_cons_self])]
  rw [trim, trimEnd, hdrop cs h, hdrop cs.reverse fun c hc => h c (List.mem_reverse.1 hc), List.reverse_reverse]

theorem bounds_of_isDigit {c : Char} (h : c.isDigit = true) : 48 ≤ c.toNat ∧ c.toNat ≤ 57 := by
  simp only [Char.isDigit, ge_iff_le, Bool.and_eq_true, decide_eq_true_eq] at h
  exact ⟨h.1, h.2⟩

theorem digitValue?_of_isDigit {c : Char} (h : c.isDigit = true) : digitValue? c = some (c.toNat - 48) := by
  have hbounds := bounds_of_isDigit h
  rw [digitValue?, if_pos (by omega), if_pos h]

theorem isBlank_of_isDigit {c : Char} (h : c.isDigit = true) : isBlank c = false := by
  have hbounds := bounds_of_isDigit h
  simp only [isBlank, Bool.or_eq_false_iff, Bool.and_eq_false_iff, decide_eq_false_iff_not, beq_eq_false_iff_ne]
  omega

end Text

namespace Integer

variable {cs : List Char} {n : Int}

/-! ## Reading what was written -/

theorem isWritable_iff : isWritable n = true ↔ n.natAbs < 10 ^ digitLimit := by
  rw [isWritable, isWithin, Option.all_some, decide_eq_true_eq, Nat.pow_eq]

/-- An integer that is no larger than a literal is within every limit that allows literals. -/
theorem isWithin_of_le {n' : Int} {limit : Option Nat} (hlimit : ∀ most ∈ limit, digitLimit ≤ most)
    (hwritable : isWritable n' = true) (hle : n.natAbs ≤ n'.natAbs) : isWithin limit n = true := by
  rw [isWritable_iff] at hwritable
  cases limit with
  | none => rfl
  | some most =>
    have hpow : 10 ^ digitLimit ≤ 10 ^ most := Nat.pow_le_pow_right (by decide) (hlimit most rfl)
    rw [isWithin, Option.all_some, decide_eq_true_eq, Nat.pow_eq]
    omega

theorem digits?_eq (hcs : cs ≠ []) (h : ∀ c ∈ cs, c.isDigit = true) :
    digits? cs = some (cs.map fun c => c.toNat - 48) := by
  fun_induction digits? cs with
  | case1 => exact absurd rfl hcs
  | case2 c => simp [Text.digitValue?_of_isDigit (h c List.mem_cons_self)]
  | case3 c d rest ih1 ih2 =>
    obtain ⟨hc, hrest⟩ := List.forall_mem_cons.1 h
    have hd : d ≠ '_' := by
      rintro rfl
      exact absurd (hrest _ List.mem_cons_self) (by decide)
    simp only [hd, if_false, ih2 (List.cons_ne_nil _ _) hrest, Text.digitValue?_of_isDigit hc]
    rfl

theorem ofDigits_eq (cs : List Char) : ofDigits (cs.map fun c => c.toNat - 48) = Nat.ofDigitChars 10 cs 0 := by
  rw [ofDigits, List.foldl_map]
  rfl

theorem natural?_toDigits {m : Nat} (h : m < 10 ^ digitLimit) : natural? (Nat.toDigits 10 m) = some m := by
  have hdigits := digits?_eq (Nat.toDigits_ne_nil (n := m) (b := 10)) fun c hc => isDigit_of_mem_toDigits hc
  have hlength : (Nat.toDigits 10 m).length ≤ digitLimit :=
    (Nat.length_toDigits_le_iff (by decide) (by decide)).2 h
  rw [natural?, hdigits]
  simp [hlength, ofDigits_eq]

theorem not_isBlank_of_mem_literal {c : Char} (hc : c ∈ literal n) : Text.isBlank c = false := by
  obtain rfl | hc := eq_minus_or_isDigit_of_mem_literal hc
  · decide
  · exact Text.isBlank_of_isDigit hc

/-- **What is written for an integer is read as that integer**, as long as a literal may have that many digits. -/
theorem parse?_literal (h : isWritable n = true) : parse? (literal n) = some n := by
  have hnumber (c : Char) (hc : c ∈ literal n) : Text.isNumberBlank c = false := by
    simp [Text.isNumberBlank, not_isBlank_of_mem_literal hc]
  have hm : natural? (Nat.toDigits 10 n.natAbs) = some n.natAbs := natural?_toDigits (isWritable_iff.1 h)
  rw [parse?, Text.trim_eq_self hnumber, literal]
  split
  · rw [signed?, hm]
    show some (-(n.natAbs : Int)) = some n
    rw [Option.some.injEq]
    omega
  · -- a digit is no sign
    have hsigned : signed? (Nat.toDigits 10 n.natAbs) = (natural? (Nat.toDigits 10 n.natAbs)).map Int.ofNat := by
      unfold signed?
      split
      · rename_i rest heq
        exact absurd heq (toDigits_ne_minus _ _)
      · rename_i rest heq
        have hplus : ('+' : Char).isDigit = true := isDigit_of_mem_toDigits (heq ▸ List.mem_cons_self)
        exact absurd hplus (by decide)
      · rfl
    rw [hsigned, hm]
    simp only [Option.map_some, Option.some.injEq, Int.ofNat_eq_natCast]
    omega

/-! ## What can be read -/

theorem lt_of_mem_digits? {values : List Nat} (h : digits? cs = some values) : ∀ v ∈ values, v < 10 := by
  fun_induction digits? cs generalizing values with
  | case1 => cases h
  | case2 c =>
    obtain ⟨v, hv, rfl⟩ := Option.map_eq_some_iff.1 h
    simpa using Text.digitValue?_lt hv
  | case3 c d rest ih1 ih2 =>
    obtain ⟨v, hv, h⟩ := Option.bind_eq_some_iff.1 h
    split at h
    · obtain ⟨more, hmore, h⟩ := Option.bind_eq_some_iff.1 h
      cases h
      exact List.forall_mem_cons.2 ⟨Text.digitValue?_lt hv, ih1 hmore⟩
    · obtain ⟨more, hmore, h⟩ := Option.bind_eq_some_iff.1 h
      cases h
      exact List.forall_mem_cons.2 ⟨Text.digitValue?_lt hv, ih2 hmore⟩

theorem foldl_digits_lt (values : List Nat) (h : ∀ v ∈ values, v < 10) (start : Nat) :
    values.foldl (fun n d => 10 * n + d) start < (start + 1) * 10 ^ values.length := by
  induction values generalizing start with
  | nil => simp
  | cons v rest ih =>
    obtain ⟨hv, hrest⟩ := List.forall_mem_cons.1 h
    calc rest.foldl (fun n d => 10 * n + d) (10 * start + v)
        < (10 * start + v + 1) * 10 ^ rest.length := ih hrest _
      _ ≤ ((start + 1) * 10) * 10 ^ rest.length := Nat.mul_le_mul_right _ (by omega)
      _ = (start + 1) * 10 ^ (v :: rest).length := by rw [List.length_cons, Nat.pow_succ', Nat.mul_assoc]

theorem natural?_lt {m : Nat} (h : natural? cs = some m) : m < 10 ^ digitLimit := by
  obtain ⟨values, hvalues, h⟩ := Option.bind_eq_some_iff.1 h
  split at h
  · rename_i hlength
    cases h
    have hlt := foldl_digits_lt values (lt_of_mem_digits? hvalues) 0
    rw [Nat.zero_add, Nat.one_mul] at hlt
    exact hlt.trans_le (Nat.pow_le_pow_right (by decide) hlength)
  · cases h

/-- No integer is read that has more digits than a literal may have. -/
theorem isWritable_of_parse? (h : parse? cs = some n) : isWritable n = true := by
  rw [isWritable_iff]
  unfold parse? signed? at h
  split at h
  · obtain ⟨k, hk, rfl⟩ := Option.map_eq_some_iff.1 h
    obtain ⟨m, hm, hk⟩ := Option.bind_eq_some_iff.1 hk
    cases hk
    simpa using natural?_lt hm
  · obtain ⟨m, hm, rfl⟩ := Option.map_eq_some_iff.1 h
    simpa using natural?_lt hm
  · obtain ⟨m, hm, rfl⟩ := Option.map_eq_some_iff.1 h
    simpa using natural?_lt hm

end Integer

end Hyperchess
