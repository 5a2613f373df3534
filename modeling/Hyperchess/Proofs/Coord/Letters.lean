import Hyperchess.Coord
import Mathlib.Algebra.Order.Ring.Nat

/-!
# Letters of numbers

The letters of a number are those of its 26th part, less one, if it has one, with the letter of its remainder behind
them (`letterChars_eq`); the fuel is always enough. They are small letters (`isLower_of_mem_letterChars`), at least one
(`letterChars_ne_nil`). Read as digits from one to 26 they give the number that follows (`ordinal_letterChars`), so no
two numbers have the same letters (`letterChars_injective`).
-/

namespace Hyperchess.Coord

/-- The last letter of a number. -/
def lastLetter (n : Nat) : Char := Char.ofNat (97 + n % 26)

theorem toNat_lastLetter (n : Nat) : (lastLetter n).toNat = 97 + n % 26 := by
  have hvalid : Nat.isValidChar (97 + n % 26) := .inl (by omega)
  have hchar : lastLetter n = Char.ofNatAux (97 + n % 26) hvalid := dif_pos hvalid
  rw [hchar]
  rfl

theorem isLower_iff {c : Char} : c.isLower = true ↔ 97 ≤ c.toNat ∧ c.toNat ≤ 122 := by
  show (decide _ && decide _) = true ↔ _
  rw [Bool.and_eq_true, decide_eq_true_eq, decide_eq_true_eq]
  exact Iff.rfl

theorem isLower_lastLetter (n : Nat) : (lastLetter n).isLower = true := by
  rw [isLower_iff, toNat_lastLetter]
  omega

/-! ## One letter more -/

theorem lettersFrom_succ (fuel n : Nat) (behind : List Char) :
    lettersFrom (fuel + 1) n behind =
      if 26 ≤ n then lettersFrom fuel (n / 26 - 1 : Nat) (lastLetter n :: behind) else lastLetter n :: behind := by
  have hdigit : ((n : Int) % 26).toNat = n % 26 := by omega
  have hfront : ((n : Int) - n % 26) / 26 = (n / 26 : Nat) := by omega
  rw [lettersFrom, hdigit, hfront]
  by_cases h : 26 ≤ n
  · have hpred : ((n / 26 : Nat) : Int) - 1 = (n / 26 - 1 : Nat) := by omega
    rw [if_pos h, if_pos (by omega), hpred]
    rfl
  · rw [if_neg h, if_neg (by omega)]
    rfl

theorem lettersFrom_eq_append (fuel n : Nat) (behind : List Char) :
    lettersFrom fuel n behind = lettersFrom fuel n [] ++ behind := by
  induction fuel generalizing n behind with
  | zero => rfl
  | succ fuel ih =>
    rw [lettersFrom_succ, lettersFrom_succ]
    split
    · rw [ih, ih _ [lastLetter n], List.append_assoc, List.singleton_append]
    · rfl

/-- Whatever fuel is enough gives the same letters. -/
theorem lettersFrom_congr {fuel fuel' n : Nat} (h : n < 2 ^ (fuel + 1)) (h' : n < 2 ^ (fuel' + 1)) :
    lettersFrom (fuel + 1) n [] = lettersFrom (fuel' + 1) n [] := by
  induction fuel generalizing fuel' n with
  | zero =>
    have hsmall : ¬ 26 ≤ n := by omega
    rw [lettersFrom_succ, lettersFrom_succ, if_neg hsmall, if_neg hsmall]
  | succ fuel ih =>
    rw [lettersFrom_succ, lettersFrom_succ fuel']
    by_cases hn : 26 ≤ n
    · cases fuel' with
      | zero => omega
      | succ fuel' =>
        have hfront : lettersFrom (fuel + 1) (n / 26 - 1 : Nat) [] = lettersFrom (fuel' + 1) (n / 26 - 1 : Nat) [] :=
          ih (by omega) (by omega)
        rw [if_pos hn, if_pos hn, lettersFrom_eq_append, hfront, ← lettersFrom_eq_append]
    · rw [if_neg hn, if_neg hn]

theorem letterChars_natCast (n : Nat) : letterChars n = lettersFrom (n.log2 + 1) n [] := by
  rw [letterChars, Int.natAbs_natCast]

/-- **The letters of a number**: those of its 26th part, less one, and the letter of its remainder. -/
theorem letterChars_eq (n : Nat) :
    letterChars n = (if 26 ≤ n then letterChars (n / 26 - 1 : Nat) else []) ++ [lastLetter n] := by
  rw [letterChars_natCast, lettersFrom_succ]
  split
  · rename_i hn
    have hlog : n < 2 ^ (n.log2 + 1) := Nat.lt_log2_self
    obtain ⟨fuel, hfuel⟩ : ∃ fuel, n.log2 = fuel + 1 := Nat.exists_eq_succ_of_ne_zero fun hzero => by
      rw [hzero] at hlog
      omega
    rw [hfuel] at hlog ⊢
    have hless : n / 26 - 1 < 2 ^ (fuel + 1) := by omega
    rw [lettersFrom_eq_append, letterChars_natCast, lettersFrom_congr hless Nat.lt_log2_self]
  · rfl

theorem letterChars_ne_nil (n : Nat) : letterChars n ≠ [] := by
  rw [letterChars_eq]
  simp

theorem isLower_of_mem_letterChars {n : Nat} {c : Char} (h : c ∈ letterChars n) : c.isLower = true := by
  induction n using Nat.strong_induction_on with
  | _ n ih =>
    rw [letterChars_eq, List.mem_append, List.mem_singleton] at h
    rcases h with h | rfl
    · split at h
      · exact ih _ (by omega) h
      · exact absurd h List.not_mem_nil
    · exact isLower_lastLetter n

/-! ## Letters as digits -/

/-- The number that letters stand for if `a` is one and `z` is 26. -/
def ordinal (cs : List Char) : Nat := cs.foldl (fun n c => 26 * n + (c.toNat - 96)) 0

theorem ordinal_append_singleton (cs : List Char) (c : Char) :
    ordinal (cs ++ [c]) = 26 * ordinal cs + (c.toNat - 96) := by
  rw [ordinal, List.foldl_append]
  rfl

/-- **The letters of a number stand for the number that follows.** -/
theorem ordinal_letterChars (n : Nat) : ordinal (letterChars n) = n + 1 := by
  induction n using Nat.strong_induction_on with
  | _ n ih =>
    rw [letterChars_eq, ordinal_append_singleton, toNat_lastLetter]
    split
    · rw [ih _ (by omega)]
      omega
    · rw [ordinal, List.foldl_nil]
      omega

/-- **No two numbers have the same letters.** -/
theorem letterChars_injective {m n : Nat} (h : letterChars m = letterChars n) : m = n := by
  have hm := ordinal_letterChars m
  rw [h, ordinal_letterChars] at hm
  omega

end Hyperchess.Coord
