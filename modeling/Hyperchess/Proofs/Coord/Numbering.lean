import Hyperchess.Proofs.Coord.Letters
import Hyperchess.Proofs.Outcome
import Mathlib.Data.List.Induction
import Mathlib.Data.List.Shortlex
import Mathlib.Tactic.Ring

/-!
# Letters number the columns

Any small letters, one at least, are the letters of exactly one number (`letterChars_ordinal`). Shorter letters stand
for smaller numbers, and of letters of the same length those that come first in the alphabet (`ordinal_lt_of_shortlex`):
the numbers that `k` letters stand for fill a range, which begins where that of `k - 1` letters ends (`pow_le_ordinal`,
`ordinal_le_pow`). Main statement: `letters_bijective`.
-/

namespace Hyperchess.Coord

/-- Small letters, one at least. -/
structure IsNumeral (cs : List Char) : Prop where
  ne_nil : cs ≠ []
  isLower : ∀ c ∈ cs, c.isLower = true

variable {c : Char} {cs ds : List Char}

theorem isNumeral_letterChars (n : Nat) : IsNumeral (letterChars n) where
  ne_nil := letterChars_ne_nil n
  isLower _ := isLower_of_mem_letterChars

/-! ## The numbers of letters -/

theorem ordinal_cons (c : Char) (cs : List Char) :
    ordinal (c :: cs) = (c.toNat - 96) * 26 ^ cs.length + ordinal cs := by
  induction cs using List.reverseRecOn with
  | nil => simp [ordinal]
  | append_singleton cs d ih =>
    rw [← List.cons_append, ordinal_append_singleton, ordinal_append_singleton, ih, List.length_append,
      List.length_singleton, Nat.pow_succ]
    ring

/-- The least number of so many letters: all of them are `a`. -/
theorem pow_le_ordinal (h : ∀ c ∈ cs, c.isLower = true) : 26 ^ cs.length ≤ 25 * ordinal cs + 1 := by
  induction cs using List.reverseRecOn with
  | nil => exact Nat.le_refl 1
  | append_singleton cs d ih =>
    have hd := isLower_iff.1 (h d (by simp))
    have hcs := ih fun c hc => h c (List.mem_append_left _ hc)
    rw [ordinal_append_singleton, List.length_append, List.length_singleton, Nat.pow_succ]
    omega

/-- The greatest number of so many letters: all of them are `z`. -/
theorem ordinal_le_pow (h : ∀ c ∈ cs, c.isLower = true) : 25 * ordinal cs + 26 ≤ 26 * 26 ^ cs.length := by
  induction cs using List.reverseRecOn with
  | nil => exact Nat.le_refl 26
  | append_singleton cs d ih =>
    have hd := isLower_iff.1 (h d (by simp))
    have hcs := ih fun c hc => h c (List.mem_append_left _ hc)
    rw [ordinal_append_singleton, List.length_append, List.length_singleton, Nat.pow_succ]
    omega

theorem IsNumeral.ordinal_pos (h : IsNumeral cs) : 0 < ordinal cs := by
  have hle := pow_le_ordinal h.isLower
  have hlength : 1 ≤ cs.length := List.length_pos_iff.2 h.ne_nil
  have hpow : 26 ^ 1 ≤ 26 ^ cs.length := Nat.pow_le_pow_right (by decide) hlength
  omega

/-- **Any small letters are those of a number.** -/
theorem letterChars_ordinal (h : IsNumeral cs) : letterChars (ordinal cs - 1 : Nat) = cs := by
  induction cs using List.reverseRecOn with
  | nil => exact absurd rfl h.ne_nil
  | append_singleton cs d ih =>
    have hd := isLower_iff.1 (h.isLower d (by simp))
    have hfront : ∀ c ∈ cs, c.isLower = true := fun c hc => h.isLower c (List.mem_append_left _ hc)
    have hlast : lastLetter (26 * ordinal cs + (d.toNat - 96) - 1) = d := by
      rw [lastLetter, show 97 + (26 * ordinal cs + (d.toNat - 96) - 1) % 26 = d.toNat by omega, Char.ofNat_toNat]
    rw [ordinal_append_singleton, letterChars_eq, hlast]
    by_cases hnil : cs = []
    · subst hnil
      rw [ordinal, List.foldl_nil, if_neg (by omega)]
    · have hcs : IsNumeral cs := ⟨hnil, hfront⟩
      have hpos := hcs.ordinal_pos
      rw [if_pos (by omega), show (26 * ordinal cs + (d.toNat - 96) - 1) / 26 - 1 = ordinal cs - 1 by omega, ih hcs]

/-! ## Their order -/

/-- More letters stand for a greater number. -/
theorem ordinal_lt_of_length_lt (hc : ∀ c ∈ cs, c.isLower = true) (hd : ∀ c ∈ ds, c.isLower = true)
    (h : cs.length < ds.length) : ordinal cs < ordinal ds := by
  have hle := ordinal_le_pow hc
  have hge := pow_le_ordinal hd
  have hpow : 26 ^ (cs.length + 1) ≤ 26 ^ ds.length := Nat.pow_le_pow_right (by decide) h
  rw [Nat.pow_succ] at hpow
  omega

/-- Of as many letters, those that come first in the alphabet stand for a smaller number. -/
theorem ordinal_lt_of_lex (hc : ∀ c ∈ cs, c.isLower = true) (hd : ∀ c ∈ ds, c.isLower = true)
    (hlength : cs.length = ds.length) (h : List.Lex (· < ·) cs ds) : ordinal cs < ordinal ds := by
  induction h with
  | nil => cases hlength
  | @cons c cs ds _ ih =>
    have hrest := ih (fun x hx => hc x (List.mem_cons_of_mem _ hx)) (fun x hx => hd x (List.mem_cons_of_mem _ hx))
      (Nat.succ.inj hlength)
    rw [ordinal_cons, ordinal_cons, Nat.succ.inj hlength]
    omega
  | @rel c cs d ds hlt =>
    obtain ⟨hcfirst, hcrest⟩ := List.forall_mem_cons.1 hc
    obtain ⟨hdfirst, hdrest⟩ := List.forall_mem_cons.1 hd
    have hlt : c.toNat < d.toNat := hlt
    have hle := ordinal_le_pow hcrest
    have hge := pow_le_ordinal hdrest
    have hfirst := (isLower_iff.1 hcfirst).1
    -- one more in front is worth more than all that stands behind
    have hfront : (c.toNat - 96 + 1) * 26 ^ ds.length ≤ (d.toNat - 96) * 26 ^ ds.length :=
      Nat.mul_le_mul_right _ (by omega)
    rw [Nat.succ.inj hlength] at hle
    rw [ordinal_cons, ordinal_cons, Nat.succ.inj hlength]
    rw [Nat.add_mul, Nat.one_mul] at hfront
    omega

theorem ordinal_lt_of_shortlex (hc : ∀ c ∈ cs, c.isLower = true) (hd : ∀ c ∈ ds, c.isLower = true)
    (h : cs.Shortlex (· < ·) ds) : ordinal cs < ordinal ds := by
  obtain hlength | ⟨hlength, hlex⟩ := List.shortlex_def.1 h
  · exact ordinal_lt_of_length_lt hc hd hlength
  · exact ordinal_lt_of_lex hc hd hlength hlex

theorem lt_of_shortlex_letterChars {m n : Nat} (h : (letterChars m).Shortlex (· < ·) (letterChars n)) : m < n := by
  have hlt := ordinal_lt_of_shortlex (isNumeral_letterChars m).isLower (isNumeral_letterChars n).isLower h
  rw [ordinal_letterChars, ordinal_letterChars] at hlt
  omega

/-- **The letters of the smaller number come first**: they are fewer, or come first in the alphabet. -/
theorem shortlex_letterChars_iff {m n : Nat} :
    (letterChars m).Shortlex (· < ·) (letterChars n) ↔ m < n := by
  refine ⟨lt_of_shortlex_letterChars, fun hlt => ?_⟩
  by_contra hnot
  -- of two lists of letters that are not in this order, the second one comes first or they are equal
  have hback : ¬(letterChars n).Shortlex (· < ·) (letterChars m) := by
    intro h
    have := lt_of_shortlex_letterChars h
    omega
  have heq : letterChars m = letterChars n :=
    Std.Trichotomous.trichotomous (r := List.Shortlex (· < ·)) _ _ hnot hback
  have := letterChars_injective heq
  omega

/-! ## One number for each label -/

/-- The letters of a number can be spelled, unless there are more than can be put in front of one another. -/
theorem spelled_eq_ok_iff {limit : Option Nat} {n : Int} {s : String} :
    spelled limit n = .ok s ↔ s = letters n ∧ ∀ most ∈ limit, (letters n).length ≤ most := by
  have hfew : (limit.all fun most => decide ((letterChars n).length ≤ most)) = true ↔
      ∀ most ∈ limit, (letters n).length ≤ most := by
    rw [letters, String.length_ofList]
    cases limit <;> simp
  rw [spelled, checkLetters, ← hfew]
  split
  · rename_i h
    rw [Outcome.ok_bind, Outcome.pure_eq, Except.ok.injEq, eq_comm, and_iff_left h]
  · rename_i h
    simp [h]

/-- **Letters number the columns.**
- The letters of a number from zero on are small letters, one at least.
- Any small letters, one at least, are the letters of exactly one number.
- They come in the order of the numbers: fewer letters first, and as many letters in the order of the alphabet.
- A number is spelled with its letters, unless there is a limit to how many letters can be put in front of one another
  and there are more of them. -/
theorem letters_bijective :
    (∀ n : Nat, IsNumeral (letters n).toList) ∧
    (∀ s : String, IsNumeral s.toList → ∃! n : Nat, letters n = s) ∧
    (∀ m n : Nat, (letters m).toList.Shortlex (· < ·) (letters n).toList ↔ m < n) ∧
    ∀ (limit : Option Nat) (n : Int) (s : String),
      spelled limit n = .ok s ↔ s = letters n ∧ ∀ most ∈ limit, (letters n).length ≤ most := by
  have htoList (n : Nat) : (letters n).toList = letterChars n := String.toList_ofList
  refine ⟨fun n => ?_, fun s hs => ?_, fun m n => ?_, fun limit n s => spelled_eq_ok_iff⟩
  · rw [htoList]
    exact isNumeral_letterChars n
  · refine ⟨ordinal s.toList - 1, ?_, fun n hn => ?_⟩
    · dsimp only
      rw [letters, letterChars_ordinal hs, String.ofList_toList]
    · rw [← hn, htoList, ordinal_letterChars, Nat.add_sub_cancel]
  · rw [htoList, htoList]
    exact shortlex_letterChars_iff

/-- Where the letters become more: behind `zz` comes `aaa`. -/
theorem letters_bijective_carry :
    (IsNumeral "zz".toList ∧ letters 701 = "zz" ∧ ∀ n : Nat, letters n = "zz" → n = 701) ∧
    letters 702 = "aaa" ∧ "zz".toList.Shortlex (· < ·) "aaa".toList ∧ spelled (some 3) 702 = .ok "aaa" := by
  obtain ⟨-, hone, horder, hspelled⟩ := letters_bijective
  have hzz : IsNumeral "zz".toList := by
    refine ⟨by decide +kernel, fun c hc => ?_⟩
    obtain rfl : c = 'z' := by simpa using hc
    decide
  have hlast : letters (701 : Nat) = "zz" := by decide +kernel
  have hnext : letters (702 : Nat) = "aaa" := by decide +kernel
  refine ⟨⟨hzz, hlast, fun n hn => (hone "zz" hzz).unique hn hlast⟩, hnext, ?_,
    (hspelled (some 3) 702 "aaa").2 ⟨hnext.symm, by decide +kernel⟩⟩
  rw [← hlast, ← hnext]
  exact (horder 701 702).2 (by decide)

end Hyperchess.Coord
