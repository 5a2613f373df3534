import Hyperchess.Text.Case
import Mathlib.Data.List.Basic
import Mathlib.Data.Nat.Bitwise

/-!
# Laws of case

Common characters change their case one by one (`lower_ofChars`). A character in upper case is its own upper case:
no code that a character has in upper case has another one (`upperImages_settled`), which is seen from two sets of codes
as binary numbers that have no digit in common. Hence a text in upper case stays what it is (`upper_upper`).
-/

namespace Hyperchess.Text

open Case

/-! ## Common characters -/

/-- What holds of all codes of common characters holds of these characters. -/
theorem forall_ascii {P : Char → Prop} (h : ∀ n < 128, P (Char.ofNat n)) {c : Char} (hc : c.toNat < 128) : P c := by
  have hn := h c.toNat hc
  rwa [Char.ofNat_toNat] at hn

/-- A character with a common one as its small letter is common. -/
theorem lt_of_toLower_lt {c : Char} (h : c.toLower.toNat < 128) : c.toNat < 128 := by
  by_contra hc
  have hcapital : ¬ (c.val ≥ 'A'.val ∧ c.val ≤ 'Z'.val) := by
    rintro ⟨-, hle⟩
    have hle' : c.toNat ≤ 90 := hle
    omega
  have hsame : c.toLower = c := dif_neg hcapital
  rw [hsame] at h
  exact hc h

theorem lowerFrom_map_char {cs : List Char} (h : ∀ c ∈ cs, c.toNat < 128) (before : List CodePoint) :
    lowerFrom before (cs.map .char) = (cs.map Char.toLower).map .char := by
  induction cs generalizing before with
  | nil => rfl
  | cons c rest ih =>
    obtain ⟨hc, hrest⟩ := List.forall_mem_cons.1 h
    rw [List.map_cons, lowerFrom, ih hrest, lowerPoint, lowerChar, if_pos hc]
    rfl

/-- The lower case of common characters. -/
theorem lower_ofChars {cs : List Char} (h : ∀ c ∈ cs, c.toNat < 128) :
    (ofChars cs).lower = ofChars (cs.map Char.toLower) := by
  rw [lower, ofChars, lowerFrom_map_char h, ofChars]

/-! ## Sets of codes as binary numbers -/

namespace Case

/-- The number that has the binary digit one at these places. -/
def bits (ns : List Nat) : Nat := ns.foldr (fun n b => 2 ^ n ||| b) 0

theorem testBit_bits {ns : List Nat} {n : Nat} : (bits ns).testBit n = true ↔ n ∈ ns := by
  induction ns with
  | nil => simp [bits]
  | cons m rest ih =>
    rw [bits, List.foldr_cons, Nat.testBit_or, Bool.or_eq_true, ← bits, ih, Nat.testBit_two_pow, decide_eq_true_eq,
      List.mem_cons, eq_comm]

/-- Sets without a common binary digit have no common member. -/
theorem notMem_of_bits {ms ns : List Nat} (h : bits ms &&& bits ns = 0) {n : Nat} (hn : n ∈ ns) : n ∉ ms := by
  intro hm
  have hboth : (bits ms &&& bits ns).testBit n = true := by
    rw [Nat.testBit_and, testBit_bits.2 hm, testBit_bits.2 hn]
    rfl
  rw [h, Nat.zero_testBit] at hboth
  cases hboth

/-! ## The codes of a run -/

/-- The codes that a run holds. -/
def Run.members (r : Run) : List Nat :=
  (List.range ((r.last - r.first) / r.stride + 1)).map fun i => r.first + i * r.stride

/-- The codes to which it moves them. -/
def Run.images (r : Run) : List Nat := r.members.map fun (n : Nat) => ((n : Int) + r.shift).toNat

theorem Run.mem_of_image? {r : Run} {n m : Nat} (h : r.image? n = some m) : n ∈ r.members ∧ m ∈ r.images := by
  unfold image? at h
  split at h
  · rename_i hn
    obtain ⟨hfirst, hlast, hstride⟩ := hn
    cases h
    have hmem : n ∈ r.members := by
      refine List.mem_map.2 ⟨(n - r.first) / r.stride, ?_, ?_⟩
      · have hle : (n - r.first) / r.stride ≤ (r.last - r.first) / r.stride := Nat.div_le_div_right (by omega)
        exact List.mem_range.2 (Nat.lt_succ_of_le hle)
      · rw [Nat.div_mul_cancel (Nat.dvd_of_mod_eq_zero hstride)]
        omega
    exact ⟨hmem, List.mem_map_of_mem hmem⟩
  · cases h

/-! ## Upper case -/

/-- The codes of characters that have another upper case. -/
def upperDomain : List Nat := List.range' 97 26 ++ upperMany.map (·.1) ++ upperRuns.flatMap Run.members

/-- The codes of characters that stand in upper case: of the common ones all but the small letters. -/
def upperImages : List Nat :=
  List.range 97 ++ List.range' 123 5 ++ upperMany.flatMap (·.2) ++ upperRuns.flatMap Run.images

/-- **No character that stands in upper case has another upper case.** -/
theorem notMem_upperDomain {n : Nat} (h : n ∈ upperImages) : n ∉ upperDomain := notMem_of_bits (by decide +kernel) h

theorem mem_of_image_ne {n : Nat} (h : image upperRuns n ≠ n) : n ∈ upperDomain ∧ image upperRuns n ∈ upperImages := by
  unfold image at h ⊢
  cases hfound : upperRuns.findSome? fun r => r.image? n with
  | none => simp [hfound] at h
  | some m =>
    obtain ⟨r, hr, himage⟩ := List.exists_of_findSome?_eq_some hfound
    obtain ⟨hn, hm⟩ := Run.mem_of_image? himage
    exact ⟨List.mem_append_right _ (List.mem_flatMap_of_mem hr hn),
      List.mem_append_right _ (List.mem_flatMap_of_mem hr hm)⟩

/-- A code that no character has stands for the character with the code zero. -/
theorem toNat_ofNat_mem_upperImages {n : Nat} (h : n ∈ upperImages) : (Char.ofNat n).toNat ∈ upperImages := by
  by_cases hn : n.isValidChar
  · have hchar : Char.ofNat n = Char.ofNatAux n hn := dif_pos hn
    rw [hchar]
    exact h
  · have hchar : Char.ofNat n = Char.ofNat 0 := dif_neg hn
    rw [hchar]
    decide +kernel

end Case

theorem upperChar_of_notMem {c : Char} (h : c.toNat ∉ upperDomain) : upperChar c = [c] := by
  unfold upperChar
  split
  · rename_i hc
    have hsame : ¬ (97 ≤ c.toNat ∧ c.toNat < 123) → c.toUpper = c :=
      forall_ascii (P := fun c => ¬ (97 ≤ c.toNat ∧ c.toNat < 123) → c.toUpper = c) (by decide +kernel) hc
    rw [hsame fun hsmall => h (List.mem_append_left _ (List.mem_append_left _ (List.mem_range'_1.2 hsmall)))]
  · have hmany : (upperMany.find? fun entry => entry.1 == c.toNat) = none := by
      refine List.find?_eq_none.2 fun entry hentry heq => h ?_
      rw [← eq_of_beq heq]
      exact List.mem_append_left _ (List.mem_append_right _ (List.mem_map_of_mem hentry))
    have hruns : image upperRuns c.toNat = c.toNat := by
      by_contra hne
      exact h (mem_of_image_ne hne).1
    rw [hmany, hruns, Char.ofNat_toNat]

/-- **A character that stands in upper case is its own upper case.** -/
theorem upperChar_of_mem {c d : Char} (h : d ∈ upperChar c) : upperChar d = [d] := by
  have hsettled (hd : d.toNat ∈ upperImages) : upperChar d = [d] := upperChar_of_notMem (notMem_upperDomain hd)
  unfold upperChar at h
  split at h
  · rename_i hc
    have hcommon : c.toUpper.toNat < 97 ∨ 123 ≤ c.toUpper.toNat ∧ c.toUpper.toNat < 128 :=
      forall_ascii (P := fun c => c.toUpper.toNat < 97 ∨ 123 ≤ c.toUpper.toNat ∧ c.toUpper.toNat < 128)
        (by decide +kernel) hc
    obtain rfl := List.mem_singleton.1 h
    refine hsettled (List.mem_append_left _ (List.mem_append_left _ ?_))
    rw [List.mem_append, List.mem_range, List.mem_range'_1]
    omega
  · split at h
    · rename_i entry hentry
      obtain ⟨n, hn, rfl⟩ := List.mem_map.1 h
      have hmany : n ∈ upperMany.flatMap (·.2) := List.mem_flatMap_of_mem (List.mem_of_find?_eq_some hentry) hn
      exact hsettled (toNat_ofNat_mem_upperImages (List.mem_append_left _ (List.mem_append_right _ hmany)))
    · rename_i hc _ hmany
      obtain rfl := List.mem_singleton.1 h
      by_cases hself : image upperRuns c.toNat = c.toNat
      · -- a character without another upper case
        rw [hself, Char.ofNat_toNat, upperChar, if_neg hc, hmany, hself, Char.ofNat_toNat]
      · exact hsettled (toNat_ofNat_mem_upperImages (mem_of_image_ne hself).2)

/-- **A text in upper case stays what it is.** -/
theorem upper_upper (t : Text) : t.upper.upper = t.upper := by
  have hpoint : ∀ p ∈ t.upper.points, upperPoint p = [p] := by
    intro p hp
    obtain ⟨q, -, hp⟩ := List.mem_flatMap.1 hp
    cases q with
    | half n =>
      obtain rfl := List.mem_singleton.1 hp
      rfl
    | char c =>
      obtain ⟨d, hd, rfl⟩ := List.mem_map.1 hp
      rw [upperPoint, upperChar_of_mem hd, List.map_singleton]
  rw [upper, List.flatMap_congr hpoint, List.flatMap_singleton']

end Hyperchess.Text
