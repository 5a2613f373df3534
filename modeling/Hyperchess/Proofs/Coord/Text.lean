import Hyperchess.Coord

/-!
# Coordinates are told apart by their texts

An integer is determined by its literal (`literal_injective`), and no literal has a comma, so a coordinate is determined
by its text (`text_injective`): the text can stand for the coordinate as a key.
-/

namespace Hyperchess

namespace Integer

theorem isDigit_of_mem_toDigits {n : Nat} {c : Char} (h : c ∈ Nat.toDigits 10 n) : c.isDigit = true :=
  Nat.isDigit_of_mem_toDigits (by decide) (by decide) h

theorem toDigits_injective {m n : Nat} (h : Nat.toDigits 10 m = Nat.toDigits 10 n) : m = n := by
  rw [← Nat.ofDigitChars_ten_toDigits (n := m), h, Nat.ofDigitChars_ten_toDigits]

/-- No digit is the mark of a negative integer. -/
theorem toDigits_ne_minus (m : Nat) (cs : List Char) : Nat.toDigits 10 m ≠ '-' :: cs := by
  intro h
  have hd : ('-' : Char).isDigit = true := isDigit_of_mem_toDigits (h ▸ List.mem_cons_self)
  exact absurd hd (by decide)

theorem literal_injective {m n : Int} (h : literal m = literal n) : m = n := by
  unfold literal at h
  split at h <;> split at h
  · have := toDigits_injective (List.cons.inj h).2
    omega
  · exact absurd h.symm (toDigits_ne_minus _ _)
  · exact absurd h (toDigits_ne_minus _ _)
  · have := toDigits_injective h
    omega

theorem eq_minus_or_isDigit_of_mem_literal {n : Int} {c : Char} (h : c ∈ literal n) : c = '-' ∨ c.isDigit = true := by
  unfold literal at h
  split at h
  · obtain rfl | h := List.mem_cons.1 h
    · exact .inl rfl
    · exact .inr (isDigit_of_mem_toDigits h)
  · exact .inr (isDigit_of_mem_toDigits h)

theorem comma_not_mem_literal (n : Int) : ',' ∉ literal n := by
  intro h
  obtain h | h := eq_minus_or_isDigit_of_mem_literal h
  · exact absurd h (by decide)
  · exact absurd h (by decide)

end Integer

namespace Coord

/-- Parts without the separator are told apart from what is behind it. -/
theorem append_separator_inj {s : Char} {a b c d : List Char} (ha : s ∉ a) (hb : s ∉ b)
    (h : a ++ s :: c = b ++ s :: d) : a = b ∧ c = d := by
  induction a generalizing b with
  | nil =>
    cases b with
    | nil => exact ⟨rfl, (List.cons.inj h).2⟩
    | cons y b => exact absurd ((List.cons.inj h).1 ▸ List.mem_cons_self) hb
  | cons x a ih =>
    cases b with
    | nil => exact absurd ((List.cons.inj h).1 ▸ List.mem_cons_self) ha
    | cons y b =>
      obtain ⟨hxy, h⟩ := List.cons.inj h
      obtain ⟨hab, hcd⟩ := ih (fun k => ha (List.mem_cons_of_mem _ k)) (fun k => hb (List.mem_cons_of_mem _ k)) h
      exact ⟨by rw [hxy, hab], hcd⟩

/-- **A coordinate is determined by its text.** -/
theorem text_injective {a b : Coord} (h : a.text = b.text) : a = b := by
  have hcomma (n : Int) : ',' ∉ Integer.literal n := Integer.comma_not_mem_literal n
  have hchars : a.chars = b.chars := String.ofList_injective h
  simp only [chars, List.append_assoc, List.cons_append] at hchars
  obtain ⟨hx, hchars⟩ := append_separator_inj (hcomma _) (hcomma _) hchars
  obtain ⟨hy, hchars⟩ := append_separator_inj (hcomma _) (hcomma _) hchars
  obtain ⟨hz, hw⟩ := append_separator_inj (hcomma _) (hcomma _) hchars
  cases a
  cases b
  simp only [mk.injEq]
  exact ⟨Integer.literal_injective hx, Integer.literal_injective hy, Integer.literal_injective hz,
    Integer.literal_injective hw⟩

end Coord

end Hyperchess
