import Hyperchess.Text

/-!
# Blanks

The characters that separate fields, and the operations on texts that depend on them: trimming (`trim`, `stripEnd`) and
splitting into fields (`fields`). Main statement: no field holds a blank (`not_blank_of_mem_fieldsOf`).
-/

namespace Hyperchess.Text

/-- White space of any script: tabs, line and page breaks, the four separators below the space, and the spaces. -/
def isBlank (c : Char) : Bool :=
  let n := c.toNat
  (9 ≤ n && n ≤ 13) || (28 ≤ n && n ≤ 32) || n == 0x85 || n == 0xa0 || n == 0x1680 || (0x2000 ≤ n && n ≤ 0x200a) ||
    n == 0x2028 || n == 0x2029 || n == 0x202f || n == 0x205f || n == 0x3000

/-- The blanks that may surround a number: the four separators `U+001C` to `U+001F` are not among them. -/
def isNumberBlank (c : Char) : Bool :=
  isBlank c && !(28 ≤ c.toNat && c.toNat ≤ 31)

/-- `cs` without the members of the class at its end. -/
def trimEnd {α : Type} (blank : α → Bool) (cs : List α) : List α := (cs.reverse.dropWhile blank).reverse

/-- `cs` without the members of the class at its two ends. -/
def trim {α : Type} (blank : α → Bool) (cs : List α) : List α := trimEnd blank (cs.dropWhile blank)

/-- The text without blanks at its end. -/
def stripEnd (t : Text) : Text := ⟨trimEnd (isBlank ·.toChar) t.points⟩

/-- The maximal runs of what is not blank. -/
def fieldsOf {α : Type} (blank : α → Bool) : List α → List (List α)
  | [] => []
  | c :: rest =>
    if blank c then fieldsOf blank rest
    else
      match rest with
      | [] => [[c]]
      | d :: _ =>
        if blank d then [c] :: fieldsOf blank rest
        else
          match fieldsOf blank rest with
          | [] => [[c]]
          | field :: more => (c :: field) :: more

/-- The fields of a text, in order. -/
def fields (t : Text) : List Text :=
  (fieldsOf (isBlank ·.toChar) t.points).map Text.mk

theorem not_blank_of_mem_fieldsOf {α : Type} {blank : α → Bool} {cs f : List α} (h : f ∈ fieldsOf blank cs) :
    ∀ c ∈ f, blank c = false := by
  induction cs generalizing f with
  | nil => simp [fieldsOf] at h
  | cons c rest ih =>
    unfold fieldsOf at h
    split at h
    · exact ih h
    · rename_i hc
      split at h
      · simp_all
      · split at h
        · rcases List.mem_cons.1 h with rfl | h
          · simp_all
          · exact ih h
        · split at h
          · simp_all
          · rename_i heq
            rcases List.mem_cons.1 h with rfl | h
            · intro x hx
              rcases List.mem_cons.1 hx with rfl | hx
              · simpa using hc
              · exact ih (heq ▸ List.mem_cons_self) x hx
            · exact ih (heq ▸ List.mem_cons_of_mem _ h)

end Hyperchess.Text
