import Hyperchess.Proofs.Number.Literal
import Hyperchess.Proofs.Outcome

/-!
# Coordinates and their texts

The text of a coordinate holds the literals of its axes, with commas between them (`splitOn_chars`). As long as no axis
has more digits than a literal may have, the text can be written (`written_eq_ok_iff`), and the coordinate is read back
from it (`ofText_text`). Whatever text is read, the coordinate that it stands for can be written (`isWritable_ofChars`).
-/

namespace Hyperchess.Coord

variable {a : Coord}

/-- No axis has more digits than a literal may have. -/
def IsWritable (a : Coord) : Prop := ∀ n ∈ a.axes, Integer.isWritable n = true

instance (a : Coord) : Decidable a.IsWritable := inferInstanceAs (Decidable (∀ n ∈ a.axes, _))

theorem ofAxes_axes (a : Coord) : ofAxes a.axes = a := rfl

/-! ## The characters of a text -/

theorem chars_eq (a : Coord) : a.chars = [','].intercalate (a.axes.map Integer.literal) := by
  simp [chars, axes, List.intercalate]

theorem chars_ne_nil (a : Coord) : a.chars ≠ [] := by simp [chars]

theorem splitOn_chars (a : Coord) : a.chars.splitOn ',' = a.axes.map Integer.literal := by
  have hcomma : ∀ part ∈ a.axes.map Integer.literal, ',' ∉ part := by
    simp [axes, Integer.comma_not_mem_literal]
  rw [chars_eq, List.splitOn_intercalate ',' hcomma (by simp [axes])]

theorem eq_comma_or_mem_literal {c : Char} (hc : c ∈ a.chars) : c = ',' ∨ ∃ n, c ∈ Integer.literal n := by
  simp only [chars, List.mem_append, List.mem_cons] at hc
  obtain ((hc | rfl | hc) | rfl | hc) | rfl | hc := hc
  all_goals first | exact .inl rfl | exact .inr ⟨_, hc⟩

theorem not_isBlank_of_mem_chars {c : Char} (hc : c ∈ a.chars) : Text.isBlank c = false := by
  obtain rfl | ⟨n, hc⟩ := eq_comma_or_mem_literal hc
  · decide
  · exact Integer.not_isBlank_of_mem_literal hc

/-- What stands between the squares of a move stands in no square. -/
theorem slash_not_mem_chars (a : Coord) : '/' ∉ a.chars := by
  intro h
  obtain h | ⟨n, h⟩ := eq_comma_or_mem_literal h
  · exact absurd h (by decide)
  · obtain h | h := Integer.eq_minus_or_isDigit_of_mem_literal h
    · exact absurd h (by decide)
    · exact absurd h (by decide)

/-! ## Reading what was written -/

theorem axisOf_literal {n : Int} (h : Integer.isWritable n = true) : axisOf (Integer.literal n) = n := by
  rw [axisOf, Text.trim_eq_self fun c hc => Integer.not_isBlank_of_mem_literal hc, Integer.parse?_literal h,
    Option.getD_some]

theorem ofChars_chars (h : a.IsWritable) : ofChars a.chars = a := by
  have hread : (a.axes.map Integer.literal).map axisOf = a.axes := by
    rw [List.map_map]
    exact (List.map_congr_left fun n hn => axisOf_literal (h n hn)).trans (List.map_id' _)
  rw [ofChars, splitOn_chars, hread, ofAxes_axes]

/-- **A coordinate is read back from its text.** -/
theorem ofText_text (h : a.IsWritable) : ofText a.text = a := by
  rw [ofText, Text.chars_ofString, text, String.toList_ofList, ofChars_chars h]

theorem isWithin_eq_true_iff : a.isWithin (some Integer.digitLimit) = true ↔ a.IsWritable := List.all_eq_true

/-- A coordinate can be written if and only if no axis has too many digits. -/
theorem written_eq_ok_iff {t : String} : a.written = .ok t ↔ a.IsWritable ∧ t = a.text := by
  rw [← isWithin_eq_true_iff, written]
  split
  · rename_i h
    rw [Except.ok.injEq, eq_comm, and_iff_right h]
  · rename_i h
    simp [h]

/-! ## What can be read -/

theorem isWritable_zero : Integer.isWritable 0 = true := Integer.isWritable_iff.2 (Nat.pow_pos (by decide))

theorem isWritable_axisOf (part : List Char) : Integer.isWritable (axisOf part) = true := by
  rw [axisOf]
  cases hread : Integer.parse? (Text.trim Text.isBlank part) with
  | none => exact isWritable_zero
  | some n => exact Integer.isWritable_of_parse? hread

/-- **Whatever text is read, the coordinate that it stands for can be written.** -/
theorem isWritable_ofChars (cs : List Char) : (ofChars cs).IsWritable := by
  have hpart (i : Nat) : Integer.isWritable (((cs.splitOn ',').map axisOf).getD i 0) = true := by
    rw [List.getD_eq_getElem?_getD, List.getElem?_map]
    cases (cs.splitOn ',')[i]? with
    | none => exact isWritable_zero
    | some part => exact isWritable_axisOf part
  simp only [IsWritable, ofChars, ofAxes, axes, List.forall_mem_cons, hpart, true_and]
  exact fun n hn => absurd hn List.not_mem_nil

end Hyperchess.Coord
