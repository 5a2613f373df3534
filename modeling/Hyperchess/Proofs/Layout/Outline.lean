import Hyperchess.Layout
import Hyperchess.Proofs.Coord.Reading
import Hyperchess.Proofs.Outcome

/-!
# The extents and the body of a layout

Extents that can be written, and a body without blanks behind them, are read as they were written (`outline_printed`).
Whatever layout is read, its extents can be written and its body has no blanks (`Outlined`). A layout has an outline
exactly if its first field is four integers of which none is negative (`outline_eq_ok_iff`).
-/

namespace Hyperchess

namespace Text

variable {α : Type} {blank : α → Bool} {front back : List α} {separator : α}

theorem fieldsOf_of_not_blank (hne : front ≠ []) (h : ∀ c ∈ front, blank c = false) :
    fieldsOf blank front = [front] := by
  induction front with
  | nil => exact absurd rfl hne
  | cons c rest ih =>
    obtain ⟨hc, hrest⟩ := List.forall_mem_cons.1 h
    cases rest with
    | nil => simp [fieldsOf, hc]
    | cons d more =>
      have hd := hrest d List.mem_cons_self
      rw [fieldsOf, ih (List.cons_ne_nil _ _) hrest]
      simp [hc, hd]

/-- A field ends where a blank stands. -/
theorem fieldsOf_append (hne : front ≠ []) (h : ∀ c ∈ front, blank c = false) (hs : blank separator = true) :
    fieldsOf blank (front ++ separator :: back) = front :: fieldsOf blank back := by
  induction front with
  | nil => exact absurd rfl hne
  | cons c rest ih =>
    obtain ⟨hc, hrest⟩ := List.forall_mem_cons.1 h
    cases rest with
    | nil => simp [fieldsOf, hc, hs]
    | cons d more =>
      have hd := hrest d List.mem_cons_self
      have hmore := ih (List.cons_ne_nil _ _) hrest
      rw [List.cons_append] at hmore
      rw [List.cons_append, List.cons_append, fieldsOf, hmore]
      simp [hc, hd]

end Text

namespace Coord

/-- The extents of a board that can be written: none is negative, and none has more digits than a literal may have. -/
def IsExtent (size : Coord) : Prop := ∀ n ∈ size.axes, 0 ≤ n ∧ Integer.isWritable n = true

end Coord

namespace Layout

variable {size : Coord} {body : List CodePoint} {layout : Text}

/-! ## Extents -/

/-- **Extents are four integers with commas between them, none of them negative.** -/
theorem parseSize_eq_ok_iff {text : Text} : parseSize text = .ok size ↔
    (text.chars.splitOn ',').map Integer.parse? = size.axes.map some ∧ ∀ n ∈ size.axes, 0 ≤ n := by
  constructor
  · intro h
    unfold parseSize at h
    split at h
    · rename_i x? y? z? w? hparts
      split at h
      · rename_i x y z w
        split at h
        · cases h
        · cases h
          refine ⟨hparts, ?_⟩
          simp only [Coord.axes, List.forall_mem_cons]
          exact ⟨by omega, by omega, by omega, by omega, fun _ hn => absurd hn List.not_mem_nil⟩
      · cases h
    · cases h
  · rintro ⟨hparts, hnonneg⟩
    simp only [Coord.axes, List.forall_mem_cons] at hnonneg
    rw [parseSize, hparts]
    simp only [Coord.axes, List.map_cons, List.map_nil]
    rw [if_neg (by omega)]

/-- Whatever else there is, is reported as it is written. -/
theorem parseSize_eq_error {text : Text} {e : Fault} (h : parseSize text = .error e) :
    ∃ reason, e = .layout text reason := by
  unfold parseSize at h
  split at h
  · split at h
    · split at h
      · cases h
        exact ⟨_, rfl⟩
      · cases h
    · cases h
      exact ⟨_, rfl⟩
  · cases h
    exact ⟨_, rfl⟩

/-! ## Outlines -/

/-- The first field of a layout is these extents: four integers with commas between them, none of them negative. -/
def Sized (layout : Text) (size : Coord) : Prop :=
  ∃ first rest, layout.fields = first :: rest ∧
    (first.chars.splitOn ',').map Integer.parse? = size.axes.map some ∧ ∀ n ∈ size.axes, 0 ≤ n

/-- The body of a layout is its second field, and without anything in it if there is none. -/
def bodyOf (layout : Text) : List CodePoint := ((layout.fields.drop 1).headD Text.empty).points

/-- **A layout has an outline exactly if its first field is extents.** -/
theorem outline_eq_ok_iff : outline layout = .ok (size, body) ↔ Sized layout size ∧ body = bodyOf layout := by
  unfold outline Sized bodyOf
  cases layout.fields with
  | nil =>
    constructor
    · intro h
      cases h
    · rintro ⟨⟨first, rest, hfields, -⟩, -⟩
      cases hfields
  | cons first rest =>
    constructor
    · intro h
      obtain ⟨size', hsize, h⟩ := Outcome.bind_eq_ok_iff.1 h
      cases h
      exact ⟨⟨first, rest, rfl, parseSize_eq_ok_iff.1 hsize⟩, rfl⟩
    · rintro ⟨⟨first', rest', heq, hsize⟩, rfl⟩
      cases heq
      simp only [parseSize_eq_ok_iff.2 hsize, Outcome.ok_bind]
      rfl

/-- Without an outline, a layout is reported. -/
theorem outline_eq_error {e : Fault} (h : outline layout = .error e) : ∃ text reason, e = .layout text reason := by
  unfold outline at h
  cases hfields : layout.fields with
  | nil =>
    rw [hfields] at h
    cases h
    exact ⟨_, _, rfl⟩
  | cons first rest =>
    rw [hfields] at h
    dsimp only at h
    cases hsize : parseSize first with
    | ok size =>
      rw [hsize] at h
      cases h
    | error e' =>
      rw [hsize] at h
      cases h
      exact ⟨first, parseSize_eq_error hsize⟩

/-! ## Reading what was written -/

theorem parseSize_chars (h : size.IsExtent) : parseSize ⟨size.chars.map .char⟩ = .ok size := by
  have hread : (size.axes.map Integer.literal).map Integer.parse? = size.axes.map some := by
    rw [List.map_map]
    exact List.map_congr_left fun n hn => Integer.parse?_literal (h n hn).2
  have hchars : (Text.mk (size.chars.map .char)).chars = size.chars := Text.chars_ofChars size.chars
  rw [parseSize_eq_ok_iff, hchars, Coord.splitOn_chars, hread]
  exact ⟨rfl, fun n hn => (h n hn).1⟩

/-- **What is written in front of a layout and behind it is read again**: extents, and a body without blanks. -/
theorem outline_printed (h : size.IsExtent) (hbody : ∀ p ∈ body, Text.isBlank p.toChar = false) :
    outline ⟨(size.chars ++ [' ']).map .char ++ body⟩ = .ok (size, body) := by
  have hfront : ∀ p ∈ size.chars.map CodePoint.char, Text.isBlank p.toChar = false := by
    simpa [CodePoint.toChar] using fun c => Coord.not_isBlank_of_mem_chars
  have hfields : Text.fields ⟨(size.chars ++ [' ']).map .char ++ body⟩ =
      ⟨size.chars.map .char⟩ :: (Text.fieldsOf (Text.isBlank ·.toChar) body).map Text.mk := by
    have hblank : Text.isBlank (CodePoint.char ' ').toChar = true := by decide
    rw [Text.fields, List.map_append, List.append_assoc, List.map_cons, List.map_nil, List.singleton_append,
      Text.fieldsOf_append (by simpa using Coord.chars_ne_nil size) hfront hblank, List.map_cons]
  have hbehind : (((Text.fieldsOf (Text.isBlank ·.toChar) body).map Text.mk).headD Text.empty).points = body := by
    cases body with
    | nil => rfl
    | cons p rest =>
      rw [Text.fieldsOf_of_not_blank (List.cons_ne_nil _ _) hbody]
      rfl
  rw [outline, hfields]
  simp only [parseSize_chars h, Outcome.ok_bind, hbehind]
  rfl

/-! ## What can be read -/

/-- What is read from a layout: extents that can be written, and a body without blanks, which is the second field if
there is one. -/
structure Outlined (layout : Text) (size : Coord) (body : List CodePoint) : Prop where
  extent : size.IsExtent
  field : body = ((layout.fields.drop 1).headD Text.empty).points
  blank : ∀ p ∈ body, Text.isBlank p.toChar = false

theorem Sized.nonneg (h : Sized layout size) : ∀ n ∈ size.axes, 0 ≤ n := by
  obtain ⟨first, rest, -, -, hnonneg⟩ := h
  exact hnonneg

/-- Extents that are read can be written. -/
theorem Sized.isExtent (h : Sized layout size) : size.IsExtent := by
  intro n hn
  have hnonneg := h.nonneg
  obtain ⟨first, rest, -, hparts, -⟩ := h
  have hpart : some n ∈ (first.chars.splitOn ',').map Integer.parse? := hparts ▸ List.mem_map_of_mem hn
  obtain ⟨part, -, hread⟩ := List.mem_map.1 hpart
  exact ⟨hnonneg n hn, Integer.isWritable_of_parse? hread⟩

theorem not_isBlank_of_mem_bodyOf {p : CodePoint} (hp : p ∈ bodyOf layout) : Text.isBlank p.toChar = false := by
  unfold bodyOf at hp
  cases hfields : layout.fields.drop 1 with
  | nil =>
    rw [hfields] at hp
    exact absurd hp List.not_mem_nil
  | cons second more =>
    rw [hfields, List.headD_cons] at hp
    have hsecond : second ∈ layout.fields := List.mem_of_mem_drop (hfields ▸ List.mem_cons_self)
    obtain ⟨field, hfield, rfl⟩ := List.mem_map.1 hsecond
    exact Text.not_blank_of_mem_fieldsOf hfield p hp

theorem outlined_of_outline (h : outline layout = .ok (size, body)) : Outlined layout size body := by
  obtain ⟨hsized, rfl⟩ := outline_eq_ok_iff.1 h
  exact ⟨hsized.isExtent, rfl, fun p hp => not_isBlank_of_mem_bodyOf hp⟩

end Layout

end Hyperchess
