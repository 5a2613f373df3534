import Hyperchess.Proofs.Layout.Bodies

/-!
# Room for rows

A machine fills the rows of a layout with empty squares before there is a board. It does not fill a row for two reasons
only (`Unfilled`), both about the number of empty squares that the row lacks (`checkRow_eq_error_iff`); a layout is read
as it is without a thought about room, or there is a row that is not filled (`checkRows_cases`). Rows that were written
lack nothing, so there is always room for them (`checkRows_bodyText`).
-/

namespace Hyperchess.Layout

variable {m : Machine} {size : Coord} {body row : List CodePoint}

/-! ## All rows -/

theorem allParts_eq (separator : Char) (extent : Int) (body : List CodePoint) :
    allParts separator extent body = (List.range extent.toNat).map (partAt separator body) := by
  refine List.ext_getElem ?_ fun i hi hi' => ?_
  · simp only [allParts, List.length_append, List.length_take, List.length_replicate, List.length_map,
      List.length_range]
    omega
  · have hlt : i < extent.toNat := by simpa using hi'
    simp only [allParts, partAt, List.getElem_map, List.getElem_range, List.getD_eq_getElem?_getD]
    by_cases hfound : i < (body.splitOn (.char separator)).length
    · rw [List.getElem_append_left (by simp only [List.length_take]; omega), List.getElem_take,
        List.getElem?_eq_getElem hfound]
      rfl
    · rw [List.getElem_append_right (by simp only [List.length_take]; omega), List.getElem_replicate,
        List.getElem?_eq_none (by omega)]
      rfl

/-- The rows are the parts of the planes of the layers, as many as the extents say. -/
theorem mem_rows : row ∈ rows size body ↔ ∃ w z y : Nat, (w < size.w.toNat ∧ z < size.z.toNat ∧ y < size.y.toNat) ∧
    row = partAt ',' (partAt '/' (partAt '|' body w) z) y := by
  simp only [rows, allParts_eq, List.mem_flatMap, List.mem_map, List.mem_range]
  constructor
  · rintro ⟨_, ⟨w, hw, rfl⟩, _, ⟨z, hz, rfl⟩, y, hy, rfl⟩
    exact ⟨w, z, y, ⟨hw, hz, hy⟩, rfl⟩
  · rintro ⟨w, z, y, ⟨hw, hz, hy⟩, rfl⟩
    exact ⟨_, ⟨w, hw, rfl⟩, _, ⟨z, hz, rfl⟩, y, hy, rfl⟩

/-! ## Filling rows -/

/-- Why a machine does not put so many empty squares behind a row: there are too many to be counted, or there is no
room for them. -/
inductive Unfilled (m : Machine) (more : Int) : Fault → Prop
  | tooLarge (h : Grid.wordLimit < more) : Unfilled m more .tooLarge
  | noRoom (hpos : 0 < more) (hcount : more ≤ Grid.wordLimit) (h : m.fits more.toNat = false) : Unfilled m more .noRoom

theorem lacking_nonneg {width : Int} (h : 0 ≤ width) (row : List CodePoint) : 0 ≤ lacking row width := by
  rw [lacking]
  omega

/-- A row is not filled exactly for these reasons. -/
theorem checkRow_eq_error_iff {width : Int} (h : 0 ≤ width) {e : Fault} :
    checkRow m width row = .error e ↔ Unfilled m (lacking row width) e := by
  have hlacking := lacking_nonneg h row
  have hword : (0 : Int) ≤ Grid.wordLimit := by decide
  rw [checkRow, Grid.inWord]
  by_cases hcount : Grid.wordLimit < lacking row width
  · rw [if_pos (.inr hcount), Outcome.error_bind]
    constructor
    · rintro ⟨⟩
      exact .tooLarge hcount
    · rintro (- | ⟨-, hle, -⟩)
      · rfl
      · omega
  · rw [if_neg (by omega), Outcome.ok_bind]
    split
    · rename_i hroom
      constructor
      · rintro ⟨⟩
        exact .noRoom hroom.1 (Int.not_lt.1 hcount) (by simpa using hroom.2)
      · rintro (hmany | -)
        · exact absurd hmany hcount
        · rfl
    · rename_i hroom
      constructor
      · rintro ⟨⟩
      · rintro (hmany | ⟨hpos, -, hfits⟩)
        · exact absurd hmany hcount
        · exact absurd ⟨hpos, by simpa using hfits⟩ hroom

/-- Either all rows of a body are filled, or one of them is not. -/
theorem checkRows_cases (m : Machine) (hx : 0 ≤ size.x) (body : List CodePoint) :
    (rows size body).forM (checkRow m size.x) = .ok () ∨
      ∃ row ∈ rows size body, ∃ e, Unfilled m (lacking row size.x) e ∧
        (rows size body).forM (checkRow m size.x) = .error e := by
  cases hrows : (rows size body).forM (checkRow m size.x) with
  | ok u => exact .inl rfl
  | error e =>
    obtain ⟨row, hrow, hfault⟩ := Outcome.exists_of_forM_eq_error hrows
    exact .inr ⟨row, hrow, e, (checkRow_eq_error_iff hx).1 hfault, rfl⟩

/-- A row that takes up its width lacks nothing. -/
theorem checkRow_eq_ok {width : Int} (h : 0 ≤ width) (hextent : extentOf row = width.toNat) (m : Machine) :
    checkRow m width row = .ok () := by
  have hlacking : lacking row width = 0 := by
    rw [lacking, hextent]
    omega
  rw [checkRow, hlacking]
  rfl

/-! ## Rows that were written -/

section Marks

variable {mark : Coord → Option CodePoint} (h : ∀ c p, mark c = some p → IsMark p)
include h

/-- The rows of what is written are the rows that were written. -/
theorem mem_rows_bodyText (hrow : row ∈ rows size (bodyText size mark)) : ∃ y z w, row = rowBody size mark y z w := by
  obtain ⟨w, z, y, ⟨hw, hz, hy⟩, rfl⟩ := mem_rows.1 hrow
  rw [bodyText, partAt_intercalate (bar_not_mem_layerBody h) hw, layerBody,
    partAt_intercalate (slash_not_mem_planeBody h · _) hz, planeBody,
    partAt_intercalate (comma_not_mem_rowBody h · _ _) hy]
  exact ⟨y, z, w, rfl⟩

/-- **What is written needs no filling**, so every machine has room for it. -/
theorem checkRows_bodyText (hx : 0 ≤ size.x) (m : Machine) :
    (rows size (bodyText size mark)).forM (checkRow m size.x) = .ok () := by
  refine Outcome.forM_eq_ok_iff.2 fun row hrow => ?_
  obtain ⟨y, z, w, rfl⟩ := mem_rows_bodyText h hrow
  refine checkRow_eq_ok hx ?_ m
  rw [rowBody, extentOf_rowText fun p hp => (isMark_of_mem_rowMarks h hp).digit, length_rowMarks, Nat.zero_add]

end Marks

end Hyperchess.Layout
