import Hyperchess.Proofs.Board.Cells
import Hyperchess.Proofs.Layout.Placements
import Hyperchess.Proofs.Layout.Rows

/-!
# Bodies of layouts

A body says something about every square (`squareAt`): parts that it lacks are empty, and parts that it has too many of
are not looked at. The pieces of a body are read in visiting order (`placements_eq`). What is written for marks on the
squares of a board is read as these marks (`squareAt_bodyText`), since no part that is written has the separators
between such parts in it.
-/

namespace Hyperchess.Layout

variable {p : CodePoint}

/-! ## Parts -/

/-- The part of a body with a number, without anything in it if there are fewer parts. -/
def partAt (separator : Char) (body : List CodePoint) (i : Nat) : List CodePoint :=
  (body.splitOn (.char separator)).getD i []

theorem of_mem_splitOn {separator : CodePoint} {body part : List CodePoint} (h : part ∈ body.splitOn separator) :
    ∀ p ∈ part, p ∈ body ∧ p ≠ separator := by
  induction body generalizing part with
  | nil =>
    rw [List.splitOn_nil, List.mem_singleton] at h
    rw [h]
    exact fun p hp => absurd hp List.not_mem_nil
  | cons q body ih =>
    rw [List.splitOn_cons_eq_if_modifyHead] at h
    split at h
    · obtain rfl | h := List.mem_cons.1 h
      · exact fun p hp => absurd hp List.not_mem_nil
      · exact fun p hp => (ih h p hp).imp_left (List.mem_cons_of_mem _)
    · rename_i hq
      obtain ⟨first, more, hsplit⟩ := List.exists_cons_of_ne_nil (List.splitOn_ne_nil separator body)
      rw [hsplit] at h ih
      obtain rfl | h := List.mem_cons.1 h
      · have hfirst : ∀ p ∈ first, p ∈ body ∧ p ≠ separator := ih List.mem_cons_self
        exact List.forall_mem_cons.2 ⟨⟨List.mem_cons_self, by simpa using hq⟩,
          fun p hp => (hfirst p hp).imp_left (List.mem_cons_of_mem _)⟩
      · exact fun p hp => (ih (List.mem_cons_of_mem _ h) p hp).imp_left (List.mem_cons_of_mem _)

/-- A part has no separators in it. -/
theorem of_mem_partAt {separator : Char} {body : List CodePoint} {i : Nat} (h : p ∈ partAt separator body i) :
    p ∈ body ∧ p ≠ .char separator := by
  rw [partAt, List.getD_eq_getElem?_getD] at h
  cases hpart : (body.splitOn (.char separator))[i]? with
  | none =>
    rw [hpart] at h
    exact absurd h List.not_mem_nil
  | some part =>
    rw [hpart] at h
    exact of_mem_splitOn (List.mem_of_getElem? hpart) p h

/-- Going through parts with their numbers is going through the numbers. -/
theorem flatMap_parts {β : Type} {h : List CodePoint × Nat → List β} (hnil : ∀ i, h ([], i) = []) (separator : Char)
    (extent : Int) (body : List CodePoint) :
    (parts separator extent body).flatMap h =
      (List.range extent.toNat).flatMap fun i => h (partAt separator body i, i) := by
  have hgo (l : List (List CodePoint)) (n k : Nat) : ((l.take n).zipIdx k).flatMap h =
      (List.range n).flatMap fun i => h (l.getD i [], k + i) := by
    induction n generalizing l k with
    | zero => rfl
    | succ n ih =>
      rw [List.range_succ_eq_map, List.flatMap_cons, List.flatMap_map]
      cases l with
      | nil => simp [hnil]
      | cons part more =>
        rw [List.take_succ_cons, List.zipIdx_cons, List.flatMap_cons, ih more (k + 1)]
        simp [Nat.add_right_comm, Nat.add_assoc]
  have hparts := hgo (body.splitOn (.char separator)) extent.toNat 0
  simp only [Nat.zero_add] at hparts
  exact hparts

/-- Parts that are written with separators between them are read as these parts. -/
theorem partAt_intercalate {separator : Char} {n i : Nat} {f : Nat → List CodePoint}
    (hf : ∀ i, .char separator ∉ f i) (hi : i < n) :
    partAt separator ([.char separator].intercalate ((List.range n).map f)) i = f i := by
  have hne : (List.range n).map f ≠ [] := by simpa using Nat.ne_zero_of_lt hi
  rw [partAt, List.splitOn_intercalate _ (by simpa using fun _ _ => hf _) hne]
  simp [hi]

/-! ## Bodies -/

/-- What a body says about a square. -/
def squareAt (size : Coord) (body : List CodePoint) (c : Coord) : Option Design :=
  (parseRow (partAt ',' (partAt '/' (partAt '|' body c.w.toNat) c.z.toNat) c.y.toNat) size.x).getD c.x.toNat none

theorem mem_of_getD {α : Type} {cells : List (Option α)} {i : Nat} {a : α} (h : cells.getD i none = some a) :
    some a ∈ cells := by
  rw [List.getD_eq_getElem?_getD] at h
  cases hcell : cells[i]? with
  | none =>
    rw [hcell] at h
    cases h
  | some o =>
    rw [hcell, Option.getD_some] at h
    exact h ▸ List.mem_of_getElem? hcell

/-- Whatever a body without blanks says about a square, it says with a mark. -/
theorem exists_mark_of_squareAt {size c : Coord} {body : List CodePoint}
    (hbody : ∀ p ∈ body, Text.isBlank p.toChar = false) {d : Design} (h : squareAt size body c = some d) :
    ∃ p ∈ body, IsMark p ∧ d = designOf p := by
  obtain ⟨p, hrow, hdigit, rfl⟩ := exists_mark_of_mem_rowFrom (mem_of_getD h)
  obtain ⟨hplane, hcomma⟩ := of_mem_partAt hrow
  obtain ⟨hlayer, hslash⟩ := of_mem_partAt hplane
  obtain ⟨hin, hbar⟩ := of_mem_partAt hlayer
  exact ⟨p, hin, ⟨hdigit, hbody p hin, hbar, hslash, hcomma⟩, rfl⟩

theorem partAt_nil (separator : Char) (i : Nat) : partAt separator [] i = [] := by
  cases i <;> rfl

theorem parseRow_nil (width : Int) : parseRow [] width = List.replicate width.toNat none := by
  rw [parseRow]
  cases width.toNat <;> rfl

theorem getElem?_parseRow_nil (width : Int) (i : Nat) : (parseRow [] width)[i]?.getD none = none := by
  rw [parseRow_nil, List.getElem?_replicate]
  split <;> rfl

/-- The pieces of a row, from square to square. -/
theorem row_placements (row : List CodePoint) (width : Int) (y z w : Nat) :
    ((parseRow row width).zipIdx.filterMap fun (square, x) => square.map fun d => ((⟨x, y, z, w⟩ : Coord), d)) =
      (List.range width.toNat).filterMap fun x =>
        ((parseRow row width).getD x none).map fun d => (⟨x, y, z, w⟩, d) := by
  have hzip : (parseRow row width).zipIdx =
      (List.range width.toNat).map fun x => ((parseRow row width).getD x none, x) := by
    refine List.ext_getElem (by simp [parseRow, length_rowFrom]) fun i hi hi' => ?_
    have hlt : i < (parseRow row width).length := by simpa using hi
    simp [hlt]
  rw [hzip, List.filterMap_map]
  rfl

/-- The pieces of a plane, from row to row. -/
theorem plane_placements (plane : List CodePoint) (size : Coord) (z w : Nat) :
    ((parts ',' size.y plane).flatMap fun (row, y) => (parseRow row size.x).zipIdx.filterMap fun (square, x) =>
      square.map fun d => ((⟨x, y, z, w⟩ : Coord), d)) =
    (List.range size.y.toNat).flatMap fun y => (List.range size.x.toNat).filterMap fun x =>
      ((parseRow (partAt ',' plane y) size.x).getD x none).map fun d => (⟨x, y, z, w⟩, d) := by
  simp only [row_placements]
  exact flatMap_parts (fun _ => by simp [getElem?_parseRow_nil]) ',' size.y plane

/-- The pieces of a layer, from plane to plane. -/
theorem layer_placements (layer : List CodePoint) (size : Coord) (w : Nat) :
    ((parts '/' size.z layer).flatMap fun (plane, z) => (parts ',' size.y plane).flatMap fun (row, y) =>
      (parseRow row size.x).zipIdx.filterMap fun (square, x) => square.map fun d => ((⟨x, y, z, w⟩ : Coord), d)) =
    (List.range size.z.toNat).flatMap fun z => (List.range size.y.toNat).flatMap fun y =>
      (List.range size.x.toNat).filterMap fun x =>
        ((parseRow (partAt ',' (partAt '/' layer z) y) size.x).getD x none).map fun d => (⟨x, y, z, w⟩, d) := by
  simp only [plane_placements]
  exact flatMap_parts (fun _ => by simp [partAt_nil, getElem?_parseRow_nil]) '/' size.z layer

/-- **The pieces of a body are read in visiting order**, from each square what the body says about it. -/
theorem placements_eq (b : Board) (body : List CodePoint) :
    placements b.size body = b.squares.filterMap fun c => (squareAt b.size body c).map fun d => (c, d) := by
  have hbody : placements b.size body = (List.range b.size.w.toNat).flatMap fun w =>
      (List.range b.size.z.toNat).flatMap fun z => (List.range b.size.y.toNat).flatMap fun y =>
        (List.range b.size.x.toNat).filterMap fun x =>
          ((parseRow (partAt ',' (partAt '/' (partAt '|' body w) z) y) b.size.x).getD x none).map fun d =>
            (⟨x, y, z, w⟩, d) := by
    unfold placements
    simp only [layer_placements]
    exact flatMap_parts (fun _ => by simp [partAt_nil, getElem?_parseRow_nil]) '|' b.size.w body
  rw [hbody, Board.squares]
  simp only [List.filterMap_flatMap, List.filterMap_map]
  rfl

/-! ## Marks -/

/-- The marks in a row. -/
def rowMarks (size : Coord) (mark : Coord → Option CodePoint) (y z w : Nat) : List (Option CodePoint) :=
  (List.range size.x.toNat).map fun (x : Nat) => mark ⟨x, y, z, w⟩

@[simp] theorem length_rowMarks (size : Coord) (mark : Coord → Option CodePoint) (y z w : Nat) :
    (rowMarks size mark y z w).length = size.x.toNat := by
  rw [rowMarks, List.length_map, List.length_range]

/-- What is written for a row. -/
def rowBody (size : Coord) (mark : Coord → Option CodePoint) (y z w : Nat) : List CodePoint :=
  rowText 0 ((rowMarks size mark y z w).map fun o => o.map Text.singleton)

/-- What is written for a plane. -/
def planeBody (size : Coord) (mark : Coord → Option CodePoint) (z w : Nat) : List CodePoint :=
  [.char ','].intercalate ((List.range size.y.toNat).map fun y => rowBody size mark y z w)

/-- What is written for a layer. -/
def layerBody (size : Coord) (mark : Coord → Option CodePoint) (w : Nat) : List CodePoint :=
  [.char '/'].intercalate ((List.range size.z.toNat).map fun z => planeBody size mark z w)

/-- What is written for a board with marks on some of its squares. -/
def bodyText (size : Coord) (mark : Coord → Option CodePoint) : List CodePoint :=
  [.char '|'].intercalate ((List.range size.w.toNat).map fun w => layerBody size mark w)

theorem mem_intercalate {separator : CodePoint} {ls : List (List CodePoint)} (h : p ∈ [separator].intercalate ls) :
    p = separator ∨ ∃ l ∈ ls, p ∈ l := by
  induction ls with
  | nil => exact absurd h List.not_mem_nil
  | cons l rest ih =>
    cases rest with
    | nil =>
      rw [List.intercalate_singleton] at h
      exact .inr ⟨l, List.mem_cons_self, h⟩
    | cons l' more =>
      rw [List.intercalate_cons_cons, List.append_assoc] at h
      obtain h | h := List.mem_append.1 h
      · exact .inr ⟨l, List.mem_cons_self, h⟩
      · obtain h | h := List.mem_cons.1 h
        · exact .inl h
        · exact (ih h).imp_right fun ⟨k, hk, hp⟩ => ⟨k, List.mem_cons_of_mem _ hk, hp⟩

section Marks

variable {size : Coord} {mark : Coord → Option CodePoint} (h : ∀ c p, mark c = some p → IsMark p)
include h

theorem isMark_of_mem_rowMarks {y z w : Nat} (hp : some p ∈ rowMarks size mark y z w) : IsMark p := by
  obtain ⟨x, -, hx⟩ := List.mem_map.1 hp
  exact h _ p hx

theorem of_mem_rowBody {y z w : Nat} (hp : p ∈ rowBody size mark y z w) : IsDigit p ∨ IsMark p :=
  (mem_rowText hp).imp_right (isMark_of_mem_rowMarks h)

theorem of_mem_planeBody {z w : Nat} (hp : p ∈ planeBody size mark z w) :
    p = .char ',' ∨ IsDigit p ∨ IsMark p := by
  refine (mem_intercalate hp).imp_right fun ⟨row, hrow, hp⟩ => ?_
  obtain ⟨y, -, rfl⟩ := List.mem_map.1 hrow
  exact of_mem_rowBody h hp

theorem of_mem_layerBody {w : Nat} (hp : p ∈ layerBody size mark w) :
    p = .char '/' ∨ p = .char ',' ∨ IsDigit p ∨ IsMark p := by
  refine (mem_intercalate hp).imp_right fun ⟨plane, hplane, hp⟩ => ?_
  obtain ⟨z, -, rfl⟩ := List.mem_map.1 hplane
  exact of_mem_planeBody h hp

/-- A body is written with separators, digits and marks. -/
theorem of_mem_bodyText (hp : p ∈ bodyText size mark) :
    p = .char '|' ∨ p = .char '/' ∨ p = .char ',' ∨ IsDigit p ∨ IsMark p := by
  refine (mem_intercalate hp).imp_right fun ⟨layer, hlayer, hp⟩ => ?_
  obtain ⟨w, -, rfl⟩ := List.mem_map.1 hlayer
  exact of_mem_layerBody h hp

theorem comma_not_mem_rowBody (y z w : Nat) : .char ',' ∉ rowBody size mark y z w := fun hp =>
  (ne_separator (of_mem_rowBody h hp)).2.2 rfl

theorem slash_not_mem_planeBody (z w : Nat) : .char '/' ∉ planeBody size mark z w := by
  intro hp
  obtain heq | hp := of_mem_planeBody h hp
  · exact absurd heq (by decide)
  · exact (ne_separator hp).2.1 rfl

theorem bar_not_mem_layerBody (w : Nat) : .char '|' ∉ layerBody size mark w := by
  intro hp
  obtain heq | heq | hp := of_mem_layerBody h hp
  · exact absurd heq (by decide)
  · exact absurd heq (by decide)
  · exact (ne_separator hp).1 rfl

/-- **What is written for the marks on the squares of a board is read as these marks.** -/
theorem squareAt_bodyText {b : Board} (hsize : b.size = size) {c : Coord} (hc : b.contains c = true) :
    squareAt size (bodyText size mark) c = (mark c).map designOf := by
  subst hsize
  obtain ⟨hx, hy, hz, hw⟩ := Board.contains_iff.1 hc
  have hrow : parseRow (rowBody b.size mark c.y.toNat c.z.toNat c.w.toNat) b.size.x =
      (rowMarks b.size mark c.y.toNat c.z.toNat c.w.toNat).map fun o => o.map designOf := by
    have hmarks : ∀ p, some p ∈ rowMarks b.size mark c.y.toNat c.z.toNat c.w.toNat →
        Text.digitValue? p.toChar = none := fun p hp => (isMark_of_mem_rowMarks h hp).digit
    have hread := rowFrom_rowText hmarks 0
    rw [length_rowMarks, Nat.zero_add] at hread
    exact hread
  rw [squareAt, bodyText, partAt_intercalate (bar_not_mem_layerBody h) (by omega), layerBody,
    partAt_intercalate (slash_not_mem_planeBody h · _) (by omega), planeBody,
    partAt_intercalate (comma_not_mem_rowBody h · _ _) (by omega), hrow, rowMarks]
  have hlt : c.x.toNat < b.size.x.toNat := by omega
  simp [hlt, Int.max_eq_left hx.1, Int.max_eq_left hy.1, Int.max_eq_left hz.1, Int.max_eq_left hw.1]

end Marks

end Hyperchess.Layout
