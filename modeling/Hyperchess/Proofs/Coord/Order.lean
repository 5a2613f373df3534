import Hyperchess.Coord
import Mathlib.Data.List.Pairwise

/-!
# The order in which squares are visited

Squares are visited along `x` first and along `w` last. This is a strict order in which any two squares come one before
the other (`visitedBefore_or`), so a list of squares in this order names each of them once (`Visits.nodup`), and is
determined by what it names. What stands on some of the squares is listed in their order (`sublist_listed`).
-/

namespace Hyperchess.Coord

variable {a b c : Coord}

theorem visitedBefore_iff : a.visitedBefore b = true ↔
    a.w < b.w ∨ a.w = b.w ∧ (a.z < b.z ∨ a.z = b.z ∧ (a.y < b.y ∨ a.y = b.y ∧ a.x < b.x)) := by
  simp [visitedBefore]

/-- The order of squares is the lexicographic one of their axes as a board nests them. -/
theorem visitedBefore_iff_nested : a.visitedBefore b = true ↔ a.nested < b.nested := by
  simp only [visitedBefore_iff, nested, List.cons_lt_cons_iff, List.not_lt_nil, and_false, or_false]

theorem not_visitedBefore_self (a : Coord) : ¬a.visitedBefore a = true := by
  rw [visitedBefore_iff]
  omega

theorem ne_of_visitedBefore (h : a.visitedBefore b = true) : a ≠ b := by
  rintro rfl
  exact not_visitedBefore_self a h

theorem visitedBefore_trans (h : a.visitedBefore b = true) (k : b.visitedBefore c = true) :
    a.visitedBefore c = true := by
  rw [visitedBefore_iff] at *
  omega

/-- Of two squares, one is visited before the other. -/
theorem visitedBefore_or (h : a ≠ b) : a.visitedBefore b = true ∨ b.visitedBefore a = true := by
  by_contra hnot
  rw [visitedBefore_iff, visitedBefore_iff] at hnot
  apply h
  cases a
  cases b
  simp only [Coord.mk.injEq] at *
  omega

/-- The squares with a property, in the order in which they are visited. -/
structure Visits (P : Coord → Prop) (cs : List Coord) : Prop where
  inOrder : cs.Pairwise fun a b => a.visitedBefore b = true
  mem : ∀ c, c ∈ cs ↔ P c

namespace Visits

variable {P Q : Coord → Prop} {cs ds : List Coord}

theorem nodup (h : Visits P cs) : cs.Nodup := h.inOrder.imp ne_of_visitedBefore

theorem eq_nil_iff (h : Visits P cs) : cs = [] ↔ ∀ c, ¬P c := by
  simp only [List.eq_nil_iff_forall_not_mem, h.mem]

theorem congr (h : Visits P cs) (hPQ : ∀ c, P c ↔ Q c) : Visits Q cs := ⟨h.inOrder, fun c => (h.mem c).trans (hPQ c)⟩

end Visits

/-! ## Squares with something on them -/

section Listed

variable {α : Type} {f : Coord → Option α} {squares : List Coord}

/-- What is listed for squares is what is on them. -/
theorem mem_listed {a : α} :
    (c, a) ∈ squares.filterMap (fun c => (f c).map fun a => (c, a)) ↔ c ∈ squares ∧ f c = some a := by
  rw [List.mem_filterMap]
  constructor
  · rintro ⟨d, hd, heq⟩
    obtain ⟨a', ha, heq⟩ := Option.map_eq_some_iff.1 heq
    cases heq
    exact ⟨hd, ha⟩
  · rintro ⟨hc, ha⟩
    exact ⟨c, hc, by rw [ha]; rfl⟩

/-- Squares with nothing on them are left out, and the order is kept. -/
theorem sublist_listed (f : Coord → Option α) (squares : List Coord) :
    ((squares.filterMap fun c => (f c).map fun a => (c, a)).map (·.1)).Sublist squares := by
  induction squares with
  | nil => exact .slnil
  | cons c rest ih =>
    rw [List.filterMap_cons]
    cases f c with
    | none => exact ih.cons c
    | some a => exact ih.cons_cons c

end Listed

end Hyperchess.Coord
