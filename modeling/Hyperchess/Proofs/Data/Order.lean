import Hyperchess.Data
import Mathlib.Data.List.Basic
import Mathlib.Data.List.Pairwise

/-!
# Values in order, each once

Sorting keeps the values (`mem_of_sorted?`), and leaving repetitions out keeps one of each (`mem_of_mem_distinct`,
`exists_mem_distinct`). Two values have an order if they are on one scale (`isComparable_iff`), which
is a matter of what they count as (`scale?_congr`); so values can be sorted, each once, exactly if any two of them that
are not the same have an order (`exists_sorted?_iff`).
-/

namespace Hyperchess.Data

variable {x y : Data} {items sorted : List Data}

/-! ## Sorting -/

theorem mem_insertBy {lt : Data → Data → Bool} : y ∈ insertBy lt x items ↔ y = x ∨ y ∈ items := by
  induction items with
  | nil => simp [insertBy]
  | cons z rest ih =>
    unfold insertBy
    split
    · simp
    · rw [List.mem_cons, ih, List.mem_cons]
      tauto

theorem mem_foldl_insertBy {lt : Data → Data → Bool} {done : List Data} :
    y ∈ items.foldl (fun done x => insertBy lt x done) done ↔ y ∈ items ∨ y ∈ done := by
  induction items generalizing done with
  | nil => simp
  | cons x rest ih =>
    rw [List.foldl_cons, ih, mem_insertBy, List.mem_cons]
    tauto

/-- Sorting keeps the values. -/
theorem mem_of_sorted? (h : sorted? items = some sorted) : y ∈ sorted ↔ y ∈ items := by
  unfold sorted? at h
  split at h
  · cases h
    simp [mem_foldl_insertBy]
  · cases h

/-! ## Leaving repetitions out -/

theorem isIn_iff : x.isIn items = true ↔ ∃ y ∈ items, y.same x = true := by simp [isIn]

/-- What is kept of the values so far, the last one first. -/
def distinctFrom (seen items : List Data) : List Data :=
  items.foldl (fun seen x => if x.isIn seen then seen else x :: seen) seen

theorem distinctFrom_cons (seen items : List Data) (x : Data) :
    distinctFrom seen (x :: items) = distinctFrom (if x.isIn seen then seen else x :: seen) items := rfl

theorem mem_of_mem_distinctFrom {seen : List Data} (h : y ∈ distinctFrom seen items) : y ∈ seen ∨ y ∈ items := by
  induction items generalizing seen with
  | nil => exact Or.inl h
  | cons x rest ih =>
    rw [distinctFrom_cons] at h
    rcases ih h with hs | hr
    · split at hs
      · exact Or.inl hs
      · rcases List.mem_cons.1 hs with rfl | hs
        · exact Or.inr List.mem_cons_self
        · exact Or.inl hs
    · exact Or.inr (List.mem_cons_of_mem _ hr)

theorem exists_mem_distinctFrom {seen : List Data} (h : y ∈ seen ∨ y ∈ items) :
    ∃ x ∈ distinctFrom seen items, x.same y = true := by
  induction items generalizing seen y with
  | nil =>
    rcases h with h | h
    · exact ⟨y, h, same_self y⟩
    · cases h
  | cons x rest ih =>
    -- a value that is left out counts as the same as one that was seen, which is still there at the end
    rw [distinctFrom_cons]
    rcases h with h | h
    · split
      · exact ih (Or.inl h)
      · exact ih (Or.inl (List.mem_cons_of_mem _ h))
    · rcases List.mem_cons.1 h with rfl | h
      · split
        · rename_i hin
          obtain ⟨w, hw, hwy⟩ := isIn_iff.1 hin
          obtain ⟨z, hz, hzw⟩ := ih (y := w) (Or.inl hw)
          exact ⟨z, hz, same_trans hzw hwy⟩
        · exact ih (Or.inl List.mem_cons_self)
      · exact ih (Or.inr h)

theorem mem_of_mem_distinct (h : y ∈ distinct items) : y ∈ items := by
  rcases mem_of_mem_distinctFrom (List.mem_reverse.1 h) with h | h
  · cases h
  · exact h

/-- Of every value there is one that counts as the same. -/
theorem exists_mem_distinct (h : y ∈ items) : ∃ x ∈ distinct items, x.same y = true := by
  obtain ⟨x, hx, hxy⟩ : ∃ x ∈ distinctFrom [] items, x.same y = true := exists_mem_distinctFrom (Or.inr h)
  exact ⟨x, List.mem_reverse.2 hx, hxy⟩

theorem pairwise_distinctFrom {seen : List Data} (h : seen.Pairwise fun x y => x.same y = false) :
    (distinctFrom seen items).Pairwise fun x y => x.same y = false := by
  induction items generalizing seen with
  | nil => exact h
  | cons x rest ih =>
    rw [distinctFrom_cons]
    apply ih
    split
    · exact h
    · rename_i hnew
      refine List.pairwise_cons.2 ⟨fun y hy => ?_, h⟩
      rw [same_comm]
      exact Bool.eq_false_iff.2 fun hsame => hnew (isIn_iff.2 ⟨y, hy, hsame⟩)

/-- No two of the values that are kept count as the same. -/
theorem pairwise_distinct (items : List Data) : (distinct items).Pairwise fun x y => x.same y = false := by
  have hpairwise : (distinctFrom [] items).Pairwise fun x y => x.same y = false :=
    pairwise_distinctFrom List.Pairwise.nil
  apply List.pairwise_reverse.2
  exact hpairwise.imp fun {x y} h => (same_comm y x).trans h

/-! ## Values that have an order -/

/-- What values are put in order on. -/
inductive Scale where
  | numbers
  | texts
  | days
  | times
  | zonedTimes
  deriving DecidableEq

/-- The scale that a value is on, if there is one for it. -/
def scale? : Data → Option Scale
  | .bool _ | .int _ | .float _ => some .numbers
  | .text _ => some .texts
  | .time (.day _) => some .days
  | .time (.time ..) => some .times
  | .time (.zoned ..) => some .zonedTimes
  | .null | .list _ | .map _ => none

/-- Two values have an order if they are on one scale. -/
theorem isComparable_iff : x.isComparable y = true ↔ ∃ scale, x.scale? = some scale ∧ y.scale? = some scale := by
  cases x with
  | time s =>
    cases y with
    | time t => cases s <;> cases t <;> simp [isComparable, Timestamp.isComparable, scale?]
    | _ => cases s <;> simp [isComparable, number?, scale?]
  | _ =>
    cases y with
    | time t => cases t <;> simp [isComparable, number?, scale?]
    | _ => simp [isComparable, number?, scale?]

theorem scale?_canonical (x : Data) : x.canonical.scale? = x.scale? := by
  cases x with
  | time s => cases s <;> rfl
  | float f =>
    unfold canonical
    split
    · split <;> rfl
    · rfl
  | _ => rfl

/-- Values that count as the same are on one scale. -/
theorem scale?_congr (h : x.same y = true) : x.scale? = y.scale? := by
  rw [← scale?_canonical x, ← scale?_canonical y, same_iff.1 h]

theorem isComparable_comm (x y : Data) : x.isComparable y = y.isComparable x := by
  rw [Bool.eq_iff_iff, isComparable_iff, isComparable_iff]
  exact exists_congr fun scale => and_comm

theorem isComparable_trans (h : x.isComparable y = true) (k : y.isComparable z = true) : x.isComparable z = true := by
  obtain ⟨scale, hx, hy⟩ := isComparable_iff.1 h
  obtain ⟨scale', hy', hz⟩ := isComparable_iff.1 k
  rw [hy] at hy'
  cases hy'
  exact isComparable_iff.2 ⟨scale, hx, hz⟩

/-- If the first value has an order with all others, any two of them have one. -/
theorem areComparable_iff : areComparable items = true ↔ items.Pairwise fun x y => x.isComparable y = true := by
  cases items with
  | nil => simp [areComparable]
  | cons x rest =>
    rw [areComparable, List.all_eq_true, List.pairwise_cons]
    constructor
    · intro h
      refine ⟨h, List.pairwise_of_forall_mem_list fun y hy z hz => ?_⟩
      have hfirst : y.isComparable x = true := (isComparable_comm y x).trans (h y hy)
      exact isComparable_trans hfirst (h z hz)
    · exact fun h => h.1

/-- **Values can be sorted, each once, exactly if any two that are not the same have an order.** -/
theorem exists_sorted?_iff : (∃ sorted, sorted? (distinct items) = some sorted) ↔
    ∀ x ∈ items, ∀ y ∈ items, x.same y = false → x.isComparable y = true := by
  have hsorted : (∃ sorted, sorted? (distinct items) = some sorted) ↔ areComparable (distinct items) = true := by
    unfold sorted?
    split <;> simp_all
  rw [hsorted, areComparable_iff]
  constructor
  · intro h x hx y hy hne
    -- of both values there is one that is kept, and these two are not the same
    obtain ⟨x', hx', hxx'⟩ := exists_mem_distinct hx
    obtain ⟨y', hy', hyy'⟩ := exists_mem_distinct hy
    have hne' : x' ≠ y' := by
      rintro rfl
      rw [same_comm] at hxx'
      rw [same_trans hxx' hyy'] at hne
      cases hne
    have hsymm : Std.Symm fun x y : Data => x.isComparable y = true :=
      ⟨fun x y hxy => (isComparable_comm y x).trans hxy⟩
    have hcomparable : x'.isComparable y' = true := h.forall hx' hy' hne'
    rw [isComparable_iff] at hcomparable ⊢
    rwa [← scale?_congr hxx', ← scale?_congr hyy']
  · intro h
    refine (pairwise_distinct items).imp_of_mem fun {x y} hx hy hne => ?_
    exact h x (mem_of_mem_distinct hx) y (mem_of_mem_distinct hy) hne

end Hyperchess.Data
