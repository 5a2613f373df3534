import Hyperchess.Data

/-!
# The order of entries

Two values match (`Data.Matches`) if they are the same up to the order in which maps have their entries: truth values,
integers and floating point numbers are told apart. The entries of a map, put in order, are still the same entries
(`orderedEntries_perm`), so that matching values are nested equally deeply (`Matches.depth_eq`), and a value without
maps matches no other one (`Matches.eq_of_isFlat`).
-/

namespace Hyperchess.Data

variable {a b : Data} {entries : List (Data × Data)} {s : Text}

mutual

/-- The value with the entries of all its maps in an order that their keys determine. -/
def ordered : Data → Data
  | .list items => .list (orderedItems items)
  | .map entries => .map (orderedEntries entries)
  | .null => .null
  | .bool b => .bool b
  | .int n => .int n
  | .float x => .float x
  | .text s => .text s
  | .time t => .time t

/-- The items with the entries of all their maps in order. -/
def orderedItems : List Data → List Data
  | [] => []
  | x :: rest => ordered x :: orderedItems rest

/-- The entries in order, and those of the maps inside them. -/
def orderedEntries : List (Data × Data) → List (Data × Data)
  | [] => []
  | (k, x) :: rest => insertEntry (ordered k, ordered x) (orderedEntries rest)

end

/-- The two values are the same up to the order of entries. -/
def Matches (a b : Data) : Prop := a.ordered = b.ordered

instance (a b : Data) : Decidable (a.Matches b) := inferInstanceAs (Decidable (a.ordered = b.ordered))

/-! ## Entries in order -/

theorem insertEntry_perm (e : Data × Data) (entries : List (Data × Data)) :
    (insertEntry e entries).Perm (e :: entries) := by
  induction entries with
  | nil => exact .refl _
  | cons f rest ih =>
    unfold insertEntry
    split
    · exact .refl _
    · exact (ih.cons f).trans (.swap e f rest)

/-- An entry whose key and value have their maps in order. -/
def orderedEntry (e : Data × Data) : Data × Data := (e.1.ordered, e.2.ordered)

theorem orderedEntries_perm (entries : List (Data × Data)) :
    (orderedEntries entries).Perm (entries.map orderedEntry) := by
  induction entries with
  | nil => exact .refl _
  | cons e rest ih => exact (insertEntry_perm _ _).trans (ih.cons _)

/-- What matches a map is a map, with matching entries in some order. -/
theorem Matches.of_map (h : a.Matches (.map entries)) :
    ∃ found, a = .map found ∧ (found.map orderedEntry).Perm (entries.map orderedEntry) := by
  cases a with
  | map found =>
    have heq : orderedEntries found = orderedEntries entries := by simpa [Matches, ordered] using h
    exact ⟨found, rfl, (orderedEntries_perm found).symm.trans (heq ▸ orderedEntries_perm entries)⟩
  | _ => simp [Matches, ordered] at h

theorem ordered_eq_text : a.ordered = .text s ↔ a = .text s := by
  cases a <;> simp [ordered]

/-! ## Depth -/

theorem depthOfEntries_perm {entries found : List (Data × Data)} (h : entries.Perm found) :
    depthOfEntries entries = depthOfEntries found := by
  induction h with
  | nil => rfl
  | cons e _ ih => simp only [depthOfEntries, ih]
  | swap e f rest =>
    simp only [depthOfEntries]
    omega
  | trans _ _ ih₁ ih₂ => exact ih₁.trans ih₂

mutual

theorem depth_ordered (a : Data) : a.ordered.depth = a.depth := by
  cases a with
  | list items => rw [ordered, depth, depth, depthOfItems_ordered items]
  | map entries =>
    rw [ordered, depth, depth, depthOfEntries_perm (orderedEntries_perm entries), depthOfEntries_map_ordered entries]
  | _ => rfl

theorem depthOfItems_ordered (items : List Data) : depthOfItems (orderedItems items) = depthOfItems items := by
  match items with
  | [] => rfl
  | x :: rest => rw [orderedItems, depthOfItems, depthOfItems, depth_ordered x, depthOfItems_ordered rest]

theorem depthOfEntries_map_ordered (entries : List (Data × Data)) :
    depthOfEntries (entries.map orderedEntry) = depthOfEntries entries := by
  match entries with
  | [] => rfl
  | (k, x) :: rest =>
    rw [List.map_cons, orderedEntry, depthOfEntries, depthOfEntries, depth_ordered k, depth_ordered x,
      depthOfEntries_map_ordered rest]

end

/-- Matching values are nested equally deeply. -/
theorem Matches.depth_eq (h : a.Matches b) : a.depth = b.depth := by
  rw [← depth_ordered a, h, depth_ordered]

/-! ## Values without maps -/

mutual

/-- The value has no maps in it. -/
def isFlat : Data → Bool
  | .list items => areFlat items
  | .map _ => false
  | _ => true

/-- The items have no maps in them. -/
def areFlat : List Data → Bool
  | [] => true
  | x :: rest => isFlat x && areFlat rest

end

mutual

/-- A value without maps matches no other one. -/
theorem Matches.eq_of_isFlat {a b : Data} (h : a.Matches b) (hflat : b.isFlat = true) : a = b := by
  cases b with
  | list items =>
    cases a with
    | list found =>
      have heq : orderedItems found = orderedItems items := by simpa [Matches, ordered] using h
      rw [items_eq_of_areFlat heq (by simpa [isFlat] using hflat)]
    | _ => simp [Matches, ordered] at h
  | map entries => simp [isFlat] at hflat
  | _ => cases a <;> simp_all [Matches, ordered]

theorem items_eq_of_areFlat {found items : List Data} (h : orderedItems found = orderedItems items)
    (hflat : areFlat items = true) : found = items := by
  match found, items with
  | [], [] => rfl
  | x :: found, y :: items =>
    simp only [orderedItems, List.cons.injEq] at h
    simp only [areFlat, Bool.and_eq_true] at hflat
    rw [Matches.eq_of_isFlat h.1 hflat.1, items_eq_of_areFlat h.2 hflat.2]
  | [], _ :: _ | _ :: _, [] => simp [orderedItems] at h

end

end Hyperchess.Data
