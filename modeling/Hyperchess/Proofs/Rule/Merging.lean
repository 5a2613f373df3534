import Hyperchess.Proofs.Outcome
import Hyperchess.Proofs.Rule.References
import Hyperchess.Proofs.Text.Case
import Mathlib.Data.List.Induction

/-!
# Entries that are assigned one after the other

An entry is replaced where it stands, and a new one is put at the end. Values that are gathered from items are assigned
to the kinds that the items have in upper case (`gather`): each kind occurs once then (`distinct_gather`), and what is
found for it comes from the last item with this kind (`find?_gather`). If entries are assigned over others in which each
kind occurs once, the last entry with a kind is one of the new ones, if there is any new one with this kind
(`filter_foldl_assign`).
-/

namespace Hyperchess.RuleBook

variable {α β : Type} {entries : List (Text × α)} {key : Text} {value : α}

/-! ## One assignment -/

theorem assign_cons_of_eq {e : Text × α} (h : e.1 = key) (rest : List (Text × α)) (value : α) :
    assign (e :: rest) key value = (key, value) :: rest :=
  if_pos (beq_iff_eq.2 h)

theorem assign_cons_of_ne {e : Text × α} (h : e.1 ≠ key) (rest : List (Text × α)) (value : α) :
    assign (e :: rest) key value = e :: assign rest key value :=
  if_neg fun hkey => h (eq_of_beq hkey)

theorem assign_ne_nil (entries : List (Text × α)) (key : Text) (value : α) : assign entries key value ≠ [] := by
  cases entries with
  | nil => exact List.cons_ne_nil _ _
  | cons e rest =>
    by_cases he : e.1 = key
    · rw [assign_cons_of_eq he]
      exact List.cons_ne_nil _ _
    · rw [assign_cons_of_ne he]
      exact List.cons_ne_nil _ _

theorem find?_assign_self (entries : List (Text × α)) (key : Text) (value : α) :
    find? (assign entries key value) key = some value := by
  induction entries with
  | nil => simp [assign, find?]
  | cons e rest ih =>
    by_cases he : e.1 = key
    · simp [assign_cons_of_eq he, find?]
    · simpa [assign_cons_of_ne he, find?, he] using ih

theorem mem_assign {e : Text × α} (h : e ∈ assign entries key value) : e = (key, value) ∨ e ∈ entries := by
  induction entries with
  | nil => exact .inl (List.mem_singleton.1 h)
  | cons f rest ih =>
    by_cases hf : f.1 = key
    · rw [assign_cons_of_eq hf] at h
      exact (List.mem_cons.1 h).imp_right (List.mem_cons_of_mem _)
    · rw [assign_cons_of_ne hf] at h
      rcases List.mem_cons.1 h with rfl | h
      · exact .inr List.mem_cons_self
      · exact (ih h).imp_right (List.mem_cons_of_mem _)

/-- No key is assigned twice. -/
theorem nodup_assign (h : (entries.map (·.1)).Nodup) : ((assign entries key value).map (·.1)).Nodup := by
  induction entries with
  | nil => exact List.nodup_singleton _
  | cons e rest ih =>
    obtain ⟨hfirst, hrest⟩ := List.nodup_cons.1 h
    by_cases he : e.1 = key
    · rw [assign_cons_of_eq he, List.map_cons, List.nodup_cons, ← he]
      exact ⟨hfirst, hrest⟩
    · rw [assign_cons_of_ne he, List.map_cons, List.nodup_cons]
      refine ⟨fun hmem => ?_, ih hrest⟩
      obtain ⟨f, hf, hsame⟩ := List.mem_map.1 hmem
      rcases mem_assign hf with rfl | hf
      · exact he hsame.symm
      · exact hfirst (List.mem_map.2 ⟨f, hf, hsame⟩)

/-- The last entry is the new one, or it is the same as before. -/
theorem getLast?_assign (entries : List (Text × α)) (key : Text) (value : α) :
    (assign entries key value).getLast? = some (key, value) ∨
      (assign entries key value).getLast? = entries.getLast? := by
  induction entries with
  | nil => exact .inl rfl
  | cons e rest ih =>
    cases rest with
    | nil =>
      by_cases he : e.1 = key
      · exact .inl (by rw [assign_cons_of_eq he, List.getLast?_singleton])
      · exact .inl (by rw [assign_cons_of_ne he]; rfl)
    | cons f more =>
      by_cases he : e.1 = key
      · exact .inr (by rw [assign_cons_of_eq he, List.getLast?_cons_cons, List.getLast?_cons_cons])
      · rw [assign_cons_of_ne he, List.getLast?_cons_of_ne_nil (assign_ne_nil _ _ _), List.getLast?_cons_cons]
        exact ih

theorem getLast?_assign_of_length_le (h : entries.length ≤ 1) (key : Text) (value : α) :
    (assign entries key value).getLast? = some (key, value) := by
  match entries with
  | [] => rfl
  | [e] =>
    by_cases he : e.1 = key
    · rw [assign_cons_of_eq he, List.getLast?_singleton]
    · rw [assign_cons_of_ne he]
      rfl
  | _ :: _ :: _ => simp at h

section Filter

variable {p : Text → Bool}

/-- Among the entries whose keys have a property, an assignment under such a key is made. -/
theorem filter_assign_pos (h : p key = true) (entries : List (Text × α)) (value : α) :
    (assign entries key value).filter (fun e => p e.1) = assign (entries.filter fun e => p e.1) key value := by
  induction entries with
  | nil => simp [assign, h]
  | cons e rest ih =>
    by_cases he : e.1 = key
    · simp [assign_cons_of_eq he, he, h]
    · rw [assign_cons_of_ne he]
      cases hp : p e.1 with
      | true => simp [hp, assign_cons_of_ne he, ih]
      | false => simp [hp, ih]

/-- An assignment under another key leaves them alone. -/
theorem filter_assign_neg (h : p key = false) (entries : List (Text × α)) (value : α) :
    (assign entries key value).filter (fun e => p e.1) = entries.filter fun e => p e.1 := by
  induction entries with
  | nil => simp [assign, h]
  | cons e rest ih =>
    by_cases he : e.1 = key
    · simp [assign_cons_of_eq he, he, h]
    · rw [assign_cons_of_ne he, List.filter_cons, List.filter_cons, ih]

end Filter

/-! ## The last item with a key -/

/-- The last item with this key. -/
def lastFor (keyOf : β → Text) (items : List β) (key : Text) : Option β :=
  (items.filter fun x => keyOf x == key).getLast?

variable {keyOf : β → Text} {items : List β} {x : β}

theorem lastFor_cons (x : β) (rest : List β) (key : Text) :
    lastFor keyOf (x :: rest) key = (lastFor keyOf rest key).or (if keyOf x = key then some x else none) := by
  unfold lastFor
  by_cases hx : keyOf x = key
  · have hkept : (keyOf x == key) = true := beq_iff_eq.2 hx
    rw [List.filter_cons, if_pos hkept, if_pos hx, List.getLast?_cons]
    cases (rest.filter fun y => keyOf y == key).getLast? <;> rfl
  · have hleft : ¬ (keyOf x == key) = true := fun h => hx (eq_of_beq h)
    rw [List.filter_cons, if_neg hleft, if_neg hx, Option.or_none]

theorem lastFor_eq_none_iff : lastFor keyOf items key = none ↔ ∀ x ∈ items, keyOf x ≠ key := by
  simp [lastFor]

theorem mem_of_lastFor (h : lastFor keyOf items key = some x) : x ∈ items ∧ keyOf x = key := by
  obtain ⟨hx, hkey⟩ := List.mem_filter.1 (List.mem_of_getLast? h)
  exact ⟨hx, eq_of_beq hkey⟩

/-! ## Gathering -/

/-- Kinds are in upper case, each once. -/
structure Distinct (entries : List (Text × α)) : Prop where
  upper : ∀ e ∈ entries, e.1.upper = e.1
  nodup : (entries.map (·.1)).Nodup

theorem Distinct.nil : Distinct ([] : List (Text × α)) :=
  ⟨fun _ h => absurd h List.not_mem_nil, List.nodup_nil⟩

theorem Distinct.assign (h : Distinct entries) (name : Text) (value : α) :
    Distinct (assign entries name.upper value) where
  upper e he := by
    rcases mem_assign he with rfl | he
    · exact Text.upper_upper name
    · exact h.upper e he
  nodup := nodup_assign h.nodup

/-- There is at most one entry with a kind, and it has this kind as its key. -/
theorem Distinct.filter_eq (h : Distinct entries) (id : Text) :
    entries.filter (fun e => e.1.upper == id) = ((find? entries id).map fun value => (id, value)).toList := by
  induction entries with
  | nil => rfl
  | cons e rest ih =>
    have hrest : Distinct rest := ⟨fun f hf => h.upper f (List.mem_cons_of_mem _ hf), (List.nodup_cons.1 h.nodup).2⟩
    have hupper : e.1.upper = e.1 := h.upper e List.mem_cons_self
    rw [List.filter_cons, hupper, ih hrest]
    by_cases he : e.1 = id
    · have hnone : find? rest id = none := by
        have hout : id ∉ rest.map (·.1) := he ▸ (List.nodup_cons.1 h.nodup).1
        simpa [← find?_isSome_iff] using hout
      have hfound : find? (e :: rest) id = some e.2 := by simp [find?, he]
      rw [if_pos (beq_iff_eq.2 he), hnone, hfound, ← he]
      rfl
    · have hfound : find? (e :: rest) id = find? rest id := by simp [find?, he]
      rw [if_neg fun hkey => he (eq_of_beq hkey), hfound]

section Gather

variable {name : β → Text} {read : β → Except Fault α} {done result : List (Text × α)}

/-- The values of items are read and assigned, each to the kind that the item has in upper case. -/
def gather (name : β → Text) (read : β → Except Fault α) (items : List β) (done : List (Text × α)) :
    Except Fault (List (Text × α)) :=
  items.foldlM (fun done x => do return assign done (name x).upper (← read x)) done

theorem gather_cons (h : gather name read (x :: items) done = .ok result) :
    ∃ value, read x = .ok value ∧ gather name read items (assign done (name x).upper value) = .ok result := by
  rw [gather, List.foldlM_cons] at h
  obtain ⟨next, hnext, h⟩ := Outcome.bind_eq_ok_iff.1 h
  obtain ⟨value, hvalue, hnext⟩ := Outcome.bind_eq_ok_iff.1 hnext
  cases hnext
  exact ⟨value, hvalue, h⟩

theorem distinct_gather (hdone : Distinct done) (h : gather name read items done = .ok result) : Distinct result := by
  induction items generalizing done with
  | nil =>
    cases h
    exact hdone
  | cons x rest ih =>
    obtain ⟨value, -, h⟩ := gather_cons h
    exact ih (hdone.assign _ value) h

/-- What is found for a kind comes from the last item with this kind, or was there before. -/
theorem find?_gather (h : gather name read items done = .ok result) (id : Text) :
    (∃ x value, lastFor (fun x => (name x).upper) items id = some x ∧ read x = .ok value ∧
        find? result id = some value) ∨
      lastFor (fun x => (name x).upper) items id = none ∧ find? result id = find? done id := by
  induction items generalizing done with
  | nil =>
    cases h
    exact .inr ⟨rfl, rfl⟩
  | cons x rest ih =>
    obtain ⟨value, hvalue, h⟩ := gather_cons h
    rw [lastFor_cons]
    rcases ih h with ⟨y, value', hlast, hread, hfound⟩ | ⟨hnone, hfound⟩
    · exact .inl ⟨y, value', by rw [hlast, Option.some_or], hread, hfound⟩
    · rw [hnone, Option.none_or, hfound]
      by_cases hx : (name x).upper = id
      · subst hx
        exact .inl ⟨x, value, if_pos rfl, hvalue, find?_assign_self _ _ _⟩
      · exact .inr ⟨if_neg hx, find?_assign_of_ne (Ne.symm hx) value⟩

end Gather

/-! ## Entries over others -/

/-- Among the entries whose keys have a property there is at most one. Then the last of them, when items have been
assigned, is one of the items if an item has such a key; and otherwise they are as before. -/
theorem filter_foldl_assign {p : Text → Bool} (hfirst : (entries.filter fun e => p e.1).length ≤ 1)
    (items : List (Text × α)) :
    let found := (items.foldl (fun done e => assign done e.1 e.2) entries).filter fun e => p e.1
    (∃ e ∈ items, p e.1 = true ∧ found.getLast? = some e) ∨
      (∀ e ∈ items, p e.1 = false) ∧ found = entries.filter fun e => p e.1 := by
  intro found
  -- from the end, since it is the last assignment that says what the last entry is
  induction items using List.reverseRecOn with
  | nil => exact .inr ⟨fun e he => absurd he List.not_mem_nil, rfl⟩
  | append_singleton front e ih =>
    simp only [found, List.foldl_append, List.foldl_cons, List.foldl_nil]
    cases hkey : p e.1 with
    | true =>
      rw [filter_assign_pos hkey]
      left
      rcases ih with ⟨f, hf, hfkey, hlast⟩ | ⟨-, hsame⟩
      · rcases getLast?_assign ((front.foldl (fun done e => assign done e.1 e.2) entries).filter fun e => p e.1)
          e.1 e.2 with hnew | hold
        · exact ⟨e, by simp, hkey, hnew⟩
        · exact ⟨f, List.mem_append_left _ hf, hfkey, hold.trans hlast⟩
      · -- the first item with such a key: of the old entries there is at most the one that it replaces
        rw [hsame]
        exact ⟨e, by simp, hkey, getLast?_assign_of_length_le hfirst e.1 e.2⟩
    | false =>
      rw [filter_assign_neg hkey]
      rcases ih with ⟨f, hf, hfkey, hlast⟩ | ⟨hnone, hsame⟩
      · exact .inl ⟨f, List.mem_append_left _ hf, hfkey, hlast⟩
      · refine .inr ⟨fun f hf => ?_, hsame⟩
        rcases List.mem_append.1 hf with hf | hf
        · exact hnone f hf
        · rw [List.mem_singleton.1 hf]
          exact hkey

end Hyperchess.RuleBook
