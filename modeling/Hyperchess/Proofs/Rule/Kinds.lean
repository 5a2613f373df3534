import Hyperchess.Proofs.Text.Order
import Hyperchess.Rule.Book
import Mathlib.Data.List.Nodup

/-!
# The kinds that have rules

A book lists exactly the kinds for which it has rules (`mem_ids_iff`), in increasing order (`pairwise_ids`). While
rules refer to one another, the kinds that have not been entered yet become fewer with every one that is entered
(`unentered_lt`), and if none is entered twice no more can be entered than the book lists (`length_le_ids`).
-/

namespace Hyperchess.RuleBook

variable {book : RuleBook} {id key : Text} {entered : List Text} {rule : Rule}

/-! ## Kinds with rules -/

theorem find?_isSome_iff {α : Type} {entries : List (Text × α)} :
    (find? entries key).isSome ↔ key ∈ entries.map (·.1) := by
  simp [find?, List.find?_isSome]

theorem mem_insertOnce {s t : Text} {texts : List Text} : t ∈ insertOnce s texts ↔ t = s ∨ t ∈ texts := by
  induction texts with
  | nil => simp [insertOnce]
  | cons u rest ih =>
    unfold insertOnce
    split
    · subst s
      simp
    · split
      · simp
      · rw [List.mem_cons, ih, List.mem_cons]
        tauto

theorem mem_increasing {t : Text} {texts : List Text} : t ∈ increasing texts ↔ t ∈ texts := by
  induction texts with
  | nil => simp [increasing]
  | cons s rest ih =>
    rw [increasing, List.foldr_cons, mem_insertOnce, ← increasing, ih, List.mem_cons]

theorem pairwise_insertOnce {s : Text} {texts : List Text} (h : texts.Pairwise fun t u => t.before u = true) :
    (insertOnce s texts).Pairwise fun t u => t.before u = true := by
  induction texts with
  | nil => exact List.pairwise_singleton _ _
  | cons t rest ih =>
    obtain ⟨hfirst, hrest⟩ := List.pairwise_cons.1 h
    unfold insertOnce
    split
    · exact h
    · rename_i hne
      split
      · rename_i hst
        refine List.pairwise_cons.2 ⟨List.forall_mem_cons.2 ⟨hst, fun u hu => ?_⟩, h⟩
        exact Text.before_trans hst (hfirst u hu)
      · rename_i hnot
        have hts : t.before s = true := (Text.before_or hne).resolve_left hnot
        refine List.pairwise_cons.2 ⟨fun u hu => ?_, ih hrest⟩
        rcases mem_insertOnce.1 hu with rfl | hu
        · exact hts
        · exact hfirst u hu

theorem pairwise_increasing (texts : List Text) : (increasing texts).Pairwise fun t u => t.before u = true := by
  induction texts with
  | nil => exact .nil
  | cons s rest ih => exact pairwise_insertOnce ih

/-- A book lists kinds in increasing order. -/
theorem pairwise_ids (book : RuleBook) : book.ids.Pairwise fun s t => s.before t = true := pairwise_increasing _

/-- **A book lists the kinds for which it has rules.** -/
theorem mem_ids_iff : id ∈ book.ids ↔ (book.get? id).isSome := by
  rw [ids, mem_increasing, List.mem_append, ← find?_isSome_iff, ← find?_isSome_iff, get?, Option.orElse_eq_orElse,
    Option.orElse_eq_or, Option.isSome_or, Bool.or_eq_true]
  exact or_comm

/-- A book contains the kinds that it lists. -/
theorem contains_iff : book.contains id = true ↔ id ∈ book.ids := by
  rw [mem_ids_iff, contains, get?, Option.orElse_eq_orElse, Option.orElse_eq_or, Option.isSome_or]

/-- No kind is listed twice. -/
theorem nodup_ids (book : RuleBook) : book.ids.Nodup := by
  refine (pairwise_ids book).imp fun h e => ?_
  subst e
  exact Text.not_before_self _ h

theorem get_eq_ok_iff : book.get id = .ok rule ↔ book.get? id = some rule := by
  unfold get
  cases book.get? id <;> simp

theorem mem_ids_of_get (h : book.get id = .ok rule) : id ∈ book.ids := by
  rw [mem_ids_iff, get_eq_ok_iff.1 h]
  rfl

/-- The rule of a piece whose kind has one is that of a text. -/
theorem get_display {kind : Data} (h : book.getFor kind = .ok rule) : book.get kind.display = .ok rule := by
  cases kind with
  | text id =>
    rw [Data.display]
    exact h
  | _ => cases h

/-! ## Kinds that are entered -/

/-- The number of kinds in the book that have not been entered. -/
def unentered (book : RuleBook) (entered : List Text) : Nat := (book.ids.filter fun id => !entered.contains id).length

/-- Entering a kind leaves fewer. -/
theorem unentered_lt (hid : id ∉ entered) (h : book.get id = .ok rule) :
    book.unentered (id :: entered) < book.unentered entered := by
  have hsplit : book.ids.filter (fun k => !(id :: entered).contains k) =
      (book.ids.filter fun k => !entered.contains k).filter fun k => k != id := by
    rw [List.filter_filter]
    refine List.filter_congr fun k _ => ?_
    rw [List.contains_cons, Bool.not_or]
    rfl
  have hin : id ∈ book.ids.filter fun k => !entered.contains k := by
    simp [mem_ids_of_get h, hid]
  unfold unentered
  rw [hsplit]
  exact List.length_filter_lt_length_iff_exists.2 ⟨id, hin, by simp⟩

/-- One kind that has a rule has been entered. -/
theorem unentered_singleton_lt (h : book.get id = .ok rule) : book.unentered [id] < book.ids.length :=
  List.length_filter_lt_length_iff_exists.2 ⟨id, mem_ids_of_get h, by simp⟩

/-- No more kinds can be entered, each once, than the book lists. -/
theorem length_le_ids (hn : entered.Nodup) (hin : ∀ id ∈ entered, id ∈ book.ids) : entered.length ≤ book.ids.length :=
  hn.length_le_of_subset hin

end Hyperchess.RuleBook
