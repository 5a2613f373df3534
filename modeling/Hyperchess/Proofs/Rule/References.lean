import Hyperchess.Proofs.Rule.Kinds
import Mathlib.Logic.Relation

/-!
# What rules refer to

The rule of one kind may refer to others (`Rule.references`), and these to further ones. The kinds that a kind reaches
are found by following references, itself included (`RuleBook.Reaches`). A book is closed if every kind that one of its
rules refers to has a rule, too (`RuleBook.Closed`). A rule that is assigned to a kind changes what the book has for
that kind, and for no other (`get?_override_ne`).
-/

namespace Hyperchess

mutual

/-- The kinds that a path refers to. -/
def Path.references : Path → List Text
  | .leaf _ _ => []
  | .branches _ below => Path.referencesOf below
  | .bare _ => []
  | .reference id => [id]

/-- The kinds that paths refer to. -/
def Path.referencesOf : List Path → List Text
  | [] => []
  | path :: rest => path.references ++ Path.referencesOf rest

end

/-- The kinds that a rule refers to. -/
def Rule.references (rule : Rule) : List Text := Path.referencesOf rule.roots

namespace RuleBook

variable {book book' : RuleBook} {id other key : Text} {rule : Rule}

/-! ## Following references -/

/-- The rule of a kind refers to another kind. -/
def Refers (book : RuleBook) (id other : Text) : Prop := ∃ rule, book.get? id = some rule ∧ other ∈ rule.references

/-- References lead from a kind to another one, or it is the same. -/
def Reaches (book : RuleBook) : Text → Text → Prop := Relation.ReflTransGen book.Refers

theorem Reaches.refl (book : RuleBook) (id : Text) : book.Reaches id id := Relation.ReflTransGen.refl

theorem Reaches.head {first : Text} (hrule : book.get? first = some rule) (href : id ∈ rule.references)
    (h : book.Reaches id other) : book.Reaches first other :=
  Relation.ReflTransGen.head ⟨rule, hrule, href⟩ h

/-- Kinds whose rules refer to one another only reach no others. -/
theorem Reaches.mem_of_closed {ids : List Text} (h : book.Reaches id other) (hid : id ∈ ids)
    (hclosed : ∀ k ∈ ids, ∀ rule ∈ book.get? k, ∀ next ∈ rule.references, next ∈ ids) : other ∈ ids := by
  induction h with
  | refl => exact hid
  | tail _ hstep ih =>
    obtain ⟨rule, hrule, href⟩ := hstep
    exact hclosed _ ih rule hrule _ href

/-- The books have the same rule, or none, for every kind that these kinds reach. -/
def AgreeFrom (book book' : RuleBook) (ids : List Text) : Prop :=
  ∀ id ∈ ids, ∀ other, book.Reaches id other → book.get? other = book'.get? other

theorem AgreeFrom.get?_eq {ids : List Text} (h : book.AgreeFrom book' ids) (hid : id ∈ ids) :
    book.get? id = book'.get? id :=
  h id hid id (Reaches.refl book id)

/-- What a kind refers to reaches no more than the kind itself. -/
theorem AgreeFrom.references {ids : List Text} (h : book.AgreeFrom book' ids) (hid : id ∈ ids)
    (hrule : book.get? id = some rule) : book.AgreeFrom book' rule.references := by
  intro k hk other hother
  exact h id hid other (hother.head hrule hk)

theorem agreeFrom_append {front back : List Text} :
    book.AgreeFrom book' (front ++ back) ↔ book.AgreeFrom book' front ∧ book.AgreeFrom book' back :=
  List.forall_mem_append

/-! ## Closed books -/

/-- Every kind that a rule refers to has a rule. -/
def Closed (book : RuleBook) : Prop :=
  ∀ id ∈ book.ids, ∀ rule ∈ book.get? id, ∀ other ∈ rule.references, other ∈ book.ids

instance (book : RuleBook) : Decidable book.Closed :=
  inferInstanceAs (Decidable (∀ id ∈ book.ids, ∀ rule ∈ book.get? id, ∀ other ∈ rule.references, other ∈ book.ids))

theorem Closed.references (h : book.Closed) (hrule : book.get? id = some rule) :
    ∀ other ∈ rule.references, other ∈ book.ids := by
  have hid : id ∈ book.ids := mem_ids_of_get (get_eq_ok_iff.2 hrule)
  exact h id hid rule hrule

/-! ## Overriding -/

/-- The book with another rule for a kind, or with one for a further kind. -/
def override (book : RuleBook) (id : Text) (rule : Rule) : RuleBook :=
  { book with custom := assign book.custom id rule }

theorem find?_assign_of_ne {α : Type} {entries : List (Text × α)} (hne : key ≠ id) (value : α) :
    find? (assign entries id value) key = find? entries key := by
  have hne' : id ≠ key := fun e => hne e.symm
  induction entries with
  | nil => simp [assign, find?, hne']
  | cons e rest ih =>
    unfold assign
    by_cases he : e.1 = id
    · simp [find?, he, hne']
    · by_cases hk : e.1 = key
      · simp [find?, hk, hne]
      · simpa [find?, he, hk] using ih

/-- The rules of other kinds stay. -/
theorem get?_override_ne (hne : key ≠ id) (book : RuleBook) (rule : Rule) :
    (book.override id rule).get? key = book.get? key := by
  simp only [get?, override, find?_assign_of_ne hne]

end RuleBook

end Hyperchess
