import Hyperchess.Proofs.Outcome
import Hyperchess.Yaml.Node

/-!
# Values of nodes by recursion on the depth

The value of a node is found by recursion on the nodes below it and on how deep they are at once. By recursion on the
depth alone, with items and entries gone through by the general functions for this, it is the same value
(`Node.value_eq`), and can be computed by unfolding (`read_eq`).
-/

namespace Hyperchess.Yaml

namespace Node

/-- The value of a node without faults that is nested less than `fuel` deep. -/
def valueWithin : (fuel : Nat) → Node → Except ReadError Data
  | 0, _ => .error .malformed
  | _ + 1, .scalar plain text => scalarData plain text
  | fuel + 1, .sequence items => do return .list (← items.mapM (valueWithin fuel))
  | fuel + 1, .mapping entries => do
    let entries ← (← entriesOf entries).foldlM (fun done e => do
      let k ← keyData e.1
      return Data.put done k (← valueWithin fuel e.2)) []
    return .map entries

variable {fuel : Nat}

theorem itemsValue_eq (h : ∀ n, value fuel n = valueWithin fuel n) (items : List Node) :
    itemsValue fuel items = items.mapM (valueWithin fuel) := by
  induction items with
  | nil =>
    rw [itemsValue]
    rfl
  | cons n rest ih => rw [itemsValue, List.mapM_cons, h n, ih]

theorem entriesValue_eq (h : ∀ n, value fuel n = valueWithin fuel n) (done : List (Data × Data))
    (entries : List (Node × Node)) : entriesValue fuel done entries = entries.foldlM (fun done e => do
      let k ← keyData e.1
      return Data.put done k (← valueWithin fuel e.2)) done := by
  induction entries generalizing done with
  | nil =>
    rw [entriesValue]
    rfl
  | cons e rest ih =>
    obtain ⟨key, n⟩ := e
    rw [entriesValue, List.foldlM_cons]
    cases keyData key with
    | error e => rfl
    | ok k =>
      rw [Outcome.ok_bind, Outcome.ok_bind, h n]
      cases valueWithin fuel n with
      | error e => rfl
      | ok d => exact ih (Data.put done k d)

theorem value_eq (fuel : Nat) (n : Node) : value fuel n = valueWithin fuel n := by
  induction fuel generalizing n with
  | zero => rw [value, valueWithin]
  | succ fuel ih =>
    cases n with
    | scalar plain text => rw [value, valueWithin]
    | sequence items => rw [value, valueWithin, itemsValue_eq ih]
    | mapping entries =>
      rw [value, valueWithin]
      cases entriesOf entries with
      | error e => rfl
      | ok entries => rw [Outcome.ok_bind, Outcome.ok_bind, entriesValue_eq ih]

end Node

/-- What is read, with the value found by recursion on the depth. -/
theorem read_eq (limit : Option Nat) (s : Source) : read limit s = (do
    match ← Node.ofDocument (limit.getD (tokens s).length) (tokens s) with
    | none => return .null
    | some n =>
      match n.firstError with
      | some e => .error e
      | none => n.valueWithin (n.depth + 1)) := by
  unfold read
  extract_lets all
  cases Node.ofDocument (limit.getD all.length) all with
  | error e => rfl
  | ok n? =>
    cases n? with
    | none => rfl
    | some n =>
      rw [Outcome.ok_bind, Outcome.ok_bind]
      simp only [Node.data]
      cases n.firstError with
      | some e => rfl
      | none => exact Node.value_eq (n.depth + 1) n

end Hyperchess.Yaml
