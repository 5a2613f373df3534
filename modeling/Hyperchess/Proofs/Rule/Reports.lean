import Hyperchess.Proofs.Outcome
import Hyperchess.Rule.OfData

/-!
# Reports on data for rules

Malformed data for a rule is reported under the kind whose rule it is, with two exceptions: what stands under `branches`
or `conditions` is gone through without being looked at first, and it may be a value that cannot be gone through
(`Data.isOpen`); and a value that is shown in a report may contain an integer with too many digits
(`Data.isWritable`). Main statement: there are no other exceptions, and every value that cannot be gone through is one
(`ofData_refused`).
-/

namespace Hyperchess

namespace Data

/-! ## Values that are gone through -/

/-- The value can be gone through: it is a list, a text or a map. -/
def hasMembers (d : Data) : Bool := d.members.isOk

/-- What a map has for this key is gone through. -/
def isOpened (key : Data) : Bool := key.same (.text "branches") || key.same (.text "conditions")

mutual

/-- Wherever there is a map in the value, what it has for `branches` and for `conditions` can be gone through. -/
def isOpen : Data → Bool
  | .list items => areOpen items
  | .map entries => areOpenEntries entries
  | _ => true

/-- What maps in these items have for `branches` and for `conditions` can be gone through. -/
def areOpen : List Data → Bool
  | [] => true
  | x :: rest => isOpen x && areOpen rest

/-- What these entries have for `branches` and for `conditions` can be gone through, and likewise inside them. -/
def areOpenEntries : List (Data × Data) → Bool
  | [] => true
  | (k, x) :: rest => (!isOpened k || x.hasMembers) && isOpen k && isOpen x && areOpenEntries rest

end

variable {d whole v : Data} {items : List Data} {entries : List (Data × Data)} {key : Text}

theorem areOpen_iff : areOpen items = true ↔ ∀ x ∈ items, x.isOpen = true := by
  induction items with
  | nil => simp [areOpen]
  | cons x rest ih => simp [areOpen, ih]

theorem areOpenEntries_iff : areOpenEntries entries = true ↔
    ∀ e ∈ entries, (isOpened e.1 = true → e.2.hasMembers = true) ∧ e.1.isOpen = true ∧ e.2.isOpen = true := by
  induction entries with
  | nil => simp [areOpenEntries]
  | cons e rest ih =>
    obtain ⟨k, x⟩ := e
    have hopened : (!isOpened k || x.hasMembers) = true ↔ (isOpened k = true → x.hasMembers = true) := by
      cases isOpened k <;> simp
    rw [areOpenEntries, Bool.and_eq_true, Bool.and_eq_true, Bool.and_eq_true, hopened, ih, List.forall_mem_cons,
      and_assoc (b := k.isOpen = true)]

/-! ## Parts -/

/-- If something is wrong with the one value, it is with the other one, too. -/
structure Part (d whole : Data) : Prop where
  isOpen (h : whole.isOpen = true) : d.isOpen = true
  isWritable (h : whole.isWritable = true) : d.isWritable = true

theorem Part.trans (h : v.Part d) (k : d.Part whole) : v.Part whole :=
  ⟨fun hw => h.isOpen (k.isOpen hw), fun hw => h.isWritable (k.isWritable hw)⟩

theorem part_item (h : d ∈ items) : d.Part (.list items) :=
  ⟨fun hopen => areOpen_iff.1 hopen d h, fun hwrite => areWithin_iff.1 hwrite d h⟩

theorem part_key {e : Data × Data} (h : e ∈ entries) : e.1.Part (.map entries) :=
  ⟨fun hopen => (areOpenEntries_iff.1 hopen e h).2.1, fun hwrite => (areWithinEntries_iff.1 hwrite e h).1⟩

theorem part_value {e : Data × Data} (h : e ∈ entries) : e.2.Part (.map entries) :=
  ⟨fun hopen => (areOpenEntries_iff.1 hopen e h).2.2, fun hwrite => (areWithinEntries_iff.1 hwrite e h).2⟩

/-- A value is gone through part by part. -/
theorem part_member (h : d.members = .ok items) (hv : v ∈ items) : v.Part d := by
  unfold members at h
  split at h
  · cases h
    exact part_item hv
  · cases h
    obtain ⟨p, -, rfl⟩ := List.mem_map.1 hv
    exact ⟨fun _ => rfl, fun _ => rfl⟩
  · cases h
    obtain ⟨e, he, rfl⟩ := List.mem_map.1 hv
    exact part_key he
  · cases h

theorem part_lookup (h : lookup (.text key) entries = some v) : v.Part (.map entries) := by
  obtain ⟨e, he, rfl⟩ := Option.map_eq_some_iff.1 h
  exact part_value (List.mem_of_find?_eq_some he)

theorem part_get (h : d.get? key = some v) : v.Part d := by
  unfold get? at h
  split at h
  · exact part_lookup h
  · cases h

/-- What stands under a key that is gone through, but cannot be gone through, is wrong with the whole map. -/
theorem not_isOpen_of_mem {e : Data × Data} (he : e ∈ entries) (hkey : isOpened e.1 = true)
    (h : e.2.hasMembers = false) : (Data.map entries).isOpen = false := by
  rw [Bool.eq_false_iff]
  intro hopen
  have hmembers := (areOpenEntries_iff.1 hopen e he).1 hkey
  exact Bool.false_ne_true (h.symm.trans hmembers)

end Data

namespace Rule

variable {id : Text} {d whole : Data} {α β : Type}

/-! ## Refusals -/

/-- How data can be refused: with a report under the kind; as a value that cannot be gone through, if there is one in
it; or because an integer cannot be shown, if there is one in it. -/
inductive RefusedAs (id : Text) (d : Data) : Fault → Prop
  | malformed (reason : Text) : RefusedAs id d (.ruleDefinition id reason)
  | closed (h : d.isOpen = false) : RefusedAs id d .wrongType
  | unwritable (h : d.isWritable = false) : RefusedAs id d .tooManyDigits

theorem RefusedAs.of_part {f : Fault} (h : RefusedAs id d f) (hpart : d.Part whole) : RefusedAs id whole f := by
  cases h with
  | malformed reason => exact .malformed reason
  | closed h => exact .closed (Bool.eq_false_iff.2 fun hopen => Bool.eq_false_iff.1 h (hpart.isOpen hopen))
  | unwritable h => exact .unwritable (Bool.eq_false_iff.2 fun hw => Bool.eq_false_iff.1 h (hpart.isWritable hw))

/-- A reading fails only in ways in which this data can be refused. -/
def Reported (id : Text) (d : Data) (x : Except Fault α) : Prop := ∀ f, x = .error f → RefusedAs id d f

namespace Reported

theorem ok (a : α) : Reported id d (.ok a) := fun _ h => nomatch h

theorem error {f : Fault} (h : RefusedAs id d f) : Reported id d (.error f : Except Fault α) := by
  intro _ hf
  cases hf
  exact h

theorem of_part {x : Except Fault α} (h : Reported id d x) (hpart : d.Part whole) : Reported id whole x :=
  fun f hf => (h f hf).of_part hpart

theorem bind {x : Except Fault α} {f : α → Except Fault β} (hx : Reported id d x)
    (hf : ∀ a, x = .ok a → Reported id d (f a)) : Reported id d (x >>= f) := by
  cases x with
  | error e => exact .error (hx e rfl)
  | ok a => exact hf a rfl

/-- What is done to a result adds no failures. -/
theorem map {x : Except Fault α} (hx : Reported id d x) (f : α → β) : Reported id d (do return f (← x)) :=
  hx.bind fun a _ => .ok (f a)

theorem mapM {f : α → Except Fault β} {xs : List α} (h : ∀ x ∈ xs, Reported id d (f x)) :
    Reported id d (xs.mapM f) := by
  intro e he
  obtain ⟨x, hx, hfail⟩ := Outcome.exists_of_mapM_eq_error he
  exact h x hx e hfail

/-- A refusal in which the data is shown. -/
theorem refused (reason : Text) : Reported id d (.error (Rule.refused id reason d) : Except Fault α) := by
  unfold Rule.refused
  split
  · exact .error (.malformed _)
  · rename_i h
    exact .error (.unwritable (Bool.eq_false_iff.2 h))

end Reported

/-! ## Values in nodes -/

theorem coordOf_reported (d : Data) : Reported id d (coordOf id d) := by
  unfold coordOf
  split
  · exact .ok _
  · split
    · exact .ok _
    · exact .refused _
  · exact .refused _

theorem stepsOf_reported (d : Data) : Reported id d (stepsOf id d) := by
  unfold stepsOf
  split
  · exact .ok _
  · exact .ok _
  · exact .ok _
  · split
    · exact .ok _
    · exact .refused _
  · exact .refused _

theorem integerOf_reported (name : Text) (d : Data) : Reported id d (integerOf id name d) := by
  unfold integerOf
  split
  · exact .ok _
  · exact .ok _
  · exact .refused _

/-- The reading of a field, which is null if it is left out. -/
theorem field_reported {read : Data → Except Fault α} (h : ∀ v, Reported id v (read v)) (key : Text)
    (hnull : ∃ a, read .null = .ok a) : Reported id d (read ((d.get? key).getD .null)) := by
  cases hv : d.get? key with
  | none =>
    obtain ⟨a, ha⟩ := hnull
    show Reported id d (read .null)
    rw [ha]
    exact .ok a
  | some v => exact (h v).of_part (Data.part_get hv)

theorem coordIn_reported (key : Text) : Reported id d (coordIn id d key) := by
  unfold coordIn
  split
  · exact .ok _
  · rename_i v hv
    exact ((coordOf_reported v).of_part (Data.part_get hv)).map some

theorem conditionOf_reported (d : Data) : Reported id d (conditionOf id d) := by
  unfold conditionOf
  split
  · refine (field_reported (integerOf_reported "team") "team" ⟨_, rfl⟩).bind fun team _ => ?_
    refine (field_reported (integerOf_reported "flag") "flag" ⟨_, rfl⟩).bind fun flag _ => ?_
    refine (coordIn_reported "piece").bind fun piece _ => ?_
    exact (coordIn_reported "enemy").map _
  · exact .refused _

theorem members_reported {v : Data} (hclosed : v.hasMembers = false → whole.isOpen = false) :
    Reported id whole v.members := by
  cases v with
  | list _ | text _ | map _ => exact .ok _
  | _ => exact .error (.closed (hclosed rfl))

theorem termsOf_reported (entries : List (Data × Data)) :
    Reported id (.map entries) (termsOf id (.map entries)) := by
  unfold termsOf
  refine (field_reported stepsOf_reported "repeat" ⟨_, rfl⟩).bind fun steps _ => ?_
  refine (field_reported (integerOf_reported "attack") "attack" ⟨_, rfl⟩).bind fun captures _ => ?_
  cases hv : (Data.map entries).get? "conditions" with
  | none => exact .ok _
  | some v =>
    obtain ⟨e, he, rfl⟩ := Option.map_eq_some_iff.1 hv
    have hsame := List.find?_some he
    have hkey : Data.isOpened e.1 = true := Bool.or_eq_true_iff.2 (.inr hsame)
    refine (members_reported (Data.not_isOpen_of_mem (List.mem_of_find?_eq_some he) hkey)).bind fun items hitems => ?_
    refine Reported.map (.mapM fun c hc => ?_) _
    exact (conditionOf_reported c).of_part ((Data.part_member hitems hc).trans (Data.part_get hv))

/-! ## Nodes

The induction is on the data. What is read of a list or of entries is reported on as part of a whole that stays the same
while they become fewer. -/

mutual

theorem pathOf_reported (d : Data) : Reported id d (pathOf id d) := by
  match d with
  | .text s => exact .ok _
  | .map entries =>
    rw [pathOf]
    refine (termsOf_reported entries).bind fun terms _ => ?_
    cases hdirection : Data.lookup (.text "direction") entries with
    | some v => exact ((coordOf_reported v).of_part (Data.part_lookup hdirection)).map _
    | none =>
      cases hbelow : branchesIn id entries with
      | some below =>
        have hparts : ∀ e ∈ entries, e.2.Part (.map entries) := fun e he => Data.part_value he
        have hclosed : ∀ e ∈ entries, Data.isOpened e.1 = true → e.2.hasMembers = false →
            (Data.map entries).isOpen = false := fun e he => Data.not_isOpen_of_mem he
        exact (branchesIn_reported entries hparts hclosed hbelow).map _
      | none => exact .ok _
  | .null | .bool _ | .int _ | .float _ | .time _ | .list _ => exact .refused _

theorem branchesIn_reported (entries : List (Data × Data)) {whole : Data} (hparts : ∀ e ∈ entries, e.2.Part whole)
    (hclosed : ∀ e ∈ entries, Data.isOpened e.1 = true → e.2.hasMembers = false → whole.isOpen = false)
    {below : Except Fault (List Path)} (h : branchesIn id entries = some below) : Reported id whole below := by
  match entries with
  | [] => cases h
  | (key, v) :: rest =>
    obtain ⟨hfirst, hrest⟩ := List.forall_mem_cons.1 hparts
    obtain ⟨hfirst', hrest'⟩ := List.forall_mem_cons.1 hclosed
    rw [branchesIn] at h
    split at h
    · rename_i hkey
      cases h
      exact pathsIn_reported v hfirst (hfirst' (Bool.or_eq_true_iff.2 (.inl hkey)))
    · exact branchesIn_reported rest hrest hrest' h

theorem pathsIn_reported (d : Data) {whole : Data} (hpart : d.Part whole)
    (hclosed : d.hasMembers = false → whole.isOpen = false) : Reported id whole (pathsIn id d) := by
  match d with
  | .list items => exact pathsOf_reported items fun x hx => (Data.part_item hx).trans hpart
  | .text s => exact .ok _
  | .map entries => exact pathsOfKeys_reported entries fun e he => (Data.part_key he).trans hpart
  | .null | .bool _ | .int _ | .float _ | .time _ => exact .error (.closed (hclosed rfl))

theorem pathsOf_reported (items : List Data) {whole : Data} (hparts : ∀ x ∈ items, x.Part whole) :
    Reported id whole (pathsOf id items) := by
  match items with
  | [] => exact .ok _
  | x :: rest =>
    obtain ⟨hfirst, hrest⟩ := List.forall_mem_cons.1 hparts
    exact ((pathOf_reported x).of_part hfirst).bind fun path _ => (pathsOf_reported rest hrest).map _

theorem pathsOfKeys_reported (entries : List (Data × Data)) {whole : Data}
    (hparts : ∀ e ∈ entries, e.1.Part whole) : Reported id whole (pathsOfKeys id entries) := by
  match entries with
  | [] => exact .ok _
  | (key, v) :: rest =>
    obtain ⟨hfirst, hrest⟩ := List.forall_mem_cons.1 hparts
    exact ((pathOf_reported key).of_part hfirst).bind fun path _ => (pathsOfKeys_reported rest hrest).map _

end

theorem ofData_reported (d : Data) : Reported id d (ofData id d) := by
  unfold ofData
  split
  · exact .error (.malformed _)
  · rename_i items h
    have hparts : ∀ x ∈ items, x.Part d := fun x hx => (Data.part_item hx).trans (Data.part_get h)
    exact (pathsOf_reported items hparts).map _
  · exact .error (.malformed _)

/-- **What is reported on data for a rule.**
- The data of a kind gives a rule, or is reported as malformed under this kind, unless there is in it, under `branches`
  or `conditions`, something that cannot be gone through, or an integer with too many digits to be shown.
- What cannot be gone through is not reported as malformed if it is all there is in the first node, whatever nodes
  follow. -/
theorem ofData_refused (id : Text) (d : Data) :
    ((∃ rule, ofData id d = .ok rule) ∨ (∃ reason, ofData id d = .error (.ruleDefinition id reason)) ∨
      (ofData id d = .error .wrongType ∧ d.isOpen = false) ∨
      (ofData id d = .error .tooManyDigits ∧ d.isWritable = false)) ∧
    ∀ (key : Text) (v : Data) (rest : List Data), Data.isOpened (.text key) = true → v.hasMembers = false →
      ofData id (.map [(.text "path_tree", .list (.map [(.text key, v)] :: rest))]) = .error .wrongType := by
  constructor
  · cases h : ofData id d with
    | ok rule => exact .inl ⟨rule, rfl⟩
    | error f =>
      cases ofData_reported d f h with
      | malformed reason => exact .inr (.inl ⟨reason, rfl⟩)
      | closed hclosed => exact .inr (.inr (.inl ⟨rfl, hclosed⟩))
      | unwritable hlong => exact .inr (.inr (.inr ⟨rfl, hlong⟩))
  · intro key v rest hkey hv
    have hname : key = "branches" ∨ key = "conditions" := by simpa [Data.isOpened, Data.same] using hkey
    cases v with
    | list _ | text _ | map _ => cases hv
    | _ => obtain rfl | rfl := hname <;> rfl

/-- A node that has nothing under `branches`. -/
theorem ofData_refused_null :
    let d : Data := .map [(.text "path_tree", .list [.map [(.text "branches", .null)]])]
    ofData "A" d = .error .wrongType ∧ d.isOpen = false := by
  intro d
  obtain ⟨-, hrefused⟩ := ofData_refused "A" d
  exact ⟨hrefused "branches" .null [] (by decide) rfl, by decide⟩

/-- It is not reported as malformed. -/
theorem not_ofData_ruleDefinition : ¬ ∀ (id : Text) (d : Data),
    (∃ rule, ofData id d = .ok rule) ∨ ∃ reason, ofData id d = .error (.ruleDefinition id reason) := by
  intro h
  obtain ⟨rule, hrule⟩ | ⟨reason, hreason⟩ :=
    h "A" (.map [(.text "path_tree", .list [.map [(.text "branches", .null)]])])
  · cases hrule
  · cases hreason

end Rule

end Hyperchess
