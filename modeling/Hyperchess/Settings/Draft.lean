import Hyperchess.Settings

/-!
# Settings under change

A draft is what settings are while they are changed one name at a time. Most names are those of fields, and a name that
means nothing has no effect. A few names are reserved: they stand for the whole table of values or for the list of
fields, or cannot be assigned. So a draft may have lost a value, and then no document can be made of it. Main statement:
a draft with nothing changed has the document of its settings (`document_ofSettings`).
-/

namespace Hyperchess

/-- Which fields a draft says that it has. -/
inductive FieldListing where
  | complete
  | empty
  /-- The list has been replaced by something that is none. -/
  | broken
  deriving DecidableEq, Repr, Inhabited

/-- Settings under change: values of their own, and the list of fields. -/
structure Draft where
  kind : SettingsKind
  values : List (Text × Data)
  listing : FieldListing := .complete
  deriving Repr, Inhabited

namespace Draft

/-- The draft of settings in which nothing has been changed. -/
def ofSettings (s : Settings) : Draft := ⟨s.kind, s.values, .complete⟩

/-- The value that a field of a kind has in a draft without a value of its own; a list belongs to each draft alone. -/
def common? (kind : SettingsKind) (field : Text) : Option Data :=
  match (Settings.ofKind kind).get? field with
  | some (.list _) | none => none
  | some d => some d

/-- The value of a field. -/
def get? (d : Draft) (field : Text) : Option Data :=
  match (d.values.find? fun e => e.1 == field).map (·.2) with
  | some value => some value
  | none => common? d.kind field

/-- The draft with another value for a field; a field that has no value gets none. -/
def assign (d : Draft) (field : Text) (value : Data) : Draft :=
  if (d.get? field).isNone then d
  else if d.values.any fun e => e.1 == field then { d with values := Settings.assign d.values field value }
  else { d with values := d.values ++ [(field, value)] }

/-! ## Reserved names -/

/-- The name of the table of values. -/
def tableName : Text := "__dict__"

/-- The name of the list of fields. -/
def listingName : Text := "__dataclass_fields__"

/-- The listing that a value stands for. -/
def listingOf (value : Data) : FieldListing := if value = .map [] then .empty else .broken

/-- The draft with a map in place of its table of values. -/
def withTable (d : Draft) (entries : List (Data × Data)) : Draft where
  kind := d.kind
  values := entries.filterMap fun e => match e.1 with | .text name => some (name, e.2) | _ => none
  listing := match Data.lookup (.text listingName) entries with | some value => listingOf value | none => .complete

/-- The draft with another value under a name. -/
def set (d : Draft) (name : Text) (value : Data) : Except Fault Draft :=
  if name = tableName then
    match value with
    | .map entries => .ok (d.withTable entries)
    | _ => .error .wrongType
  else if name = listingName then .ok { d with listing := listingOf value }
  else if name = "__class__" then .error .wrongType
  else if name = "__weakref__" then .error .lacksMember
  else if d.kind.fields.contains name then .ok (d.assign name value)
  else .ok d

/-- The draft with other values under the names among the keys of a map, in their order. -/
def overlay (d : Draft) (entries : List (Data × Data)) : Except Fault Draft :=
  entries.foldlM (fun d e => match e.1 with | .text name => d.set name e.2 | _ => .ok d) d

/-! ## Documents -/

/-- The entry of a field in a document. -/
def entry (d : Draft) (field : Text) : Except Fault (Data × Data) :=
  match d.get? field with
  | some value => .ok (.text field, value)
  | none => .error .lacksMember

/-- The document of a draft, with the fields in their order, unless it is nested too deeply. -/
def document (limit : Option Nat) (d : Draft) : Except Fault Data :=
  match d.listing with
  | .complete => do Settings.checkDepth limit (.map (← d.kind.fields.mapM d.entry))
  | .empty => .ok (.map [])
  | .broken => .error .lacksMember

/-! ## Laws -/

theorem nodup_fields (kind : SettingsKind) : kind.fields.Nodup := by
  cases kind <;> decide

theorem find?_of_mem {values : List (Text × Data)} (h : (values.map (·.1)).Nodup) {e : Text × Data}
    (he : e ∈ values) : values.find? (fun f => f.1 == e.1) = some e := by
  induction values with
  | nil => cases he
  | cons f rest ih =>
    rw [List.map_cons, List.nodup_cons] at h
    rcases List.mem_cons.1 he with rfl | hm
    · simp
    · have : f.1 ≠ e.1 := fun k => h.1 (k ▸ List.mem_map_of_mem hm)
      simpa [this] using ih h.2 hm

/-- Every field of settings has its value in their draft. -/
theorem entry_ofSettings (s : Settings) {e : Text × Data} (he : e ∈ s.values) :
    (ofSettings s).entry e.1 = .ok (.text e.1, e.2) := by
  have h : (s.values.map (·.1)).Nodup := s.names_eq ▸ nodup_fields s.kind
  simp [entry, get?, ofSettings, find?_of_mem h he]

theorem mapM_entry {d : Draft} {values : List (Text × Data)}
    (h : ∀ e ∈ values, d.entry e.1 = .ok (.text e.1, e.2)) :
    (values.map (·.1)).mapM d.entry = .ok (values.map fun e => (.text e.1, e.2)) := by
  induction values with
  | nil => rfl
  | cons e rest ih =>
    rw [List.map_cons, List.mapM_cons, h e List.mem_cons_self,
      ih fun f hf => h f (List.mem_cons_of_mem e hf)]
    rfl

/-- A draft with nothing changed has the document of its settings. -/
theorem document_ofSettings (limit : Option Nat) (s : Settings) :
    (ofSettings s).document limit = s.document limit := by
  have h : s.kind.fields.mapM (ofSettings s).entry = .ok (s.values.map fun e => (Data.text e.1, e.2)) := by
    rw [← s.names_eq]
    exact mapM_entry fun _ he => entry_ofSettings s he
  show (s.kind.fields.mapM (ofSettings s).entry >>= fun entries => Settings.checkDepth limit (Data.map entries)) =
    s.document limit
  rw [h]
  rfl

end Draft

end Hyperchess
