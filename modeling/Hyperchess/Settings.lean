import Hyperchess.Layout

/-!
# Settings

Settings are a fixed list of named fields. A field holds any plain value: what a file gives is kept, and a value of the
wrong kind is refused only where it is used. Main statements: an assigned field has its new value (`get?_set`) and all
others keep theirs (`get?_set_ne`).
-/

namespace Hyperchess

/-- What settings are for. -/
inductive SettingsKind where
  | engine
  | logging
  deriving DecidableEq, Repr, Inhabited

namespace SettingsKind

/-- The name of a kind of settings. -/
def name : SettingsKind → String
  | engine => "engine"
  | logging => "logging"

/-- The kind with a name. -/
def ofName? (name : Text) : Option SettingsKind :=
  if name = "engine" then some engine else if name = "logging" then some logging else none

/-- The kind with a name, for reading. -/
def known (name : Text) : Except Fault SettingsKind :=
  match ofName? name with
  | some kind => .ok kind
  | none => .error .unknownName

/-- The kind with a name, for changing it: an unknown name is reported. -/
def changeable (name : Text) : Except Fault SettingsKind :=
  match ofName? name with
  | some kind => .ok kind
  | none => .error (.unknownSettings name)

theorem ofName?_name (kind : SettingsKind) : ofName? kind.name = some kind := by
  cases kind <;> rfl

/-- The fields with their defaults, in order. -/
def defaults : SettingsKind → List (Text × Data)
  | engine => [
    ("default_layout", .text Layout.standard),
    ("royal_piece_ids", .list [.text "K"]),
    ("enable_move_cache", .bool true),
    ("custom_rules_file", .null)]
  | logging => [
    ("level", .text "INFO"),
    ("log_file", .null),
    ("log_dir", .text "logs/hika_engine"),
    ("max_size", .int 10),
    ("backup_count", .int 5),
    ("console_output", .bool true)]

/-- The names of the fields, in order. -/
def fields (kind : SettingsKind) : List Text := kind.defaults.map (·.1)

end SettingsKind

/-- Settings of a kind: a value for each of its fields. -/
structure Settings where
  kind : SettingsKind
  values : List (Text × Data)
  names_eq : values.map (·.1) = kind.fields

namespace Settings

/-- The settings in which every field has its default. -/
def ofKind (kind : SettingsKind) : Settings := ⟨kind, kind.defaults, rfl⟩

instance : Inhabited Settings := ⟨ofKind default⟩

/-- The value of a field. -/
def get? (s : Settings) (field : Text) : Option Data :=
  (s.values.find? fun e => e.1 == field).map (·.2)

/-- The value of a field, null if there is no such field. -/
def get (s : Settings) (field : Text) : Data := (s.get? field).getD .null

/-- The value of one field replaced. -/
def assign (values : List (Text × Data)) (field : Text) (value : Data) : List (Text × Data) :=
  values.map fun e => if e.1 = field then (e.1, value) else e

theorem map_fst_assign (values : List (Text × Data)) (field : Text) (value : Data) :
    (assign values field value).map (·.1) = values.map (·.1) := by
  unfold assign
  rw [List.map_map]
  refine List.map_congr_left fun e _ => ?_
  by_cases h : e.1 = field <;> simp [h]

/-- The settings with another value for a field; a name that is no field has no effect. -/
def set (s : Settings) (field : Text) (value : Data) : Settings where
  kind := s.kind
  values := assign s.values field value
  names_eq := (map_fst_assign ..).trans s.names_eq

/-- The settings with other values for the fields among the keys of a map. All other keys are ignored. -/
def overlay (s : Settings) (entries : List (Data × Data)) : Settings :=
  entries.foldl (fun s e => match e.1 with | .text field => s.set field e.2 | _ => s) s

/-- Settings from named values. A name that is no field is refused. -/
def ofArguments (kind : SettingsKind) (entries : List (Data × Data)) : Except Fault Settings :=
  if entries.all fun e => match e.1 with | .text field => kind.fields.contains field | _ => false then
    .ok ((ofKind kind).overlay entries)
  else .error .wrongType

/-- The settings that a document stands for: the defaults with the fields that it has. An empty value stands for a map
without entries. -/
def ofData (kind : SettingsKind) (d : Data) : Except Fault Settings :=
  if d.truthy then
    match d with
    | .map entries => .ok ((ofKind kind).overlay entries)
    | _ => .error .lacksMember
  else .ok (ofKind kind)

/-- The settings as a map, in the order of the fields. -/
def toData (s : Settings) : Data := .map (s.values.map fun e => (.text e.1, e.2))

/-- Refuses a document in which more lists and maps than a limit are inside one another. -/
def checkDepth (limit : Option Nat) (d : Data) : Except Fault Data :=
  if d.isShallow limit then .ok d else .error .tooDeep

/-- The document of settings, unless it is nested too deeply. -/
def document (limit : Option Nat) (s : Settings) : Except Fault Data := checkDepth limit s.toData

/-! ## Laws -/

theorem find?_assign (values : List (Text × Data)) (field : Text) (value : Data) :
    ((assign values field value).find? fun e => e.1 == field).map (·.2) =
      ((values.find? fun e => e.1 == field).map (·.2)).map fun _ => value := by
  induction values with
  | nil => rfl
  | cons e rest ih =>
    by_cases h : e.1 = field
    · simp [assign, h]
    · simpa [assign, h] using ih

theorem find?_assign_ne (values : List (Text × Data)) {field other : Text} (value : Data) (h : other ≠ field) :
    ((assign values field value).find? fun e => e.1 == other).map (·.2) =
      (values.find? fun e => e.1 == other).map (·.2) := by
  induction values with
  | nil => rfl
  | cons e rest ih =>
    by_cases hf : e.1 = field
    · have hn : field ≠ other := fun k => h k.symm
      simpa [assign, hf, hn] using ih
    · by_cases ho : e.1 = other
      · simp [assign, ho, h]
      · simpa [assign, hf, ho] using ih

/-- An assigned field has its new value. -/
theorem get?_set (s : Settings) (field : Text) (value : Data) :
    (s.set field value).get? field = (s.get? field).map fun _ => value :=
  find?_assign ..

/-- Other fields keep their values. -/
theorem get?_set_ne (s : Settings) {field other : Text} (value : Data) (h : other ≠ field) :
    (s.set field value).get? other = s.get? other :=
  find?_assign_ne _ _ h

end Settings

end Hyperchess
