import Hyperchess.Settings.Codec
import Hyperchess.Settings.Draft

/-!
# The store of settings

Each kind of settings has a file. A store knows where the files are and in which format they are written; what is in
them is part of the files. Loading falls back to the defaults if a file is missing or cannot be understood. Saving gives
the files after it in any case, since a file may be written in part.
-/

namespace Hyperchess

/-- Where settings are kept, and how. -/
structure SettingsFile where
  path : FilePath
  codec : Codec

/-- A store of settings. Besides the files of the two kinds there may be files under other names. -/
structure SettingsStore where
  formats : Formats
  engine : SettingsFile
  logging : SettingsFile
  others : List (Text × SettingsFile) := []

namespace SettingsStore

/-! ## Files -/

/-- The file of a kind of settings. -/
def file (s : SettingsStore) : SettingsKind → SettingsFile
  | .engine => s.engine
  | .logging => s.logging

/-- The file under a name. -/
def file? (s : SettingsStore) (name : Text) : Option SettingsFile :=
  match SettingsKind.ofName? name with
  | some kind => some (s.file kind)
  | none => s.others.lookup name

/-- A store in a directory, with its files in YAML. -/
def inDirectory (formats : Formats) (dir : FilePath) : SettingsStore where
  formats := formats
  engine := ⟨dir.join ["engine_config.yaml"], formats.yaml⟩
  logging := ⟨dir.join ["logging_config.yaml"], formats.yaml⟩

/-- The store with another file under a name. -/
def withFile (s : SettingsStore) (name : Text) (path : FilePath) : SettingsStore :=
  let file : SettingsFile := ⟨path, s.formats.ofPath path⟩
  match SettingsKind.ofName? name with
  | some .engine => { s with engine := file }
  | some .logging => { s with logging := file }
  | none => { s with others := (name, file) :: s.others }

/-! ## Loading and saving -/

/-- The faults that make settings fall back to their defaults. -/
def isForgiven : Fault → Bool
  | .missingFile | .isDirectory | .notDirectory | .existingFile | .refused | .badDocument | .wrongType | .lacksMember =>
    true
  | _ => false

/-- The settings in a file, read as settings of a kind. -/
def settingsIn (fs : Files) (f : SettingsFile) (kind : SettingsKind) : Except Fault Settings := do
  Settings.ofData kind (← f.codec.read (← fs.source f.path))

/-- The settings in a file; nothing if it is missing or cannot be understood. -/
def found? (fs : Files) (f : SettingsFile) (kind : SettingsKind) : Except Fault (Option Settings) :=
  if fs.contains f.path then
    match settingsIn fs f kind with
    | .ok settings => .ok (some settings)
    | .error e => if isForgiven e then .ok none else .error e
  else .ok none

/-- The settings of a kind: those in its file, or the defaults. -/
def load (s : SettingsStore) (fs : Files) (kind : SettingsKind) : Except Fault Settings := do
  return (← found? fs (s.file kind) kind).getD (Settings.ofKind kind)

/-- The settings under a name, read as settings of a kind. Only the two kinds have defaults under their names. -/
def loadAs (s : SettingsStore) (fs : Files) (name : Text) (kind : SettingsKind) : Except Fault Settings := do
  let settings? ← match s.file? name with
    | some f => found? fs f kind
    | none => pure none
  match settings? with
  | some settings => return settings
  | none => return Settings.ofKind (← SettingsKind.known name)

/-- Saves settings in a file. -/
def saveIn (fs : Files) (f : SettingsFile) (document : Except Fault Data) : Except Fault Unit × Files :=
  match document with
  | .ok d => f.codec.store fs f.path d
  | .error e => (.error e, fs)

/-- Saves settings under a kind. -/
def save (s : SettingsStore) (fs : Files) (kind : SettingsKind) (settings : Settings) : Except Fault Unit × Files :=
  saveIn fs (s.file kind) (settings.document s.formats.nesting)

/-- Saves settings under a name. -/
def saveAs (s : SettingsStore) (fs : Files) (name : Text) (settings : Settings) : Except Fault Unit × Files :=
  match s.file? name with
  | some f => saveIn fs f (settings.document s.formats.nesting)
  | none => (.error (.unknownSettings name), fs)

/-- Saves the defaults under a kind that has no file yet. -/
def createMissing (s : SettingsStore) (fs : Files) (kind : SettingsKind) : Except Fault Files :=
  if fs.contains (s.file kind).path then .ok fs
  else
    match s.save fs kind (Settings.ofKind kind) with
    | (.ok _, fs) => .ok fs
    | (.error e, _) => .error e

/-- The files with a directory for settings and every file in it. -/
def establish (formats : Formats) (fs : Files) (dir : FilePath) : Except Fault Files := do
  let fs ← fs.makeDirectory dir
  let fs ← (inDirectory formats dir).createMissing fs .engine
  (inDirectory formats dir).createMissing fs .logging

/-! ## Changes -/

/-- The document of the settings of a kind after changes. -/
def changed (s : SettingsStore) (fs : Files) (kind : SettingsKind) (entries : List (Data × Data)) :
    Except Fault Data := do
  let settings ← s.load fs kind
  let _ ← settings.document s.formats.nesting
  (← (Draft.ofSettings settings).overlay entries).document s.formats.nesting

/-- Changes the settings of a kind; keys that are no fields have no effect. -/
def update (s : SettingsStore) (fs : Files) (kind : SettingsKind) (entries : List (Data × Data)) :
    Except Fault Unit × Files :=
  saveIn fs (s.file kind) (s.changed fs kind entries)

/-- Puts the defaults in place of the settings of a kind. -/
def reset (s : SettingsStore) (fs : Files) (kind : SettingsKind) : Except Fault Unit × Files :=
  s.save fs kind (Settings.ofKind kind)

/-- The settings of all kinds as one document. -/
def all (s : SettingsStore) (fs : Files) : Except Fault Data := do
  let engine ← s.load fs .engine
  let logging ← s.load fs .logging
  return .map [(.text SettingsKind.engine.name, ← engine.document s.formats.nesting),
    (.text SettingsKind.logging.name, ← logging.document s.formats.nesting)]

/-- Writes all settings to one more file, whose name tells the format. -/
def exportTo (s : SettingsStore) (fs : Files) (path : FilePath) : Except Fault Unit × Files :=
  match s.all fs with
  | .ok d => (s.formats.ofPath path.normal).store fs path.normal d
  | .error e => (.error e, fs)

end SettingsStore

end Hyperchess
