import Hyperchess.Files
import Hyperchess.Journal
import Hyperchess.Settings
import Hyperchess.Text.Case

/-!
# Logging

Loggers decide which entries are kept and where they go. A logger has a threshold and handlers; names with points form a
hierarchy, in which a logger without a threshold follows the next one above it, and an entry goes to the handlers of all
loggers from its own to the top. Setting up a logger that has handlers already changes nothing.
-/

namespace Hyperchess

/-- The lowest level that is let through, if there is one. -/
abbrev Threshold := Option Level

namespace Threshold

/-- The thresholds that have a name. -/
def names : List (Text × Threshold) := [
  ("DEBUG", some .debug), ("INFO", some .info), ("WARNING", some .warning), ("WARN", some .warning),
  ("ERROR", some .error), ("CRITICAL", some .critical), ("FATAL", some .critical), ("NOTSET", none)]

/-- The threshold with a name in any case; information and above for an unknown name. Two names are taken by what is no
threshold, the layout of a line and the table of layouts. -/
def ofText (t : Text) : Except Fault Threshold :=
  let name := t.upper
  if name = "BASIC_FORMAT" then .error (.badValue "Unknown level: '%(levelname)s:%(name)s:%(message)s'")
  else if name = "_STYLES" then .error .wrongType
  else
    match names.find? fun e => e.1 == name with
    | some e => .ok e.2
    | none => .ok (some .info)

/-- The name of a threshold. -/
def name : Threshold → String
  | some level => level.name
  | none => "NOTSET"

/-- Entries of the level pass. -/
def admits (t : Threshold) (level : Level) : Bool :=
  match t with
  | some least => least.rank ≤ level.rank
  | none => true

end Threshold

/-- Where entries are written. -/
inductive Sink where
  | console
  /-- A file, the size from which on it is replaced, and how many old ones are kept. -/
  | file (place : Place) (limit : Number) (backups : Data)
  deriving DecidableEq, Repr, Inhabited

/-- A sink for the entries that pass a threshold. -/
structure Handler where
  sink : Sink
  threshold : Threshold
  deriving DecidableEq, Repr, Inhabited

/-- A logger. -/
structure Logger where
  name : Text
  threshold : Threshold := none
  handlers : List Handler := []
  deriving DecidableEq, Repr, Inhabited

/-- All loggers that have been set up. -/
structure Logging where
  loggers : List Logger := []
  deriving DecidableEq, Repr, Inhabited

namespace Logging

/-- The name of the logger above all others. -/
def top : Text := "root"

/-- The name under which a logger is kept: the one at the top may also be left without a name. -/
def canonical (name : Text) : Text := if name.isEmpty then top else name

/-- The logger with a name; one that has not been set up has neither threshold nor handlers. -/
def get (l : Logging) (name : Text) : Logger :=
  (l.loggers.find? fun g => g.name == canonical name).getD ⟨canonical name, none, []⟩

/-- The loggers with one replaced or put at the end. -/
def assign (loggers : List Logger) (g : Logger) : List Logger :=
  match loggers with
  | [] => [g]
  | h :: rest => if h.name = g.name then g :: rest else h :: assign rest g

/-- The loggers with another one under its name. -/
def put (l : Logging) (g : Logger) : Logging := ⟨assign l.loggers g⟩

/-! ## Set-up -/

/-- The number of bytes in so many megabytes. -/
def megabytes : Data → Except Fault Number
  | .bool b => .ok (.int (if b then 1024 * 1024 else 0))
  | .int n => .ok (.int (n * 1024 * 1024))
  | .float x => .ok (.float ((x.mul (Binary64.ofInt 1024)).mul (Binary64.ofInt 1024)))
  | _ => .error .wrongType

/-- The file that settings for logging name, with its directory. A double point in the path of the file takes back the
part in front of it, whether that exists or not. -/
def openFile (fs : Files) (s : Settings) : Except Fault (Sink × Files) :=
  match s.get "log_dir" with
  | .text dir => do
    let fs ← fs.makeDirectory (.ofText dir)
    match s.get "log_file" with
    | .text name =>
      let limit ← megabytes (s.get "max_size")
      let place := (FilePath.join (.ofText dir) (.ofText name)).collapsed
      let path := FilePath.ofPlace place
      let _ ← fs.writable path
      return (.file place limit (s.get "backup_count"), ← if fs.isFile place then pure fs else fs.write path .empty)
    | _ => throw .wrongType
  | _ => .error .wrongType

/-- The name of the logger that a value stands for: an empty value stands for the one at the top. -/
def nameOf (d : Data) : Except Fault Text :=
  if d.truthy then
    match d with
    | .text name => .ok name
    | _ => .error .wrongType
  else .ok top

/-- Sets up a logger: its threshold, a handler for the console and one for a file, as far as the settings ask for
them. A logger with handlers is left as it is. -/
def setUp (l : Logging) (fs : Files) (name : Text) (s : Settings) : Except Fault Unit × Logging × Files :=
  let g := l.get name
  if !g.handlers.isEmpty then (.ok (), l, fs)
  else
    match s.get "level" with
    | .text level =>
      match Threshold.ofText level with
      | .error e => (.error e, l, fs)
      | .ok threshold =>
        let console := if (s.get "console_output").truthy then [Handler.mk .console threshold] else []
        let l := l.put { g with threshold, handlers := console }
        if (s.get "log_file").truthy then
          match openFile fs s with
          | .error e => (.error e, l, fs)
          | .ok (sink, fs) => (.ok (), l.put { g with threshold, handlers := console ++ [⟨sink, threshold⟩] }, fs)
        else (.ok (), l, fs)
    | _ => (.error .lacksMember, l, fs)

/-! ## Entries -/

/-- A name and the names above it, the nearest first. -/
def upward (name : Text) : List Text :=
  let parts := name.splitOn '.'
  let names := (List.range parts.length).map fun n => Text.intercalate "." (parts.take (parts.length - n))
  if name = top then [top] else names ++ [top]

/-- The threshold that a logger follows: its own or the next one above, and warnings at the top. -/
def effective (l : Logging) (name : Text) : Threshold :=
  ((upward name).findSome? fun n => (l.get n).threshold).getD .warning

/-- Where an entry is written, each sink as often as it gets the entry. -/
def sinksOf (l : Logging) (e : Entry) : List Sink :=
  if (l.effective e.source).admits e.level then
    (upward e.source).flatMap fun n =>
      ((l.get n).handlers.filter fun h => h.threshold.admits e.level).map (·.sink)
  else []

/-- What appears on the console. -/
def consoleEntries (l : Logging) (entries : List Entry) : List Entry :=
  entries.flatMap fun e => (l.sinksOf e).filterMap fun
    | .console => some e
    | .file .. => none

/-- What is written to the file at a place. An entry that cannot be encoded is left out. -/
def fileEntries (l : Logging) (at_ : Place) (entries : List Entry) : List Entry :=
  (entries.filter fun e => (e.source ++ e.message).isEncodable).flatMap fun e => (l.sinksOf e).filterMap fun
    | .console => none
    | .file p _ _ => if p = at_ then some e else none

/-- Entries are written to the file at a place. -/
def isLogFile (l : Logging) (at_ : Place) : Bool :=
  l.loggers.any fun g => g.handlers.any fun h => match h.sink with | .file p _ _ => p = at_ | .console => false

end Logging

end Hyperchess
