import Hyperchess.Error
import Hyperchess.Files
import Hyperchess.Json.Printer
import Hyperchess.Json.Reader
import Hyperchess.Yaml.Node
import Hyperchess.Yaml.Printer

/-!
# Document formats

A codec is a way to write plain data as a text and to read it again. The suffix of a file's name tells which of the
formats at hand a document has. Writing may stop: JSON has no points in time, and text that cannot be encoded only as
escapes; and there are limits on how deeply lists and maps are nested and on the digits of integers.
-/

namespace Hyperchess

/-- A document format. -/
structure Codec where
  read : Source → Except Fault Data
  write : Data → Json.Written

namespace Codec

/-- YAML, with entries in the order of their keys: the part of the language that settings and rules are written in.
There may be limits on the collections inside one another that are read and written. -/
def yaml (reading writing : Option Nat := none) : Codec where
  read s :=
    match Yaml.read reading s with
    | .ok d => .ok d
    | .error .malformed => .error .badDocument
    | .error (.badValue text) => .error (.badValue text)
    | .error .oversized => .error .tooLarge
    | .error .tooDeep => .error .tooDeep
    | .error .notText => .error .notText
  write d :=
    if !d.isShallow writing then .stop .tooDeep
    else if d.isWritable then ⟨Yaml.write d, none⟩ else .stop .tooManyDigits

/-- JSON, with one item a line. It is read only if all of it is text. There may be a limit on the lists and maps inside
one another that are read. -/
def json (reading : Option Nat := none) : Codec where
  read s :=
    if s.isWhole then
      match Json.read reading (String.ofList s.chars) with
      | .ok d => .ok d
      | .error .malformed => .error .badDocument
      | .error .tooDeep => .error .tooDeep
      | .error (.oversized n) => .error (.badValue ("Exceeds the limit (4300 digits) for integer string conversion: " ++
          "value has " ++ Integer.text n ++ " digits; use sys.set_int_max_str_digits() to increase the limit"))
    else .error .notText
  write := Json.indented

/-- Writes a document at a path. If the writing stops, what has been written remains. -/
def store (codec : Codec) (fs : Files) (p : FilePath) (d : Data) : Except Fault Unit × Files :=
  let written := codec.write d
  match fs.write p written.text.toUTF8 with
  | .error e => (.error e, fs)
  | .ok fs => (match written.fault with | some e => .error e | none => .ok (), fs)

end Codec

/-- The formats at hand. -/
structure Formats where
  yaml : Codec
  json : Codec
  /-- The largest number of lists and maps inside one another in a document of settings, if there is a limit. -/
  nesting : Option Nat := none

/-- YAML and JSON without limits. -/
def Formats.unlimited : Formats := ⟨Codec.yaml, Codec.json, none⟩

/-- The codec of a file. -/
def Formats.ofPath (formats : Formats) (p : FilePath) : Codec :=
  if p.suffix = ".yaml" then formats.yaml else formats.json

end Hyperchess
