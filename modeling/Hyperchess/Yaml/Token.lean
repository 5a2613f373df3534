import Hyperchess.Text

/-!
# Tokens

The tokens of a YAML document: scalars, and the marks that tell where collections begin and end. Indentation is made
explicit: `mappingStart`, `sequenceStart` and `blockEnd` stand for changes of the column.
-/

namespace Hyperchess.Yaml

/-- Why a document is not read. -/
inductive ReadError where
  | malformed
  /-- A value that is written properly but does not exist. -/
  | badValue (text : String)
  /-- A number beyond what can be computed with: an escape with a code of more than 31 bits, or a place in base 60 that
  is larger than every floating point number. -/
  | oversized
  /-- Collections are nested too deeply. -/
  | tooDeep
  /-- The text goes on with bytes that are no text. -/
  | notText
  deriving DecidableEq, Repr

/-- A token. -/
inductive Token where
  | documentStart
  | documentEnd
  | sequenceStart
  | mappingStart
  | blockEnd
  | flowSequenceStart
  | flowSequenceEnd
  | flowMappingStart
  | flowMappingEnd
  | flowEntry
  | blockEntry
  | key
  | value
  /-- A scalar; only a plain one, without quotes, can be anything else than text. -/
  | scalar (plain : Bool) (text : Text)
  /-- From here on the text has no tokens. -/
  | broken (e : ReadError)
  deriving DecidableEq, Repr, Inhabited

end Hyperchess.Yaml
