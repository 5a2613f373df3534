import Hyperchess.Journal
import Hyperchess.Settings
import Hyperchess.Text.Case

/-!
# Valid settings

Whether settings can be used. A value that has no length, or cannot be compared with a number, where one is needed is a
fault rather than an answer; but what an earlier test has decided is not looked at.
-/

namespace Hyperchess

namespace Data

/-- A text, list or map that is not empty. -/
def nonempty : Data → Except Fault Bool
  | .text s => .ok (!s.isEmpty)
  | .list items => .ok (!items.isEmpty)
  | .map entries => .ok (!entries.isEmpty)
  | _ => .error .wrongType

/-- A number that is above zero. -/
def isPositive (d : Data) : Except Fault Bool :=
  match d.number? with
  | some n => .ok ((Number.int 0).lt n)
  | none => .error .wrongType

/-- A number that is not below zero. -/
def isNonnegative (d : Data) : Except Fault Bool :=
  match d.number? with
  | some n => .ok (n.ge (.int 0))
  | none => .error .wrongType

end Data

namespace Settings

/-- The levels that settings may name. -/
def levelNames : List Text := [Level.debug, .info, .warning, .error, .critical].map fun l => (l.name : Text)

/-- The value is a text with at least one field. -/
def hasFields : Data → Bool
  | .text s => !s.fields.isEmpty
  | _ => false

/-- The settings can be used: for the engine, a layout and royal kinds; for logging, a level and limits. -/
def isValid (s : Settings) : Except Fault Bool :=
  match s.kind with
  | .engine => if hasFields (s.get "default_layout") then (s.get "royal_piece_ids").nonempty else .ok false
  | .logging => do
    (s.get "level").checkWritable
    if levelNames.contains (s.get "level").display.upper then
      if ← (s.get "max_size").isPositive then (s.get "backup_count").isNonnegative else return false
    else return false

end Settings

end Hyperchess
