import Hyperchess.Text

/-!
# The journal

What the parts of the program report while they work, oldest entry first.
-/

namespace Hyperchess

/-- How serious an entry is. -/
inductive Level where
  | debug
  | info
  | warning
  | error
  | critical
  deriving DecidableEq, Repr, Inhabited

namespace Level

/-- The name of a level. -/
def name : Level → String
  | debug => "DEBUG"
  | info => "INFO"
  | warning => "WARNING"
  | error => "ERROR"
  | critical => "CRITICAL"

/-- The rank of a level: an entry passes a threshold if its rank is at least as high. -/
def rank : Level → Nat
  | debug => 10
  | info => 20
  | warning => 30
  | error => 40
  | critical => 50

end Level

/-- The parts of the program that report. -/
inductive Reporter where
  | game
  | engine
  | cache
  | rules
  deriving DecidableEq, Repr, Inhabited

/-- The name under which a part reports. -/
def Reporter.name : Reporter → String
  | game => "hika.HikaGame"
  | engine => "hika.RuleEngine"
  | cache => "hika_project.src.hika_engine.rules_engine.move_cache"
  | rules => "hika_project.src.hika_engine.rules_engine.path_rules"

/-- One entry of the journal. -/
structure Entry where
  source : Text
  level : Level
  message : Text
  deriving DecidableEq, Repr, Inhabited

/-- An entry of one of the program's parts. -/
def Reporter.entry (r : Reporter) (level : Level) (message : Text) : Entry := ⟨r.name, level, message⟩

end Hyperchess
