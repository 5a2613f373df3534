import Hyperchess.Number.Integer
import Hyperchess.Text

/-!
# Arguments

What a list of arguments asks for. Options begin with two hyphens and may take a value, behind an equals sign or as the
next argument, whatever it begins with; two hyphens alone end the options.
-/

namespace Hyperchess.CommandLine

/-- An option, and whether it takes a value. -/
structure OptionSpec where
  name : Text
  takesValue : Bool
  deriving DecidableEq, Repr

/-- Options that were given, in order, and the other arguments. -/
structure Split where
  options : List (Text × Option Text) := []
  others : List Text := []
  deriving DecidableEq, Repr, Inhabited

namespace Split

/-- The last value given for an option. -/
def value? (s : Split) (name : Text) : Option Text :=
  (s.options.reverse.find? fun o => o.1 == name).bind (·.2)

/-- The option was given. -/
def has (s : Split) (name : Text) : Bool := s.options.any fun o => o.1 == name

end Split

/-- The name of an option and the value behind its equals sign. -/
def splitEquals (arg : Text) : Text × Option Text :=
  let name := arg.points.takeWhile (· ≠ .char '=')
  if name.length < arg.length then (⟨name⟩, some (arg.drop (name.length + 1))) else (arg, none)

/-- The option that an argument names, if it names one properly, with its value. -/
def optionOf? (specs : List OptionSpec) (arg : Text) : Option (OptionSpec × Option Text) :=
  let (name, value) := splitEquals arg
  match specs.find? fun s => s.name == name with
  | some s => if value.isSome && !s.takesValue then none else some (s, value)
  | none => none

/-- Options and other arguments; nothing if an option is not known or lacks its value. With `mixed`, options may follow
other arguments, otherwise the first argument that is no option ends them. -/
def split? (specs : List OptionSpec) (mixed : Bool) : List Text → Option Split
  | [] => some {}
  | arg :: rest =>
    if arg = "--" then some { others := rest }
    else if arg.startsWith "-" && arg.length ≠ 1 then
      match optionOf? specs arg with
      | none => none
      | some (s, value) =>
        if s.takesValue && value.isNone then
          match rest with
          | [] => none
          | value :: rest =>
            (split? specs mixed rest).map fun r => { r with options := (s.name, some value) :: r.options }
        else (split? specs mixed rest).map fun r => { r with options := (s.name, value) :: r.options }
    else if mixed then (split? specs mixed rest).map fun r => { r with others := arg :: r.others }
    else some { others := arg :: rest }

/-- What a command is asked to do. -/
inductive Command where
  | board (layout : Option Text)
  | moves (layout : Option Text) (team : Int) (square : Option Text) (kingCheck : Bool)
  | check (layout : Option Text) (move : Text)
  | info
  deriving DecidableEq, Repr, Inhabited

/-- The names of the commands. -/
inductive CommandName where
  | board
  | moves
  | check
  | info
  deriving DecidableEq, Repr, Inhabited

namespace CommandName

/-- The command with a name. -/
def ofText? (t : Text) : Option CommandName :=
  [(("show" : Text), board), ("moves", moves), ("check", check), ("info", info)].lookup t

/-- The options of a command. -/
def specs : CommandName → List OptionSpec
  | board | check => [⟨"--layout", true⟩]
  | moves => [⟨"--layout", true⟩, ⟨"--team", true⟩, ⟨"--square", true⟩, ⟨"--no-king-check", false⟩]
  | info => []

/-- The command that arguments ask for; nothing if they do not fit. -/
def command? (name : CommandName) (args : List Text) : Option Command := do
  let r ← split? name.specs true args
  let layout := r.value? "--layout"
  match name, r.others with
  | board, [] => return .board layout
  | moves, [] =>
    let team ← match r.value? "--team" with
      | some text => Integer.parse? text.chars
      | none => some 0
    return .moves layout team (r.value? "--square") (!r.has "--no-king-check")
  | check, [move] => return .check layout move
  | info, [] => return .info
  | _, _ => none

end CommandName

/-- The options in front of the command. -/
def globalSpecs : List OptionSpec := [⟨"--debug", false⟩, ⟨"--config-dir", true⟩, ⟨"--version", false⟩]

end Hyperchess.CommandLine
