import Hyperchess.CommandLine.Arguments
import Hyperchess.Game.Opening
import Hyperchess.Logging
import Hyperchess.Settings.Store

/-!
# The command line

`run` carries out a list of arguments on given files. Its outcome holds everything that a user sees: what is shown, the
lines of the log, and the exit code.
-/

namespace Hyperchess.CommandLine

/-- The name that the program shows. -/
def programName : String := "Hika"

/-- The version of the program. -/
def version : String := "0.1.0"

/-- What the program says about itself. -/
def description : String := "多维棋类走法引擎 - 声明式规则树、将军检测和走法缓存"

/-- The colour of a line. -/
inductive Colour where
  | red
  | green
  | yellow
  deriving DecidableEq, Repr, Inhabited

namespace Colour

/-- The name of a colour. -/
def name : Colour → String
  | red => "red"
  | green => "green"
  | yellow => "yellow"

/-- The terminal's number for a colour. -/
def code : Colour → String
  | red => "31"
  | green => "32"
  | yellow => "33"

end Colour

/-- Something that is shown to the user. -/
inductive Shown where
  | line (colour : Colour) (text : Text)
  | table (title : Text) (columns : List Text) (rows : List (List Text))
  | panel (title text : Text)
  deriving DecidableEq, Repr, Inhabited

namespace Shown

/-- The text for a terminal. -/
def render : Shown → Text
  | line colour text => "\x1b[" ++ colour.code ++ "m" ++ text ++ "\x1b[0m\n"
  | table title columns rows =>
    title ++ "\n" ++ Text.intercalate Text.empty ((columns :: rows).map fun row => Text.intercalate "  " row ++ "\n")
  | panel title text => title ++ "\n\n" ++ text ++ "\n"

end Shown

/-- How a run ends. -/
inductive Ending where
  | exit (code : Nat)
  /-- The arguments are refused. -/
  | misuse
  /-- A fault that is not reported to the user. -/
  | crash (fault : Fault)
  deriving DecidableEq, Repr, Inhabited

/-- What a run leaves behind. -/
structure Outcome where
  ending : Ending
  shown : List Shown := []
  /-- Lines of plain output. -/
  lines : List Text := []
  /-- Everything that was reported. -/
  journal : List Entry := []
  logging : Logging := {}
  files : Files
  deriving Inhabited

namespace Outcome

/-- The exit code, if the run ends by itself. -/
def exitCode? (o : Outcome) : Option Nat :=
  match o.ending with
  | .exit code => some code
  | .misuse => some 2
  | .crash _ => none

/-- The entries on the console. -/
def console (o : Outcome) : List Entry := o.logging.consoleEntries o.journal

end Outcome

/-! ## Commands -/

/-- The symbol of a square, a point for an empty one. -/
def symbolAt (b : Board) (c : Coord) : Except Fault Text := do
  return (← Layout.symbolAt b c).getD "."

/-- One layer of a board, the row with the largest `y` on top. -/
def layerTable (b : Board) (z w : Nat) : Except Fault Shown := do
  let columns : List Text := (List.range b.size.x.toNat).map fun (x : Nat) => Coord.letters x
  let rows ← (List.range b.size.y.toNat).reverse.mapM fun (y : Nat) => do
    let symbols ← (List.range b.size.x.toNat).mapM fun (x : Nat) => symbolAt b ⟨x, y, z, w⟩
    return (Integer.text ((y : Int) + 1) : Text) :: symbols
  return .table ("z=" ++ Integer.text z ++ " w=" ++ Integer.text w) ("y" :: columns) rows

/-- All layers of a board, and what is wrong with it. -/
def showBoard (b : Board) : Except Fault (List Shown) := do
  let layers := (List.range b.size.w.toNat).flatMap fun w => (List.range b.size.z.toNat).map fun z => (z, w)
  let tables ← layers.mapM fun (z, w) => layerTable b z w
  return tables ++ (← Audit.errors b).map (.line .red)

/-- A list of moves. -/
def movesTable (moves : List Move) : Shown :=
  .table ("走法 (" ++ Integer.text moves.length ++ ")") ["记法", "起点", "终点"]
    (moves.map fun m => [m.label, m.src.text, m.dst.text])

/-- The banner of the program. -/
def banner : Shown :=
  .panel "多维棋类走法引擎" (programName ++ "\n版本: " ++ version ++ "\n" ++ description)

/-- What a run is carried out on. -/
structure Host where
  machine : Machine := {}
  formats : Formats
  /-- How deeply the evaluation of a rule may be nested, if there is a limit. -/
  depth : Option Nat := none
  /-- The largest number of letters of an axis in the label of a move, if there is a limit. -/
  letters : Option Nat := none

/-- A host that reads and writes settings in YAML and JSON, and has no limits but that on digits. -/
def Host.unlimited : Host where
  formats := .unlimited

/-- The layout that a command names. -/
def Command.layout : Command → Option Text
  | .board layout | .moves layout .. | .check layout _ => layout
  | .info => none

/-- Carries out a command on a game: what is shown, the exit code, and the game after it. -/
def perform (host : Host) (c : Command) (g : Game) : Except Fault (List Shown × Nat) × Game :=
  match c with
  | .board _ => (do return (← showBoard g.board, 0), g)
  | .moves _ team square kingCheck =>
    let r := match square with
      | some s => if s.isEmpty then g.teamMoves (.int team) kingCheck else g.moves (Coord.ofText s) kingCheck
      | none => g.teamMoves (.int team) kingCheck
    (r.1.map fun moves => ([movesTable moves], 0), r.2)
  | .check _ text =>
    match Move.ofText text with
    | .error e => (.error e, g)
    | .ok m =>
      let r := g.allows m true
      let answer : Except Fault (List Shown × Nat) := do
        let legal ← r.1
        let label ← m.labelled host.letters
        return if legal then ([.line .green ("合法走法: " ++ label)], 0) else ([.line .red ("非法走法: " ++ label)], 2)
      (answer, r.2)
  | .info => (.ok ([banner], 0), g)

/-! ## Runs -/

/-- What the user is told about a fault: problems, and values that cannot be converted, are reported. -/
def report? : Fault → Option Text
  | .notEncodable complaint => some complaint
  | e => e.text?

/-- The end of a run that a fault stops. -/
def stop (o : Outcome) (e : Fault) : Outcome :=
  match report? e with
  | some text => { o with ending := .exit 1, shown := o.shown ++ [.line .red ("发生错误: " ++ text)] }
  | none => { o with ending := .crash e }

/-- The end of a run with a command. -/
def runCommand (host : Host) (o : Outcome) (settings : Settings) (c : Command) : Outcome :=
  match c with
  | .info => { o with shown := o.shown ++ [banner] }
  | c =>
    match (Opening.mk c.layout [] settings host.depth host.machine).start host.formats.yaml.read o.files with
    | .error (e, entries) => stop { o with journal := entries } e
    | .ok g =>
      match perform host c g with
      | (.error e, g) => stop { o with journal := g.journal } e
      | (.ok (shown, code), g) =>
        { o with ending := .exit code, shown := o.shown ++ shown, journal := g.journal }

/-- The settings of the engine and for logging: those in a directory, which is made if it is missing, or the defaults,
with warnings as the threshold. -/
def settingsOf (host : Host) (fs : Files) (dir : Option FilePath) : Except Fault (Settings × Settings × Files) :=
  match dir with
  | none => .ok (Settings.ofKind .engine, (Settings.ofKind .logging).set "level" (.text Level.warning.name), fs)
  | some dir => do
    let store := SettingsStore.inDirectory host.formats dir
    let fs ← SettingsStore.establish host.formats fs dir
    return (← store.load fs .engine, ← store.load fs .logging, fs)

/-- The name of the logger of the program. -/
def loggerName : Text := "hika"

/-- Carries out the options in front of the command: the settings of the engine, or the outcome if they fail. -/
def prepare (host : Host) (fs : Files) (debug : Bool) (dir : Option Text) : Except Outcome (Settings × Outcome) :=
  let o : Outcome := { ending := .exit 0, files := fs }
  match settingsOf host fs (dir.map FilePath.ofText) with
  | .error e => .error (stop o e)
  | .ok (engine, logging, fs) =>
    let logging := if debug then logging.set "level" (.text Level.debug.name) else logging
    match Logging.setUp {} fs loggerName logging with
    | (.error e, l, fs) => .error (stop { o with logging := l, files := fs } e)
    | (.ok _, l, fs) =>
      let shown := (dir.map fun d => Shown.line .green ("使用配置目录: " ++ d)).toList ++
        if debug then [.line .yellow "调试模式已启用"] else []
      .ok (engine, { o with shown, logging := l, files := fs })

/-- The files that a run looks at, as far as they can be told from the files known already: those in the directory of
settings, and the file of rules that the settings name. -/
def lookedAt (host : Host) (fs : Files) (args : List Text) : List FilePath :=
  match (split? globalSpecs false args).bind (·.value? "--config-dir") with
  | none => []
  | some dir =>
    let path := FilePath.ofText dir
    let store := SettingsStore.inDirectory host.formats path
    let rules := match store.load fs .engine with
      | .ok settings => settings.get "custom_rules_file"
      | .error _ => .null
    [path, store.engine.path, store.logging.path] ++ match rules with
      | .text name => [FilePath.ofText name]
      | _ => []

/-- The end that the options in front of a command bring about by themselves, if they do. The directory of settings may
be missing, but it may not be a file. -/
def endedBy (fs : Files) (r : Split) : Option Outcome :=
  let o : Outcome := { ending := .misuse, files := fs }
  if r.has "--version" then some { o with ending := .exit 0, lines := [programName ++ ", version " ++ version] }
  else
    match ((r.value? "--config-dir").map fun d => fs.leadsToFile (.ofText d)).getD (.ok false) with
    | .error e => some (stop o e)
    | .ok true => some o
    | .ok false => none

/-- Carries out a command with its arguments, behind the options in front of it. What is no command is read as options
once more. -/
def runNamed (host : Host) (fs : Files) (debug : Bool) (dir : Option Text) (words : List Text) : Outcome :=
  let misuse : Outcome := { ending := .misuse, files := fs }
  match words with
  | [] => misuse
  | name :: rest =>
    match CommandName.ofText? name with
    | none => ((split? globalSpecs false words).bind (endedBy fs)).getD misuse
    | some command =>
      match prepare host fs debug (dir.filter fun d => !d.isEmpty) with
      | .error o => o
      | .ok (settings, o) =>
        match command.command? rest with
        | none => { o with ending := .misuse }
        | some c => runCommand host o settings c

/-- Carries out arguments on files. -/
def run (host : Host) (fs : Files) (args : List Text) : Outcome :=
  match split? globalSpecs false args with
  | none => { ending := .misuse, files := fs }
  | some r => (endedBy fs r).getD (runNamed host fs (r.has "--debug") (r.value? "--config-dir") r.others)

end Hyperchess.CommandLine
