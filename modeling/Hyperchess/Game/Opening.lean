import Hyperchess.Game
import Hyperchess.Files
import Hyperchess.Settings

/-!
# Openings

An opening is what a game starts from: a layout, rules, and settings. The settings may name a file with further rules,
which the rules of the opening override; what reads the documents in files is a parameter. `Opening.start` gives the
game, or the reason why there is none together with what was reported on the way.
-/

namespace Hyperchess

/-- What reads the document in a file. -/
abbrev Reader := Source → Except Fault Data

namespace RuleBook

/-- The rules of a document. Kinds are the texts of its keys, in upper case; `name` is what the report on a malformed
document calls it. -/
def rulesOfData (name : Text) (d : Data) : Except Fault (List (Text × Rule)) :=
  if d.truthy then
    match d with
    | .map entries => entries.foldlM (fun done (key, rule) => do
        key.checkWritable
        return assign done (key.display.upper) (← Rule.ofData key.display rule)) []
    | _ => .error (.ruleDefinition name "规则文件顶层必须是映射")
  else .ok []

/-- The rules of a file. -/
def rulesOfFile (read : Reader) (fs : Files) (name : Text) : Except Fault (List (Text × Rule)) := do
  rulesOfData name (← read (← fs.source (.ofText name)))

/-- What reading a file of rules reports. -/
def fileEntries (name : Text) (rules : List (Text × Rule)) : List Entry :=
  [Reporter.rules.entry .info ("从 " ++ name ++ " 加载了 " ++ Integer.text rules.length ++ " 条自定义规则")]

end RuleBook

/-- What a game starts from. -/
structure Opening where
  /-- The layout, if it is not the one of the settings. -/
  layout : Option Text := none
  /-- Rules by kind, or the data for them. -/
  rules : List (Text × RuleSource) := []
  settings : Settings := Settings.ofKind .engine
  /-- How deeply the evaluation of a rule may be nested, if there is a limit. -/
  room : Option Nat := none
  /-- What the game runs on. -/
  machine : Machine := {}

namespace Opening

/-- Why an integer cannot stand for a file: no file is open under a number that is not negative, and a number that is
too large in size is none at all. -/
def numberFault (n : Int) : Fault :=
  if n < -Int.pow 2 31 ∨ Int.pow 2 31 ≤ n then .wrongType
  else if n < 0 then .badValue "negative file descriptor"
  else .refused

/-- The rules of the file that the settings name, if they name one, with what reading it reports. -/
def fileRules (o : Opening) (read : Reader) (fs : Files) : Except Fault (List (Text × Rule) × List Entry) :=
  let file := o.settings.get "custom_rules_file"
  if file.truthy then
    match file with
    | .text name => do
      let rules ← RuleBook.rulesOfFile read fs name
      return (rules, RuleBook.fileEntries name rules)
    | .int n => .error (numberFault n)
    | .bool _ => .error .refused
    | _ => .error .wrongType
  else .ok ([], [])

/-- The rules of the file, overridden by those of the opening. -/
def sources (o : Opening) (file : List (Text × Rule)) : List (Text × RuleSource) :=
  o.rules.foldl (fun done (id, source) => RuleBook.assign done id source) (file.map fun (id, r) => (id, .rule r))

/-- The size and the pieces to begin with. -/
def position (o : Opening) : Except Fault (Coord × List (Coord × Design)) :=
  match o.layout, o.settings.get "default_layout" with
  | some layout, _ => Layout.parseWithin o.machine layout
  | none, .text layout => Layout.parseWithin o.machine layout
  | none, _ => .error .lacksMember

/-- The kinds that must not be captured. -/
def royals (o : Opening) : Except Fault (List Data) := do
  Variant.royalsOf (← (o.settings.get "royal_piece_ids").members)

/-- The game with a book of rules. -/
def gameWith (o : Opening) (book : RuleBook) : Except Fault Game := do
  let royals ← o.royals
  let (size, placements) ← o.position
  let board ← Board.build o.machine size placements
  let extents ← size.written o.machine.digits
  let entry := Reporter.game.entry .debug
    ("创建棋局: 尺寸 " ++ extents ++ ", 棋子 " ++ Integer.text placements.length ++ " 个")
  let variant : Variant := ⟨{ book with room := o.room }, royals⟩
  let cache : Cache := { enabled := (o.settings.get "enable_move_cache").truthy }
  return ⟨board, variant, some cache, [entry]⟩

/-- The game, with everything reported so far in its journal; without one, what was reported before it failed. -/
def start (o : Opening) (read : Reader) (fs : Files) : Except (Fault × List Entry) Game :=
  match o.fileRules read fs with
  | .error e => .error (e, [])
  | .ok (file, entries) =>
    match RuleBook.ofSources (o.sources file) with
    | .error e => .error (e, entries)
    | .ok book =>
      let entries := entries ++ book.entries
      match o.gameWith book with
      | .error e => .error (e, entries)
      | .ok g => .ok { g with journal := entries ++ g.journal }

end Opening

end Hyperchess
