import Hyperchess.Rule.Builtin
import Hyperchess.Rule.OfData
import Hyperchess.Journal

/-!
# Rule books

A rule book has the built-in rules and others that come before them. Kinds are compared in upper case. Rules can refer
to one another, and a book may limit how deeply their evaluation is nested.
-/

namespace Hyperchess

/-- The rules of a game. -/
structure RuleBook where
  /-- The rules that come before the built-in ones, by kind in upper case. -/
  custom : List (Text × Rule)
  /-- How deeply an evaluation may be nested, if there is a limit. -/
  room : Option Nat := none
  deriving Repr, Inhabited

/-- A rule, or the data that it is to be read from. -/
inductive RuleSource where
  | rule (r : Rule)
  | data (d : Data)
  deriving Repr, Inhabited

instance : Coe Data RuleSource := ⟨.data⟩

namespace RuleBook

/-- The value of the first entry with this key. -/
def find? {α : Type} (entries : List (Text × α)) (key : Text) : Option α :=
  (entries.find? fun e => e.1 == key).map (·.2)

/-- An entry is replaced where it stands, a new one is put at the end. -/
def assign {α : Type} (entries : List (Text × α)) (key : Text) (value : α) : List (Text × α) :=
  match entries with
  | [] => [(key, value)]
  | e :: rest => if e.1 == key then (key, value) :: rest else e :: assign rest key value

/-- The rule that a source gives for a kind. -/
def ruleFrom (id : Text) : RuleSource → Except Fault Rule
  | .rule r => .ok r
  | .data d =>
    match d with
    | .map _ => Rule.ofData id d
    | _ => .error (.ruleDefinition id ("不支持的规则类型: " ++ d.kindName))

/-- The book with these rules before the built-in ones; of sources whose kinds have the same upper case the last one
counts. -/
def ofSources (sources : List (Text × RuleSource)) : Except Fault RuleBook := do
  let custom ← sources.foldlM (fun done (id, source) => do
    return assign done (id.upper) (← ruleFrom id source)) []
  return { custom }

/-- The rule of a kind. -/
def get? (book : RuleBook) (id : Text) : Option Rule :=
  find? book.custom id <|> find? Rule.builtin id

/-- The rule of a kind, or the report that there is none. -/
def get (book : RuleBook) (id : Text) : Except Fault Rule :=
  match book.get? id with
  | some r => .ok r
  | none => .error (.missingRule id)

/-- The rule of a piece's kind, which may be any value. -/
def getFor (book : RuleBook) (id : Data) : Except Fault Rule :=
  match id with
  | .text s => book.get s
  | .list _ | .map _ => .error .wrongType
  | d => .error (.missingRule d.display)

/-- The kind has a rule. -/
def contains (book : RuleBook) (id : Text) : Bool :=
  (find? book.custom id).isSome || (find? Rule.builtin id).isSome

/-- The kind, which may be any value, has a rule. -/
def containsFor (book : RuleBook) (id : Data) : Except Fault Bool :=
  match id with
  | .text s => .ok (book.contains s)
  | .list _ | .map _ => .error .wrongType
  | _ => .ok false

/-- The kind has a rule that is not built in. -/
def isCustom (book : RuleBook) (id : Text) : Bool := (find? book.custom id).isSome

/-- The kind, which may be any value, has a rule that is not built in. -/
def isCustomFor (book : RuleBook) (id : Data) : Except Fault Bool :=
  match id with
  | .text s => .ok (book.isCustom s)
  | .list _ | .map _ => .error .wrongType
  | _ => .ok false

/-- Insertion of a text into an increasing list, once. -/
def insertOnce (s : Text) : List Text → List Text
  | [] => [s]
  | t :: rest => if s = t then t :: rest else if s.before t then s :: t :: rest else t :: insertOnce s rest

/-- Texts in increasing order, each once. -/
def increasing (texts : List Text) : List Text := texts.foldr insertOnce []

/-- The kinds that have rules, in increasing order. -/
def ids (book : RuleBook) : List Text :=
  increasing (Rule.builtin.map (·.1) ++ book.custom.map (·.1))

/-- What making the book reports. -/
def entries (book : RuleBook) : List Entry :=
  if book.custom.isEmpty then []
  else
    let ids := (increasing (book.custom.map (·.1))).map Data.text
    [Reporter.rules.entry .debug ("合并自定义规则: " ++ (Data.list ids).literal)]

end RuleBook

end Hyperchess
