import Hyperchess.Rule
import Hyperchess.Text.Case

/-!
# Rules from data

A rule is written as a map with the list `path_tree`. A node is a text, which refers to a kind, or a map: with
`direction` it is a leaf, otherwise with `branches` a branching, otherwise a bare node; `repeat`, `attack` and
`conditions` are its terms. Malformed data is reported under the kind whose rule it is.
-/

namespace Hyperchess

/-- The members of a value that can be gone through: items, characters or keys. -/
def Data.members : Data → Except Fault (List Data)
  | .list items => .ok items
  | .text s => .ok (s.points.map fun p => .text (.singleton p))
  | .map entries => .ok (entries.map (·.1))
  | _ => .error .wrongType

namespace Rule

variable (id : Text)

/-- The report on a value that is refused, in which the value is shown. -/
def refused (reason : Text) (d : Data) : Fault :=
  if d.isWritable then .ruleDefinition id (reason ++ d.literal) else .tooManyDigits

/-- A coordinate, as its text or as a list of at most four axes. -/
def coordOf (d : Data) : Except Fault Coord :=
  match d with
  | .text s => .ok (Coord.ofText s)
  | .list items =>
    match Coord.ofItems items with
    | .ok c => .ok c
    | .error _ => .error (refused id "无效的向量: " d)
  | _ => .error (refused id "无效的向量: " d)

/-- The words for a walk without a limit. -/
def unboundedWords : List Text := ["inf", "infinity", "unbounded"]

/-- A limit on steps, as a number or as a word. -/
def stepsOf (d : Data) : Except Fault (Option Number) :=
  match d with
  | .null => .ok none
  | .int n => .ok (some (.int n))
  | .float x => .ok (some (.float x))
  | .text s =>
    if unboundedWords.contains s.lower then .ok (some (.float .infinity))
    else .error (refused id "无效的 repeat: " d)
  | _ => .error (refused id "无效的 repeat: " d)

/-- An integer that may be missing. -/
def integerOf (name : Text) (d : Data) : Except Fault (Option Int) :=
  match d with
  | .null => .ok none
  | .int n => .ok (some n)
  | _ => .error (refused id (name ++ " 必须是整数: ") d)

/-- A coordinate that may be missing from a map. -/
def coordIn (d : Data) (key : Text) : Except Fault (Option Coord) :=
  match d.get? key with
  | none => .ok none
  | some v => do return some (← coordOf id v)

/-- A condition. -/
def conditionOf (d : Data) : Except Fault Condition :=
  match d with
  | .map _ => do
    let team ← integerOf id "team" ((d.get? "team").getD .null)
    let flag ← integerOf id "flag" ((d.get? "flag").getD .null)
    let piece ← coordIn id d "piece"
    let enemy ← coordIn id d "enemy"
    return ⟨team, flag, piece, enemy, ((d.get? "inverted").getD (.bool false)).truthy⟩
  | _ => .error (refused id "无效的条件: " d)

/-- The terms of a node. -/
def termsOf (d : Data) : Except Fault Terms := do
  let steps ← stepsOf id ((d.get? "repeat").getD .null)
  let captures ← integerOf id "attack" ((d.get? "attack").getD .null)
  let conditions ← ((d.get? "conditions").getD (.list [])).members
  return ⟨steps, captures, ← conditions.mapM (conditionOf id)⟩

/-- A text that refers to a kind. -/
def referenceOf (s : Text) : Path := .reference s.upper

mutual

/-- A node. -/
def pathOf : Data → Except Fault Path
  | .text s => .ok (referenceOf s)
  | .map entries => do
    let terms ← termsOf id (.map entries)
    match Data.lookup (.text "direction") entries with
    | some d => return .leaf terms (← coordOf id d)
    | none =>
      match branchesIn entries with
      | some below => return .branches terms (← below)
      | none => return .bare terms
  | d => .error (refused id "无效的路径节点: " d)

/-- The nodes under the key `branches`, if a map has it. -/
def branchesIn : List (Data × Data) → Option (Except Fault (List Path))
  | [] => none
  | (key, d) :: rest => if key.same (.text "branches") then some (pathsIn d) else branchesIn rest

/-- The nodes that the members of a value stand for. -/
def pathsIn : Data → Except Fault (List Path)
  | .list items => pathsOf items
  | .text s => .ok (s.points.map fun p => referenceOf (.singleton p))
  | .map entries => pathsOfKeys entries
  | _ => .error .wrongType

/-- The nodes that the items of a list stand for. -/
def pathsOf : List Data → Except Fault (List Path)
  | [] => .ok []
  | d :: rest => do
    let path ← pathOf d
    return path :: (← pathsOf rest)

/-- The nodes that the keys of a map stand for. -/
def pathsOfKeys : List (Data × Data) → Except Fault (List Path)
  | [] => .ok []
  | (key, _) :: rest => do
    let path ← pathOf key
    return path :: (← pathsOfKeys rest)

end

/-- The rule of the kind `id`. -/
def ofData (d : Data) : Except Fault Rule :=
  match d.get? "path_tree" with
  | none => .error (.ruleDefinition id "缺少 path_tree")
  | some (.list items) => do return ⟨← pathsOf id items⟩
  | some _ => .error (.ruleDefinition id "path_tree 必须是列表")

end Rule

end Hyperchess
