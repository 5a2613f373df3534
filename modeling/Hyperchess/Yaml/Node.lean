import Hyperchess.Yaml.Scalar
import Hyperchess.Yaml.Token.Lexer

/-!
# Nodes

A document is a node: a scalar, a sequence or a mapping. `Node.ofTokens` reads one from the tokens of a document, and
`Node.data` gives the value that it stands for. What is missing behind a mark counts as an empty plain scalar. A mapping
may take over entries of others under the key `<<`; its own entries count more. Of several faults in a document the
outermost is reported, and among those at one depth the first (`Node.firstError`).
-/

namespace Hyperchess.Yaml

/-- A node of a document. -/
inductive Node where
  | scalar (plain : Bool) (text : Text)
  | sequence (items : List Node)
  | mapping (entries : List (Node × Node))
  deriving Repr, Inhabited

namespace Node

/-- What stands where a value is missing. -/
def missing : Node := .scalar true Text.empty

/-! ## From tokens -/

/-- Why no node begins here. -/
def refusal : List Token → ReadError
  | .broken e :: _ => e
  | _ => .malformed

/-- Where a node may be missing: the next token cannot begin one. -/
def endsIn (marks : List Token) (ts : List Token) : Bool :=
  match ts with
  | [] => true
  | t :: _ => marks.contains t

/-- The room that is left inside a collection; there is none if too many are nested. -/
def enter : (room : Nat) → Except ReadError Nat
  | 0 => .error .tooDeep
  | room + 1 => .ok room

mutual

/-- A node, in a block or in a flow collection. With `loose`, a sequence without a start mark is allowed. There is
`room` for so many collections inside one another. -/
def ofTokens (inBlock loose : Bool) : (room fuel : Nat) → List Token → Except ReadError (Node × List Token)
  | _, 0, _ => .error .malformed
  | room, fuel + 1, ts =>
    match ts with
    | .scalar plain text :: rest => .ok (.scalar plain text, rest)
    | .flowSequenceStart :: rest => do
      let r ← flowItems true (← enter room) fuel rest
      return (.sequence r.1, r.2)
    | .flowMappingStart :: rest => do
      let r ← flowEntries true (← enter room) fuel rest
      return (.mapping r.1, r.2)
    | .blockEntry :: _ =>
      if loose then do
        let r ← looseItems (← enter room) fuel ts
        return (.sequence r.1, r.2)
      else .error .malformed
    | .sequenceStart :: rest =>
      if inBlock then do
        let r ← blockItems (← enter room) fuel rest
        return (.sequence r.1, r.2)
      else .error .malformed
    | .mappingStart :: rest =>
      if inBlock then do
        let r ← blockEntries (← enter room) fuel rest
        return (.mapping r.1, r.2)
      else .error .malformed
    | _ => .error (refusal ts)
termination_by structural _ fuel => fuel

/-- A node, unless one of the marks comes first. -/
def orMissing (inBlock loose : Bool) (marks : List Token) :
    (room fuel : Nat) → List Token → Except ReadError (Node × List Token)
  | _, 0, _ => .error .malformed
  | room, fuel + 1, ts => if endsIn marks ts then .ok (missing, ts) else ofTokens inBlock loose room fuel ts
termination_by structural _ fuel => fuel

/-- The items of a block sequence, up to its end. -/
def blockItems : (room fuel : Nat) → List Token → Except ReadError (List Node × List Token)
  | _, 0, _ => .error .malformed
  | room, fuel + 1, ts =>
    match ts with
    | .blockEntry :: rest => do
      let item ← orMissing true false [.blockEntry, .blockEnd] room fuel rest
      let more ← blockItems room fuel item.2
      return (item.1 :: more.1, more.2)
    | .blockEnd :: rest => .ok ([], rest)
    | _ => .error (refusal ts)
termination_by structural _ fuel => fuel

/-- The items of a sequence that is not indented. -/
def looseItems : (room fuel : Nat) → List Token → Except ReadError (List Node × List Token)
  | _, 0, _ => .error .malformed
  | room, fuel + 1, ts =>
    match ts with
    | .blockEntry :: rest => do
      let item ← orMissing true false [.blockEntry, .key, .value, .blockEnd] room fuel rest
      let more ← looseItems room fuel item.2
      return (item.1 :: more.1, more.2)
    | _ => .ok ([], ts)
termination_by structural _ fuel => fuel

/-- The value behind a key of a block mapping. -/
def blockValue : (room fuel : Nat) → List Token → Except ReadError (Node × List Token)
  | _, 0, _ => .error .malformed
  | room, fuel + 1, ts =>
    match ts with
    | .value :: rest => orMissing true true [.key, .value, .blockEnd] room fuel rest
    | _ => .ok (missing, ts)
termination_by structural _ fuel => fuel

/-- The entries of a block mapping, up to its end. -/
def blockEntries : (room fuel : Nat) → List Token → Except ReadError (List (Node × Node) × List Token)
  | _, 0, _ => .error .malformed
  | room, fuel + 1, ts =>
    match ts with
    | .key :: rest => do
      let key ← orMissing true true [.key, .value, .blockEnd] room fuel rest
      let value ← blockValue room fuel key.2
      let more ← blockEntries room fuel value.2
      return ((key.1, value.1) :: more.1, more.2)
    | .blockEnd :: rest => .ok ([], rest)
    | _ => .error (refusal ts)
termination_by structural _ fuel => fuel

/-- The value behind a key in a flow collection that ends with `close`. -/
def flowValue (close : Token) : (room fuel : Nat) → List Token → Except ReadError (Node × List Token)
  | _, 0, _ => .error .malformed
  | room, fuel + 1, ts =>
    match ts with
    | .value :: rest => orMissing false false [.flowEntry, close] room fuel rest
    | _ => .ok (missing, ts)
termination_by structural _ fuel => fuel

/-- The items of a flow sequence, up to its end. A key begins a mapping with a single entry. -/
def flowItems (first : Bool) : (room fuel : Nat) → List Token → Except ReadError (List Node × List Token)
  | _, 0, _ => .error .malformed
  | room, fuel + 1, ts =>
    let item (ts : List Token) : Except ReadError (List Node × List Token) :=
      match ts with
      | .flowSequenceEnd :: rest => .ok ([], rest)
      | .key :: rest => do
        let inside ← enter room
        let key ← orMissing false false [.value, .flowEntry, .flowSequenceEnd] inside fuel rest
        let value ← flowValue .flowSequenceEnd inside fuel key.2
        let more ← flowItems false room fuel value.2
        return (.mapping [(key.1, value.1)] :: more.1, more.2)
      | _ => do
        let item ← ofTokens false false room fuel ts
        let more ← flowItems false room fuel item.2
        return (item.1 :: more.1, more.2)
    match ts with
    | .flowSequenceEnd :: rest => .ok ([], rest)
    | .flowEntry :: rest => if first then .error .malformed else item rest
    | _ => if first then item ts else .error (refusal ts)
termination_by structural _ fuel => fuel

/-- The entries of a flow mapping, up to its end. A node that is no key has no value. -/
def flowEntries (first : Bool) : (room fuel : Nat) → List Token → Except ReadError (List (Node × Node) × List Token)
  | _, 0, _ => .error .malformed
  | room, fuel + 1, ts =>
    let entry (ts : List Token) : Except ReadError (List (Node × Node) × List Token) :=
      match ts with
      | .flowMappingEnd :: rest => .ok ([], rest)
      | .key :: rest => do
        let key ← orMissing false false [.value, .flowEntry, .flowMappingEnd] room fuel rest
        let value ← flowValue .flowMappingEnd room fuel key.2
        let more ← flowEntries false room fuel value.2
        return ((key.1, value.1) :: more.1, more.2)
      | _ => do
        let key ← ofTokens false false room fuel ts
        let more ← flowEntries false room fuel key.2
        return ((key.1, missing) :: more.1, more.2)
    match ts with
    | .flowMappingEnd :: rest => .ok ([], rest)
    | .flowEntry :: rest => if first then .error .malformed else entry rest
    | _ => if first then entry ts else .error (refusal ts)
termination_by structural _ fuel => fuel

end

/-- The node of a document, if there is only one document; nothing if there is none. -/
def ofDocument (room : Nat) (ts : List Token) : Except ReadError (Option Node) :=
  let close (r : Node × List Token) : Except ReadError (Option Node) :=
    let rest := r.2.dropWhile (· == .documentEnd)
    if rest.isEmpty then .ok (some r.1) else .error (refusal rest)
  match ts with
  | [] => .ok none
  | .documentStart :: rest =>
    if endsIn [.documentStart, .documentEnd] rest then close (missing, rest)
    else do close (← ofTokens true false room (3 * ts.length + 3) rest)
  | _ => do close (← ofTokens true false room (3 * ts.length + 3) ts)

/-! ## Merged entries -/

/-- The sign for taking over the entries of other mappings. -/
def isMergeKey : Node → Bool
  | .scalar true text => text = "<<"
  | _ => false

mutual

/-- The entries of a mapping: those that it takes over, and behind them its own. -/
def merged : List (Node × Node) → Except ReadError (List (Node × Node) × List (Node × Node))
  | [] => .ok ([], [])
  | (key, value) :: rest =>
    if key.isMergeKey then do
      let taken ← takenFrom value
      let more ← merged rest
      return (taken ++ more.1, more.2)
    else do
      let more ← merged rest
      return (more.1, (key, value) :: more.2)

/-- The entries that are taken over from a mapping, or from several, of which the first counts most. -/
def takenFrom : Node → Except ReadError (List (Node × Node))
  | .mapping entries => do
    let r ← merged entries
    return r.1 ++ r.2
  | .sequence items => takenFromItems items
  | .scalar .. => .error .malformed

/-- The entries that are taken over from several mappings. -/
def takenFromItems : List Node → Except ReadError (List (Node × Node))
  | [] => .ok []
  | .mapping entries :: rest => do
    let r ← merged entries
    let more ← takenFromItems rest
    return more ++ (r.1 ++ r.2)
  | _ => .error .malformed

end

/-- All entries of a mapping. -/
def entriesOf (entries : List (Node × Node)) : Except ReadError (List (Node × Node)) := do
  let r ← merged entries
  return r.1 ++ r.2

/-! ## Values -/

/-- The value of a scalar that is not a key. -/
def scalarData (plain : Bool) (text : Text) : Except ReadError Data :=
  if plain then plainValue text else .ok (.text text)

/-- The value of a key. The sign for a default value is a text here; collections are refused. -/
def keyData : Node → Except ReadError Data
  | .scalar plain text => if plain ∧ text = "=" then .ok (.text text) else scalarData plain text
  | _ => .error .malformed

/-- The first fault among the scalars that belong to a node itself, and the collections inside it. -/
def childrenOf : Node → Except ReadError (List Node)
  | .scalar plain text => do
    let _ ← scalarData plain text
    return []
  | .sequence items => inner items
  | .mapping entries => do
    let children ← (← entriesOf entries).mapM fun (key, value) => do
      let _ ← keyData key
      inner [value]
    return children.flatten
where
  /-- The collections among nodes, if the scalars among them have values. -/
  inner (nodes : List Node) : Except ReadError (List Node) :=
    nodes.filterMapM fun
      | .scalar plain text => do
        let _ ← scalarData plain text
        return none
      | n => return some n

mutual

/-- How deeply collections are nested. -/
def depth : Node → Nat
  | .scalar .. => 0
  | .sequence items => depthOfItems items + 1
  | .mapping entries => depthOfEntries entries + 1

/-- How deeply collections are nested in items. -/
def depthOfItems : List Node → Nat
  | [] => 0
  | n :: rest => max (depth n) (depthOfItems rest)

/-- How deeply collections are nested in entries. -/
def depthOfEntries : List (Node × Node) → Nat
  | [] => 0
  | (key, value) :: rest => max (max (depth key) (depth value)) (depthOfEntries rest)

end

/-- The first fault at the least depth, in nodes that are nested at most `fuel` deep. -/
def errorIn : (fuel : Nat) → List Node → Option ReadError
  | 0, _ => none
  | fuel + 1, nodes =>
    match nodes.mapM childrenOf with
    | .error e => some e
    | .ok children => if children.flatten.isEmpty then none else errorIn fuel children.flatten

/-- The first fault at the least depth. -/
def firstError (n : Node) : Option ReadError := errorIn (n.depth + 1) [n]

mutual

/-- The value of a node without faults. -/
def value : (fuel : Nat) → Node → Except ReadError Data
  | 0, _ => .error .malformed
  | _ + 1, .scalar plain text => scalarData plain text
  | fuel + 1, .sequence items => do return .list (← itemsValue fuel items)
  | fuel + 1, .mapping entries => do return .map (← entriesValue fuel [] (← entriesOf entries))

/-- The values of items. -/
def itemsValue : (fuel : Nat) → List Node → Except ReadError (List Data)
  | _, [] => .ok []
  | fuel, n :: rest => do
    let d ← value fuel n
    return d :: (← itemsValue fuel rest)

/-- The entries of a map, behind those already there. Of entries with the same key the last one counts, at the place of
the first. -/
def entriesValue : (fuel : Nat) → List (Data × Data) → List (Node × Node) → Except ReadError (List (Data × Data))
  | _, done, [] => .ok done
  | fuel, done, (key, n) :: rest => do
    let k ← keyData key
    let d ← value fuel n
    entriesValue fuel (Data.put done k d) rest

end

/-- The value of a node. -/
def data (n : Node) : Except ReadError Data :=
  match n.firstError with
  | some e => .error e
  | none => n.value (n.depth + 1)

end Node

/-- The value of a document; null if the text has none. Without a limit on collections inside one another there is room
for as many as there are tokens. -/
def read (limit : Option Nat) (s : Source) : Except ReadError Data := do
  let all := tokens s
  match ← Node.ofDocument (limit.getD all.length) all with
  | none => return .null
  | some n => n.data

end Hyperchess.Yaml
