import Hyperchess.Proofs.Coord.Reading
import Hyperchess.Proofs.Rule.References
import Hyperchess.Proofs.Text.Case
import Hyperchess.Rule.OfData

/-!
# Rules that are written as data

`Rule.WrittenAs` says which data a rule can be written as: a field that is not set is left out, the entries of a map may
have any order, and coordinates, unlimited steps and references can be spelled in several ways. Main statement: whatever
data a rule is written as, it is read as this rule, and every rule whose references are in upper case can be written
(`ofData_writtenAs`).
-/

namespace Hyperchess

/-! ## Records -/

namespace Data

/-- The entries of a map with these fields: those that are not set are left out. -/
def record (fields : List (Text × Option Data)) : List (Data × Data) :=
  fields.filterMap fun f => f.2.map fun d => (.text f.1, d)

variable {fields : List (Text × Option Data)} {entries : List (Data × Data)} {name : Text} {value : Option Data}

theorem mem_record {e : Data × Data} : e ∈ record fields ↔ ∃ name d, (name, some d) ∈ fields ∧ e = (.text name, d) := by
  rw [record, List.mem_filterMap]
  constructor
  · rintro ⟨⟨name, value⟩, hf, he⟩
    obtain ⟨d, rfl, rfl⟩ := Option.map_eq_some_iff.1 he
    exact ⟨name, d, hf, rfl⟩
  · rintro ⟨name, d, hf, rfl⟩
    exact ⟨(name, some d), hf, rfl⟩

/-- In whatever order the entries are, a map has for a name what is set for it. -/
theorem lookup_record (hnames : (fields.map (·.1)).Nodup) (h : entries.Perm (record fields))
    (hmem : (name, value) ∈ fields) : lookup (.text name) entries = value := by
  have hunique {d : Data} (hd : (name, some d) ∈ fields) : value = some d :=
    congrArg Prod.snd (List.inj_on_of_nodup_map hnames hmem hd rfl)
  unfold lookup
  cases hfound : entries.find? fun e => e.1.same (.text name) with
  | none =>
    cases value with
    | none => rfl
    | some d =>
      have hin : (Data.text name, d) ∈ entries := h.mem_iff.2 (mem_record.2 ⟨name, d, hmem, rfl⟩)
      exact absurd (same_self _) (List.find?_eq_none.1 hfound _ hin)
  | some e =>
    obtain ⟨other, d, hf, rfl⟩ := mem_record.1 (h.mem_iff.1 (List.mem_of_find?_eq_some hfound))
    obtain rfl : other = name := by simpa [same] using List.find?_some hfound
    rw [hunique hf]
    rfl

end Data

/-! ## Ways to write -/

/-- A coordinate is written as a list of at most four axes, missing ones being zero, or as its text. -/
inductive Coord.WrittenAs : Coord → Data → Prop
  | items (axes : List Int) (h : axes.length ≤ 4) : WrittenAs (Coord.ofAxes axes) (.list (axes.map .int))
  | text {a : Coord} (h : a.IsWritable) : WrittenAs a (.text a.text)

/-- A limit on steps is written as the number that it is; no limit can also be written as a word, in any mixture of
large and small letters. -/
inductive Number.WrittenAs : Number → Data → Prop
  | int (n : Int) : WrittenAs (.int n) (.int n)
  | float (x : Binary64) : WrittenAs (.float x) (.float x)
  | word (word : String) (cs : List Char) (hword : word ∈ ["inf", "infinity", "unbounded"])
      (h : cs.map Char.toLower = word.toList) : WrittenAs (.float .infinity) (.text (Text.ofChars cs))

/-- Whether a condition is inverted is written as a truth value, or left out if it is not. -/
inductive Condition.InvertedAs : Bool → Option Data → Prop
  | unset : InvertedAs false none
  | bool (b : Bool) : InvertedAs b (some (.bool b))

/-- The fields of a condition. -/
def Condition.fields (team flag piece enemy inverted : Option Data) : List (Text × Option Data) :=
  [("team", team), ("flag", flag), ("piece", piece), ("enemy", enemy), ("inverted", inverted)]

/-- A condition is written as a map. -/
inductive Condition.WrittenAs (c : Condition) : Data → Prop
  | map {piece enemy inverted : Option Data} {entries : List (Data × Data)}
      (hpiece : Option.Rel Coord.WrittenAs c.piece piece) (henemy : Option.Rel Coord.WrittenAs c.enemy enemy)
      (hinverted : InvertedAs c.inverted inverted)
      (h : entries.Perm (Data.record (fields (c.team.map .int) (c.flag.map .int) piece enemy inverted))) :
      WrittenAs c (.map entries)

/-- Conditions are written as a list, or left out if there are none. -/
inductive Condition.AllWrittenAs : List Condition → Option Data → Prop
  | unset : AllWrittenAs [] none
  | list {conditions : List Condition} {items : List Data} (h : List.Forall₂ Condition.WrittenAs conditions items) :
      AllWrittenAs conditions (some (.list items))

/-- The fields of a node. -/
def Terms.fields (steps captures conditions direction branches : Option Data) : List (Text × Option Data) :=
  [("repeat", steps), ("attack", captures), ("conditions", conditions), ("direction", direction),
    ("branches", branches)]

/-- A node with these terms is written as a map, which may have a direction and branches besides. -/
inductive Terms.WrittenWith (terms : Terms) (direction branches : Option Data) : Data → Prop
  | map {steps conditions : Option Data} {entries : List (Data × Data)}
      (hsteps : Option.Rel Number.WrittenAs terms.steps steps)
      (hconditions : Condition.AllWrittenAs terms.conditions conditions)
      (h : entries.Perm (Data.record (fields steps (terms.captures.map .int) conditions direction branches))) :
      WrittenWith terms direction branches (.map entries)

mutual

/-- A path is written as a map, or as a text if it is a reference: the kind in large or small letters. -/
inductive Path.WrittenAs : Path → Data → Prop
  | leaf {terms : Terms} {direction : Coord} {v d : Data} (hdirection : direction.WrittenAs v)
      (h : terms.WrittenWith (some v) none d) : Path.WrittenAs (.leaf terms direction) d
  | branches {terms : Terms} {below : List Path} {items : List Data} {d : Data}
      (hbelow : Path.AllWrittenAs below items) (h : terms.WrittenWith none (some (.list items)) d) :
      Path.WrittenAs (.branches terms below) d
  | bare {terms : Terms} {d : Data} (h : terms.WrittenWith none none d) : Path.WrittenAs (.bare terms) d
  | reference (s : Text) : Path.WrittenAs (.reference s.upper) (.text s)

/-- Paths are written one by one. -/
inductive Path.AllWrittenAs : List Path → List Data → Prop
  | nil : Path.AllWrittenAs [] []
  | cons {path : Path} {d : Data} {rest : List Path} {items : List Data} (h : path.WrittenAs d)
      (hrest : Path.AllWrittenAs rest items) : Path.AllWrittenAs (path :: rest) (d :: items)

end

/-- A rule is written as a map with the list of its paths. -/
inductive Rule.WrittenAs : Rule → Data → Prop
  | map {roots : List Path} {items : List Data} (h : Path.AllWrittenAs roots items) :
      WrittenAs ⟨roots⟩ (.map [(.text "path_tree", .list items)])

namespace Rule

variable {id : Text}

/-! ## Reading what was written -/

theorem coordOf_writtenAs {a : Coord} {d : Data} (h : a.WrittenAs d) : coordOf id d = .ok a := by
  cases h with
  | items axes h =>
    have haxes : (axes.map Data.int).map Coord.axisOfData = axes := by
      rw [List.map_map]
      exact List.map_id' axes
    simp only [coordOf, Coord.ofItems, List.length_map, h, if_true, haxes]
  | text h => rw [coordOf, Coord.ofText_text h]

theorem isUnbounded_of_word {word : String} {cs : List Char} (hword : word ∈ ["inf", "infinity", "unbounded"])
    (h : cs.map Char.toLower = word.toList) : unboundedWords.contains (Text.ofChars cs).lower = true := by
  have hword : (word.toList.all fun c => c.toNat < 128) = true ∧
      unboundedWords.contains (Text.ofChars word.toList) = true := by
    simp only [List.mem_cons, List.not_mem_nil, or_false] at hword
    rcases hword with rfl | rfl | rfl <;> decide
  have hcommon : ∀ c ∈ cs, c.toNat < 128 := by
    intro c hc
    have hsmall := List.all_eq_true.1 hword.1 _ (h ▸ List.mem_map_of_mem hc)
    exact Text.lt_of_toLower_lt (of_decide_eq_true hsmall)
  rw [Text.lower_ofChars hcommon, h]
  exact hword.2

theorem stepsOf_writtenAs {n : Number} {d : Data} (h : n.WrittenAs d) : stepsOf id d = .ok (some n) := by
  cases h with
  | int n => rfl
  | float x => rfl
  | word _ _ hword h => rw [stepsOf, if_pos (isUnbounded_of_word hword h)]

/-- A limit that is left out is read as none. -/
theorem stepsOf_getD {limit : Option Number} {v : Option Data} (h : Option.Rel Number.WrittenAs limit v) :
    stepsOf id (v.getD .null) = .ok limit := by
  cases h with
  | none => rfl
  | some h => exact stepsOf_writtenAs h

/-- An integer that is left out is read as none. -/
theorem integerOf_map (name : Text) (n : Option Int) : integerOf id name ((n.map Data.int).getD .null) = .ok n := by
  cases n <;> rfl

theorem coordIn_writtenAs {a : Option Coord} {v : Option Data} {d : Data} {key : Text} (hget : d.get? key = v)
    (h : Option.Rel Coord.WrittenAs a v) : coordIn id d key = .ok a := by
  rw [coordIn, hget]
  cases h with
  | none => rfl
  | some h =>
    show (do return some (← coordOf id _)) = _
    rw [coordOf_writtenAs h]
    rfl

theorem truthy_invertedAs {inverted : Bool} {v : Option Data} (h : Condition.InvertedAs inverted v) :
    (v.getD (.bool false)).truthy = inverted := by
  cases h <;> rfl

theorem conditionOf_writtenAs {c : Condition} {d : Data} (h : c.WrittenAs d) : conditionOf id d = .ok c := by
  obtain @⟨piece, enemy, inverted, entries, hpiece, henemy, hinverted, hperm⟩ := h
  have hnames : ((Condition.fields (c.team.map .int) (c.flag.map .int) piece enemy inverted).map (·.1)).Nodup := by
    show (["team", "flag", "piece", "enemy", "inverted"] : List Text).Nodup
    decide
  have hget (name : Text) (value : Option Data)
      (hmem : (name, value) ∈ Condition.fields (c.team.map .int) (c.flag.map .int) piece enemy inverted) :
      (Data.map entries).get? name = value :=
    Data.lookup_record hnames hperm hmem
  have hteam : (Data.map entries).get? "team" = c.team.map .int := hget _ _ (by simp [Condition.fields])
  have hflag : (Data.map entries).get? "flag" = c.flag.map .int := hget _ _ (by simp [Condition.fields])
  have hturned : (((Data.map entries).get? "inverted").getD (.bool false)).truthy = c.inverted := by
    rw [hget "inverted" inverted (by simp [Condition.fields])]
    exact truthy_invertedAs hinverted
  rw [conditionOf, hteam, hflag, integerOf_map, integerOf_map, hturned,
    coordIn_writtenAs (hget _ _ (by simp [Condition.fields])) hpiece,
    coordIn_writtenAs (hget _ _ (by simp [Condition.fields])) henemy]
  rfl

theorem mapM_conditionOf_writtenAs {conditions : List Condition} {items : List Data}
    (h : List.Forall₂ Condition.WrittenAs conditions items) : items.mapM (conditionOf id) = .ok conditions := by
  induction h with
  | nil => rfl
  | cons hc _ ih =>
    rw [List.mapM_cons, conditionOf_writtenAs hc, ih]
    rfl

/-- Conditions that are left out are read as none. -/
theorem exists_members_of_allWrittenAs {conditions : List Condition} {v : Option Data}
    (h : Condition.AllWrittenAs conditions v) :
    ∃ items, (v.getD (.list [])).members = .ok items ∧ items.mapM (conditionOf id) = .ok conditions := by
  cases h with
  | unset => exact ⟨[], rfl, rfl⟩
  | list h => exact ⟨_, rfl, mapM_conditionOf_writtenAs h⟩

/-- What is written for a node is read as its terms; it has the direction and the branches that it was written with. -/
theorem termsOf_writtenWith (id : Text) {terms : Terms} {direction branches : Option Data} {d : Data}
    (h : terms.WrittenWith direction branches d) : ∃ entries, d = .map entries ∧ termsOf id d = .ok terms ∧
      Data.lookup (.text "direction") entries = direction ∧ Data.lookup (.text "branches") entries = branches := by
  obtain @⟨steps, conditions, entries, hsteps, hconditions, hperm⟩ := h
  have hnames : ((Terms.fields steps (terms.captures.map .int) conditions direction branches).map (·.1)).Nodup := by
    show (["repeat", "attack", "conditions", "direction", "branches"] : List Text).Nodup
    decide
  have hget (name : Text) (value : Option Data)
      (hmem : (name, value) ∈ Terms.fields steps (terms.captures.map .int) conditions direction branches) :
      (Data.map entries).get? name = value :=
    Data.lookup_record hnames hperm hmem
  refine ⟨entries, rfl, ?_, hget _ _ (by simp [Terms.fields]), hget _ _ (by simp [Terms.fields])⟩
  have hrepeat : stepsOf id (((Data.map entries).get? "repeat").getD .null) = .ok terms.steps := by
    rw [hget "repeat" steps (by simp [Terms.fields])]
    exact stepsOf_getD hsteps
  have hcaptures : (Data.map entries).get? "attack" = terms.captures.map .int := hget _ _ (by simp [Terms.fields])
  obtain ⟨items, hmembers, hread⟩ : ∃ items,
      (((Data.map entries).get? "conditions").getD (.list [])).members = .ok items ∧
        items.mapM (conditionOf id) = .ok terms.conditions := by
    rw [hget "conditions" conditions (by simp [Terms.fields])]
    exact exists_members_of_allWrittenAs hconditions
  rw [termsOf, hrepeat, hcaptures, integerOf_map, hmembers]
  show (do return (⟨terms.steps, terms.captures, ← items.mapM (conditionOf id)⟩ : Terms)) = _
  rw [hread]
  rfl

/-- The nodes under `branches` are those of the first entry with this key. -/
theorem branchesIn_eq (entries : List (Data × Data)) :
    branchesIn id entries = (Data.lookup (.text "branches") entries).map (pathsIn id) := by
  induction entries with
  | nil => rfl
  | cons e rest ih =>
    obtain ⟨key, d⟩ := e
    rw [branchesIn]
    split
    · rename_i hkey
      simp [Data.lookup, hkey]
    · rename_i hkey
      simpa [Data.lookup, hkey] using ih

/-- A map is read as a leaf if it has a direction, otherwise as a branching if it has branches, otherwise as a node that
leads nowhere. -/
theorem pathOf_map (entries : List (Data × Data)) : pathOf id (.map entries) = do
    let terms ← termsOf id (.map entries)
    match Data.lookup (.text "direction") entries, Data.lookup (.text "branches") entries with
    | some d, _ => return .leaf terms (← coordOf id d)
    | none, some d => return .branches terms (← pathsIn id d)
    | none, none => return .bare terms := by
  rw [pathOf, branchesIn_eq]
  cases Data.lookup (.text "direction") entries <;> cases Data.lookup (.text "branches") entries <;> rfl

mutual

theorem pathOf_writtenAs {path : Path} {d : Data} (h : path.WrittenAs d) : pathOf id d = .ok path := by
  cases h with
  | leaf hdirection h =>
    obtain ⟨entries, rfl, hterms, hlookup, -⟩ := termsOf_writtenWith id h
    rw [pathOf_map, hterms, hlookup]
    simp only [Outcome.ok_bind, coordOf_writtenAs hdirection]
    rfl
  | branches hbelow h =>
    obtain ⟨entries, rfl, hterms, hlookup, hbranches⟩ := termsOf_writtenWith id h
    rw [pathOf_map, hterms, hlookup, hbranches]
    simp only [Outcome.ok_bind, pathsIn, pathsOf_writtenAs hbelow]
    rfl
  | bare h =>
    obtain ⟨entries, rfl, hterms, hlookup, hbranches⟩ := termsOf_writtenWith id h
    rw [pathOf_map, hterms, hlookup, hbranches]
    rfl
  | reference s => rfl

theorem pathsOf_writtenAs {paths : List Path} {items : List Data} (h : Path.AllWrittenAs paths items) :
    pathsOf id items = .ok paths := by
  cases h with
  | nil => rfl
  | cons h hrest =>
    rw [pathsOf, pathOf_writtenAs h, pathsOf_writtenAs hrest]
    rfl

end

/-! ## Writing -/

theorem exists_coordAs (a : Coord) : ∃ d, a.WrittenAs d := ⟨_, .items a.axes (Nat.le_refl 4)⟩

theorem exists_rel {α : Type} {r : α → Data → Prop} (h : ∀ a, ∃ d, r a d) (o : Option α) : ∃ v, Option.Rel r o v := by
  cases o with
  | none => exact ⟨none, .none⟩
  | some a =>
    obtain ⟨d, hd⟩ := h a
    exact ⟨some d, .some hd⟩

theorem exists_numberAs (n : Number) : ∃ d, n.WrittenAs d := by
  cases n with
  | int n => exact ⟨_, .int n⟩
  | float x => exact ⟨_, .float x⟩

theorem exists_conditionAs (c : Condition) : ∃ d, c.WrittenAs d := by
  obtain ⟨piece, hpiece⟩ := exists_rel exists_coordAs c.piece
  obtain ⟨enemy, henemy⟩ := exists_rel exists_coordAs c.enemy
  exact ⟨_, .map hpiece henemy (.bool _) (.refl _)⟩

theorem exists_conditionsAs (conditions : List Condition) :
    ∃ items, List.Forall₂ Condition.WrittenAs conditions items := by
  induction conditions with
  | nil => exact ⟨[], .nil⟩
  | cons c rest ih =>
    obtain ⟨d, hd⟩ := exists_conditionAs c
    obtain ⟨items, hitems⟩ := ih
    exact ⟨d :: items, .cons hd hitems⟩

theorem exists_nodeAs (terms : Terms) (direction branches : Option Data) :
    ∃ d, terms.WrittenWith direction branches d := by
  obtain ⟨steps, hsteps⟩ := exists_rel exists_numberAs terms.steps
  obtain ⟨items, hitems⟩ := exists_conditionsAs terms.conditions
  exact ⟨_, .map hsteps (.list hitems) (.refl _)⟩

mutual

/-- A path can be written if the kinds that it refers to are in upper case. -/
theorem exists_pathAs (path : Path) (h : ∀ id ∈ path.references, id.upper = id) : ∃ d, path.WrittenAs d := by
  cases path with
  | leaf terms direction =>
    obtain ⟨v, hv⟩ := exists_coordAs direction
    obtain ⟨d, hd⟩ := exists_nodeAs terms (some v) none
    exact ⟨d, .leaf hv hd⟩
  | branches terms below =>
    obtain ⟨items, hitems⟩ := exists_pathsAs below h
    obtain ⟨d, hd⟩ := exists_nodeAs terms none (some (.list items))
    exact ⟨d, .branches hitems hd⟩
  | bare terms =>
    obtain ⟨d, hd⟩ := exists_nodeAs terms none none
    exact ⟨d, .bare hd⟩
  | reference id =>
    have hwritten := Path.WrittenAs.reference id
    rw [h id (List.mem_singleton_self id)] at hwritten
    exact ⟨_, hwritten⟩

theorem exists_pathsAs (paths : List Path) (h : ∀ id ∈ Path.referencesOf paths, id.upper = id) :
    ∃ items, Path.AllWrittenAs paths items := by
  match paths with
  | [] => exact ⟨[], .nil⟩
  | path :: rest =>
    obtain ⟨hpath, hrest⟩ := List.forall_mem_append.1 h
    obtain ⟨d, hd⟩ := exists_pathAs path hpath
    obtain ⟨items, hitems⟩ := exists_pathsAs rest hrest
    exact ⟨d :: items, .cons hd hitems⟩

end

/-- **Nothing is lost when rules are written as data and read again.**
- Whatever data a rule is written as, for whatever kind, the same rule is read from it, with its paths and conditions in
  the same order.
- Every rule can be written if the kinds that it refers to are in upper case. -/
theorem ofData_writtenAs :
    (∀ (id : Text) (rule : Rule) (d : Data), rule.WrittenAs d → ofData id d = .ok rule) ∧
    ∀ rule : Rule, (∀ id ∈ rule.references, id.upper = id) → ∃ d, rule.WrittenAs d := by
  constructor
  · rintro id _ _ ⟨hroots⟩
    show (do return (⟨← pathsOf id _⟩ : Rule)) = _
    rw [pathsOf_writtenAs hroots]
    rfl
  · rintro ⟨roots⟩ h
    obtain ⟨items, hitems⟩ := exists_pathsAs roots h
    exact ⟨_, .map hitems⟩

/-- A rule in which every kind of node and every field occurs, in several spellings and with the entries in no
particular order. -/
theorem ofData_writtenAs_mixed :
    let enemy : Condition := { enemy := some ⟨0, -1, 0, 0⟩, piece := some ⟨1, 0, 0, 0⟩, inverted := true }
    let root : Path :=
      .branches { steps := some (.float .infinity), captures := some 1, conditions := [{ team := some 0 }, enemy] }
        [.leaf {} ⟨0, 1, 0, 0⟩, .reference "B", .branches { steps := some (.float (.ofRatio false 5 2)) } [],
          .leaf { captures := some (-1), conditions := [{ flag := some 2 }] } ⟨1, 0, -20, 0⟩]
    let rule : Rule := ⟨[root, .bare { steps := some (.int 3) }, .reference "STRASSE"]⟩
    let r : Data := .map [
      (.text "conditions", .list [.map [(.text "inverted", .bool false), (.text "team", .int 0)],
        .map [(.text "inverted", .bool true), (.text "piece", .list [.int 1]), (.text "enemy", .text "0,-1,0,0")]]),
      (.text "branches", .list [.map [(.text "direction", .list [.int 0, .int 1])], .text "b",
        .map [(.text "branches", .list []), (.text "repeat", .float (.ofRatio false 5 2))],
        .map [(.text "direction", .text "1,0,-20,0"), (.text "attack", .int (-1)),
          (.text "conditions", .list [.map [(.text "flag", .int 2)]])]]),
      (.text "attack", .int 1), (.text "repeat", .text "InFinity")]
    let d : Data := .map [(.text "path_tree", .list [
      r, .map [(.text "repeat", .int 3), (.text "conditions", .list [])], .text "straße"])]
    rule.WrittenAs d ∧ ofData "A" d = .ok rule ∧ ∃ d, rule.WrittenAs d := by
  intro enemy root rule r d
  obtain ⟨hread, hwrite⟩ := ofData_writtenAs
  have hcoord : Coord.WrittenAs ⟨0, -1, 0, 0⟩ (.text "0,-1,0,0") := .text (a := ⟨0, -1, 0, 0⟩) (by decide +kernel)
  have hleap : Coord.WrittenAs ⟨1, 0, -20, 0⟩ (.text "1,0,-20,0") := .text (a := ⟨1, 0, -20, 0⟩) (by decide +kernel)
  have hteam : Condition.WrittenAs { team := some 0 }
      (.map [(.text "inverted", .bool false), (.text "team", .int 0)]) :=
    .map .none .none (.bool false) (by decide +kernel)
  have henemy : enemy.WrittenAs (.map [(.text "inverted", .bool true), (.text "piece", .list [.int 1]),
      (.text "enemy", .text "0,-1,0,0")]) :=
    .map (.some (.items [1] (by decide))) (.some hcoord) (.bool true) (by decide +kernel)
  have hflag : Condition.WrittenAs { flag := some 2 } (.map [(.text "flag", .int 2)]) :=
    .map .none .none .unset (by decide +kernel)
  have hunbounded : Number.WrittenAs (.float .infinity) (.text "InFinity") :=
    .word "infinity" "InFinity".toList (by decide) (by decide)
  have hstep : Path.WrittenAs (.leaf {} ⟨0, 1, 0, 0⟩) (.map [(.text "direction", .list [.int 0, .int 1])]) :=
    .leaf (.items [0, 1] (by decide)) (.map .none .unset (by decide +kernel))
  have hnone : Path.WrittenAs (.branches { steps := some (.float (.ofRatio false 5 2)) } [])
      (.map [(.text "branches", .list []), (.text "repeat", .float (.ofRatio false 5 2))]) :=
    .branches .nil (.map (.some (.float _)) .unset (by decide +kernel))
  have hjump : Path.WrittenAs (.leaf { captures := some (-1), conditions := [{ flag := some 2 }] } ⟨1, 0, -20, 0⟩)
      (.map [(.text "direction", .text "1,0,-20,0"), (.text "attack", .int (-1)),
        (.text "conditions", .list [.map [(.text "flag", .int 2)]])]) :=
    .leaf hleap (.map .none (.list (.cons hflag .nil)) (by decide +kernel))
  have hbare : Path.WrittenAs (.bare { steps := some (.int 3) })
      (.map [(.text "repeat", .int 3), (.text "conditions", .list [])]) :=
    .bare (.map (.some (.int 3)) (.list .nil) (by decide +kernel))
  have hroot : root.WrittenAs r :=
    .branches (.cons hstep (.cons (.reference "b") (.cons hnone (.cons hjump .nil))))
      (.map (.some hunbounded) (.list (.cons hteam (.cons henemy .nil))) (by decide +kernel))
  have hwritten : rule.WrittenAs d := .map (.cons hroot (.cons hbare (.cons (.reference "straße") .nil)))
  exact ⟨hwritten, hread "A" rule d hwritten, hwrite rule (by decide +kernel)⟩

end Rule

end Hyperchess
