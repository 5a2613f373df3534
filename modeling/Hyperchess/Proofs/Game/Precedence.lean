import Hyperchess.Proofs.Game.Start
import Hyperchess.Proofs.Rule.Merging
import Hyperchess.Proofs.Settings.Kept
import Hyperchess.Proofs.Text.Case

/-!
# Which rules come first

A game has rules from three places: its opening, the file that the settings name, and the built-in ones. Kinds are
compared in upper case throughout, although the keys of the file are put in upper case when it is read and those of the
opening only when the book is made. Main statement: for every kind a rule of the opening comes before one of the file,
and this before a built-in one (`rules_start`).
-/

namespace Hyperchess

namespace RuleBook

variable {file : List (Text × Rule)} {book : RuleBook} {sources : List (Text × RuleSource)} {id : Text}

/-- The entries of a document: of one that is no map there are none. -/
def entriesOf : Data → List (Data × Data)
  | .map entries => entries
  | _ => []

/-- The rule of an entry. -/
def readEntry (e : Data × Data) : Except Fault Rule := do
  e.1.checkWritable
  Rule.ofData e.1.display e.2

theorem ofData_of_readEntry {e : Data × Data} {rule : Rule} (h : readEntry e = .ok rule) :
    Rule.ofData e.1.display e.2 = .ok rule := by
  obtain ⟨_, -, h⟩ := Outcome.bind_eq_ok_iff.1 h
  exact h

/-- The rules of the entries of a document. -/
def rulesOfEntries (document : List (Data × Data)) : Except Fault (List (Text × Rule)) :=
  gather (fun e => e.1.display) readEntry document []

/-- The rules of a document are those of its entries. -/
theorem rulesOfEntries_of_rulesOfData {name : Text} {d : Data} (h : rulesOfData name d = .ok file) :
    rulesOfEntries (entriesOf d) = .ok file := by
  unfold rulesOfData at h
  split at h
  · split at h
    · rename_i entries _
      rw [← h]
      refine congrArg (fun f => entries.foldlM f []) ?_
      funext done ⟨key, rule⟩
      show (do return assign done key.display.upper (← readEntry (key, rule))) = _
      dsimp only [readEntry]
      cases key.checkWritable <;> rfl
    · cases h
  · rename_i hfalsy
    cases h
    cases d with
    | map entries =>
      have hempty : entries = [] := by simpa [Data.truthy] using hfalsy
      rw [hempty]
      rfl
    | _ => rfl

/-- The rules of a book are gathered from its sources. -/
theorem gather_of_ofSources (h : ofSources sources = .ok book) :
    gather (fun e => e.1) (fun e => ruleFrom e.1 e.2) sources [] = .ok book.custom := by
  obtain ⟨custom, hcustom, h⟩ := Outcome.bind_eq_ok_iff.1 h
  cases h
  exact hcustom

theorem upper_builtin : ∀ e ∈ Rule.builtin, e.1.upper = e.1 := by decide +kernel

/-- A book with such rules lists kinds in upper case. -/
theorem upper_of_mem_ids {book : RuleBook} (h : Distinct book.custom) (id : Text) (hid : id ∈ book.ids) :
    id.upper = id := by
  rw [ids, mem_increasing, List.mem_append] at hid
  rcases hid with hid | hid
  · obtain ⟨e, he, rfl⟩ := List.mem_map.1 hid
    exact upper_builtin e he
  · obtain ⟨e, he, rfl⟩ := List.mem_map.1 hid
    exact h.upper e he

end RuleBook

namespace Opening

variable {o : Opening} {read : Reader} {fs : Files} {g : Game} {file : List (Text × Rule)}
  {document : List (Data × Data)}
  {book : RuleBook} {id : Text}

/-! ## The three places -/

/-- The entries of the file that the settings name. Without a name there are none. -/
def fileDocument (o : Opening) (read : Reader) (fs : Files) : Except Fault (List (Data × Data)) :=
  match o.settings.get "custom_rules_file" with
  | .text name =>
    if name.isEmpty then .ok []
    else do return RuleBook.entriesOf (← read (← fs.source (.ofText name)))
  | _ => .ok []

/-- The rules of the file are those of its entries. -/
theorem fileDocument_of_fileRules {journal : List Entry} (h : o.fileRules read fs = .ok (file, journal)) :
    ∃ document, o.fileDocument read fs = .ok document ∧ RuleBook.rulesOfEntries document = .ok file := by
  unfold fileRules at h
  unfold fileDocument
  dsimp only at h
  split at h
  · rename_i htruthy
    split at h
    · rename_i name hname
      obtain ⟨rules, hrules, h⟩ := Outcome.bind_eq_ok_iff.1 h
      cases h
      obtain ⟨source, hsource, hrules⟩ := Outcome.bind_eq_ok_iff.1 hrules
      obtain ⟨d, hread, hrules⟩ := Outcome.bind_eq_ok_iff.1 hrules
      have hempty : ¬ name.isEmpty = true := by simpa [hname, Data.truthy] using htruthy
      refine ⟨RuleBook.entriesOf d, ?_, RuleBook.rulesOfEntries_of_rulesOfData hrules⟩
      rw [hname]
      simp only [hempty, hsource, hread, Outcome.ok_bind]
      rfl
    all_goals cases h
  · rename_i hfalsy
    cases h
    refine ⟨[], ?_, rfl⟩
    split
    · rename_i name hname
      have hempty : name.isEmpty = true := by simpa [hname, Data.truthy] using hfalsy
      rw [if_pos hempty]
    · rfl

/-- What a game answers for a kind, and where it has the rule from. -/
inductive Answers (o : Opening) (document : List (Data × Data)) (id : Text) : Except Fault Rule → Prop
  /-- A rule of the opening. -/
  | own {e : Text × RuleSource} {rule : Rule} (he : e ∈ o.rules) (hkind : e.1.upper = id)
      (h : RuleBook.ruleFrom e.1 e.2 = .ok rule) : Answers o document id (.ok rule)
  /-- If there is none, the last one of the file. -/
  | file {e : Data × Data} {rule : Rule} (hown : ∀ f ∈ o.rules, f.1.upper ≠ id)
      (he : RuleBook.lastFor (fun e => e.1.display.upper) document id = some e)
      (h : Rule.ofData e.1.display e.2 = .ok rule) : Answers o document id (.ok rule)
  /-- If there is none, either, the one that is built in. -/
  | builtin {rule : Rule} (hown : ∀ f ∈ o.rules, f.1.upper ≠ id) (hfile : ∀ f ∈ document, f.1.display.upper ≠ id)
      (h : RuleBook.find? Rule.builtin id = some rule) : Answers o document id (.ok rule)
  /-- Otherwise there is no rule. -/
  | missing (hown : ∀ f ∈ o.rules, f.1.upper ≠ id) (hfile : ∀ f ∈ document, f.1.display.upper ≠ id)
      (h : RuleBook.find? Rule.builtin id = none) : Answers o document id (.error (.missingRule id))

/-! ## The book -/

/-- The sources of the book with a kind: the last one is a rule of the opening, if it has any with this kind; otherwise
there is at most the rule of the file. -/
theorem lastFor_sources (hfile : RuleBook.Distinct file) (id : Text) :
    (∃ e ∈ o.rules, e.1.upper = id ∧ RuleBook.lastFor (fun e => e.1.upper) (o.sources file) id = some e) ∨
      (∀ e ∈ o.rules, e.1.upper ≠ id) ∧ RuleBook.lastFor (fun e => e.1.upper) (o.sources file) id =
        (RuleBook.find? file id).map fun rule => (id, .rule rule) := by
  have hfirst : (file.map fun (e : Text × Rule) => (e.1, RuleSource.rule e.2)).filter (fun e => e.1.upper == id) =
      ((RuleBook.find? file id).map fun rule => (id, RuleSource.rule rule)).toList := by
    rw [List.filter_map]
    show List.map _ (file.filter fun e => e.1.upper == id) = _
    rw [hfile.filter_eq]
    cases RuleBook.find? file id <;> rfl
  have hlength : ((file.map fun (e : Text × Rule) => (e.1, RuleSource.rule e.2)).filter
      fun e => e.1.upper == id).length ≤ 1 := by
    rw [hfirst]
    exact Option.length_toList_le
  rcases RuleBook.filter_foldl_assign (p := fun key => key.upper == id) hlength o.rules with
    ⟨e, he, hkind, hlast⟩ | ⟨hnone, hsame⟩
  · exact .inl ⟨e, he, eq_of_beq hkind, hlast⟩
  · refine .inr ⟨fun e he => ne_of_beq_false (hnone e he), ?_⟩
    have hsources : (o.sources file).filter (fun e => e.1.upper == id) =
        ((RuleBook.find? file id).map fun rule => (id, RuleSource.rule rule)).toList := hsame.trans hfirst
    rw [RuleBook.lastFor, hsources]
    cases RuleBook.find? file id <;> rfl

/-- What comes before the built-in rules for a kind: a rule of the opening, if it has any with this kind; otherwise the
last one of the file; otherwise nothing. -/
theorem find?_custom (hdocument : RuleBook.rulesOfEntries document = .ok file)
    (hbook : RuleBook.ofSources (o.sources file) = .ok book) (id : Text) :
    (∃ e ∈ o.rules, e.1.upper = id ∧ ∃ rule, RuleBook.ruleFrom e.1 e.2 = .ok rule ∧
        RuleBook.find? book.custom id = some rule) ∨
      (∀ e ∈ o.rules, e.1.upper ≠ id) ∧
        ((∃ e rule, RuleBook.lastFor (fun e => e.1.display.upper) document id = some e ∧
            Rule.ofData e.1.display e.2 = .ok rule ∧ RuleBook.find? book.custom id = some rule) ∨
          RuleBook.lastFor (fun e => e.1.display.upper) document id = none ∧
            RuleBook.find? book.custom id = none) := by
  have hdistinct := RuleBook.distinct_gather .nil hdocument
  have hsources := RuleBook.find?_gather (RuleBook.gather_of_ofSources hbook) id
  have hentries := RuleBook.find?_gather hdocument id
  rcases lastFor_sources (o := o) hdistinct id with ⟨e, he, hkind, hown⟩ | ⟨hown, hfile⟩
  · -- the last source is an entry of the opening
    rcases hsources with ⟨f, rule, hlast, hrule, hfound⟩ | ⟨hnone, -⟩
    · obtain rfl : f = e := Option.some.inj (hlast.symm.trans hown)
      exact .inl ⟨f, he, hkind, rule, hrule, hfound⟩
    · exact absurd (hnone.symm.trans hown) (Option.some_ne_none e).symm
  · -- it can only be the entry that the file has left
    refine .inr ⟨hown, ?_⟩
    rcases hentries with ⟨f, rule', hlast', hrule', hfound'⟩ | ⟨hlast', hnone'⟩
    · left
      rw [hfound'] at hfile
      rcases hsources with ⟨e, rule, hlast, hrule, hfound⟩ | ⟨hnone, -⟩
      · cases hlast.symm.trans hfile
        cases hrule
        exact ⟨f, rule', hlast', RuleBook.ofData_of_readEntry hrule', hfound⟩
      · cases hnone.symm.trans hfile
    · right
      rw [hnone'] at hfile
      rcases hsources with ⟨e, rule, hlast, -, -⟩ | ⟨-, hfound⟩
      · cases hlast.symm.trans hfile
      · exact ⟨hlast', hfound⟩

theorem answers_get (hdocument : RuleBook.rulesOfEntries document = .ok file)
    (hbook : RuleBook.ofSources (o.sources file) = .ok book) (id : Text) : o.Answers document id (book.get id) := by
  unfold RuleBook.get RuleBook.get?
  rcases find?_custom hdocument hbook id with
    ⟨e, he, hkind, rule, hrule, hfound⟩ | ⟨hown, ⟨e, rule, hlast, hrule, hfound⟩ | ⟨hlast, hfound⟩⟩
  · rw [hfound]
    exact .own he hkind hrule
  · rw [hfound]
    exact .file hown hlast hrule
  · rw [hfound]
    have hfile := RuleBook.lastFor_eq_none_iff.1 hlast
    cases hbuiltin : RuleBook.find? Rule.builtin id with
    | some rule => exact .builtin hown hfile hbuiltin
    | none => exact .missing hown hfile hbuiltin

theorem isCustom_iff (hdocument : RuleBook.rulesOfEntries document = .ok file)
    (hbook : RuleBook.ofSources (o.sources file) = .ok book) (id : Text) :
    book.isCustom id = true ↔ (∃ e ∈ o.rules, e.1.upper = id) ∨ ∃ e ∈ document, e.1.display.upper = id := by
  unfold RuleBook.isCustom
  rcases find?_custom hdocument hbook id with
    ⟨e, he, hkind, rule, -, hfound⟩ | ⟨hown, ⟨e, rule, hlast, -, hfound⟩ | ⟨hlast, hfound⟩⟩
  · exact iff_of_true (by rw [hfound]; rfl) (.inl ⟨e, he, hkind⟩)
  · exact iff_of_true (by rw [hfound]; rfl) (.inr ⟨e, RuleBook.mem_of_lastFor hlast⟩)
  · refine iff_of_false (by rw [hfound]; exact Bool.false_ne_true) ?_
    rintro (⟨e, he, hkind⟩ | ⟨e, he, hkind⟩)
    · exact hown e he hkind
    · exact RuleBook.lastFor_eq_none_iff.1 hlast e he hkind

/-- **Which rule a game has for a kind.** For every kind, in whatever case its keys are written:
- the answer is a rule of the opening, if it has any with this kind; otherwise the last one of the file; otherwise the
  one that is built in; otherwise the report that there is none;
- the book contains the kind exactly if there is a rule, and then lists it; it calls the kind custom exactly if the
  opening or the file has a key for it.

The kinds are listed in increasing order, each once, and in upper case. -/
theorem rules_start (h : o.start read fs = .ok g) : ∃ document, o.fileDocument read fs = .ok document ∧
    (∀ id, o.Answers document id (g.variant.book.get id) ∧
      (g.variant.book.contains id = true ↔ ∃ rule, g.variant.book.get id = .ok rule) ∧
      (id ∈ g.variant.book.ids ↔ g.variant.book.contains id = true) ∧
      (g.variant.book.isCustom id = true ↔
        (∃ e ∈ o.rules, e.1.upper = id) ∨ ∃ e ∈ document, e.1.display.upper = id)) ∧
    (g.variant.book.ids.Pairwise fun s t => s.before t = true) ∧ g.variant.book.ids.Nodup ∧
    ∀ id ∈ g.variant.book.ids, id.upper = id := by
  obtain ⟨file, journal, book, hfile, hbook, hgives⟩ := gives_of_start h
  obtain ⟨document, hdocument, hentries⟩ := fileDocument_of_fileRules hfile
  obtain ⟨size, placements, royals, -, -, -, -, hvariant, -⟩ := hgives.spec
  have hget : ∀ id, g.variant.book.get id = book.get id := fun id => by rw [hvariant]; rfl
  have hcustom : g.variant.book.custom = book.custom := by rw [hvariant]
  refine ⟨document, hdocument, fun id => ⟨?_, ?_, RuleBook.contains_iff.symm, ?_⟩, RuleBook.pairwise_ids _,
    RuleBook.nodup_ids _, RuleBook.upper_of_mem_ids ?_⟩
  · rw [hget]
    exact answers_get hentries hbook id
  · rw [RuleBook.contains_iff, RuleBook.mem_ids_iff, Option.isSome_iff_exists]
    exact exists_congr fun rule => RuleBook.get_eq_ok_iff.symm
  · rw [RuleBook.isCustom, hcustom]
    exact isCustom_iff hentries hbook id
  · rw [hcustom]
    exact RuleBook.distinct_gather .nil (RuleBook.gather_of_ofSources hbook)

/-- A game with a rule for queens in its opening and in its file, both under a small letter, and with further rules in
both places. -/
theorem rules_start_queens :
    let page := "q:\n  path_tree: [r]\nx:\n  path_tree: [b]\n"
    let o : Opening := {
      layout := some "2,2,1,1 qx,Z1"
      rules := [("q", .data (.map [(.text "path_tree", .list [.text "n"])])), ("z", .rule ⟨[.reference "K"]⟩)]
      settings := (Settings.ofKind .engine).set "custom_rules_file" (.text "rules.yaml") }
    let fs : Files := { contents := [(["rules.yaml"], page.toUTF8)] }
    let read := Codec.yaml.read
    ∃ g, o.start read fs = .ok g ∧ g.variant.book.ids = ["B", "K", "N", "P", "Q", "R", "X", "Z"] ∧
      (g.variant.book.get "Q").map Rule.references = .ok ["N"] ∧
      (g.variant.book.get "X").map Rule.references = .ok ["B"] ∧
      ∃ document, o.fileDocument read fs = .ok document ∧ ∀ id, o.Answers document id (g.variant.book.get id) := by
  intro page o fs read
  let document : List (Data × Data) := [(.text "q", .map [(.text "path_tree", .list [.text "r"])]),
    (.text "x", .map [(.text "path_tree", .list [.text "b"])])]
  have hyaml : Yaml.read none ⟨Source.plainLines page.toList, true⟩ = .ok (.map document) := by
    rw [Yaml.read_eq]
    decide +kernel
  have hread : read ⟨Source.plainLines page.toList, true⟩ = .ok (.map document) := by
    simp only [read, Codec.yaml, hyaml]
  have htarget : fs.target (.ofText "rules.yaml") = .ok (["rules.yaml"], false) := by decide +kernel
  have hsource : fs.source (.ofText "rules.yaml") = .ok ⟨Source.plainLines page.toList, true⟩ := by
    rw [Files.source, Files.bytes, htarget, ← Source.ofBytes_toUTF8]
    rfl
  have hrun : (RuleBook.rulesOfData "rules.yaml" (.map document) >>= fun file =>
      RuleBook.ofSources (o.sources file) >>= fun book => o.gameWith book >>= fun g =>
        .ok (g.variant.book.ids, (g.variant.book.get "Q").map Rule.references,
          (g.variant.book.get "X").map Rule.references)) =
      .ok (["B", "K", "N", "P", "Q", "R", "X", "Z"], .ok ["N"], .ok ["B"]) := by
    decide +kernel
  obtain ⟨file, hfile, hrun⟩ := Outcome.bind_eq_ok_iff.1 hrun
  obtain ⟨book, hbook, hrun⟩ := Outcome.bind_eq_ok_iff.1 hrun
  obtain ⟨g, hgame, hrun⟩ := Outcome.bind_eq_ok_iff.1 hrun
  obtain ⟨hids, hqueen, hother⟩ : _ ∧ _ ∧ _ := by simpa using hrun
  have hname : o.settings.get "custom_rules_file" = .text "rules.yaml" := by decide +kernel
  have hrules : RuleBook.rulesOfFile read fs "rules.yaml" = .ok file := by
    simp only [RuleBook.rulesOfFile, hsource, Outcome.ok_bind, hread, hfile]
  have hfiles : o.fileRules read fs = .ok (file, RuleBook.fileEntries "rules.yaml" file) := by
    unfold fileRules
    simp only [hname, hrules]
    rfl
  have hstart : o.start read fs =
      .ok { g with journal := RuleBook.fileEntries "rules.yaml" file ++ book.entries ++ g.journal } := by
    simp only [start, hfiles, hbook, hgame]
  obtain ⟨document', hdocument, hkinds, -⟩ := rules_start hstart
  exact ⟨_, hstart, hids, hqueen, hother, document', hdocument, fun id => (hkinds id).1⟩

end Opening

end Hyperchess
