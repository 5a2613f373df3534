import Hyperchess.Proofs.Settings.Kept

/-!
# Runs of a store

A store is used by saving, changing and resetting the settings under a name, and by being established again (`Step`).
Whatever is done, the settings that are loaded for a kind are those that the steps for this kind alone make of what was
loaded in the beginning (`load_run`): saving replaces them, changing overrides the fields that are named, resetting
brings back the defaults, and a step that is refused changes nothing. The steps may make of settings whatever the file
of their kind can hold (`Kept`).
-/

namespace Hyperchess.SettingsStore

/-- What can be done with a store that was established. -/
inductive Step where
  | save (name : Text) (settings : Settings)
  | update (name : Text) (entries : List (Data × Data))
  | reset (name : Text)
  /-- The store is established again. -/
  | recreate

variable {store : SettingsStore} {fs fs₀ gs : Files} {dir : FilePath} {limit : Option Nat} {step : Step}
  {kind : SettingsKind} {places : SettingsKind → Place} {current : SettingsKind → Settings} {t : Settings}

/-- Takes a step: what it reports, and the files after it. -/
def perform (store : SettingsStore) (dir : FilePath) (fs : Files) : Step → Except Fault Unit × Files
  | .save name settings => store.saveAs fs name settings
  | .update name entries =>
    match SettingsKind.changeable name with
    | .ok kind => store.update fs kind entries
    | .error e => (.error e, fs)
  | .reset name =>
    match SettingsKind.known name with
    | .ok kind => store.reset fs kind
    | .error e => (.error e, fs)
  | .recreate =>
    match establish store.formats fs dir with
    | .ok fs => (.ok (), fs)
    | .error e => (.error e, fs)

/-- The files after steps. -/
def run (store : SettingsStore) (dir : FilePath) (fs : Files) (steps : List Step) : Files :=
  steps.foldl (fun fs step => (store.perform dir fs step).2) fs

namespace Step

/-- The kind that a step is for, if it is for one. -/
def kind? : Step → Option SettingsKind
  | .save name _ | .update name _ | .reset name => SettingsKind.ofName? name
  | .recreate => none

/-- What a step makes of the settings of its kind. It is refused if their document is nested too deeply. -/
def change (limit : Option Nat) (s : Settings) : Step → Except Fault Settings
  | .save _ new => new.accepted limit
  | .update _ entries => do
    let s ← s.accepted limit
    (s.overlay entries).accepted limit
  | .reset _ => (Settings.ofKind s.kind).accepted limit
  | .recreate => .ok s

/-- The settings of a kind after a step. -/
def after (limit : Option Nat) (kind : SettingsKind) (s : Settings) (step : Step) : Settings :=
  if step.kind? = some kind then
    match step.change limit s with
    | .ok new => new
    | .error _ => s
  else s

/-- What a step reports when these are the settings of both kinds: it is refused under a name that is none. -/
def report (limit : Option Nat) (current : SettingsKind → Settings) (step : Step) : Except Fault Unit :=
  match step with
  | .save name _ | .update name _ => do
    let kind ← SettingsKind.changeable name
    let _ ← step.change limit (current kind)
  | .reset name => do
    let kind ← SettingsKind.known name
    let _ ← step.change limit (current kind)
  | .recreate => .ok ()

/-- Settings are saved under the name of their kind, and no reserved name is among the keys of changes. -/
def IsProper : Step → Prop
  | .save name settings => ∀ kind, SettingsKind.ofName? name = some kind → settings.kind = kind
  | .update _ entries => ∀ e ∈ entries, ∀ key, e.1 = .text key → key ∉ Draft.reserved
  | .reset _ | .recreate => True

end Step

/-- The settings of a kind after steps. -/
def replay (limit : Option Nat) (kind : SettingsKind) (s : Settings) (steps : List Step) : Settings :=
  steps.foldl (Step.after limit kind) s

/-- A codec keeps everything that the steps for a kind write when they begin with these settings. -/
def Kept (limit : Option Nat) (codec : Codec) (kind : SettingsKind) : Settings → List Step → Prop
  | _, [] => True
  | s, step :: rest =>
    (step.kind? = some kind → ∀ new, step.change limit s = .ok new → codec.KeepsSettings new) ∧
      Kept limit codec kind (step.after limit kind s) rest

/-- The files of both kinds can be written and are different, and there are no other ones. -/
structure Placed (store : SettingsStore) (fs : Files) (places : SettingsKind → Place) : Prop where
  writable : ∀ kind, fs.writable (store.file kind).path = .ok (places kind)
  apart : places .engine ≠ places .logging
  others : store.others = []

/-! ## One step -/

/-- The store has these settings, in files that were established. -/
structure Holds (store : SettingsStore) (fs₀ fs : Files) (current : SettingsKind → Settings) : Prop where
  directories : fs.directories = fs₀.directories
  within : fs₀.Within fs
  load : ∀ kind, ∃ t, store.load fs kind = .ok t ∧ t.Matches (current kind)

theorem Holds.writable (h : store.Holds fs₀ fs current) (hplaced : store.Placed fs₀ places) (kind : SettingsKind) :
    fs.writable (store.file kind).path = .ok (places kind) :=
  Files.writable_congr h.directories (hplaced.writable kind)

theorem Holds.kind_eq (h : store.Holds fs₀ fs current) (hplaced : store.Placed fs₀ places) (kind : SettingsKind) :
    (current kind).kind = kind := by
  obtain ⟨t, hload, ht⟩ := h.load kind
  exact ht.kind_eq.symm.trans (kind_of_load hload)

theorem changeable_eq_ok {name : Text} (h : SettingsKind.ofName? name = some kind) :
    SettingsKind.changeable name = .ok kind := by
  rw [SettingsKind.changeable, h]

theorem known_eq_ok {name : Text} (h : SettingsKind.ofName? name = some kind) : SettingsKind.known name = .ok kind := by
  rw [SettingsKind.known, h]

/-- A step for a kind reports whether it is refused. -/
theorem Step.report_of_kind (h : step.kind? = some kind) :
    step.report limit current = (step.change limit (current kind)).map fun _ => () := by
  cases step with
  | save name new =>
    rw [report, changeable_eq_ok h]
    rfl
  | update name entries =>
    rw [report, changeable_eq_ok h]
    rfl
  | reset name =>
    rw [report, known_eq_ok h]
    rfl
  | recreate => cases h

/-- A step for no kind is refused unless the store is established again, and changes nothing. -/
theorem Holds.perform_of_none (h : store.Holds fs₀ fs current) (hothers : store.others = [])
    (hcreated : establish store.formats gs dir = .ok fs₀) (hnone : step.kind? = none) :
    store.perform dir fs step = (step.report store.formats.nesting current, fs) := by
  cases step with
  | save name new =>
    have hunknown : SettingsKind.changeable name = .error (.unknownSettings name) := by
      rw [SettingsKind.changeable, show SettingsKind.ofName? name = none from hnone]
    have hfile : store.file? name = none := by
      rw [file?, show SettingsKind.ofName? name = none from hnone, hothers]
      rfl
    rw [perform, saveAs, hfile, Step.report, hunknown]
    rfl
  | update name entries =>
    have hunknown : SettingsKind.changeable name = .error (.unknownSettings name) := by
      rw [SettingsKind.changeable, show SettingsKind.ofName? name = none from hnone]
    rw [perform, hunknown, Step.report, hunknown]
    rfl
  | reset name =>
    have hunknown : SettingsKind.known name = .error .unknownName := by
      rw [SettingsKind.known, show SettingsKind.ofName? name = none from hnone]
    rw [perform, hunknown, Step.report, hunknown]
    rfl
  | recreate =>
    rw [perform, establish_again hcreated h.within]
    rfl

/-- A step for a kind saves a document: that of settings that match what the step makes of the ones that are there, or
none if the step is refused. -/
theorem Holds.exists_document (h : store.Holds fs₀ fs current) (dir : FilePath)
    (hplaced : store.Placed fs₀ places) (hproper : step.IsProper) (hkind : step.kind? = some kind) :
    ∃ document, store.perform dir fs step = saveIn fs (store.file kind) document ∧
      (∀ new, step.change store.formats.nesting (current kind) = .ok new →
        new.kind = kind ∧ new.accepted store.formats.nesting = .ok new ∧
          ∃ t : Settings, document = t.document store.formats.nesting ∧ t.Matches new) ∧
      ∀ e, step.change store.formats.nesting (current kind) = .error e → document = .error e := by
  cases step with
  | save name settings =>
    have hfile : store.file? name = some (store.file kind) := by
      rw [file?, show SettingsKind.ofName? name = some kind from hkind]
    refine ⟨settings.document _, by rw [perform, saveAs, hfile], fun new hnew => ?_, fun e he => ?_⟩
    · obtain ⟨-, rfl⟩ := accepted_eq_ok hnew
      exact ⟨hproper kind hkind, hnew, settings, rfl, rfl⟩
    · exact document_eq_error rfl he
  | update name entries =>
    obtain ⟨t, hload, ht⟩ := h.load kind
    have hchanged : store.changed fs kind entries = (do
        let _ ← t.document store.formats.nesting
        (t.overlay entries).document store.formats.nesting) := by
      simp only [changed, hload, Outcome.ok_bind, Draft.overlay_ofSettings hproper, Draft.document_ofSettings]
    refine ⟨store.changed fs kind entries, by rw [perform, changeable_eq_ok hkind]; rfl, ?_⟩
    rw [hchanged, Step.change]
    cases hold : (current kind).accepted store.formats.nesting with
    | error e =>
      rw [document_eq_error ht hold]
      refine ⟨fun new hnew => ?_, fun e he => ?_⟩
      · cases hnew
      · cases he
        rfl
    | ok s =>
      obtain ⟨hshallow, rfl⟩ := accepted_eq_ok hold
      rw [document_eq_ok ((isShallow_eq ht).trans hshallow), Outcome.ok_bind, Outcome.ok_bind]
      have hoverlay := ht.overlay entries
      refine ⟨fun new hnew => ?_, fun e he => document_eq_error hoverlay he⟩
      obtain ⟨-, rfl⟩ := accepted_eq_ok hnew
      exact ⟨(Settings.kind_overlay _ entries).trans (h.kind_eq hplaced kind), hnew, _, rfl, hoverlay⟩
  | reset name =>
    refine ⟨(Settings.ofKind kind).document _, by rw [perform, known_eq_ok hkind]; rfl, ?_⟩
    rw [Step.change, h.kind_eq hplaced]
    refine ⟨fun new hnew => ?_, fun e he => document_eq_error rfl he⟩
    obtain ⟨-, rfl⟩ := accepted_eq_ok hnew
    exact ⟨rfl, hnew, _, rfl, rfl⟩
  | recreate => cases hkind

theorem Step.after_of_change {s new : Settings} (hkind : step.kind? = some kind) (h : step.change limit s = .ok new) :
    step.after limit kind s = new := by
  rw [after, if_pos hkind, h]

theorem Step.after_of_refused {s : Settings} {e : Fault} (h : step.change limit s = .error e) :
    step.after limit kind s = s := by
  rw [after, h]
  exact ite_self s

theorem Step.after_of_ne {s : Settings} (h : step.kind? ≠ some kind) : step.after limit kind s = s := if_neg h

/-- **A step changes the settings of its kind**, and nothing at all if it is for none or is refused. -/
theorem Holds.perform (h : store.Holds fs₀ fs current) (hplaced : store.Placed fs₀ places)
    (hcreated : establish store.formats gs dir = .ok fs₀) (hproper : step.IsProper)
    (hkept : ∀ kind, step.kind? = some kind → ∀ new, step.change store.formats.nesting (current kind) = .ok new →
      (store.file kind).codec.KeepsSettings new) :
    (store.perform dir fs step).1 = step.report store.formats.nesting current ∧
      store.Holds fs₀ (store.perform dir fs step).2
        (fun kind => step.after store.formats.nesting kind (current kind)) ∧
      (step.kind? = none ∨ step.report store.formats.nesting current ≠ .ok () →
        (store.perform dir fs step).2 = fs) := by
  cases hstep : step.kind? with
  | none =>
    rw [h.perform_of_none hplaced.others hcreated hstep]
    have hsame : (fun kind => step.after store.formats.nesting kind (current kind)) = current :=
      funext fun kind => Step.after_of_ne (by simp [hstep])
    rw [hsame]
    exact ⟨rfl, h, fun _ => rfl⟩
  | some kind =>
    obtain ⟨document, hperform, hok, herror⟩ := h.exists_document dir hplaced hproper hstep
    rw [hperform, Step.report_of_kind hstep]
    cases hchange : step.change store.formats.nesting (current kind) with
    | error e =>
      have hsame : (fun kind => step.after store.formats.nesting kind (current kind)) = current := by
        funext other
        by_cases hother : other = kind
        · exact Step.after_of_refused (hother ▸ hchange)
        · exact Step.after_of_ne (by rw [hstep]; exact fun heq => hother (Option.some.inj heq).symm)
      rw [herror e hchange, hsame]
      exact ⟨rfl, h, fun _ => rfl⟩
    | ok new =>
      obtain ⟨hkind, haccepted, t, rfl, ht⟩ := hok new hchange
      have hw := h.writable hplaced
      obtain ⟨bytes, hsaved, found, hdecode, hfound⟩ :=
        saveIn_accepted (hw kind) ht haccepted (hkept kind hstep new hchange)
      rw [hkind] at hdecode
      rw [hsaved]
      refine ⟨rfl, ⟨h.directories, h.within.trans (Files.within_withFile ..), fun other => ?_⟩, ?_⟩
      swap
      · rintro (h | h)
        · cases h
        · exact absurd rfl h
      rw [load_withFile (hw other)]
      by_cases hother : other = kind
      · subst hother
        rw [if_pos rfl, loaded, hdecode, Step.after_of_change hstep hchange]
        exact ⟨found, rfl, hfound⟩
      · have hplaces : places other ≠ places kind := by
          cases other <;> cases kind
          · exact absurd rfl hother
          · exact hplaced.apart
          · exact hplaced.apart.symm
          · exact absurd rfl hother
        rw [if_neg hplaces, Step.after_of_ne (by rw [hstep]; exact fun heq => hother (Option.some.inj heq).symm)]
        exact h.load other

/-! ## Runs -/

/-- After steps a store has the settings that the steps make of the ones that it had. -/
theorem Holds.run (h : store.Holds fs₀ fs current) (hplaced : store.Placed fs₀ places)
    (hcreated : establish store.formats gs dir = .ok fs₀) {steps : List Step} (hproper : ∀ step ∈ steps, step.IsProper)
    (hkept : ∀ kind, Kept store.formats.nesting (store.file kind).codec kind (current kind) steps) :
    store.Holds fs₀ (store.run dir fs steps)
      (fun kind => replay store.formats.nesting kind (current kind) steps) := by
  induction steps generalizing fs current with
  | nil => exact h
  | cons step rest ih =>
    obtain ⟨hfirst, hrest⟩ := List.forall_mem_cons.1 hproper
    have hstep := (h.perform hplaced hcreated hfirst fun kind hkind => (hkept kind).1 hkind).2.1
    exact ih hstep hrest fun kind => (hkept kind).2

theorem kept_append {codec : Codec} {s : Settings} {before rest : List Step} :
    Kept limit codec kind s (before ++ rest) ↔
      Kept limit codec kind s before ∧ Kept limit codec kind (replay limit kind s before) rest := by
  induction before generalizing s with
  | nil => exact ⟨fun h => ⟨trivial, h⟩, fun h => h.2⟩
  | cons step before ih =>
    have hrest := ih (s := step.after limit kind s)
    exact ⟨fun h => ⟨⟨h.1, (hrest.1 h.2).1⟩, (hrest.1 h.2).2⟩, fun h => ⟨h.1.1, hrest.2 ⟨h.1.2, h.2⟩⟩⟩

/-- **A store has the settings that its steps make**, for each kind by itself. A store was established in a directory,
and its files are different and can be written; their codecs keep what the steps write. Then after any steps the
settings that are loaded for a kind are those that the steps for this kind make of what was loaded in the beginning,
which are the defaults if establishing the store had to make the file and its format keeps them. Every step reports what
these settings say. It changes no file if it is refused, because the name is none or a document is nested too deeply, or
if it establishes the store again. -/
theorem load_run {start : SettingsKind → Settings} {steps : List Step}
    (hcreated : establish store.formats fs dir = .ok fs₀) (hplaced : store.Placed fs₀ places)
    (hstart : ∀ kind, store.load fs₀ kind = .ok (start kind))
    (hproper : ∀ step ∈ steps, step.IsProper)
    (hkept : ∀ kind, Kept store.formats.nesting (store.file kind).codec kind (start kind) steps) :
    (∀ kind, store.file kind = (inDirectory store.formats dir).file kind →
      store.formats.yaml.KeepsSettings (.ofKind kind) → fs.get? (places kind) = none → start kind = .ofKind kind) ∧
    (∀ kind, ∃ s, store.load (store.run dir fs₀ steps) kind = .ok s ∧
      s.Matches (replay store.formats.nesting kind (start kind) steps)) ∧
    ∀ before step rest, steps = before ++ step :: rest →
      let files := store.run dir fs₀ before
      let result := store.perform dir files step
      result.1 = step.report store.formats.nesting
          (fun kind => replay store.formats.nesting kind (start kind) before) ∧
        (step.kind? = none ∨ result.1 ≠ .ok () → result.2 = files) := by
  have hholds : store.Holds fs₀ fs₀ start := ⟨rfl, ⟨id, id⟩, fun kind => ⟨start kind, hstart kind, rfl⟩⟩
  refine ⟨fun kind hfile hkeeps hnew => ?_, (hholds.run hplaced hcreated hproper hkept).load, ?_⟩
  · have hw : fs₀.writable ((inDirectory store.formats dir).file kind).path = .ok (places kind) :=
      hfile ▸ hplaced.writable kind
    obtain ⟨t, hload, ht⟩ := load_established hcreated hkeeps hw hnew
    have hsame : store.load fs₀ kind = (inDirectory store.formats dir).load fs₀ kind := by rw [load, load, hfile]
    obtain rfl : start kind = t := Except.ok.inj ((hstart kind).symm.trans (hsame.trans hload))
    exact ht.eq_of_isFlat (Settings.isFlat_ofKind kind)
  · rintro before step rest rfl
    have hfront := hholds.run hplaced hcreated (fun s hs => hproper s (List.mem_append_left _ hs))
      fun kind => (kept_append.1 (hkept kind)).1
    have hstep := hfront.perform hplaced hcreated (hproper step (List.mem_append_right _ List.mem_cons_self))
      fun kind hkind => (kept_append.1 (hkept kind)).2.1 hkind
    exact ⟨hstep.1, fun h => hstep.2.2 (hstep.1 ▸ h)⟩

/-- A change of one field is proper, unless its name is reserved. -/
theorem isProper_update {name field : Text} {value : Data} (h : field ∉ Draft.reserved) :
    (Step.update name [(.text field, value)]).IsProper := by
  intro e he key hkey
  obtain rfl := List.mem_singleton.1 he
  cases hkey
  exact h

/-- Settings without maps in their values are loaded as they are. -/
theorem load_eq_of_isFlat (h : ∃ s, store.load fs kind = .ok s ∧ s.Matches t)
    (hflat : ∀ e ∈ t.values, e.2.isFlat = true) : store.load fs kind = .ok t := by
  obtain ⟨s, hs, hmatches⟩ := h
  rw [hs, hmatches.eq_of_isFlat hflat]

theorem json_keepsSettings_layout :
    Codec.json.KeepsSettings ((Settings.ofKind .engine).overlay [(.text "default_layout", .text "1,1,1,1 1")]) := by
  refine Codec.keepsSettings_of_isFlat (by decide +kernel) (Codec.keeps_of_text
    ("\x7b\n  \"default_layout\": \"1,1,1,1 1\",\n  \"royal_piece_ids\": [\n    \"K\"\n  ],\n" ++
      "  \"enable_move_cache\": true,\n  \"custom_rules_file\": null\n\x7d") ?_ ?_ ?_)
  case refine_3 =>
    simp only [Json.read, Json.readWithin, String.toList_ofList]
    decide +kernel
  all_goals decide +kernel

/-- A new store with the settings of the engine in JSON, in which a field is changed, another one that there is not is
changed, settings are saved under a name that there is not, and the logging settings are reset. -/
theorem load_run_json :
    let dir : FilePath := ["cfg"]
    let store : SettingsStore := { inDirectory .unlimited dir with engine := ⟨dir.join ["engine.json"], Codec.json⟩ }
    let layout : List (Data × Data) := [(.text "default_layout", .text "1,1,1,1 1")]
    let steps : List Step := [.update "engine" layout, .update "logging" [(.text "threads", .int 4)],
      .save "display" (.ofKind .engine), .recreate, .reset "logging"]
    ∃ fs, establish store.formats {} dir = .ok fs ∧
      store.load (store.run dir fs steps) .engine = .ok ((Settings.ofKind .engine).overlay layout) ∧
      store.load (store.run dir fs steps) .logging = .ok (.ofKind .logging) := by
  intro dir store layout steps
  -- what is needed of the places of the files
  have hyaml (kind : SettingsKind) : Files.writable { directories := [["cfg"]] }
      ((inDirectory .unlimited ["cfg"]).file kind).path =
        .ok ["cfg", if kind = .engine then "engine_config.yaml" else "logging_config.yaml"] := by
    cases kind <;> decide +kernel
  have hjson : Files.writable { directories := [["cfg"]] } (FilePath.join ["cfg"] ["engine.json"]) =
      .ok ["cfg", "engine.json"] := by
    decide +kernel
  obtain ⟨fs, hcreated, hdirs⟩ :
      ∃ fs, establish store.formats {} dir = .ok fs ∧ fs.directories = [[("cfg" : Text)]] :=
    exists_establish rfl (fun _ => rfl) Codec.yaml_keepsSettings_ofKind hyaml
  let places (kind : SettingsKind) : Place :=
    ["cfg", if kind = .engine then "engine.json" else "logging_config.yaml"]
  have hlogging : store.file .logging = (inDirectory store.formats dir).file .logging := by
    show (inDirectory store.formats dir).logging = _
    rfl
  have hwritable : fs.writable ((inDirectory store.formats dir).file .logging).path = .ok (places .logging) :=
    Files.writable_congr hdirs (hyaml .logging)
  have hplaced : store.Placed fs places := by
    refine ⟨fun kind => ?_, by decide +kernel, rfl⟩
    cases kind with
    | engine => exact Files.writable_congr hdirs hjson
    | logging => rw [hlogging, hwritable]
  have hstart (kind : SettingsKind) : store.load fs kind = .ok (.ofKind kind) := by
    cases kind with
    | engine =>
      have hmissing : fs.get? (places .engine) = none := by
        rw [get?_establish hcreated fun kind hw => ?_]
        · rfl
        · have heq := (Files.writable_congr hdirs (hyaml kind)).symm.trans hw
          cases kind <;> exact absurd heq (by decide +kernel)
      rw [load_eq (hplaced.writable .engine), hmissing, loaded]
    | logging =>
      have hsame : store.load fs .logging = (inDirectory store.formats dir).load fs .logging := by
        rw [load, hlogging, load]
      rw [hsame, load_eq_of_isFlat (load_established hcreated (Codec.yaml_keepsSettings_ofKind .logging) hwritable rfl)
        (Settings.isFlat_ofKind .logging)]
  have hunknown : (Settings.ofKind .logging).overlay [(.text "threads", .int 4)] = .ofKind .logging :=
    Settings.set_of_notMem (by decide +kernel)
  have hproper : ∀ step ∈ steps, step.IsProper := by
    have hdisplay : ∀ kind, SettingsKind.ofName? "display" = some kind → (Settings.ofKind .engine).kind = kind := by
      decide +kernel
    simp only [steps, List.mem_cons, List.not_mem_nil, or_false, forall_eq_or_imp, forall_eq]
    exact ⟨isProper_update (by decide +kernel), isProper_update (by decide +kernel), hdisplay, trivial, trivial⟩
  have hkept (kind : SettingsKind) : Kept store.formats.nesting (store.file kind).codec kind (.ofKind kind) steps := by
    cases kind with
    | engine =>
      refine ⟨fun _ new hnew => ?_, fun h => absurd h (by decide +kernel), fun h => absurd h (by decide +kernel),
        fun h => absurd h (by decide +kernel), fun h => absurd h (by decide +kernel), trivial⟩
      obtain ⟨s, hs, hnew⟩ := Outcome.bind_eq_ok_iff.1 hnew
      obtain ⟨-, rfl⟩ := accepted_eq_ok hs
      obtain ⟨-, rfl⟩ := accepted_eq_ok hnew
      exact json_keepsSettings_layout
    | logging =>
      refine ⟨fun h => absurd h (by decide +kernel), fun _ new hnew => ?_, fun h => absurd h (by decide +kernel),
        fun h => absurd h (by decide +kernel), fun _ new hnew => ?_, trivial⟩
      · rw [Step.after_of_ne (by decide +kernel)] at hnew
        obtain ⟨s, hs, hnew⟩ := Outcome.bind_eq_ok_iff.1 hnew
        obtain ⟨-, rfl⟩ := accepted_eq_ok hs
        obtain ⟨-, rfl⟩ := accepted_eq_ok hnew
        rw [hunknown]
        exact Codec.yaml_keepsSettings_ofKind .logging
      · obtain ⟨-, rfl⟩ := accepted_eq_ok hnew
        exact Codec.yaml_keepsSettings_ofKind _
  obtain ⟨-, hload, -⟩ := load_run hcreated hplaced hstart hproper hkept
  have hengine : replay store.formats.nesting .engine (.ofKind .engine) steps =
      (Settings.ofKind .engine).overlay layout := rfl
  have hreset : replay store.formats.nesting .logging (.ofKind .logging) steps = .ofKind .logging := rfl
  refine ⟨fs, hcreated, load_eq_of_isFlat (hengine ▸ hload .engine) (by decide +kernel), ?_⟩
  exact load_eq_of_isFlat (hreset ▸ hload .logging) (Settings.isFlat_ofKind .logging)

end Hyperchess.SettingsStore
