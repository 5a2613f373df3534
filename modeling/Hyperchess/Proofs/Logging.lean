import Hyperchess.Logging
import Hyperchess.Proofs.Outcome
import Mathlib.Data.List.Induction

/-!
# Loggers after requests

Loggers are set up by requests, each for a name and at its own time (`Logging.Request`). Of the requests for a name, the
first one that asks for the console or for a file settles the logger for good; until then, each one sets the threshold
anew (`Settled`). One request does this (`Settled.after`), so a sequence of them does (`settled_run`). Main statement:
whatever requests succeed, in whatever order, every logger has the handlers of one request at most, and no request
changes a logger of another name, or one that has handlers (`setUp_run`).
-/

namespace Hyperchess

namespace Logging

variable {l : Logging} {g : Logger} {name other : Text} {s : Settings} {fs : Files}

/-! ## Loggers by name -/

theorem find?_assign (loggers : List Logger) (g : Logger) (name : Text) :
    (assign loggers g).find? (fun h => h.name == name) =
      if g.name = name then some g else loggers.find? fun h => h.name == name := by
  induction loggers with
  | nil => by_cases h : g.name = name <;> simp [assign, h]
  | cons f rest ih =>
    unfold assign
    by_cases hf : f.name = g.name
    · by_cases hg : g.name = name <;> simp [hf, hg]
    · by_cases hg : g.name = name
      · have hne : f.name ≠ name := fun h => hf (h.trans hg.symm)
        rw [if_neg hf, List.find?_cons_of_neg (by simpa using hne), ih, if_pos hg, if_pos hg]
      · rw [if_neg hf, if_neg hg, List.find?_cons, List.find?_cons, ih, if_neg hg]

/-- A logger is kept under its name. -/
theorem name_get (l : Logging) (name : Text) : (l.get name).name = canonical name := by
  unfold get
  cases h : l.loggers.find? fun g => g.name == canonical name with
  | none => rfl
  | some g => simpa using List.find?_some h

/-- A logger that is put is found under its name, and all others are found as before. -/
theorem get_put (hg : g.name = canonical name) :
    (l.put g).get other = if canonical other = canonical name then g else l.get other := by
  unfold get put
  rw [find?_assign, hg]
  by_cases h : canonical other = canonical name
  · simp [h]
  · rw [if_neg h, if_neg (Ne.symm h)]

theorem canonical_eq_self (h : name ≠ Text.empty) : canonical name = name := by
  obtain ⟨points⟩ := name
  cases points with
  | nil => exact absurd rfl h
  | cons p rest => rfl

/-- A name that is neither empty nor that of the top stands for its own logger. -/
theorem canonical_ne (hempty : name ≠ Text.empty) (htop : name ≠ top) (hne : other ≠ name) :
    canonical other ≠ canonical name := by
  rw [canonical_eq_self hempty]
  by_cases h : other = Text.empty
  · subst h
    exact htop.symm
  · rwa [canonical_eq_self h]

/-! ## What settings ask for -/

/-- The handler for the console, if settings ask for it. -/
def consoleHandlers (s : Settings) (threshold : Threshold) : List Handler :=
  if (s.get "console_output").truthy then [⟨.console, threshold⟩] else []

/-- The handler for the file that settings name, if they name one, with the limits that they give. -/
inductive FileHandlers (s : Settings) (threshold : Threshold) : List Handler → Prop
  | none (hname : (s.get "log_file").truthy = false) : FileHandlers s threshold []
  | one (dir name : Text) (limit : Number) (hdir : s.get "log_dir" = .text dir)
      (hname : s.get "log_file" = .text name) (hnamed : (s.get "log_file").truthy = true)
      (hlimit : megabytes (s.get "max_size") = .ok limit) :
      FileHandlers s threshold
        [⟨.file (FilePath.join (.ofText dir) (.ofText name)).collapsed limit (s.get "backup_count"), threshold⟩]

/-- A logger has the threshold and the handlers that settings ask for, and no others. -/
structure Follows (g : Logger) (s : Settings) : Prop where
  threshold : ∃ level, s.get "level" = .text level ∧ Threshold.ofText level = .ok g.threshold
  handlers : ∃ files, FileHandlers s g.threshold files ∧ g.handlers = consoleHandlers s g.threshold ++ files

/-- Settings ask for a handler: for the console or for a file. -/
def asks (s : Settings) : Bool := (s.get "console_output").truthy || (s.get "log_file").truthy

theorem Follows.handlers_eq_nil_iff (h : Follows g s) : g.handlers = [] ↔ asks s = false := by
  obtain ⟨files, hfiles, heq⟩ := h.handlers
  rw [heq, asks, consoleHandlers]
  cases hfiles with
  | none hname => cases hconsole : (s.get "console_output").truthy <;> simp [hname]
  | one dir name limit hdir hname hnamed hlimit => simp [hnamed]

/-- There is one handler for the console and one for a file at most. -/
theorem Follows.countP_handlers_le (h : Follows g s) :
    g.handlers.countP (fun h => h.sink = .console) ≤ 1 ∧ g.handlers.countP (fun h => h.sink ≠ .console) ≤ 1 := by
  obtain ⟨files, hfiles, heq⟩ := h.handlers
  rw [heq, consoleHandlers]
  cases hfiles with
  | none => split <;> simp
  | one => split <;> simp

/-! ## One set-up -/

theorem openFile_eq_ok {sink : Sink} {gs : Files} (hnamed : (s.get "log_file").truthy = true)
    (h : openFile fs s = .ok (sink, gs)) (threshold : Threshold) : FileHandlers s threshold [⟨sink, threshold⟩] := by
  unfold openFile at h
  split at h
  · rename_i dir hdir
    obtain ⟨made, -, h⟩ := Outcome.bind_eq_ok_iff.1 h
    split at h
    · rename_i name hname
      obtain ⟨limit, hlimit, h⟩ := Outcome.bind_eq_ok_iff.1 h
      obtain ⟨place, -, h⟩ := Outcome.bind_eq_ok_iff.1 h
      have hsink : sink =
          .file (FilePath.join (.ofText dir) (.ofText name)).collapsed limit (s.get "backup_count") := by
        dsimp only at h
        split at h
        · cases h
          rfl
        · obtain ⟨written, -, h⟩ := Outcome.bind_eq_ok_iff.1 h
          cases h
          rfl
      rw [hsink]
      exact .one dir name limit hdir hname hnamed hlimit
    · cases h
  · cases h

/-- A logger with handlers is left as it is. -/
theorem setUp_of_handlers (h : (l.get name).handlers ≠ []) : l.setUp fs name s = (.ok (), l, fs) := by
  have hsome : (l.get name).handlers.isEmpty = false := by simpa using h
  simp [setUp, hsome]

/-- A logger without handlers gets what the settings ask for, if this succeeds, and all others are left as they are. -/
theorem exists_setUp (hnone : (l.get name).handlers = []) (hok : (l.setUp fs name s).1 = .ok ()) :
    ∃ g, Follows g s ∧
      ∀ other, (l.setUp fs name s).2.1.get other = if canonical other = canonical name then g else l.get other := by
  have hname := name_get l name
  unfold setUp at hok ⊢
  simp only [hnone, List.isEmpty_nil, Bool.not_true, Bool.false_eq_true, if_false] at hok ⊢
  cases hlevel : s.get "level" with
  | text level =>
    cases hthreshold : Threshold.ofText level with
    | error e =>
      simp [hlevel, hthreshold] at hok
    | ok threshold =>
      simp only [hlevel, hthreshold] at hok ⊢
      by_cases hnamed : (s.get "log_file").truthy = true
      · rw [if_pos hnamed] at hok ⊢
        cases hopen : openFile fs s with
        | error e => simp [hopen] at hok
        | ok r =>
          obtain ⟨sink, gs⟩ := r
          refine ⟨{ l.get name with threshold, handlers := consoleHandlers s threshold ++ [⟨sink, threshold⟩] },
            ⟨⟨level, hlevel, hthreshold⟩, _, openFile_eq_ok hnamed hopen threshold, rfl⟩, fun other => ?_⟩
          -- the logger is put twice, first with the handler for the console only
          show ((l.put _).put _).get other = _
          rw [get_put (by exact hname), get_put (by exact hname)]
          split <;> rfl
      · rw [if_neg hnamed] at hok ⊢
        refine ⟨{ l.get name with threshold, handlers := consoleHandlers s threshold },
          ⟨⟨level, hlevel, hthreshold⟩, [], .none (Bool.eq_false_iff.2 hnamed), (List.append_nil _).symm⟩,
          fun other => get_put hname⟩
  | _ => simp [hlevel] at hok

/-! ## Requests one after the other -/

/-- A request to set up the logger with a name, and the files that there are when it is made. -/
structure Request where
  name : Text
  settings : Settings
  files : Files

/-- The loggers after a request. -/
def after (l : Logging) (r : Request) : Logging := (l.setUp r.files r.name r.settings).2.1

/-- The loggers after requests. -/
def run (l : Logging) (requests : List Request) : Logging := requests.foldl after l

/-- All requests succeed. -/
def AllSucceed (l : Logging) : List Request → Prop
  | [] => True
  | r :: rest => (l.setUp r.files r.name r.settings).1 = .ok () ∧ AllSucceed (l.after r) rest

variable {requests before rest : List Request} {r q : Request}

theorem run_append (l : Logging) (before rest : List Request) : l.run (before ++ rest) = (l.run before).run rest :=
  List.foldl_append

theorem allSucceed_append :
    AllSucceed l (before ++ rest) ↔ AllSucceed l before ∧ AllSucceed (l.run before) rest := by
  induction before generalizing l with
  | nil => exact ⟨fun h => ⟨trivial, h⟩, fun h => h.2⟩
  | cons r before ih => exact (and_congr_right fun _ => ih).trans and_assoc.symm

/-- The first request for a name that asks for a handler. -/
def settling? (requests : List Request) (name : Text) : Option Request :=
  requests.find? fun r => r.name == name && asks r.settings

/-- The last request for a name. -/
def last? (requests : List Request) (name : Text) : Option Request :=
  (requests.filter fun r => r.name == name).getLast?

/-- What a logger is after requests: it follows the first request for it that asks for a handler. If there is none, it
has no handlers, and the threshold of the last request for it; without requests it is new. -/
structure Settled (requests : List Request) (name : Text) (g : Logger) : Prop where
  settled : ∀ r, settling? requests name = some r → Follows g r.settings
  unsettled : settling? requests name = none →
    g.handlers = [] ∧ ∀ r, last? requests name = some r → Follows g r.settings
  fresh : last? requests name = none → g = ⟨canonical name, none, []⟩

theorem settled_nil (name : Text) : Settled [] name (({} : Logging).get name) where
  settled _ h := nomatch h
  unsettled _ := ⟨rfl, fun _ h => nomatch h⟩
  fresh _ := rfl

/-- A request for another name changes nothing about a logger. -/
theorem Settled.append_other (h : Settled requests name g) (hne : r.name ≠ name) :
    Settled (requests ++ [r]) name g := by
  have hsettling : settling? (requests ++ [r]) name = settling? requests name := by
    simp [settling?, List.find?_append, hne]
  have hlast : last? (requests ++ [r]) name = last? requests name := by simp [last?, List.filter_append, hne]
  exact ⟨hsettling ▸ h.settled, by rw [hsettling, hlast]; exact h.unsettled, hlast ▸ h.fresh⟩

/-- A logger has handlers exactly if a request for it has asked for one. -/
theorem Settled.handlers_eq_nil_iff (h : Settled requests name g) :
    g.handlers = [] ↔ settling? requests name = none := by
  constructor
  · intro hnone
    cases hsome : settling? requests name with
    | none => rfl
    | some r =>
      have hasks := List.find?_some hsome
      simp [(h.settled r hsome).handlers_eq_nil_iff.1 hnone] at hasks
  · exact fun hnone => (h.unsettled hnone).1

theorem last?_append_self (requests : List Request) (r : Request) : last? (requests ++ [r]) r.name = some r := by
  simp [last?, List.filter_append]

/-- Further requests change nothing about a logger that is settled. -/
theorem Settled.append_self (h : Settled requests r.name g) (hsome : g.handlers ≠ []) :
    Settled (requests ++ [r]) r.name g := by
  obtain ⟨q, hq⟩ : ∃ q, settling? requests r.name = some q :=
    Option.ne_none_iff_exists'.1 fun hnone => hsome (h.handlers_eq_nil_iff.2 hnone)
  have hsettling : settling? (requests ++ [r]) r.name = some q := by
    rw [settling?] at hq ⊢
    rw [List.find?_append, hq, Option.some_or]
  refine ⟨fun r' hr' => ?_, fun hnone => ?_, fun hnone => ?_⟩
  · obtain rfl : q = r' := Option.some.inj (hsettling.symm.trans hr')
    exact h.settled q hq
  · rw [hsettling] at hnone
    cases hnone
  · rw [last?_append_self] at hnone
    cases hnone

/-- A logger without handlers follows the last request for it. -/
theorem Settled.append_follows (h : Settled requests r.name (l.get r.name)) (hnone : (l.get r.name).handlers = [])
    (hg : Follows g r.settings) : Settled (requests ++ [r]) r.name g := by
  have hfollows {q : Request} (hq : r = q) : Follows g q.settings := hq ▸ hg
  have hsettling : settling? (requests ++ [r]) r.name = if asks r.settings then some r else none := by
    have hbefore := h.handlers_eq_nil_iff.1 hnone
    rw [settling?] at hbefore ⊢
    rw [List.find?_append, hbefore, Option.none_or]
    cases hasks : asks r.settings <;> simp [hasks]
  refine ⟨fun q hq => ?_, fun hopen => ⟨?_, fun q hq => ?_⟩, fun hfresh => ?_⟩
  · rw [hsettling] at hq
    split at hq
    · exact hfollows (Option.some.inj hq)
    · cases hq
  · rw [hsettling] at hopen
    split at hopen
    · cases hopen
    · rename_i hasks
      exact hg.handlers_eq_nil_iff.2 (Bool.eq_false_iff.2 hasks)
  · rw [last?_append_self] at hq
    exact hfollows (Option.some.inj hq)
  · rw [last?_append_self] at hfresh
    cases hfresh

/-- **A request that succeeds settles its logger**, if this has no handlers, and changes no other one. -/
theorem Settled.after (h : ∀ name, Settled requests name (l.get name)) (hempty : r.name ≠ Text.empty)
    (htop : r.name ≠ top) (hok : (l.setUp r.files r.name r.settings).1 = .ok ()) (name : Text) :
    Settled (requests ++ [r]) name ((l.after r).get name) := by
  by_cases hnone : (l.get r.name).handlers = []
  · obtain ⟨g, hg, hget⟩ := exists_setUp hnone hok
    rw [Logging.after, hget]
    by_cases hname : name = r.name
    · subst hname
      rw [if_pos rfl]
      exact (h r.name).append_follows hnone hg
    · rw [if_neg (canonical_ne hempty htop hname)]
      exact (h name).append_other (Ne.symm hname)
  · have hsame : l.after r = l := by rw [Logging.after, setUp_of_handlers hnone]
    rw [hsame]
    by_cases hname : name = r.name
    · subst hname
      exact (h r.name).append_self hnone
    · exact (h name).append_other (Ne.symm hname)

/-- After requests that succeed, every logger is what these have made of it. -/
theorem settled_run (hall : AllSucceed {} requests) (hnames : ∀ r ∈ requests, r.name ≠ Text.empty ∧ r.name ≠ top)
    (name : Text) : Settled requests name ((run {} requests).get name) := by
  induction requests using List.reverseRecOn generalizing name with
  | nil => exact settled_nil name
  | append_singleton requests r ih =>
    obtain ⟨hbefore, hok, -⟩ := allSucceed_append.1 hall
    obtain ⟨hempty, htop⟩ := hnames r (List.mem_append_right _ List.mem_cons_self)
    have hsettled := ih hbefore fun q hq => hnames q (List.mem_append_left _ hq)
    rw [run_append]
    exact Settled.after hsettled hempty htop hok name

/-- One handler for the console and one for a file at most. -/
theorem Settled.countP_handlers_le (h : Settled requests name g) :
    g.handlers.countP (fun h => h.sink = .console) ≤ 1 ∧ g.handlers.countP (fun h => h.sink ≠ .console) ≤ 1 := by
  cases hsettling : settling? requests name with
  | none => simp [(h.unsettled hsettling).1]
  | some r => exact (h.settled r hsettling).countP_handlers_le

/-- **Setting up loggers never adds handlers to those of an earlier request.** Requests for loggers other than the one
at the top succeed one after the other.
- The first one for a name that asks for the console or for a file gives the logger its threshold and its handlers. If
  there is none, the logger has no handlers and the threshold of the last request for it, and without requests it is as
  new. So it has one handler for the console and one for a file at most.
- No request changes a logger of another name.
- When a request for a name has asked for a handler, every later request for this name leaves all loggers, and the
  files, as they are. -/
theorem setUp_run (hall : AllSucceed {} requests) (hnames : ∀ r ∈ requests, r.name ≠ Text.empty ∧ r.name ≠ top) :
    (∀ name, let g := (run {} requests).get name
      (∀ r, requests.find? (fun r => r.name == name && asks r.settings) = some r → Follows g r.settings) ∧
      ((∀ r ∈ requests, r.name = name → asks r.settings = false) → g.handlers = [] ∧
        (∀ r, (requests.filter fun r => r.name == name).getLast? = some r → Follows g r.settings) ∧
        ((∀ r ∈ requests, r.name ≠ name) → g = ⟨canonical name, none, []⟩)) ∧
      g.handlers.countP (fun h => h.sink = .console) ≤ 1 ∧ g.handlers.countP (fun h => h.sink ≠ .console) ≤ 1) ∧
    ∀ before r rest, requests = before ++ r :: rest → let l := run {} before
      (∀ other, other ≠ r.name → (l.after r).get other = l.get other) ∧
      (∀ q ∈ before, q.name = r.name → asks q.settings = true →
        l.setUp r.files r.name r.settings = (.ok (), l, r.files)) := by
  constructor
  · intro name g
    have hsettled : Settled requests name g := settled_run hall hnames name
    refine ⟨hsettled.settled, fun hopen => ?_, hsettled.countP_handlers_le⟩
    have hnone : settling? requests name = none := by
      simpa [settling?] using hopen
    obtain ⟨hhandlers, hlast⟩ := hsettled.unsettled hnone
    refine ⟨hhandlers, hlast, fun hnew => hsettled.fresh ?_⟩
    simpa [last?] using hnew
  · rintro before r rest rfl l
    have hbefore := (allSucceed_append.1 hall).1
    have hok := (allSucceed_append.1 hall).2.1
    have hsettled := settled_run hbefore (fun q hq => hnames q (List.mem_append_left _ hq)) r.name
    obtain ⟨hempty, htop⟩ := hnames r (List.mem_append_right _ List.mem_cons_self)
    constructor
    · intro other hne
      by_cases hnone : (l.get r.name).handlers = []
      · obtain ⟨g, -, hget⟩ := exists_setUp hnone hok
        rw [after, hget, if_neg (canonical_ne hempty htop hne)]
      · rw [after, setUp_of_handlers hnone]
    · intro q hq hname hasks
      refine setUp_of_handlers fun hnone => ?_
      have hopen := hsettled.handlers_eq_nil_iff.1 hnone
      rw [settling?, List.find?_eq_none] at hopen
      exact hopen q hq (by simp [hname, hasks])

/-- A logger that is set up three times: at first without handlers, then with both, and then in another way. In between
another one is set up. -/
theorem setUp_run_again :
    let request (name : Text) (entries : List (Data × Data)) : Request :=
      ⟨name, (Settings.ofKind .logging).overlay entries, {}⟩
    let quiet := request "app" [(.text "level", .text "debug"), (.text "console_output", .bool false)]
    let other := request "lib" [(.text "level", .text "ERROR")]
    let both := request "app" [(.text "level", .text "warning"), (.text "log_file", .text "a.log")]
    let again := request "app" [(.text "level", .text "debug"), (.text "log_file", .text "b.log")]
    AllSucceed {} [quiet, other, both, again] ∧
      Follows ((run {} [quiet, other, both, again]).get "app") both.settings ∧
      (run {} [quiet, other, both]).setUp {} "app" again.settings = (.ok (), run {} [quiet, other, both], {}) := by
  intro request quiet other both again
  have hall : AllSucceed {} [quiet, other, both, again] :=
    ⟨by decide +kernel, by decide +kernel, by decide +kernel, by decide +kernel, trivial⟩
  have hnames : ∀ r ∈ [quiet, other, both, again], r.name ≠ Text.empty ∧ r.name ≠ top := by
    simp only [List.mem_cons, List.not_mem_nil, or_false, forall_eq_or_imp, forall_eq]
    decide +kernel
  obtain ⟨hlogger, hrequest⟩ := setUp_run hall hnames
  have hfirst : [quiet, other, both, again].find? (fun r => r.name == ("app" : Text) && asks r.settings) =
      some both := rfl
  refine ⟨hall, (hlogger "app").1 both hfirst, ?_⟩
  exact (hrequest [quiet, other, both] again [] rfl).2 both (by simp) rfl (by decide +kernel)

end Logging

end Hyperchess
