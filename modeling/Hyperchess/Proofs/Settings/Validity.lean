import Hyperchess.Proofs.Settings.Loading
import Hyperchess.Settings.Validity

/-!
# Which settings are valid

The tests of a field say which values pass, and which cannot be tested at all (`Data.nonempty`, `Data.isPositive`,
`Data.isNonnegative`). From these it follows when settings are valid (`Settings.Usable`), and when there is no answer
(`Settings.Untestable`). Main statement: the answer for all settings that are loaded (`SettingsStore.validity_exact`).
-/

namespace Hyperchess

/-! ## Tests of a value -/

namespace Data

/-- The values that have a length, and one above zero. -/
inductive HasItems : Data → Prop
  | text {s : Text} (h : s.isEmpty = false) : HasItems (.text s)
  | list {items : List Data} (h : items ≠ []) : HasItems (.list items)
  | map {entries : List (Data × Data)} (h : entries ≠ []) : HasItems (.map entries)

/-- The values that have no length. -/
inductive HasNoLength : Data → Prop
  | null : HasNoLength .null
  | bool (b : Bool) : HasNoLength (.bool b)
  | int (n : Int) : HasNoLength (.int n)
  | float (x : Binary64) : HasNoLength (.float x)
  | time (t : Timestamp) : HasNoLength (.time t)

/-- The numbers above zero; true counts as one. -/
inductive Positive : Data → Prop
  | true : Positive (.bool true)
  | int {n : Int} (h : 0 < n) : Positive (.int n)
  | float {x : Binary64} {u : Int} (hx : x.units? = some u) (h : 0 < u) : Positive (.float x)
  | infinity : Positive (.float .infinity)

/-- The numbers that are not below zero; truth values count as zero and one. -/
inductive Nonnegative : Data → Prop
  | bool (b : Bool) : Nonnegative (.bool b)
  | int {n : Int} (h : 0 ≤ n) : Nonnegative (.int n)
  | float {x : Binary64} {u : Int} (hx : x.units? = some u) (h : 0 ≤ u) : Nonnegative (.float x)
  | infinity : Nonnegative (.float .infinity)

variable {d : Data} {e : Fault}

theorem nonempty_eq_true_iff : d.nonempty = .ok true ↔ d.HasItems := by
  constructor
  · intro h
    cases d with
    | text s => exact .text (by simpa [nonempty] using h)
    | list items => exact .list (by simpa [nonempty] using h)
    | map entries => exact .map (by simpa [nonempty] using h)
    | _ => cases h
  · rintro (h | h | h) <;> simp [nonempty, h]

theorem nonempty_eq_error_iff : d.nonempty = .error e ↔ d.HasNoLength ∧ e = .wrongType := by
  constructor
  · intro h
    cases d <;> cases h
    all_goals exact ⟨by constructor, rfl⟩
  · rintro ⟨h, rfl⟩
    cases h <;> rfl

theorem float_above_zero_iff {x : Binary64} :
    (Number.int 0).lt (.float x) = true ↔ (∃ u, x.units? = some u ∧ 0 < u) ∨ x = .infinity := by
  cases x with
  | nan => simp [Number.lt, Number.extent?, Binary64.units?, Binary64.infinity]
  | infinite negative =>
    cases negative <;> simp [Number.lt, Number.extent?, Number.Extent.lt, Binary64.units?, Binary64.infinity]
  | finite negative m e =>
    simp [Number.lt, Number.extent?, Number.Extent.lt, Binary64.units?, Binary64.infinity]

theorem float_not_below_zero_iff {x : Binary64} :
    (Number.float x).ge (.int 0) = true ↔ (∃ u, x.units? = some u ∧ 0 ≤ u) ∨ x = .infinity := by
  cases x with
  | nan => simp [Number.ge, Number.extent?, Binary64.units?, Binary64.infinity]
  | infinite negative =>
    cases negative <;> simp [Number.ge, Number.extent?, Number.Extent.lt, Binary64.units?, Binary64.infinity]
  | finite negative m e =>
    simp [Number.ge, Number.extent?, Number.Extent.lt, Binary64.units?, Binary64.infinity]

theorem isPositive_eq_true_iff : d.isPositive = .ok true ↔ d.Positive := by
  constructor
  · intro h
    cases d with
    | bool b =>
      cases b with
      | false => cases h
      | true => exact .true
    | int n => exact .int (by simpa [isPositive, number?, Number.lt] using h)
    | float x =>
      rcases float_above_zero_iff.1 (Except.ok.inj h) with ⟨u, hx, hu⟩ | rfl
      · exact .float hx hu
      · exact .infinity
    | _ => cases h
  · intro h
    cases h with
    | true => rfl
    | int h => simpa [isPositive, number?, Number.lt] using h
    | float hx h => exact congrArg Except.ok (float_above_zero_iff.2 (.inl ⟨_, hx, h⟩))
    | infinity => rfl

theorem isPositive_eq_error_iff : d.isPositive = .error e ↔ d.number? = none ∧ e = .wrongType := by
  unfold isPositive
  cases d.number? with
  | none => simp [eq_comm]
  | some n => simp

theorem isNonnegative_eq_true_iff : d.isNonnegative = .ok true ↔ d.Nonnegative := by
  constructor
  · intro h
    cases d with
    | bool b => exact .bool b
    | int n => exact .int (by simpa [isNonnegative, number?, Number.ge] using h)
    | float x =>
      rcases float_not_below_zero_iff.1 (Except.ok.inj h) with ⟨u, hx, hu⟩ | rfl
      · exact .float hx hu
      · exact .infinity
    | _ => cases h
  · intro h
    cases h with
    | bool b => cases b <;> rfl
    | int h => simpa [isNonnegative, number?, Number.ge] using h
    | float hx h => exact congrArg Except.ok (float_not_below_zero_iff.2 (.inl ⟨_, hx, h⟩))
    | infinity => rfl

theorem isNonnegative_eq_error_iff : d.isNonnegative = .error e ↔ d.number? = none ∧ e = .wrongType := by
  unfold isNonnegative
  cases d.number? with
  | none => simp [eq_comm]
  | some n => simp

end Data

namespace Settings

/-! ## Answers -/

/-- The level is written as one of the five, in whatever case. -/
def HasLevel (s : Settings) : Prop := (s.get "level").isWritable = true ∧ (s.get "level").display.upper ∈ levelNames

/-- The settings can be used: for the engine, the layout is a text with at least one field and the royal kinds are a
text, list or map that is not empty; for logging, there is a level, and the limits are numbers, the size above zero and
the number of files not below. -/
inductive Usable (s : Settings) : SettingsKind → Prop
  | engine {layout : Text} (hlayout : s.get "default_layout" = .text layout) (hfields : layout.fields ≠ [])
      (hroyal : (s.get "royal_piece_ids").HasItems) : Usable s .engine
  | logging (hlevel : s.HasLevel) (hsize : (s.get "max_size").Positive)
      (hcount : (s.get "backup_count").Nonnegative) : Usable s .logging

/-- Whether the settings can be used cannot be told: a value that is tested is of the wrong type for its test, and the
values that are tested before it pass. -/
inductive Untestable (s : Settings) : SettingsKind → Fault → Prop
  | royal {layout : Text} (hlayout : s.get "default_layout" = .text layout) (hfields : layout.fields ≠ [])
      (h : (s.get "royal_piece_ids").HasNoLength) : Untestable s .engine .wrongType
  | level (h : (s.get "level").isWritable = false) : Untestable s .logging .tooManyDigits
  | size (hlevel : s.HasLevel) (h : (s.get "max_size").number? = none) : Untestable s .logging .wrongType
  | count (hlevel : s.HasLevel) (hsize : (s.get "max_size").Positive) (h : (s.get "backup_count").number? = none) :
      Untestable s .logging .wrongType

variable {s : Settings} {e : Fault}

theorem hasFields_iff {d : Data} : hasFields d = true ↔ ∃ layout, d = .text layout ∧ layout.fields ≠ [] := by
  cases d <;> simp [hasFields]

theorem isValid_engine (hkind : s.kind = .engine) : s.isValid =
    if hasFields (s.get "default_layout") then (s.get "royal_piece_ids").nonempty else .ok false := by
  rw [isValid, hkind]

theorem isValid_engine_eq_true_iff (hkind : s.kind = .engine) : s.isValid = .ok true ↔ s.Usable .engine := by
  rw [isValid_engine hkind]
  constructor
  · intro h
    split at h
    · rename_i hlayout
      obtain ⟨layout, hlayout, hfields⟩ := hasFields_iff.1 hlayout
      exact .engine hlayout hfields (Data.nonempty_eq_true_iff.1 h)
    · cases h
  · intro h
    cases h with
    | engine hlayout hfields hroyal =>
      rw [if_pos (hasFields_iff.2 ⟨_, hlayout, hfields⟩)]
      exact Data.nonempty_eq_true_iff.2 hroyal

theorem isValid_engine_eq_error_iff (hkind : s.kind = .engine) : s.isValid = .error e ↔ s.Untestable .engine e := by
  rw [isValid_engine hkind]
  constructor
  · intro h
    split at h
    · rename_i hlayout
      obtain ⟨layout, hlayout, hfields⟩ := hasFields_iff.1 hlayout
      obtain ⟨hroyal, rfl⟩ := Data.nonempty_eq_error_iff.1 h
      exact .royal hlayout hfields hroyal
    · cases h
  · intro h
    cases h with
    | royal hlayout hfields hroyal =>
      rw [if_pos (hasFields_iff.2 ⟨_, hlayout, hfields⟩)]
      exact Data.nonempty_eq_error_iff.2 ⟨hroyal, rfl⟩

/-- What the level decides. -/
theorem isValid_logging (hkind : s.kind = .logging) : s.isValid =
    if (s.get "level").isWritable then
      if (s.get "level").display.upper ∈ levelNames then do
        if ← (s.get "max_size").isPositive then (s.get "backup_count").isNonnegative else return false
      else .ok false
    else .error .tooManyDigits := by
  rw [isValid, hkind]
  dsimp only
  rw [Data.checkWritable]
  by_cases hwritable : (s.get "level").isWritable = true
  · rw [if_pos hwritable, if_pos hwritable, Outcome.ok_bind]
    simp only [List.contains_iff_mem]
    rfl
  · rw [if_neg hwritable, if_neg hwritable, Outcome.error_bind]

theorem isValid_of_hasLevel (hkind : s.kind = .logging) (hlevel : s.HasLevel) : s.isValid = (do
    if ← (s.get "max_size").isPositive then (s.get "backup_count").isNonnegative else return false) := by
  rw [isValid_logging hkind, if_pos hlevel.1, if_pos hlevel.2]

theorem isValid_logging_eq_true_iff (hkind : s.kind = .logging) : s.isValid = .ok true ↔ s.Usable .logging := by
  constructor
  · intro h
    have hlevel : s.HasLevel := by
      rw [isValid_logging hkind] at h
      split at h
      · split at h
        · exact ⟨‹_›, ‹_›⟩
        · cases h
      · cases h
    rw [isValid_of_hasLevel hkind hlevel] at h
    obtain ⟨positive, hsize, hcount⟩ := Outcome.bind_eq_ok_iff.1 h
    cases positive with
    | false => cases hcount
    | true => exact .logging hlevel (Data.isPositive_eq_true_iff.1 hsize) (Data.isNonnegative_eq_true_iff.1 hcount)
  · intro h
    cases h with
    | logging hlevel hsize hcount =>
      rw [isValid_of_hasLevel hkind hlevel, Data.isPositive_eq_true_iff.2 hsize, Outcome.ok_bind, if_pos rfl]
      exact Data.isNonnegative_eq_true_iff.2 hcount

theorem isValid_logging_eq_error_iff (hkind : s.kind = .logging) :
    s.isValid = .error e ↔ s.Untestable .logging e := by
  constructor
  · intro h
    by_cases hlevel : s.HasLevel
    · rw [isValid_of_hasLevel hkind hlevel] at h
      cases hsize : (s.get "max_size").isPositive with
      | error e' =>
        rw [hsize] at h
        cases h
        obtain ⟨hnumber, rfl⟩ := Data.isPositive_eq_error_iff.1 hsize
        exact .size hlevel hnumber
      | ok positive =>
        rw [hsize] at h
        cases positive with
        | false => cases h
        | true =>
          obtain ⟨hnumber, rfl⟩ := Data.isNonnegative_eq_error_iff.1 h
          exact .count hlevel (Data.isPositive_eq_true_iff.1 hsize) hnumber
    · rw [isValid_logging hkind] at h
      split at h
      · split at h
        · exact absurd ⟨‹_›, ‹_›⟩ hlevel
        · cases h
      · rename_i hwritable
        cases h
        exact .level (Bool.eq_false_iff.2 hwritable)
  · intro h
    cases h with
    | level h => rw [isValid_logging hkind, if_neg (Bool.eq_false_iff.1 h)]
    | size hlevel h =>
      rw [isValid_of_hasLevel hkind hlevel, Data.isPositive_eq_error_iff.2 ⟨h, rfl⟩, Outcome.error_bind]
    | count hlevel hsize h =>
      rw [isValid_of_hasLevel hkind hlevel, Data.isPositive_eq_true_iff.2 hsize, Outcome.ok_bind, if_pos rfl]
      exact Data.isNonnegative_eq_error_iff.2 ⟨h, rfl⟩

end Settings

namespace SettingsStore

variable {store : SettingsStore} {fs : Files} {kind : SettingsKind} {s : Settings}

/-- **The answer whether loaded settings are valid.** It is yes if they can be used; there is none if that cannot be
told, because of a value of the wrong type that is tested; otherwise it is no. -/
theorem validity_exact (h : store.load fs kind = .ok s) :
    ((store.load fs kind >>= Settings.isValid) = .ok true ↔ s.Usable kind) ∧
    (∀ e, (store.load fs kind >>= Settings.isValid) = .error e ↔ s.Untestable kind e) ∧
    ((store.load fs kind >>= Settings.isValid) = .ok false ↔ ¬ s.Usable kind ∧ ∀ e, ¬ s.Untestable kind e) := by
  have hkind := kind_of_load h
  have htrue : s.isValid = .ok true ↔ s.Usable kind := by
    cases kind with
    | engine => exact Settings.isValid_engine_eq_true_iff hkind
    | logging => exact Settings.isValid_logging_eq_true_iff hkind
  have herror (e : Fault) : s.isValid = .error e ↔ s.Untestable kind e := by
    cases kind with
    | engine => exact Settings.isValid_engine_eq_error_iff hkind
    | logging => exact Settings.isValid_logging_eq_error_iff hkind
  rw [h, Outcome.ok_bind]
  refine ⟨htrue, herror, ?_⟩
  simp only [← htrue, ← herror]
  cases s.isValid with
  | error e => simp
  | ok b => cases b <;> simp

/-- A file with a level in lower case. -/
theorem validity_exact_debug : ∃ s,
    (inDirectory .unlimited ["cfg"]).load (filesWith .logging "level: debug\n".toUTF8) .logging = .ok s ∧
    ((inDirectory .unlimited ["cfg"]).load (filesWith .logging "level: debug\n".toUTF8) .logging >>= Settings.isValid) =
      .ok true := by
  have hread : Yaml.read none ⟨Source.plainLines "level: debug\n".toList, true⟩ =
      .ok (.map [(.text "level", .text "debug")]) := by
    rw [Yaml.read_eq]
    decide +kernel
  obtain ⟨s, hload, hs⟩ := exists_load_filesWith .logging "level: debug\n" hread
  have hlevel : s.get "level" = .text "debug" := hs.get_eq (by decide +kernel) (by decide +kernel)
  have hsize : s.get "max_size" = .int 10 := hs.get_eq (by decide +kernel) (by decide +kernel)
  have hcount : s.get "backup_count" = .int 5 := hs.get_eq (by decide +kernel) (by decide +kernel)
  refine ⟨s, hload, (validity_exact hload).1.2 (.logging ?_ ?_ ?_)⟩
  · rw [Settings.HasLevel, hlevel]
    decide +kernel
  · rw [hsize]
    exact .int (by decide)
  · rw [hcount]
    exact .int (by decide)

/-- A number has no length. So it is not true that there is always an answer for settings that are loaded. -/
theorem not_validity_total : ¬ ∀ (store : SettingsStore) (fs : Files) (kind : SettingsKind) (s : Settings),
    store.load fs kind = .ok s → ∃ b, (store.load fs kind >>= Settings.isValid) = .ok b := by
  intro htotal
  have hread : Yaml.read none ⟨Source.plainLines "royal_piece_ids: 5\n".toList, true⟩ =
      .ok (.map [(.text "royal_piece_ids", .int 5)]) := by
    rw [Yaml.read_eq]
    decide +kernel
  obtain ⟨s, hload, hs⟩ := exists_load_filesWith .engine "royal_piece_ids: 5\n" hread
  have hlayout : s.get "default_layout" = .text Layout.standard := hs.get_eq (by decide +kernel) (by decide +kernel)
  have hroyal : s.get "royal_piece_ids" = .int 5 := hs.get_eq (by decide +kernel) (by decide +kernel)
  have huntestable : s.Untestable .engine .wrongType := by
    refine .royal hlayout (by decide +kernel) ?_
    rw [hroyal]
    exact .int 5
  obtain ⟨b, hb⟩ := htotal _ _ _ s hload
  rw [hload, Outcome.ok_bind, (Settings.isValid_engine_eq_error_iff (kind_of_load hload)).2 huntestable] at hb
  cases hb

end SettingsStore

end Hyperchess
