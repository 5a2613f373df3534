import Hyperchess.Proofs.Json.Refusals
import Hyperchess.Proofs.Settings.Kept

/-!
# What is loaded

Loading gets over a document that is malformed or no map. Otherwise there are the defaults with the fields in the
document (`Settings.TakenFrom`), or the document is refused for a reason that is not forgiven; in JSON the reason is in
the document (`Json.Unloadable`). Main statement: what is loaded, for all files and in any format (`load_exact`). In
particular a file that begins with bytes that are not UTF-8 is not loaded (`load_of_not_utf8`).
-/

namespace Hyperchess

theorem Source.ofBytes_of_early {bytes : ByteArray} (hbroken : String.fromUTF8? bytes = none)
    (hearly : (front bytes).2 < 8192) : ofBytes bytes = ⟨[], false⟩ := by
  have hblock : (front bytes).2 - (front bytes).2 % 8192 = 0 := by omega
  have hempty : bytes.extract 0 0 = .empty := by
    rw [← ByteArray.size_eq_zero_iff, ByteArray.size_extract]
    omega
  have hintact : intact bytes = [] := by
    simp only [intact, hblock, hempty]
    rfl
  rw [ofBytes, hbroken]
  dsimp only
  rw [hintact]
  rfl

/-! ## Fields from entries -/

namespace Settings

variable {s : Settings} {kind : SettingsKind} {field : Text} {entries : List (Data × Data)}

/-- The value of the last entry for a field. -/
def last? (field : Text) (entries : List (Data × Data)) : Option Data :=
  (entries.reverse.find? fun e => e.1 = .text field).map (·.2)

theorem last?_concat (field : Text) (entries : List (Data × Data)) (e : Data × Data) :
    last? field (entries ++ [e]) = if e.1 = .text field then some e.2 else last? field entries := by
  rw [last?, List.reverse_append, List.reverse_singleton, List.singleton_append, List.find?_cons]
  by_cases h : e.1 = .text field
  · simp [h]
  · simp [h, last?]

/-- A field has the value of the last entry for it, if there is one. -/
theorem get?_overlay (hfield : field ∈ s.kind.fields) :
    (s.overlay entries).get? field = (last? field entries).or (s.get? field) := by
  induction entries using List.reverseRecOn with
  | nil => rfl
  | append_singleton rest e ih =>
    have hstep : s.overlay (rest ++ [e]) = (s.overlay rest).overlay [e] := List.foldl_append ..
    have hlater : field ∈ (s.overlay rest).kind.fields := by rwa [kind_overlay]
    rw [hstep, last?_concat]
    by_cases h : e.1 = .text field
    · have hmem : (Data.text field, e.2) ∈ [e] := by simp [← h]
      rw [get?_overlay_of_mem (by simp) hmem hlater, if_pos h, Option.some_or]
    · have hnew : Data.text field ∉ [e].map (·.1) := by simpa using Ne.symm h
      rw [get?_overlay_of_notMem hnew, ih, if_neg h]

/-- The settings are the defaults of a kind with the values that entries have for its fields. Of entries for the same
field the last one counts, and those for anything else do not matter. -/
structure TakenFrom (kind : SettingsKind) (entries : List (Data × Data)) (s : Settings) : Prop where
  kind_eq : s.kind = kind
  get?_eq : ∀ field ∈ kind.fields, s.get? field = (last? field entries).or ((ofKind kind).get? field)

theorem TakenFrom.get_eq {value : Data} (h : s.TakenFrom kind entries) (hfield : field ∈ kind.fields)
    (hvalue : (last? field entries).or ((ofKind kind).get? field) = some value) : s.get field = value := by
  rw [get, h.get?_eq field hfield, hvalue]
  rfl

theorem takenFrom_overlay (kind : SettingsKind) (entries : List (Data × Data)) :
    ((ofKind kind).overlay entries).TakenFrom kind entries :=
  ⟨kind_overlay .., fun _ hfield => get?_overlay hfield⟩

theorem ofData_map (kind : SettingsKind) (entries : List (Data × Data)) :
    ofData kind (.map entries) = .ok ((ofKind kind).overlay entries) := by
  cases entries <;> rfl

theorem ofData_of_ne_map {d : Data} (h : ∀ entries, d ≠ .map entries) :
    ofData kind d = .ok (ofKind kind) ∨ ofData kind d = .error .lacksMember := by
  unfold ofData
  split
  · split
    · exact absurd rfl (h _)
    · exact .inr rfl
  · exact .inl rfl

end Settings

/-! ## JSON that is refused -/

namespace Json

variable {limit : Option Nat} {src : Source} {e : Fault}

/-- Why JSON is refused although it is not known to be malformed: its bytes are not UTF-8, there are more brackets in it
than lists and maps may be inside one another, or an integer in it has too many digits. -/
inductive Unloadable (limit : Option Nat) (src : Source) : Fault → Prop
  | notText (h : src.isWhole = false) : Unloadable limit src .notText
  | tooDeep {most : Nat} (hlimit : limit = some most) (h : most < src.chars.countP opens) :
      Unloadable limit src .tooDeep
  | digits (text : String) (run : List Char) (hrun : run <:+: src.chars) (hdigits : ∀ c ∈ run, c.isDigit = true)
      (hlong : Integer.digitLimit < run.length) : Unloadable limit src (.badValue text)

theorem Unloadable.not_forgiven (h : Unloadable limit src e) : SettingsStore.isForgiven e = false := by
  cases h <;> rfl

/-- Without a limit there is room for all brackets of a text. -/
theorem unloadable_of_tooDeep (h : read limit (String.ofList src.chars) = .error .tooDeep) :
    Unloadable limit src .tooDeep := by
  have hrefused := readWithin_refused h
  rw [String.toList_ofList] at hrefused
  cases hrefused with
  | tooDeep hopens =>
    cases limit with
    | some most => exact .tooDeep rfl hopens
    | none =>
      rw [Option.getD_none, String.length_ofList] at hopens
      exact absurd List.countP_le_length (Nat.not_le.2 hopens)

theorem refused (h : (Codec.json limit).read src = .error e) : e = .badDocument ∨ Unloadable limit src e := by
  simp only [Codec.json] at h
  split at h
  · split at h
    · cases h
    · cases h
      exact .inl rfl
    · rename_i hread
      cases h
      exact .inr (unloadable_of_tooDeep hread)
    · rename_i n hread
      cases h
      have hrefused := readWithin_refused hread
      rw [String.toList_ofList] at hrefused
      cases hrefused with
      | oversized run hrun hdigits hlong => exact .inr (.digits _ run hrun hdigits hlong)
  · rename_i hwhole
    cases h
    exact .inr (.notText (Bool.eq_false_iff.2 hwhole))

end Json

/-! ## Loading -/

namespace SettingsStore

variable {store : SettingsStore} {fs : Files} {kind : SettingsKind} {bytes : ByteArray} {e : Fault}

/-- Under the name of a kind, read as settings of this kind, there is what is loaded for the kind. -/
theorem loadAs_name (store : SettingsStore) (fs : Files) (kind : SettingsKind) :
    store.loadAs fs kind.name kind = store.load fs kind := by
  have hname := SettingsKind.ofName?_name kind
  rw [loadAs, file?, hname, load, SettingsKind.known, hname]
  dsimp only
  cases found? fs (store.file kind) kind with
  | error e => rfl
  | ok settings? => cases settings? <;> rfl

section Documents

variable {codec : Codec} {d : Data} {entries : List (Data × Data)}

theorem loaded_of_map (h : codec.read (.ofBytes bytes) = .ok (.map entries)) :
    loaded codec kind (some bytes) = .ok ((Settings.ofKind kind).overlay entries) := by
  rw [loaded, decode, h, Outcome.ok_bind, Settings.ofData_map]

theorem loaded_of_ne_map (h : codec.read (.ofBytes bytes) = .ok d) (hd : ∀ entries, d ≠ .map entries) :
    loaded codec kind (some bytes) = .ok (.ofKind kind) := by
  rw [loaded, decode, h, Outcome.ok_bind]
  rcases Settings.ofData_of_ne_map hd with hdata | hdata
  · rw [hdata]
  · rw [hdata]
    rfl

theorem loaded_of_error (h : codec.read (.ofBytes bytes) = .error e) :
    loaded codec kind (some bytes) = if isForgiven e then .ok (.ofKind kind) else .error e := by
  rw [loaded, decode, h, Outcome.error_bind]

end Documents

/-- The files in a directory for settings where only one kind has a file. -/
def filesWith (kind : SettingsKind) (bytes : ByteArray) : Files where
  contents := [(((inDirectory .unlimited ["cfg"]).file kind).path, bytes)]
  directories := [["cfg"]]

theorem bytes_filesWith (kind : SettingsKind) (bytes : ByteArray) :
    (filesWith kind bytes).bytes ((inDirectory .unlimited ["cfg"]).file kind).path = .ok bytes := by
  cases kind <;> rfl

theorem codec_inDirectory (kind : SettingsKind) : ((inDirectory .unlimited ["cfg"]).file kind).codec = .yaml := by
  cases kind <;> rfl

/-- Fields that are written in YAML are found in the only file. -/
theorem exists_load_filesWith (kind : SettingsKind) (text : String) {entries : List (Data × Data)}
    (h : Yaml.read none ⟨Source.plainLines text.toList, true⟩ = .ok (.map entries)) :
    ∃ s, (inDirectory .unlimited ["cfg"]).load (filesWith kind text.toUTF8) kind = .ok s ∧
      s.TakenFrom kind entries := by
  have hread : ((inDirectory .unlimited ["cfg"]).file kind).codec.read (.ofBytes text.toUTF8) = .ok (.map entries) := by
    rw [codec_inDirectory, Source.ofBytes_toUTF8]
    simp only [Codec.yaml, h]
  exact ⟨_, (load_of_bytes (bytes_filesWith ..)).trans (loaded_of_map hread), Settings.takenFrom_overlay kind entries⟩

/-- **What is loaded under the name of a kind of settings**, whatever is at the path of its file: the defaults if there
are no bytes, or if they are a document but no map; the defaults with the fields of the map if they are one. If they are
refused as a document, then either this is forgiven, and there are the defaults, or nothing is loaded. For JSON it is
forgiven exactly if the document is malformed; else the document has the reason in it. -/
theorem load_exact (store : SettingsStore) (fs : Files) (kind : SettingsKind) :
    match fs.bytes (store.file kind).path with
    | .error _ => store.loadAs fs kind.name kind = .ok (.ofKind kind)
    | .ok bytes =>
      match (store.file kind).codec.read (.ofBytes bytes) with
      | .ok (.map entries) => ∃ s, store.loadAs fs kind.name kind = .ok s ∧ s.TakenFrom kind entries
      | .ok _ => store.loadAs fs kind.name kind = .ok (.ofKind kind)
      | .error e =>
        store.loadAs fs kind.name kind = (if isForgiven e then .ok (.ofKind kind) else .error e) ∧
          ∀ limit, (store.file kind).codec = .json limit →
            e = .badDocument ∨ isForgiven e = false ∧ Json.Unloadable limit (.ofBytes bytes) e := by
  rw [loadAs_name]
  cases hbytes : fs.bytes (store.file kind).path with
  | error e => exact load_of_bytes_error hbytes
  | ok bytes =>
    have hload := load_of_bytes hbytes
    dsimp only
    split
    · rename_i entries hread
      exact ⟨_, hload.trans (loaded_of_map hread), Settings.takenFrom_overlay kind entries⟩
    · rename_i d hmap hread
      exact hload.trans (loaded_of_ne_map hread fun entries hd => hmap entries hd)
    · rename_i e hread
      refine ⟨hload.trans (loaded_of_error hread), fun limit hcodec => ?_⟩
      rw [hcodec] at hread
      exact (Json.refused hread).imp_right fun h => ⟨h.not_forgiven, h⟩

/-- A file with one field, and with a name that is no field. -/
theorem load_exact_partial : ∃ s, (inDirectory .unlimited ["cfg"]).loadAs
      (filesWith .logging "backup_count: 3\nfoo: 1\n".toUTF8) SettingsKind.logging.name .logging = .ok s ∧
    s.get? "backup_count" = some (.int 3) ∧ s.get? "level" = some (.text "INFO") := by
  generalize hbytes : "backup_count: 3\nfoo: 1\n".toUTF8 = bytes
  have hdocument : Yaml.read none ⟨Source.plainLines "backup_count: 3\nfoo: 1\n".toList, true⟩ =
      .ok (.map [(.text "backup_count", .int 3), (.text "foo", .int 1)]) := by
    rw [Yaml.read_eq]
    decide +kernel
  have hread : Codec.yaml.read (.ofBytes bytes) =
      .ok (.map [(.text "backup_count", .int 3), (.text "foo", .int 1)]) := by
    rw [← hbytes, Source.ofBytes_toUTF8]
    simp only [Codec.yaml, hdocument]
  have hexact := load_exact (inDirectory .unlimited ["cfg"]) (filesWith .logging bytes) .logging
  simp only [bytes_filesWith, codec_inDirectory, hread] at hexact
  obtain ⟨s, hload, hs⟩ := hexact
  refine ⟨s, hload, ?_, ?_⟩
  · rw [hs.get?_eq _ (by decide +kernel)]
    decide +kernel
  · rw [hs.get?_eq _ (by decide +kernel)]
    decide +kernel

/-- If the first byte that is not UTF-8 is in the first block of bytes, there is nothing in front of it to read, and
nothing is loaded in a format that reports this. -/
theorem load_of_not_utf8 (hcodec : (store.file kind).codec.read ⟨[], false⟩ = .error .notText)
    (hbytes : fs.bytes (store.file kind).path = .ok bytes) (hbroken : String.fromUTF8? bytes = none)
    (hearly : (Source.front bytes).2 < 8192) : store.load fs kind = .error .notText := by
  have hread : (store.file kind).codec.read (.ofBytes bytes) = .error .notText := by
    rw [Source.ofBytes_of_early hbroken hearly, hcodec]
  rw [load_of_bytes hbytes, loaded_of_error hread]
  rfl

/-- So it is not true that something is loaded whatever the bytes of the file are. -/
theorem not_load_total : ¬ ∀ (store : SettingsStore) (fs : Files) (kind : SettingsKind),
    (store.file kind).codec.read ⟨[], false⟩ = .error .notText → ∃ s, store.loadAs fs kind.name kind = .ok s := by
  intro h
  obtain ⟨s, hload⟩ := h (inDirectory .unlimited ["cfg"]) (filesWith .engine ⟨#[0xff, 0x41]⟩) .engine rfl
  rw [loadAs_name, load_of_not_utf8 rfl (bytes_filesWith ..) (by decide +kernel) (by decide +kernel)] at hload
  cases hload

end SettingsStore

end Hyperchess
