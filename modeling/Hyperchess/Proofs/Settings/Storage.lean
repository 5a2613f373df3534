import Hyperchess.Proofs.Files
import Hyperchess.Proofs.Settings.Fields
import Hyperchess.Settings.Store

/-!
# Settings in files

Loading looks at the bytes at the path of a file, if there are any (`load_of_bytes`); where the file can be written,
they are at one place only (`load_eq`). If the codec of a file keeps the document of settings (`Codec.Keeps`), matching
settings are found there after these have been saved (`saveIn_accepted`). A store that was established once is only
looked at when it is established again (`establish_again`), and a file that it had to make has the defaults in it
(`load_established`).
-/

namespace Hyperchess

/-- The document is written without a fault, and what is read then is the same up to the order of entries. -/
def Codec.Keeps (codec : Codec) (d : Data) : Prop :=
  ∃ text found, codec.write d = ⟨text, none⟩ ∧ codec.read (Source.ofBytes text.toUTF8) = .ok found ∧ found.Matches d

/-- The documents of all settings that match these are kept. -/
def Codec.KeepsSettings (codec : Codec) (s : Settings) : Prop := ∀ t : Settings, t.Matches s → codec.Keeps t.toData

/-- The settings, unless their document is nested too deeply to be written. -/
def Settings.accepted (limit : Option Nat) (s : Settings) : Except Fault Settings :=
  if s.toData.isShallow limit then .ok s else .error .tooDeep

namespace SettingsStore

variable {store : SettingsStore} {formats : Formats} {fs gs : Files} {f : SettingsFile} {kind : SettingsKind}
  {at_ : Place} {dir : FilePath} {bytes : ByteArray} {limit : Option Nat} {s t : Settings} {e : Fault}

/-! ## Loading -/

/-- The settings that the bytes of a file stand for. -/
def decode (codec : Codec) (kind : SettingsKind) (bytes : ByteArray) : Except Fault Settings := do
  Settings.ofData kind (← codec.read (Source.ofBytes bytes))

/-- The settings that are found in the bytes of a file, if there is one; the defaults stand in for what cannot be
understood. -/
def loaded (codec : Codec) (kind : SettingsKind) : Option ByteArray → Except Fault Settings
  | none => .ok (.ofKind kind)
  | some bytes =>
    match decode codec kind bytes with
    | .ok s => .ok s
    | .error e => if isForgiven e then .ok (.ofKind kind) else .error e

/-- What cannot be opened counts as missing. -/
theorem load_of_bytes_error (h : fs.bytes (store.file kind).path = .error e) :
    store.load fs kind = .ok (.ofKind kind) := by
  have hsettings : settingsIn fs (store.file kind) kind = .error e := by
    rw [settingsIn, Files.source, h]
    rfl
  have hfound : found? fs (store.file kind) kind = .ok none := by
    unfold found?
    split
    · rename_i hthere
      cases Files.eq_isDirectory_of_contains hthere h
      rw [hsettings]
      rfl
    · rfl
  rw [load, hfound]
  rfl

/-- The bytes at a path are what the settings are loaded from. -/
theorem load_of_bytes (h : fs.bytes (store.file kind).path = .ok bytes) :
    store.load fs kind = loaded (store.file kind).codec kind (some bytes) := by
  have hdecoded : settingsIn fs (store.file kind) kind = decode (store.file kind).codec kind bytes := by
    rw [settingsIn, Files.source, h]
    rfl
  rw [load, found?, if_pos (Files.contains_of_bytes h), hdecoded, loaded]
  cases decode (store.file kind).codec kind bytes with
  | ok s => rfl
  | error e => cases hforgiven : isForgiven e <;> simp [hforgiven]

/-- What is loaded depends on the bytes at one place. -/
theorem load_eq (h : fs.writable (store.file kind).path = .ok at_) :
    store.load fs kind = loaded (store.file kind).codec kind (fs.get? at_) := by
  have hbytes := Files.bytes_eq h
  cases hfile : fs.get? at_ with
  | none =>
    rw [hfile] at hbytes
    exact load_of_bytes_error hbytes
  | some bytes =>
    rw [hfile] at hbytes
    exact load_of_bytes hbytes

theorem kind_ofData {d : Data} (h : Settings.ofData kind d = .ok s) : s.kind = kind := by
  unfold Settings.ofData at h
  split at h
  · split at h <;> cases h
    exact Settings.kind_overlay ..
  · cases h
    rfl

/-- What is loaded for a kind are settings of this kind. -/
theorem kind_of_load {s : Settings} (h : store.load fs kind = .ok s) : s.kind = kind := by
  cases hbytes : fs.bytes (store.file kind).path with
  | error e =>
    rw [load_of_bytes_error hbytes] at h
    cases h
    rfl
  | ok bytes =>
    rw [load_of_bytes hbytes, loaded] at h
    split at h
    · rename_i hdecode
      cases h
      obtain ⟨d, -, hd⟩ := Outcome.bind_eq_ok_iff.1 hdecode
      exact kind_ofData hd
    · split at h <;> cases h
      rfl

/-! ## Saving -/

theorem document_eq_ok (h : s.toData.isShallow limit = true) : s.document limit = .ok s.toData := if_pos h

theorem accepted_eq_ok (h : s.accepted limit = .ok t) : s.toData.isShallow limit = true ∧ s = t := by
  unfold Settings.accepted at h
  split at h <;> cases h
  exact ⟨by assumption, rfl⟩

theorem isShallow_eq (hmatches : t.Matches s) : t.toData.isShallow limit = s.toData.isShallow limit := by
  rw [Data.isShallow, Data.isShallow, hmatches.depth_eq]

/-- Settings that match refused ones are refused alike. -/
theorem document_eq_error (hmatches : t.Matches s) (h : s.accepted limit = .error e) : t.document limit = .error e := by
  unfold Settings.accepted at h
  split at h <;> cases h
  exact if_neg (isShallow_eq hmatches ▸ by assumption)

/-- Settings that match accepted ones are written at the place of the file, and can be understood there. -/
theorem saveIn_accepted (hw : fs.writable f.path = .ok at_) (hmatches : t.Matches s) {new : Settings}
    (h : s.accepted limit = .ok new) (hkeeps : f.codec.KeepsSettings s) :
    ∃ bytes, saveIn fs f (t.document limit) = (.ok (), fs.withFile at_ bytes) ∧
      ∃ found, decode f.codec s.kind bytes = .ok found ∧ found.Matches s := by
  obtain ⟨text, d, hwrite, hread, hd⟩ := hkeeps t hmatches
  obtain ⟨found, hfound, hsame⟩ := Settings.ofData_of_matches hd
  have hshallow : t.toData.isShallow limit = true := (isShallow_eq hmatches).trans (accepted_eq_ok h).1
  refine ⟨text.toUTF8, ?_, found, ?_, hsame.trans hmatches⟩
  · rw [document_eq_ok hshallow]
    simp only [saveIn, Codec.store, hwrite, Files.write_eq hw]
  · rw [decode, hread, Outcome.ok_bind, ← hmatches.kind_eq, hfound]

/-- Where a file was written, its contents are loaded; the files of other places are not changed. -/
theorem load_withFile (hw : fs.writable (store.file kind).path = .ok at_) {other : Place} {bytes : ByteArray} :
    store.load (fs.withFile other bytes) kind =
      if at_ = other then loaded (store.file kind).codec kind (some bytes) else store.load fs kind := by
  rw [load_eq (Files.writable_congr Files.directories_withFile hw), Files.get?_withFile, load_eq hw]
  split <;> rfl

/-! ## Establishing a store -/

/-- A file that is there is left as it is, and one that is missing is made with the defaults in it. -/
theorem createMissing_eq_ok (h : store.createMissing fs kind = .ok gs) :
    (fs.contains (store.file kind).path = true ∧ gs = fs) ∨
      (Settings.ofKind kind).accepted store.formats.nesting = .ok (.ofKind kind) ∧
      ∃ at_ bytes, fs.contains (store.file kind).path = false ∧ fs.writable (store.file kind).path = .ok at_ ∧
        store.save fs kind (Settings.ofKind kind) = (.ok (), gs) ∧ gs = fs.withFile at_ bytes := by
  unfold createMissing at h
  split at h
  · cases h
    exact .inl ⟨by assumption, rfl⟩
  · rename_i hmissing
    split at h <;> cases h
    rename_i hsave
    refine .inr ?_
    by_cases hshallow : (Settings.ofKind kind).toData.isShallow store.formats.nesting = true
    · have hstored := hsave
      simp only [save, document_eq_ok hshallow, saveIn, Codec.store, Files.write] at hstored
      cases hw : fs.writable (store.file kind).path with
      | error e => simp [hw] at hstored
      | ok at_ =>
        simp only [hw, Outcome.ok_bind, Outcome.pure_eq, Prod.mk.injEq] at hstored
        obtain ⟨-, rfl⟩ := hstored
        exact ⟨if_pos hshallow, at_, _, by simpa using hmissing, rfl, hsave, rfl⟩
    · have hdocument : (Settings.ofKind kind).document store.formats.nesting = .error .tooDeep := if_neg hshallow
      rw [save, hdocument] at hsave
      cases hsave

/-- What is there stays there when a missing file is made, and then the file is there, too. -/
theorem createMissing_spec (h : store.createMissing fs kind = .ok gs) :
    gs.directories = fs.directories ∧ fs.Within gs ∧ gs.contains (store.file kind).path = true := by
  rcases createMissing_eq_ok h with ⟨hthere, rfl⟩ | ⟨-, at_, bytes, -, hw, -, rfl⟩
  · exact ⟨rfl, ⟨id, id⟩, hthere⟩
  · refine ⟨rfl, Files.within_withFile fs at_ bytes, ?_⟩
    rw [Files.contains_eq (Files.writable_congr Files.directories_withFile hw), Files.isFile, Files.get?_withFile]
    simp

/-- Only the place of the file that is missing is changed. -/
theorem get?_createMissing (h : store.createMissing fs kind = .ok gs)
    (hne : fs.writable (store.file kind).path ≠ .ok at_) : gs.get? at_ = fs.get? at_ := by
  rcases createMissing_eq_ok h with ⟨-, rfl⟩ | ⟨-, other, bytes, -, hw, -, rfl⟩
  · rfl
  · rw [Files.get?_withFile, if_neg]
    rintro rfl
    exact hne hw

/-- A file that is made has the defaults in it. -/
theorem load_createMissing (h : store.createMissing fs kind = .ok gs)
    (hkeeps : (store.file kind).codec.KeepsSettings (.ofKind kind))
    (hw : gs.writable (store.file kind).path = .ok at_) (hnew : fs.get? at_ = none) :
    ∃ t, store.load gs kind = .ok t ∧ t.Matches (.ofKind kind) := by
  have hbefore : fs.writable (store.file kind).path = .ok at_ := Files.writable_congr (createMissing_spec h).1.symm hw
  rcases createMissing_eq_ok h with ⟨hthere, -⟩ | ⟨haccepted, -, -, -, -, hsave, -⟩
  · simp [Files.contains_eq hbefore, Files.isFile, hnew] at hthere
  · obtain ⟨bytes, hwritten, t, hdecode, ht⟩ := saveIn_accepted hbefore rfl haccepted hkeeps
    obtain rfl : fs.withFile at_ bytes = gs := congrArg Prod.snd (hwritten.symm.trans hsave)
    refine ⟨t, ?_, ht⟩
    have hdecode : decode (store.file kind).codec kind bytes = .ok t := hdecode
    rw [load_withFile hbefore, if_pos rfl, loaded, hdecode]

/-- The steps in which a store is established. -/
theorem establish_eq_ok (h : establish formats fs dir = .ok gs) : ∃ made half, fs.makeDirectory dir = .ok made ∧
    (inDirectory formats dir).createMissing made .engine = .ok half ∧
      (inDirectory formats dir).createMissing half .logging = .ok gs := by
  obtain ⟨made, hmade, h⟩ := Outcome.bind_eq_ok_iff.1 h
  obtain ⟨half, hhalf, h⟩ := Outcome.bind_eq_ok_iff.1 h
  exact ⟨made, half, hmade, hhalf, h⟩

/-- **A store that was established is only looked at when it is established again**, whatever was written meanwhile. -/
theorem establish_again {hs : Files} (h : establish formats fs dir = .ok gs) (hwithin : gs.Within hs) :
    establish formats hs dir = .ok hs := by
  obtain ⟨made, half, hmade, hhalf, hgs⟩ := establish_eq_ok h
  obtain ⟨-, hmadeHalf, hengine⟩ := createMissing_spec hhalf
  obtain ⟨-, hhalfGs, hlogging⟩ := createMissing_spec hgs
  have hhalfHs := hhalfGs.trans hwithin
  have hthere {kind : SettingsKind} (hfile : hs.contains ((inDirectory formats dir).file kind).path = true) :
      (inDirectory formats dir).createMissing hs kind = .ok hs := if_pos hfile
  rw [establish, Files.makeDirectory_again hmade (hmadeHalf.trans hhalfHs), Outcome.ok_bind,
    hthere (hhalfHs.contains hengine), Outcome.ok_bind, hthere (hwithin.contains hlogging)]

/-- The files of a store in a directory are different. -/
theorem inDirectory_apart {other : Place}
    (hengine : fs.writable ((inDirectory formats dir).file .engine).path = .ok at_)
    (hlogging : gs.writable ((inDirectory formats dir).file .logging).path = .ok other) : at_ ≠ other := by
  rintro rfl
  have hnames := (Files.getLast?_of_writable_join (by decide) (by decide) (by decide) hengine).symm.trans
    (Files.getLast?_of_writable_join (by decide) (by decide) (by decide) hlogging)
  exact absurd hnames (by decide)

/-- Only the files of a store are made when it is established. -/
theorem get?_establish (h : establish formats fs dir = .ok gs)
    (hne : ∀ kind, gs.writable ((inDirectory formats dir).file kind).path ≠ .ok at_) : gs.get? at_ = fs.get? at_ := by
  obtain ⟨made, half, hmade, hhalf, hgs⟩ := establish_eq_ok h
  have hdirs := (createMissing_spec hgs).1
  have hkept : half.get? at_ = made.get? at_ :=
    get?_createMissing hhalf fun hw =>
      hne .engine (Files.writable_congr (hdirs.trans (createMissing_spec hhalf).1) hw)
  rw [get?_createMissing hgs fun hw => hne .logging (Files.writable_congr hdirs hw), hkept, Files.get?,
    Files.contents_makeDirectory hmade]
  rfl

theorem exists_createMissing
    (haccepted : (Settings.ofKind kind).accepted store.formats.nesting = .ok (.ofKind kind))
    (hkeeps : (store.file kind).codec.KeepsSettings (.ofKind kind))
    (hw : fs.writable (store.file kind).path = .ok at_) : ∃ gs, store.createMissing fs kind = .ok gs := by
  obtain ⟨bytes, hwritten, -⟩ := saveIn_accepted hw rfl haccepted hkeeps
  unfold createMissing
  split
  · exact ⟨fs, rfl⟩
  · rw [save, hwritten]
    exact ⟨_, rfl⟩

/-- A store can be established in a directory in which its files can be written. -/
theorem exists_establish {made : Files} {places : SettingsKind → Place} (hmade : fs.makeDirectory dir = .ok made)
    (haccepted : ∀ kind, (Settings.ofKind kind).accepted formats.nesting = .ok (.ofKind kind))
    (hkeeps : ∀ kind, formats.yaml.KeepsSettings (.ofKind kind))
    (hw : ∀ kind, made.writable ((inDirectory formats dir).file kind).path = .ok (places kind)) :
    ∃ gs, establish formats fs dir = .ok gs ∧ gs.directories = made.directories := by
  obtain ⟨half, hhalf⟩ : ∃ half, (inDirectory formats dir).createMissing made .engine = .ok half :=
    exists_createMissing (haccepted .engine) (hkeeps .engine) (hw .engine)
  have hhalfDirs := (createMissing_spec hhalf).1
  obtain ⟨gs, hgs⟩ : ∃ gs, (inDirectory formats dir).createMissing half .logging = .ok gs :=
    exists_createMissing (haccepted .logging) (hkeeps .logging) (Files.writable_congr hhalfDirs (hw .logging))
  refine ⟨gs, ?_, (createMissing_spec hgs).1.trans hhalfDirs⟩
  rw [establish, hmade, Outcome.ok_bind, hhalf, Outcome.ok_bind, hgs]

/-- A new file has the defaults in it. -/
theorem load_established (h : establish formats fs dir = .ok gs) (hkeeps : formats.yaml.KeepsSettings (.ofKind kind))
    (hw : gs.writable ((inDirectory formats dir).file kind).path = .ok at_) (hnew : fs.get? at_ = none) :
    ∃ t, (inDirectory formats dir).load gs kind = .ok t ∧ t.Matches (.ofKind kind) := by
  obtain ⟨made, half, hmade, hhalf, hgs⟩ := establish_eq_ok h
  have hmadeNew : made.get? at_ = none := by rw [Files.get?, Files.contents_makeDirectory hmade]; exact hnew
  have hdirs := (createMissing_spec hgs).1.symm
  cases kind with
  | engine =>
    have hhalfWritable := Files.writable_congr hdirs hw
    obtain ⟨t, hload, ht⟩ := load_createMissing hhalf hkeeps hhalfWritable hmadeNew
    have hkept : gs.get? at_ = half.get? at_ := get?_createMissing hgs fun hother => inDirectory_apart hw hother rfl
    refine ⟨t, ?_, ht⟩
    rw [load_eq hw, hkept, ← load_eq hhalfWritable, hload]
  | logging =>
    have hkept : half.get? at_ = made.get? at_ := get?_createMissing hhalf fun hother => inDirectory_apart hother hw rfl
    exact load_createMissing hgs hkeeps hw (hkept.trans hmadeNew)

end SettingsStore

end Hyperchess
