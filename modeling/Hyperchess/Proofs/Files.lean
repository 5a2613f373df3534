import Hyperchess.Files
import Hyperchess.Proofs.Outcome

/-!
# Files at places

Where a path leads depends on the directories only, and more directories do not change where it leads
(`Within.target`). What is written at a path is at the place that it leads to, and nowhere else (`write_eq`,
`get?_withFile`), and is read from there again (`bytes_eq`). Making a directory leaves all files as they are
(`contents_makeDirectory`), and does nothing if it was made before (`makeDirectory_again`).
-/

namespace Hyperchess.Files

variable {fs gs : Files} {p : FilePath} {at_ other : Place} {bytes : ByteArray} {e : Fault}

/-- The files with these bytes at a place. -/
def withFile (fs : Files) (at_ : Place) (bytes : ByteArray) : Files :=
  { fs with contents := assign fs.contents at_ bytes }

@[simp] theorem directories_withFile : (fs.withFile at_ bytes).directories = fs.directories := rfl

theorem find?_assign (contents : List (Place × ByteArray)) (at_ other : Place) (bytes : ByteArray) :
    ((assign contents at_ bytes).find? fun e => e.1 == other).map (·.2) =
      if other = at_ then some bytes else (contents.find? fun e => e.1 == other).map (·.2) := by
  induction contents with
  | nil =>
    by_cases h : other = at_
    · simp [assign, h]
    · have hne : at_ ≠ other := fun heq => h heq.symm
      simp [assign, h, hne]
  | cons e rest ih =>
    by_cases he : e.1 = at_
    · by_cases h : at_ = other
      · simp [assign, he, h]
      · have hne : other ≠ at_ := fun heq => h heq.symm
        simp [assign, he, h, hne]
    · rw [assign, if_neg he]
      by_cases h : e.1 = other
      · have hne : other ≠ at_ := fun heq => he (h.trans heq)
        simp [h, hne]
      · simpa [h] using ih

theorem get?_withFile : (fs.withFile at_ bytes).get? other = if other = at_ then some bytes else fs.get? other :=
  find?_assign ..

theorem isFile_withFile (h : fs.isFile other = true) : (fs.withFile at_ bytes).isFile other = true := by
  rw [isFile, get?_withFile]
  split
  · rfl
  · exact h

/-! ## Where paths lead -/

/-- All directories and all files of `fs` are there in `gs`, too, with whatever bytes. -/
structure Within (fs gs : Files) : Prop where
  isDirectory : ∀ {at_}, fs.isDirectory at_ = true → gs.isDirectory at_ = true
  isFile : ∀ {at_}, fs.isFile at_ = true → gs.isFile at_ = true

theorem Within.trans {hs : Files} (h : fs.Within gs) (k : gs.Within hs) : fs.Within hs :=
  ⟨fun hd => k.isDirectory (h.isDirectory hd), fun hf => k.isFile (h.isFile hf)⟩

theorem within_withFile (fs : Files) (at_ : Place) (bytes : ByteArray) : fs.Within (fs.withFile at_ bytes) :=
  ⟨fun h => h, isFile_withFile⟩

theorem enter_of_isDirectory (h : ∀ {at_}, fs.isDirectory at_ = true → gs.isDirectory at_ = true) {start : Place}
    (hp : fs.enter start p = .ok at_) : gs.enter start p = .ok at_ := by
  induction p generalizing start with
  | nil => exact hp
  | cons part rest ih =>
    unfold enter at hp ⊢
    split at hp
    · rw [if_pos (by assumption)]
      exact ih hp
    · rw [if_neg (by assumption)]
      split at hp
      · rw [if_pos (by assumption)]
        exact ih hp
      · rw [if_neg (by assumption)]
        split at hp
        · cases hp
        · rw [if_neg (by assumption)]
          split at hp
          · rename_i hdir
            rw [if_pos (h hdir)]
            exact ih hp
          · cases hp

theorem place_of_isDirectory (h : ∀ {at_}, fs.isDirectory at_ = true → gs.isDirectory at_ = true)
    (hp : fs.place p = .ok at_) : gs.place p = .ok at_ := by
  unfold place at hp ⊢
  generalize (if p.isAbsolute then Place.root else []) = start at hp ⊢
  by_cases hempty : p.text.isEmpty
  · simp [hempty] at hp
  by_cases hlong : pathLimit < p.text.nameBytes.size
  · simp [hempty, hlong] at hp
  simp only [hempty, hlong, Bool.false_eq_true, if_false] at hp ⊢
  split at hp
  · rw [if_pos (by assumption)]
    exact enter_of_isDirectory h hp
  · rw [if_neg (by assumption)]
    obtain ⟨dir, hdir, hlast⟩ := Outcome.bind_eq_ok_iff.1 hp
    rw [enter_of_isDirectory h hdir, Outcome.ok_bind]
    exact hlast

theorem target_eq_ok_iff {slash : Bool} : fs.target p = .ok (at_, slash) ↔
    p.usable = .ok () ∧ fs.place (trimmed p).1 = .ok at_ ∧ (trimmed p).2 = slash := by
  have htarget : fs.target p = (do
      p.usable
      return (← fs.place (trimmed p).1, (trimmed p).2)) := rfl
  rw [htarget]
  cases p.usable with
  | error e => simp
  | ok u => cases fs.place (trimmed p).1 <;> simp

theorem Within.target (h : fs.Within gs) {slash : Bool} (hp : fs.target p = .ok (at_, slash)) :
    gs.target p = .ok (at_, slash) := by
  rw [target_eq_ok_iff] at hp ⊢
  exact ⟨hp.1, place_of_isDirectory h.isDirectory hp.2.1, hp.2.2⟩

/-- What is at a path stays there. -/
theorem Within.contains (h : fs.Within gs) (hp : fs.contains p = true) : gs.contains p = true := by
  unfold Files.contains at hp ⊢
  cases htarget : fs.target p with
  | error e => simp [htarget] at hp
  | ok t =>
    obtain ⟨at_, slash⟩ := t
    rw [htarget] at hp
    rw [h.target htarget]
    rcases Bool.or_eq_true_iff.1 hp with hdir | hfile
    · simp [h.isDirectory hdir]
    · obtain ⟨hfile, hslash⟩ := Bool.and_eq_true_iff.1 hfile
      simp [h.isFile hfile, hslash]

/-! ## Files at paths -/

/-- A path at which a file can be written leads to a place that is no directory, and has no slash at its end. -/
theorem writable_eq_ok_iff :
    fs.writable p = .ok at_ ↔ fs.target p = .ok (at_, false) ∧ fs.isDirectory at_ = false := by
  cases hslash : (trimmed p).2 with
  | true =>
    constructor
    · intro h
      unfold writable at h
      simp only [hslash, if_true] at h
      obtain ⟨-, -, h⟩ := Outcome.bind_eq_ok_iff.1 h
      obtain ⟨-, -, h⟩ := Outcome.bind_eq_ok_iff.1 h
      obtain ⟨-, h, -⟩ := Outcome.bind_eq_ok_iff.1 h
      cases h
    · rintro ⟨h, -⟩
      rw [(target_eq_ok_iff.1 h).2.2] at hslash
      cases hslash
  | false =>
    have hleads : fs.writable p = (do
        let t ← fs.target p
        if fs.isDirectory t.1 then throw .isDirectory else return t.1) := by
      unfold writable
      simp [hslash]
    rw [hleads]
    constructor
    · intro h
      obtain ⟨⟨here, slash⟩, ht, h⟩ := Outcome.bind_eq_ok_iff.1 h
      obtain rfl : false = slash := hslash ▸ (target_eq_ok_iff.1 ht).2.2
      cases hdir : fs.isDirectory here <;> simp [hdir] at h
      subst h
      exact ⟨ht, hdir⟩
    · rintro ⟨ht, hdir⟩
      simp [ht, hdir]

theorem write_eq (h : fs.writable p = .ok at_) (bytes : ByteArray) :
    fs.write p bytes = .ok (fs.withFile at_ bytes) := by
  rw [write, h]
  rfl

/-- Where a file can be written depends on the directories only. -/
theorem writable_congr (hdirs : gs.directories = fs.directories) (h : fs.writable p = .ok at_) :
    gs.writable p = .ok at_ := by
  have hsame {at_ : Place} : gs.isDirectory at_ = fs.isDirectory at_ := by rw [isDirectory, hdirs, isDirectory]
  rw [writable_eq_ok_iff, target_eq_ok_iff] at h ⊢
  obtain ⟨⟨husable, hplace, hslash⟩, hdir⟩ := h
  exact ⟨⟨husable, place_of_isDirectory (fun hd => hsame.trans hd) hplace, hslash⟩, hsame.trans hdir⟩

/-- A path below another one ends with what is put behind it. -/
theorem exists_join (dir : FilePath) {name : Text} (hempty : name ≠ Text.empty) (hpoint : name ≠ ".") :
    ∃ front : FilePath, dir.join [name] = front ++ [name] := by
  have hnames : (dir.normal ++ [name]).names = dir.normal.names ++ [name] := by
    have hblank : name ≠ "" := hempty
    simp [FilePath.names, hblank, hpoint]
  have hfull : (dir.normal ++ [name]).names.isEmpty = false := by simp [hnames]
  have habsolute : FilePath.isAbsolute [name] = false := by simp [FilePath.isAbsolute]
  rw [FilePath.join, habsolute, if_neg (by simp), FilePath.normal, hfull, hnames]
  split
  · exact ⟨"" :: dir.normal.names, rfl⟩
  · exact ⟨dir.normal.names, rfl⟩

/-- A file that can be written in a directory has its name there. -/
theorem getLast?_of_writable_join {dir : FilePath} {name : Text} (hempty : name ≠ Text.empty) (hpoint : name ≠ ".")
    (hpoints : name ≠ "..") (h : fs.writable (dir.join [name]) = .ok at_) : at_.getLast? = some name := by
  obtain ⟨front, hfront⟩ := exists_join dir hempty hpoint
  have htrimmed : (trimmed (front ++ [name])).1 = front ++ [name] := by
    have hfull : name.isEmpty = false := by
      obtain ⟨points⟩ := name
      cases points with
      | nil => exact absurd rfl hempty
      | cons => rfl
    simp [trimmed, hfull]
  have hends : endsInDirectory (front ++ [name]) = false := by
    have hblank : name ≠ "" := hempty
    simp [endsInDirectory, hblank, hpoint, hpoints]
  obtain ⟨htarget, -⟩ := writable_eq_ok_iff.1 h
  have hplace := (target_eq_ok_iff.1 htarget).2.1
  rw [hfront, htrimmed] at hplace
  unfold place at hplace
  generalize (if FilePath.isAbsolute (front ++ [name]) then Place.root else []) = start at hplace
  simp only [hends, Bool.false_eq_true, if_false] at hplace
  split at hplace
  · cases hplace
  · split at hplace
    · cases hplace
    · obtain ⟨above, -, hplace⟩ := Outcome.bind_eq_ok_iff.1 hplace
      split at hplace <;> cases hplace
      simp

theorem contains_eq (h : fs.writable p = .ok at_) : fs.contains p = fs.isFile at_ := by
  obtain ⟨htarget, hdir⟩ := writable_eq_ok_iff.1 h
  simp [contains, htarget, hdir]

/-- The bytes at a path at which a file can be written. -/
theorem bytes_eq (h : fs.writable p = .ok at_) :
    fs.bytes p = match fs.get? at_ with | some bytes => .ok bytes | none => .error .missingFile := by
  obtain ⟨htarget, hdir⟩ := writable_eq_ok_iff.1 h
  rw [bytes, htarget, Outcome.ok_bind]
  cases hget : fs.get? at_ <;> simp [hdir, hget]

/-- What can be read is there. -/
theorem contains_of_bytes (h : fs.bytes p = .ok bytes) : fs.contains p = true := by
  obtain ⟨⟨at_, slash⟩, htarget, h⟩ := Outcome.bind_eq_ok_iff.1 h
  rw [contains, htarget]
  dsimp only at h ⊢
  split at h
  · cases h
  · split at h
    · rename_i hfile
      cases slash with
      | true => cases h
      | false => simp [isFile, hfile]
    · cases h

/-- What is there, but cannot be read, is a directory. -/
theorem eq_isDirectory_of_contains (hthere : fs.contains p = true) (h : fs.bytes p = .error e) :
    e = .isDirectory := by
  unfold contains at hthere
  split at hthere
  · rename_i at_ slash htarget
    rw [Files.bytes, htarget, Outcome.ok_bind] at h
    cases hdir : fs.isDirectory at_ with
    | true => simpa [hdir, eq_comm] using h
    | false =>
      obtain ⟨hfile, rfl⟩ : fs.isFile at_ = true ∧ slash = false := by simpa [hdir] using hthere
      obtain ⟨found, hfound⟩ := Option.isSome_iff_exists.1 hfile
      simp [hdir, hfound] at h
  · cases hthere

/-! ## Making directories -/

theorem leadsToDirectory_of_place (h : fs.place p = .ok at_) : fs.leadsToDirectory p = .ok (fs.isDirectory at_) := by
  rw [leadsToDirectory, h]

theorem Within.leadsToDirectory (h : fs.Within gs) (hp : fs.leadsToDirectory p = .ok true) :
    gs.leadsToDirectory p = .ok true := by
  cases hplace : fs.place p with
  | error e => cases e <;> simp [Files.leadsToDirectory, hplace] at hp
  | ok at_ =>
    rw [leadsToDirectory_of_place hplace] at hp
    rw [leadsToDirectory_of_place (place_of_isDirectory h.isDirectory hplace), h.isDirectory (Except.ok.inj hp)]

/-- A new directory can be reached, and no file is changed. -/
theorem addDirectory_eq_ok (h : fs.addDirectory p = .ok gs) :
    p.usable = .ok () ∧ gs.leadsToDirectory p = .ok true ∧ gs.contents = fs.contents := by
  unfold addDirectory at h
  obtain ⟨⟨⟩, husable, h⟩ := Outcome.bind_eq_ok_iff.1 h
  obtain ⟨at_, hat, h⟩ := Outcome.bind_eq_ok_iff.1 h
  by_cases hthere : (endsInDirectory p || fs.isDirectory at_ || fs.isFile at_) = true
  · simp only [hthere, if_true] at h
    obtain ⟨-, h, -⟩ := Outcome.bind_eq_ok_iff.1 h
    cases h
  · simp only [hthere, Bool.false_eq_true, if_false] at h
    cases h
    have hplace : Files.place { fs with directories := fs.directories ++ [at_] } p = .ok at_ := by
      refine place_of_isDirectory (fun {other} hdir => ?_) hat
      simp only [isDirectory, Bool.or_eq_true, List.contains_eq_mem, decide_eq_true_eq, List.mem_append] at hdir ⊢
      exact hdir.imp_right Or.inl
    refine ⟨husable, ?_, rfl⟩
    rw [leadsToDirectory_of_place hplace]
    simp [isDirectory]

/-- Where a directory is already, none is added. -/
theorem addDirectory_again (husable : p.usable = .ok ()) (h : fs.leadsToDirectory p = .ok true) :
    fs.addDirectory p = .error .existingFile := by
  cases hplace : fs.place p with
  | error e => cases e <;> simp [leadsToDirectory, hplace] at h
  | ok at_ =>
    rw [leadsToDirectory_of_place hplace] at h
    rw [addDirectory, husable, Outcome.ok_bind, hplace, Outcome.ok_bind]
    simp only [Except.ok.inj h, Bool.or_true, Bool.true_or, if_true]
    rfl

/-- A path that can be used is not refused as one that cannot. -/
theorem usable_eq_ok (h : fs.addDirectory p = .error e) (hvalue : ∀ text, e ≠ .badValue text)
    (hencodable : ∀ complaint, e ≠ .notEncodable complaint) : p.usable = .ok () := by
  cases husable : p.usable with
  | ok u => rfl
  | error f =>
    rw [addDirectory, husable] at h
    cases h
    unfold FilePath.usable at husable
    split at husable
    · cases husable
      exact absurd rfl (hencodable _)
    · split at husable <;> cases husable
      exact absurd rfl (hvalue _)

/-- What was made, or was there, is a directory that can be reached, and no file is changed. -/
theorem makeBy_eq_ok {above : Except Fault Files} (habove : ∀ hs, above = .ok hs → hs.contents = fs.contents)
    (h : fs.makeBy p above = .ok gs) :
    p.usable = .ok () ∧ gs.leadsToDirectory p = .ok true ∧ gs.contents = fs.contents := by
  have haccept {hs : Files} {e : Fault} (h : (do if ← hs.leadsToDirectory p then return hs else throw e) = .ok gs) :
      hs.leadsToDirectory p = .ok true ∧ gs = hs := by
    obtain ⟨there, hthere, h⟩ := Outcome.bind_eq_ok_iff.1 h
    cases there <;> cases h
    exact ⟨hthere, rfl⟩
  unfold makeBy at h
  split at h
  · rename_i hadd
    cases h
    exact addDirectory_eq_ok hadd
  · rename_i hadd
    have husable := usable_eq_ok hadd (by simp) (by simp)
    cases hmade : above with
    | error e => simp [hmade] at h
    | ok hs =>
      simp only [hmade] at h
      split at h
      · rename_i hagain
        cases h
        obtain ⟨-, hleads, hcontents⟩ := addDirectory_eq_ok hagain
        exact ⟨husable, hleads, hcontents.trans (habove hs hmade)⟩
      · cases h
      · obtain ⟨hleads, rfl⟩ := haccept h
        exact ⟨husable, hleads, habove _ hmade⟩
  · cases h
  · cases h
  · rename_i hvalue hencodable hadd
    obtain ⟨hleads, rfl⟩ := haccept h
    exact ⟨usable_eq_ok hadd (by simpa using hvalue) (by simpa using hencodable), hleads, rfl⟩

theorem makeBy_again {above : Except Fault Files} (husable : p.usable = .ok ()) (h : fs.leadsToDirectory p = .ok true) :
    fs.makeBy p above = .ok fs := by
  simp only [makeBy, addDirectory_again husable h, h, Outcome.ok_bind, if_true]
  rfl

theorem contents_makeFirst {count : Nat} (h : fs.makeFirst p count = .ok gs) : gs.contents = fs.contents := by
  induction count generalizing gs with
  | zero => cases h
  | succ count ih => exact (makeBy_eq_ok (fun _ => ih) h).2.2

/-- Making a directory leaves all files as they are. -/
theorem contents_makeDirectory (h : fs.makeDirectory p = .ok gs) : gs.contents = fs.contents := contents_makeFirst h

/-- A directory that was made need not be made again. -/
theorem makeDirectory_again {hs : Files} (h : fs.makeDirectory p = .ok gs) (hwithin : gs.Within hs) :
    hs.makeDirectory p = .ok hs := by
  unfold makeDirectory at h ⊢
  cases hcount : p.normal.length with
  | zero =>
    rw [hcount] at h
    cases h
  | succ count =>
    rw [hcount] at h
    obtain ⟨husable, hleads, -⟩ := makeBy_eq_ok (fun _ => contents_makeFirst) h
    exact makeBy_again husable (hwithin.leadsToDirectory hleads)

end Hyperchess.Files
