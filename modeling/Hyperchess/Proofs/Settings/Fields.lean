import Hyperchess.Proofs.Data.Entries
import Hyperchess.Proofs.Outcome
import Hyperchess.Settings.Draft

/-!
# The fields of settings

Settings are known from the values of their fields (`Settings.ext_get?`), so entries for all of them, in any order, make
them what they are (`overlay_eq_of_perm`). Hence a document that is the one of some settings up to the order of entries
stands for settings that match these (`ofData_of_matches`). A draft in which no reserved name is changed is that of the
settings with the same changes (`Draft.overlay_ofSettings`).
-/

namespace Hyperchess

open Data (orderedEntry)

namespace Settings

variable {s t : Settings} {field : Text} {value : Data} {entries : List (Data × Data)}

/-! ## Values of fields -/

theorem get?_eq_some_iff : s.get? field = some value ↔ (field, value) ∈ s.values := by
  have hnames : (s.values.map (·.1)).Nodup := s.names_eq ▸ Draft.nodup_fields s.kind
  constructor
  · intro h
    obtain ⟨e, he, rfl⟩ := Option.map_eq_some_iff.1 h
    obtain rfl : e.1 = field := by simpa using List.find?_some he
    exact List.mem_of_find?_eq_some he
  · intro h
    rw [get?, Draft.find?_of_mem hnames h, Option.map_some]

theorem exists_get?_iff : (∃ value, s.get? field = some value) ↔ field ∈ s.kind.fields := by
  rw [← s.names_eq, List.mem_map]
  constructor
  · rintro ⟨value, h⟩
    exact ⟨_, get?_eq_some_iff.1 h, rfl⟩
  · rintro ⟨e, he, rfl⟩
    exact ⟨e.2, get?_eq_some_iff.2 he⟩

/-- Settings of one kind with the same values are equal. -/
theorem ext_get? (hkind : s.kind = t.kind) (h : ∀ field ∈ s.kind.fields, s.get? field = t.get? field) : s = t := by
  have hvalues (s : Settings) : s.values = s.kind.fields.map fun field => (field, s.get field) := by
    rw [← s.names_eq, List.map_map]
    refine (List.map_id s.values).symm.trans (List.map_congr_left fun e he => ?_)
    simp [get, get?_eq_some_iff.2 he]
  have hsame : s.values = t.values := by
    rw [hvalues s, hvalues t, hkind]
    refine List.map_congr_left fun field hfield => ?_
    rw [get, get, h field (hkind ▸ hfield)]
  cases s
  cases t
  cases hkind
  cases hsame
  rfl

theorem set_of_notMem (h : field ∉ s.kind.fields) : s.set field value = s := by
  refine ext_get? rfl fun other hother => get?_set_ne s value ?_
  rintro rfl
  exact h hother

/-! ## Several values at once -/

theorem kind_overlay (s : Settings) (entries : List (Data × Data)) : (s.overlay entries).kind = s.kind := by
  induction entries generalizing s with
  | nil => rfl
  | cons e rest ih =>
    obtain ⟨k, x⟩ := e
    cases k <;> exact ih _

/-- A field that is not among the keys keeps its value. -/
theorem get?_overlay_of_notMem (h : .text field ∉ entries.map (·.1)) :
    (s.overlay entries).get? field = s.get? field := by
  induction entries generalizing s with
  | nil => rfl
  | cons e rest ih =>
    obtain ⟨k, x⟩ := e
    rw [List.map_cons, List.mem_cons, not_or] at h
    cases k with
    | text other =>
      have hne : field ≠ other := fun heq => h.1 (congrArg Data.text heq)
      exact (ih h.2).trans (get?_set_ne s x hne)
    | _ => exact ih h.2

/-- A field has the value that it is given. -/
theorem get?_overlay_of_mem (hkeys : (entries.map (·.1)).Nodup) (h : (.text field, value) ∈ entries)
    (hfield : field ∈ s.kind.fields) : (s.overlay entries).get? field = some value := by
  induction entries generalizing s with
  | nil => cases h
  | cons e rest ih =>
    obtain ⟨hnew, hrest⟩ := List.nodup_cons.1 hkeys
    rcases List.mem_cons.1 h with rfl | hmem
    · obtain ⟨old, hold⟩ := exists_get?_iff.2 hfield
      have hset : (s.set field value).get? field = some value := by rw [get?_set, hold, Option.map_some]
      exact (get?_overlay_of_notMem hnew).trans hset
    · obtain ⟨k, x⟩ := e
      cases k <;> exact ih hrest hmem hfield

/-- Entries for all fields, in any order, make settings what they are. -/
theorem overlay_eq_of_perm (hkind : s.kind = t.kind)
    (h : entries.Perm (t.values.map fun e => (.text e.1, e.2))) : s.overlay entries = t := by
  have hkeys : (entries.map (·.1)).Nodup := by
    rw [(h.map _).nodup_iff, List.map_map]
    have hnames : (t.kind.fields.map Data.text).Nodup :=
      List.pairwise_map.2 ((Draft.nodup_fields t.kind).imp fun hne heq => hne (Data.text.inj heq))
    rwa [← t.names_eq, List.map_map] at hnames
  refine ext_get? ((kind_overlay s entries).trans hkind) fun field hfield => ?_
  rw [kind_overlay] at hfield
  obtain ⟨value, hvalue⟩ := exists_get?_iff.2 (hkind ▸ hfield)
  have hmem : (Data.text field, value) ∈ entries :=
    h.mem_iff.2 (List.mem_map.2 ⟨(field, value), get?_eq_some_iff.1 hvalue, rfl⟩)
  rw [get?_overlay_of_mem hkeys hmem hfield, hvalue]

/-! ## Values up to the order of entries -/

/-- The settings with all values in order. -/
def ordered (s : Settings) : Settings where
  kind := s.kind
  values := s.values.map fun e => (e.1, e.2.ordered)
  names_eq := by rw [List.map_map]; exact s.names_eq

/-- The values of all fields are the same up to the order of entries. -/
def Matches (s t : Settings) : Prop := s.ordered = t.ordered

theorem Matches.kind_eq (h : s.Matches t) : s.kind = t.kind := by
  have hkind : s.ordered.kind = t.ordered.kind := by rw [h]
  exact hkind

theorem ordered_set (s : Settings) (field : Text) (value : Data) :
    (s.set field value).ordered = s.ordered.set field value.ordered := by
  have hvalues : (s.set field value).ordered.values = (s.ordered.set field value.ordered).values := by
    simp only [ordered, set, assign, List.map_map]
    refine List.map_congr_left fun e _ => ?_
    by_cases h : e.1 = field <;> simp [h]
  simp only [ordered, set, mk.injEq, true_and] at hvalues ⊢
  exact hvalues

theorem ordered_overlay (s : Settings) (entries : List (Data × Data)) :
    (s.overlay entries).ordered = s.ordered.overlay (entries.map fun e => (e.1, e.2.ordered)) := by
  induction entries generalizing s with
  | nil => rfl
  | cons e rest ih =>
    obtain ⟨k, x⟩ := e
    cases k with
    | text field =>
      show ((s.set field x).overlay rest).ordered = (s.ordered.set field x.ordered).overlay _
      rw [ih, ordered_set]
    | _ => exact ih s

/-- Changing the same fields keeps settings matching. -/
theorem Matches.overlay (h : s.Matches t) (entries : List (Data × Data)) :
    (s.overlay entries).Matches (t.overlay entries) := by
  rw [Matches, ordered_overlay, ordered_overlay, h]

theorem map_orderedEntry_toData (s : Settings) :
    (s.values.map fun e => (Data.text e.1, e.2)).map orderedEntry =
      s.ordered.values.map fun e => (Data.text e.1, e.2) := by
  simp only [ordered, List.map_map]
  rfl

/-- The documents of matching settings are nested equally deeply. -/
theorem Matches.depth_eq (h : s.Matches t) : s.toData.depth = t.toData.depth := by
  have hentries (s : Settings) : s.toData.depth = s.ordered.toData.depth := by
    rw [toData, toData, Data.depth, Data.depth, ← map_orderedEntry_toData, Data.depthOfEntries_map_ordered]
  rw [hentries s, hentries t, h]

/-- There are no maps in the defaults. -/
theorem isFlat_ofKind (kind : SettingsKind) : ∀ e ∈ (ofKind kind).values, e.2.isFlat = true := by
  cases kind <;> decide +kernel

/-- Settings without maps in their values match no others. -/
theorem Matches.eq_of_isFlat (h : s.Matches t) (hflat : ∀ e ∈ t.values, e.2.isFlat = true) : s = t := by
  refine ext_get? h.kind_eq fun field hfield => ?_
  obtain ⟨x, hx⟩ := exists_get?_iff.2 hfield
  have hordered : (field, x.ordered) ∈ t.ordered.values :=
    h ▸ List.mem_map.2 ⟨_, get?_eq_some_iff.1 hx, rfl⟩
  obtain ⟨⟨other, y⟩, hy, heq⟩ := List.mem_map.1 hordered
  obtain ⟨rfl, hsame⟩ := Prod.mk.inj heq
  obtain rfl : x = y := Data.Matches.eq_of_isFlat hsame.symm (hflat _ hy)
  rw [hx, get?_eq_some_iff.2 hy]

/-- A document that is that of settings up to the order of entries stands for settings that match these. -/
theorem ofData_of_matches {d : Data} (h : d.Matches s.toData) : ∃ t, ofData s.kind d = .ok t ∧ t.Matches s := by
  obtain ⟨found, rfl, hperm⟩ := h.of_map
  rw [map_orderedEntry_toData] at hperm
  have hfull : found.isEmpty = false := by
    have hlength := hperm.length_eq
    simp only [List.length_map] at hlength
    have hfields : s.ordered.values.length = s.kind.fields.length := by rw [← List.length_map, s.ordered.names_eq]; rfl
    cases found with
    | cons => rfl
    | nil =>
      rw [hfields] at hlength
      cases hkind : s.kind <;> rw [hkind] at hlength <;> cases hlength
  refine ⟨(ofKind s.kind).overlay found, by simp [ofData, Data.truthy, hfull], ?_⟩
  -- all keys are texts, which are in order anyway
  have hkeys : (found.map fun e => (e.1, e.2.ordered)) = found.map orderedEntry := by
    refine List.map_congr_left fun e he => ?_
    obtain ⟨f, -, hf⟩ := List.mem_map.1 (hperm.mem_iff.1 (List.mem_map_of_mem he))
    have hkey : e.1.ordered = .text f.1 := (congrArg Prod.fst hf).symm
    rw [orderedEntry, hkey, Data.ordered_eq_text.1 hkey]
  rw [Matches, ordered_overlay, hkeys]
  exact overlay_eq_of_perm rfl hperm

end Settings

namespace Draft

/-- The names that do not stand for fields when a draft is changed. -/
def reserved : List Text := [tableName, listingName, "__class__", "__weakref__"]

variable {s : Settings} {name : Text}

theorem set_ofSettings (h : name ∉ reserved) (value : Data) :
    (ofSettings s).set name value = .ok (ofSettings (s.set name value)) := by
  simp only [reserved, List.mem_cons, List.not_mem_nil, or_false, not_or] at h
  obtain ⟨htable, hlisting, hclass, hweakref⟩ := h
  unfold set
  rw [if_neg htable, if_neg hlisting, if_neg hclass, if_neg hweakref]
  by_cases hfield : name ∈ s.kind.fields
  · obtain ⟨old, hold⟩ := Settings.exists_get?_iff.2 hfield
    have hget : (ofSettings s).get? name = some old := by
      rw [Settings.get?] at hold
      simp [get?, ofSettings, hold]
    have hany : ((ofSettings s).values.any fun e => e.1 == name) = true :=
      List.any_eq_true.2 ⟨_, Settings.get?_eq_some_iff.1 hold, by simp⟩
    rw [if_pos (by simpa [ofSettings] using hfield), assign, hget, hany]
    rfl
  · rw [if_neg (by simpa [ofSettings] using hfield), Settings.set_of_notMem hfield]

/-- A draft in which no reserved name is changed is that of the settings with the same changes. -/
theorem overlay_ofSettings {entries : List (Data × Data)}
    (h : ∀ e ∈ entries, ∀ name, e.1 = .text name → name ∉ reserved) :
    (ofSettings s).overlay entries = .ok (ofSettings (s.overlay entries)) := by
  induction entries generalizing s with
  | nil => rfl
  | cons e rest ih =>
    obtain ⟨hfirst, hrest⟩ := List.forall_mem_cons.1 h
    obtain ⟨k, x⟩ := e
    cases k with
    | text name =>
      show ((ofSettings s).set name x >>= fun d => d.overlay rest) = _
      rw [set_ofSettings (hfirst name rfl), Outcome.ok_bind]
      exact ih hrest
    | _ => exact ih hrest

end Draft

end Hyperchess
