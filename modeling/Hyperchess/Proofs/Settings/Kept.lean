import Hyperchess.Proofs.Settings.Storage
import Hyperchess.Proofs.Yaml.Evaluation

/-!
# Documents that are kept

A text that was written is read as it is, with plain line ends (`Source.ofBytes_toUTF8`), so whether a codec keeps a
document is a matter of the characters that are written (`Codec.keeps_of_page` for YAML, `Codec.keeps_of_text` for
JSON). YAML keeps the defaults (`Codec.yaml_keepsSettings_ofKind`).
-/

namespace Hyperchess

theorem Source.ofBytes_toUTF8 (s : String) : ofBytes s.toUTF8 = ⟨plainLines s.toList, true⟩ := by
  have hdecoded : String.fromUTF8? s.toUTF8 = some s := by
    simp only [String.fromUTF8?, Option.dite_none_right_eq_some, Option.some.injEq]
    exact ⟨s.isValidUTF8, rfl⟩
  rw [ofBytes, hdecoded]

namespace Codec

variable {codec : Codec} {d found : Data} {s : Settings}

theorem keeps_of_read (text : String) (hwrite : codec.write d = ⟨text, none⟩)
    (hread : codec.read ⟨Source.plainLines text.toList, true⟩ = .ok found) (hmatches : found.Matches d) :
    codec.Keeps d :=
  ⟨text, found, hwrite, by rw [Source.ofBytes_toUTF8, hread], hmatches⟩

/-- YAML keeps a document if the text on the page is read as the same document with its keys in order. -/
theorem keeps_of_page (ordered : Data) (text : String) (hdigits : d.isWritable = true)
    (hbare : Yaml.needsEnd d = false) (hordered : Yaml.ordered d = ordered)
    (hpage : ((Yaml.putDocument {} ordered).indentTo 0).behind.reverse = text.toList)
    (hread : Yaml.read none ⟨Source.plainLines text.toList, true⟩ = .ok ordered) (hmatches : ordered.Matches d) :
    yaml.Keeps d := by
  refine keeps_of_read text ?_ (by simp only [yaml, hread]) hmatches
  have hwritten : Yaml.write d = text := by
    simp only [Yaml.write, hbare, Bool.false_eq_true, if_false, hordered, Yaml.Page.text, hpage, String.ofList_toList]
  have hshallow : d.isShallow none = true := rfl
  simp only [yaml, hshallow, Bool.not_true, Bool.false_eq_true, if_false, hdigits, if_true, hwritten]

/-- JSON keeps a document if the text that is written, all of it, is read as the same document. -/
theorem keeps_of_text (text : String) (htext : (Json.indented d).text = text) (hwhole : (Json.indented d).fault = none)
    (hread : Json.read none (String.ofList (Source.plainLines text.toList)) = .ok d) : json.Keeps d := by
  refine keeps_of_read text ?_ (by simp only [json, hread, if_true]) rfl
  subst htext
  rw [← hwhole]
  rfl

/-- For settings without maps in their values, only their own document matters. -/
theorem keepsSettings_of_isFlat (hflat : (s.values.all fun e => e.2.isFlat) = true) (h : codec.Keeps s.toData) :
    codec.KeepsSettings s := by
  intro t ht
  rwa [ht.eq_of_isFlat (by simpa using hflat)]

/-- YAML keeps the defaults. -/
theorem yaml_keepsSettings_ofKind (kind : SettingsKind) : yaml.KeepsSettings (.ofKind kind) := by
  cases kind with
  | engine =>
    refine keepsSettings_of_isFlat (by decide +kernel) (keeps_of_page (.map [(.text "custom_rules_file", .null),
        (.text "default_layout", .text Layout.standard), (.text "enable_move_cache", .bool true),
        (.text "royal_piece_ids", .list [.text "K"])])
      ("custom_rules_file: null\ndefault_layout: 8,8,1,1 RNBQKBNR,PPPPPPPP,8,8,8,8,pppppppp,rnbqkbnr\n" ++
        "enable_move_cache: true\nroyal_piece_ids:\n- K\n") ?_ ?_ ?_ ?_ ?_ ?_)
    case refine_5 =>
      rw [Yaml.read_eq]
      decide +kernel
    all_goals decide +kernel
  | logging =>
    refine keepsSettings_of_isFlat (by decide +kernel) (keeps_of_page (.map [(.text "backup_count", .int 5),
        (.text "console_output", .bool true), (.text "level", .text "INFO"),
        (.text "log_dir", .text "logs/hika_engine"), (.text "log_file", .null), (.text "max_size", .int 10)])
      "backup_count: 5\nconsole_output: true\nlevel: INFO\nlog_dir: logs/hika_engine\nlog_file: null\nmax_size: 10\n"
      ?_ ?_ ?_ ?_ ?_ ?_)
    case refine_5 =>
      rw [Yaml.read_eq]
      decide +kernel
    all_goals decide +kernel

end Codec

end Hyperchess
