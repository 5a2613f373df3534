import Hyperchess.Move
import Hyperchess.Proofs.Coord.Reading

/-!
# Moves and their texts

The text of a move holds the texts of its squares, with slashes between them, and no square has a slash in its text
(`splitOn_chars`). So a move that can be written is read back from its text, except that no list of squares passed is
told from an empty one (`ofText_text`). What is read from any text with a slash can be written, and is read back
unchanged (`exists_ofText`). Main statement: `text_roundtrip`.
-/

namespace Hyperchess.Move

variable {m : Move} {t : Text}

/-- The move with no list of squares passed in place of an empty one. -/
def normal (m : Move) : Move := { m with via := if m.via = some [] then none else m.via }

@[simp] theorem squares_normal (m : Move) : m.normal.squares = m.squares := by
  by_cases h : m.via = some []
  · simp [squares, normal, h]
  · simp [squares, normal, h]

@[simp] theorem normal_normal (m : Move) : m.normal.normal = m.normal := by
  by_cases h : m.via = some []
  · simp [normal, h]
  · simp [normal, h]

theorem normal_some_getD (src dst : Coord) (via : Option (List Coord)) :
    normal ⟨src, dst, some (via.getD [])⟩ = normal ⟨src, dst, via⟩ := by
  cases via with
  | none => rfl
  | some squares => rfl

/-! ## The parts of a text -/

theorem chars_eq (m : Move) : m.chars = ['/'].intercalate (m.squares.map Coord.chars) := by
  have hjoin (first : List Char) (rest : List Coord) :
      ['/'].intercalate (first :: rest.map Coord.chars) = first ++ rest.flatMap fun c => '/' :: c.chars := by
    induction rest generalizing first with
    | nil => simp [List.intercalate]
    | cons c rest ih =>
      rw [List.map_cons, List.intercalate_cons_cons, ih, List.flatMap_cons]
      simp
  rw [squares, List.map_cons, hjoin, List.flatMap_cons, chars, List.append_assoc, List.cons_append]

theorem splitOn_chars (m : Move) : m.chars.splitOn '/' = m.squares.map Coord.chars := by
  have hslash : ∀ part ∈ m.squares.map Coord.chars, '/' ∉ part := by
    simp [Coord.slash_not_mem_chars]
  rw [chars_eq, List.splitOn_intercalate '/' hslash (by simp [squares])]

/-- Parts stand for a move if there are two of them at least; there is no empty list of squares passed. -/
theorem ofParts?_cons_cons (src dst : List Char) (via : List (List Char)) :
    ofParts? (src :: dst :: via) =
      some (normal ⟨Coord.ofChars src, Coord.ofChars dst, some (via.map Coord.ofChars)⟩) := by
  cases via with
  | nil => rfl
  | cons part rest => simp [ofParts?, normal]

theorem two_le_length_splitOn {cs : List Char} {c : Char} (h : c ∈ cs) : 2 ≤ (cs.splitOn c).length := by
  obtain ⟨front, back, rfl⟩ := List.append_of_mem h
  have hfront := List.length_pos_iff.2 (List.splitOn_ne_nil c front)
  have hback := List.length_pos_iff.2 (List.splitOn_ne_nil c back)
  rw [List.splitOn_append_cons_self, List.length_append]
  omega

/-! ## Reading what was written -/

/-- **A move is read back from its text**, with no list of squares passed for an empty one. -/
theorem ofText_text (h : ∀ c ∈ m.squares, c.IsWritable) : ofText m.text = .ok m.normal := by
  have hread : m.squares.map (Coord.ofChars ∘ Coord.chars) = m.squares :=
    (List.map_congr_left fun c hc => Coord.ofChars_chars (h c hc)).trans (List.map_id' _)
  rw [squares, List.map_cons, List.map_cons, List.cons.injEq, List.cons.injEq] at hread
  obtain ⟨hsrc, hdst, hvia⟩ := hread
  have hparts : ofParts? (m.squares.map Coord.chars) = some m.normal := by
    rw [squares, List.map_cons, List.map_cons, ofParts?_cons_cons, List.map_map, hvia, normal_some_getD]
    simp only [Function.comp_apply] at hsrc hdst
    rw [hsrc, hdst]
  rw [ofText, text, Text.chars_ofString, String.toList_ofList, splitOn_chars, hparts]

/-! ## What can be read -/

/-- **A text with a slash stands for a move** that can be written, and whose text is as good as any other. -/
theorem exists_ofText (h : '/' ∈ t.chars) :
    ∃ m, ofText t = .ok m ∧ (∀ c ∈ m.squares, c.IsWritable) ∧ m.normal = m := by
  have hlength := two_le_length_splitOn h
  match hparts : t.chars.splitOn '/' with
  | [] | [part] => simp [hparts] at hlength
  | src :: dst :: via =>
    refine ⟨_, by rw [ofText, hparts, ofParts?_cons_cons], ?_, normal_normal _⟩
    rw [squares_normal]
    simp only [squares, Option.getD_some, List.forall_mem_cons, Coord.isWritable_ofChars, true_and]
    intro c hc
    obtain ⟨part, -, rfl⟩ := List.mem_map.1 hc
    exact Coord.isWritable_ofChars part

/-! ## The round trip -/

/-- **Moves and coordinates are read back from what is written for them, and what is read can be written.**
- A move none of whose squares has too many digits is read back from its text with the same ends and the same squares
  passed, an empty list of them coming back as none.
- A coordinate without too many digits has a text, and is read back from it.
- From any text with a slash a move is read, which can be written, and its text stands for the same move.
- No two coordinates have the same text. -/
theorem text_roundtrip :
    (∀ m : Move, (∀ c ∈ m.squares, c.IsWritable) →
      ofText m.text = .ok { m with via := if m.via = some [] then none else m.via }) ∧
    (∀ a : Coord, a.IsWritable → a.written = .ok a.text ∧ Coord.ofText a.text = a) ∧
    (∀ t : Text, '/' ∈ t.chars →
      ∃ m, ofText t = .ok m ∧ (∀ c ∈ m.squares, c.IsWritable) ∧ ofText m.text = .ok m) ∧
    Function.Injective Coord.text := by
  refine ⟨fun m h => ofText_text h, fun a h => ⟨?_, Coord.ofText_text h⟩, fun t h => ?_,
    fun a b => Coord.text_injective⟩
  · exact Coord.written_eq_ok_iff.2 ⟨h, rfl⟩
  · obtain ⟨m, hm, hwritable, hnormal⟩ := exists_ofText h
    refine ⟨m, hm, hwritable, ?_⟩
    rw [ofText_text hwritable, hnormal]

/-- A move with an axis below zero and an empty list of squares passed, and a text with missing parts, parts that are no
integers, and blanks around them. -/
theorem text_roundtrip_ragged :
    ofText (Move.mk ⟨-3, 0, 12, 700⟩ ⟨0, -1, 0, 0⟩ (some [])).text = .ok ⟨⟨-3, 0, 12, 700⟩, ⟨0, -1, 0, 0⟩, none⟩ ∧
    ofText (Move.mk ⟨-3, 0, 12, 700⟩ ⟨0, -1, 0, 0⟩ (some [⟨5, 5, 5, -5⟩])).text =
      .ok ⟨⟨-3, 0, 12, 700⟩, ⟨0, -1, 0, 0⟩, some [⟨5, 5, 5, -5⟩]⟩ ∧
    (Coord.mk (-3) 0 12 700).written = .ok "-3,0,12,700" ∧ Coord.ofText "-3,0,12,700" = ⟨-3, 0, 12, 700⟩ ∧
    (∃ m, ofText " 1,two/3 ,-4,,,8//,+9" = .ok m ∧ ofText m.text = .ok m ∧
      m = ⟨⟨1, 0, 0, 0⟩, ⟨3, -4, 0, 0⟩, some [⟨0, 0, 0, 0⟩, ⟨0, 9, 0, 0⟩]⟩) := by
  obtain ⟨hmove, hcoord, htext, -⟩ := text_roundtrip
  obtain ⟨hwritten, hread⟩ := hcoord ⟨-3, 0, 12, 700⟩ (by decide +kernel)
  obtain ⟨m, hm, -, hagain⟩ := htext " 1,two/3 ,-4,,,8//,+9" (by decide +kernel)
  have hm' : ofText " 1,two/3 ,-4,,,8//,+9" =
      .ok ⟨⟨1, 0, 0, 0⟩, ⟨3, -4, 0, 0⟩, some [⟨0, 0, 0, 0⟩, ⟨0, 9, 0, 0⟩]⟩ := by decide +kernel
  exact ⟨hmove _ (by decide +kernel), hmove _ (by decide +kernel), hwritten, hread, m, hm, hagain,
    Except.ok.inj (hm.symm.trans hm')⟩

end Hyperchess.Move
