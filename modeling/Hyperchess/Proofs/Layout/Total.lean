import Hyperchess.Proofs.Board.Audit
import Hyperchess.Proofs.Layout.Room
import Hyperchess.Proofs.Layout.RoundTrip

/-!
# Whatever text is read as a layout

A text whose first field is not extents is reported as no layout, and nothing else is reported so. Any other text is
read, if the machine can fill its rows: its pieces are what its body says about the squares of the board
(`mem_placements_iff`), in visiting order and each with a proper design (`orderly_placements`), and they become a board
on which an audit finds nothing and a scan finds the index (`exists_sound_board`), if the machine can make an array for
it. All this is put together in `parse_total`.
-/

namespace Hyperchess

/-! ## Proper designs -/

/-- A design has a text that is not empty as its kind, one of two teams, and integers as its flags. -/
structure Design.Proper (d : Design) : Prop where
  kind : ∃ kind : Text, d.id = .text kind ∧ kind ≠ Text.empty
  team : d.team = .int 0 ∨ d.team = .int 1
  flags : ∀ f ∈ d.flags, Audit.IsInteger f

theorem Text.upperPoint_ne_nil (p : CodePoint) : upperPoint p ≠ [] := by
  have hmany : ∀ entry ∈ Case.upperMany, entry.2 ≠ [] := by decide
  cases p with
  | half n => exact List.cons_ne_nil _ _
  | char c =>
    rw [upperPoint, Ne, List.map_eq_nil_iff, upperChar]
    split
    · exact List.cons_ne_nil _ _
    · split
      · rename_i entry hentry
        rw [List.map_eq_nil_iff]
        exact hmany entry (List.mem_of_find?_eq_some hentry)
      · exact List.cons_ne_nil _ _

theorem isInteger_of_mem_initialFlags {kind : Text} : ∀ f ∈ initialFlags kind, Audit.IsInteger f := by
  unfold initialFlags
  split
  · simp [Flags.firstMove, Audit.IsInteger]
  · split
    · simp [Flags.left, Flags.right, Audit.IsInteger]
    · exact fun f hf => absurd hf List.not_mem_nil

/-- A piece made from a proper design is proper. -/
theorem Audit.proper_of_design {b : Board} {p : Piece} {d : Design} (h : d.Proper) (hid : p.id = d.id)
    (hteam : p.team = d.team) (hflags : b.flagsOf p = d.flags) : Audit.Proper b p where
  kind := hid ▸ h.kind
  team := hteam ▸ h.team.elim (fun h => .inl ⟨0, h⟩) fun h => .inl ⟨1, h⟩
  flags := hflags ▸ h.flags

namespace Layout

variable {m : Machine} {layout : Text} {size : Coord} {body : List CodePoint}

/-- Whatever code point stands for a piece, the design of the piece is proper. -/
theorem proper_designOf (p : CodePoint) : (designOf p).Proper where
  kind := by
    refine ⟨_, rfl, fun hempty => ?_⟩
    have hpoints : Text.upperPoint p ++ [] = [] := congrArg Text.points hempty
    exact Text.upperPoint_ne_nil p (List.append_eq_nil_iff.1 hpoints).1
  team := by
    rw [designOf, Design.ofKind]
    dsimp only
    split
    · exact .inl rfl
    · exact .inr rfl
  flags := isInteger_of_mem_initialFlags

/-! ## Placements -/

/-- The square is on boards of this size. -/
def Within (size c : Coord) : Prop :=
  (0 ≤ c.x ∧ c.x < size.x) ∧ (0 ≤ c.y ∧ c.y < size.y) ∧ (0 ≤ c.z ∧ c.z < size.z) ∧ (0 ≤ c.w ∧ c.w < size.w)

/-- Pieces stand on squares of a board, in the order in which the squares are visited, and their designs are proper. -/
structure Orderly (size : Coord) (pieces : List (Coord × Design)) : Prop where
  inside : ∀ e ∈ pieces, Within size e.1
  inOrder : (pieces.map (·.1)).Pairwise fun c d => c.visitedBefore d = true
  proper : ∀ e ∈ pieces, e.2.Proper

/-- The pieces of a body are what it says about the squares of the board. -/
theorem mem_placements_iff {c : Coord} {d : Design} :
    (c, d) ∈ placements size body ↔ Within size c ∧ squareAt size body c = some d := by
  obtain ⟨b, rfl⟩ := Board.exists_of_size size
  rw [mem_placements, Board.contains_iff, Within]

/-- **The pieces of a layout are orderly.** -/
theorem orderly_placements (size : Coord) (hbody : ∀ p ∈ body, Text.isBlank p.toChar = false) :
    Orderly size (placements size body) where
  inside _ he := (mem_placements_iff.1 he).1
  inOrder := pairwise_placements size body
  proper := by
    rintro ⟨c, d⟩ he
    obtain ⟨p, -, -, rfl⟩ := exists_mark_of_squareAt hbody (mem_placements_iff.1 he).2
    exact proper_designOf p

/-- Squares of a board with these extents can be written wherever the extents can. -/
theorem isWithin_of_within {digits : Option Nat} (hdigits : ∀ most ∈ digits, Integer.digitLimit ≤ most)
    (hsize : size.IsExtent) {c : Coord} (hc : Within size c) : c.isWithin digits = true := by
  simp only [Coord.IsExtent, Coord.axes, List.forall_mem_cons] at hsize
  obtain ⟨⟨-, hx⟩, ⟨-, hy⟩, ⟨-, hz⟩, ⟨-, hw⟩, -⟩ := hsize
  obtain ⟨hcx, hcy, hcz, hcw⟩ := hc
  refine List.all_eq_true.2 ?_
  simp only [Coord.axes, List.forall_mem_cons]
  exact ⟨Integer.isWithin_of_le hdigits hx (by omega), Integer.isWithin_of_le hdigits hy (by omega),
    Integer.isWithin_of_le hdigits hz (by omega), Integer.isWithin_of_le hdigits hw (by omega),
    fun _ hn => absurd hn List.not_mem_nil⟩

/-- Orderly pieces become a board on which an audit finds nothing, and a scan finds the index. -/
theorem exists_sound_board (h : Sized layout size) (digits : Option Nat) : ∃ b,
    Board.ofPlacements size (placements size (bodyOf layout)) digits = .ok b ∧ b.size = size ∧
    b.index = (Board.numbered 0 (placements size (bodyOf layout))).map (fun e => (e.1, .piece e.2)) ∧
    ((∀ most ∈ digits, Integer.digitLimit ≤ most) → Audit.errors b = .ok []) ∧ Audit.scanned b = .ok b.index := by
  have horderly := orderly_placements size fun p (hp : p ∈ bodyOf layout) => not_isBlank_of_mem_bodyOf hp
  obtain ⟨b, hb, hsize, hdigits, hsound, hdistinct, hflags, hindex⟩ :=
    exists_ofPlacements h.isExtent (bodyOf layout) digits
  have hproper (c : Coord) (p : Piece) (hp : b.get c = .ok (some (.piece p))) : Audit.Proper b p := by
    rw [hsound.get_eq_piece_iff, hindex, List.mem_map] at hp
    obtain ⟨⟨c', p'⟩, he, heq⟩ := hp
    cases heq
    obtain ⟨i, d, hd, rfl⟩ := Board.exists_of_mem_numbered he
    refine Audit.proper_of_design (horderly.proper _ (List.mem_of_getElem? hd)) rfl rfl ?_
    simp [Board.flagsOf, hflags, hd]
  have horder : (b.index.map (·.1)).Pairwise fun c d => c.visitedBefore d = true := by
    rw [hindex, List.map_map]
    exact (Board.squares_numbered 0 _).symm ▸ horderly.inOrder
  refine ⟨b, hb, hsize, hindex, fun hlimit => ?_, Audit.scanned_eq_index hsound horder⟩
  refine (Audit.errors_eq_nil_iff hsound.mapped).2 ⟨Audit.mirrored_of_sound hsound, hdistinct, fun c p hp => ?_⟩
  have hc := Board.contains_iff.1 (Board.contains_of_get hp).1
  rw [hsize] at hc
  exact ⟨hproper c p hp, hdigits ▸ isWithin_of_within hlimit h.isExtent hc⟩

/-! ## Reading any text -/

/-- Without extents, a text is reported. -/
theorem exists_report (m : Machine) (h : ¬∃ size, Sized layout size) :
    ∃ text reason, parseWithin m layout = .error (.layout text reason) := by
  cases houtline : outline layout with
  | ok r => exact absurd ⟨r.1, (outline_eq_ok_iff.1 houtline).1⟩ h
  | error e =>
    obtain ⟨text, reason, rfl⟩ := outline_eq_error houtline
    exact ⟨text, reason, by rw [parseWithin, houtline, Outcome.error_bind]⟩

/-- With extents, a text is read, unless a row is not filled. -/
theorem parse_of_sized (m : Machine) (h : Sized layout size) :
    parse layout = .ok (size, placements size (bodyOf layout)) ∧
      (parseWithin m layout = .ok (size, placements size (bodyOf layout)) ∨
        ∃ row ∈ rows size (bodyOf layout), ∃ e, Unfilled m (lacking row size.x) e ∧
          parseWithin m layout = .error e) := by
  have houtline : outline layout = .ok (size, bodyOf layout) := outline_eq_ok_iff.2 ⟨h, rfl⟩
  have hx : 0 ≤ size.x := h.nonneg size.x (by simp [Coord.axes])
  rw [parse, parseWithin, houtline]
  refine ⟨rfl, ?_⟩
  simp only [Outcome.ok_bind]
  obtain hfilled | ⟨row, hrow, e, hunfilled, hfault⟩ := checkRows_cases m hx (bodyOf layout)
  · rw [hfilled]
    exact .inl rfl
  · rw [hfault]
    exact .inr ⟨row, hrow, e, hunfilled, rfl⟩

/-- **Every text is reported as no layout or is read**, and what is read is a proper board. A text is reported exactly
if its first field is not extents. Otherwise it is read as these extents and pieces, unless one of its rows, which there
are only if no other extent is zero, lacks more squares than the machine can fill it up with. The pieces are what the
body says about the squares of the board; they stand there in visiting order, each with a proper design. Where the
machine can make an array of these extents, they become a board of as many different pieces, on which an audit finds
nothing, since all integers that can be read can be written; its index is in the order in which a scan of the cells
finds it. -/
theorem parse_total (m : Machine) (layout : Text) :
    ((∃ text reason, parseWithin m layout = .error (.layout text reason)) ↔ ¬∃ size, Sized layout size) ∧
    ∀ size, Sized layout size → ∃ pieces, parse layout = .ok (size, pieces) ∧
      (parseWithin m layout = .ok (size, pieces) ∨
        (0 < size.w ∧ 0 < size.z ∧ 0 < size.y) ∧ ∃ row ∈ rows size (bodyOf layout),
          ∃ e, Unfilled m (lacking row size.x) e ∧ parseWithin m layout = .error e) ∧
      Orderly size pieces ∧
      (∀ c d, (c, d) ∈ pieces ↔ Within size c ∧ squareAt size (bodyOf layout) c = some d) ∧
      (m.array size.nested = .ok () → ∃ b, Board.build m size pieces = .ok b ∧ b.size = size ∧
        b.index = (Board.numbered 0 pieces).map (fun e => (e.1, .piece e.2)) ∧
        ((∀ most ∈ m.digits, Integer.digitLimit ≤ most) → Audit.errors b = .ok []) ∧
        Audit.scanned b = .ok b.index) := by
  refine ⟨⟨?_, exists_report m⟩, fun size hsized => ?_⟩
  · rintro ⟨text, reason, hreport⟩ ⟨size, hsized⟩
    obtain hread | ⟨row, -, e, hunfilled, hfault⟩ := (parse_of_sized m hsized).2
    · cases hread.symm.trans hreport
    · cases hfault.symm.trans hreport
      cases hunfilled
  · obtain ⟨hparse, hwithin⟩ := parse_of_sized m hsized
    have hextents {row : List CodePoint} (hrow : row ∈ rows size (bodyOf layout)) :
        0 < size.w ∧ 0 < size.z ∧ 0 < size.y := by
      obtain ⟨w, z, y, hplaces, -⟩ := mem_rows.1 hrow
      omega
    refine ⟨_, hparse, hwithin.imp_right fun ⟨row, hrow, hfault⟩ => ⟨hextents hrow, row, hrow, hfault⟩,
      orderly_placements size fun p hp => not_isBlank_of_mem_bodyOf hp, fun c d => mem_placements_iff,
      fun harray => ?_⟩
    obtain ⟨b, hb, hboard⟩ := exists_sound_board hsized m.digits
    exact ⟨b, by rw [Board.build, harray, Outcome.ok_bind, hb], hboard⟩

/-- Extents in other digits and with signs, rows with too many squares and too few, a plane too many and a third field:
three pieces are read, one of them of a kind of two letters. -/
theorem parse_total_ragged :
    let ragged : Text := " +2,２,1,02 kX|ß,9z/q more"
    let size : Coord := ⟨2, 2, 1, 2⟩
    let pieces : List (Coord × Design) := [(⟨0, 0, 0, 0⟩, ⟨.text "K", .int 1, [.int 1, .int 2]⟩),
      (⟨1, 0, 0, 0⟩, ⟨.text "X", .int 0, []⟩), (⟨0, 0, 0, 1⟩, ⟨.text "SS", .int 1, []⟩)]
    Sized ragged size ∧ parseWithin {} ragged = .ok (size, pieces) ∧ Orderly size pieces ∧
      ∃ b, Board.build {} size pieces = .ok b ∧ Audit.errors b = .ok [] ∧ Audit.scanned b = .ok b.index := by
  intro ragged size pieces
  have hfields : ragged.fields = ["+2,２,1,02", "kX|ß,9z/q", "more"] := by decide +kernel
  have hsized : Sized ragged size := ⟨_, _, hfields, by decide +kernel, by decide⟩
  have hread : parseWithin {} ragged = .ok (size, pieces) := by decide +kernel
  obtain ⟨found, hparse, -, horderly, -, hboard⟩ := (parse_total {} ragged).2 size hsized
  cases (parse_of_parseWithin hread).symm.trans hparse
  obtain ⟨b, hb, -, -, herrors, hscanned⟩ := hboard rfl
  have hlimit : ∀ most ∈ ({} : Machine).digits, Integer.digitLimit ≤ most := fun most hmost =>
    (Option.some.inj hmost).le
  exact ⟨hsized, hread, horderly, b, hb, herrors hlimit, hscanned⟩

/-- A row can be too wide to be counted: the text is not read, although its first field is extents, and it is not
reported as no layout either. -/
theorem not_read_too_wide :
    let wide : Text := "9223372036854775808,1,1,1"
    Sized wide ⟨9223372036854775808, 1, 1, 1⟩ ∧ ∀ m : Machine,
      ¬((∃ text reason, parseWithin m wide = .error (.layout text reason)) ∨
        ∃ size pieces, parseWithin m wide = .ok (size, pieces)) := by
  intro wide
  have hfields : wide.fields = [wide] := by decide +kernel
  have hsized : Sized wide ⟨9223372036854775808, 1, 1, 1⟩ := ⟨_, _, hfields, by decide +kernel, by decide⟩
  refine ⟨hsized, fun m => ?_⟩
  have houtline : outline wide = .ok (⟨9223372036854775808, 1, 1, 1⟩, []) := by decide +kernel
  have hrow : checkRow m 9223372036854775808 [] = .error .tooLarge :=
    (checkRow_eq_error_iff (by decide)).2 (.tooLarge (by decide +kernel))
  have hread : parseWithin m wide = .error .tooLarge := by
    rw [parseWithin, houtline, Outcome.ok_bind]
    show (checkRow m 9223372036854775808 [] >>= fun _ => [].forM (checkRow m 9223372036854775808)) >>= _ = _
    rw [hrow]
    rfl
  rw [hread]
  rintro (⟨text, reason, h⟩ | ⟨size, pieces, h⟩) <;> cases h

end Layout

end Hyperchess
