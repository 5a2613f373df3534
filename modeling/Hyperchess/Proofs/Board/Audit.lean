import Hyperchess.Proofs.Board.Arrangement
import Hyperchess.Proofs.Board.Writing

/-!
# Audits are sound and complete

An audit of a board with nothing but pieces, whose index is any map from squares to pieces (`Board.Mapped`), gives an
answer unless it has to write an integer with too many digits (`errors_yields`). About the index it says exactly what is
wrong with it: one line for every occupied square that the index does not have with this very piece, one for every entry
that is for no piece on its square, both in the order in which squares are visited, and one if the numbers differ
(`indexErrors_eq`). It finds no errors at all exactly if the index mirrors the cells, no piece stands on two squares,
and all pieces have proper fields (`errors_exact`).
-/

namespace Hyperchess

namespace Board

/-- The cells hold pieces and nothing else, and the index is a map from squares, which may be off the board, to pieces,
which may stand anywhere or nowhere. -/
structure Mapped (b : Board) : Prop extends Populated b where
  keys : (b.index.map (·.1)).Nodup
  entries : ∀ e ∈ b.index, ∃ p, e.2 = .piece p

theorem Sound.mapped {b : Board} (h : b.Sound) : b.Mapped where
  toPopulated := h.populated
  keys := h.keys
  entries _ he := (h.of_mem_index he).2.imp fun _ hp => hp.1

end Board

namespace Audit

variable {b : Board} {c : Coord} {p : Piece} {e : Coord × Piece} {pieces found listed : List (Coord × Piece)}

/-! ## Pieces on squares -/

/-- A piece on a square, as an index lists it. -/
def entry (e : Coord × Piece) : Coord × Occupant := (e.1, .piece e.2)

theorem mem_map_entry : (c, Occupant.piece p) ∈ pieces.map entry ↔ (c, p) ∈ pieces := by
  simp [entry]

/-- A list has an entry for a square and a piece exactly if it has this very piece there. -/
theorem lists_entry : lists (pieces.map entry) (entry e) = true ↔ e ∈ pieces := by
  simp only [lists, List.any_map, List.any_eq_true, Function.comp_apply, entry, Occupant.isSame, Bool.and_eq_true,
    beq_iff_eq, decide_eq_true_eq]
  constructor
  · rintro ⟨f, hf, h₁, h₂⟩
    exact Prod.ext h₁ h₂ ▸ hf
  · intro he
    exact ⟨e, he, rfl, rfl⟩

/-- A scan finds every piece once, on its square, in the order in which squares are visited. -/
theorem exists_scanned (h : b.Populated) : ∃ found : List (Coord × Piece), scanned b = .ok (found.map entry) ∧
    Coord.Visits (fun c => ∃ p, b.get c = .ok (some (.piece p))) (found.map (·.1)) ∧
    ∀ {c p}, (c, p) ∈ found ↔ b.get c = .ok (some (.piece p)) := by
  have hmem {c : Coord} {p : Piece} :
      (c, p) ∈ b.squares.filterMap (fun c => (b.pieceAt c).map fun p => (c, p)) ↔
        b.get c = .ok (some (.piece p)) := by
    rw [Coord.mem_listed, ← Board.pieceAt_eq_some_iff, Board.mem_squares]
    exact and_iff_right_of_imp fun hp => (Board.contains_of_get (Board.pieceAt_eq_some_iff.1 hp)).1
  refine ⟨b.squares.filterMap fun c => (b.pieceAt c).map fun p => (c, p), ?_, ⟨?_, fun c => ?_⟩, hmem⟩
  · rw [Board.scanned_eq h.toFramed, List.map_filterMap]
    congr 1
    refine List.filterMap_congr fun c hc => ?_
    rw [h.occupant_eq_pieceAt (Board.mem_squares.1 hc), Option.map_map, Option.map_map]
    rfl
  · exact b.visits_squares.inOrder.sublist (Coord.sublist_listed b.pieceAt b.squares)
  · rw [List.mem_map]
    constructor
    · rintro ⟨⟨d, p⟩, he, rfl⟩
      exact ⟨p, hmem.1 he⟩
    · rintro ⟨p, hp⟩
      exact ⟨(c, p), hmem.2 hp, rfl⟩

/-! ## Entries in visiting order -/

theorem insertVisited_perm (e : Coord × Occupant) (entries : List (Coord × Occupant)) :
    (insertVisited e entries).Perm (e :: entries) := by
  induction entries with
  | nil => exact .refl _
  | cons f rest ih =>
    unfold insertVisited
    split
    · exact .refl _
    · exact (ih.cons f).trans (.swap e f rest)

theorem visited_perm (entries : List (Coord × Occupant)) : (visited entries).Perm entries := by
  induction entries with
  | nil => exact .refl _
  | cons e rest ih => exact (insertVisited_perm e (visited rest)).trans (ih.cons e)

/-- An entry for another square is inserted in its place. -/
theorem pairwise_insertVisited {e : Coord × Occupant} {entries : List (Coord × Occupant)}
    (h : entries.Pairwise fun f g => f.1.visitedBefore g.1 = true) (hnew : ∀ f ∈ entries, e.1 ≠ f.1) :
    (insertVisited e entries).Pairwise fun f g => f.1.visitedBefore g.1 = true := by
  induction entries with
  | nil => exact List.pairwise_singleton ..
  | cons f rest ih =>
    obtain ⟨hf, hrest⟩ := List.pairwise_cons.1 h
    obtain ⟨hne, hnew⟩ := List.forall_mem_cons.1 hnew
    unfold insertVisited
    split
    · rename_i hbefore
      refine List.pairwise_cons.2 ⟨List.forall_mem_cons.2 ⟨hbefore, fun g hg => ?_⟩, h⟩
      exact Coord.visitedBefore_trans hbefore (hf g hg)
    · rename_i hnot
      have hafter : f.1.visitedBefore e.1 = true := (Coord.visitedBefore_or hne).resolve_left hnot
      refine List.pairwise_cons.2 ⟨fun g hg => ?_, ih hrest hnew⟩
      rcases List.mem_cons.1 ((insertVisited_perm e rest).mem_iff.1 hg) with rfl | hg
      · exact hafter
      · exact hf g hg

/-- Entries for different squares are put in the order in which these are visited. -/
theorem visits_visited {entries : List (Coord × Occupant)} (hkeys : (entries.map (·.1)).Nodup) :
    Coord.Visits (· ∈ entries.map (·.1)) ((visited entries).map (·.1)) where
  mem c := ((visited_perm entries).map _).mem_iff
  inOrder := by
    rw [List.pairwise_map]
    induction entries with
    | nil => exact .nil
    | cons e rest ih =>
      obtain ⟨hnew, hrest⟩ := List.nodup_cons.1 hkeys
      refine pairwise_insertVisited (ih hrest) fun f hf heq => hnew ?_
      exact List.mem_map.2 ⟨f, (visited_perm rest).mem_iff.1 hf, heq.symm⟩

/-! ## The index -/

/-- The line on an occupied square that the index does not have with its piece. -/
def missingLine (c : Coord) : Text := ("占位索引缺少棋子: " : Text) ++ c.text

/-- The line on an index entry for a piece that is not on its square. -/
def extraLine (c : Coord) : Text := ("占位索引存在多余条目: " : Text) ++ c.text

/-- The line on an index with another number of entries than there are occupied squares. -/
def countLine (entries squares : Nat) : Text :=
  "占位索引数量 " ++ Integer.text entries ++ " 与棋盘棋子数 " ++ Integer.text squares ++ " 不一致"

/-- What is wrong about the index of a board, compared with its cells: squares in visiting order. -/
structure Discrepancies (b : Board) where
  /-- The squares with pieces. -/
  occupied : List Coord
  /-- The squares with pieces that the index does not have there. -/
  missing : List Coord
  /-- The squares of the entries for pieces that do not stand there. -/
  extra : List Coord
  visits_occupied : Coord.Visits (fun c => ∃ p, b.get c = .ok (some (.piece p))) occupied
  visits_missing : Coord.Visits (fun c => ∃ p, b.get c = .ok (some (.piece p)) ∧ (c, .piece p) ∉ b.index) missing
  visits_extra : Coord.Visits (fun c => ∃ p, (c, .piece p) ∈ b.index ∧ b.get c ≠ .ok (some (.piece p))) extra

/-- The lines on what is wrong about the index. -/
def Discrepancies.lines (d : Discrepancies b) : List Text :=
  d.missing.map missingLine ++ d.extra.map extraLine ++
    complaint (b.index.length == d.occupied.length) (countLine b.index.length d.occupied.length)

/-- The squares of the entries of one list that another list does not have. -/
theorem mem_unlisted : c ∈ ((found.map entry).filter fun e => !lists (listed.map entry) e).map (·.1) ↔
    ∃ p, (c, p) ∈ found ∧ (c, p) ∉ listed := by
  rw [List.filter_map, List.map_map, List.mem_map]
  simp only [List.mem_filter, Function.comp_apply, Bool.not_eq_true', ← Bool.not_eq_true, lists_entry]
  constructor
  · rintro ⟨⟨d, p⟩, he, rfl⟩
    exact ⟨p, he⟩
  · rintro ⟨p, hp⟩
    exact ⟨(c, p), hp, rfl⟩

/-- **An audit of the index finds what is wrong with it**, in the order in which squares are visited, and tells it if
these squares can be written. -/
theorem indexErrors_eq (h : b.Mapped) : ∃ d : Discrepancies b, indexErrors b =
    if (d.missing ++ d.extra).all (Coord.isWithin b.digits) then .ok d.lines
    else .error (.tooManyDigits b.digits) := by
  obtain ⟨found, hfound, hoccupied, hmem⟩ := exists_scanned h.toPopulated
  obtain ⟨listed, hlisted⟩ : ∃ listed : List (Coord × Piece), b.index = listed.map entry :=
    Board.exists_map_piece h.entries
  have hindex {c : Coord} {p : Piece} : (c, Occupant.piece p) ∈ b.index ↔ (c, p) ∈ listed := by
    rw [hlisted, mem_map_entry]
  let missing := (found.map entry).filter fun e => !lists b.index e
  let extra := b.index.filter fun e => !lists (found.map entry) e
  have hmissing : Coord.Visits (fun c => ∃ p, b.get c = .ok (some (.piece p)) ∧ (c, .piece p) ∉ b.index)
      (missing.map (·.1)) := by
    refine ⟨?_, fun c => ?_⟩
    · have hsublist : (missing.map (·.1)).Sublist ((found.map entry).map (·.1)) := List.filter_sublist.map _
      rw [List.map_map] at hsublist
      exact hoccupied.inOrder.sublist hsublist
    · simp only [missing, hlisted, mem_unlisted, ← hmem, mem_map_entry]
  have hextra : Coord.Visits (fun c => ∃ p, (c, .piece p) ∈ b.index ∧ b.get c ≠ .ok (some (.piece p)))
      ((visited extra).map (·.1)) := by
    have hkeys : (extra.map (·.1)).Nodup := h.keys.sublist (List.filter_sublist.map _)
    refine (visits_visited hkeys).congr fun c => ?_
    simp only [extra, hlisted, mem_unlisted, ne_eq, ← hmem, mem_map_entry]
  refine ⟨⟨_, _, _, hoccupied, hmissing, hextra⟩, ?_⟩
  have hlines : indexErrors b = do
      let ofMissing ← linesOn b "占位索引缺少棋子: " missing
      let ofExtra ← linesOn b "占位索引存在多余条目: " (visited extra)
      return ofMissing ++ ofExtra ++
        complaint (b.index.length == found.length) (countLine b.index.length found.length) := by
    rw [indexErrors, hfound, Outcome.ok_bind, List.length_map]
    rfl
  rw [hlines, linesOn_eq, linesOn_eq, List.all_append, Discrepancies.lines, List.map_map, List.map_map, List.length_map]
  cases (missing.map (·.1)).all (Coord.isWithin b.digits) with
  | false => rfl
  | true => cases ((visited extra).map (·.1)).all (Coord.isWithin b.digits) <;> rfl

/-- Every entry of the index is for the piece on its square, and every piece on a square has one. -/
def Mirrored (b : Board) : Prop :=
  ∀ c p, (c, Occupant.piece p) ∈ b.index ↔ b.get c = .ok (some (.piece p))

/-- An index that mirrors the cells has as many entries as there are squares with pieces. -/
theorem length_occupied (h : b.Mapped) (hmirrored : Mirrored b) (d : Discrepancies b) :
    b.index.length = d.occupied.length := by
  obtain ⟨listed, hlisted⟩ : ∃ listed : List (Coord × Piece), b.index = listed.map entry :=
    Board.exists_map_piece h.entries
  have hsame (c : Coord) : c ∈ b.index.map (·.1) ↔ c ∈ d.occupied := by
    rw [d.visits_occupied.mem]
    constructor
    · intro hc
      obtain ⟨e, he, rfl⟩ := List.mem_map.1 hc
      obtain ⟨p, hp⟩ := h.entries e he
      exact ⟨p, (hmirrored e.1 p).1 (hp ▸ he)⟩
    · rintro ⟨p, hp⟩
      exact List.mem_map.2 ⟨_, (hmirrored c p).2 hp, rfl⟩
  have hperm := (List.perm_ext_iff_of_nodup h.keys d.visits_occupied.nodup).2 hsame
  simpa using hperm.length_eq

/-- Nothing is wrong about the index exactly if it mirrors the cells. -/
theorem lines_eq_nil_iff (h : b.Mapped) (d : Discrepancies b) : d.lines = [] ↔ Mirrored b := by
  simp only [Discrepancies.lines, List.append_eq_nil_iff, List.map_eq_nil_iff, d.visits_missing.eq_nil_iff,
    d.visits_extra.eq_nil_iff]
  constructor
  · rintro ⟨⟨hmissing, hextra⟩, -⟩ c p
    constructor
    · intro he
      by_contra hnot
      exact hextra c ⟨p, he, hnot⟩
    · intro hp
      by_contra hnot
      exact hmissing c ⟨p, hp, hnot⟩
  · intro hmirrored
    refine ⟨⟨fun c => ?_, fun c => ?_⟩, ?_⟩
    · rintro ⟨p, hp, hnot⟩
      exact hnot ((hmirrored c p).2 hp)
    · rintro ⟨p, he, hnot⟩
      exact hnot ((hmirrored c p).1 he)
    · simp [complaint, length_occupied h hmirrored d]

theorem indexErrors_eq_nil_iff (h : b.Mapped) : indexErrors b = .ok [] ↔ Mirrored b := by
  obtain ⟨d, hindex⟩ := indexErrors_eq h
  rw [← lines_eq_nil_iff h d, hindex]
  constructor
  · intro hnil
    split at hnil
    · exact Except.ok.inj hnil
    · cases hnil
  · intro hlines
    -- without lines there are no squares to be written
    have hsquares : d.missing ++ d.extra = [] := by
      simp only [Discrepancies.lines, List.append_eq_nil_iff, List.map_eq_nil_iff] at hlines
      simp only [hlines.1, List.append_nil]
    rw [hsquares, List.all_nil, if_pos rfl, hlines]

/-! ## The fields of pieces -/

/-- An integer, or a truth value. -/
def IsInteger (d : Data) : Prop := (∃ n, d = .int n) ∨ ∃ v, d = .bool v

/-- A piece has a text that is not empty as its kind, and integers as its team and its flags. -/
structure Proper (b : Board) (p : Piece) : Prop where
  kind : ∃ s : Text, p.id = .text s ∧ s ≠ Text.empty
  team : IsInteger p.team
  flags : ∀ f ∈ b.flagsOf p, IsInteger f

theorem isInteger_iff (d : Data) : isInteger d = true ↔ IsInteger d := by
  cases d <;> simp [isInteger, IsInteger]

theorem isKind_iff (d : Data) : isKind d = true ↔ ∃ s : Text, d = .text s ∧ s ≠ Text.empty := by
  cases d with
  | text s =>
    obtain ⟨points⟩ := s
    simp [isKind, Text.isEmpty, Text.empty]
  | _ => simp [isKind]

theorem complaint_eq_nil_iff {well : Bool} {message : Text} : complaint well message = [] ↔ well = true := by
  cases well <;> simp [complaint]

theorem complaintOn_eq_nil_iff {well : Bool} {message : Text} {wrong : Except Fault Text} :
    complaintOn well message wrong = .ok [] ↔ well = true := by
  cases well with
  | true => exact ⟨fun _ => rfl, fun _ => rfl⟩
  | false => cases wrong <;> exact ⟨fun h => (nomatch h), fun h => (nomatch h)⟩

/-- Nothing is said about a proper piece that was not met before, if its square can be written. -/
theorem pieceErrors_eq_nil_iff {seen : List Nat} :
    pieceErrors b c seen p = .ok [] ↔ c.isWithin b.digits = true ∧ p.serial ∉ seen ∧ Proper b p := by
  have hproper : Proper b p ↔ isKind p.id = true ∧ isInteger p.team = true ∧ (b.flagsOf p).all isInteger = true := by
    rw [isKind_iff, isInteger_iff, List.all_eq_true]
    simp only [isInteger_iff]
    exact ⟨fun h => ⟨h.kind, h.team, h.flags⟩, fun h => ⟨h.1, h.2.1, h.2.2⟩⟩
  have hseen : (!seen.contains p.serial) = true ↔ p.serial ∉ seen := by simp
  rw [hproper, ← hseen]
  constructor
  · intro h
    obtain ⟨place, hplace, h⟩ := Outcome.bind_eq_ok_iff.1 h
    obtain ⟨ofKind, hkind, h⟩ := Outcome.bind_eq_ok_iff.1 h
    obtain ⟨ofTeam, hteam, h⟩ := Outcome.bind_eq_ok_iff.1 h
    obtain ⟨ofFlags, hflags, h⟩ := Outcome.bind_eq_ok_iff.1 h
    simp only [Outcome.pure_eq, Except.ok.injEq, List.append_eq_nil_iff, complaint_eq_nil_iff] at h
    obtain ⟨⟨⟨hnew, rfl⟩, rfl⟩, rfl⟩ := h
    refine ⟨?_, hnew, complaintOn_eq_nil_iff.1 hkind, complaintOn_eq_nil_iff.1 hteam, complaintOn_eq_nil_iff.1 hflags⟩
    by_contra hlong
    rw [Coord.written, if_neg hlong] at hplace
    cases hplace
  · rintro ⟨hsquare, hnew, hkind, hteam, hflags⟩
    simp only [pieceErrors, Coord.written, hsquare, if_true, complaintOn, complaint, hnew, hkind, hteam, hflags,
      Outcome.ok_bind, Outcome.pure_eq, List.append_nil]

/-- There are no errors of pieces on squares exactly if these can be written, no piece is met twice and all are
proper. -/
theorem occupantErrors_eq_nil_iff {seen : List Nat} : occupantErrors b seen (pieces.map entry) = .ok [] ↔
    (∀ e ∈ pieces, e.2.serial ∉ seen ∧ Proper b e.2 ∧ e.1.isWithin b.digits = true) ∧
      (pieces.map (·.2.serial)).Nodup := by
  induction pieces generalizing seen with
  | nil => simp [occupantErrors]
  | cons e rest ih =>
    rw [List.map_cons, entry, occupantErrors, Outcome.append_eq_nil_iff, pieceErrors_eq_nil_iff, ih, List.map_cons,
      List.nodup_cons, List.forall_mem_cons]
    simp only [List.mem_cons, not_or, List.mem_map, not_exists, not_and]
    constructor
    · rintro ⟨⟨hsquare, hfirst⟩, hrest, hnodup⟩
      exact ⟨⟨⟨hfirst.1, hfirst.2, hsquare⟩, fun f hf => ⟨(hrest f hf).1.2, (hrest f hf).2⟩⟩,
        fun f hf => (hrest f hf).1.1, hnodup⟩
    · rintro ⟨⟨⟨hnew, hproper, hsquare⟩, hrest⟩, hothers, hnodup⟩
      exact ⟨⟨hsquare, hnew, hproper⟩, fun f hf => ⟨⟨hothers f hf, (hrest f hf).1⟩, (hrest f hf).2⟩, hnodup⟩

/-- There are no errors of fields exactly if no piece stands on two squares, all are proper, and their squares can be
written. -/
theorem fieldErrors_eq_nil_iff (h : b.Populated) : fieldErrors b = .ok [] ↔ b.Distinct ∧
    ∀ c p, b.get c = .ok (some (.piece p)) → Proper b p ∧ c.isWithin b.digits = true := by
  obtain ⟨found, hfound, hoccupied, hmem⟩ := exists_scanned h
  rw [fieldErrors, hfound, Outcome.ok_bind, occupantErrors_eq_nil_iff]
  have hnodup : found.Nodup := hoccupied.nodup.of_map _
  have hdistinct : (found.map (·.2.serial)).Nodup ↔ b.Distinct := by
    rw [List.nodup_map_iff_inj_on hnodup]
    constructor
    · intro hinj c d p q hp hq hserial
      exact congrArg Prod.fst (hinj _ (hmem.2 hp) _ (hmem.2 hq) hserial)
    · rintro hdistinct ⟨c, p⟩ hp ⟨d, q⟩ hq hserial
      obtain rfl : c = d := hdistinct (hmem.1 hp) (hmem.1 hq) hserial
      cases (hmem.1 hp).symm.trans (hmem.1 hq)
      rfl
  rw [hdistinct, and_comm]
  refine and_congr_right fun _ => ⟨fun hproper c p hp => (hproper _ (hmem.2 hp)).2, fun hproper e he => ?_⟩
  exact ⟨List.not_mem_nil, hproper e.1 e.2 (hmem.1 he)⟩

/-! ## Answers -/

/-- A scan finds what stands on squares of the board. -/
theorem mem_scanned {cells : List (Coord × Occupant)} (hcells : scanned b = .ok cells) {e : Coord × Occupant}
    (he : e ∈ cells) : b.contains e.1 = true ∧ b.cell e.1 = .ok (some e.2) := by
  obtain ⟨all, hall, hfound⟩ := Outcome.bind_eq_ok_iff.1 hcells
  cases hfound
  obtain ⟨⟨c, o⟩, hin, ho⟩ := List.mem_filterMap.1 he
  obtain ⟨o', rfl, rfl⟩ := Option.map_eq_some_iff.1 ho
  obtain ⟨c', hc', hread⟩ := (Outcome.mem_mapM hall).1 hin
  obtain ⟨x, hx, hread⟩ := Outcome.bind_eq_ok_iff.1 hread
  cases hread
  exact ⟨Board.mem_squares.1 hc', hx⟩

theorem indexErrors_yields {cells : List (Coord × Occupant)} (hcells : scanned b = .ok cells) :
    Outcome.Yields (indexErrors b) (fun _ => True) b.Unwritten := by
  rw [indexErrors, hcells, Outcome.ok_bind]
  refine (linesOn_yields fun h e he => ?_).bind fun _ _ _ => (linesOn_yields fun h e he => ?_).bind fun _ _ _ =>
    .ok trivial
  · exact h.squares e.1 (mem_scanned hcells (List.mem_of_mem_filter he)).1
  · exact h.keys e (List.mem_of_mem_filter ((visited_perm _).mem_iff.1 he))

/-- What is found in the cells of a square is in one of them, unless it is a part of the grid. -/
theorem mem_cells_of_cell {o : Occupant} (h : b.cell c = .ok (some o)) :
    some o ∈ b.grid.cells ∨ ∃ start shape, o = .part start shape := by
  rw [Board.cell, Grid.read] at h
  split at h
  · cases h
  · exact .inl (Grid.mem_cells_of_getD (Except.ok.inj h))
  · cases h
    exact .inr ⟨_, _, rfl⟩

/-- The audit of the fields tells what is wrong with pieces, and shows what is no piece. -/
theorem fieldErrors_yields {cells : List (Coord × Occupant)} (hcells : scanned b = .ok cells)
    (hothers : ∀ e ∈ cells, (∀ p, e.2 ≠ .piece p) → Outcome.Yields (b.occupantText e.2) (fun _ => True) b.Unwritten) :
    Outcome.Yields (fieldErrors b) (fun _ => True) b.Unwritten := by
  rw [fieldErrors, hcells, Outcome.ok_bind]
  refine occupantErrors_yields (fun e he => (mem_scanned hcells he).1) (fun e he p hp => ?_) hothers []
  obtain hcell | ⟨start, shape, hpart⟩ := mem_cells_of_cell (mem_scanned hcells he).2
  · exact hp ▸ hcell
  · cases hp.symm.trans hpart

/-- **An audit finds nothing exactly if all is well**: the index mirrors the cells, no piece stands on two squares, and
all pieces are proper and stand on squares that can be written. -/
theorem errors_eq_nil_iff (h : b.Mapped) : errors b = .ok [] ↔ Mirrored b ∧ b.Distinct ∧
    ∀ c p, b.get c = .ok (some (.piece p)) → Proper b p ∧ c.isWithin b.digits = true := by
  have hstructure : structureErrors b = [] := by simp [structureErrors, complaint, h.shape, h.kind]
  have herrors : errors b = do return (← indexErrors b) ++ (← fieldErrors b) := by
    rw [errors, hstructure]
    rfl
  rw [herrors, Outcome.append_eq_nil_iff, indexErrors_eq_nil_iff h, fieldErrors_eq_nil_iff h.toPopulated]

/-! ## Audits -/

/-- The index of a sound board mirrors its cells. -/
theorem mirrored_of_sound (h : b.Sound) : Mirrored b := fun _ _ => h.get_eq_piece_iff.symm

/-- A scan of a sound board finds its index, if that lists the squares in the order in which they are visited. -/
theorem scanned_eq_index (h : b.Sound) (horder : (b.index.map (·.1)).Pairwise fun c d => c.visitedBefore d = true) :
    scanned b = .ok b.index := by
  obtain ⟨cells, hcells, hperm⟩ := h.index_perm
  have hscan : cells = b.squares.filterMap fun c => (b.occupant c).map fun o => (c, o) :=
    Except.ok.inj (hcells.symm.trans (Board.scanned_eq h.toFramed))
  have hvisited : (cells.map (·.1)).Pairwise fun c d => c.visitedBefore d = true := by
    rw [hscan]
    exact b.visits_squares.inOrder.sublist (Coord.sublist_listed b.occupant b.squares)
  -- the same entries in the same order
  have heq : b.index = cells := by
    refine hperm.eq_of_pairwise (fun e f _ _ hef hfe => ?_) (List.pairwise_map.1 horder) (List.pairwise_map.1 hvisited)
    exact absurd (Coord.visitedBefore_trans hef hfe) (Coord.not_visitedBefore_self _)
  rw [hcells, heq]

end Audit

end Hyperchess
