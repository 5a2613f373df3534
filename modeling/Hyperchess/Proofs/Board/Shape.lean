import Hyperchess.Proofs.Board.Audit
import Hyperchess.Proofs.Safety.Decision

/-!
# Grids of the wrong shape

All squares of a board can be visited exactly if its grid has at least four axes and these are long enough for the size
(`Board.Covered`, `Board.contents_of_covered`, `Board.contents_of_not_covered`). Of such a grid everything that is found
can be shown, parts of it included, as long as no integer is too long (`Board.occupantText_yields`). So audits of a
board with a grid of any shape give an answer exactly if the grid covers the board, and the answer then has the line on
the shape if that is not the one the size calls for (`Audit.audit_exact`).
-/

namespace Hyperchess

/-! ## Addresses in a shape -/

namespace Grid

variable {shape address : List Nat}

/-- An address leads somewhere exactly if its entries are below the first extents. -/
theorem exists_locate_iff : (∃ r, locate shape address = some r) ↔
    ∃ front more, shape = front ++ more ∧ List.Forall₂ (· < ·) address front := by
  induction address generalizing shape with
  | nil => exact ⟨fun _ => ⟨[], shape, rfl, .nil⟩, fun _ => ⟨_, locate_nil shape⟩⟩
  | cons i address ih =>
    constructor
    · rintro ⟨⟨k, rest⟩, h⟩
      cases shape with
      | nil => cases h
      | cons n shape =>
        obtain ⟨hi, j, hj, -⟩ := locate_cons h
        obtain ⟨front, more, rfl, hfront⟩ := ih.1 ⟨_, hj⟩
        exact ⟨n :: front, more, rfl, .cons hi hfront⟩
    · rintro ⟨front, more, rfl, h⟩
      cases h with
      | @cons _ n _ front hi hfront =>
        obtain ⟨r, hr⟩ := ih.2 ⟨front, more, rfl, hfront⟩
        exact ⟨_, by rw [List.cons_append, locate, if_pos hi, hr, Option.map_some]⟩

theorem forall₂_lt_trans {xs ys zs : List Nat} (h : List.Forall₂ (· < ·) xs ys) (k : List.Forall₂ (· ≤ ·) ys zs) :
    List.Forall₂ (· < ·) xs zs := by
  induction h generalizing zs with
  | nil =>
    cases k
    exact .nil
  | cons hx _ ih =>
    cases k with
    | cons hy k => exact .cons (Nat.lt_of_lt_of_le hx hy) (ih k)

/-- Reading fails only where an address leads nowhere. -/
theorem read_eq_error {g : Grid} {e : Fault} (h : g.read address = .error e) :
    e = .badAddress ∧ locate g.shape address = none := by
  unfold read at h
  split at h
  · rename_i hnowhere
    cases h
    exact ⟨rfl, hnowhere⟩
  · cases h
  · cases h

theorem exists_locate_of_read {g : Grid} {o : Option Occupant} (h : g.read address = .ok o) :
    ∃ r, locate g.shape address = some r := by
  unfold read at h
  split at h
  · cases h
  · exact ⟨_, ‹_›⟩
  · exact ⟨_, ‹_›⟩

end Grid

/-! ## Visiting all squares -/

namespace Board

variable {b : Board} {c : Coord}

/-- The grid has a cell, or cells, for every square: its first axes are as long as the extents of the board, or longer.
If one of the extents is zero there are no squares. -/
def Covered (b : Board) : Prop :=
  0 ∈ shapeOf b.size ∨
    ∃ front more, b.grid.shape = front ++ more ∧ List.Forall₂ (· ≤ ·) (shapeOf b.size) front

/-- The square that is farthest from the origin. -/
def corner (b : Board) : Coord := ⟨b.size.x - 1, b.size.y - 1, b.size.z - 1, b.size.w - 1⟩

theorem zero_mem_shapeOf_iff {size : Coord} :
    0 ∈ shapeOf size ↔ size.w ≤ 0 ∨ size.z ≤ 0 ∨ size.y ≤ 0 ∨ size.x ≤ 0 := by
  simp only [shapeOf, address, Coord.nested, List.map_cons, List.map_nil, List.mem_cons, List.not_mem_nil, or_false]
  omega

theorem contains_corner (h : 0 ∉ shapeOf b.size) : b.contains b.corner = true := by
  rw [zero_mem_shapeOf_iff] at h
  rw [contains_iff]
  simp only [corner]
  omega

/-- What is beyond the corner is beyond the board. -/
theorem shapeOf_le_of_corner {front : List Nat} (h : List.Forall₂ (· < ·) (address b.corner) front) :
    List.Forall₂ (· ≤ ·) (shapeOf b.size) front := by
  simp only [address, Coord.nested, List.map_cons, List.map_nil, corner] at h
  simp only [shapeOf, address, Coord.nested, List.map_cons, List.map_nil]
  rcases h with _ | ⟨hw, _ | ⟨hz, _ | ⟨hy, _ | ⟨hx, _ | _⟩⟩⟩⟩
  exact .cons (by omega) (.cons (by omega) (.cons (by omega) (.cons (by omega) .nil)))

theorem cell_of_covered (h : b.Covered) (hc : b.contains c = true) : ∃ o, b.cell c = .ok o := by
  have hbelow := address_lt hc
  rcases h with hzero | ⟨front, more, hshape, hfront⟩
  · rw [zero_mem_shapeOf_iff] at hzero
    rw [contains_iff] at hc
    omega
  · have hfits : List.Forall₂ (· < ·) (address c) front := Grid.forall₂_lt_trans hbelow hfront
    obtain ⟨r, hr⟩ := Grid.exists_locate_iff.2 ⟨front, more, hshape, hfits⟩
    cases hcell : b.cell c with
    | ok o => exact ⟨o, rfl⟩
    | error e => cases (Grid.read_eq_error hcell).2.symm.trans hr

/-- Where the grid covers the board, every square is visited. -/
theorem contents_of_covered (h : b.Covered) : ∃ cells, b.contents = .ok cells := by
  refine Outcome.exists_mapM fun c hc => ?_
  obtain ⟨o, ho⟩ := cell_of_covered h (mem_squares.1 hc)
  exact ⟨(c, o), by rw [ho, Outcome.ok_bind]; rfl⟩

/-- Elsewhere the visit ends at a square without a cell. -/
theorem contents_of_not_covered (h : ¬b.Covered) : b.contents = .error .badAddress := by
  cases hcontents : b.contents with
  | error e =>
    obtain ⟨c, -, hfail⟩ := Outcome.exists_of_mapM_eq_error hcontents
    cases hcell : b.cell c with
    | ok o =>
      rw [hcell] at hfail
      cases hfail
    | error e' =>
      rw [hcell] at hfail
      cases hfail
      rw [(Grid.read_eq_error hcell).1]
  | ok cells =>
    have hzero : 0 ∉ shapeOf b.size := fun hzero => h (.inl hzero)
    obtain ⟨r, hr⟩ := Outcome.exists_of_mapM hcontents _ (mem_squares.2 (contains_corner hzero))
    obtain ⟨o, ho, -⟩ := Outcome.bind_eq_ok_iff.1 hr
    obtain ⟨front, more, hshape, hfront⟩ := Grid.exists_locate_iff.1 (Grid.exists_locate_of_read ho)
    exact absurd (.inr ⟨front, more, hshape, shapeOf_le_of_corner hfront⟩) h

/-! ## Showing what is found -/

/-- What is known about the pieces of a board is of the right type: their flags are integers, and the index lists pieces
with integers as teams and with kinds that are no lists or maps. The grid may hold anything. -/
structure Typed (b : Board) : Prop where
  flags : ∀ p, ∀ f ∈ b.flagsOf p, Audit.isInteger f = true
  entries : ∀ e ∈ b.index, ∃ p, e.2 = .piece p ∧ Audit.isInteger p.team = true ∧ p.id.isKey = true

theorem cellText_yields (h : b.Typed) {o : Option Occupant} (ho : b.Writable → ∀ x, o = some x → b.Legible x) :
    Outcome.Yields (b.cellText o) (fun _ => True) b.Unwritten := by
  unfold cellText
  split
  · exact .ok trivial
  · rename_i p
    have hsorted : Data.areComparable (b.flagsOf p) = true := by
      refine Data.areComparable_iff.2 (List.pairwise_of_forall_mem_list fun f hf g hg => ?_)
      exact isComparable_of_isInteger (h.flags p f hf) (h.flags p g hg)
    obtain ⟨sorted, hsorted⟩ : ∃ sorted, Data.sorted? (b.flagsOf p) = some sorted := ⟨_, if_pos hsorted⟩
    have hflags (hw : b.Writable) : (Data.list sorted).isWithin b.digits = true :=
      Data.areWithin_iff.2 fun f hf => (ho hw _ rfl).2.2 f ((Data.mem_of_sorted? hsorted).1 hf)
    rw [pieceLiteral, Flags.sorted, hsorted]
    refine (data_yields fun hw => (ho hw _ rfl).1).bind fun _ _ _ => ?_
    dsimp only
    split
    · exact (data_yields hflags).bind fun _ _ _ => .ok trivial
    · rename_i hlong
      exact .error ⟨rfl, fun hw => hlong (ho hw _ rfl).2.1⟩
  · exact (data_yields fun hw => ho hw _ rfl).bind fun _ _ _ => .ok trivial
  · exact data_yields fun hw => ho hw _ rfl
  · exact .ok trivial
  · exact .ok trivial

end Board

namespace Grid

variable {word : Nat → Except Fault Text} {R : Fault → Prop}

/-- Cells in brackets fail only as single cells do. -/
theorem brackets_yields (h : ∀ place, Outcome.Yields (word place) (fun _ => True) R) (short : Bool) (shape : List Nat)
    (start width : Nat) (indent : Text) :
    Outcome.Yields (brackets short word shape start width indent) (fun _ => True) R := by
  match shape with
  | [] => exact h start
  | [n] =>
    rw [brackets]
    refine (Outcome.Yields.mapM (Q := fun _ => True) fun i _ => ?_).bind fun _ _ _ => .ok trivial
    cases i with
    | none => exact .ok trivial
    | some i => exact h _
  | n :: m :: shape =>
    rw [brackets]
    refine (Outcome.Yields.mapM (Q := fun _ => True) fun i _ => ?_).bind fun _ _ _ => .ok trivial
    cases i with
    | none => exact .ok trivial
    | some i => exact brackets_yields h short (m :: shape) ..

theorem partText_yields {g : Grid} {cell : Option Occupant → Except Fault Text}
    (h : ∀ place, Outcome.Yields (cell (g.cells.getD place none)) (fun _ => True) R) (start : Nat) (shape : List Nat) :
    Outcome.Yields (g.partText cell start shape) (fun _ => True) R := by
  have hword (width place : Nat) : Outcome.Yields (g.cellWord cell width place) (fun _ => True) R := by
    unfold cellWord
    split
    · exact h place
    · exact .ok trivial
  unfold partText
  extract_lets short widest word behind
  have hbehind (body : Text) : Outcome.Yields (behind body) (fun _ => True) R := by
    unfold behind
    extract_lets front
    split <;> exact .ok trivial
  split
  · exact hbehind _
  · exact (brackets_yields (hword widest) ..).bind fun body _ _ => hbehind body

end Grid

namespace Board

variable {b : Board}

/-- Whatever is found on a square of a board with pieces of the right types is shown, unless an integer is too long. -/
theorem occupantText_yields (h : b.Typed) {o : Occupant} (ho : b.Writable → b.Legible o) :
    Outcome.Yields (b.occupantText o) (fun _ => True) b.Unwritten := by
  have hcell := cellText_yields h (o := some o) fun hw _ hx => Option.some.inj hx ▸ ho hw
  cases o with
  | value serial d => exact data_yields ho
  | part start shape =>
    refine Grid.partText_yields (fun place => cellText_yields h fun hw x hx => ?_) start shape
    exact hw.cells x (Grid.mem_cells_of_getD hx)
  | piece p => exact hcell
  | word n => exact hcell

end Board

namespace Audit

variable {b : Board} {v : Variant}

/-! ## Audits -/

/-- The line on a grid that has another shape than the size calls for. -/
def shapeLine (b : Board) : Text :=
  "棋盘数组形状错误: " ++ Grid.tuple b.grid.shape ++ ", 应为" ++ Grid.tuple (Board.shapeOf b.size)

theorem shapeLine_mem (h : b.grid.shape ≠ Board.shapeOf b.size) : shapeLine b ∈ structureErrors b := by
  refine List.mem_append_left _ ?_
  rw [complaint, if_neg (by simpa using h)]
  exact List.mem_cons_self

/-- The parts of an audit look at all squares, and at nothing else that could stop them but integers with too many
digits. -/
theorem parts_yield (h : b.Typed) (hcovered : b.Covered) :
    Outcome.Yields (indexErrors b) (fun _ => True) b.Unwritten ∧
      Outcome.Yields (fieldErrors b) (fun _ => True) b.Unwritten := by
  obtain ⟨cells, hcells⟩ := Board.contents_of_covered hcovered
  obtain ⟨found, hfound⟩ : ∃ found, scanned b = .ok found := Outcome.exists_bind ⟨cells, hcells⟩ fun _ => ⟨_, rfl⟩
  refine ⟨indexErrors_yields hfound, fieldErrors_yields hfound fun e he _ => ?_⟩
  refine Board.occupantText_yields h fun hw => ?_
  obtain hcell | ⟨start, shape, hpart⟩ := mem_cells_of_cell (mem_scanned hfound he).2
  · exact hw.cells e.2 hcell
  · rw [hpart]
    trivial

theorem indexErrors_of_not_covered (hcovered : ¬b.Covered) : indexErrors b = .error .badAddress := by
  rw [indexErrors, scanned, Board.contents_of_not_covered hcovered]
  rfl

/-- Teams that are integers can be sorted. -/
theorem exists_teams (h : b.Typed) : ∃ teams, b.teams = .ok teams := by
  obtain ⟨all, hall⟩ : ∃ all, (b.index.mapM fun e => Board.teamOf e.2) = .ok all := by
    refine Outcome.exists_mapM fun e he => ?_
    obtain ⟨p, hp, hteam, -⟩ := h.entries e he
    exact ⟨p.team, by rw [hp, Board.teamOf_piece, if_pos (Board.isKey_of_isInteger hteam)]⟩
  have hinteger : ∀ t ∈ all, isInteger t = true := by
    intro t ht
    obtain ⟨e, he, hte⟩ := (Outcome.mem_mapM hall).1 ht
    obtain ⟨p, hp, hteam, -⟩ := h.entries e he
    rw [hp, Board.teamOf_piece] at hte
    split at hte
    · cases hte
      exact hteam
    · cases hte
  obtain ⟨sorted, hsorted⟩ : ∃ sorted, Data.sorted? (Data.distinct all) = some sorted :=
    Data.exists_sorted?_iff.2 fun s hs t ht _ => Board.isComparable_of_isInteger (hinteger s hs) (hinteger t ht)
  rw [Board.teams, hall, Outcome.ok_bind, hsorted]
  exact ⟨_, rfl⟩

theorem exists_indexedPieces (h : b.Typed) :
    ∃ listed, b.indexedPieces = .ok listed ∧ ∀ e ∈ listed, e.2.id.isKey = true := by
  obtain ⟨listed, hlisted⟩ : ∃ listed, b.indexedPieces = .ok listed := by
    refine Outcome.exists_mapM fun e he => ?_
    obtain ⟨p, hp, -⟩ := h.entries e he
    exact ⟨(e.1, p), by rw [hp]; rfl⟩
  refine ⟨listed, hlisted, fun e he => ?_⟩
  obtain ⟨f, hf, hfe⟩ := (Outcome.mem_mapM hlisted).1 he
  obtain ⟨p, hp, -, hkey⟩ := h.entries f hf
  rw [hp] at hfe
  cases hfe
  exact hkey

theorem exists_royalCounts (h : b.Typed) (v : Variant) : ∃ counts, royalCounts b v = .ok counts := by
  refine Outcome.exists_bind (exists_teams h) fun teams => ?_
  obtain ⟨listed, hlisted, hkinds⟩ := exists_indexedPieces h
  rw [hlisted, Outcome.ok_bind]
  obtain ⟨counts, hcounts, -⟩ := Outcome.foldlM_invariant (f := fun counts (e : Coord × Piece) => do
      return if ← v.isRoyal e.2.id then increment counts e.2.team else counts)
    (fun rest _ => ∀ e ∈ rest, e.2.id.isKey = true)
    (fun e rest counts hrest => ⟨_, by rw [Variant.isRoyal, if_pos (hrest e List.mem_cons_self)]; rfl,
      fun f hf => hrest f (List.mem_cons_of_mem e hf)⟩) hkinds
  exact ⟨counts, hcounts⟩

/-- An audit that ends has looked at the shape. -/
theorem shapeLine_mem_of_errors (h : b.grid.shape ≠ Board.shapeOf b.size) {found : List Text}
    (hfound : errors b = .ok found) : shapeLine b ∈ found := by
  obtain ⟨ofIndex, -, hfound⟩ := Outcome.bind_eq_ok_iff.1 hfound
  obtain ⟨ofFields, -, hfound⟩ := Outcome.bind_eq_ok_iff.1 hfound
  cases hfound
  exact List.mem_append_left _ (List.mem_append_left _ (shapeLine_mem h))

theorem shapeLine_mem_of_report (h : b.grid.shape ≠ Board.shapeOf b.size) {r : Report} (hr : report b v = .ok r) :
    shapeLine b ∈ r.ofStructure := by
  obtain ⟨royals, -, hr⟩ := Outcome.bind_eq_ok_iff.1 hr
  obtain ⟨ofIndex, -, hr⟩ := Outcome.bind_eq_ok_iff.1 hr
  obtain ⟨ofFields, -, hr⟩ := Outcome.bind_eq_ok_iff.1 hr
  cases hr
  exact shapeLine_mem h

/-- If the grid does not cover the board, the audit ends at a cell that is not there. -/
theorem errors_of_not_covered (hcovered : ¬b.Covered) : errors b = .error .badAddress := by
  rw [errors, indexErrors_of_not_covered hcovered]
  rfl

/-- A report ends there, too, if the pieces are of the right types. -/
theorem report_of_not_covered (h : b.Typed) (hcovered : ¬b.Covered) : report b v = .error .badAddress := by
  obtain ⟨counts, hcounts⟩ := exists_royalCounts h v
  rw [report, hcounts, Outcome.ok_bind, indexErrors_of_not_covered hcovered]
  rfl

theorem errors_yields_of_covered (h : b.Typed) (hcovered : b.Covered) :
    Outcome.Yields (errors b) (fun _ => True) b.Unwritten := by
  obtain ⟨hindex, hfields⟩ := parts_yield h hcovered
  exact hindex.bind fun _ _ _ => hfields.bind fun _ _ _ => .ok trivial

theorem report_yields_of_covered (h : b.Typed) (hcovered : b.Covered) :
    Outcome.Yields (report b v) (fun _ => True) b.Unwritten := by
  obtain ⟨hindex, hfields⟩ := parts_yield h hcovered
  obtain ⟨counts, hcounts⟩ := exists_royalCounts h v
  rw [report, hcounts, Outcome.ok_bind]
  exact hindex.bind fun _ _ _ => hfields.bind fun _ _ _ => .ok trivial

/-- **Audits of boards with a grid of any shape.** If the grid does not cover the board, the audit ends at a cell that
is not there. If the grid has another shape than the size calls for, every answer has the line on that, and every report
counts it. Where the pieces are of the right types, a report ends in the same way if the grid does not cover the board;
if it does, nothing ends an audit or a report but an integer that has too many digits to be written; so on boards
without such integers there is an answer, and a report, exactly if the grid covers the board. -/
theorem audit_exact (b : Board) (v : Variant) :
    (¬b.Covered → errors b = .error .badAddress) ∧
    (b.grid.shape ≠ Board.shapeOf b.size → (∀ found, errors b = .ok found → shapeLine b ∈ found) ∧
      ∀ r, report b v = .ok r → shapeLine b ∈ r.ofStructure ∧ 0 < r.total) ∧
    (b.Typed → (¬b.Covered → report b v = .error .badAddress) ∧
      (b.Covered → (∀ e, errors b = .error e → e = .tooManyDigits b.digits ∧ ¬b.Writable) ∧
        ∀ e, report b v = .error e → e = .tooManyDigits b.digits ∧ ¬b.Writable) ∧
      (b.Writable → ((∃ found, errors b = .ok found) ↔ b.Covered) ∧ ((∃ r, report b v = .ok r) ↔ b.Covered))) := by
  refine ⟨errors_of_not_covered, fun hshape => ⟨fun found hfound => ?_, fun r hr => ?_⟩, fun htyped =>
    ⟨report_of_not_covered htyped, fun hcovered => ⟨?_, ?_⟩, fun hwritable => ⟨⟨?_, ?_⟩, ?_, ?_⟩⟩⟩
  · exact shapeLine_mem_of_errors hshape hfound
  · have hline := shapeLine_mem_of_report hshape hr
    have hlength : 0 < r.ofStructure.length := List.length_pos_of_mem hline
    refine ⟨hline, ?_⟩
    rw [Report.total]
    omega
  · exact (errors_yields_of_covered htyped hcovered).of_error
  · exact (report_yields_of_covered htyped hcovered).of_error
  · rintro ⟨found, hfound⟩
    by_contra hcovered
    cases hfound.symm.trans (errors_of_not_covered hcovered)
  · exact fun hcovered => Board.exists_of_writable (errors_yields_of_covered htyped hcovered) hwritable
  · rintro ⟨r, hr⟩
    by_contra hcovered
    cases hr.symm.trans (report_of_not_covered htyped hcovered)
  · exact fun hcovered => Board.exists_of_writable (report_yields_of_covered htyped hcovered) hwritable

/-- A row of two squares, with a grid that is longer by one and has five axes: the answer is a line on the shape. -/
theorem audit_exact_long :
    let b : Board := { size := ⟨2, 1, 1, 1⟩, grid := Grid.empty [1, 1, 1, 3, 2] .anything, index := [], flags := #[] }
    b.Typed ∧ b.Writable ∧ ∃ found, errors b = .ok found ∧ shapeLine b ∈ found := by
  intro b
  have htyped : b.Typed := ⟨fun _ f hf => by simp [b, Board.flagsOf] at hf, fun e he => nomatch he⟩
  have hwritable : b.Writable := by
    have hsquares : ∀ c ∈ b.squares, c.isWithin b.digits = true := by decide +kernel
    refine ⟨fun c hc => hsquares c (Board.mem_squares.2 hc), fun e he => (nomatch he), fun o ho => ?_⟩
    simp [b, Grid.empty] at ho
  obtain ⟨-, hline, hends⟩ := audit_exact b ⟨⟨[], none⟩, []⟩
  have hcovered : b.Covered := .inr ⟨[1, 1, 1, 3], [2], rfl, by decide⟩
  obtain ⟨found, hfound⟩ := ((hends htyped).2.2 hwritable).1.2 hcovered
  exact ⟨htyped, hwritable, found, hfound, (hline (by decide)).1 found hfound⟩

/-- A row of two squares with a grid for one: there is no answer, although the shape is wrong. -/
theorem not_audit_total : ¬ ∀ (b : Board), b.grid.shape ≠ Board.shapeOf b.size →
    ∃ found, errors b = .ok found ∧ shapeLine b ∈ found := by
  intro h
  obtain ⟨found, hfound, -⟩ := h
    { size := ⟨2, 1, 1, 1⟩, grid := Grid.empty [1, 1, 1, 1] .anything, index := [], flags := #[] } (by decide)
  cases hfound

end Audit

end Hyperchess
