import Hyperchess.Audit
import Hyperchess.Proofs.Board.Cells
import Hyperchess.Proofs.Coord.Order

/-!
# The index mirrors the cells

A board is sound if its grid has the right shape and holds pieces only, and its index has exactly one entry for every
occupied square (`Sound`). Putting a piece, or nothing, on a square keeps a board sound (`Sound.placed`), and so does a
move (`Sound.moved`); on a sound board both succeed (`put_eq`, `move_eq`). The index of a sound board is a permutation
of what a scan of all cells finds (`Sound.index_perm`).
-/

namespace Hyperchess.Board

variable {b : Board} {c d : Coord} {m : Move}

/-! ## Sound boards -/

/-- The grid has the right shape and holds pieces only, and the index mirrors it. -/
structure Sound (b : Board) : Prop extends Framed b where
  pieces : ∀ {c : Coord} {o : Occupant}, b.contains c = true → b.occupant c = some o → ∃ p, o = .piece p
  keys : (b.index.map (·.1)).Nodup
  mem_index : ∀ {c : Coord} {o : Occupant}, (c, o) ∈ b.index ↔ b.contains c = true ∧ b.occupant c = some o

theorem Sound.populated (h : b.Sound) : b.Populated := ⟨h.toFramed, h.pieces⟩

/-- A square of a sound board is empty or holds a piece. -/
theorem Sound.occupant_eq (h : b.Sound) (hc : b.contains c = true) :
    ∃ p : Option Piece, b.occupant c = p.map .piece :=
  h.populated.occupant_eq hc

/-- An index entry is for a piece. -/
theorem Sound.of_mem_index (h : b.Sound) {e : Coord × Occupant} (he : e ∈ b.index) :
    b.contains e.1 = true ∧ ∃ p, e.2 = .piece p ∧ b.occupant e.1 = some (.piece p) := by
  obtain ⟨hc, ho⟩ := h.mem_index.1 he
  obtain ⟨p, hp⟩ := h.pieces hc ho
  exact ⟨hc, p, hp, hp ▸ ho⟩

/-- What stands on a square, in the words of reading. -/
theorem Sound.get_eq_piece_iff (h : b.Sound) {p : Piece} :
    b.get c = .ok (some (.piece p)) ↔ (c, Occupant.piece p) ∈ b.index := by
  rw [get_eq_ok_iff h.toFramed, h.mem_index]

/-- Being framed is a matter of the size and the grid. -/
theorem Framed.congr {b' : Board} (h : b.Framed) (hs : b'.size = b.size) (hg : b'.grid = b.grid) : b'.Framed := by
  refine ⟨?_, ?_, ?_⟩
  · rw [hg, hs]; exact h.shape
  · rw [hg]; exact h.kind
  · rw [hg]; exact h.room

/-- Having nothing but pieces is a matter of the size and the grid. -/
theorem Populated.congr {b' : Board} (h : b.Populated) (hs : b'.size = b.size) (hg : b'.grid = b.grid) :
    b'.Populated := by
  refine ⟨h.toFramed.congr hs hg, fun hc ho => ?_⟩
  rw [contains_congr hs] at hc
  simp only [occupant, slot, hg] at ho
  exact h.pieces hc ho

/-- Being sound is a matter of the size, the grid and the index. -/
theorem Sound.congr {b' : Board} (h : b.Sound) (hs : b'.size = b.size) (hg : b'.grid = b.grid)
    (hi : b'.index = b.index) : b'.Sound := by
  have hpopulated := h.populated.congr hs hg
  refine ⟨hpopulated.toFramed, hpopulated.pieces, ?_, ?_⟩
  · rw [hi]; exact h.keys
  · intro c o
    have ho : b'.occupant c = b.occupant c := by simp only [occupant, slot, hg]
    rw [hi, contains_congr hs, ho]
    exact h.mem_index

/-! ## Putting -/

/-- The board with something else on a square, in the grid and in the index. -/
def placed (b : Board) (c : Coord) (o : Option Occupant) : Board :=
  { b.withCell c o with
    index := match o with | none => unindexed b.index c | some o => unindexed b.index c ++ [(c, o)] }

@[simp] theorem placed_size (b : Board) (c : Coord) (o : Option Occupant) : (b.placed c o).size = b.size := rfl
@[simp] theorem placed_flags (b : Board) (c : Coord) (o : Option Occupant) : (b.placed c o).flags = b.flags := rfl
@[simp] theorem placed_grid (b : Board) (c : Coord) (o : Option Occupant) :
    (b.placed c o).grid = (b.withCell c o).grid := rfl
@[simp] theorem placed_contains (b : Board) (c d : Coord) (o : Option Occupant) :
    (b.placed c o).contains d = b.contains d := rfl

/-- On the board, putting succeeds. -/
theorem put_eq (h : b.Framed) (hc : b.contains c = true) (o : Option Occupant) :
    b.put c o = .ok (b.occupant c, b.placed c o) := by
  cases o <;> simp [put, cell_eq h hc, write_eq h hc, placed, withCell]

theorem Framed.placed (h : b.Framed) (c : Coord) (o : Option Occupant) : (b.placed c o).Framed :=
  ⟨(h.withCell c o).shape, (h.withCell c o).kind, (h.withCell c o).room⟩

theorem occupant_placed (h : b.Framed) (hc : b.contains c = true) (hd : b.contains d = true) (o : Option Occupant) :
    (b.placed c o).occupant d = if d = c then o else b.occupant d :=
  occupant_withCell h hc hd

theorem mem_unindexed {index : List (Coord × Occupant)} {e : Coord × Occupant} :
    e ∈ unindexed index c ↔ e ∈ index ∧ e.1 ≠ c := by simp [unindexed]

/-- The entries for a square are its new occupant alone, all other entries stay. -/
theorem mem_index_placed {o : Option Occupant} {e : Coord × Occupant} :
    e ∈ (b.placed c o).index ↔ (e ∈ b.index ∧ e.1 ≠ c) ∨ (e.1 = c ∧ o = some e.2) := by
  obtain ⟨d, x⟩ := e
  cases o with
  | none => simp [placed, mem_unindexed]
  | some y => simp [placed, mem_unindexed, eq_comm]

theorem keys_unindexed {index : List (Coord × Occupant)} (h : (index.map (·.1)).Nodup) (c : Coord) :
    ((unindexed index c).map (·.1)).Nodup :=
  h.sublist (List.filter_sublist.map _)

theorem keys_placed (h : (b.index.map (·.1)).Nodup) (c : Coord) (o : Option Occupant) :
    ((b.placed c o).index.map (·.1)).Nodup := by
  cases o with
  | none => exact keys_unindexed h c
  | some o =>
    show ((unindexed b.index c ++ [(c, o)]).map (·.1)).Nodup
    rw [List.map_append, List.nodup_append]
    refine ⟨keys_unindexed h c, List.nodup_singleton _, fun x hx y hy => ?_⟩
    obtain ⟨e, he, rfl⟩ := List.mem_map.1 hx
    rw [List.mem_singleton.1 hy]
    exact (mem_unindexed.1 he).2

/-- Putting a piece, or nothing, on a square leaves nothing but pieces on the board. -/
theorem Populated.placed (h : b.Populated) (hc : b.contains c = true) (p : Option Piece) :
    (b.placed c (p.map .piece)).Populated where
  toFramed := h.toFramed.placed c _
  pieces {d o} hd ho := by
    rw [occupant_placed h.toFramed hc hd] at ho
    split at ho
    · obtain ⟨q, -, rfl⟩ := Option.map_eq_some_iff.1 ho
      exact ⟨q, rfl⟩
    · exact h.pieces hd ho

/-- Putting a piece, or nothing, on a square keeps a board sound. -/
theorem Sound.placed (h : b.Sound) (hc : b.contains c = true) (p : Option Piece) :
    (b.placed c (p.map .piece)).Sound where
  toFramed := h.toFramed.placed c _
  pieces := (h.populated.placed hc p).pieces
  keys := keys_placed h.keys c _
  mem_index {d o} := by
    rw [mem_index_placed, placed_contains]
    by_cases e : d = c
    · subst e
      simp [hc, occupant_placed h.toFramed hc hc]
    · constructor
      · rintro (⟨hm, -⟩ | ⟨rfl, -⟩)
        · obtain ⟨hd, ho⟩ := h.mem_index.1 hm
          exact ⟨hd, by rw [occupant_placed h.toFramed hc hd, if_neg e]; exact ho⟩
        · exact absurd rfl e
      · rintro ⟨hd, ho⟩
        rw [occupant_placed h.toFramed hc hd, if_neg e] at ho
        exact Or.inl ⟨h.mem_index.2 ⟨hd, ho⟩, e⟩

/-! ## Moving -/

/-- The board on which a piece that has moved has lost its first-move flag. -/
def settled (b : Board) : Option Occupant → Board
  | some (.piece p) => b.setFlags p ((b.flagsOf p).without Flags.firstMove)
  | _ => b

@[simp] theorem settled_size (b : Board) (o : Option Occupant) : (b.settled o).size = b.size := by
  unfold settled; split <;> rfl

@[simp] theorem settled_grid (b : Board) (o : Option Occupant) : (b.settled o).grid = b.grid := by
  unfold settled; split <;> rfl

@[simp] theorem settled_index (b : Board) (o : Option Occupant) : (b.settled o).index = b.index := by
  unfold settled; split <;> rfl

@[simp] theorem settled_occupant (b : Board) (o : Option Occupant) : (b.settled o).occupant c = b.occupant c := by
  simp only [occupant, slot, settled_grid]

theorem Sound.settled (h : b.Sound) (o : Option Occupant) : (b.settled o).Sound :=
  h.congr (settled_size b o) (settled_grid b o) (settled_index b o)

/-- The board after a move. -/
def moved (b : Board) (m : Move) : Board :=
  ((b.placed m.src none).placed m.dst (b.occupant m.src)).settled (b.occupant m.src)

@[simp] theorem moved_size (b : Board) (m : Move) : (b.moved m).size = b.size := by simp [moved]

@[simp] theorem moved_digits (b : Board) (m : Move) : (b.moved m).digits = b.digits := by
  unfold moved settled
  split <;> rfl

@[simp] theorem moved_contains (b : Board) (m : Move) (c : Coord) : (b.moved m).contains c = b.contains c :=
  contains_congr (moved_size b m) c

/-- Between two squares of a board with nothing but pieces, a move succeeds. -/
theorem Populated.move_eq (h : b.Populated) (hs : b.contains m.src = true) (hd : b.contains m.dst = true) :
    b.move m = (.ok ((b.placed m.src none).occupant m.dst), b.moved m) := by
  obtain ⟨p, hp⟩ := h.occupant_eq hs
  have hput := put_eq (h.toFramed.placed m.src none) (c := m.dst) hd (b.occupant m.src)
  cases p with
  | none =>
    simp only [hp, Option.map_none] at hput
    simp [Board.move, check_eq hs, check_eq hd, put_eq h.toFramed hs, hput, hp, moved, settled]
  | some p =>
    simp only [hp, Option.map_some] at hput
    simp [Board.move, check_eq hs, check_eq hd, put_eq h.toFramed hs, hput, hp, moved, settled, clearFirstMove]

/-- Between two squares of a sound board, a move succeeds. -/
theorem move_eq (h : b.Sound) (hs : b.contains m.src = true) (hd : b.contains m.dst = true) :
    b.move m = (.ok ((b.placed m.src none).occupant m.dst), b.moved m) :=
  h.populated.move_eq hs hd

/-- The report on a move with an end beyond the edge: it is about the first such end. -/
def edgeFault (b : Board) (m : Move) : Fault := b.edgeFaultAt (if b.contains m.src then m.dst else m.src)

/-- Beyond the edge, a move is refused and changes nothing. -/
theorem move_eq_error (h : ¬(b.contains m.src = true ∧ b.contains m.dst = true)) :
    b.move m = (.error (b.edgeFault m), b) := by
  unfold move edgeFault
  cases hs : b.contains m.src with
  | false => simp [check_eq_error hs]
  | true =>
    have hd : b.contains m.dst = false := by simpa [hs] using h
    simp [check_eq hs, check_eq_error hd]

/-- A move leaves the grid in its shape. -/
theorem Framed.moved (h : b.Framed) (m : Move) : (b.moved m).Framed :=
  ((h.placed m.src none).placed m.dst (b.occupant m.src)).congr (settled_size _ _) (settled_grid _ _)

/-- A move leaves nothing but pieces on the board. -/
theorem Populated.moved (h : b.Populated) (hs : b.contains m.src = true) (hd : b.contains m.dst = true) :
    (b.moved m).Populated := by
  obtain ⟨p, hp⟩ := h.occupant_eq hs
  have hfirst : (b.placed m.src none).Populated := h.placed hs none
  unfold Board.moved
  rw [hp]
  exact (hfirst.placed hd p).congr (settled_size _ _) (settled_grid _ _)

/-- A move keeps a board sound. -/
theorem Sound.moved (h : b.Sound) (hs : b.contains m.src = true) (hd : b.contains m.dst = true) :
    (b.moved m).Sound := by
  obtain ⟨p, hp⟩ := h.occupant_eq hs
  have hfirst : (b.placed m.src none).Sound := h.placed hs none
  unfold Board.moved
  rw [hp]
  exact (hfirst.placed hd p).settled _

/-- What stands where after a move. -/
theorem occupant_moved (h : b.Framed) (hs : b.contains m.src = true) (hd : b.contains m.dst = true)
    (hc : b.contains c = true) : (b.moved m).occupant c =
      if c = m.dst then b.occupant m.src else if c = m.src then none else b.occupant c := by
  rw [moved, settled_occupant, occupant_placed (h.placed _ _) hd hc, occupant_placed h hs hc]

/-- A move succeeds between two squares of the board, and otherwise changes nothing. -/
theorem Sound.move (h : b.Sound) (m : Move) : (b.move m).2.Sound := by
  by_cases hm : b.contains m.src = true ∧ b.contains m.dst = true
  · rw [move_eq h hm.1 hm.2]
    exact h.moved hm.1 hm.2
  · rw [move_eq_error hm]
    exact h

/-! ## Scanning -/

/-- The squares that a board visits are those that it contains. -/
theorem mem_squares : c ∈ b.squares ↔ b.contains c = true := by
  rw [contains_iff]
  simp only [squares, List.mem_flatMap, List.mem_map, List.mem_range]
  constructor
  · rintro ⟨w, hw, z, hz, y, hy, x, hx, rfl⟩
    simp only
    omega
  · rintro ⟨hx, hy, hz, hw⟩
    refine ⟨c.w.toNat, by omega, c.z.toNat, by omega, c.y.toNat, by omega, c.x.toNat, by omega, ?_⟩
    cases c
    simp only [Coord.mk.injEq] at *
    omega

/-- Lists of squares in an order, one for each value of an axis that increases, one behind the other. -/
theorem pairwise_flatMap_axis {R : Coord → Coord → Prop} {n : Nat} {f : Nat → List Coord}
    (hf : ∀ i, (f i).Pairwise R) (hlt : ∀ i j : Nat, i < j → ∀ c ∈ f i, ∀ d ∈ f j, R c d) :
    ((List.range n).flatMap f).Pairwise R :=
  List.pairwise_flatMap.2 ⟨fun i _ => hf i, List.pairwise_lt_range.imp fun {i j} => hlt i j⟩

/-- The squares of a board are in the order in which they are visited. -/
theorem visits_squares (b : Board) : Coord.Visits (fun c => b.contains c = true) b.squares where
  mem _ := mem_squares
  inOrder := by
    -- squares that differ first in an axis are told apart by this axis
    refine pairwise_flatMap_axis
      (fun w => pairwise_flatMap_axis (fun z => pairwise_flatMap_axis (fun y => ?_) ?_) ?_) ?_
    · refine List.pairwise_map.2 (List.pairwise_lt_range.imp fun {x x'} h => ?_)
      simp [Coord.visitedBefore_iff, h]
    all_goals
      intro i j hij c hc d hd
      simp only [List.mem_flatMap, List.mem_map] at hc hd
      grind [Coord.visitedBefore_iff]

/-- No square is visited twice. -/
theorem nodup_squares (b : Board) : b.squares.Nodup := b.visits_squares.nodup

/-- On the board, reading the cells of several squares succeeds. -/
theorem mapM_cell (h : b.Framed) {cs : List Coord} (hcs : ∀ c ∈ cs, b.contains c = true) :
    (cs.mapM fun c => do return (c, ← b.cell c) : Except Fault (List (Coord × Option Occupant))) =
      .ok (cs.map fun c => (c, b.occupant c)) := by
  induction cs with
  | nil => rfl
  | cons c cs ih =>
    have hrest := ih fun d hd => hcs d (List.mem_cons_of_mem _ hd)
    have hc := cell_eq h (hcs c List.mem_cons_self)
    rw [List.mapM_cons, hc, hrest]
    rfl

/-- Reading all cells succeeds. -/
theorem contents_eq (h : b.Framed) : b.contents = .ok (b.squares.map fun c => (c, b.occupant c)) :=
  mapM_cell h fun _ hc => mem_squares.1 hc

/-- Scanning the cells succeeds. -/
theorem scanned_eq (h : b.Framed) : Audit.scanned b =
    .ok (b.squares.filterMap fun c => (b.occupant c).map fun o => (c, o)) := by
  simp only [Audit.scanned, contents_eq h, Outcome.ok_bind, Outcome.pure_eq, List.filterMap_map]
  rfl

/-- A scan finds every occupied square once, with what stands on it. -/
theorem scanned_spec (h : b.Framed) : ∃ cells, Audit.scanned b = .ok cells ∧ cells.Nodup ∧
    ∀ {c o}, (c, o) ∈ cells ↔ b.contains c = true ∧ b.occupant c = some o := by
  have hkeys := (nodup_squares b).sublist (Coord.sublist_listed b.occupant b.squares)
  refine ⟨_, scanned_eq h, hkeys.of_map, fun {c o} => ?_⟩
  rw [Coord.mem_listed, mem_squares]

/-- **The index is what a scan finds**, in another order. -/
theorem Sound.index_perm (h : b.Sound) : ∃ cells, Audit.scanned b = .ok cells ∧ b.index.Perm cells := by
  obtain ⟨cells, hs, hn, hm⟩ := scanned_spec h.toFramed
  refine ⟨cells, hs, (List.perm_ext_iff_of_nodup h.keys.of_map hn).2 fun e => ?_⟩
  rw [hm, h.mem_index]

end Hyperchess.Board
