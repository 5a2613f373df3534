import Hyperchess.Proofs.Board.Mirror

/-!
# Boards with pieces on them

A board is arranged by putting pieces on an empty board, one after the other (`arranged`); a later piece takes the
place of an earlier one on the same square, and one piece may be put on several squares. Boards made from designs are
boards arranged with as many different pieces (`ofPlacements_eq`). An arranged board is sound (`arranged_sound`), and no
piece stands on two squares of it if no piece was put down twice (`arranged_distinct`). If no square is used twice, a
board made from designs lists a piece for each of them, in the same order (`exists_ofPlacements`), and has no other
pieces (`pieceAt_iff_of_index`).
-/

namespace Hyperchess.Board

variable {b : Board} {c d : Coord} {m : Move}

/-! ## Distinct pieces -/

/-- No piece stands on two squares. -/
def Distinct (b : Board) : Prop :=
  ∀ ⦃c d : Coord⦄ ⦃p q : Piece⦄, b.get c = .ok (some (.piece p)) → b.get d = .ok (some (.piece q)) →
    p.serial = q.serial → c = d

/-- The piece with this serial number is on none of the squares. -/
def Lacks (b : Board) (serial : Nat) : Prop :=
  ∀ ⦃c : Coord⦄ ⦃p : Piece⦄, b.get c = .ok (some (.piece p)) → p.serial ≠ serial

/-- What is read on a square after something was put on one: the new occupant there, the old one elsewhere. -/
theorem get_placed (h : b.Framed) (hc : b.contains c = true) {o x : Option Occupant} :
    (b.placed c o).get d = .ok x ↔ if d = c then o = x else b.get d = .ok x := by
  rw [get_eq_ok_iff (h.placed c o), placed_contains]
  by_cases e : d = c
  · subst e
    simp [occupant_placed h hc hc, hc]
  · rw [if_neg e, get_eq_ok_iff h]
    refine and_congr_right fun hd => ?_
    rw [occupant_placed h hc hd, if_neg e]

/-- Clearing a square keeps pieces distinct, and so does putting a piece there that is not on the board. -/
theorem Distinct.placed (h : b.Distinct) (hf : b.Framed) (hc : b.contains c = true) {x : Option Piece}
    (hx : ∀ p, x = some p → b.Lacks p.serial) : (b.placed c (x.map .piece)).Distinct := by
  intro d d' p q hp hq e
  rw [get_placed hf hc] at hp hq
  by_cases hd : d = c <;> by_cases hd' : d' = c
  · rw [hd, hd']
  · rw [if_pos hd] at hp
    rw [if_neg hd'] at hq
    obtain ⟨p', hp', ep⟩ := Option.map_eq_some_iff.1 hp
    cases ep
    exact absurd e.symm (hx p hp' hq)
  · rw [if_neg hd] at hp
    rw [if_pos hd'] at hq
    obtain ⟨q', hq', eq⟩ := Option.map_eq_some_iff.1 hq
    cases eq
    exact absurd e (hx q hq' hp)
  · rw [if_neg hd] at hp
    rw [if_neg hd'] at hq
    exact h hp hq e

/-- What is read on a square after a move. -/
theorem get_moved (h : b.Framed) (hs : b.contains m.src = true) (hd : b.contains m.dst = true) {x : Option Occupant} :
    (b.moved m).get c = .ok x ↔
      if c = m.dst then b.get m.src = .ok x else if c = m.src then x = none else b.get c = .ok x := by
  rw [get_eq_ok_iff (h.moved m), moved_contains]
  by_cases e : c = m.dst
  · subst e
    simp [occupant_moved h hs hd hd, get_eq_ok_iff h, hs, hd]
  · by_cases e' : c = m.src
    · subst e'
      simp [occupant_moved h hs hd hs, e, hs, eq_comm]
    · rw [if_neg e, if_neg e', get_eq_ok_iff h]
      refine and_congr_right fun hc => ?_
      rw [occupant_moved h hs hd hc, if_neg e, if_neg e']

/-- A piece that is read on a square after a move was on some square before: on the source if it is on the destination
now, and on the same square, which is not the source, otherwise. -/
theorem get_piece_moved (h : b.Sound) (hs : b.contains m.src = true) (hd : b.contains m.dst = true) {p : Piece}
    (hp : (b.moved m).get c = .ok (some (.piece p))) :
    (c = m.dst ∧ b.get m.src = .ok (some (.piece p))) ∨
      (c ≠ m.dst ∧ c ≠ m.src ∧ b.get c = .ok (some (.piece p))) := by
  rw [get_moved h.toFramed hs hd] at hp
  split at hp
  · exact Or.inl ⟨‹_›, hp⟩
  · split at hp
    · cases hp
    · exact Or.inr ⟨‹_›, ‹_›, hp⟩

/-- A move keeps pieces distinct. -/
theorem Distinct.moved (h : b.Distinct) (hb : b.Sound) (hs : b.contains m.src = true) (hd : b.contains m.dst = true) :
    (b.moved m).Distinct := by
  intro c c' p q hp hq e
  rcases get_piece_moved hb hs hd hp with ⟨hc, hp⟩ | ⟨-, hcs, hp⟩ <;>
    rcases get_piece_moved hb hs hd hq with ⟨hc', hq⟩ | ⟨-, hcs', hq⟩
  · rw [hc, hc']
  · exact absurd (h hp hq e).symm hcs'
  · exact absurd (h hp hq e) hcs
  · exact h hp hq e

/-! ## Known pieces -/

/-- The flags of all pieces on the board are kept. -/
def Enrolled (b : Board) : Prop :=
  ∀ ⦃c : Coord⦄ ⦃p : Piece⦄, b.get c = .ok (some (.piece p)) → p.serial < b.flags.size

theorem Enrolled.placed (h : b.Enrolled) (hf : b.Framed) (hc : b.contains c = true) {x : Option Piece}
    (hx : ∀ p, x = some p → p.serial < b.flags.size) : (b.placed c (x.map .piece)).Enrolled := by
  intro d p hp
  rw [get_placed hf hc] at hp
  by_cases hd : d = c
  · rw [if_pos hd] at hp
    obtain ⟨p', hp', ep⟩ := Option.map_eq_some_iff.1 hp
    cases ep
    exact hx p hp'
  · rw [if_neg hd] at hp
    exact h hp

theorem flags_size_moved (b : Board) (m : Move) : (b.moved m).flags.size = b.flags.size := by
  unfold moved settled
  split <;> simp [setFlags]

theorem Enrolled.moved (h : b.Enrolled) (hb : b.Sound) (hs : b.contains m.src = true) (hd : b.contains m.dst = true) :
    (b.moved m).Enrolled := by
  intro c p hp
  rw [flags_size_moved]
  rcases get_piece_moved hb hs hd hp with ⟨-, hp⟩ | ⟨-, -, hp⟩
  · exact h hp
  · exact h hp

/-! ## Empty boards -/

theorem empty_eq_ok {size : Coord} {digits : Option Nat} (h : empty size digits = .ok b) :
    b = ⟨size, Grid.empty (shapeOf size) .anything, [], #[], digits⟩ := by
  unfold empty at h
  split at h <;> cases h
  rfl

/-- There are empty boards of every size that is nowhere below zero. -/
theorem empty_of_nonneg {size : Coord} (h : ∀ n ∈ size.axes, 0 ≤ n) (digits : Option Nat) :
    empty size digits = .ok ⟨size, Grid.empty (shapeOf size) .anything, [], #[], digits⟩ := by
  have hnonneg : size.nested.any (· < 0) = false := by
    refine List.any_eq_false.2 fun n hn => ?_
    have haxis : n ∈ size.axes := by
      simp only [Coord.nested, Coord.axes, List.mem_cons, List.not_mem_nil, or_false] at hn ⊢
      tauto
    have := h n haxis
    simpa using this
  rw [empty, hnonneg]
  rfl

theorem occupant_empty {size : Coord} {digits : Option Nat} (h : empty size digits = .ok b) (c : Coord) :
    b.occupant c = none := by
  rw [empty_eq_ok h]
  simp only [occupant, Grid.empty, Array.getD_eq_getD_getElem?, Array.getElem?_replicate]
  split <;> rfl

theorem sound_empty {size : Coord} {digits : Option Nat} (h : empty size digits = .ok b) : b.Sound where
  shape := by rw [empty_eq_ok h]; rfl
  kind := by rw [empty_eq_ok h]; rfl
  room := by rw [empty_eq_ok h]; simp [Grid.empty]
  pieces _ ho := by rw [occupant_empty h] at ho; cases ho
  keys := by rw [empty_eq_ok h]; exact List.nodup_nil
  mem_index {c o} := by
    rw [occupant_empty h, empty_eq_ok h]
    simp

theorem get_empty_ne {size : Coord} {digits : Option Nat} (h : empty size digits = .ok b) (o : Occupant) :
    b.get c ≠ .ok (some o) := by
  rw [Ne, get_eq_ok_iff (sound_empty h).toFramed, occupant_empty h]
  simp

/-! ## Arranging -/

/-- A board with a piece more. -/
def putPiece (b : Board) (e : Coord × Piece) : Except Fault Board := do
  return (← b.put e.1 (some (.piece e.2))).2

/-- A board of a size on which pieces with these flags have been put, one after the other. -/
def arranged (size : Coord) (flags : Array Flags) (pieces : List (Coord × Piece))
    (digits : Option Nat := some Integer.digitLimit) : Except Fault Board := do
  let b ← empty size digits
  pieces.foldlM putPiece { b with flags }

theorem putPiece_eq (h : b.Framed) {e : Coord × Piece} (he : b.contains e.1 = true) :
    b.putPiece e = .ok (b.placed e.1 ((some e.2).map .piece)) := by
  simp [putPiece, put_eq h he]

section Arranged

variable {size : Coord} {flags : Array Flags} {pieces : List (Coord × Piece)} {digits : Option Nat}

/-- Neither the size of a board nor its limit for integers is changed by putting a piece down. -/
theorem putPiece_frame {b b' : Board} {e : Coord × Piece} (h : b.putPiece e = .ok b') :
    b'.size = b.size ∧ b'.digits = b.digits := by
  obtain ⟨r, hr, h⟩ := Outcome.bind_eq_ok_iff.1 h
  obtain ⟨x, -, hr⟩ := Outcome.bind_eq_ok_iff.1 hr
  obtain ⟨g, -, hr⟩ := Outcome.bind_eq_ok_iff.1 hr
  cases hr
  cases h
  exact ⟨rfl, rfl⟩

theorem foldlM_putPiece_frame {b b' : Board} (h : pieces.foldlM putPiece b = .ok b') :
    b'.size = b.size ∧ b'.digits = b.digits := by
  induction pieces generalizing b with
  | nil =>
    cases h
    exact ⟨rfl, rfl⟩
  | cons e rest ih =>
    rw [List.foldlM_cons] at h
    obtain ⟨b₁, h₁, h⟩ := Outcome.bind_eq_ok_iff.1 h
    obtain ⟨hsize, hdigits⟩ := putPiece_frame h₁
    obtain ⟨hsize', hdigits'⟩ := ih h
    exact ⟨hsize'.trans hsize, hdigits'.trans hdigits⟩

theorem arranged_frame (h : arranged size flags pieces digits = .ok b) : b.size = size ∧ b.digits = digits := by
  obtain ⟨b₀, hb₀, hfold⟩ := Outcome.bind_eq_ok_iff.1 h
  cases empty_eq_ok hb₀
  exact foldlM_putPiece_frame hfold

theorem arranged_size (h : arranged size flags pieces digits = .ok b) : b.size = size := (arranged_frame h).1

/-- What holds of the empty board, and is kept by putting the pieces that are left, holds of the arranged board. -/
theorem arranged_invariant (h : arranged size flags pieces digits = .ok b)
    (inside : ∀ e ∈ pieces, b.contains e.1 = true)
    (I : List (Coord × Piece) → Board → Prop)
    (start : ∀ {b : Board}, empty size digits = .ok b → I pieces { b with flags })
    (step : ∀ e l b, b.Sound → b.contains e.1 = true → b.flags = flags → I (e :: l) b →
      I l (b.placed e.1 ((some e.2).map .piece))) :
    b.Sound ∧ b.flags = flags ∧ I [] b := by
  have hsize := arranged_size h
  obtain ⟨b₀, hb₀, hfold⟩ := Outcome.bind_eq_ok_iff.1 h
  have hsize₀ : b.size = b₀.size := by rw [hsize, empty_eq_ok hb₀]
  -- the squares of the pieces that are left are on the board, which keeps its size
  obtain ⟨r, hr, hsound, -, hflags, -, hI⟩ := Outcome.foldlM_invariant
    (f := putPiece) (l := pieces) (b := { b₀ with flags })
    (fun l b' => b'.Sound ∧ b.size = b'.size ∧ b'.flags = flags ∧ (∀ e ∈ l, b.contains e.1 = true) ∧ I l b')
    (fun e l b' ⟨hb, hs, hfl, hl, hI⟩ => by
      have he : b'.contains e.1 = true := (contains_congr hs e.1).symm.trans (hl e List.mem_cons_self)
      exact ⟨_, putPiece_eq hb.toFramed he, hb.placed he (some e.2), hs, hfl,
        fun f hf => hl f (List.mem_cons_of_mem _ hf), step e l b' hb he hfl hI⟩)
    ⟨(sound_empty hb₀).congr rfl rfl rfl, hsize₀, rfl, inside, start hb₀⟩
  rw [hfold] at hr
  cases hr
  exact ⟨hsound, hflags, hI⟩

/-- Boards with pieces put on their squares are sound. -/
theorem arranged_sound (h : arranged size flags pieces digits = .ok b) (inside : ∀ e ∈ pieces, b.contains e.1 = true) :
    b.Sound :=
  (arranged_invariant h inside (fun _ _ => True) (fun _ => trivial) fun _ _ _ _ _ _ _ => trivial).1

/-- Pieces can be put on the squares of a board. -/
theorem exists_arranged {b₀ : Board} (h : empty size digits = .ok b₀) (inside : ∀ e ∈ pieces, b₀.contains e.1 = true) :
    ∃ b, arranged size flags pieces digits = .ok b := by
  obtain ⟨b, hb, -⟩ := Outcome.foldlM_invariant (f := putPiece) (l := pieces) (b := { b₀ with flags })
    (fun l b => b.Sound ∧ b₀.size = b.size ∧ ∀ e ∈ l, b₀.contains e.1 = true)
    (fun e l b ⟨hb, hs, hl⟩ => by
      have he : b.contains e.1 = true := (contains_congr hs e.1).symm.trans (hl e List.mem_cons_self)
      exact ⟨_, putPiece_eq hb.toFramed he, hb.placed he (some e.2), hs, fun f hf => hl f (List.mem_cons_of_mem _ hf)⟩)
    ⟨(sound_empty h).congr rfl rfl rfl, rfl, inside⟩
  exact ⟨b, by rw [arranged, h, Outcome.ok_bind, hb]⟩

/-- Pieces put on different squares are listed in the order in which they were put there. -/
theorem arranged_index (h : arranged size flags pieces digits = .ok b) (inside : ∀ e ∈ pieces, b.contains e.1 = true)
    (hd : (pieces.map (·.1)).Nodup) : b.index = pieces.map fun e => (e.1, .piece e.2) := by
  have hI := arranged_invariant h inside
    (fun l b => ∃ done, pieces = done ++ l ∧ b.index = done.map fun e => (e.1, .piece e.2))
    (fun {b} hb => ⟨[], rfl, by rw [empty_eq_ok hb]; rfl⟩) fun e l b hb he _ ⟨done, hsplit, hindex⟩ => ?_
  · obtain ⟨done, hsplit, hindex⟩ := hI.2.2
    rw [hindex, hsplit, List.append_nil]
  · refine ⟨done ++ [e], by rw [hsplit, List.append_assoc]; rfl, ?_⟩
    have hnew : unindexed b.index e.1 = b.index := by
      rw [hsplit, List.map_append, List.map_cons] at hd
      have hne := (List.nodup_append.1 hd).2.2
      refine List.filter_eq_self.2 fun f hf => ?_
      rw [hindex] at hf
      obtain ⟨g, hg, rfl⟩ := List.mem_map.1 hf
      simpa using hne g.1 (List.mem_map_of_mem hg) e.1 List.mem_cons_self
    show unindexed b.index e.1 ++ [(e.1, Occupant.piece e.2)] = _
    rw [hnew, hindex, List.map_append]
    rfl

/-- If no piece was put down twice, none stands on two squares. -/
theorem arranged_distinct (h : arranged size flags pieces digits = .ok b) (inside : ∀ e ∈ pieces, b.contains e.1 = true)
    (hd : (pieces.map (·.2.serial)).Nodup) : b.Distinct := by
  have hI := arranged_invariant h inside
    (fun l b => b.Distinct ∧ (l.map (·.2.serial)).Nodup ∧ ∀ e ∈ l, b.Lacks e.2.serial)
    (fun {b} hb => ?_) fun e l b hb he _ ⟨hdist, hl, hlacks⟩ => ?_
  · exact hI.2.2.1
  · exact ⟨fun _ _ _ _ hp => absurd hp (get_empty_ne hb _), hd, fun _ _ c p hp => absurd hp (get_empty_ne hb _)⟩
  · obtain ⟨hne, hl⟩ := List.nodup_cons.1 hl
    refine ⟨hdist.placed hb.toFramed he fun p hp => ?_, hl, fun f hf c p hp => ?_⟩
    · cases hp
      exact hlacks e List.mem_cons_self
    · rw [get_placed hb.toFramed he] at hp
      split at hp
      · cases hp
        exact fun e' => hne (List.mem_map.2 ⟨f, hf, e'.symm⟩)
      · exact hlacks f (List.mem_cons_of_mem _ hf) hp

/-- If the flags of all pieces are given, they are kept. -/
theorem arranged_enrolled (h : arranged size flags pieces digits = .ok b) (inside : ∀ e ∈ pieces, b.contains e.1 = true)
    (hf : ∀ e ∈ pieces, e.2.serial < flags.size) : b.Enrolled := by
  have hI := arranged_invariant h inside (fun l b => b.Enrolled ∧ ∀ e ∈ l, e.2.serial < flags.size)
    (fun {b} hb => ⟨fun _ _ hp => absurd hp (get_empty_ne hb _), hf⟩) fun e l b hb he hfl ⟨hen, hl⟩ => ?_
  · exact hI.2.2.1
  · refine ⟨hen.placed hb.toFramed he fun p hp => ?_, fun f hf => hl f (List.mem_cons_of_mem _ hf)⟩
    cases hp
    rw [hfl]
    exact hl e List.mem_cons_self

end Arranged

/-! ## Pieces from designs -/

/-- Pieces made from designs, with consecutive serial numbers. -/
def numbered : (first : Nat) → List (Coord × Design) → List (Coord × Piece)
  | _, [] => []
  | n, (c, d) :: rest => (c, ⟨n, d.id, d.team⟩) :: numbered (n + 1) rest

/-- A piece with a number is made from the design with this number. -/
theorem exists_of_mem_numbered {n : Nat} {placements : List (Coord × Design)} {e : Coord × Piece}
    (h : e ∈ numbered n placements) : ∃ i d, placements[i]? = some (e.1, d) ∧ e.2 = ⟨n + i, d.id, d.team⟩ := by
  induction placements generalizing n with
  | nil => cases h
  | cons f rest ih =>
    obtain ⟨c, d⟩ := f
    rcases List.mem_cons.1 h with rfl | h
    · exact ⟨0, d, rfl, rfl⟩
    · obtain ⟨i, d', hd', hpiece⟩ := ih h
      refine ⟨i + 1, d', hd', ?_⟩
      rw [hpiece, Nat.add_assoc, Nat.add_comm 1]

theorem mem_numbered {n : Nat} {placements : List (Coord × Design)} {e : Coord × Piece}
    (h : e ∈ numbered n placements) :
    (∃ d, (e.1, d) ∈ placements) ∧ n ≤ e.2.serial ∧ e.2.serial < n + placements.length := by
  obtain ⟨i, d, hd, hpiece⟩ := exists_of_mem_numbered h
  have hlt : i < placements.length := (List.getElem?_eq_some_iff.1 hd).1
  rw [hpiece]
  refine ⟨⟨d, List.mem_of_getElem? hd⟩, ?_, ?_⟩ <;> dsimp only <;> omega

/-- No two pieces have one number. -/
theorem nodup_numbered (n : Nat) (placements : List (Coord × Design)) :
    ((numbered n placements).map (·.2.serial)).Nodup := by
  have hserials : (numbered n placements).map (·.2.serial) = List.range' n placements.length := by
    induction placements generalizing n with
    | nil => rfl
    | cons e rest ih => rw [numbered, List.map_cons, ih, List.length_cons, List.range'_succ]
  rw [hserials]
  exact List.nodup_range'

/-- Pieces made from designs are of their kinds and teams. -/
theorem map_numbered (n : Nat) (placements : List (Coord × Design)) :
    (numbered n placements).map (fun e => (e.1, e.2.id, e.2.team)) =
      placements.map fun e => (e.1, e.2.id, e.2.team) := by
  induction placements generalizing n with
  | nil => rfl
  | cons e rest ih =>
    rw [numbered, List.map_cons, List.map_cons, ih]

theorem squares_numbered (n : Nat) (placements : List (Coord × Design)) :
    (numbered n placements).map (·.1) = placements.map (·.1) := by
  simpa [List.map_map, Function.comp_def] using congrArg (List.map (·.1)) (map_numbered n placements)

/-- Putting a piece down neither asks for flags nor changes any. -/
theorem putPiece_withFlags (b : Board) (flags : Array Flags) (e : Coord × Piece) :
    ({ b with flags } : Board).putPiece e = (b.putPiece e).map fun b' => { b' with flags } := by
  simp only [putPiece, put, cell]
  cases b.grid.read (address e.1) with
  | error f => rfl
  | ok x =>
    simp only [Outcome.ok_bind]
    cases b.grid.write (address e.1) (some (.piece e.2)) <;> rfl

/-- Making the pieces on the way is as good as making them before. -/
theorem foldlM_enroll (placements : List (Coord × Design)) (b : Board) :
    (placements.foldlM (fun b e => do
      let r := b.enroll e.2
      return (← r.2.put e.1 (some (.piece r.1))).2) b : Except Fault Board) =
    (numbered b.flags.size placements).foldlM putPiece
      { b with flags := b.flags ++ (placements.map (·.2.flags)).toArray } := by
  induction placements generalizing b with
  | nil => simp [numbered]
  | cons f rest ih =>
    obtain ⟨c, d⟩ := f
    have hmake := putPiece_withFlags b (b.flags.push d.flags) (c, ⟨b.flags.size, d.id, d.team⟩)
    simp only [numbered, List.foldlM_cons, putPiece_withFlags]
    show (({ b with flags := b.flags.push d.flags } : Board).putPiece (c, ⟨b.flags.size, d.id, d.team⟩) >>= _) = _
    rw [hmake]
    cases b.putPiece (c, ⟨b.flags.size, d.id, d.team⟩) with
    | error e => rfl
    | ok b' =>
      simp only [Except.map, Outcome.ok_bind]
      rw [ih]
      simp

/-- **A board made from designs is arranged with as many different pieces.** -/
theorem ofPlacements_eq (size : Coord) (placements : List (Coord × Design)) (digits : Option Nat) :
    ofPlacements size placements digits =
      arranged size (placements.map (·.2.flags)).toArray (numbered 0 placements) digits := by
  unfold ofPlacements arranged
  cases h : empty size digits with
  | error e => rfl
  | ok b =>
    have hflags : b.flags = #[] := by rw [empty_eq_ok h]
    have hfold := foldlM_enroll placements b
    rw [hflags] at hfold
    simpa using hfold

/-- **Designs that are placed on different squares of a board become a board**, on which as many different pieces are
listed in the same order, with the flags of their designs. -/
theorem exists_ofPlacements {size : Coord} {placements : List (Coord × Design)} {digits : Option Nat} {b₀ : Board}
    (h : empty size digits = .ok b₀) (inside : ∀ e ∈ placements, b₀.contains e.1 = true)
    (hd : (placements.map (·.1)).Nodup) :
    ∃ b, ofPlacements size placements digits = .ok b ∧ b.size = size ∧ b.digits = digits ∧ b.Sound ∧ b.Distinct ∧
      b.flags = (placements.map (·.2.flags)).toArray ∧
      b.index = (numbered 0 placements).map fun e => (e.1, .piece e.2) := by
  have hinside : ∀ e ∈ numbered 0 placements, b₀.contains e.1 = true := by
    intro e he
    obtain ⟨⟨d, hd⟩, -⟩ := mem_numbered he
    exact inside (e.1, d) hd
  obtain ⟨b, hb⟩ : ∃ b, arranged size (placements.map (·.2.flags)).toArray (numbered 0 placements) digits = .ok b :=
    exists_arranged h hinside
  obtain ⟨hsize, hdigits⟩ := arranged_frame hb
  have hcontains : ∀ e ∈ numbered 0 placements, b.contains e.1 = true := fun e he =>
    (contains_congr (by rw [hsize, empty_eq_ok h]) e.1).trans (hinside e he)
  obtain ⟨hsound, hflags, -⟩ := arranged_invariant hb hcontains (fun _ _ => True) (fun _ => trivial)
    fun _ _ _ _ _ _ _ => trivial
  exact ⟨b, (ofPlacements_eq size placements digits).trans hb, hsize, hdigits, hsound,
    arranged_distinct hb hcontains (nodup_numbered 0 placements), hflags,
    arranged_index hb hcontains (squares_numbered 0 placements ▸ hd)⟩

/-- The pieces of a board made from designs are of the kinds and teams of the designs on their squares, and there are
no others. -/
theorem pieceAt_iff_of_index (h : b.Sound) {placements : List (Coord × Design)}
    (hindex : b.index = (numbered 0 placements).map fun e => (e.1, .piece e.2)) {k : Data × Data} :
    (b.pieceAt c).map (fun p => (p.id, p.team)) = some k ↔
      (c, k) ∈ placements.map fun e => (e.1, e.2.id, e.2.team) := by
  rw [← map_numbered 0, Option.map_eq_some_iff, List.mem_map]
  simp only [pieceAt_eq_some_iff, h.get_eq_piece_iff, hindex, List.mem_map]
  constructor
  · rintro ⟨p, ⟨e, he, heq⟩, rfl⟩
    cases heq
    exact ⟨e, he, rfl⟩
  · rintro ⟨e, he, heq⟩
    cases heq
    exact ⟨e.2, ⟨e, he, rfl⟩, rfl⟩

end Hyperchess.Board
