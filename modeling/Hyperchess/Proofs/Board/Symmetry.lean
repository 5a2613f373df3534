import Hyperchess.Proofs.Board.Arrangement
import Hyperchess.Proofs.Data.Order

/-!
# Boards turned around

A symmetry exchanges the squares of a board in pairs, and it exchanges teams (`Symmetry`). A board is the image of
another one if it has, on every square, what the other one has on the square that it is exchanged for: nothing, or a
piece of the same kind, with the same flags, and of the team that is exchanged for that of the other (`Board.Image`).
After a move and its image a board and its image are so again, if no piece stands on two squares (`Image.moved`).
Every board of the right size has an image (`Board.exists_image`).
-/

namespace Hyperchess

/-! ## Pieces and flags after a move -/

namespace Flags

/-- The flags that are left are the others. -/
theorem has_without (flags : Flags) (flag f : Data) : (flags.without flag).has f = (flags.has f && !f.same flag) := by
  rw [Bool.eq_iff_iff, Bool.and_eq_true, has, has, Data.isIn_iff, Data.isIn_iff]
  constructor
  · rintro ⟨y, hy, hsame⟩
    obtain ⟨hmem, hother⟩ := List.mem_filter.1 hy
    rw [Data.same_congr hsame] at hother
    exact ⟨⟨y, hmem, hsame⟩, hother⟩
  · rintro ⟨⟨y, hmem, hsame⟩, hother⟩
    rw [← Data.same_congr hsame] at hother
    exact ⟨y, List.mem_filter.2 ⟨hmem, hother⟩, hsame⟩

end Flags

namespace Board

variable {b : Board} {m : Move} {c : Coord} {p q : Piece}

theorem flagsOf_setFlags_self (b : Board) (p : Piece) :
    (b.setFlags p ((b.flagsOf p).without Flags.firstMove)).flagsOf p = (b.flagsOf p).without Flags.firstMove := by
  by_cases hp : p.serial < b.flags.size
  · simp [setFlags, flagsOf, hp]
  · simp [setFlags, flagsOf, Flags.without, hp]

theorem flagsOf_setFlags_of_ne (hne : q.serial ≠ p.serial) (flags : Flags) :
    (b.setFlags p flags).flagsOf q = b.flagsOf q := by
  have hne' : p.serial ≠ q.serial := fun h => hne h.symm
  simp [setFlags, flagsOf, Array.getElem?_setIfInBounds_ne hne']

section Moved

variable (h : b.Sound) (hs : b.contains m.src = true) (hd : b.contains m.dst = true)

include h hs hd

/-- What stands where after a move. -/
theorem pieceAt_moved (c : Coord) : (b.moved m).pieceAt c =
    if c = m.dst then b.pieceAt m.src else if c = m.src then none else b.pieceAt c := by
  apply Option.ext
  intro p
  rw [pieceAt_eq_some_iff, get_moved h.toFramed hs hd]
  split
  · rw [pieceAt_eq_some_iff]
  · split
    · simp
    · rw [pieceAt_eq_some_iff]

omit hd in
/-- The piece that has moved has lost its first-move flag. -/
theorem flagsOf_moved_src (hp : b.pieceAt m.src = some p) :
    (b.moved m).flagsOf p = (b.flagsOf p).without Flags.firstMove := by
  have hoccupant : b.occupant m.src = some (.piece p) := by rw [h.populated.occupant_eq_pieceAt hs, hp]; rfl
  rw [moved, hoccupant, settled]
  exact flagsOf_setFlags_self b p

omit hd in
/-- All other pieces have the flags that they had. -/
theorem flagsOf_moved_of_ne (hdistinct : b.Distinct) (hq : b.pieceAt c = some q) (hne : c ≠ m.src) :
    (b.moved m).flagsOf q = b.flagsOf q := by
  have hoccupant := h.populated.occupant_eq_pieceAt hs
  rw [moved, hoccupant]
  cases hp : b.pieceAt m.src with
  | none => rfl
  | some p =>
    have hserial : q.serial ≠ p.serial := by
      intro he
      exact hne (hdistinct (pieceAt_eq_some_iff.1 hq) (pieceAt_eq_some_iff.1 hp) he)
    rw [Option.map_some, settled]
    exact flagsOf_setFlags_of_ne hserial _

end Moved

end Board

/-! ## Symmetries -/

/-- A way to turn boards of a size around. -/
structure Symmetry (size : Coord) where
  /-- The square that a square is exchanged for. -/
  square : Coord → Coord
  /-- The team that a team is exchanged for. -/
  team : Data → Data
  square_square : ∀ c, square (square c) = c
  contains_square : ∀ b : Board, b.size = size → ∀ c, b.contains (square c) = b.contains c
  same_team : ∀ s t, (team s).same (team t) = s.same t
  isKey_team : ∀ t, (team t).isKey = t.isKey
  scale_team : ∀ t, (team t).scale? = t.scale?

namespace Symmetry

variable {size : Coord} {σ : Symmetry size}

/-- Everything is left as it is. -/
def refl (size : Coord) : Symmetry size where
  square := id
  team := id
  square_square _ := rfl
  contains_square _ _ _ := rfl
  same_team _ _ := rfl
  isKey_team _ := rfl
  scale_team _ := rfl

@[simp] theorem refl_square (size c : Coord) : (refl size).square c = c := rfl
@[simp] theorem refl_team (size : Coord) (t : Data) : (refl size).team t = t := rfl

theorem square_inj {c d : Coord} : σ.square c = σ.square d ↔ c = d := by
  constructor
  · intro h
    rw [← σ.square_square c, h, σ.square_square]
  · exact congrArg σ.square

/-- Every square is exchanged for another one, or for itself. -/
theorem exists_eq_square (σ : Symmetry size) (d : Coord) : ∃ c, d = σ.square c :=
  ⟨σ.square d, (σ.square_square d).symm⟩

theorem isComparable_team (σ : Symmetry size) (s t : Data) :
    (σ.team s).isComparable (σ.team t) = s.isComparable t := by
  rw [Bool.eq_iff_iff, Data.isComparable_iff, Data.isComparable_iff, σ.scale_team, σ.scale_team]

/-- The image of a move leads from the image of its source to the image of its destination. -/
def move (σ : Symmetry size) (m : Move) : Move := ⟨σ.square m.src, σ.square m.dst, m.via.map (·.map σ.square)⟩

@[simp] theorem move_src (σ : Symmetry size) (m : Move) : (σ.move m).src = σ.square m.src := rfl
@[simp] theorem move_dst (σ : Symmetry size) (m : Move) : (σ.move m).dst = σ.square m.dst := rfl

theorem move_refl (m : Move) : (refl size).move m = m := by
  obtain ⟨src, dst, via⟩ := m
  cases via with
  | none => rfl
  | some squares => simp [move, refl]

end Symmetry

/-- A piece with its square, turned around: another piece of the same serial number. -/
def Symmetry.piece {size : Coord} (σ : Symmetry size) (e : Coord × Piece) : Coord × Piece :=
  (σ.square e.1, ⟨e.2.serial, e.2.id, σ.team e.2.team⟩)

/-! ## Images -/

/-- A piece on its board is the image of another one on its own. -/
structure Piece.Image {size : Coord} (σ : Symmetry size) (a b : Board) (p q : Piece) : Prop where
  id : q.id = p.id
  team : q.team = σ.team p.team
  flags : ∀ f, (b.flagsOf q).has f = (a.flagsOf p).has f

/-- Two boards of a size are sound, no piece stands on two squares, and the second board is the first one turned
around. -/
structure Board.Image {size : Coord} (σ : Symmetry size) (a b : Board) : Prop where
  left_size : a.size = size
  right_size : b.size = size
  left_sound : a.Sound
  right_sound : b.Sound
  left_distinct : a.Distinct
  right_distinct : b.Distinct
  pieces : ∀ c, Option.Rel (Piece.Image σ a b) (a.pieceAt c) (b.pieceAt (σ.square c))

/-- What is related stays related if the relation becomes weaker. -/
theorem rel_imp {α β : Type} {R S : α → β → Prop} {x : Option α} {y : Option β} (h : Option.Rel R x y)
    (himp : ∀ p q, x = some p → y = some q → R p q → S p q) : Option.Rel S x y := by
  cases h with
  | some hr => exact .some (himp _ _ rfl rfl hr)
  | none => exact .none

namespace Board.Image

variable {size : Coord} {σ : Symmetry size} {a b : Board} {c : Coord} {p q : Piece} {m : Move}

theorem contains_eq (h : Image σ a b) (c : Coord) : b.contains (σ.square c) = a.contains c := by
  rw [σ.contains_square b h.right_size, contains_congr (h.left_size.trans h.right_size.symm)]

/-- Every piece has an image. -/
theorem exists_image (h : Image σ a b) (hp : a.get c = .ok (some (.piece p))) :
    ∃ q, b.get (σ.square c) = .ok (some (.piece q)) ∧ p.Image σ a b q := by
  have hpieces := h.pieces c
  rw [pieceAt_eq_some_iff.2 hp] at hpieces
  generalize hq : b.pieceAt (σ.square c) = y at hpieces
  cases hpieces with
  | some himage => exact ⟨_, pieceAt_eq_some_iff.1 hq, himage⟩

/-- Every piece is an image. -/
theorem exists_preimage (h : Image σ a b) (hq : b.get (σ.square c) = .ok (some (.piece q))) :
    ∃ p, a.get c = .ok (some (.piece p)) ∧ p.Image σ a b q := by
  have hpieces := h.pieces c
  rw [pieceAt_eq_some_iff.2 hq] at hpieces
  generalize hp : a.pieceAt c = x at hpieces
  cases hpieces with
  | some himage => exact ⟨_, pieceAt_eq_some_iff.1 hp, himage⟩

theorem isSome_pieceAt (h : Image σ a b) (c : Coord) : (b.pieceAt (σ.square c)).isSome = (a.pieceAt c).isSome := by
  have hpieces := h.pieces c
  generalize a.pieceAt c = x at hpieces
  generalize b.pieceAt (σ.square c) = y at hpieces
  cases hpieces <;> rfl

/-- **Behind a move and its image, a board and its image are so again.** -/
theorem moved (h : Image σ a b) (hs : a.contains m.src = true) (hd : a.contains m.dst = true) :
    Image σ (a.moved m) (b.moved (σ.move m)) := by
  have ha := h.left_sound
  have hb := h.right_sound
  have hs' : b.contains (σ.move m).src = true := (h.contains_eq m.src).trans hs
  have hd' : b.contains (σ.move m).dst = true := (h.contains_eq m.dst).trans hd
  refine ⟨(moved_size a m).trans h.left_size, (moved_size b _).trans h.right_size, ha.moved hs hd, hb.moved hs' hd',
    h.left_distinct.moved ha hs hd, h.right_distinct.moved hb hs' hd', fun c => ?_⟩
  rw [pieceAt_moved ha hs hd, pieceAt_moved hb hs' hd']
  simp only [Symmetry.move_src, Symmetry.move_dst, Symmetry.square_inj]
  by_cases hdst : c = m.dst
  · rw [if_pos hdst, if_pos hdst]
    apply rel_imp (h.pieces m.src)
    intro p q hp hq himage
    refine ⟨himage.id, himage.team, fun f => ?_⟩
    rw [flagsOf_moved_src ha hs hp, flagsOf_moved_src hb hs' hq, Flags.has_without, Flags.has_without, himage.flags]
  · rw [if_neg hdst, if_neg hdst]
    by_cases hsrc : c = m.src
    · rw [if_pos hsrc, if_pos hsrc]
      exact .none
    · rw [if_neg hsrc, if_neg hsrc]
      apply rel_imp (h.pieces c)
      intro p q hp hq himage
      have hne : σ.square c ≠ (σ.move m).src := fun he => hsrc (Symmetry.square_inj.1 he)
      refine ⟨himage.id, himage.team, fun f => ?_⟩
      rw [flagsOf_moved_of_ne ha hs h.left_distinct hp hsrc,
        flagsOf_moved_of_ne hb hs' h.right_distinct hq hne, himage.flags]

end Board.Image

/-! ## Finding images -/

namespace Board

variable {size : Coord} {σ : Symmetry size} {a b : Board}

/-- What can be seen on a square: the kind of a piece, its team and its flags. -/
def seen (b : Board) (c : Coord) : Option (Data × Data × Flags) :=
  (b.pieceAt c).map fun p => (p.id, p.team, b.flagsOf p)

/-- A board is the image of another one if, on every square, what can be seen is what it should be. -/
theorem image_of_seen (hleft : a.size = size) (hright : b.size = size) (ha : a.Sound) (hb : b.Sound)
    (hda : a.Distinct) (hdb : b.Distinct)
    (hseen : ∀ c ∈ a.squares, b.seen (σ.square c) = (a.seen c).map fun s => (s.1, σ.team s.2.1, s.2.2)) :
    Image σ a b := by
  refine ⟨hleft, hright, ha, hb, hda, hdb, fun c => ?_⟩
  cases hc : a.contains c with
  | false =>
    have hc' : b.contains (σ.square c) = false := by
      rw [σ.contains_square b hright, contains_congr (hright.trans hleft.symm), hc]
    rw [pieceAt_eq_none hc, pieceAt_eq_none hc']
    exact .none
  | true =>
    have hsame := hseen c (mem_squares.2 hc)
    unfold seen at hsame
    generalize a.pieceAt c = x at hsame
    generalize b.pieceAt (σ.square c) = y at hsame
    cases x with
    | none =>
      cases y with
      | none => exact .none
      | some q => cases hsame
    | some p =>
      cases y with
      | none => cases hsame
      | some q =>
        simp only [Option.map_some, Option.some.injEq, Prod.mk.injEq] at hsame
        obtain ⟨hid, hteam, hflags⟩ := hsame
        exact .some ⟨hid, hteam, fun f => by rw [hflags]⟩

/-- The index of a sound board lists pieces. -/
theorem Sound.exists_pieces (h : b.Sound) :
    ∃ pieces : List (Coord × Piece), b.index = pieces.map fun e => (e.1, .piece e.2) :=
  exists_map_piece fun _ he => (h.of_mem_index he).2.imp fun _ hp => hp.1

/-- A board with a square has its size. -/
theorem exists_empty {c : Coord} (hc : b.contains c = true) : ∃ b₀, empty b.size = .ok b₀ := by
  obtain ⟨hx, hy, hz, hw⟩ := contains_iff.1 hc
  have hextents : b.size.nested.any (· < 0) = false := by
    simp only [Coord.nested, List.any_cons, List.any_nil, Bool.or_false, Bool.or_eq_false_iff, decide_eq_false_iff_not]
    omega
  exact ⟨_, by rw [empty, hextents, if_neg Bool.false_ne_true]⟩

section Listed

variable {pieces : List (Coord × Piece)} (h : b.Sound) (hpieces : b.index = pieces.map fun e => (e.1, .piece e.2))

include h hpieces

theorem get_iff_mem_pieces {c : Coord} {p : Piece} : b.get c = .ok (some (.piece p)) ↔ (c, p) ∈ pieces := by
  rw [h.get_eq_piece_iff, hpieces, List.mem_map]
  simp

theorem contains_of_mem_pieces {e : Coord × Piece} (he : e ∈ pieces) : b.contains e.1 = true :=
  ((get_eq_ok_iff h.toFramed).1 ((get_iff_mem_pieces h hpieces).2 he)).1

/-- If no piece stands on two squares, none is listed twice. -/
theorem nodup_serials (hdistinct : b.Distinct) : (pieces.map (·.2.serial)).Nodup := by
  have hnodup : pieces.Nodup := List.Nodup.of_map _ (hpieces ▸ h.keys.of_map)
  apply hnodup.map_on
  rintro ⟨c, p⟩ hp ⟨d, q⟩ hq he
  rw [← get_iff_mem_pieces h hpieces] at hp hq
  have hcd : c = d := hdistinct hp hq he
  subst hcd
  rw [hp] at hq
  cases hq
  rfl

/-- A board on which the pieces have been put turned around is the image. -/
theorem image_of_arranged {b' : Board} (hsize : b.size = size) (hdistinct : b.Distinct)
    (hb' : arranged size b.flags (pieces.map σ.piece) = .ok b') : Image σ b b' := by
  have hright : b'.size = size := arranged_size hb'
  have hinside : ∀ e ∈ pieces.map σ.piece, b'.contains e.1 = true := by
    intro e' he'
    obtain ⟨e, he, rfl⟩ := List.mem_map.1 he'
    have hc := contains_of_mem_pieces h hpieces he
    show b'.contains (σ.square e.1) = true
    rw [σ.contains_square b' hright, contains_congr (hright.trans hsize.symm), hc]
  have hkeys : ((pieces.map σ.piece).map (·.1)).Nodup := by
    have hnodup := h.keys
    rw [hpieces, List.map_map] at hnodup
    have hsquares := hnodup.map (f := σ.square) fun _ _ he => Symmetry.square_inj.1 he
    rw [List.map_map] at hsquares ⊢
    exact hsquares
  have hserials : ((pieces.map σ.piece).map (·.2.serial)).Nodup := by
    rw [List.map_map]
    exact nodup_serials h hpieces hdistinct
  obtain ⟨hsound, hflags, -⟩ := arranged_invariant hb' hinside (fun _ _ => True) (fun _ => trivial)
    fun _ _ _ _ _ _ _ => trivial
  have hindex := arranged_index hb' hinside hkeys
  refine ⟨hsize, hright, h, hsound, hdistinct, arranged_distinct hb' hinside hserials, fun c => ?_⟩
  have hmem {q : Piece} : b'.get (σ.square c) = .ok (some (.piece q)) ↔
      ∃ p, (c, p) ∈ pieces ∧ q = ⟨p.serial, p.id, σ.team p.team⟩ := by
    rw [get_iff_mem_pieces hsound hindex, List.mem_map]
    constructor
    · rintro ⟨⟨d, p⟩, hp, he⟩
      obtain ⟨hd, hq⟩ := Prod.mk.inj he
      have hdc : d = c := Symmetry.square_inj.1 hd
      rw [hdc] at hp
      exact ⟨p, hp, hq.symm⟩
    · rintro ⟨p, hp, rfl⟩
      exact ⟨(c, p), hp, rfl⟩
  cases hp : b.pieceAt c with
  | some p =>
    have hin := (get_iff_mem_pieces h hpieces).1 (pieceAt_eq_some_iff.1 hp)
    rw [pieceAt_eq_some_iff.2 (hmem.2 ⟨p, hin, rfl⟩)]
    exact .some ⟨rfl, rfl, fun f => by rw [flagsOf, hflags]; rfl⟩
  | none =>
    cases hq : b'.pieceAt (σ.square c) with
    | none => exact .none
    | some q =>
      obtain ⟨p, hin, -⟩ := hmem.1 (pieceAt_eq_some_iff.1 hq)
      rw [pieceAt_eq_some_iff.2 ((get_iff_mem_pieces h hpieces).2 hin)] at hp
      cases hp

end Listed

/-- **Every board has an image**, under every symmetry. -/
theorem exists_image (hsize : b.size = size) (h : b.Sound) (hdistinct : b.Distinct) : ∃ b', Image σ b b' := by
  obtain ⟨pieces, hpieces⟩ := h.exists_pieces
  cases hlist : pieces with
  | nil =>
    -- an empty board is its own image
    have hnone (c : Coord) : b.pieceAt c = none := by
      cases hp : b.pieceAt c with
      | none => rfl
      | some p =>
        have hin := (get_iff_mem_pieces h hpieces).1 (pieceAt_eq_some_iff.1 hp)
        rw [hlist] at hin
        cases hin
    refine ⟨b, hsize, hsize, h, h, hdistinct, hdistinct, fun c => ?_⟩
    rw [hnone, hnone]
    exact .none
  | cons e rest =>
    have hfirst : e ∈ pieces := hlist ▸ List.mem_cons_self
    obtain ⟨b₀, hb₀⟩ := exists_empty (contains_of_mem_pieces h hpieces hfirst)
    have hsize₀ : b₀.size = b.size := by rw [empty_eq_ok hb₀]
    rw [hsize] at hb₀
    obtain ⟨b', hb'⟩ : ∃ b', arranged size b.flags (pieces.map σ.piece) = .ok b' := by
      apply exists_arranged hb₀
      intro e' he'
      obtain ⟨e, he, rfl⟩ := List.mem_map.1 he'
      show b₀.contains (σ.square e.1) = true
      rw [σ.contains_square b₀ (hsize₀.trans hsize), contains_congr hsize₀, contains_of_mem_pieces h hpieces he]
    exact ⟨b', image_of_arranged h hpieces hsize hdistinct hb'⟩

end Board

end Hyperchess
