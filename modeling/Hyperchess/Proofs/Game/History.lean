import Hyperchess.Proofs.Game.Symmetry
import Hyperchess.Proofs.Reach.Likeness

/-!
# Legality does not depend on history

Two boards can have come about in different ways and look alike: then their indexes list the pieces in different orders,
and the pieces have other serial numbers. Each is the image of the other under the symmetry that leaves everything as it
is (`Resembles.image`), which all rules respect (`RuleBook.respects_refl`). Main statement: two games with such boards
answer alike, only the moves of a team come in another order (`answers_eq_of_resembles`).
-/

namespace Hyperchess

namespace Board

variable {a b : Board} {v : Variant} {c : Coord} {m : Move} {team : Data}

/-! ## Likeness as a symmetry -/

/-- A board that looks like another one is its image if everything is left as it is. -/
theorem Resembles.image (h : a.Resembles b) (ha : a.Sound) (hb : b.Sound) (hda : a.Distinct) (hdb : b.Distinct) :
    Image (.refl a.size) a b where
  left_size := rfl
  right_size := h.size.symm
  left_sound := ha
  right_sound := hb
  left_distinct := hda
  right_distinct := hdb
  pieces c := by
    rw [Symmetry.refl_square]
    cases hc : a.contains c with
    | false =>
      have hc' : b.contains c = false := (contains_congr h.size c).symm.trans hc
      rw [pieceAt_eq_none hc, pieceAt_eq_none hc']
      exact .none
    | true =>
      have hc' : b.contains c = true := (contains_congr h.size c).symm.trans hc
      obtain ⟨x, y, hx, hy, hxy⟩ := h.cells hc
      rw [ha.populated.cell_eq hc] at hx
      rw [hb.populated.cell_eq hc'] at hy
      cases hx
      cases hy
      generalize a.pieceAt c = p at hxy
      generalize b.pieceAt c = q at hxy
      cases p with
      | none =>
        cases q with
        | none => exact .none
        | some q => cases hxy
      | some p =>
        cases q with
        | none => cases hxy
        | some q =>
          cases hxy with
          | piece hlike => exact .some ⟨hlike.id.symm, hlike.team.symm, fun f => (hlike.flags f).symm⟩

/-- The image of a board looks like it if everything is left as it is. -/
theorem Image.resembles {size : Coord} (h : Image (.refl size) a b) : a.Resembles b where
  size := h.left_size.trans h.right_size.symm
  cells {c} hc := by
    have hc' : b.contains c = true := (h.contains_eq c).trans hc
    refine ⟨_, _, h.left_sound.populated.cell_eq hc, h.right_sound.populated.cell_eq hc', ?_⟩
    have hpieces : Option.Rel (Piece.Image (.refl size) a b) (a.pieceAt c) (b.pieceAt c) := h.pieces c
    generalize a.pieceAt c = x at hpieces
    generalize b.pieceAt c = y at hpieces
    cases hpieces with
    | none => exact .none
    | some himage => exact .piece ⟨himage.id.symm, himage.team.symm, fun f => (himage.flags f).symm⟩

end Board

/-- All rules that can be found respect the symmetry that leaves everything as it is. -/
theorem RuleBook.respects_refl {book : RuleBook} (hroom : book.Roomy) (hclosed : book.Closed) (size : Coord) :
    book.Respects (.refl size) := by
  intro a b h hruled c p hp
  obtain ⟨found, hfound⟩ := hruled.supplied h.left_sound.populated hroom hclosed hp
  have hsame : a.candidates book c = b.candidates book c :=
    h.resembles.candidates_eq_of_contains book (Board.contains_of_get hp).1
  refine ⟨found, found, hfound, hsame.symm.trans hfound, ?_⟩
  rw [funext Symmetry.move_refl, List.map_id']

namespace Board

variable {a b : Board} {v : Variant} {c : Coord}

/-! ## Boards that look alike -/

section Alike

variable (h : a.Resembles b) (ha : a.Sound) (hb : b.Sound) (hda : a.Distinct) (hdb : b.Distinct)
  (hroom : v.book.Roomy) (hclosed : v.book.Closed) (hruled : a.Ruled v.book)

include h ha hb hda hdb hroom hclosed hruled

/-- A move is judged alike on boards that look alike. A move that leaves the board is refused with the same report. -/
theorem exposure_eq_of_resembles (hdigits : a.digits = b.digits) (m : Move) (team : Data) :
    a.exposure v m team = b.exposure v m team := by
  have hcontains (c : Coord) : a.contains c = b.contains c := contains_congr h.size c
  by_cases hm : a.contains m.src = true ∧ a.contains m.dst = true
  · have himage := h.image ha hb hda hdb
    have hjudged := exposure_image himage (RuleBook.respects_refl hroom hclosed a.size) hruled hm.1 hm.2 team
    rw [Symmetry.move_refl, Symmetry.refl_team] at hjudged
    exact hjudged.symm
  · have hm' : ¬(b.contains m.src = true ∧ b.contains m.dst = true) := by rwa [← hcontains, ← hcontains]
    have hfault : a.edgeFault m = b.edgeFault m := by simp only [edgeFault, edgeFaultAt, hcontains, h.size, hdigits]
    have hsome : (b.pieceAt m.src).isSome = (a.pieceAt m.src).isSome := (h.image ha hb hda hdb).isSome_pieceAt m.src
    rw [exposure_outside ha hm, exposure_outside hb hm', hfault, hsome, hcontains]

/-- The moves of a square are the same on boards that look alike. -/
theorem movesOf_eq_of_resembles (hdigits : a.digits = b.digits) (c : Coord) (safe : Bool) :
    a.movesOf v c safe = b.movesOf v c safe := by
  have hexposure := exposure_eq_of_resembles h ha hb hda hdb hroom hclosed hruled hdigits
  have hunexposed (team : Data) (moves : List Move) : a.unexposed v team moves = b.unexposed v team moves := by
    simp only [unexposed_eq_flatMapM, hexposure]
  cases hc : a.contains c with
  | false =>
    have hc' : b.contains c = false := (contains_congr h.size c).symm.trans hc
    rw [movesOf, movesOf, get_eq_error hc, get_eq_error hc', edgeFaultAt, h.size, hdigits, edgeFaultAt]
  | true =>
    have hc' : b.contains c = true := (contains_congr h.size c).symm.trans hc
    have hpieces := (h.image ha hb hda hdb).pieces c
    rw [Symmetry.refl_square] at hpieces
    rw [movesOf, movesOf, ha.populated.get_eq hc, hb.populated.get_eq hc', h.candidates_eq_of_contains v.book hc]
    generalize a.pieceAt c = x at hpieces
    generalize b.pieceAt c = y at hpieces
    cases hpieces with
    | none => rfl
    | @some p q himage =>
      have hteam : q.team = p.team := himage.team
      simp only [Option.map_some, Occupant.asPiece, Outcome.ok_bind, hunexposed, hteam]

/-- The moves of a team are the same on boards that look alike, in whatever order. -/
theorem movesFrom_shuffled_of_resembles (team : Data) (safe : Bool) :
    Outcome.Shuffled (a.movesFrom v team safe a.index) (b.movesFrom v team safe b.index) := by
  have himage := movesFrom_image (h.image ha hb hda hdb) (RuleBook.respects_refl hroom hclosed a.size) hruled team safe
  have hsame : (a.movesFrom v team safe a.index).map (List.map (Symmetry.refl a.size).move) =
      a.movesFrom v team safe a.index := by
    rw [funext Symmetry.move_refl]
    cases a.movesFrom v team safe a.index with
    | error e => rfl
    | ok found => rw [Except.map, List.map_id']
  rw [Symmetry.refl_team, hsame] at himage
  exact himage

end Alike

end Board

namespace Game

variable {g h : Game}

/-- **Legality does not depend on history.** Two games on one machine have boards on which every square holds nothing or
pieces of the same kind and team with the same flags, and on which no piece stands on two squares; they have one
variant, in which every piece and every reference has a rule. Then every square has the same moves in both, in the same
order, every move is judged alike, and every team has the same moves up to their order. If the teams can be put in
order, all of this is answered. -/
theorem answers_eq_of_resembles (hg : g.Proper) (hh : h.Proper) (hdg : g.board.Distinct) (hdh : h.board.Distinct)
    (hlike : g.board.Resembles h.board) (hdigits : g.board.digits = h.board.digits) (hvariant : h.variant = g.variant)
    (hroom : g.variant.book.Roomy) (hclosed : g.variant.book.Closed) (hruled : g.board.Ruled g.variant.book) :
    (∀ (c : Coord) (safe : Bool), (g.moves c safe).1 = (h.moves c safe).1) ∧
    (∀ (m : Move) (team : Data), (g.exposes m team).1 = (h.exposes m team).1) ∧
    (∀ (team : Data) (safe : Bool), Outcome.Shuffled (g.teamMoves team safe).1 (h.teamMoves team safe).1) ∧
    (g.board.Orderly → g.Responds) := by
  refine ⟨fun c safe => ?_, fun m team => ?_, fun team safe => ?_, hg.responds hroom hclosed hruled⟩
  · rw [(moves_spec hg c safe).answer, (moves_spec hh c safe).answer, hvariant]
    exact Board.movesOf_eq_of_resembles hlike hg.sound hh.sound hdg hdh hroom hclosed hruled hdigits c safe
  · rw [(exposes_spec hg m team).answer, (exposes_spec hh m team).answer, hvariant]
    exact Board.exposure_eq_of_resembles hlike hg.sound hh.sound hdg hdh hroom hclosed hruled hdigits m team
  · rw [(teamMoves_spec hg team safe).answer, (teamMoves_spec hh team safe).answer, hvariant]
    exact Board.movesFrom_shuffled_of_resembles hlike hg.sound hh.sound hdg hdh hroom hclosed hruled team safe

/-- The king was put on the board before the rook, or after it: the team has its moves in another order. -/
theorem answers_eq_of_resembles_king :
    let v : Variant := ⟨{ custom := [] }, [.text "K"]⟩
    let king (serial : Nat) : Coord × Piece := (⟨0, 0, 0, 0⟩, ⟨serial, .text "K", .int 0⟩)
    let rook (serial : Nat) : Coord × Piece := (⟨2, 0, 0, 0⟩, ⟨serial, .text "R", .int 0⟩)
    ∃ b b', Board.arranged ⟨3, 2, 1, 1⟩ #[[.int 1], []] [king 0, rook 1] = .ok b ∧
      Board.arranged ⟨3, 2, 1, 1⟩ #[[], [.int 1]] [rook 0, king 1] = .ok b' ∧
      ∃ found found', (Game.teamMoves ⟨b, v, none, []⟩ (.int 0) true).1 = .ok found ∧
        (Game.teamMoves ⟨b', v, none, []⟩ (.int 0) true).1 = .ok found' ∧ found ≠ found' ∧ found.Perm found' := by
  intro v king rook
  have hrun : (Board.arranged ⟨3, 2, 1, 1⟩ #[[.int 1], []] [king 0, rook 1] >>= fun b =>
      Board.arranged ⟨3, 2, 1, 1⟩ #[[], [.int 1]] [rook 0, king 1] >>= fun b' =>
        (Game.teamMoves ⟨b, v, none, []⟩ (.int 0) true).1 >>= fun found =>
          (Game.teamMoves ⟨b', v, none, []⟩ (.int 0) true).1 >>= fun found' =>
            .ok (decide (∀ c ∈ b.squares, b'.seen c = (b.seen c).map fun s => (s.1, s.2.1, s.2.2)),
              decide (found = found'))) = .ok (true, false) := by decide +kernel
  obtain ⟨b, hb, hrun⟩ := Outcome.bind_eq_ok_iff.1 hrun
  obtain ⟨b', hb', hrun⟩ := Outcome.bind_eq_ok_iff.1 hrun
  obtain ⟨found, hfound, hrun⟩ := Outcome.bind_eq_ok_iff.1 hrun
  obtain ⟨found', hfound', hrun⟩ := Outcome.bind_eq_ok_iff.1 hrun
  simp only [Except.ok.injEq, Prod.mk.injEq, decide_eq_true_eq, decide_eq_false_iff_not] at hrun
  obtain ⟨hseen, hne⟩ := hrun
  refine ⟨b, b', hb, hb', found, found', hfound, hfound', hne, ?_⟩
  have hinside : ∀ e ∈ [king 0, rook 1], b.contains e.1 = true := by
    simp [king, rook, Board.contains, Board.arranged_size hb]
  have hinside' : ∀ e ∈ [rook 0, king 1], b'.contains e.1 = true := by
    simp [king, rook, Board.contains, Board.arranged_size hb']
  have hsound := Board.arranged_sound hb hinside
  have hsound' := Board.arranged_sound hb' hinside'
  have hsize : b.size = b'.size := (Board.arranged_size hb).trans (Board.arranged_size hb').symm
  have hdigits : b.digits = b'.digits := (Board.arranged_frame hb).2.trans (Board.arranged_frame hb').2.symm
  have hdistinct := Board.arranged_distinct hb hinside (by decide)
  have hdistinct' := Board.arranged_distinct hb' hinside' (by decide)
  have himage : Board.Image (.refl b.size) b b' :=
    Board.image_of_seen rfl hsize.symm hsound hsound' hdistinct hdistinct' hseen
  have hproper : Game.Proper ⟨b, v, none, []⟩ :=
    .of_cache_eq_none hsound (Board.arranged_enrolled hb hinside (by decide)) rfl
  have hproper' : Game.Proper ⟨b', v, none, []⟩ :=
    .of_cache_eq_none hsound' (Board.arranged_enrolled hb' hinside' (by decide)) rfl
  have hruled : b.Ruled v.book := by
    intro c p hp
    have hmem := hsound.get_eq_piece_iff.1 hp
    rw [Board.arranged_index hb hinside (by decide)] at hmem
    simp only [List.map_cons, List.map_nil, List.mem_cons, List.not_mem_nil, or_false, Prod.mk.injEq,
      Occupant.piece.injEq] at hmem
    rcases hmem with ⟨-, rfl⟩ | ⟨-, rfl⟩
    · exact ⟨Rule.king, rfl⟩
    · exact ⟨Rule.rook, rfl⟩
  have hroom : v.book.Roomy := by decide +kernel
  have hclosed : v.book.Closed := by decide +kernel
  have hanswers := answers_eq_of_resembles hproper hproper' hdistinct hdistinct' himage.resembles hdigits rfl hroom
    hclosed hruled
  have hshuffled := hanswers.2.2.1 (.int 0) true
  rw [hfound, hfound'] at hshuffled
  cases hshuffled with
  | ok hperm => exact hperm

end Game

end Hyperchess
