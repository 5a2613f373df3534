import Hyperchess.Proofs.Board.Symmetry
import Hyperchess.Proofs.Game.Membership

/-!
# What a move does

The effect of a move is described by what can be read of the boards in front of it and behind it (`Board.Effect`): the
two ends of the move, all other squares, the flags of the piece that moves and those of all others, what is captured,
the number of pieces, and the order of the index. A move between two squares of a sound board has this effect
(`Board.exists_effect`), also if it leads nowhere or starts on an empty square, and if pieces stand on several squares.
Main statement: so has every move that is accepted, and it captures nothing or a piece of another team (`move_effect`).
-/

namespace Hyperchess

namespace Board

variable {b : Board} {m : Move} {c : Coord}

/-- What a move does to a board: `b'` is the board behind it, and `captured` what was captured. -/
structure Effect (b : Board) (m : Move) (captured : Option Occupant) (b' : Board) : Prop where
  size : b'.size = b.size
  /-- All squares but the two ends are as they were, and squares beyond the edge are refused as they were. -/
  elsewhere : ∀ c, c ≠ m.src → c ≠ m.dst → b'.get c = b.get c
  /-- What stood on the source, be it nothing, is on the destination. -/
  arrives : b'.get m.dst = b.get m.src
  leaves : m.src ≠ m.dst → b'.get m.src = .ok none
  /-- Of its flags the piece that moves loses the first-move flag and no other. -/
  ownFlags : ∀ p, b.get m.src = .ok (some (.piece p)) →
    ∀ f, (b'.flagsOf p).has f = ((b.flagsOf p).has f && !f.same Flags.firstMove)
  otherFlags : ∀ q : Piece, (∀ p, b.get m.src = .ok (some (.piece p)) → q.serial ≠ p.serial) →
    b'.flagsOf q = b.flagsOf q
  captures : m.src ≠ m.dst → b.get m.dst = .ok captured
  /-- A move that leads nowhere captures nothing. -/
  spares : m.src = m.dst → captured = none
  /-- There is one entry less if something was captured, and otherwise as many. -/
  count : b'.index.length + captured.isSome.toNat = b.index.length
  /-- The other entries keep their order, and the piece that has moved is the last one. -/
  index : b'.index = (b.index.filter fun e => e.1 ≠ m.src ∧ e.1 ≠ m.dst) ++
    ((b.pieceAt m.src).map fun p => (m.dst, .piece p)).toList

/-! ## The number of entries -/

/-- The entries for a square of a sound board are as many as the pieces on it. -/
theorem Sound.countP_index (h : b.Sound) (hc : b.contains c = true) :
    b.index.countP (fun e => e.1 == c) = (b.occupant c).isSome.toNat := by
  have hcount : b.index.countP (fun e => e.1 == c) = (b.index.map (·.1)).count c := by
    rw [List.count, List.countP_map]
    rfl
  rw [hcount]
  cases ho : b.occupant c with
  | none =>
    refine List.count_eq_zero_of_not_mem fun hmem => ?_
    obtain ⟨e, he, rfl⟩ := List.mem_map.1 hmem
    rw [(h.mem_index.1 he).2] at ho
    cases ho
  | some o =>
    have hmem : (c, o) ∈ b.index := h.mem_index.2 ⟨hc, ho⟩
    exact List.count_eq_one_of_mem h.keys (List.mem_map_of_mem hmem)

/-- Putting something, or nothing, on a square: the number of entries changes by what comes and by what goes. -/
theorem Sound.length_index_placed (h : b.Sound) (hc : b.contains c = true) (o : Option Occupant) :
    (b.placed c o).index.length + (b.occupant c).isSome.toNat = b.index.length + o.isSome.toNat := by
  have hsplit := List.length_eq_countP_add_countP (fun e : Coord × Occupant => e.1 == c) (l := b.index)
  have hrest : (unindexed b.index c).length = b.index.countP fun e => ¬(e.1 == c) = true := by
    rw [List.countP_eq_length_filter, unindexed]
    congr 1
    exact List.filter_congr fun e _ => by simp [bne, beq_eq_decide]
  rw [h.countP_index hc, ← hrest] at hsplit
  cases o with
  | none =>
    show (unindexed b.index c).length + _ = b.index.length + 0
    omega
  | some o =>
    show (unindexed b.index c ++ [(c, o)]).length + _ = b.index.length + 1
    rw [List.length_append, List.length_singleton]
    omega

/-! ## Moves -/

section Moved

variable (h : b.Sound) (hs : b.contains m.src = true) (hd : b.contains m.dst = true)

include h hs hd

/-- Away from its ends a move changes nothing. -/
theorem get_moved_of_ne (hsrc : c ≠ m.src) (hdst : c ≠ m.dst) : (b.moved m).get c = b.get c := by
  cases hc : b.contains c with
  | false =>
    have hc' : (b.moved m).contains c = false := (moved_contains b m c).trans hc
    rw [get_eq_error hc, get_eq_error hc', edgeFaultAt, moved_size, moved_digits, edgeFaultAt]
  | true =>
    have hc' : (b.moved m).contains c = true := (moved_contains b m c).trans hc
    rw [get_eq h.toFramed hc, get_eq (h.toFramed.moved m) hc', occupant_moved h.toFramed hs hd hc, if_neg hdst,
      if_neg hsrc]

/-- A move changes the number of entries by what it captures. -/
theorem length_index_moved :
    (b.moved m).index.length + ((b.placed m.src none).occupant m.dst).isSome.toNat = b.index.length := by
  have hfirst := h.length_index_placed hs none
  have hsecond := (h.placed hs none).length_index_placed (c := m.dst) hd (b.occupant m.src)
  rw [moved, settled_index]
  simp only [Option.map_none, Option.isSome_none, Bool.toNat_false] at hfirst hsecond
  omega

omit hd in
/-- The entries behind a move. -/
theorem index_moved : (b.moved m).index = (b.index.filter fun e => e.1 ≠ m.src ∧ e.1 ≠ m.dst) ++
    ((b.pieceAt m.src).map fun p => (m.dst, .piece p)).toList := by
  have hothers : unindexed (unindexed b.index m.src) m.dst = b.index.filter fun e => e.1 ≠ m.src ∧ e.1 ≠ m.dst := by
    rw [unindexed, unindexed, List.filter_filter]
    exact List.filter_congr fun e _ => by simp [bne, beq_eq_decide, Bool.and_comm]
  rw [moved, settled_index, ← hothers, h.populated.occupant_eq_pieceAt hs]
  cases b.pieceAt m.src with
  | none => exact (List.append_nil _).symm
  | some p => rfl

/-- **The effect of a move** between two squares of a sound board. -/
theorem exists_effect : ∃ captured b', b.move m = (.ok captured, b') ∧ b.Effect m captured b' := by
  have hafter := h.moved hs hd
  have hcaptured : (b.placed m.src none).occupant m.dst = if m.dst = m.src then none else b.occupant m.dst :=
    occupant_placed h.toFramed hs hd none
  refine ⟨_, _, move_eq h hs hd, ⟨moved_size b m, fun c => get_moved_of_ne h hs hd, ?_, fun hne => ?_,
    fun p hp f => ?_, fun q hq => ?_, fun hne => ?_, fun heq => ?_, length_index_moved h hs hd,
    index_moved h hs⟩⟩
  · have hd' : (b.moved m).contains m.dst = true := (moved_contains b m m.dst).trans hd
    rw [get_eq hafter.toFramed hd', get_eq h.toFramed hs, occupant_moved h.toFramed hs hd hd, if_pos rfl]
  · have hs' : (b.moved m).contains m.src = true := (moved_contains b m m.src).trans hs
    rw [get_eq hafter.toFramed hs', occupant_moved h.toFramed hs hd hs, if_neg hne, if_pos rfl]
  · rw [flagsOf_moved_src h hs (pieceAt_eq_some_iff.2 hp), Flags.has_without]
  · cases hp : b.pieceAt m.src with
    | none => rw [moved, h.populated.occupant_eq_pieceAt hs, hp]; rfl
    | some p =>
      rw [moved, h.populated.occupant_eq_pieceAt hs, hp]
      exact flagsOf_setFlags_of_ne (hq p (pieceAt_eq_some_iff.1 hp)) _
  · rw [hcaptured, if_neg fun heq => hne heq.symm, get_eq h.toFramed hd]
  · rw [hcaptured, if_pos heq.symm]

end Moved

/-! ## Permitted moves -/

/-- A permitted move leads to a square that the piece can enter. -/
theorem enters_of_permits (h : b.Sound) {v : Variant} {safe : Bool} (hp : b.permits v m safe = .ok true) :
    ∃ p, b.get m.src = .ok (some (.piece p)) ∧ (b.standing p m.src).Enters true m.dst := by
  obtain ⟨p, moves, hget, hmoves, n, hn, hsame⟩ := (permits_iff h hp).1 rfl
  rw [movesOf_piece hget] at hmoves
  obtain ⟨candidates, hcandidates, hmoves⟩ := Outcome.bind_eq_ok_iff.1 hmoves
  have hmem : n ∈ candidates := by
    cases safe with
    | false =>
      cases hmoves
      exact hn
    | true =>
      obtain ⟨-, hfilter⟩ := unexposed_eq_filter hmoves
      rw [hfilter] at hn
      exact (List.mem_filter.1 hn).1
  obtain ⟨p', hget', d, rfl, henters⟩ := entered_of_mem_candidates h.populated hcandidates hmem
  rw [hget] at hget'
  cases hget'
  simp only [Move.sameEnds, Bool.and_eq_true, beq_iff_eq] at hsame
  rw [hsame.2]
  exact ⟨p, hget, henters⟩

/-- A piece does not take its own team's pieces on a square that it can enter. -/
theorem Effect.captured_of_enters {b' : Board} {captured : Option Occupant} {p : Piece} (h : b.Effect m captured b')
    (henters : (b.standing p m.src).Enters true m.dst) :
    captured = none ∨ ∃ q, captured = some (.piece q) ∧ q.team.same p.team = false := by
  by_cases heq : m.src = m.dst
  · exact Or.inl (h.spares heq)
  · have hget := h.captures heq
    obtain hempty | ⟨-, q, hq, hteam⟩ := henters
    · cases hget.symm.trans hempty
      exact Or.inl rfl
    · cases hget.symm.trans hq
      exact Or.inr ⟨q, rfl, hteam⟩

end Board

namespace Game

/-- **What moves do.** A move between two squares of a sound board succeeds and has the effect of a move. So has every
move that is accepted in a reachable game, and it captures nothing, or a piece of another team than the one that
moves. -/
theorem move_effect :
    (∀ (b : Board) (m : Move), b.Sound → b.contains m.src = true → b.contains m.dst = true →
      ∃ captured b', b.move m = (.ok captured, b') ∧ b.Effect m captured b') ∧
    ∀ (g g' : Game) (m : Move) (captured : Option Occupant), g.Reachable →
      g.tryMove m = (.ok (true, captured), g') → g.board.Effect m captured g'.board ∧
        ∃ p, g.board.get m.src = .ok (some (.piece p)) ∧
          (captured = none ∨ ∃ q, captured = some (.piece q) ∧ q.team.same p.team = false) := by
  refine ⟨fun b m h hs hd => Board.exists_effect h hs hd, fun g g' m captured hg haccepted => ?_⟩
  have hsound := hg.proper.sound
  obtain ⟨hpermits, -⟩ := accepted_spec hg.proper haccepted
  obtain ⟨hs, hd, -⟩ := Board.exposure_of_permits hsound hpermits
  have heffect : g.board.Effect m captured g'.board := by
    obtain ⟨captured', b', hmove, heffect⟩ := Board.exists_effect hsound hs hd
    rw [board_move_of_accepted hg.proper haccepted] at hmove
    cases hmove
    exact heffect
  obtain ⟨p, hp, henters⟩ := Board.enters_of_permits hsound hpermits
  exact ⟨heffect, p, hp, heffect.captured_of_enters henters⟩

/-- A pawn that has not moved yet takes a rook. On the board from before, a move of nothing takes the pawn. -/
theorem move_effect_pawn :
    let pawn : Piece := ⟨0, .text "P", .int 0⟩
    let rook : Piece := ⟨1, .text "R", .int 1⟩
    let capture : Move := ⟨⟨0, 0, 0, 0⟩, ⟨1, 1, 0, 0⟩, none⟩
    let nothing : Move := ⟨⟨1, 0, 0, 0⟩, ⟨0, 0, 0, 0⟩, none⟩
    ∃ g g' : Game, g.Reachable ∧ g.tryMove capture = (.ok (true, some (.piece rook)), g') ∧
      (g.board.flagsOf pawn).has Flags.firstMove = true ∧ (g'.board.flagsOf pawn).has Flags.firstMove = false ∧
      g'.board.index = [(⟨1, 1, 0, 0⟩, .piece pawn)] ∧
      ∃ captured b', g.board.move nothing = (.ok captured, b') ∧ captured = some (.piece pawn) ∧
        b'.index = [(⟨1, 1, 0, 0⟩, .piece rook)] := by
  intro pawn rook capture nothing
  have hrun : (({ layout := some "2,2,1,1 P1,1r" } : Opening).gameWith { custom := [] } >>= fun g =>
      (g.tryMove capture).1 >>= fun outcome =>
        .ok (outcome, g.board.index, g.board.flagsOf pawn, g.board.contains ⟨1, 0, 0, 0⟩)) =
      .ok ((true, some (.piece rook)), [(⟨0, 0, 0, 0⟩, .piece pawn), (⟨1, 1, 0, 0⟩, .piece rook)],
        [Flags.firstMove], true) := by decide +kernel
  obtain ⟨g, hgame, hrun⟩ := Outcome.bind_eq_ok_iff.1 hrun
  obtain ⟨outcome, houtcome, hrun⟩ := Outcome.bind_eq_ok_iff.1 hrun
  simp only [Except.ok.injEq, Prod.mk.injEq] at hrun
  obtain ⟨rfl, hindex, hflags, hin⟩ := hrun
  have hreachable : g.Reachable := .start ⟨g, hgame, rfl⟩
  have hsound := hreachable.proper.sound
  have hpawn : g.board.get ⟨0, 0, 0, 0⟩ = .ok (some (.piece pawn)) := by
    rw [hsound.get_eq_piece_iff, hindex]
    exact List.mem_cons_self
  have hempty : g.board.pieceAt ⟨1, 0, 0, 0⟩ = none := by
    refine Option.eq_none_iff_forall_ne_some.2 fun p hp => ?_
    have hmem := hsound.get_eq_piece_iff.1 (Board.pieceAt_eq_some_iff.1 hp)
    rw [hindex] at hmem
    simp at hmem
  have haccepted : g.tryMove capture = (.ok (true, some (.piece rook)), _) := Prod.ext houtcome rfl
  obtain ⟨heffect, -⟩ := move_effect.2 g _ capture _ hreachable haccepted
  obtain ⟨captured, b', hmove, heffect'⟩ :=
    move_effect.1 g.board nothing hsound hin (Board.contains_of_get hpawn).1
  refine ⟨g, _, hreachable, haccepted, by rw [hflags]; rfl, ?_, ?_, captured, b', hmove, ?_, ?_⟩
  · rw [heffect.ownFlags pawn hpawn]
    exact Bool.and_eq_false_iff.2 (Or.inr rfl)
  · rw [heffect.index, hindex, Board.pieceAt_eq_some_iff.2 hpawn]
    rfl
  · have htaken := heffect'.captures (by decide)
    rw [show nothing.dst = ⟨0, 0, 0, 0⟩ from rfl, hpawn] at htaken
    cases htaken
    rfl
  · rw [heffect'.index, hindex, show nothing.src = ⟨1, 0, 0, 0⟩ from rfl, hempty]
    rfl

end Game

end Hyperchess
