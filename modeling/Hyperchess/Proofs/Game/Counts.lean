import Hyperchess.Proofs.Game.Reversal
import Hyperchess.Proofs.Reach.Counts

/-!
# The number of moves

With the built-in rules, the moves of a square are all different, and so are the moves of a team, which start on
different squares for different pieces; leaving out moves that are not safe changes nothing about that. Main statement:
`moves_counted`.
-/

namespace Hyperchess

namespace Board

variable {b : Board} {v : Variant} {c : Coord} {safe : Bool} {found : List Move}

section Standard

variable (h : b.Sound) (hstandard : b.Standard) (hplain : b.Unflagged) (hcustom : v.book.custom = [])
  (hroom : v.book.Roomy)

include h hstandard hplain hcustom hroom

/-- No move of a square is found twice. -/
theorem movesOf_counted (hfound : b.movesOf v c safe = .ok found) : Move.Counted found := by
  cases hc : b.contains c with
  | false =>
    rw [movesOf, get_eq_error hc] at hfound
    cases hfound
  | true =>
    cases hp : b.pieceAt c with
    | none =>
      rw [movesOf, h.populated.get_eq hc, hp] at hfound
      cases hfound
      exact Move.counted_iff.2 List.nodup_nil
    | some p =>
      have hget := pieceAt_eq_some_iff.1 hp
      rw [movesOf_piece hget] at hfound
      obtain ⟨candidates, hcandidates, hfound⟩ := Outcome.bind_eq_ok_iff.1 hfound
      have hcounted := candidates_counted h.populated hcustom hroom hget (hstandard hget) hplain hcandidates
      cases safe with
      | false =>
        cases hfound
        exact hcounted
      | true =>
        obtain ⟨-, hfilter⟩ := unexposed_eq_filter hfound
        rw [hfilter]
        exact hcounted.sublist List.filter_sublist

/-- Of every square the candidate moves are found, none of them twice. -/
theorem exists_candidates_counted (hc : b.contains c = true) :
    ∃ found, b.candidates v.book c = .ok found ∧ Move.Counted found := by
  obtain ⟨found, hfound⟩ : ∃ found, b.movesOf v c false = .ok found := by
    cases hp : b.pieceAt c with
    | none => exact ⟨[], by rw [movesOf, h.populated.get_eq hc, hp]; rfl⟩
    | some p =>
      have hruled : b.Ruled v.book := hstandard.ruled hcustom
      rw [movesOf_false]
      exact hruled.supplied h.populated hroom (RuleBook.closed_of_custom hcustom) (pieceAt_eq_some_iff.1 hp)
  refine ⟨found, (movesOf_false b v c).symm.trans hfound, ?_⟩
  exact movesOf_counted h hstandard hplain hcustom hroom hfound

/-- No move of a team is found twice: moves of different pieces start on different squares. -/
theorem movesFrom_counted {team : Data} (hfound : b.movesFrom v team safe b.index = .ok found) :
    Move.Counted found := by
  rw [movesFrom_index h] at hfound
  apply Move.counted_iff.2
  refine Outcome.nodup_map_flatMapM hfound (fun c _ moves hmoves => ?_)
    ((nodup_stations h team).imp fun {c d} hne => ?_)
  · exact Move.counted_iff.1 (movesOf_counted h hstandard hplain hcustom hroom hmoves)
  · intro moves moves' hmoves hmoves' m hm m' hm' hends
    obtain ⟨rfl, -⟩ := of_mem_movesOf h hmoves hm
    obtain ⟨rfl, -⟩ := of_mem_movesOf h hmoves' hm'
    exact hne (congrArg Prod.fst hends)

end Standard

end Board

namespace Game

variable {g : Game}

/-- **Move counts are counts of different moves.** On the board stand pieces of built-in kinds, of any teams, and no
pawn among them has a flag with which it may step onto an empty square on its side. Then the candidate moves of every
square are found, and no two of them have the same ends, so there are as many different ones as the list is long. The
same holds of the moves of a square and of those of a team, with regard to safety or without it; and if the teams can be
put in order, these are found as well. -/
theorem moves_counted (hg : g.Proper) (hstandard : g.board.Standard) (hplain : g.board.Unflagged)
    (hcustom : g.variant.book.custom = []) (hroom : g.variant.book.Roomy) :
    (∀ c, g.board.contains c = true →
      ∃ found, g.board.candidates g.variant.book c = .ok found ∧ Move.Counted found) ∧
    (∀ c safe found, (g.moves c safe).1 = .ok found → Move.Counted found) ∧
    (∀ team safe found, (g.teamMoves team safe).1 = .ok found → Move.Counted found) ∧
    (g.board.Orderly → g.Responds) := by
  refine ⟨fun c hc => ?_, fun c safe found hfound => ?_, fun team safe found hfound => ?_, fun horderly => ?_⟩
  · exact Board.exists_candidates_counted hg.sound hstandard hplain hcustom hroom hc
  · rw [(moves_spec hg c safe).answer] at hfound
    exact Board.movesOf_counted hg.sound hstandard hplain hcustom hroom hfound
  · rw [(teamMoves_spec hg team safe).answer] at hfound
    exact Board.movesFrom_counted hg.sound hstandard hplain hcustom hroom hfound
  · exact hg.responds hroom (RuleBook.closed_of_custom hcustom) (hstandard.ruled hcustom) horderly

/-- A queen beside a pawn of its own team that has not moved yet: seven moves of the one and three of the other, which
are ten different moves, though two of them lead to the same square. -/
theorem moves_counted_queen :
    let v : Variant := ⟨{ custom := [] }, [.text "K"]⟩
    let queen : Coord × Piece := (⟨0, 0, 0, 0⟩, ⟨0, .text "Q", .int 0⟩)
    let pawn : Coord × Piece := (⟨1, 0, 0, 0⟩, ⟨1, .text "P", .int 0⟩)
    let king : Coord × Piece := (⟨2, 2, 0, 1⟩, ⟨2, .text "K", .int 1⟩)
    ∃ b, Board.arranged ⟨3, 3, 1, 2⟩ #[[], [.int 0], []] [queen, pawn, king] = .ok b ∧
      ∃ found, (Game.teamMoves ⟨b, v, none, []⟩ (.int 0) true).1 = .ok found ∧
        (found.map Move.ends).toFinset.card = 10 := by
  intro v queen pawn king
  have hrun : (Board.arranged ⟨3, 3, 1, 2⟩ #[[], [.int 0], []] [queen, pawn, king] >>= fun b =>
      (Game.teamMoves ⟨b, v, none, []⟩ (.int 0) true).1 >>= fun found =>
        .ok (b.flags, found.length)) = .ok (#[[], [.int 0], []], 10) := by decide +kernel
  obtain ⟨b, hb, hrun⟩ := Outcome.bind_eq_ok_iff.1 hrun
  obtain ⟨found, hfound, hrun⟩ := Outcome.bind_eq_ok_iff.1 hrun
  simp only [Except.ok.injEq, Prod.mk.injEq] at hrun
  obtain ⟨hflags, hlength⟩ := hrun
  have hinside : ∀ e ∈ [queen, pawn, king], b.contains e.1 = true := by
    simp [queen, pawn, king, Board.contains, Board.arranged_size hb]
  have hsound := Board.arranged_sound hb hinside
  have hproper : Game.Proper ⟨b, v, none, []⟩ :=
    .of_cache_eq_none hsound (Board.arranged_enrolled hb hinside (by decide)) rfl
  have hpieces {c : Coord} {p : Piece} (hp : b.get c = .ok (some (.piece p))) :
      p = queen.2 ∨ p = pawn.2 ∨ p = king.2 := by
    have hmem := hsound.get_eq_piece_iff.1 hp
    rw [Board.arranged_index hb hinside (by decide)] at hmem
    simp only [List.map_cons, List.map_nil, List.mem_cons, List.not_mem_nil, or_false, Prod.mk.injEq,
      Occupant.piece.injEq] at hmem
    exact hmem.imp And.right (Or.imp And.right And.right)
  have hstandard : b.Standard := by
    intro c p hp
    obtain rfl | rfl | rfl := hpieces hp
    · exact ⟨"Q", by decide, rfl⟩
    · exact ⟨"P", by decide, rfl⟩
    · exact ⟨"K", by decide, rfl⟩
  have hplain : b.Unflagged := by
    intro c p hp hid
    rw [Board.flagsOf, hflags]
    obtain rfl | rfl | rfl := hpieces hp
    · exact absurd hid (by decide)
    · decide
    · exact absurd hid (by decide)
  have hroom : v.book.Roomy := by decide +kernel
  have hcounted := (moves_counted hproper hstandard hplain rfl hroom).2.2.1 (.int 0) true found hfound
  exact ⟨b, hb, found, hfound, hcounted.count.trans hlength⟩

end Game

end Hyperchess
