import Hyperchess.Proofs.Game.Symmetry
import Hyperchess.Proofs.Reach.Reversal

/-!
# Games with the colours reversed

The built-in rules respect the reversal of the colours (`RuleBook.respects_reversal_of_custom`), so a game with these
rules and the game on the reversed board answer alike. Main statement: the moves of a square are carried onto those of
its image, and the moves of a team onto those of the other one (`moves_reversal`).
-/

namespace Hyperchess

variable {book : RuleBook} {b : Board}

/-- All pieces on the board are of kinds that have built-in rules. -/
def Board.Standard (b : Board) : Prop :=
  ∀ ⦃c : Coord⦄ ⦃p : Piece⦄, b.get c = .ok (some (.piece p)) →
    ∃ kind ∈ (["R", "B", "Q", "N", "P", "K"] : List Text), p.id = .text kind

/-- The built-in rules are rules of every piece that is of one of their kinds. -/
theorem Board.Standard.ruled (h : b.Standard) (hcustom : book.custom = []) : b.Ruled book := by
  intro c p hp
  obtain ⟨kind, hkind, hid⟩ := h hp
  have hget : ∃ rule, RuleBook.find? Rule.builtin kind = some rule := by
    simp only [List.mem_cons, List.not_mem_nil, or_false] at hkind
    rcases hkind with rfl | rfl | rfl | rfl | rfl | rfl <;> exact ⟨_, rfl⟩
  obtain ⟨rule, hrule⟩ := hget
  rw [← RuleBook.get?_eq_builtin hcustom] at hrule
  exact ⟨rule, by rw [hid]; exact RuleBook.get_eq_ok_iff.2 hrule⟩

/-- The built-in rules refer to kinds that have built-in rules. -/
theorem RuleBook.closed_of_custom (hcustom : book.custom = []) : book.Closed := by
  obtain ⟨custom, room⟩ := book
  cases hcustom
  have hclosed : RuleBook.Closed { custom := [] } := by decide +kernel
  exact hclosed

/-- **The built-in rules respect the reversal of the colours.** -/
theorem RuleBook.respects_reversal_of_custom (hcustom : book.custom = []) (hroom : book.Roomy) (size : Coord) :
    book.Respects (reversal size) :=
  respects_reversal hroom (closed_of_custom hcustom) (fun _ _ => reversible_of_builtin hcustom) size

namespace Game

variable {g h : Game}

/-- **The built-in game is symmetric in its colours.** On the board of the one game stand pieces of built-in kinds, of
any teams and with any flags; the board of the other one has them turned around along the second and the fourth axis,
with teams 0 and 1 exchanged. Whichever kinds are royal, the moves of a square are carried exactly onto those of its
image, with regard to safety or without it, and the moves of a team onto those of the team it is exchanged for. If the
teams can be put in order, all of this is answered. -/
theorem moves_reversal (hg : g.Proper) (hh : h.Proper) (himage : Board.Image (reversal g.board.size) g.board h.board)
    (hstandard : g.board.Standard) (hvariant : h.variant = g.variant) (hcustom : g.variant.book.custom = [])
    (hroom : g.variant.book.Roomy) :
    (∀ (c : Coord) (safe : Bool), g.board.contains c = true →
      Outcome.Shuffled ((g.moves c safe).1.map (List.map (reversal g.board.size).move))
        (h.moves ((reversal g.board.size).square c) safe).1) ∧
    (∀ (team : Data) (safe : Bool),
      Outcome.Shuffled ((g.teamMoves team safe).1.map (List.map (reversal g.board.size).move))
        (h.teamMoves team.swapped safe).1) ∧
    (g.board.Orderly → g.Responds ∧ h.Responds) := by
  have hbook := RuleBook.respects_reversal_of_custom hcustom hroom g.board.size
  have hclosed := RuleBook.closed_of_custom hcustom
  have hruled : g.board.Ruled g.variant.book := hstandard.ruled hcustom
  refine ⟨fun c safe hc => ?_, fun team safe => ?_, fun horderly => ⟨?_, ?_⟩⟩
  · rw [(moves_spec hg c safe).answer, (moves_spec hh _ safe).answer, hvariant]
    exact Board.movesOf_image himage hbook hruled hc safe
  · rw [(teamMoves_spec hg team safe).answer, (teamMoves_spec hh _ safe).answer, hvariant]
    exact Board.movesFrom_image himage hbook hruled team safe
  · exact hg.responds hroom hclosed hruled horderly
  · rw [← hvariant] at hroom hclosed hruled
    exact hh.responds hroom hclosed (himage.ruled hruled) (himage.orderly_iff.2 horderly)

/-- A pawn that has not moved yet, in front of a king of the other team, and the same with the colours reversed on a
board with a fourth axis. -/
theorem moves_reversal_pawn :
    let v : Variant := ⟨{ custom := [] }, [.text "K"]⟩
    let pawn : Coord × Piece := (⟨0, 0, 0, 0⟩, ⟨0, .text "P", .int 0⟩)
    let king : Coord × Piece := (⟨1, 1, 0, 0⟩, ⟨1, .text "K", .int 1⟩)
    let pawn' : Coord × Piece := (⟨0, 2, 0, 1⟩, ⟨1, .text "P", .int 1⟩)
    let king' : Coord × Piece := (⟨1, 1, 0, 1⟩, ⟨0, .text "K", .int 0⟩)
    ∃ b b', Board.arranged ⟨2, 3, 1, 2⟩ #[[.int 0], []] [pawn, king] = .ok b ∧
      Board.arranged ⟨2, 3, 1, 2⟩ #[[], [.int 0]] [king', pawn'] = .ok b' ∧
      ∃ found found', (Game.teamMoves ⟨b, v, none, []⟩ (.int 0) true).1 = .ok found ∧
        (Game.teamMoves ⟨b', v, none, []⟩ (.int 1) true).1 = .ok found' ∧ found.length = 4 ∧
        (found.map (reversal ⟨2, 3, 1, 2⟩).move).Perm found' := by
  intro v pawn king pawn' king'
  have hrun : (Board.arranged ⟨2, 3, 1, 2⟩ #[[.int 0], []] [pawn, king] >>= fun b =>
      Board.arranged ⟨2, 3, 1, 2⟩ #[[], [.int 0]] [king', pawn'] >>= fun b' =>
        (Game.teamMoves ⟨b, v, none, []⟩ (.int 0) true).1 >>= fun found =>
          (Game.teamMoves ⟨b', v, none, []⟩ (.int 1) true).1 >>= fun found' =>
            .ok (decide (∀ c ∈ b.squares, b'.seen ((reversal ⟨2, 3, 1, 2⟩).square c) =
              (b.seen c).map fun s => (s.1, s.2.1.swapped, s.2.2)), found.length)) = .ok (true, 4) := by decide +kernel
  obtain ⟨b, hb, hrun⟩ := Outcome.bind_eq_ok_iff.1 hrun
  obtain ⟨b', hb', hrun⟩ := Outcome.bind_eq_ok_iff.1 hrun
  obtain ⟨found, hfound, hrun⟩ := Outcome.bind_eq_ok_iff.1 hrun
  obtain ⟨found', hfound', hrun⟩ := Outcome.bind_eq_ok_iff.1 hrun
  simp only [Except.ok.injEq, Prod.mk.injEq, decide_eq_true_eq] at hrun
  obtain ⟨hseen, hlength⟩ := hrun
  refine ⟨b, b', hb, hb', found, found', hfound, hfound', hlength, ?_⟩
  have hsize := Board.arranged_size hb
  have hsize' := Board.arranged_size hb'
  have hinside : ∀ e ∈ [pawn, king], b.contains e.1 = true := by simp [pawn, king, Board.contains, hsize]
  have hinside' : ∀ e ∈ [king', pawn'], b'.contains e.1 = true := by simp [pawn', king', Board.contains, hsize']
  have hsound := Board.arranged_sound hb hinside
  have hsound' := Board.arranged_sound hb' hinside'
  have himage : Board.Image (reversal ⟨2, 3, 1, 2⟩) b b' :=
    Board.image_of_seen hsize hsize' hsound hsound' (Board.arranged_distinct hb hinside (by decide))
      (Board.arranged_distinct hb' hinside' (by decide)) hseen
  have hproper : Game.Proper ⟨b, v, none, []⟩ :=
    .of_cache_eq_none hsound (Board.arranged_enrolled hb hinside (by decide)) rfl
  have hproper' : Game.Proper ⟨b', v, none, []⟩ :=
    .of_cache_eq_none hsound' (Board.arranged_enrolled hb' hinside' (by decide)) rfl
  have hstandard : b.Standard := by
    intro c p hp
    have hmem := hsound.get_eq_piece_iff.1 hp
    rw [Board.arranged_index hb hinside (by decide)] at hmem
    simp only [List.map_cons, List.map_nil, List.mem_cons, List.not_mem_nil, or_false, Prod.mk.injEq,
      Occupant.piece.injEq] at hmem
    rcases hmem with ⟨-, rfl⟩ | ⟨-, rfl⟩
    · exact ⟨"P", by decide, rfl⟩
    · exact ⟨"K", by decide, rfl⟩
  have hroom : v.book.Roomy := by decide +kernel
  rw [← hsize] at himage ⊢
  have hmoves := (moves_reversal hproper hproper' himage hstandard rfl rfl hroom).2.1 (.int 0) true
  rw [hfound, show (Data.int 0).swapped = .int 1 from rfl, hfound'] at hmoves
  cases hmoves with
  | ok hperm => exact hperm

end Game

end Hyperchess
