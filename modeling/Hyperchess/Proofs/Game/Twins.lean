import Hyperchess.Proofs.Game.Coherence

/-!
# Games with one board

Two proper games with one board and one variant are twins (`Game.Twins`), whatever their caches keep. A command has the
same answer in both and makes them twins again (`Twins.perform`), so any run of commands has the same trace in both
(`Twins.run`). In particular every command keeps a game proper (`Proper.perform`).
-/

namespace Hyperchess

namespace Game

/-- Two proper games have one board and one variant. -/
structure Twins (g h : Game) : Prop where
  board : g.board = h.board
  variant : g.variant = h.variant
  left : g.Proper
  right : h.Proper

/-- The answers agree, and the games behind them are twins. -/
def Agree {α : Type} (r s : α × Game) : Prop := r.1 = s.1 ∧ r.2.Twins s.2

variable {g h : Game} {m : Move}

theorem Proper.twins (hg : g.Proper) : g.Twins g := ⟨rfl, rfl, hg, hg⟩

/-- Questions whose answers are determined by board and variant agree. -/
theorem Twins.answered {α : Type} (ht : g.Twins h) {r s : Except Fault α × Game}
    (answer : Board → Variant → Except Fault α) (hr : g.Answered r (answer g.board g.variant))
    (hs : h.Answered s (answer h.board h.variant)) : Agree r s := by
  refine ⟨?_, ?_, ?_, hr.proper, hs.proper⟩
  · rw [hr.answer, hs.answer, ht.board, ht.variant]
  · rw [hr.board, hs.board, ht.board]
  · rw [hr.variant, hs.variant, ht.variant]

/-! ## Changes -/

theorem Twins.set (ht : g.Twins h) (c : Coord) {p : Option Piece}
    (known : ∀ q, p = some q → q.serial < g.board.flags.size) :
    Agree (g.set c (p.map .piece)) (h.set c (p.map .piece)) := by
  obtain ⟨hb, hv, hg, hh⟩ := ht
  cases hc : g.board.contains c with
  | false =>
    rw [set_eq_error hc, set_eq_error (hb ▸ hc), hb]
    exact ⟨rfl, hb, hv, hg, hh⟩
  | true =>
    have hsound := hg.sound.placed hc p
    have henrolled := hg.enrolled.placed hg.sound.toFramed hc known
    rw [set_eq hg.sound.toFramed hc, set_eq hh.sound.toFramed (hb ▸ hc), ← hb]
    exact ⟨rfl, rfl, by simpa using hv, proper_clearCache hsound henrolled, proper_clearCache hsound henrolled⟩

theorem Twins.move (ht : g.Twins h) (m : Move) : Agree (g.move m) (h.move m) := by
  obtain ⟨hb, hv, hg, hh⟩ := ht
  by_cases hm : g.board.contains m.src = true ∧ g.board.contains m.dst = true
  · obtain ⟨hs, hd⟩ := hm
    have hsound := hg.sound.moved hs hd
    have henrolled := hg.enrolled.moved hg.sound hs hd
    rw [move_eq hg.sound hs hd, move_eq hh.sound (hb ▸ hs) (hb ▸ hd), ← hb]
    exact ⟨rfl, rfl, by simpa using hv, proper_clearCache hsound henrolled, proper_clearCache hsound henrolled⟩
  · rw [move_eq_error hm, move_eq_error (hb ▸ hm), hb]
    exact ⟨rfl, hb, hv, hg, hh⟩

theorem Twins.tryMove (ht : g.Twins h) (m : Move) : Agree (g.tryMove m) (h.tryMove m) := by
  -- the first question is answered alike, and behind it the games are twins again
  obtain ⟨g₁, hr, hb, hv, hg₁⟩ := (allows_spec ht.left m true).exists_eq
  obtain ⟨h₁, hs, hb', hv', hh₁⟩ := (allows_spec ht.right m true).exists_eq
  have ht₁ : g₁.Twins h₁ := ⟨hb.trans (ht.board.trans hb'.symm), hv.trans (ht.variant.trans hv'.symm), hg₁, hh₁⟩
  unfold Game.tryMove
  rw [hr, hs, ht.board, ht.variant]
  cases h.board.permits h.variant m true with
  | error e => exact ⟨rfl, ht₁⟩
  | ok allowed =>
    cases allowed with
    | false =>
      -- both report the refusal, if the move can be written
      dsimp only
      rw [ht₁.board]
      cases m.written h₁.board.digits with
      | error e => exact ⟨rfl, ht₁⟩
      | ok text => exact ⟨rfl, ht₁.board, ht₁.variant, hg₁.report _, hh₁.report _⟩
    | true =>
      obtain ⟨hanswer, htwins⟩ := ht₁.move m
      rcases hm : g₁.move m with ⟨r, g₂⟩
      rcases hn : h₁.move m with ⟨s, h₂⟩
      rw [hm, hn] at hanswer htwins
      dsimp only at hanswer htwins ⊢
      rw [hm, hn, hanswer]
      cases s with
      | error e => exact ⟨rfl, htwins⟩
      | ok captured => exact ⟨rfl, htwins⟩

/-- Making a piece does not make the cache incoherent. -/
theorem Proper.make (hg : g.Proper) (d : Design) : Proper { g with board := (g.board.enroll d).2 } := by
  refine .of_cached (hg.sound.enroll d) (hg.enrolled.enroll d) fun {square found} hc => ?_
  rw [Board.movesOf_enroll hg.sound hg.enrolled]
  exact hg.movesOf_of_cached hc

/-! ## Runs -/

theorem Agree.map {α β : Type} {r s : α × Game} (h : Agree r s) (f : α → β) : Agree (r.map f id) (s.map f id) :=
  ⟨congrArg f h.1, h.2⟩

/-- A command has the same answer in twins and makes them twins again. -/
theorem Twins.perform (ht : g.Twins h) {c : Command} (known : g.Knows c) : Agree (g.perform c) (h.perform c) := by
  cases c with
  | moves c safe =>
    exact (ht.answered (fun b v => b.movesOf v c safe) (moves_spec ht.left c safe)
      (moves_spec ht.right c safe)).map _
  | teamMoves team safe =>
    exact (ht.answered (fun b v => b.movesFrom v team safe b.index) (teamMoves_spec ht.left team safe)
      (teamMoves_spec ht.right team safe)).map _
  | allows m safe =>
    exact (ht.answered (fun b v => b.permits v m safe) (allows_spec ht.left m safe)
      (allows_spec ht.right m safe)).map _
  | exposes m team =>
    exact (ht.answered (fun b v => b.exposure v m team) (exposes_spec ht.left m team)
      (exposes_spec ht.right m team)).map _
  | set c p =>
    refine (ht.set c fun q hq => ?_).map _
    subst hq
    exact known
  | move m => exact (ht.move m).map _
  | tryMove m => exact (ht.tryMove m).map _
  | make d =>
    obtain ⟨hb, hv, hg, hh⟩ := ht
    simp only [Game.perform, Agree, ← hb]
    refine ⟨trivial, rfl, hv, hg.make d, ?_⟩
    rw [hb]
    exact hh.make d

/-- **Commands keep games proper.** -/
theorem Proper.perform (hg : g.Proper) {c : Command} (known : g.Knows c) : (g.perform c).2.Proper :=
  (hg.twins.perform known).2.left

/-- **Twins have the same trace.** -/
theorem Twins.run (ht : g.Twins h) {commands : List Command} (admitted : g.Admits commands) :
    g.trace commands = h.trace commands ∧ (g.after commands).Twins (h.after commands) := by
  induction commands generalizing g h with
  | nil => exact ⟨rfl, ht⟩
  | cons c rest ih =>
    obtain ⟨hanswer, htwins⟩ := ht.perform admitted.1
    obtain ⟨htrace, hafter⟩ := ih htwins admitted.2
    exact ⟨by rw [trace, trace, hanswer, htwins.board, htrace], hafter⟩

end Game

end Hyperchess
