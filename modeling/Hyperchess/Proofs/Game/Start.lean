import Hyperchess.Proofs.Game.Twins
import Hyperchess.Proofs.Layout.Placements

/-!
# Games from openings

An opening puts its pieces on the board and keeps nothing in the cache, so it gives a proper game (`Gives.proper`), and
every reachable game is proper (`Reachable.proper`). Openings that differ in the switch for the cache alone give twins.
Main statement: a game that keeps moves and the same game without a cache answer alike, whatever is asked of them, and
at all times the cache keeps what would be found out without it (`trace_withCache`).
-/

namespace Hyperchess

namespace Opening

variable {o : Opening} {book : RuleBook} {g : Game}

/-- The pieces of an opening are on its board. -/
theorem position_inside {size : Coord} {placements : List (Coord × Design)} (h : o.position = .ok (size, placements))
    {b : Board} (hb : b.size = size) : ∀ e ∈ placements, b.contains e.1 = true := by
  obtain ⟨layout, hl⟩ : ∃ layout, Layout.parseWithin o.machine layout = .ok (size, placements) := by
    unfold position at h
    split at h
    · exact ⟨_, h⟩
    · exact ⟨_, h⟩
    · cases h
  obtain ⟨⟨size', body⟩, -, hbody⟩ := Outcome.bind_eq_ok_iff.1 (Layout.parse_of_parseWithin hl)
  cases hbody
  intro e he
  obtain ⟨⟨hx, hy⟩, hz, hw⟩ := Layout.placements_inside he
  rw [Board.contains_iff, hb]
  exact ⟨hx, hy, hz, hw⟩

/-- What an opening gives: the board of its position, whose size is written, its variant, and a cache that keeps
nothing. -/
theorem Gives.spec (h : o.Gives book g) : ∃ size placements royals,
    o.position = .ok (size, placements) ∧ o.royals = .ok royals ∧ size.isWithin o.machine.digits = true ∧
      Board.ofPlacements size placements o.machine.digits = .ok g.board ∧
      g.variant = ⟨{ book with room := o.room }, royals⟩ ∧
        ∃ c, g.cache = some c ∧ c.entries = [] := by
  obtain ⟨g₀, hgame, hg⟩ := h
  obtain ⟨royals, hroyals, hgame⟩ := Outcome.bind_eq_ok_iff.1 hgame
  obtain ⟨⟨size, placements⟩, hposition, hgame⟩ := Outcome.bind_eq_ok_iff.1 hgame
  obtain ⟨board, hboard, hgame⟩ := Outcome.bind_eq_ok_iff.1 hgame
  obtain ⟨_, -, hboard⟩ := Outcome.bind_eq_ok_iff.1 hboard
  obtain ⟨extents, hextents, hgame⟩ := Outcome.bind_eq_ok_iff.1 hgame
  cases hgame
  rw [hg]
  refine ⟨size, placements, royals, hposition, hroyals, ?_, hboard, rfl, _, rfl, rfl⟩
  by_contra hlong
  rw [Coord.written, if_neg hlong] at hextents
  cases hextents

/-- An opening gives a proper game. -/
theorem Gives.proper (h : o.Gives book g) : g.Proper := by
  obtain ⟨size, placements, royals, hposition, -, -, hboard, -, c, hc, hempty⟩ := h.spec
  rw [Board.ofPlacements_eq] at hboard
  have inside : ∀ e ∈ Board.numbered 0 placements, g.board.contains e.1 = true := by
    intro e he
    obtain ⟨⟨d, hd⟩, -⟩ := Board.mem_numbered he
    have hcontains := position_inside hposition (Board.arranged_size hboard) (e.1, d) hd
    exact hcontains
  refine .of_cached (Board.arranged_sound hboard inside) (Board.arranged_enrolled hboard inside fun e he => ?_) ?_
  · have hlt := (Board.mem_numbered he).2.2
    simpa using hlt
  · rintro square found ⟨c', hc', hfound⟩
    rw [hc] at hc'
    cases hc'
    rw [Cache.find?, hempty] at hfound
    cases hfound

/-- The game with which an opening starts is one that it gives, with the rules of the file and its own. -/
theorem gives_of_start {read : Reader} {fs : Files} (h : o.start read fs = .ok g) : ∃ file entries book,
    o.fileRules read fs = .ok (file, entries) ∧ RuleBook.ofSources (o.sources file) = .ok book ∧ o.Gives book g := by
  unfold start at h
  split at h
  · cases h
  · rename_i file entries hfile
    split at h
    · cases h
    · rename_i book hbook
      dsimp only at h
      split at h
      · cases h
      · rename_i g₀ hgame
        cases h
        exact ⟨file, entries, book, hfile, hbook, g₀, hgame, rfl⟩

/-! ## The switch for the cache -/

theorem get_withCache {field : Text} (hne : field ≠ "enable_move_cache") (o : Opening) (enabled : Bool) :
    (o.withCache enabled).settings.get field = o.settings.get field := by
  simp only [Settings.get, withCache, Settings.get?_set_ne _ _ hne]

theorem position_withCache (o : Opening) (enabled : Bool) : (o.withCache enabled).position = o.position := by
  unfold position
  rw [get_withCache (by decide)]
  rfl

theorem royals_withCache (o : Opening) (enabled : Bool) : (o.withCache enabled).royals = o.royals := by
  unfold royals
  rw [get_withCache (by decide)]

end Opening

namespace Game

variable {o : Opening} {book : RuleBook} {g h : Game}

/-- **Every reachable game is proper.** -/
theorem Reachable.proper (hg : g.Reachable) : g.Proper := by
  induction hg with
  | start h => exact h.proper
  | step _ known ih => exact ih.perform known

/-- Games from openings that differ in the switch for the cache alone are twins. -/
theorem twins_withCache {on off : Bool} (hg : (o.withCache on).Gives book g) (hh : (o.withCache off).Gives book h) :
    g.Twins h := by
  obtain ⟨size, placements, royals, hposition, hroyals, -, hboard, hvariant, -⟩ := hg.spec
  obtain ⟨size', placements', royals', hposition', hroyals', -, hboard', hvariant', -⟩ := hh.spec
  rw [Opening.position_withCache] at hposition hposition'
  rw [Opening.royals_withCache] at hroyals hroyals'
  rw [hposition] at hposition'
  cases hposition'
  rw [hroyals] at hroyals'
  cases hroyals'
  have hsame : Except.ok g.board = Except.ok h.board := hboard.symm.trans hboard'
  exact ⟨Except.ok.inj hsame, hvariant.trans hvariant'.symm, hg.proper, hh.proper⟩

/-- **The cache cannot be seen.** A game with a cache and the same game without one give the same answers, and have the
same boards, whatever is asked of them in whatever order; and at the end of any commands the cache keeps for a square
what would be found out for it without a cache. -/
theorem trace_withCache (hg : (o.withCache true).Gives book g) (hh : (o.withCache false).Gives book h)
    {commands : List Command} (admitted : g.Admits commands) :
    g.trace commands = h.trace commands ∧ (g.after commands).Coherent := by
  obtain ⟨htrace, hafter⟩ := (twins_withCache hg hh).run admitted
  exact ⟨htrace, hafter.left.coherent⟩

/-- A session in which moves are kept, forgotten when a new piece is set, and found again. -/
theorem trace_withCache_queen :
    let o : Opening := { layout := some "3,2,1,1 k1R,3" }
    let step : Move := ⟨⟨0, 0, 0, 0⟩, ⟨1, 0, 0, 0⟩, none⟩
    let commands : List Command := [.teamMoves (.int 1) true, .tryMove step, .make (.ofKind "Q" (.int 0)),
      .set ⟨1, 1, 0, 0⟩ (some ⟨2, .text "Q", .int 0⟩), .set ⟨3, 0, 0, 0⟩ none, .moves ⟨0, 0, 0, 0⟩ true,
      .moves ⟨0, 0, 0, 0⟩ true]
    ∃ g h, (o.withCache true).Gives { custom := [] } g ∧ (o.withCache false).Gives { custom := [] } h ∧
      ((g.after commands).cache.map (·.size), (h.after commands).cache.map (·.size)) = (some 1, some 0) ∧
      g.trace commands = h.trace commands ∧ (g.after commands).Coherent := by
  intro o step commands
  have hrun : ((o.withCache true).gameWith { custom := [] } >>= fun g =>
      (o.withCache false).gameWith { custom := [] } >>= fun h =>
        .ok (decide (g.Admits commands), (g.after commands).cache.map (·.size),
          (h.after commands).cache.map (·.size))) = .ok (true, some 1, some 0) := by decide +kernel
  obtain ⟨g, hg, hrun⟩ := Outcome.bind_eq_ok_iff.1 hrun
  obtain ⟨h, hh, hrun⟩ := Outcome.bind_eq_ok_iff.1 hrun
  obtain ⟨hadmits, hsizes⟩ := Prod.ext_iff.1 (Except.ok.inj hrun)
  have hgives : (o.withCache true).Gives { custom := [] } g := ⟨g, hg, rfl⟩
  have hgives' : (o.withCache false).Gives { custom := [] } h := ⟨h, hh, rfl⟩
  exact ⟨g, h, hgives, hgives', hsizes, trace_withCache hgives hgives' (of_decide_eq_true hadmits)⟩

end Game

end Hyperchess
