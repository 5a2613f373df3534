import Hyperchess.Proofs.Game.Start
import Hyperchess.Proofs.Safety.Verdict

/-!
# Accepted moves

A move is accepted if it is among the moves that the cache keeps for its source, or that are found out for it: in both
cases a move with the same ends was judged on this board not to expose the team of the piece (`exposure_of_permits`).
The judgement was made on the board behind the move, which is the board that the move leads to. Main statement: after an
accepted move no piece of another team has a candidate move to a square with a royal piece of the team that moved, and
if there is such a piece at all the candidates of every other team can be found out (`royals_safe_of_tryMove`).
-/

namespace Hyperchess

namespace Board

variable {b : Board} {v : Variant} {m n : Move} {team : Data}

/-- A move is made by its two ends. -/
theorem move_congr (h : m.sameEnds n = true) : b.move m = b.move n := by
  simp only [Move.sameEnds, Bool.and_eq_true, beq_iff_eq] at h
  simp only [move, h.1, h.2]

/-- A permitted move starts on a square with a piece and does not expose the team of the piece. -/
theorem exposure_of_permits (h : b.Sound) (hp : b.permits v m true = .ok true) :
    b.contains m.src = true ∧ b.contains m.dst = true ∧
      ∃ p, b.get m.src = .ok (some (.piece p)) ∧ b.exposure v m p.team = .ok false := by
  unfold permits at hp
  split at hp
  · rename_i hends
    obtain ⟨hs, hd⟩ := Bool.and_eq_true_iff.1 hends
    obtain ⟨kept, hkept, hp⟩ := Outcome.bind_eq_ok_iff.1 hp
    obtain ⟨n, hn, hsame⟩ := List.any_eq_true.1 (Except.ok.inj hp)
    obtain ⟨p, hpiece⟩ := h.occupant_eq hs
    have hget := get_eq h.toFramed hs
    rw [hpiece] at hget
    unfold movesOf at hkept
    rw [hget] at hkept
    cases p with
    | none =>
      cases hkept
      cases hn
    | some p =>
      obtain ⟨candidates, -, hkept⟩ := Outcome.bind_eq_ok_iff.1 hkept
      obtain ⟨-, hfilter⟩ := unexposed_eq_filter hkept
      rw [hfilter] at hn
      have hexposure : b.exposure v n p.team = .ok false := by simpa using (List.mem_filter.1 hn).2
      refine ⟨hs, hd, p, hget, ?_⟩
      -- the move that was judged has the same ends
      rw [exposure, move_congr hsame]
      simp only [Move.sameEnds, Bool.and_eq_true, beq_iff_eq] at hsame
      rw [hsame.1]
      exact hexposure
  · cases hp

/-- The board behind a permitted move was judged. -/
theorem not_royalAttacked_of_permits (h : b.Sound) (hp : b.permits v m true = .ok true) :
    ∃ p, b.get m.src = .ok (some (.piece p)) ∧ (b.moved m).royalAttacked v p.team = .ok false := by
  obtain ⟨hs, hd, p, hget, hexposure⟩ := exposure_of_permits h hp
  refine ⟨p, hget, ?_⟩
  rw [exposure, hget, move_eq h hs hd] at hexposure
  exact hexposure

/-- Without regard to safety, the moves of a square are the candidates. -/
theorem movesOf_false (b : Board) (v : Variant) (c : Coord) : b.movesOf v c false = b.candidates v.book c := by
  unfold movesOf candidates
  cases b.get c with
  | error e => rfl
  | ok o => cases o <;> rfl

theorem movesFrom_false (b : Board) (v : Variant) (team : Data) (entries : List (Coord × Occupant)) :
    b.movesFrom v team false entries = b.candidatesFrom v.book team entries := by
  induction entries with
  | nil => rfl
  | cons e rest ih =>
    unfold movesFrom candidatesFrom
    cases e.2.asPiece with
    | error f => rfl
    | ok p =>
      simp only [movesOf_false, ih, Outcome.ok_bind]
      split
      · rfl
      · cases b.candidatesFrom v.book team rest with
        | error f => rfl
        | ok more => rfl

end Board

namespace Game

variable {g g' : Game} {m : Move} {captured : Option Occupant}

/-- An accepted move was permitted, and then it is made. -/
theorem exists_move_of_accepted (hg : g.Proper) (h : g.tryMove m = (.ok (true, captured), g')) :
    g.board.permits g.variant m true = .ok true ∧ ∃ g₁ : Game, g₁.board = g.board ∧ g₁.variant = g.variant ∧
      g₁.Proper ∧ g₁.move m = (.ok captured, g') := by
  obtain ⟨g₁, hr, hb, hv, hg₁⟩ := (allows_spec hg m true).exists_eq
  unfold tryMove at h
  rw [hr] at h
  cases hp : g.board.permits g.variant m true with
  | error e =>
    rw [hp] at h
    cases h
  | ok allowed =>
    rw [hp] at h
    cases allowed with
    | false =>
      dsimp only at h
      split at h <;> cases h
    | true =>
      refine ⟨rfl, g₁, hb, hv, hg₁, ?_⟩
      dsimp only at h
      split at h
      · cases h
      · rename_i hmove
        cases h
        exact hmove

/-- What an accepted move captures and leads to is what the board says of it. -/
theorem board_move_of_accepted (hg : g.Proper) (h : g.tryMove m = (.ok (true, captured), g')) :
    g.board.move m = (.ok captured, g'.board) := by
  obtain ⟨hpermits, g₁, hb, -, hg₁, hmove⟩ := exists_move_of_accepted hg h
  obtain ⟨hs, hd, -⟩ := Board.exposure_of_permits hg.sound hpermits
  rw [← hb] at hs hd ⊢
  rw [move_eq hg₁.sound hs hd] at hmove
  rw [Board.move_eq hg₁.sound hs hd]
  cases hmove
  rfl

/-- An accepted move was permitted, and is made. -/
theorem accepted_spec (hg : g.Proper) (h : g.tryMove m = (.ok (true, captured), g')) :
    g.board.permits g.variant m true = .ok true ∧ g'.board = g.board.moved m ∧ g'.variant = g.variant ∧ g'.Proper := by
  obtain ⟨hpermits, g₁, hb, hv, hg₁, hmove⟩ := exists_move_of_accepted hg h
  obtain ⟨hs, hd, -⟩ := Board.exposure_of_permits hg.sound hpermits
  have hproper := (hg₁.twins.move m).2.left
  rw [← hb] at hs hd
  rw [move_eq hg₁.sound hs hd] at hmove hproper
  cases hmove
  exact ⟨hpermits, by rw [hb], by simpa using hv, hproper⟩

/-- **Royal pieces are safe behind accepted moves.** In every reachable game, if a move of a piece is accepted, no
candidate of another team leads to a square with a royal piece of the team that moved; and if there is such a piece, the
candidates of all other teams are found. -/
theorem royals_safe_of_tryMove (hg : g.Reachable) (h : g.tryMove m = (.ok (true, captured), g')) :
    ∃ p, g.board.get m.src = .ok (some (.piece p)) ∧ ∀ other : Data, other.same p.team = false →
      (∀ found, (g'.teamMoves other false).1 = .ok found →
        ∀ reply ∈ found, ¬g'.board.HoldsRoyal g'.variant p.team reply.dst) ∧
      ((∃ c, g'.board.HoldsRoyal g'.variant p.team c) → ∃ found, (g'.teamMoves other false).1 = .ok found) := by
  obtain ⟨hpermits, hboard, hvariant, hg'⟩ := accepted_spec hg.proper h
  obtain ⟨p, hp, hattacked⟩ := Board.not_royalAttacked_of_permits hg.proper.sound hpermits
  rw [← hboard, ← hvariant] at hattacked
  refine ⟨p, hp, fun other hother => ?_⟩
  rw [(teamMoves_spec hg' other false).answer, Board.movesFrom_false]
  have hcandidates := fun hroyal c q =>
    Board.candidates_of_not_royalAttacked (c := c) (p := q) hg'.sound hattacked hroyal
  have hteam {q : Piece} (hq : q.team.same other = true) : q.team.same p.team = false :=
    (Data.same_congr hq p.team).trans hother
  constructor
  · intro found hfound reply hreply hholds
    obtain ⟨c, q, replies, hq, hsame, hreplies, hmem⟩ := (Board.mem_teamCandidates hg'.sound hfound).1 hreply
    obtain ⟨replies', hreplies', hnone⟩ := hcandidates ⟨_, hholds⟩ c q hq (hteam hsame)
    rw [hreplies] at hreplies'
    cases hreplies'
    exact hnone reply hmem hholds
  · intro hroyal
    refine (Board.exists_teamCandidates_iff hg'.sound).2 fun c q hq hsame => ?_
    obtain ⟨replies, hreplies, -⟩ := hcandidates hroyal c q hq (hteam hsame)
    exact ⟨replies, hreplies⟩

/-- A king steps out of the row of a rook; that it may do so has been kept by the cache. -/
theorem royals_safe_of_tryMove_rook :
    let aside : Move := ⟨⟨0, 0, 0, 0⟩, ⟨0, 1, 0, 0⟩, none⟩
    ∃ g g' : Game, g.Reachable ∧ g.cache.map (·.size) = some 1 ∧ g.tryMove aside = (.ok (true, none), g') ∧
      ∃ found, (g'.teamMoves (.int 0) false).1 = .ok found ∧ found ≠ [] ∧
        ∀ reply ∈ found, ¬g'.board.HoldsRoyal g'.variant (.int 1) reply.dst := by
  intro aside
  have hrun : (({ layout := some "3,2,1,1 k1R,3" } : Opening).gameWith { custom := [] } >>= fun g₀ =>
      let g := (g₀.perform (.moves ⟨0, 0, 0, 0⟩ true)).2
      (g.tryMove aside).1 >>= fun outcome =>
        ((g.tryMove aside).2.teamMoves (.int 0) false).1 >>= fun found =>
          .ok (g.cache.map (·.size), outcome, found.isEmpty, g.board.get ⟨0, 0, 0, 0⟩)) =
      .ok (some 1, (true, none), false, .ok (some (.piece ⟨0, .text "K", .int 1⟩))) := by decide +kernel
  obtain ⟨g₀, hgame, hrun⟩ := Outcome.bind_eq_ok_iff.1 hrun
  obtain ⟨outcome, houtcome, hrun⟩ := Outcome.bind_eq_ok_iff.1 hrun
  obtain ⟨found, hfound, hrun⟩ := Outcome.bind_eq_ok_iff.1 hrun
  simp only [Except.ok.injEq, Prod.mk.injEq] at hrun
  obtain ⟨hsize, rfl, hne, hpiece⟩ := hrun
  have hstart : g₀.Reachable := .start ⟨g₀, hgame, rfl⟩
  have hreachable : (g₀.perform (.moves ⟨0, 0, 0, 0⟩ true)).2.Reachable := hstart.step trivial
  have hmove : (g₀.perform (.moves ⟨0, 0, 0, 0⟩ true)).2.tryMove aside = (.ok (true, none), _) := Prod.ext houtcome rfl
  obtain ⟨p, hp, hsafe⟩ := royals_safe_of_tryMove hreachable hmove
  rw [show aside.src = ⟨0, 0, 0, 0⟩ from rfl, hpiece] at hp
  cases hp
  refine ⟨_, _, hreachable, hsize, hmove, found, hfound, fun h => ?_, (hsafe (.int 0) (by decide)).1 found hfound⟩
  rw [h] at hne
  cases hne

end Game

end Hyperchess
