import Hyperchess.Proofs.Game.Accepted
import Hyperchess.Proofs.Safety.Decision

/-!
# Allowed moves and the moves of teams

The moves of a team are gathered from the squares on which its pieces stand, in the order of the index
(`movesFrom_index`), and every move starts on the square that it was found for and ends on the board
(`of_mem_movesOf`). So the moves of a square are found among those of the team that stands there, and nowhere else.
Main statement: in a reachable game whose pieces and references all have rules, no question fails (`Proper.responds`),
and a move is allowed exactly if it is among the moves of the team on its source (`allows_exact`).
-/

namespace Hyperchess

namespace Board

variable {b : Board} {v : Variant} {team : Data} {c : Coord} {safe : Bool} {found : List Move} {m : Move}

/-! ## Squares of a team -/

/-- The occupant is a piece of the team. -/
def isOf (team : Data) : Occupant → Bool
  | .piece p => p.team.same team
  | _ => false

/-- The squares with pieces of the team, in the order of the index. -/
def stations (b : Board) (team : Data) : List Coord := (b.index.filter fun e => isOf team e.2).map (·.1)

theorem mem_stations (h : b.Sound) :
    c ∈ b.stations team ↔ ∃ p, b.get c = .ok (some (.piece p)) ∧ p.team.same team = true := by
  unfold stations
  rw [List.mem_map]
  constructor
  · rintro ⟨e, he, rfl⟩
    obtain ⟨hindex, hteam⟩ := List.mem_filter.1 he
    obtain ⟨p, hp, hget⟩ := h.exists_get hindex
    rw [hp] at hteam
    exact ⟨p, hget, hteam⟩
  · rintro ⟨p, hp, hteam⟩
    have hindex := h.get_eq_piece_iff.1 hp
    exact ⟨(c, .piece p), List.mem_filter.2 ⟨hindex, hteam⟩, rfl⟩

/-- No square is listed twice. -/
theorem nodup_stations (h : b.Sound) (team : Data) : (b.stations team).Nodup :=
  h.keys.sublist (List.filter_sublist.map _)

theorem movesFrom_eq (b : Board) (v : Variant) (team : Data) (safe : Bool) {entries : List (Coord × Occupant)}
    (hpieces : ∀ e ∈ entries, ∃ p, e.2 = .piece p) : b.movesFrom v team safe entries =
      ((entries.filter fun e => isOf team e.2).map (·.1)).flatMapM fun c => b.movesOf v c safe := by
  induction entries with
  | nil => rfl
  | cons e rest ih =>
    obtain ⟨⟨p, hp⟩, hrest⟩ := List.forall_mem_cons.1 hpieces
    have hteam : isOf team e.2 = p.team.same team := by rw [hp, isOf]
    rw [movesFrom, hp, ih hrest, List.filter_cons, hteam]
    simp only [Occupant.asPiece]
    split
    · rw [List.map_cons, List.flatMapM_cons]
    · rfl

/-- **The moves of a team are gathered from the squares of its pieces.** -/
theorem movesFrom_index (h : b.Sound) (v : Variant) (team : Data) (safe : Bool) :
    b.movesFrom v team safe b.index = (b.stations team).flatMapM fun c => b.movesOf v c safe :=
  movesFrom_eq b v team safe h.exists_piece

/-! ## Moves of a square -/

/-- On an occupied square the moves are the candidates, or those of them that do not expose the team. -/
theorem movesOf_piece {p : Piece} (hp : b.get c = .ok (some (.piece p))) (v : Variant) (safe : Bool) :
    b.movesOf v c safe = (b.candidates v.book c >>= fun candidates =>
      if safe then b.unexposed v p.team candidates else .ok candidates) := by
  unfold movesOf
  rw [hp]
  cases b.candidates v.book c <;> cases safe <;> rfl

/-- Moves start on the square that they were found for, and end on the board. -/
theorem of_mem_movesOf (h : b.Sound) (hfound : b.movesOf v c safe = .ok found) (hm : m ∈ found) :
    m.src = c ∧ b.contains m.dst = true := by
  cases hc : b.contains c with
  | false =>
    rw [movesOf, get_eq_error hc] at hfound
    cases hfound
  | true =>
    cases hp : b.pieceAt c with
    | none =>
      rw [movesOf, h.populated.get_eq hc, hp] at hfound
      cases hfound
      cases hm
    | some p =>
      rw [movesOf_piece (pieceAt_eq_some_iff.1 hp)] at hfound
      obtain ⟨candidates, hcandidates, hfound⟩ := Outcome.bind_eq_ok_iff.1 hfound
      apply of_mem_candidates h.populated hcandidates
      cases safe with
      | false =>
        cases hfound
        exact hm
      | true =>
        obtain ⟨-, hfilter⟩ := unexposed_eq_filter hfound
        rw [hfilter] at hm
        exact (List.mem_filter.1 hm).1

section Found

variable (h : b.Sound) (hroom : v.book.Roomy) (hclosed : v.book.Closed) (hruled : b.Ruled v.book)
  (horderly : b.Orderly)

include h hroom hclosed hruled horderly

/-- Where every piece has a rule and the teams can be put in order, the moves of every square are found. -/
theorem exists_movesOf (hc : b.contains c = true) (safe : Bool) : ∃ found, b.movesOf v c safe = .ok found := by
  cases hp : b.pieceAt c with
  | none => exact ⟨[], by rw [movesOf, h.populated.get_eq hc, hp]; rfl⟩
  | some p =>
    have hget := pieceAt_eq_some_iff.1 hp
    obtain ⟨candidates, hcandidates⟩ := hruled.supplied h.populated hroom hclosed hget
    rw [movesOf_piece hget, hcandidates, Outcome.ok_bind]
    cases safe with
    | false => exact ⟨candidates, rfl⟩
    | true =>
      have hends := candidates_ends h.populated hcandidates
      exact exists_unexposed h hroom hclosed hruled horderly p.team hends

/-- So are the moves of every team. -/
theorem exists_movesFrom (team : Data) (safe : Bool) : ∃ found, b.movesFrom v team safe b.index = .ok found := by
  rw [movesFrom_index h]
  apply Outcome.exists_flatMapM_iff.2
  intro c hc
  obtain ⟨p, hp, -⟩ := (mem_stations h).1 hc
  exact exists_movesOf h hroom hclosed hruled horderly ((get_eq_ok_iff h.toFramed).1 hp).1 safe

end Found

/-- A move of a team starts on the square of one of its pieces, and is a move of that square. -/
theorem mem_movesFrom (h : b.Sound) (hfound : b.movesFrom v team safe b.index = .ok found) :
    m ∈ found ↔ ∃ p moves, b.get m.src = .ok (some (.piece p)) ∧ p.team.same team = true ∧
      b.movesOf v m.src safe = .ok moves ∧ m ∈ moves := by
  rw [movesFrom_index h] at hfound
  rw [Outcome.mem_flatMapM hfound]
  constructor
  · rintro ⟨c, hc, moves, hmoves, hm⟩
    obtain ⟨p, hp, hteam⟩ := (mem_stations h).1 hc
    obtain ⟨rfl, -⟩ := of_mem_movesOf h hmoves hm
    exact ⟨p, moves, hp, hteam, hmoves, hm⟩
  · rintro ⟨p, moves, hp, hteam, hmoves, hm⟩
    exact ⟨m.src, (mem_stations h).2 ⟨p, hp, hteam⟩, moves, hmoves, hm⟩

/-! ## Permitted moves -/

theorem exists_permits (hmoves : b.contains m.src = true → ∃ moves, b.movesOf v m.src safe = .ok moves) :
    ∃ verdict, b.permits v m safe = .ok verdict := by
  unfold permits
  split
  · rename_i hends
    obtain ⟨moves, hmoves⟩ := hmoves (Bool.and_eq_true_iff.1 hends).1
    exact ⟨moves.any m.sameEnds, by rw [hmoves]; rfl⟩
  · exact ⟨false, rfl⟩

/-- A move is permitted exactly if a move with the same ends is found for the piece on its source. A move that leaves
the board needs no exception: none is found that does. -/
theorem permits_iff (h : b.Sound) {verdict : Bool} (hpermits : b.permits v m safe = .ok verdict) :
    verdict = true ↔ ∃ p moves, b.get m.src = .ok (some (.piece p)) ∧ b.movesOf v m.src safe = .ok moves ∧
      ∃ n ∈ moves, m.sameEnds n = true := by
  unfold permits at hpermits
  split at hpermits
  · rename_i hends
    obtain ⟨hs, -⟩ := Bool.and_eq_true_iff.1 hends
    obtain ⟨moves, hmoves, hpermits⟩ := Outcome.bind_eq_ok_iff.1 hpermits
    cases hpermits
    rw [List.any_eq_true]
    constructor
    · rintro ⟨n, hn, hsame⟩
      cases hp : b.pieceAt m.src with
      | none =>
        rw [movesOf, h.populated.get_eq hs, hp] at hmoves
        cases hmoves
        cases hn
      | some p => exact ⟨p, moves, pieceAt_eq_some_iff.1 hp, hmoves, n, hn, hsame⟩
    · rintro ⟨p, moves', -, hmoves', hn⟩
      rw [hmoves] at hmoves'
      cases hmoves'
      exact hn
  · rename_i hends
    cases hpermits
    simp only [Bool.false_eq_true, false_iff]
    rintro ⟨p, moves, hp, hmoves, n, hn, hsame⟩
    obtain ⟨-, hdst⟩ := of_mem_movesOf h hmoves hn
    have hsrc := ((get_eq_ok_iff h.toFramed).1 hp).1
    simp only [Move.sameEnds, Bool.and_eq_true, beq_iff_eq] at hsame
    rw [← hsame.2] at hdst
    exact hends (Bool.and_eq_true_iff.2 ⟨hsrc, hdst⟩)

/-- Permitted moves are among those of the team on their source. -/
theorem permits_iff_mem_movesFrom (h : b.Sound) {verdict : Bool} (hpermits : b.permits v m safe = .ok verdict)
    (hall : ∀ team, ∃ found, b.movesFrom v team safe b.index = .ok found) :
    verdict = true ↔ ∃ p found, b.get m.src = .ok (some (.piece p)) ∧
      b.movesFrom v p.team safe b.index = .ok found ∧ ∃ n ∈ found, m.sameEnds n = true := by
  have hsrc {n : Move} (hsame : m.sameEnds n = true) : m.src = n.src := by
    simp only [Move.sameEnds, Bool.and_eq_true, beq_iff_eq] at hsame
    exact hsame.1
  rw [permits_iff h hpermits]
  constructor
  · rintro ⟨p, moves, hp, hmoves, n, hn, hsame⟩
    obtain ⟨found, hfound⟩ := hall p.team
    refine ⟨p, found, hp, hfound, n, ?_, hsame⟩
    apply (mem_movesFrom h hfound).2
    rw [← hsrc hsame]
    exact ⟨p, moves, hp, Data.same_self p.team, hmoves, hn⟩
  · rintro ⟨p, found, hp, hfound, n, hn, hsame⟩
    obtain ⟨-, moves, -, -, hmoves, hn⟩ := (mem_movesFrom h hfound).1 hn
    rw [← hsrc hsame] at hmoves
    exact ⟨p, moves, hp, hmoves, n, hn, hsame⟩

end Board

namespace Game

variable {g : Game}

/-- Whatever is asked of the game about squares of its board, and about teams, is answered. -/
structure Responds (g : Game) : Prop where
  moves : ∀ (c : Coord) (safe : Bool), g.board.contains c = true → ∃ found, (g.moves c safe).1 = .ok found
  teamMoves : ∀ (team : Data) (safe : Bool), ∃ found, (g.teamMoves team safe).1 = .ok found
  exposes : ∀ (m : Move) (team : Data), g.board.contains m.src = true → g.board.contains m.dst = true →
    ∃ verdict, (g.exposes m team).1 = .ok verdict

/-- **Questions are answered** where every piece has a rule, where rules refer to kinds that have one, and where the
teams can be put in order. -/
theorem Proper.responds (hg : g.Proper) (hroom : g.variant.book.Roomy) (hclosed : g.variant.book.Closed)
    (hruled : g.board.Ruled g.variant.book) (horderly : g.board.Orderly) : g.Responds := by
  constructor
  · intro c safe hc
    rw [(moves_spec hg c safe).answer]
    exact Board.exists_movesOf hg.sound hroom hclosed hruled horderly hc safe
  · intro team safe
    rw [(teamMoves_spec hg team safe).answer]
    exact Board.exists_movesFrom hg.sound hroom hclosed hruled horderly team safe
  · intro m team hs hd
    rw [(exposes_spec hg m team).answer]
    exact Board.exists_exposure hg.sound hs hd hroom hclosed hruled horderly team

/-- **A move is allowed exactly if it is among the moves of the team on its source.** In every reachable game in which
every piece on the board has a rule, and so has whatever a rule refers to, both questions are answered for every move,
on the board or not; and the moves of a team all start on squares of its pieces. The limit on nesting is one that the
rules never meet, and teams can be put in order, as integers can. -/
theorem allows_exact (hg : g.Reachable) (hroom : g.variant.book.Roomy) (hclosed : g.variant.book.Closed)
    (hruled : g.board.Ruled g.variant.book) (horderly : g.board.Orderly) :
    (∀ (m : Move) (safe : Bool), ∃ verdict, (g.allows m safe).1 = .ok verdict ∧
      (verdict = true ↔ ∃ p found, g.board.get m.src = .ok (some (.piece p)) ∧
        (g.teamMoves p.team safe).1 = .ok found ∧ ∃ n ∈ found, m.sameEnds n = true)) ∧
    ∀ (team : Data) (safe : Bool), ∃ found, (g.teamMoves team safe).1 = .ok found ∧
      ∀ n ∈ found, ∃ p, g.board.get n.src = .ok (some (.piece p)) ∧ p.team.same team = true := by
  have hg := hg.proper
  have hsound := hg.sound
  have hanswer (team : Data) (safe : Bool) :
      (g.teamMoves team safe).1 = g.board.movesFrom g.variant team safe g.board.index :=
    (teamMoves_spec hg team safe).answer
  have hall (team : Data) (safe : Bool) :=
    Board.exists_movesFrom hsound hroom hclosed hruled horderly team safe
  simp only [hanswer]
  constructor
  · intro m safe
    rw [(allows_spec hg m safe).answer]
    obtain ⟨verdict, hverdict⟩ : ∃ verdict, g.board.permits g.variant m safe = .ok verdict := by
      apply Board.exists_permits
      intro hs
      exact Board.exists_movesOf hsound hroom hclosed hruled horderly hs safe
    exact ⟨verdict, hverdict, Board.permits_iff_mem_movesFrom hsound hverdict fun team => hall team safe⟩
  · intro team safe
    obtain ⟨found, hfound⟩ := hall team safe
    refine ⟨found, hfound, fun n hn => ?_⟩
    obtain ⟨p, -, hp, hsame, -⟩ := (Board.mem_movesFrom hsound hfound).1 hn
    exact ⟨p, hp, hsame⟩

/-- A king may step out of the row of a rook, so that step is among the moves of its team. The nesting of rules is
limited. -/
theorem allows_exact_king :
    let aside : Move := ⟨⟨0, 0, 0, 0⟩, ⟨0, 1, 0, 0⟩, none⟩
    ∃ g : Game, g.Reachable ∧ g.variant.book.room = some 990 ∧
      ∃ p found, g.board.get aside.src = .ok (some (.piece p)) ∧ (g.teamMoves p.team true).1 = .ok found ∧
        ∃ n ∈ found, aside.sameEnds n = true := by
  intro aside
  have hrun : (({ layout := some "3,2,1,1 k1R,3", room := some 990 } : Opening).gameWith
      { custom := [] } >>= fun g₀ =>
        let g := (g₀.perform (.moves ⟨0, 0, 0, 0⟩ true)).2
        (g.allows aside true).1 >>= fun verdict =>
          .ok (verdict, g.variant.book.custom.length, g.variant.book.room, g.board.index)) =
      .ok (true, 0, some 990,
        [(⟨0, 0, 0, 0⟩, .piece ⟨0, .text "K", .int 1⟩), (⟨2, 0, 0, 0⟩, .piece ⟨1, .text "R", .int 0⟩)]) := by
    decide +kernel
  obtain ⟨g₀, hgame, hrun⟩ := Outcome.bind_eq_ok_iff.1 hrun
  obtain ⟨verdict, hverdict, hrun⟩ := Outcome.bind_eq_ok_iff.1 hrun
  simp only [Except.ok.injEq, Prod.mk.injEq, List.length_eq_zero_iff] at hrun
  obtain ⟨rfl, hcustom, hlimit, hindex⟩ := hrun
  have hstart : g₀.Reachable := .start ⟨g₀, hgame, rfl⟩
  have hreachable : (g₀.perform (.moves ⟨0, 0, 0, 0⟩ true)).2.Reachable := hstart.step trivial
  generalize (g₀.perform (.moves ⟨0, 0, 0, 0⟩ true)).2 = g at *
  have hbook : g.variant.book = { custom := [], room := some 990 } := by
    rw [← hcustom, ← hlimit]
  have hpieces {c : Coord} {p : Piece} (hp : g.board.get c = .ok (some (.piece p))) :
      p = ⟨0, .text "K", .int 1⟩ ∨ p = ⟨1, .text "R", .int 0⟩ := by
    have hmem := hreachable.proper.sound.get_eq_piece_iff.1 hp
    rw [hindex] at hmem
    simp only [List.mem_cons, List.not_mem_nil, or_false, Prod.mk.injEq, Occupant.piece.injEq] at hmem
    exact hmem.imp And.right And.right
  have hruled : g.board.Ruled g.variant.book := by
    intro c p hp
    rw [hbook]
    rcases hpieces hp with rfl | rfl
    · exact ⟨Rule.king, rfl⟩
    · exact ⟨Rule.rook, rfl⟩
  have hteams : g.board.IntegerTeams := by
    intro c p hp
    rcases hpieces hp with rfl | rfl <;> rfl
  have hexact := allows_exact hreachable (by rw [hbook]; decide +kernel) (by rw [hbook]; decide +kernel) hruled
    (Board.orderly_of_integerTeams hteams)
  obtain ⟨verdict, hanswer, hiff⟩ := hexact.1 aside true
  rw [hverdict] at hanswer
  cases hanswer
  exact ⟨g, hreachable, hlimit, hiff.1 rfl⟩

end Game

end Hyperchess
