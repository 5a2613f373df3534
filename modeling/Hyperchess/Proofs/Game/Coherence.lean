import Hyperchess.Proofs.Coord.Text
import Hyperchess.Proofs.Game.Changes
import Hyperchess.Proofs.Game.Session
import Hyperchess.Proofs.Safety.Enroll

/-!
# What the cache keeps

A cache is coherent if the moves that it keeps for a square are those that would be found out for it now
(`Game.Coherent`). In a proper game — a sound board, the flags of whose pieces are known, and a coherent cache — every
question has the answer that the board and the variant alone determine, and leaves a proper game with the same board
(`moves_spec`, `teamMoves_spec`, `allows_spec`, `exposes_spec`). A change of the board behind a cleared cache leaves a
proper game, too (`proper_clearCache`).
-/

namespace Hyperchess

/-! ## Keeping moves -/

namespace Cache

variable {c : Cache} {square other : Coord} {moves : List Move}

theorem find?_assign (entries : List (String × List Move)) (key other : String) (moves : List Move) :
    ((assign entries key moves).find? fun e => e.1 == other).map (·.2) =
      if other = key then some moves else (entries.find? fun e => e.1 == other).map (·.2) := by
  induction entries with
  | nil =>
    by_cases h : other = key
    · simp [assign, h]
    · have hne : key ≠ other := fun k => h k.symm
      simp [assign, h, hne]
  | cons e rest ih =>
    unfold assign
    by_cases hk : e.1 = key
    · by_cases h : other = key
      · simp [hk, h]
      · have hne : key ≠ other := fun k => h k.symm
        simp [hk, h, hne]
    · by_cases ho : e.1 = other
      · have hne : other ≠ key := fun k => hk (ho.trans k)
        simp [ho, hne]
      · simpa [hk, ho] using ih

/-- What is found after moves have been kept: they, for their square, and what was found before for any other. -/
theorem find?_store (c : Cache) (square other : Coord) (moves : List Move) : (c.store square moves).find? other =
    if c.enabled = true ∧ other = square then some moves else c.find? other := by
  have hkey : other.text = square.text ↔ other = square := ⟨Coord.text_injective, fun h => by rw [h]⟩
  unfold store
  cases c.enabled with
  | false => simp
  | true => simp [find?, find?_assign, hkey]

@[simp] theorem find?_clear (c : Cache) (square : Coord) : c.clear.find? square = none := rfl

/-- Looking moves up changes nothing that can be found. -/
@[simp] theorem get_find? (c : Cache) (square other : Coord) : (c.get square).2.find? other = c.find? other := by
  unfold get
  split
  · split <;> rfl
  · rfl

theorem find?_of_get (h : (c.get square).1 = some moves) : c.find? square = some moves := by
  unfold get at h
  split at h
  · split at h
    · rename_i hfound
      rw [hfound]
      exact h
    · cases h
  · cases h

end Cache

/-! ## What boards determine -/

namespace Board

/-- The moves of what stands on a square. -/
def movesOf (b : Board) (v : Variant) (square : Coord) (safe : Bool) : Except Fault (List Move) :=
  match b.get square with
  | .error e => .error e
  | .ok none => .ok []
  | .ok (some o) =>
    if safe then do
      let candidates ← b.candidates v.book square
      let piece ← o.asPiece
      b.unexposed v piece.team candidates
    else b.candidates v.book square

/-- The moves of a team's pieces among index entries. -/
def movesFrom (b : Board) (v : Variant) (team : Data) (safe : Bool) :
    List (Coord × Occupant) → Except Fault (List Move)
  | [] => .ok []
  | e :: rest =>
    match e.2.asPiece with
    | .error f => .error f
    | .ok piece =>
      if piece.team.same team then do
        let moves ← b.movesOf v e.1 safe
        let more ← b.movesFrom v team safe rest
        return moves ++ more
      else b.movesFrom v team safe rest

/-- Whether a move is among the moves of its source. -/
def permits (b : Board) (v : Variant) (m : Move) (safe : Bool) : Except Fault Bool :=
  if b.contains m.src && b.contains m.dst then do return (← b.movesOf v m.src safe).any m.sameEnds
  else .ok false

/-- A new piece makes no difference to the moves. -/
theorem movesOf_enroll {b : Board} (h : b.Sound) (he : b.Enrolled) (d : Design) (v : Variant) (square : Coord)
    (safe : Bool) : (b.enroll d).2.movesOf v square safe = b.movesOf v square safe := by
  simp only [movesOf, enroll_get, candidates_enroll h he, unexposed_enroll h he]

end Board

namespace Game

variable {g : Game} {square : Coord} {found : List Move}

/-! ## What the cache keeps -/

/-- The cache keeps these moves for the square. -/
def Cached (g : Game) (square : Coord) (found : List Move) : Prop :=
  ∃ c, g.cache = some c ∧ c.find? square = some found

/-- The moves of what stands on a square that do not expose its team, found out without the cache. -/
def freshMoves (g : Game) (square : Coord) : Except Fault (List Move) := ({ g with cache := none }.moves square true).1

/-- What the cache keeps for a square is what would be found out for it now. -/
def Coherent (g : Game) : Prop :=
  ∀ ⦃square : Coord⦄ ⦃found : List Move⦄, g.Cached square found → g.freshMoves square = .ok found

theorem not_cached_clearCache : ¬g.clearCache.Cached square found := by
  rintro ⟨c, hc, hfound⟩
  unfold clearCache at hc
  split at hc
  · rename_i hnone
    rw [hnone] at hc
    cases hc
  · cases hc
    cases hfound

theorem cached_remember {other : Coord} {moves : List Move} (h : (g.remember square moves).Cached other found) :
    g.Cached other found ∨ (other = square ∧ moves = found) := by
  obtain ⟨c, hc, hfound⟩ := h
  obtain ⟨c₀, hc₀, rfl⟩ := Option.map_eq_some_iff.1 hc
  rw [Cache.find?_store] at hfound
  split at hfound
  · cases hfound
    exact Or.inr ⟨And.right ‹_›, rfl⟩
  · exact Or.inl ⟨c₀, hc₀, hfound⟩

/-- What is looked up is what the cache keeps, and looking it up changes nothing that matters. -/
theorem remembered_spec (g : Game) (square : Coord) : ∃ r g', g.remembered square = (r, g') ∧
    g'.board = g.board ∧ g'.variant = g.variant ∧ (∀ found, r = some found → g.Cached square found) ∧
      ∀ {other found}, g'.Cached other found → g.Cached other found := by
  unfold remembered
  split
  · exact ⟨none, g, rfl, rfl, rfl, by simp, fun h => h⟩
  · rename_i c hc
    refine ⟨_, _, rfl, rfl, rfl, fun found h => ⟨c, hc, Cache.find?_of_get h⟩, ?_⟩
    rintro other found ⟨c', hc', hfound⟩
    cases hc'
    exact ⟨c, hc, by simpa using hfound⟩

/-- Choosing among moves gives what the board determines and leaves the board and the cache as they were. -/
theorem legal_spec (hb : g.board.Sound) (moves : List Move) (team : Data) :
    ∃ g', g.legal moves team = (g.board.unexposed g.variant team moves, g') ∧
      g'.board = g.board ∧ g'.variant = g.variant ∧ g'.cache = g.cache := by
  unfold legal
  rw [Board.legal_eq hb]
  cases g.board.unexposed g.variant team moves with
  | error e => exact ⟨_, rfl, rfl, rfl, rfl⟩
  | ok kept =>
    dsimp only
    split
    · exact ⟨_, rfl, rfl, rfl, rfl⟩
    · exact ⟨_, rfl, rfl, rfl, rfl⟩

/-- Asking for the moves of a square gives what the cache keeps or what the board determines; it leaves the board as it
was, and what the cache keeps then it kept before, or it is what the board determines. -/
theorem moves_frame (hb : g.board.Sound) (square : Coord) (safe : Bool) :
    ((g.moves square safe).1 = g.board.movesOf g.variant square safe ∨
      safe = true ∧ ∃ found, g.Cached square found ∧ (g.moves square safe).1 = .ok found) ∧
    (g.moves square safe).2.board = g.board ∧ (g.moves square safe).2.variant = g.variant ∧
    ∀ {other found}, (g.moves square safe).2.Cached other found →
      g.Cached other found ∨ (other = square ∧ g.board.movesOf g.variant square true = .ok found) := by
  unfold moves Board.movesOf
  cases g.board.get square with
  | error e => exact ⟨Or.inl rfl, rfl, rfl, Or.inl⟩
  | ok o =>
    cases o with
    | none => exact ⟨Or.inl rfl, rfl, rfl, Or.inl⟩
    | some o =>
      cases safe with
      | false => exact ⟨Or.inl rfl, rfl, rfl, Or.inl⟩
      | true =>
        obtain ⟨r, g₁, hr, hb₁, hv₁, hfound, hc₁⟩ := remembered_spec g square
        rw [hr]
        cases r with
        | some found => exact ⟨Or.inr ⟨rfl, found, hfound found rfl, rfl⟩, hb₁, hv₁, fun hc => Or.inl (hc₁ hc)⟩
        | none =>
          simp only [hb₁, hv₁, if_true]
          cases g.board.candidates g.variant.book square with
          | error e => exact ⟨Or.inl rfl, hb₁, hv₁, fun hc => Or.inl (hc₁ hc)⟩
          | ok candidates =>
            cases o.asPiece with
            | error e => exact ⟨Or.inl rfl, hb₁, hv₁, fun hc => Or.inl (hc₁ hc)⟩
            | ok piece =>
              obtain ⟨g₂, hlegal, hb₂, hv₂, hc₂⟩ := legal_spec (g := g₁) (hb₁ ▸ hb) candidates piece.team
              rw [hb₁] at hlegal hb₂
              rw [hv₁] at hlegal hv₂
              have hkept {other found} (hc : g₂.Cached other found) : g.Cached other found :=
                hc₁ (by rwa [Cached, hc₂] at hc)
              simp only [hlegal, Outcome.ok_bind]
              cases g.board.unexposed g.variant piece.team candidates with
              | error e => exact ⟨Or.inl rfl, hb₂, hv₂, fun hc => Or.inl (hkept hc)⟩
              | ok moves =>
                refine ⟨Or.inl rfl, hb₂, hv₂, fun hc => ?_⟩
                rcases cached_remember hc with hc | ⟨rfl, rfl⟩
                · exact Or.inl (hkept hc)
                · exact Or.inr ⟨rfl, rfl⟩

/-! ## Proper games -/

/-- The board is sound, the flags of its pieces are known, and the cache is coherent. -/
structure Proper (g : Game) : Prop where
  sound : g.board.Sound
  enrolled : g.board.Enrolled
  coherent : g.Coherent

theorem freshMoves_eq (hb : g.board.Sound) (square : Coord) :
    g.freshMoves square = g.board.movesOf g.variant square true := by
  rcases (moves_frame (g := { g with cache := none }) hb square true).1 with h | ⟨-, found, ⟨c, hc, -⟩, -⟩
  · exact h
  · cases hc

theorem Proper.movesOf_of_cached (hg : g.Proper) (h : g.Cached square found) :
    g.board.movesOf g.variant square true = .ok found := by
  rw [← freshMoves_eq hg.sound]
  exact hg.coherent h

/-- A game with a board on which everything that its cache keeps would be found out is proper. -/
theorem Proper.of_cached (hb : g.board.Sound) (he : g.board.Enrolled)
    (hc : ∀ {square found}, g.Cached square found → g.board.movesOf g.variant square true = .ok found) : g.Proper where
  sound := hb
  enrolled := he
  coherent _ _ h := (freshMoves_eq hb _).trans (hc h)

/-- So is a game without a cache. -/
theorem Proper.of_cache_eq_none (hb : g.board.Sound) (he : g.board.Enrolled) (hnone : g.cache = none) : g.Proper := by
  apply Proper.of_cached hb he
  rintro square found ⟨c, hc, -⟩
  rw [hnone] at hc
  cases hc

/-- A board change behind a cleared cache leaves a proper game. -/
theorem proper_clearCache {b : Board} (hb : b.Sound) (he : b.Enrolled) : Proper { g.clearCache with board := b } :=
  .of_cached hb he fun h => absurd h not_cached_clearCache

theorem Proper.report (hg : g.Proper) (entries : List Entry) : (g.report entries).Proper :=
  .of_cached hg.sound hg.enrolled fun h => hg.movesOf_of_cached h

/-! ## Questions -/

/-- A question has this answer, and behind it the game is proper, with board and variant as they were. -/
structure Answered {α : Type} (g : Game) (r : Except Fault α × Game) (answer : Except Fault α) : Prop where
  answer : r.1 = answer
  board : r.2.board = g.board
  variant : r.2.variant = g.variant
  proper : r.2.Proper

theorem Answered.exists_eq {α : Type} {r : Except Fault α × Game} {answer : Except Fault α} (h : g.Answered r answer) :
    ∃ g', r = (answer, g') ∧ g'.board = g.board ∧ g'.variant = g.variant ∧ g'.Proper :=
  ⟨r.2, Prod.ext h.answer rfl, h.board, h.variant, h.proper⟩

theorem moves_spec (hg : g.Proper) (square : Coord) (safe : Bool) :
    g.Answered (g.moves square safe) (g.board.movesOf g.variant square safe) := by
  obtain ⟨hanswer, hb, hv, hc⟩ := moves_frame hg.sound square safe
  refine ⟨?_, hb, hv, .of_cached (hb ▸ hg.sound) (hb ▸ hg.enrolled) fun h => ?_⟩
  · rcases hanswer with h | ⟨rfl, found, hfound, h⟩
    · exact h
    · rw [h, hg.movesOf_of_cached hfound]
  · rw [hb, hv]
    rcases hc h with h | ⟨rfl, h⟩
    · exact hg.movesOf_of_cached h
    · exact h

theorem movesFrom_spec (hg : g.Proper) (team : Data) (safe : Bool) (entries : List (Coord × Occupant)) :
    g.Answered (g.movesFrom team safe entries) (g.board.movesFrom g.variant team safe entries) := by
  induction entries generalizing g with
  | nil => exact ⟨rfl, rfl, rfl, hg⟩
  | cons e rest ih =>
    unfold movesFrom Board.movesFrom
    cases e.2.asPiece with
    | error f => exact ⟨rfl, rfl, rfl, hg⟩
    | ok piece =>
      dsimp only
      split
      · -- the rest is asked of the game behind the first question, which has the same board
        obtain ⟨g₁, hr, hb, hv, hg₁⟩ := (moves_spec hg e.1 safe).exists_eq
        obtain ⟨g₂, hr₂, hb₂, hv₂, hg₂⟩ := (ih hg₁).exists_eq
        rw [hr]
        cases g.board.movesOf g.variant e.1 safe with
        | error f => exact ⟨rfl, hb, hv, hg₁⟩
        | ok moves =>
          dsimp only
          rw [hr₂, hb, hv]
          cases g.board.movesFrom g.variant team safe rest with
          | error f => exact ⟨rfl, hb₂.trans hb, hv₂.trans hv, hg₂⟩
          | ok more => exact ⟨rfl, hb₂.trans hb, hv₂.trans hv, hg₂⟩
      · exact ih hg

theorem teamMoves_spec (hg : g.Proper) (team : Data) (safe : Bool) :
    g.Answered (g.teamMoves team safe) (g.board.movesFrom g.variant team safe g.board.index) :=
  movesFrom_spec hg team safe g.board.index

theorem allows_spec (hg : g.Proper) (m : Move) (safe : Bool) :
    g.Answered (g.allows m safe) (g.board.permits g.variant m safe) := by
  unfold allows Board.permits
  split
  · obtain ⟨g₁, hr, hb, hv, hg₁⟩ := (moves_spec hg m.src safe).exists_eq
    rw [hr]
    cases g.board.movesOf g.variant m.src safe with
    | error e => exact ⟨rfl, hb, hv, hg₁⟩
    | ok moves => exact ⟨rfl, hb, hv, hg₁⟩
  · exact ⟨rfl, rfl, rfl, hg⟩

theorem exposes_spec (hg : g.Proper) (m : Move) (team : Data) :
    g.Answered (g.exposes m team) (g.board.exposure g.variant m team) := by
  unfold exposes
  rw [Board.exposes_eq hg.sound]
  exact ⟨rfl, rfl, rfl, hg⟩

end Game

end Hyperchess
