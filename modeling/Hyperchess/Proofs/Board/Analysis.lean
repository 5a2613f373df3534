import Hyperchess.Proofs.Board.Arrangement
import Hyperchess.Proofs.Game.Changes

/-!
# Boards under analysis

On a board that is analysed pieces are set and moves are made, and moves are played to be taken back, the last one
first. What holds of the board and is kept by setting and moving holds after any run in which nothing is set or moved
for good while played moves wait to be taken back (`Keeps.run`): each of them leads back to a board of which it holds.
Main statement: after any such run the index is what a scan of the cells finds (`index_perm_scanned_run`).
-/

namespace Hyperchess

/-- A game with the moves played on its board that can be taken back, the last one first. -/
structure Analysis where
  game : Game
  played : List Played := []

namespace Analysis

/-- What is done to the board. -/
inductive Action where
  | set (square : Coord) (piece : Option Piece)
  /-- A move for good, with or without a word to the cache. -/
  | move (m : Move) (invalidate : Bool)
  | play (m : Move)
  | undo

/-- The analysis after an action, which may be refused. -/
def after (a : Analysis) : Action → Analysis
  | .set c p => { a with game := (a.game.set c (p.map .piece)).2 }
  | .move m invalidate => { a with game := (a.game.move m invalidate).2 }
  | .play m =>
    match a.game.board.play m with
    | (.ok r, board) => ⟨{ a.game with board }, r :: a.played⟩
    | (.error _, board) => ⟨{ a.game with board }, a.played⟩
  | .undo =>
    match a.played with
    | [] => a
    | r :: rest => ⟨{ a.game with board := (a.game.board.undo r).2 }, rest⟩

/-- The analysis after actions. -/
def run (a : Analysis) (actions : List Action) : Analysis := actions.foldl after a

/-! ## Conditions on runs -/

/-- Every action of a run meets a condition at its turn. -/
def Along (condition : Analysis → Action → Prop) : Analysis → List Action → Prop
  | _, [] => True
  | a, x :: rest => condition a x ∧ Along condition (a.after x) rest

/-- While played moves wait to be taken back, moves are only played and taken back. -/
def Nested (a : Analysis) : Action → Prop
  | .set .. | .move .. => a.played = []
  | .play _ => True
  | .undo => a.played ≠ []

instance (a : Analysis) : DecidablePred a.Nested
  | .set .. => inferInstanceAs (Decidable (a.played = []))
  | .move .. => inferInstanceAs (Decidable (a.played = []))
  | .play _ => inferInstanceAs (Decidable True)
  | .undo => inferInstanceAs (Decidable (a.played ≠ []))

instance decidableAlong (condition : Analysis → Action → Prop) [∀ a, DecidablePred (condition a)] (a : Analysis) :
    DecidablePred (Along condition a)
  | [] => inferInstanceAs (Decidable True)
  | x :: rest =>
    have := decidableAlong condition (a.after x) rest
    inferInstanceAs (Decidable (condition a x ∧ Along condition (a.after x) rest))

/-- A piece that is set is not on the board. -/
def SetsNew (a : Analysis) : Action → Prop
  | .set _ (some p) => a.game.board.Lacks p.serial
  | _ => True

/-! ## What runs keep -/

/-- The played moves lead back to boards with a property, one after the other. -/
def Restores (P : Board → Prop) : Board → List Played → Prop
  | _, [] => True
  | b, r :: rest => ∃ b₀, b.undo r = (.ok (), b₀) ∧ P b₀ ∧ Restores P b₀ rest

/-- The board has a property, and so have the boards to which the played moves lead back. -/
def Keeps (P : Board → Prop) (a : Analysis) : Prop := P a.game.board ∧ Restores P a.game.board a.played

variable {P : Board → Prop} {a : Analysis} {x : Action}

/-- An action keeps what setting and moving keep. -/
theorem Keeps.after (hP : ∀ {b}, P b → b.Sound)
    (hmove : ∀ {b : Board} {m : Move}, P b → b.contains m.src = true → b.contains m.dst = true → P (b.moved m))
    (h : a.Keeps P) (hn : a.Nested x)
    (hset : ∀ c p, x = .set c p → a.game.board.contains c = true → P (a.game.board.placed c (p.map .piece))) :
    (a.after x).Keeps P := by
  obtain ⟨hb, hr⟩ := h
  have hsound := hP hb
  cases x with
  | set c p =>
    have hplayed : a.played = [] := hn
    refine ⟨?_, by simp only [Analysis.after, hplayed]; trivial⟩
    cases hc : a.game.board.contains c with
    | false => simpa [Analysis.after, Game.set_eq_error hc] using hb
    | true => simpa [Analysis.after, Game.set_eq hsound.toFramed hc] using hset c p rfl hc
  | move m invalidate =>
    have hplayed : a.played = [] := hn
    refine ⟨?_, by simp only [Analysis.after, hplayed]; trivial⟩
    by_cases hm : a.game.board.contains m.src = true ∧ a.game.board.contains m.dst = true
    · simpa [Analysis.after, Game.move_eq hsound hm.1 hm.2] using hmove hb hm.1 hm.2
    · simpa [Analysis.after, Game.move_eq_error hm] using hb
  | play m =>
    by_cases hm : a.game.board.contains m.src = true ∧ a.game.board.contains m.dst = true
    · simp only [Analysis.after, Board.play_eq hsound hm.1 hm.2]
      exact ⟨hmove hb hm.1 hm.2, a.game.board, Board.undo_moved hsound hm.1 hm.2, hb, hr⟩
    · simp only [Analysis.after, Board.play_eq_error hsound.toFramed hm]
      exact ⟨hb, hr⟩
  | undo =>
    cases hplayed : a.played with
    | nil => exact absurd hplayed hn
    | cons r rest =>
      rw [hplayed] at hr
      obtain ⟨b₀, hundo, hb₀, hrest⟩ := hr
      simp only [Analysis.after, hplayed, hundo]
      exact ⟨hb₀, hrest⟩

/-- A run keeps what setting, under a condition, and moving keep. -/
theorem Keeps.run {condition : Analysis → Action → Prop} (hP : ∀ {b}, P b → b.Sound)
    (hmove : ∀ {b : Board} {m : Move}, P b → b.contains m.src = true → b.contains m.dst = true → P (b.moved m))
    (hset : ∀ {a : Analysis} {c p}, condition a (.set c p) → P a.game.board → a.game.board.contains c = true →
      P (a.game.board.placed c (p.map .piece)))
    {actions : List Action} (h : a.Keeps P) (hn : Along Nested a actions) (hc : Along condition a actions) :
    (a.run actions).Keeps P := by
  induction actions generalizing a with
  | nil => exact h
  | cons x rest ih =>
    refine ih (h.after hP hmove hn.1 fun c p hx hcp => ?_) hn.2 hc.2
    subst hx
    exact hset hc.1 h.1 hcp

theorem along_true (a : Analysis) (actions : List Action) : Along (fun _ _ => True) a actions := by
  induction actions generalizing a with
  | nil => trivial
  | cons x rest ih => exact ⟨trivial, ih _⟩

/-- A run keeps boards sound. -/
theorem keeps_sound_run {actions : List Action} (h : a.Keeps Board.Sound) (hn : Along Nested a actions) :
    (a.run actions).Keeps Board.Sound :=
  h.run (fun hb => hb) (fun hb hs hd => hb.moved hs hd) (fun _ hb hc => hb.placed hc _) hn (along_true a actions)

/-- A run in which no piece is set that is on the board keeps pieces distinct. -/
theorem keeps_distinct_run {actions : List Action} (h : a.Keeps fun b => b.Sound ∧ b.Distinct)
    (hn : Along Nested a actions) (hnew : Along SetsNew a actions) :
    (a.run actions).Keeps fun b => b.Sound ∧ b.Distinct := by
  refine h.run (fun hb => hb.1) (fun hb hs hd => ⟨hb.1.moved hs hd, hb.2.moved hb.1 hs hd⟩)
    (fun hset hb hc => ?_) hn hnew
  refine ⟨hb.1.placed hc _, hb.2.placed hb.1.toFramed hc fun q hq => ?_⟩
  subst hq
  exact hset

/-! ## Runs from arranged boards -/

/-- **The index after a run.** However a board was arranged and whatever was done to it, as long as played moves were
taken back in order: the index is what a scan of all cells finds, with one entry for every occupied square; and no piece
stands on two squares if none was put down, or set, while it was on the board. -/
theorem index_perm_scanned_run {size : Coord} {flags : Array Flags} {pieces : List (Coord × Piece)} {g : Game}
    (built : Board.arranged size flags pieces = .ok g.board) (inside : ∀ e ∈ pieces, g.board.contains e.1 = true)
    {actions : List Action} (nested : Along Nested ⟨g, []⟩ actions) {b : Board}
    (hb : (run ⟨g, []⟩ actions).game.board = b) :
    (∃ cells, Audit.scanned b = .ok cells ∧ b.index.Perm cells ∧ b.index.length = cells.length) ∧
      (b.index.map (·.1)).Nodup ∧ (∀ e ∈ b.index, b.contains e.1 = true) ∧
      ((pieces.map (·.2.serial)).Nodup → Along SetsNew ⟨g, []⟩ actions → b.Distinct) := by
  have hstart : Keeps Board.Sound ⟨g, []⟩ := ⟨Board.arranged_sound built inside, trivial⟩
  have hsound : b.Sound := hb ▸ (keeps_sound_run hstart nested).1
  obtain ⟨cells, hcells, hperm⟩ := hsound.index_perm
  refine ⟨⟨cells, hcells, hperm, hperm.length_eq⟩, hsound.keys, fun e he => (hsound.of_mem_index he).1,
    fun hnew hsets => ?_⟩
  have hdistinct : Keeps (fun b => b.Sound ∧ b.Distinct) ⟨g, []⟩ :=
    ⟨⟨hstart.1, Board.arranged_distinct built inside hnew⟩, trivial⟩
  exact hb ▸ (keeps_distinct_run hdistinct nested hsets).1.2

/-- A run with a new piece, a refused action, a capture that is taken back, a move on the spot and a move of nothing. -/
theorem index_perm_scanned_run_capture :
    let king : Piece := ⟨0, .text "K", .int 0⟩
    let rook : Piece := ⟨1, .text "R", .int 1⟩
    let capture : Move := ⟨⟨2, 0, 0, 0⟩, ⟨1, 0, 0, 0⟩, none⟩
    let stay : Move := ⟨⟨2, 0, 0, 0⟩, ⟨2, 0, 0, 0⟩, none⟩
    let nothing : Move := ⟨⟨0, 0, 0, 0⟩, ⟨1, 0, 0, 0⟩, none⟩
    let actions : List Action := [.set ⟨1, 0, 0, 0⟩ (some king), .set ⟨3, 0, 0, 0⟩ none, .play capture, .play nothing,
      .undo, .undo, .move stay true, .move nothing false]
    ∃ b, Board.arranged ⟨3, 1, 1, 1⟩ #[[], []] [(⟨2, 0, 0, 0⟩, rook)] = .ok b ∧
      (run ⟨⟨b, default, none, []⟩, []⟩ actions).game.board.Distinct := by
  intro king rook capture stay nothing actions
  obtain ⟨b, hb, hindex⟩ : ∃ b, Board.arranged ⟨3, 1, 1, 1⟩ #[[], []] [(⟨2, 0, 0, 0⟩, rook)] = .ok b ∧
      b.index = [(⟨2, 0, 0, 0⟩, .piece rook)] := ⟨_, rfl, rfl⟩
  have inside : ∀ e ∈ [((⟨2, 0, 0, 0⟩ : Coord), rook)], b.contains e.1 = true := by
    simp [Board.contains, Board.arranged_size hb]
  have hlacks : b.Lacks king.serial := by
    intro c p hp
    have he := (Board.arranged_sound hb inside).get_eq_piece_iff.1 hp
    rw [hindex] at he
    cases List.mem_singleton.1 he
    decide
  have nested : Along Nested ⟨⟨b, default, none, []⟩, []⟩ actions := by
    cases hb
    decide +kernel
  have hrun := index_perm_scanned_run (g := ⟨b, default, none, []⟩) hb inside nested rfl
  exact ⟨b, hb, hrun.2.2.2 (by decide) ⟨hlacks, trivial, trivial, trivial, trivial, trivial, trivial, trivial, trivial⟩⟩

end Analysis

end Hyperchess
