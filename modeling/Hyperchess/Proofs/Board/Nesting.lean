import Hyperchess.Proofs.Board.Analysis

/-!
# Moves that are played and taken back

While a move that was played waits to be taken back, further moves can be played and taken back. Actions are balanced if
every move that is played in their course is taken back in their course, the last one first (`Balanced`). Balanced
actions between squares of a sound board all succeed, leave the cache alone and lead back to the very same analysis
(`Balanced.run_eq`). Main statement: so do any moves that are played in order and taken back in the opposite order,
and in between the game is the one on which they were made for good, without a word to the cache (`run_nest`).
-/

namespace Hyperchess.Analysis

variable {a : Analysis} {m : Move} {moves : List Move} {actions front back : List Action}

/-! ## Runs one after the other -/

theorem run_append (a : Analysis) (front back : List Action) : a.run (front ++ back) = (a.run front).run back :=
  List.foldl_append

theorem run_cons (a : Analysis) (x : Action) (rest : List Action) : a.run (x :: rest) = (a.after x).run rest := rfl

theorem along_append {condition : Analysis → Action → Prop} : Along condition a (front ++ back) ↔
    Along condition a front ∧ Along condition (a.run front) back := by
  induction front generalizing a with
  | nil => exact (and_iff_right trivial).symm
  | cons x rest ih =>
    rw [List.cons_append, Along, Along, ih, run_cons, and_assoc]

/-! ## One move -/

/-- The action is not refused. -/
def Succeeds (a : Analysis) : Action → Prop
  | .set c p => ∃ before, (a.game.set c (p.map .piece)).1 = .ok before
  | .move m invalidate => ∃ captured, (a.game.move m invalidate).1 = .ok captured
  | .play m => ∃ r, (a.game.board.play m).1 = .ok r
  | .undo => ∃ r ∈ a.played.head?, (a.game.board.undo r).1 = .ok ()

/-- The action succeeds and leaves the cache as it is. -/
def Undisturbed (a : Analysis) (x : Action) : Prop := a.Succeeds x ∧ (a.after x).game.cache = a.game.cache

section Play

variable (h : a.game.board.Sound) (hs : a.game.board.contains m.src = true) (hd : a.game.board.contains m.dst = true)

include h hs hd

/-- Playing a move is making it without a word to the cache, and keeping what is needed to take it back. -/
theorem after_play : a.after (.play m) = ⟨(a.game.move m false).2, a.game.board.record m :: a.played⟩ := by
  simp [after, Board.play_eq h hs hd, Game.move_eq h hs hd]

theorem board_after_play : (a.after (.play m)).game.board = a.game.board.moved m := by
  simp [after, Board.play_eq h hs hd]

theorem undisturbed_play : a.Undisturbed (.play m) := by
  refine ⟨⟨a.game.board.record m, by rw [Board.play_eq h hs hd]⟩, ?_⟩
  simp [after, Board.play_eq h hs hd]

/-- What was played last is taken back. -/
theorem after_undo : (a.after (.play m)).after .undo = a := by
  simp [after, Board.play_eq h hs hd, Board.undo_moved h hs hd]

theorem undisturbed_undo : (a.after (.play m)).Undisturbed .undo := by
  refine ⟨⟨a.game.board.record m, ?_, ?_⟩, ?_⟩
  · rw [after_play h hs hd]
    rfl
  · simp [after, Board.play_eq h hs hd, Board.undo_moved h hs hd]
  · rw [after_undo h hs hd]
    simp [after, Board.play_eq h hs hd]

end Play

/-! ## Balanced actions -/

/-- Every move that is played is taken back, the last one first. -/
inductive Balanced : List Action → Prop
  | nil : Balanced []
  | cons {m : Move} {inner rest : List Action} (hinner : Balanced inner) (hrest : Balanced rest) :
    Balanced (.play m :: (inner ++ .undo :: rest))

/-- The moves that are played lead from squares of the board to squares of the board. -/
def Inside (b : Board) (actions : List Action) : Prop :=
  ∀ m, .play m ∈ actions → b.contains m.src = true ∧ b.contains m.dst = true

/-- **Balanced actions lead back to where they started.** None of them is refused, and none touches the cache. -/
theorem Balanced.run_eq (hactions : Balanced actions) (h : a.game.board.Sound) (hin : Inside a.game.board actions) :
    a.run actions = a ∧ Along Undisturbed a actions := by
  induction hactions generalizing a with
  | nil => exact ⟨rfl, trivial⟩
  | @cons m inner rest _ _ ihinner ihrest =>
    obtain ⟨hs, hd⟩ := hin m List.mem_cons_self
    have hmoved := board_after_play h hs hd
    -- the inner actions start on the board behind the move, which has the same squares
    have hinner := ihinner (a := a.after (.play m)) (hmoved ▸ h.moved hs hd) fun n hn => by
      rw [hmoved, Board.moved_contains, Board.moved_contains]
      exact hin n (List.mem_cons_of_mem _ (List.mem_append_left _ hn))
    have hrest := ihrest h fun n hn =>
      hin n (List.mem_cons_of_mem _ (List.mem_append_right _ (List.mem_cons_of_mem _ hn)))
    constructor
    · rw [run_cons, run_append, hinner.1, run_cons, after_undo h hs hd, hrest.1]
    · refine ⟨undisturbed_play h hs hd, along_append.2 ⟨hinner.2, ?_⟩⟩
      rw [hinner.1]
      refine ⟨undisturbed_undo h hs hd, ?_⟩
      rw [after_undo h hs hd]
      exact hrest.2

/-! ## Moves in a nest -/

/-- Moves are played in order, and then taken back in the opposite order. -/
def nest (moves : List Move) : List Action := moves.map .play ++ List.replicate moves.length .undo

theorem nest_cons (m : Move) (rest : List Move) : nest (m :: rest) = .play m :: (nest rest ++ [.undo]) := by
  simp [nest, List.replicate_succ']

theorem balanced_nest (moves : List Move) : Balanced (nest moves) := by
  induction moves with
  | nil => exact .nil
  | cons m rest ih =>
    rw [nest_cons]
    exact .cons ih .nil

theorem mem_of_play_mem_nest (hm : .play m ∈ nest moves) : m ∈ moves := by
  rcases List.mem_append.1 hm with hplay | hundo
  · obtain ⟨n, hn, heq⟩ := List.mem_map.1 hplay
    cases heq
    exact hn
  · cases List.eq_of_mem_replicate hundo

/-- Playing moves is making them, one after the other, without a word to the cache. -/
theorem run_play (h : a.game.board.Sound)
    (hends : ∀ m ∈ moves, a.game.board.contains m.src = true ∧ a.game.board.contains m.dst = true) :
    (a.run (moves.map .play)).game = moves.foldl (fun g m => (g.move m false).2) a.game := by
  induction moves generalizing a with
  | nil => rfl
  | cons m rest ih =>
    obtain ⟨⟨hs, hd⟩, hrest⟩ := List.forall_mem_cons.1 hends
    have hmoved := board_after_play h hs hd
    rw [List.map_cons, run_cons, List.foldl_cons, ih]
    · rw [after_play h hs hd]
    · exact hmoved ▸ h.moved hs hd
    · simpa only [hmoved, Board.moved_contains] using hrest

/-- **Taking moves back is the exact inverse of playing them.** Whatever has been played before, moves between squares
of a sound board are played in order and taken back in the opposite order: no step is refused or touches the cache, at
the innermost point the moves have been made, and at the end the board is the very same, with what stands in every cell,
its index in its order and the flags of all pieces; and the same moves wait to be taken back as before. -/
theorem run_nest (h : a.game.board.Sound)
    (hends : ∀ m ∈ moves, a.game.board.contains m.src = true ∧ a.game.board.contains m.dst = true) :
    a.run (nest moves) = a ∧ Along Undisturbed a (nest moves) ∧
      (a.run (moves.map .play)).game = moves.foldl (fun g m => (g.move m false).2) a.game := by
  have hin : Inside a.game.board (nest moves) := fun m hm => hends m (mem_of_play_mem_nest hm)
  obtain ⟨hrun, halong⟩ := (balanced_nest moves).run_eq h hin
  exact ⟨hrun, halong, run_play h hends⟩

/-- A pawn that stands on two squares takes a rook, stays where it is, is taken on its other square by a move of nothing
and moves on; its moves are in the cache. -/
theorem run_nest_pawn :
    let pawn : Piece := ⟨0, .text "P", .int 0⟩
    let rook : Piece := ⟨1, .text "R", .int 1⟩
    let step (x x' : Int) : Move := ⟨⟨x, 0, 0, 0⟩, ⟨x', 0, 0, 0⟩, none⟩
    let moves : List Move := [step 0 2, step 2 2, step 0 1, step 2 0]
    let cache : Cache := { enabled := true, entries := [("0,0,0,0", [step 0 2])] }
    ∃ b, Board.arranged ⟨3, 1, 1, 1⟩ #[[.int 0, .int 1], []]
        [(⟨0, 0, 0, 0⟩, pawn), (⟨2, 0, 0, 0⟩, rook), (⟨1, 0, 0, 0⟩, pawn)] = .ok b ∧
      let a : Analysis := ⟨⟨b, default, some cache, []⟩, []⟩
      a.run (nest moves) = a ∧ Along Undisturbed a (nest moves) ∧
        (a.run (moves.map .play)).game.board.index = [(⟨0, 0, 0, 0⟩, .piece pawn)] ∧
        (a.run (moves.map .play)).game.board.flags = #[[.int 1], []] := by
  intro pawn rook step moves cache
  obtain ⟨b, hb, hindex, hflags⟩ : ∃ b, Board.arranged ⟨3, 1, 1, 1⟩ #[[.int 0, .int 1], []]
      [(⟨0, 0, 0, 0⟩, pawn), (⟨2, 0, 0, 0⟩, rook), (⟨1, 0, 0, 0⟩, pawn)] = .ok b ∧
      (run ⟨⟨b, default, some cache, []⟩, []⟩ (moves.map .play)).game.board.index =
        [(⟨0, 0, 0, 0⟩, .piece pawn)] ∧
      (run ⟨⟨b, default, some cache, []⟩, []⟩ (moves.map .play)).game.board.flags = #[[.int 1], []] :=
    ⟨_, rfl, by decide +kernel, by decide +kernel⟩
  have hsound : b.Sound := Board.arranged_sound hb (by simp [Board.contains, Board.arranged_size hb])
  have hends : ∀ m ∈ moves, b.contains m.src = true ∧ b.contains m.dst = true := by
    simp [moves, step, Board.contains, Board.arranged_size hb]
  obtain ⟨hrun, halong, -⟩ := run_nest (a := ⟨⟨b, default, some cache, []⟩, []⟩) hsound hends
  exact ⟨b, hb, hrun, halong, hindex, hflags⟩

end Hyperchess.Analysis
