import Hyperchess.Game.Opening

/-!
# Sessions

A session is what is asked of a game, one command after the other. `Game.trace` lists the answers, each with the board
behind it, and `Game.after` is the game at the end. New pieces can be made at any time; a piece has to be made before it
is set (`Game.Admits`). A game is reachable if such commands lead to it from an opening, which may have any book of
rules.
-/

namespace Hyperchess

/-- What is asked of a game. -/
inductive Command where
  | moves (square : Coord) (safe : Bool)
  | teamMoves (team : Data) (safe : Bool)
  | allows (m : Move) (safe : Bool)
  | exposes (m : Move) (team : Data)
  | set (square : Coord) (piece : Option Piece)
  | move (m : Move)
  | tryMove (m : Move)
  /-- A new piece is made from a design. It is on no square yet. -/
  | make (d : Design)

/-- The answer to a command. -/
inductive Answer where
  | moves (found : Except Fault (List Move))
  | verdict (verdict : Except Fault Bool)
  | occupant (before : Except Fault (Option Occupant))
  | outcome (outcome : Except Fault (Bool × Option Occupant))
  | piece (p : Piece)

namespace Game

/-- The answer to a command, and the game behind it. -/
def perform (g : Game) : Command → Answer × Game
  | .moves c safe => (g.moves c safe).map .moves id
  | .teamMoves team safe => (g.teamMoves team safe).map .moves id
  | .allows m safe => (g.allows m safe).map .verdict id
  | .exposes m team => (g.exposes m team).map .verdict id
  | .set c p => (g.set c (p.map .piece)).map .occupant id
  | .move m => (g.move m).map .occupant id
  | .tryMove m => (g.tryMove m).map .outcome id
  | .make d => (.piece (g.board.enroll d).1, { g with board := (g.board.enroll d).2 })

/-- The answers to commands, each with the board behind it. -/
def trace (g : Game) : List Command → List (Answer × Board)
  | [] => []
  | c :: rest => ((g.perform c).1, (g.perform c).2.board) :: trace (g.perform c).2 rest

/-- The game after commands. -/
def after (g : Game) (commands : List Command) : Game := commands.foldl (fun g c => (g.perform c).2) g

/-- A piece that is set was made before. -/
def Knows (g : Game) : Command → Prop
  | .set _ (some p) => p.serial < g.board.flags.size
  | _ => True

instance (g : Game) : DecidablePred g.Knows
  | .set _ (some p) => inferInstanceAs (Decidable (p.serial < g.board.flags.size))
  | .set _ none | .moves .. | .teamMoves .. | .allows .. | .exposes .. | .move _ | .tryMove _ | .make _ =>
    inferInstanceAs (Decidable True)

/-- Every piece that is set in the course of the commands was made before. -/
def Admits (g : Game) : List Command → Prop
  | [] => True
  | c :: rest => g.Knows c ∧ Admits (g.perform c).2 rest

instance decidableAdmits (g : Game) : DecidablePred g.Admits
  | [] => inferInstanceAs (Decidable True)
  | c :: rest =>
    have := decidableAdmits (g.perform c).2 rest
    inferInstanceAs (Decidable (g.Knows c ∧ Admits (g.perform c).2 rest))

end Game

namespace Opening

/-- The opening with the cache switched on or off. -/
def withCache (o : Opening) (enabled : Bool) : Opening :=
  { o with settings := o.settings.set "enable_move_cache" (.bool enabled) }

/-- The opening gives the game, with this book of rules, whatever was reported on the way. -/
def Gives (o : Opening) (book : RuleBook) (g : Game) : Prop :=
  ∃ g₀, o.gameWith book = .ok g₀ ∧ g = { g₀ with journal := g.journal }

end Opening

/-- Commands lead to the game from an opening. -/
inductive Game.Reachable : Game → Prop
  | start {o : Opening} {book : RuleBook} {g : Game} (h : o.Gives book g) : Reachable g
  | step {g : Game} {c : Command} (h : Reachable g) (known : g.Knows c) : Reachable (g.perform c).2

/-- A session with a reachable game leads to reachable games. -/
theorem Game.Reachable.after {g : Game} {commands : List Command} (h : g.Reachable) (admitted : g.Admits commands) :
    (g.after commands).Reachable := by
  induction commands generalizing g with
  | nil => exact h
  | cons c rest ih => exact ih (h.step admitted.1) admitted.2

end Hyperchess
