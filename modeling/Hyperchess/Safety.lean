import Hyperchess.Reach

/-!
# Safety of royal pieces

A move exposes its team if, after it, another team has a candidate move to a square with a royal piece of that team.
To find out, the move is played on the board itself and taken back.
-/

namespace Hyperchess

/-- What decides a game besides the board: the rules, and the kinds of piece that must not be captured. -/
structure Variant where
  book : RuleBook
  royals : List Data
  deriving Repr, Inhabited

/-- Royal kinds from values; lists and maps are refused. -/
def Variant.royalsOf (items : List Data) : Except Fault (List Data) :=
  if items.all Data.isKey then .ok (Data.distinct items) else .error .wrongType

/-- The kind is royal. -/
def Variant.isRoyal (v : Variant) (id : Data) : Except Fault Bool :=
  if id.isKey then .ok (id.isIn v.royals) else .error .wrongType

namespace Board

/-- Some team among `others`, apart from `team`, has a candidate move to one of the squares. -/
def attacked (b : Board) (v : Variant) (team : Data) (squares : List Coord) : (others : List Data) → Except Fault Bool
  | [] => .ok false
  | other :: rest => do
    if other.same team then attacked b v team squares rest
    else
      let replies ← b.teamCandidates v.book other
      if replies.any fun m => squares.contains m.dst then return true
      else attacked b v team squares rest

/-- Another team has a candidate move to a square with a royal piece of the team. -/
def royalAttacked (b : Board) (v : Variant) (team : Data) : Except Fault Bool := do
  let royal ← b.squaresOf team v.isRoyal
  if royal.isEmpty then return false
  else b.attacked v team royal (← b.teams)

/-- Whether a move exposes a team, and the board, which is as it was. -/
def exposes (b : Board) (v : Variant) (m : Move) (team : Data) : Except Fault Bool × Board :=
  match b.get m.src with
  | .error e => (.error e, b)
  | .ok none => (.ok false, b)
  | .ok (some _) =>
    match b.play m with
    | (.error e, b') => (.error e, b')
    | (.ok played, b') =>
      let verdict := b'.royalAttacked v team
      match b'.undo played with
      | (.ok _, b'') => (verdict, b'')
      | (.error e, b'') => (.error e, b'')

/-- The moves that do not expose a team, and the board. -/
def legal (b : Board) (v : Variant) (team : Data) : List Move → Except Fault (List Move) × Board
  | [] => (.ok [], b)
  | m :: rest =>
    match b.exposes v m team with
    | (.error e, b') => (.error e, b')
    | (.ok exposed, b') =>
      match legal b' v team rest with
      | (.error e, b'') => (.error e, b'')
      | (.ok moves, b'') => (.ok (if exposed then moves else m :: moves), b'')

end Board

end Hyperchess
