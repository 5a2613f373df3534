import Hyperchess.Audit
import Hyperchess.Proofs.Outcome

/-!
# What an audit writes

An audit writes squares, and what is wrong about the things that stand on them. Nothing can stop it there but an integer
with too many digits, which is then somewhere on the board (`Board.Unwritten`): this is shown for each part of an audit,
from the line on a square to all that stands in cells (`Audit.occupantErrors_yields`).
-/

namespace Hyperchess

theorem Grid.mem_cells_of_getD {g : Grid} {place : Nat} {o : Occupant} (h : g.cells.getD place none = some o) :
    some o ∈ g.cells := by
  rw [Array.getD_eq_getD_getElem?] at h
  cases hcell : g.cells[place]? with
  | none =>
    rw [hcell] at h
    cases h
  | some x =>
    rw [hcell, Option.getD_some] at h
    exact h ▸ Array.mem_of_getElem? hcell

namespace Board

variable {b : Board} {c : Coord} {d : Data} {p : Piece}

/-! ## Boards without long integers -/

/-- No integer in what is told about an occupant has too many digits. -/
def Legible (b : Board) : Occupant → Prop
  | .piece p => p.id.isWithin b.digits = true ∧ p.team.isWithin b.digits = true ∧
      ∀ f ∈ b.flagsOf p, f.isWithin b.digits = true
  | .value _ d => d.isWithin b.digits = true
  | _ => True

/-- No integer that an audit could have to write has too many digits. -/
structure Writable (b : Board) : Prop where
  squares : ∀ c, b.contains c = true → c.isWithin b.digits = true
  keys : ∀ e ∈ b.index, e.1.isWithin b.digits = true
  cells : ∀ o, some o ∈ b.grid.cells → b.Legible o

/-- The report on an integer with too many digits, on a board that has one. -/
def Unwritten (b : Board) (e : Fault) : Prop := e = .tooManyDigits b.digits ∧ ¬b.Writable

theorem exists_of_writable {α : Type} {x : Except Fault α} (h : Outcome.Yields x (fun _ => True) b.Unwritten)
    (hwritable : b.Writable) : ∃ a, x = .ok a := by
  cases hx : x with
  | ok a => exact ⟨a, rfl⟩
  | error e => exact absurd hwritable (h.of_error e hx).2

/-! ## Squares and values -/

theorem square_yields (h : b.Writable → c.isWithin b.digits = true) :
    Outcome.Yields (c.written b.digits) (fun _ => True) b.Unwritten := by
  rw [Coord.written]
  split
  · exact .ok trivial
  · rename_i hlong
    exact .error ⟨rfl, fun hwritable => hlong (h hwritable)⟩

theorem data_yields (h : b.Writable → d.isWithin b.digits = true) :
    Outcome.Yields (d.written b.digits) (fun _ => True) b.Unwritten := by
  rw [Data.written]
  split
  · exact .ok trivial
  · rename_i hlong
    exact .error ⟨rfl, fun hwritable => hlong (h hwritable)⟩

theorem flags_yields {flags : Flags} (h : b.Writable → ∀ f ∈ flags, f.isWithin b.digits = true) :
    Outcome.Yields (flags.written b.digits) (fun _ => True) b.Unwritten := by
  refine .ite (.ok trivial) (.bind (.mapM fun f hf => data_yields fun hwritable => h hwritable f hf) fun _ _ _ => ?_)
  exact .ok trivial

end Board

namespace Audit

variable {b : Board} {c : Coord} {p : Piece} {entries : List (Coord × Occupant)}

/-! ## Lines -/

theorem place_yields (h : b.Writable → c.isWithin b.digits = true) :
    Outcome.Yields (do let place : Text ← c.written b.digits; return place) (fun _ => True) b.Unwritten :=
  (Board.square_yields h).bind fun _ _ _ => .ok trivial

/-- Lines on squares, if all of these can be written. -/
theorem linesOn_eq (b : Board) (message : Text) (entries : List (Coord × Occupant)) : linesOn b message entries =
    if (entries.map (·.1)).all (Coord.isWithin b.digits) then .ok (entries.map fun e => message ++ e.1.text)
    else .error (.tooManyDigits b.digits) := by
  induction entries with
  | nil => rfl
  | cons e rest ih =>
    rw [linesOn] at ih
    rw [linesOn, List.mapM_cons, ih, Coord.written, List.map_cons, List.all_cons]
    cases e.1.isWithin b.digits with
    | false => rfl
    | true => cases (rest.map (·.1)).all (Coord.isWithin b.digits) <;> rfl

theorem linesOn_yields {message : Text} (h : b.Writable → ∀ e ∈ entries, e.1.isWithin b.digits = true) :
    Outcome.Yields (linesOn b message entries) (fun _ => True) b.Unwritten := by
  have hlines : Outcome.Yields (linesOn b message entries) (∀ line ∈ ·, True) b.Unwritten :=
    .mapM fun e he => (place_yields fun hwritable => h hwritable e he).bind fun _ _ _ => .ok trivial
  exact hlines.imp (fun _ _ => trivial) fun _ hfault => hfault

/-! ## Pieces and other occupants -/

theorem complaintOn_yields {well : Bool} {message : Text} {wrong : Except Fault Text}
    (h : Outcome.Yields wrong (fun _ => True) b.Unwritten) :
    Outcome.Yields (complaintOn well message wrong) (fun _ => True) b.Unwritten :=
  .ite (.ok trivial) (h.bind fun _ _ _ => .ok trivial)

theorem pieceErrors_yields (hc : b.contains c = true) (hp : some (.piece p) ∈ b.grid.cells) (seen : List Nat) :
    Outcome.Yields (pieceErrors b c seen p) (fun _ => True) b.Unwritten := by
  refine (place_yields fun h => h.squares c hc).bind fun place _ _ => ?_
  refine (complaintOn_yields (Board.data_yields fun h => (h.cells _ hp).1)).bind fun ofKind _ _ => ?_
  refine (complaintOn_yields (Board.data_yields fun h => (h.cells _ hp).2.1)).bind fun ofTeam _ _ => ?_
  refine (complaintOn_yields (Board.flags_yields fun h => (h.cells _ hp).2.2)).bind fun ofFlags _ _ => ?_
  exact .ok trivial

/-- What stands on squares of a board is told, if the pieces are from its cells, and all else can be shown. -/
theorem occupantErrors_yields (hsquares : ∀ e ∈ entries, b.contains e.1 = true)
    (hpieces : ∀ e ∈ entries, ∀ p, e.2 = .piece p → some (.piece p) ∈ b.grid.cells)
    (hothers : ∀ e ∈ entries, (∀ p, e.2 ≠ .piece p) → Outcome.Yields (b.occupantText e.2) (fun _ => True) b.Unwritten)
    (seen : List Nat) : Outcome.Yields (occupantErrors b seen entries) (fun _ => True) b.Unwritten := by
  induction entries generalizing seen with
  | nil => exact .ok trivial
  | cons e rest ih =>
    obtain ⟨c, o⟩ := e
    obtain ⟨hc, hsquares⟩ := List.forall_mem_cons.1 hsquares
    obtain ⟨hpiece, hpieces⟩ := List.forall_mem_cons.1 hpieces
    obtain ⟨hother, hothers⟩ := List.forall_mem_cons.1 hothers
    have hrest (seen : List Nat) := ih hsquares hpieces hothers seen
    cases o with
    | piece p =>
      exact (pieceErrors_yields hc (hpiece p rfl) seen).bind fun _ _ _ => (hrest _).bind fun _ _ _ => .ok trivial
    | value | word | part =>
      refine (place_yields fun h => h.squares c hc).bind fun place _ _ => ?_
      exact (hother fun p hp => nomatch hp).bind fun _ _ _ => (hrest seen).bind fun _ _ _ => .ok trivial

end Audit

end Hyperchess
