import Hyperchess.Proofs.Reach.Chains

/-!
# The chains of the built-in rules

The chains of rook, bishop and knight are walks in several directions under common terms (`chains_walks`), and those of
the pawns are the steps of both teams, each under a condition on the team (`chains_pawn`). Queens and kings have no
walks of their own: the chains of the queen are those of rook and bishop (`chains_queen`), and those of the king are the
chains of the queen, below the king's own terms (`chains_king`).
-/

namespace Hyperchess.RuleBook

variable {book : RuleBook} {entered : List Text}

theorem chains_nil (book : RuleBook) (entered : List Text) : book.chains entered [] = [] := by rw [chains]

theorem chains_leaves (book : RuleBook) (entered : List Text) (leaves : List (Terms × Coord)) :
    book.chains entered (leaves.map fun l => .leaf l.1 l.2) = leaves.map fun l => ⟨[], .leaf l.1 l.2⟩ := by
  induction leaves with
  | nil => exact chains_nil book entered
  | cons l rest ih => rw [List.map_cons, chains, ih, List.map_cons]

theorem chains_branches (terms : Terms) (below rest : List Path) :
    book.chains entered (.branches terms below :: rest) =
      (book.chains entered below).map (·.below terms) ++ book.chains entered rest := by
  rw [chains]

theorem chains_walks (terms : Terms) (directions : List Coord) :
    book.chains entered [Rule.walks terms directions] =
      (directions.map fun d => (⟨[], .leaf {} d⟩ : Chain)).map (·.below terms) := by
  have hleaves := chains_leaves book entered (directions.map fun d => ({}, d))
  rw [List.map_map, List.map_map] at hleaves
  rw [Rule.walks, chains_branches, chains_nil, List.append_nil]
  exact congrArg _ hleaves

/-- The steps of the pawns of a team. -/
def pawnSteps (forward : Int) : List (Terms × Coord) :=
  [(Rule.quiet [], ⟨0, forward, 0, 0⟩),
    (Rule.quiet [], ⟨0, 0, 0, forward⟩),
    (Rule.capturing [{ enemy := some Coord.origin }], ⟨1, forward, 0, 0⟩),
    (Rule.capturing [{ enemy := some Coord.origin }], ⟨-1, forward, 0, 0⟩),
    (Rule.quiet [{ flag := some 0 }, { piece := some ⟨0, -forward, 0, 0⟩, inverted := true }],
      ⟨0, 2 * forward, 0, 0⟩),
    (Rule.capturing [{ flag := some 1 }], ⟨1, forward, 0, 0⟩),
    (Rule.capturing [{ flag := some 2 }], ⟨-1, forward, 0, 0⟩)]

theorem chains_pawn : book.chains entered Rule.pawn.roots =
    ((pawnSteps 1).map fun l => (⟨[], .leaf l.1 l.2⟩ : Chain)).map
        (·.below { steps := some (.int 1), conditions := [{ team := some 0 }] }) ++
      ((pawnSteps (-1)).map fun l => (⟨[], .leaf l.1 l.2⟩ : Chain)).map
        (·.below { steps := some (.int 1), conditions := [{ team := some 1 }] }) := by
  rw [← chains_leaves book entered, ← chains_leaves book entered, Rule.pawn, Rule.pawnOf, Rule.pawnOf, chains_branches,
    chains_branches, chains_nil, List.append_nil]
  rfl

section Custom

variable (hcustom : book.custom = [])

include hcustom

theorem get?_eq_builtin (id : Text) : book.get? id = find? Rule.builtin id := by
  rw [get?, hcustom]
  rfl

/-- The chains of the queen are those of the rook and those of the bishop. -/
theorem chains_queen (hrook : ("R" : Text) ∉ entered) (hbishop : ("B" : Text) ∉ entered) :
    book.chains entered Rule.queen.roots =
      (book.chains ("R" :: entered) Rule.rook.roots ++ book.chains ("B" :: entered) Rule.bishop.roots).map
        (·.below {}) := by
  have hgetRook : book.get? "R" = some Rule.rook := (get?_eq_builtin hcustom "R").trans rfl
  have hgetBishop : book.get? "B" = some Rule.bishop := (get?_eq_builtin hcustom "B").trans rfl
  rw [Rule.queen, chains_branches, chains_nil, List.append_nil, chains_reference_of_eq_some hrook hgetRook,
    chains_reference_of_eq_some hbishop hgetBishop, chains_nil, List.append_nil]

/-- The chains of the king are those of the queen, limited to one step. -/
theorem chains_king (hqueen : ("Q" : Text) ∉ entered) : book.chains entered Rule.king.roots =
    (book.chains ("Q" :: entered) Rule.queen.roots).map (·.below Rule.stepping) := by
  have hgetQueen : book.get? "Q" = some Rule.queen := (get?_eq_builtin hcustom "Q").trans rfl
  rw [Rule.king, chains_branches, chains_nil, List.append_nil, chains_reference_of_eq_some hqueen hgetQueen, chains_nil,
    List.append_nil]

end Custom

end Hyperchess.RuleBook
