import Hyperchess.Proofs.Data.Order
import Hyperchess.Proofs.Rule.Builtin

/-!
# Rules with the colours reversed

Reversing the colours turns the second and the fourth axis around (`Coord.flipped`) and makes team 1 of team 0 and team
0 of team 1 (`Data.swapped`). A chain of a rule is reversed with everything on it that speaks of teams and directions
(`Chain.reversed`), and keeps its limits (`budget_reversed`). Chains are reversible if they are the same again, in
whatever order (`Reversible`). So are those of all built-in rules (`reversible_of_builtin`): the directions of rook,
bishop and knight are the same turned around, queen and king refer to rook and bishop, and the pawns of each team have
the steps of the other one's.
-/

namespace Hyperchess

/-! ## Teams and directions -/

/-- The offset with its second and its fourth axis turned around. -/
def Coord.flipped (d : Coord) : Coord := ⟨d.x, -d.y, d.z, -d.w⟩

/-- Team 1 for team 0, team 0 for team 1, and every other team for itself. -/
def Data.swapped (t : Data) : Data := if t.same (.int 0) then .int 1 else if t.same (.int 1) then .int 0 else t

/-- Team 1 for team 0, team 0 for team 1, and every other team for itself. -/
def Condition.swappedTeam (n : Int) : Int := if n = 0 then 1 else if n = 1 then 0 else n

theorem Data.swapped_int (n : Int) : (Data.int n).swapped = .int (Condition.swappedTeam n) := by
  unfold Data.swapped Condition.swappedTeam
  by_cases h0 : n = 0
  · subst n
    rfl
  · by_cases h1 : n = 1
    · subst n
      rfl
    · simp [Data.same, h0, h1]

/-- What is done to teams. -/
theorem Data.swapped_cases (t : Data) :
    (t.same (.int 0) = true ∧ t.swapped = .int 1) ∨ (t.same (.int 1) = true ∧ t.swapped = .int 0) ∨
      (t.same (.int 0) = false ∧ t.same (.int 1) = false ∧ t.swapped = t) := by
  unfold Data.swapped
  cases h0 : t.same (.int 0) with
  | true => exact Or.inl ⟨rfl, rfl⟩
  | false =>
    cases h1 : t.same (.int 1) with
    | true => exact Or.inr (Or.inl ⟨rfl, rfl⟩)
    | false => exact Or.inr (Or.inr ⟨rfl, rfl, rfl⟩)

/-- Teams are the same exactly if they are after the exchange. -/
theorem Data.same_swapped (s t : Data) : s.swapped.same t.swapped = s.same t := by
  have hright {t k : Data} (h : t.same k = true) (u : Data) : u.same t = u.same k := by
    rw [Data.same_comm, Data.same_congr h, Data.same_comm]
  rcases s.swapped_cases with ⟨hs, hs'⟩ | ⟨hs, hs'⟩ | ⟨hs0, hs1, hs'⟩ <;>
    rcases t.swapped_cases with ⟨ht, ht'⟩ | ⟨ht, ht'⟩ | ⟨ht0, ht1, ht'⟩
  all_goals rw [hs', ht']
  · rw [Data.same_congr hs, hright ht]
    rfl
  · rw [Data.same_congr hs, hright ht]
    rfl
  · rw [Data.same_congr hs, Data.same_comm, ht1, Data.same_comm, ht0]
  · rw [Data.same_congr hs, hright ht]
    rfl
  · rw [Data.same_congr hs, hright ht]
    rfl
  · rw [Data.same_congr hs, Data.same_comm, ht0, Data.same_comm, ht1]
  · rw [hright ht, hs0, hs1]
  · rw [hright ht, hs0, hs1]

/-! ## Chains -/

/-- The condition with its team exchanged and its offsets turned around. -/
def Condition.reversed (c : Condition) : Condition :=
  { c with
    team := c.team.map swappedTeam
    piece := c.piece.map Coord.flipped
    enemy := c.enemy.map Coord.flipped }

def Terms.reversed (terms : Terms) : Terms := { terms with conditions := terms.conditions.map Condition.reversed }

def Tip.reversed : Tip → Tip
  | .leaf terms direction => .leaf terms.reversed direction.flipped
  | .missing id => .missing id

/-- The chain with everything on it reversed. -/
def Chain.reversed (chain : Chain) : Chain := ⟨chain.above.map Terms.reversed, chain.tip.reversed⟩

namespace Chain

theorem terms_reversed (chain : Chain) : chain.reversed.terms = chain.terms.map Terms.reversed := by
  obtain ⟨above, tip⟩ := chain
  cases tip with
  | leaf terms direction => simp [Chain.terms, reversed, Tip.reversed]
  | missing id => rfl

/-- The limits on a chain have nothing to do with teams and directions. -/
theorem budget_reversed (chain : Chain) : chain.reversed.budget = chain.budget := by
  simp only [budget, terms_reversed, List.findSome?_map]
  rfl

theorem below_reversed (terms : Terms) (chain : Chain) :
    (chain.below terms).reversed = chain.reversed.below terms.reversed := rfl

end Chain

/-- Reversed, the chains are the same again, in whatever order. -/
def Reversible (chains : List Chain) : Prop := (chains.map Chain.reversed).Perm chains

namespace Reversible

variable {front back chains : List Chain}

theorem append (hfront : Reversible front) (hback : Reversible back) : Reversible (front ++ back) := by
  unfold Reversible
  rw [List.map_append]
  exact List.Perm.append hfront hback

/-- Chains that are each other's reverse are reversible together. -/
theorem append_of_eq (hfront : front.map Chain.reversed = back) (hback : back.map Chain.reversed = front) :
    Reversible (front ++ back) := by
  unfold Reversible
  rw [List.map_append, hfront, hback]
  exact List.perm_append_comm

theorem below (h : Reversible chains) {terms : Terms} (hterms : terms.reversed = terms) :
    Reversible (chains.map (·.below terms)) := by
  have hmap : (chains.map (·.below terms)).map Chain.reversed =
      (chains.map Chain.reversed).map (·.below terms) := by
    rw [List.map_map, List.map_map]
    apply List.map_congr_left
    intro chain _
    rw [Function.comp_apply, Function.comp_apply, Chain.below_reversed, hterms]
  unfold Reversible
  rw [hmap]
  exact h.map _

/-- Walks are reversible if their directions are the same turned around. -/
theorem leaves {directions : List Coord} (h : (directions.map Coord.flipped).Perm directions) :
    Reversible (directions.map fun d => ⟨[], .leaf {} d⟩) := by
  have hmap : (directions.map fun d => (⟨[], .leaf {} d⟩ : Chain)).map Chain.reversed =
      (directions.map Coord.flipped).map fun d => ⟨[], .leaf {} d⟩ := by
    rw [List.map_map, List.map_map]
    rfl
  unfold Reversible
  rw [hmap]
  exact h.map _

end Reversible

/-! ## Built-in rules -/

namespace RuleBook

variable {book : RuleBook} {entered : List Text} {id : Text} {rule : Rule}

theorem reversible_rook : Reversible (book.chains entered Rule.rook.roots) := by
  rw [Rule.rook, chains_walks]
  exact (Reversible.leaves (by decide)).below rfl

theorem reversible_bishop : Reversible (book.chains entered Rule.bishop.roots) := by
  rw [Rule.bishop, chains_walks]
  exact (Reversible.leaves (by decide)).below rfl

theorem reversible_knight : Reversible (book.chains entered Rule.knight.roots) := by
  rw [Rule.knight, chains_walks]
  exact (Reversible.leaves (by decide)).below rfl

/-- The pawns of each team have the steps of the other one's. -/
theorem reversible_pawn : Reversible (book.chains entered Rule.pawn.roots) := by
  rw [chains_pawn]
  exact Reversible.append_of_eq rfl rfl

section Custom

variable (hcustom : book.custom = [])

include hcustom

/-- Queens are reversible because rooks and bishops are. -/
theorem reversible_queen (hrook : ("R" : Text) ∉ entered) (hbishop : ("B" : Text) ∉ entered) :
    Reversible (book.chains entered Rule.queen.roots) := by
  rw [chains_queen hcustom hrook hbishop]
  exact (reversible_rook.append reversible_bishop).below rfl

/-- Kings are reversible because queens are. -/
theorem reversible_king (hqueen : ("Q" : Text) ∉ entered) (hrook : ("R" : Text) ∉ entered)
    (hbishop : ("B" : Text) ∉ entered) : Reversible (book.chains entered Rule.king.roots) := by
  have hrook' : ("R" : Text) ∉ ("Q" : Text) :: entered := List.not_mem_cons_of_ne_of_not_mem (by decide) hrook
  have hbishop' : ("B" : Text) ∉ ("Q" : Text) :: entered := List.not_mem_cons_of_ne_of_not_mem (by decide) hbishop
  rw [chains_king hcustom hqueen]
  exact (reversible_queen hcustom hrook' hbishop').below rfl

/-- **All built-in rules are reversible.** -/
theorem reversible_of_builtin (hrule : book.get? id = some rule) : Reversible (book.chains [id] rule.roots) := by
  rw [get?_eq_builtin hcustom, find?] at hrule
  obtain ⟨e, he, rfl⟩ := Option.map_eq_some_iff.1 hrule
  have hmem : e ∈ Rule.builtin := List.mem_of_find?_eq_some he
  have hid : e.1 = id := by simpa using List.find?_some he
  rw [← hid]
  simp only [Rule.builtin, List.mem_cons, List.not_mem_nil, or_false] at hmem
  rcases hmem with rfl | rfl | rfl | rfl | rfl | rfl
  · exact reversible_rook
  · exact reversible_bishop
  · exact reversible_queen hcustom (by decide) (by decide)
  · exact reversible_knight
  · exact reversible_pawn
  · exact reversible_king hcustom (by decide) (by decide) (by decide)

end Custom

end RuleBook

end Hyperchess
