import Hyperchess.Proofs.Board.Arrangement
import Hyperchess.Proofs.Reach.Conditions
import Hyperchess.Proofs.Reach.Depth
import Hyperchess.Proofs.Rule.Kinds

/-!
# Chains

The tree of a rule, in which every reference stands for the whole rule of another kind, is a list of chains
(`RuleBook.chains`): each leads from a root to a leaf, or to a kind that has no rule. A chain is open for a piece on a
square if all conditions on it count, and its limits are the outermost ones on it (`Chain.budget`).

The evaluation of paths gathers the moves of the open chains, in their order (`pathsMoves_eq`). So the candidate moves
of a piece are those of its open chains, and the only thing that can go wrong is that an open chain leads to a kind that
has no rule.
-/

namespace Hyperchess

/-! ## Chains of a rule -/

/-- Where a chain ends. -/
inductive Tip where
  /-- A walk in one direction. -/
  | leaf (terms : Terms) (direction : Coord)
  /-- A reference to a kind that has no rule. -/
  | missing (id : Text)
  deriving DecidableEq, Repr, Inhabited

/-- A way from a root of a rule to the end of a branch. -/
structure Chain where
  /-- The terms of the nodes above the end, the root first. -/
  above : List Terms
  tip : Tip
  deriving DecidableEq, Repr, Inhabited

namespace Chain

/-- The chain as it goes on from a node with these terms. -/
def below (terms : Terms) (chain : Chain) : Chain := { chain with above := terms :: chain.above }

/-- The terms of all nodes of the chain, the root first. -/
def terms (chain : Chain) : List Terms :=
  match chain.tip with
  | .leaf terms _ => chain.above ++ [terms]
  | .missing _ => chain.above

/-- The outermost limits that are set on the chain: at least one step, at least no captures. -/
def budget (chain : Chain) : Budget where
  steps := chain.terms.findSome? fun t => t.steps.filter fun n => n.ge (.int 1)
  captures := chain.terms.findSome? fun t => t.captures.filter fun n => 0 ≤ n

/-- The kind without a rule that the chain leads to, if it leads to one. -/
def missing? (chain : Chain) : Option Text :=
  match chain.tip with
  | .leaf _ _ => none
  | .missing id => some id

@[simp] theorem missing?_leaf (above : List Terms) (terms : Terms) (direction : Coord) :
    (Chain.mk above (.leaf terms direction)).missing? = none := rfl

@[simp] theorem missing?_missing (above : List Terms) (id : Text) : (Chain.mk above (.missing id)).missing? = some id :=
  rfl

end Chain

/-- The chains of several paths from left to right, while the rules of the kinds `entered` are being evaluated. A
reference goes on into the whole rule of another kind, unless that kind has been entered; a bare node ends without a
chain. -/
def RuleBook.chains (book : RuleBook) (entered : List Text) : List Path → List Chain
  | [] => []
  | .leaf terms direction :: rest => ⟨[], .leaf terms direction⟩ :: book.chains entered rest
  | .branches terms paths :: rest => (book.chains entered paths).map (·.below terms) ++ book.chains entered rest
  | .bare _ :: rest => book.chains entered rest
  | .reference id :: rest =>
    (if hid : id ∈ entered then []
      else
        match hrule : book.get? id with
        | none => [⟨[], .missing id⟩]
        | some rule =>
          have := RuleBook.unentered_lt hid (RuleBook.get_eq_ok_iff.2 hrule)
          book.chains (id :: entered) rule.roots) ++ book.chains entered rest
-- A node makes way for what is below it, and a reference for the rule of a kind that becomes one of those entered.
termination_by paths => (book.unentered entered, sizeOf paths)

namespace RuleBook

variable {book : RuleBook} {entered : List Text} {id : Text} {rule : Rule}

theorem chains_reference_of_mem (hid : id ∈ entered) (rest : List Path) :
    book.chains entered (.reference id :: rest) = book.chains entered rest := by
  rw [chains, dif_pos hid, List.nil_append]

theorem chains_reference_of_eq_none (hid : id ∉ entered) (hrule : book.get? id = none) (rest : List Path) :
    book.chains entered (.reference id :: rest) = [⟨[], .missing id⟩] ++ book.chains entered rest := by
  rw [chains, dif_neg hid]
  split
  · rfl
  · rename_i hsome
    cases hrule.symm.trans hsome

theorem chains_reference_of_eq_some (hid : id ∉ entered) (hrule : book.get? id = some rule) (rest : List Path) :
    book.chains entered (.reference id :: rest) =
      book.chains (id :: entered) rule.roots ++ book.chains entered rest := by
  rw [chains, dif_neg hid]
  split
  · rename_i hnone
    cases hrule.symm.trans hnone
  · rename_i hsome
    cases hrule.symm.trans hsome
    rfl

end RuleBook

namespace Standing

variable {s : Standing} {book : RuleBook}

/-- The conditions on the end of a chain count. Those of a leaf are for the square that it leads to in one step. -/
def OpenAt (s : Standing) : Tip → Prop
  | .leaf terms direction => ∀ c ∈ terms.conditions, s.Meets (s.square + direction) c
  | .missing _ => True

instance : DecidablePred s.OpenAt := fun tip =>
  match tip with
  | .leaf terms direction => inferInstanceAs (Decidable (∀ c ∈ terms.conditions, s.Meets (s.square + direction) c))
  | .missing _ => .isTrue trivial

/-- All conditions on the chain count. Above its end they are for the square of the piece. -/
def Open (s : Standing) (chain : Chain) : Prop :=
  (∀ terms ∈ chain.above, ∀ c ∈ terms.conditions, s.Meets s.square c) ∧ s.OpenAt chain.tip

instance : DecidablePred s.Open := fun _ => inferInstanceAs (Decidable (_ ∧ _))

/-- What an open chain leads to: the walk from its leaf within its limits, or the report on a kind without a rule. -/
def chainMoves (s : Standing) (chain : Chain) : Except Fault (List Move) :=
  match chain.tip with
  | .leaf _ direction => s.ray direction chain.budget
  | .missing id => .error (.missingRule id)

@[simp] theorem chainMoves_leaf (above : List Terms) (terms : Terms) (direction : Coord) :
    s.chainMoves ⟨above, .leaf terms direction⟩ = s.ray direction (Chain.budget ⟨above, .leaf terms direction⟩) := rfl

@[simp] theorem chainMoves_missing (above : List Terms) (id : Text) :
    s.chainMoves ⟨above, .missing id⟩ = .error (.missingRule id) := rfl

/-- The open chains of a rule of the piece. -/
def openChains (s : Standing) (book : RuleBook) (rule : Rule) : List Chain :=
  (book.chains [s.piece.id.display] rule.roots).filter s.Open

/-- What the open chains of the piece lead to, one chain after the other. -/
def chainCandidates (s : Standing) (book : RuleBook) : Except Fault (List Move) := do
  let rule ← book.getFor s.piece.id
  (s.openChains book rule).flatMapM s.chainMoves

/-! ## Limits -/

/-- The limits of nodes that are passed one after the other are the outermost ones. -/
theorem foldl_within (outer : Budget) (terms : List Terms) : terms.foldl Budget.within outer =
    { steps := outer.steps <|> terms.findSome? fun t => t.steps.filter fun n => n.ge (.int 1)
      captures := outer.captures <|> terms.findSome? fun t => t.captures.filter fun n => 0 ≤ n } := by
  have hcons {α : Type} (f : Terms → Option α) (t : Terms) (rest : List Terms) :
      (t :: rest).findSome? f = (f t).or (rest.findSome? f) := by
    rw [List.findSome?_cons]
    cases f t <;> rfl
  induction terms generalizing outer with
  | nil => simp
  | cons t rest ih =>
    rw [List.foldl_cons, ih]
    simp only [Budget.within, hcons, Option.orElse_eq_orElse, Option.orElse_eq_or, Option.or_assoc]

/-- What an open chain leads to within limits that are set further outside. -/
def movesWithin (s : Standing) (outer : Budget) (chain : Chain) : Except Fault (List Move) :=
  match chain.tip with
  | .leaf _ direction => s.ray direction (chain.terms.foldl Budget.within outer)
  | .missing id => .error (.missingRule id)

theorem movesWithin_unset (s : Standing) (chain : Chain) : s.movesWithin {} chain = s.chainMoves chain := by
  simp [movesWithin, chainMoves, foldl_within, Chain.budget]

theorem movesWithin_below (s : Standing) (outer : Budget) (terms : Terms) (chain : Chain) :
    s.movesWithin outer (chain.below terms) = s.movesWithin (outer.within terms) chain := by
  obtain ⟨above, tip⟩ := chain
  cases tip <;> rfl

theorem open_below_iff {terms : Terms} {chain : Chain} :
    s.Open (chain.below terms) ↔ (∀ c ∈ terms.conditions, s.Meets s.square c) ∧ s.Open chain := by
  simp only [Open, Chain.below, List.forall_mem_cons, and_assoc]

/-! ## Evaluation -/

variable {entered : List Text} {f : (depth : Nat) → Text → Budget → Except Fault (List Move)}

/-- The moves of the open chains among these. -/
def gather (s : Standing) (outer : Budget) (chains : List Chain) : Except Fault (List Move) :=
  (chains.filter s.Open).flatMapM (s.movesWithin outer)

theorem gather_append (s : Standing) (outer : Budget) (front back : List Chain) :
    s.gather outer (front ++ back) = do return (← s.gather outer front) ++ (← s.gather outer back) := by
  rw [gather, List.filter_append, Outcome.flatMapM_append]
  rfl

theorem gather_singleton (s : Standing) (outer : Budget) (chain : Chain) :
    s.gather outer [chain] = if s.Open chain then s.movesWithin outer chain else .ok [] := by
  unfold gather
  split
  · rename_i hopen
    have hfilter : [chain].filter s.Open = [chain] := List.filter_eq_self.2 (by simpa using hopen)
    rw [hfilter, List.flatMapM_cons]
    cases s.movesWithin outer chain <;> simp
  · rename_i hopen
    have hfilter : [chain].filter s.Open = [] := List.filter_eq_nil_iff.2 (by simpa using hopen)
    rw [hfilter]
    rfl

/-- The moves of chains that go on below a node. -/
theorem gather_below (s : Standing) (outer : Budget) (terms : Terms) (chains : List Chain) :
    s.gather outer (chains.map (·.below terms)) =
      if ∀ c ∈ terms.conditions, s.Meets s.square c then s.gather (outer.within terms) chains else .ok [] := by
  unfold gather
  rw [List.filter_map, Outcome.flatMapM_map]
  simp only [movesWithin_below]
  split
  · rename_i hmeets
    congr 1
    exact List.filter_congr fun chain _ => decide_eq_decide.2 (open_below_iff.trans (and_iff_right hmeets))
  · rename_i hmeets
    rw [List.filter_eq_nil_iff.2 fun chain _ => by simp [open_below_iff, hmeets]]
    rfl

/-- The moves of leaves whose conditions count. -/
theorem gather_leaves (s : Standing) (outer : Budget) (leaves : List (Terms × Coord)) :
    s.gather outer (leaves.map fun l => ⟨[], .leaf l.1 l.2⟩) =
      (leaves.filter fun l => ∀ c ∈ l.1.conditions, s.Meets (s.square + l.2) c).flatMapM
        fun l => s.ray l.2 (outer.within l.1) := by
  have hopen (l : Terms × Coord) :
      s.Open ⟨[], .leaf l.1 l.2⟩ ↔ ∀ c ∈ l.1.conditions, s.Meets (s.square + l.2) c := by simp [Open, OpenAt]
  rw [gather, List.filter_map, Outcome.flatMapM_map]
  congr 1
  exact List.filter_congr fun l _ => decide_eq_decide.2 (hopen l)

/-- **The evaluation of paths gathers the moves of their open chains.** The fuel does not run out, as long as it is more
than the kinds that can still be entered. -/
theorem pathsMoves_eq (h : s.board.Populated) (hroom : s.room = none) (entered : List Text) (paths : List Path)
    {fuel : Nat} (hfuel : book.unentered entered < fuel) (depth : Nat) (outer : Budget) :
    s.pathsMoves (s.follow book fuel entered) depth paths outer = s.gather outer (book.chains entered paths) := by
  have hdepth := checkDepth_of_room_eq_none hroom
  induction entered, paths using RuleBook.chains.induct book generalizing fuel depth outer with
  | case1 entered =>
    rw [RuleBook.chains, pathsMoves]
    rfl
  | case2 entered terms direction rest ih =>
    have hopen : s.Open ⟨[], .leaf terms direction⟩ ↔ ∀ c ∈ terms.conditions, s.Meets (s.square + direction) c := by
      simp [Open, OpenAt]
    have hfirst : book.chains entered (.leaf terms direction :: rest) =
        [⟨[], .leaf terms direction⟩] ++ book.chains entered rest := by rw [RuleBook.chains, List.singleton_append]
    rw [hfirst, gather_append, gather_singleton, pathsMoves, ih hfuel, pathMoves, hdepth, allHold_eq h]
    simp only [Outcome.ok_bind, hopen, decide_eq_true_eq]
    rfl
  | case3 entered terms below rest ihbelow ih =>
    rw [RuleBook.chains, gather_append, gather_below, pathsMoves, ih hfuel, pathMoves, hdepth, allHold_eq h,
      ihbelow hfuel]
    simp only [Outcome.ok_bind, decide_eq_true_eq]
    rfl
  | case4 entered terms rest ih =>
    rw [RuleBook.chains, pathsMoves, ih hfuel, pathMoves, hdepth, allHold_eq h]
    cases s.gather outer (book.chains entered rest) <;> rfl
  | case5 entered id rest ihrule ih =>
    obtain ⟨fuel, rfl⟩ := Nat.exists_eq_succ_of_ne_zero (Nat.ne_zero_of_lt hfuel)
    rw [pathsMoves, ih hfuel, pathMoves, hdepth, Outcome.ok_bind, follow]
    by_cases hid : id ∈ entered
    · rw [if_pos (List.contains_iff_mem.2 hid), RuleBook.chains_reference_of_mem hid]
      cases s.gather outer (book.chains entered rest) <;> rfl
    · rw [if_neg fun hin => hid (List.contains_iff_mem.1 hin), RuleBook.get]
      cases hrule : book.get? id with
      | none =>
        have hopen : s.Open ⟨[], .missing id⟩ := ⟨fun _ hin => absurd hin List.not_mem_nil, trivial⟩
        rw [RuleBook.chains_reference_of_eq_none hid hrule, gather_append, gather_singleton, if_pos hopen]
        rfl
      | some rule =>
        have hless := RuleBook.unentered_lt hid (RuleBook.get_eq_ok_iff.2 hrule)
        rw [RuleBook.chains_reference_of_eq_some hid hrule, gather_append, Outcome.ok_bind,
          ihrule hid rule hrule (by omega)]

/-! ## What can go wrong -/

theorem walk_ok (h : s.board.Populated) (direction : Coord) (capture : Bool) (n : Nat) (here : Coord) :
    ∃ squares, s.walk direction capture n here = .ok squares := by
  induction n generalizing here with
  | zero => exact ⟨[], rfl⟩
  | succ n ih =>
    rw [walk]
    split
    · rename_i hin
      obtain ⟨squares, hsquares⟩ := ih (here + direction)
      rw [h.cell_eq hin]
      cases s.board.pieceAt (here + direction) with
      | none => exact ⟨(here + direction) :: squares, by simp [hsquares]⟩
      | some q => exact ⟨if !q.team.same s.piece.team && capture then [here + direction] else [], rfl⟩
    · exact ⟨[], rfl⟩

/-- On a board with nothing but pieces, walking along a leaf never fails. -/
theorem ray_ok (h : s.board.Populated) (direction : Coord) (budget : Budget) :
    ∃ moves, s.ray direction budget = .ok moves := by
  unfold ray
  split
  · rename_i steps captures _ _
    obtain ⟨squares, hsquares⟩ := walk_ok h direction (0 < captures) (s.stepsWithin steps) s.square
    exact ⟨_, by rw [hsquares, Outcome.ok_bind]; rfl⟩
  · exact ⟨[], rfl⟩

/-- The first chain that leads to a kind without a rule is reported, and nothing else is. -/
theorem flatMapM_chainMoves_eq_error_iff (h : s.board.Populated) {chains : List Chain} {e : Fault} :
    chains.flatMapM s.chainMoves = .error e ↔ ∃ id, chains.findSome? (·.missing?) = some id ∧ e = .missingRule id := by
  induction chains with
  | nil => simp
  | cons chain rest ih =>
    obtain ⟨above, tip⟩ := chain
    rw [List.flatMapM_cons, List.findSome?_cons]
    cases tip with
    | missing id => simp [eq_comm]
    | leaf terms direction =>
      obtain ⟨moves, hmoves⟩ := ray_ok h direction (Chain.budget ⟨above, .leaf terms direction⟩)
      rw [chainMoves_leaf, hmoves, Chain.missing?_leaf, Outcome.ok_bind, ← ih]
      cases rest.flatMapM s.chainMoves <;> simp

end Standing

/-! ## Candidates -/

namespace Board

variable {b : Board} {c : Coord} {p : Piece}

/-- A piece on a square, with no limit on nesting. -/
def standing (b : Board) (p : Piece) (c : Coord) : Standing where
  board := b
  piece := p
  square := c

theorem candidates_unlimited (h : b.Populated) (hp : b.get c = .ok (some (.piece p))) (book : RuleBook) :
    b.candidates book.unlimited c = (b.standing p c).chainCandidates book := by
  rw [candidates, hp, Standing.chainCandidates]
  change (book.getFor p.id >>= fun rule => _) = book.getFor p.id >>= fun rule => _
  cases hrule : book.getFor p.id with
  | error e => rfl
  | ok rule =>
    have hfuel := RuleBook.unentered_singleton_lt (RuleBook.get_display hrule)
    have hgather := Standing.pathsMoves_eq (s := b.standing p c) h rfl [p.id.display] rule.roots hfuel 0 {}
    rw [Standing.gather, funext (Standing.movesWithin_unset _)] at hgather
    rw [Outcome.ok_bind, Outcome.ok_bind, Standing.follow_unlimited]
    exact hgather

/-- **The candidate moves of a piece are those of its open chains**, in the order of the chains, unless the evaluation
is refused because it is nested too deeply. It fails exactly if an open chain leads to a kind without a rule, and the
first such kind is reported. -/
theorem candidates_eq_chains (h : b.Populated) (hp : b.get c = .ok (some (.piece p))) (book : RuleBook) :
    (b.candidates book c = (b.standing p c).chainCandidates book ∨
      book.room ≠ none ∧ b.candidates book c = .error .tooDeep) ∧
    ∀ rule, book.getFor p.id = .ok rule → ∀ e, (b.standing p c).chainCandidates book = .error e ↔
      ∃ id, ((b.standing p c).openChains book rule).findSome? (·.missing?) = some id ∧ e = .missingRule id := by
  refine ⟨?_, fun rule hrule e => ?_⟩
  · rw [← candidates_unlimited h hp book]
    exact b.candidates_eq_or_tooDeep book c
  · have hid : book.getFor (b.standing p c).piece.id = .ok rule := hrule
    rw [Standing.chainCandidates, hid, Outcome.ok_bind]
    exact Standing.flatMapM_chainMoves_eq_error_iff h

/-- Two rules that refer to each other, and a reference to a kind without a rule under a condition that does not
hold: the steps are limited above the reference, the captures below it. -/
theorem candidates_eq_chains_mutual :
    let red : Coord × Piece := (⟨1, 0, 0, 0⟩, ⟨0, .text "A", .int 0⟩)
    let black : Coord × Piece := (⟨3, 0, 0, 0⟩, ⟨1, .text "B", .int 1⟩)
    let left : Path := .leaf { steps := some (.int 9), captures := some 0 } ⟨-1, 0, 0, 0⟩
    let right : Path := .leaf { captures := some 1 } ⟨1, 0, 0, 0⟩
    let unmet : Terms := { conditions := [{ enemy := some ⟨2, 0, 0, 0⟩, inverted := true }] }
    let book : RuleBook := { custom :=
      [("A", ⟨[.branches { steps := some (.int 2) } [.reference "B", right], .branches unmet [.reference "C"]]⟩),
        ("B", ⟨[left, .reference "A"]⟩)] }
    let reach (x : Int) : Move := ⟨red.1, ⟨x, 0, 0, 0⟩, none⟩
    ∃ b, arranged ⟨4, 1, 1, 1⟩ #[[], []] [red, black] = .ok b ∧
      (b.standing red.2 red.1).chainCandidates book = .ok [reach 0, reach 2, reach 3] := by
  intro red black left right unmet book reach
  have hrun : (arranged ⟨4, 1, 1, 1⟩ #[[], []] [red, black] >>= fun b =>
      b.get red.1 >>= fun o => b.candidates book red.1 >>= fun moves => .ok (o, moves)) =
      .ok (some (.piece red.2), [reach 0, reach 2, reach 3]) := by decide +kernel
  obtain ⟨b, hb, hrun⟩ := Outcome.bind_eq_ok_iff.1 hrun
  obtain ⟨o, ho, hrun⟩ := Outcome.bind_eq_ok_iff.1 hrun
  obtain ⟨moves, hmoves, hrun⟩ := Outcome.bind_eq_ok_iff.1 hrun
  cases hrun
  have hsound : b.Sound := arranged_sound hb (by simp [red, black, contains, arranged_size hb])
  obtain heq | ⟨hroom, -⟩ := (candidates_eq_chains hsound.populated ho book).1
  · exact ⟨b, hb, heq ▸ hmoves⟩
  · exact absurd rfl hroom

end Board

end Hyperchess
