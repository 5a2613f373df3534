import Hyperchess.Proofs.Rule.Reversal
import Hyperchess.Proofs.Safety.Symmetry

/-!
# Candidate moves with the colours reversed

Reversing the colours is a symmetry of boards of every size (`reversal`). It goes along with the steps of a walk
(`square_add`), so conditions and walks say of a board what they say, reversed, of its image (`open_reversed`,
`walk_reversed`), and a reversed chain leads to the images of the squares that the chain leads to
(`chainMoves_reversed`). Main statement: rules whose chains are reversible respect the symmetry (`respects_reversal`).
-/

namespace Hyperchess

/-! ## The symmetry -/

namespace Data

variable {t : Data}

theorem isKey_of_scale {scale : Scale} (h : t.scale? = some scale) : t.isKey = true := by
  cases t with
  | list items => cases h
  | map entries => cases h
  | _ => rfl

theorem scale?_swapped (t : Data) : t.swapped.scale? = t.scale? := by
  rcases t.swapped_cases with ⟨ht, ht'⟩ | ⟨ht, ht'⟩ | ⟨-, -, ht'⟩
  · rw [ht', scale?_congr ht]
    rfl
  · rw [ht', scale?_congr ht]
    rfl
  · rw [ht']

theorem isKey_swapped (t : Data) : t.swapped.isKey = t.isKey := by
  rcases t.swapped_cases with ⟨ht, ht'⟩ | ⟨ht, ht'⟩ | ⟨-, -, ht'⟩
  · rw [ht', isKey_of_scale (scale?_congr ht)]
    rfl
  · rw [ht', isKey_of_scale (scale?_congr ht)]
    rfl
  · rw [ht']

end Data

/-- The colours are reversed: the second and the fourth axis are turned around, and so are teams 0 and 1. -/
def reversal (size : Coord) : Symmetry size where
  square c := ⟨c.x, size.y - 1 - c.y, c.z, size.w - 1 - c.w⟩
  team := Data.swapped
  square_square c := by
    obtain ⟨x, y, z, w⟩ := c
    have hy : size.y - 1 - (size.y - 1 - y) = y := by omega
    have hw : size.w - 1 - (size.w - 1 - w) = w := by omega
    simp only [hy, hw]
  contains_square b hb c := by
    rw [Bool.eq_iff_iff, Board.contains_iff, Board.contains_iff, hb]
    dsimp only
    omega
  same_team := Data.same_swapped
  isKey_team := Data.isKey_swapped
  scale_team := Data.scale?_swapped

/-- A step from a square becomes the step turned around from the image of the square. -/
theorem square_add (size c d : Coord) :
    (reversal size).square (c + d) = (reversal size).square c + d.flipped := by
  have hext {a b : Coord} (hx : a.x = b.x) (hy : a.y = b.y) (hz : a.z = b.z) (hw : a.w = b.w) : a = b := by
    cases a
    cases b
    simp_all
  apply hext
  · rfl
  · show size.y - 1 - (c.y + d.y) = size.y - 1 - c.y + -d.y
    omega
  · rfl
  · show size.w - 1 - (c.w + d.w) = size.w - 1 - c.w + -d.w
    omega

namespace Standing

variable {size : Coord} {s t : Standing} {book : RuleBook}

/-- The second piece stands where the first one stands with the colours reversed. -/
structure Reversed (size : Coord) (s t : Standing) : Prop where
  board : Board.Image (reversal size) s.board t.board
  piece : s.piece.Image (reversal size) s.board t.board t.piece
  square : t.square = (reversal size).square s.square

/-! ## Conditions -/

section Conditions

variable (h : Reversed size s t) (base : Coord)

include h

theorem Reversed.isSome_pieceAt (offset : Coord) :
    (t.board.pieceAt ((reversal size).square base + offset.flipped)).isSome =
      (s.board.pieceAt (base + offset)).isSome := by
  rw [← square_add]
  exact h.board.isSome_pieceAt (base + offset)

theorem Reversed.exists_enemy_iff (offset : Coord) :
    (∃ q ∈ t.board.pieceAt ((reversal size).square base + offset.flipped), q.team.same t.piece.team = false) ↔
      ∃ p ∈ s.board.pieceAt (base + offset), p.team.same s.piece.team = false := by
  have hpieces := h.board.pieces (base + offset)
  rw [square_add] at hpieces
  generalize s.board.pieceAt (base + offset) = x at hpieces
  generalize t.board.pieceAt ((reversal size).square base + offset.flipped) = y at hpieces
  cases hpieces with
  | none => simp
  | some himage => simp [himage.team, h.piece.team, (reversal size).same_team]

theorem Reversed.fulfils_iff (c : Condition) :
    t.Fulfils ((reversal size).square base) c.reversed ↔ s.Fulfils base c := by
  rw [Standing.fulfils_iff, Standing.fulfils_iff]
  refine and_congr ?_ (and_congr ?_ (and_congr ?_ ?_))
  · cases hteam : c.team with
    | none => simp [Condition.reversed, hteam]
    | some n =>
      have hsame := (reversal size).same_team s.piece.team (.int n)
      have hint : (reversal size).team (.int n) = .int (Condition.swappedTeam n) := Data.swapped_int n
      simp [Condition.reversed, hteam, h.piece.team, ← hint, hsame]
  · cases hflag : c.flag with
    | none => simp [Condition.reversed, hflag]
    | some f => simp [Condition.reversed, hflag, h.piece.flags]
  · cases hpiece : c.piece with
    | none => simp [Condition.reversed, hpiece]
    | some offset => simp [Condition.reversed, hpiece, h.isSome_pieceAt]
  · cases henemy : c.enemy with
    | none => simp [Condition.reversed, henemy]
    | some offset =>
      have hiff := h.exists_enemy_iff base offset
      simp only [Condition.reversed, henemy, Option.map_some, Option.mem_some_iff, forall_eq']
      exact hiff

theorem Reversed.meets_iff (c : Condition) : t.Meets ((reversal size).square base) c.reversed ↔ s.Meets base c := by
  unfold Meets
  rw [h.fulfils_iff base c]
  rfl

theorem Reversed.forall_meets_iff (terms : Terms) :
    (∀ c ∈ terms.reversed.conditions, t.Meets ((reversal size).square base) c) ↔
      ∀ c ∈ terms.conditions, s.Meets base c := by
  simp only [Terms.reversed, List.forall_mem_map, h.meets_iff]

end Conditions

/-- **A chain is open exactly if the reversed chain is open for the image.** -/
theorem Reversed.open_reversed (h : Reversed size s t) (chain : Chain) : t.Open chain.reversed ↔ s.Open chain := by
  obtain ⟨above, tip⟩ := chain
  unfold Open
  apply and_congr
  · simp only [Chain.reversed, List.forall_mem_map]
    rw [h.square]
    exact forall₂_congr fun terms _ => h.forall_meets_iff s.square terms
  · cases tip with
    | missing id => exact Iff.rfl
    | leaf terms direction =>
      simp only [Chain.reversed, Tip.reversed, OpenAt]
      rw [h.square, ← square_add]
      exact h.forall_meets_iff (s.square + direction) terms

/-! ## Walks -/

/-- **A walk turned around reaches the images of the squares that the walk reaches.** -/
theorem Reversed.walk_reversed (h : Reversed size s t) (direction : Coord) (capture : Bool) (n : Nat) (here : Coord) :
    t.walk direction.flipped capture n ((reversal size).square here) =
      (s.walk direction capture n here).map (List.map (reversal size).square) := by
  induction n generalizing here with
  | zero => rfl
  | succ n ih =>
    rw [walk, walk, ← square_add, h.board.contains_eq]
    split
    · rename_i hin
      have hin' : t.board.contains ((reversal size).square (here + direction)) = true :=
        (h.board.contains_eq _).trans hin
      have hpieces := h.board.pieces (here + direction)
      rw [h.board.left_sound.populated.cell_eq hin, h.board.right_sound.populated.cell_eq hin', ih]
      generalize s.board.pieceAt (here + direction) = x at hpieces
      generalize t.board.pieceAt ((reversal size).square (here + direction)) = y at hpieces
      cases hpieces with
      | none => cases s.walk direction capture n (here + direction) <;> rfl
      | @some p q himage =>
        have hsame : q.team.same t.piece.team = p.team.same s.piece.team := by
          rw [himage.team, h.piece.team, (reversal size).same_team]
        simp only [Option.map_some, Outcome.ok_bind, Occupant.asPiece, hsame]
        split <;> rfl
    · rfl

theorem Reversed.ray_reversed (h : Reversed size s t) (direction : Coord) (budget : Budget) :
    t.ray direction.flipped budget = (s.ray direction budget).map (List.map (reversal size).move) := by
  have hsize : t.board.size = s.board.size := h.board.right_size.trans h.board.left_size.symm
  have hsteps (limit : Number) : t.stepsWithin limit = s.stepsWithin limit := by
    simp only [stepsWithin, Board.span, hsize]
  unfold ray
  split
  · rename_i steps captures _ _
    rw [hsteps, h.square, h.walk_reversed]
    cases s.walk direction (decide (0 < captures)) (s.stepsWithin steps) s.square with
    | error e => rfl
    | ok squares => simp [Except.map, Symmetry.move]
  · rfl

/-- A reversed chain leads to the images of the moves that the chain leads to. -/
theorem Reversed.chainMoves_reversed (h : Reversed size s t) (chain : Chain) :
    t.chainMoves chain.reversed = (s.chainMoves chain).map (List.map (reversal size).move) := by
  have hbudget := chain.budget_reversed
  obtain ⟨above, tip⟩ := chain
  cases tip with
  | missing id => rfl
  | leaf terms direction =>
    rw [chainMoves_leaf, ← h.ray_reversed, ← hbudget]
    rfl

/-- The open chains of the image are the reversed open chains, in whatever order. -/
theorem Reversed.openChains_perm (h : Reversed size s t) {rule : Rule} (hid : t.piece.id = s.piece.id)
    (hreversible : Reversible (book.chains [s.piece.id.display] rule.roots)) :
    ((s.openChains book rule).map Chain.reversed).Perm (t.openChains book rule) := by
  unfold openChains
  rw [hid]
  have hfilter : ((book.chains [s.piece.id.display] rule.roots).map Chain.reversed).filter t.Open =
      ((book.chains [s.piece.id.display] rule.roots).filter s.Open).map Chain.reversed := by
    rw [List.filter_map]
    congr 1
    exact List.filter_congr fun chain _ => decide_eq_decide.2 (h.open_reversed chain)
  rw [← hfilter]
  exact hreversible.filter _

/-- **The image of a piece has the images of its candidate moves**, if the chains of its rule are reversible. -/
theorem Reversed.chainCandidates_reversed (h : Reversed size s t) {rule : Rule} {found : List Move}
    (hid : t.piece.id = s.piece.id) (hrule : book.getFor s.piece.id = .ok rule)
    (hreversible : Reversible (book.chains [s.piece.id.display] rule.roots))
    (hfound : s.chainCandidates book = .ok found) :
    ∃ found', t.chainCandidates book = .ok found' ∧ found'.Perm (found.map (reversal size).move) := by
  rw [chainCandidates, hrule, Outcome.ok_bind] at hfound
  rw [chainCandidates, hid, hrule, Outcome.ok_bind]
  have hreversed : ((s.openChains book rule).map Chain.reversed).flatMapM t.chainMoves =
      .ok (found.map (reversal size).move) := by
    rw [Outcome.flatMapM_map, funext h.chainMoves_reversed, ← Outcome.map_flatMapM, hfound]
    rfl
  have hshuffled : Outcome.Shuffled (((s.openChains book rule).map Chain.reversed).flatMapM t.chainMoves)
      ((t.openChains book rule).flatMapM t.chainMoves) := by
    apply Outcome.flatMapM_perm (h.openChains_perm hid hreversible) .wrongType
    intro chain hchain e hfail
    obtain ⟨moves, hmoves⟩ := Outcome.exists_flatMapM_iff.1 ⟨_, hreversed⟩ chain hchain
    rw [hmoves] at hfail
    cases hfail
  rw [hreversed] at hshuffled
  generalize (t.openChains book rule).flatMapM t.chainMoves = result at hshuffled
  cases hshuffled with
  | ok hperm => exact ⟨_, rfl, hperm.symm⟩

end Standing

/-- **Rules with reversible chains respect the reversal of the colours.** -/
theorem RuleBook.respects_reversal {book : RuleBook} (hroom : book.Roomy) (hclosed : book.Closed)
    (hreversible : ∀ id rule, book.get? id = some rule → Reversible (book.chains [id] rule.roots)) (size : Coord) :
    book.Respects (reversal size) := by
  intro a b h hruled c p hp
  obtain ⟨q, hq, himage⟩ := h.exists_image hp
  obtain ⟨rule, hrule⟩ := hruled hp
  obtain ⟨found, hfound⟩ := hruled.supplied h.left_sound.populated hroom hclosed hp
  have hchains := hfound
  rw [Board.candidates_eq_chainCandidates h.left_sound.populated hroom hp] at hchains
  have hreversed : Standing.Reversed size (a.standing p c) (b.standing q ((reversal size).square c)) :=
    ⟨h, himage, rfl⟩
  have hdisplay := RuleBook.get_eq_ok_iff.1 (RuleBook.get_display hrule)
  obtain ⟨found', hfound', hperm⟩ :=
    hreversed.chainCandidates_reversed himage.id hrule (hreversible _ rule hdisplay) hchains
  rw [← Board.candidates_eq_chainCandidates h.right_sound.populated hroom hq] at hfound'
  exact ⟨found, found', hfound, hfound', hperm⟩

end Hyperchess
