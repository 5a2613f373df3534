import Hyperchess.Proofs.Reach.Rays
import Hyperchess.Proofs.Reach.Room
import Hyperchess.Proofs.Rule.References

/-!
# Boards on which every piece finds its candidate moves

A piece finds its candidate moves if it has a rule, if whatever this rule refers to has one, and if no limit on nesting
is met: in a closed book no chain leads to a kind without a rule (`Closed.missing?_eq_none`), so nothing can go wrong
(`Ruled.supplied`). Candidate moves lead from the square of the piece to a square of the board (`of_mem_candidates`).
-/

namespace Hyperchess

namespace RuleBook

variable {book : RuleBook}

/-- In a closed book no chain leads to a kind without a rule. -/
theorem Closed.missing?_eq_none (h : book.Closed) (entered : List Text) (paths : List Path)
    (hrefs : ∀ id ∈ Path.referencesOf paths, id ∈ book.ids) :
    ∀ chain ∈ book.chains entered paths, chain.missing? = none := by
  induction entered, paths using RuleBook.chains.induct book with
  | case1 entered =>
    intro chain hchain
    rw [chains] at hchain
    cases hchain
  | case2 entered terms direction rest ih =>
    intro chain hchain
    rw [chains] at hchain
    rcases List.mem_cons.1 hchain with rfl | hrest
    · rfl
    · exact ih hrefs chain hrest
  | case3 entered terms below rest ihbelow ih =>
    obtain ⟨hbelow, hrest⟩ := List.forall_mem_append.1 hrefs
    intro chain hchain
    rw [chains] at hchain
    rcases List.mem_append.1 hchain with hfront | hback
    · obtain ⟨inner, hinner, rfl⟩ := List.mem_map.1 hfront
      exact ihbelow hbelow inner hinner
    · exact ih hrest chain hback
  | case4 entered terms rest ih =>
    intro chain hchain
    rw [chains] at hchain
    exact ih hrefs chain hchain
  | case5 entered id rest ihrule ih =>
    obtain ⟨hid, hrest⟩ := List.forall_mem_append.1 hrefs
    have hin : id ∈ book.ids := hid id (List.mem_singleton_self id)
    obtain ⟨rule, hrule⟩ := Option.isSome_iff_exists.1 (mem_ids_iff.1 hin)
    intro chain hchain
    by_cases hentered : id ∈ entered
    · rw [chains_reference_of_mem hentered] at hchain
      exact ih hrest chain hchain
    · rw [chains_reference_of_eq_some hentered hrule] at hchain
      rcases List.mem_append.1 hchain with hfront | hback
      · exact ihrule hentered rule hrule (h.references hrule) chain hfront
      · exact ih hrest chain hback

end RuleBook

/-! ## Candidates -/

namespace Board

variable {b : Board} {book : RuleBook} {c : Coord} {p : Piece}

/-- Every piece on the board has a rule. -/
def Ruled (b : Board) (book : RuleBook) : Prop :=
  ∀ ⦃c : Coord⦄ ⦃p : Piece⦄, b.get c = .ok (some (.piece p)) → ∃ rule, book.getFor p.id = .ok rule

/-- Every piece on the board finds its candidate moves. -/
def Supplied (b : Board) (book : RuleBook) : Prop :=
  ∀ ⦃c : Coord⦄ ⦃p : Piece⦄, b.get c = .ok (some (.piece p)) → ∃ found, b.candidates book c = .ok found

/-- In a roomy book, the candidate moves of a piece are those of its open chains. -/
theorem candidates_eq_chainCandidates (h : b.Populated) (hroom : book.Roomy) (hp : b.get c = .ok (some (.piece p))) :
    b.candidates book c = (b.standing p c).chainCandidates book := by
  rw [candidates_eq_unlimited hroom, candidates_unlimited h hp]

/-- The candidate moves of a piece whose kind has a rule are those of the open chains of this rule. -/
theorem candidates_eq_gather (h : b.Populated) (hroom : book.Roomy) (hp : b.get c = .ok (some (.piece p)))
    {kind : Text} (hid : p.id = .text kind) {rule : Rule} (hrule : book.get? kind = some rule) :
    b.candidates book c = (b.standing p c).gather {} (book.chains [kind] rule.roots) := by
  have hget : book.getFor (b.standing p c).piece.id = .ok rule := by
    show book.getFor p.id = .ok rule
    rw [hid]
    exact RuleBook.get_eq_ok_iff.2 hrule
  have hdisplay : (b.standing p c).piece.id.display = kind := congrArg Data.display hid
  rw [candidates_eq_chainCandidates h hroom hp, Standing.chainCandidates, hget, Outcome.ok_bind, Standing.openChains,
    hdisplay, Standing.gather, funext (Standing.movesWithin_unset _)]

/-- **Where every piece has a rule, and rules refer to kinds that have one, every piece finds its candidate moves.** -/
theorem Ruled.supplied (hruled : b.Ruled book) (h : b.Populated) (hroom : book.Roomy) (hclosed : book.Closed) :
    b.Supplied book := by
  intro c p hp
  obtain ⟨rule, hrule⟩ := hruled hp
  rw [candidates_eq_chainCandidates h hroom hp, Standing.chainCandidates]
  have hid : book.getFor (b.standing p c).piece.id = .ok rule := hrule
  rw [hid, Outcome.ok_bind]
  apply Outcome.exists_flatMapM_iff.2
  intro chain hchain
  have hmem : chain ∈ book.chains [p.id.display] rule.roots := (List.mem_filter.1 hchain).1
  have hget := RuleBook.get_eq_ok_iff.1 (RuleBook.get_display hrule)
  have hmissing : chain.missing? = none := hclosed.missing?_eq_none _ rule.roots (hclosed.references hget) chain hmem
  obtain ⟨above, tip⟩ := chain
  cases tip with
  | leaf terms direction => exact Standing.ray_ok h direction _
  | missing id => cases hmissing

theorem Supplied.ruled (hsupplied : b.Supplied book) : b.Ruled book := by
  intro c p hp
  obtain ⟨found, hfound⟩ := hsupplied hp
  rw [candidates, hp, Outcome.ok_bind] at hfound
  obtain ⟨piece, hpiece, hfound⟩ := Outcome.bind_eq_ok_iff.1 hfound
  cases hpiece
  obtain ⟨rule, hrule, -⟩ := Outcome.bind_eq_ok_iff.1 hfound
  exact ⟨rule, hrule⟩

/-- A kind that has a rule is a text. -/
theorem Ruled.exists_text (hruled : b.Ruled book) (hp : b.get c = .ok (some (.piece p))) :
    ∃ kind : Text, p.id = .text kind := by
  obtain ⟨rule, hrule⟩ := hruled hp
  cases hid : p.id with
  | text kind => exact ⟨kind, rfl⟩
  | _ =>
    rw [hid] at hrule
    cases hrule

/-- A candidate move is one along a leaf of the piece that stands on the square. -/
theorem exists_ray_of_mem_candidates (h : b.Populated) {found : List Move} (hfound : b.candidates book c = .ok found)
    {m : Move} (hm : m ∈ found) : ∃ p, b.get c = .ok (some (.piece p)) ∧
      ∃ direction budget moves, (b.standing p c).ray direction budget = .ok moves ∧ m ∈ moves := by
  cases hc : b.contains c with
  | false =>
    rw [candidates, get_eq_error hc] at hfound
    cases hfound
  | true =>
    cases hp : b.pieceAt c with
    | none =>
      rw [candidates, h.get_eq hc, hp] at hfound
      cases hfound
      cases hm
    | some p =>
      have hget := pieceAt_eq_some_iff.1 hp
      have hunlimited : b.candidates book.unlimited c = .ok found := by
        rcases candidates_eq_or_tooDeep b book c with hsame | ⟨-, hdeep⟩
        · rw [← hsame, hfound]
        · rw [hdeep] at hfound
          cases hfound
      rw [candidates_unlimited h hget, Standing.chainCandidates] at hunlimited
      obtain ⟨rule, -, hfound⟩ := Outcome.bind_eq_ok_iff.1 hunlimited
      obtain ⟨chain, -, moves, hmoves, hm⟩ := (Outcome.mem_flatMapM hfound).1 hm
      obtain ⟨above, tip⟩ := chain
      cases tip with
      | leaf terms direction => exact ⟨p, hget, direction, _, moves, hmoves, hm⟩
      | missing id => cases hmoves

/-- Candidate moves lead from the square of the piece to a square that it can enter. -/
theorem entered_of_mem_candidates (h : b.Populated) {found : List Move} (hfound : b.candidates book c = .ok found)
    {m : Move} (hm : m ∈ found) : ∃ p, b.get c = .ok (some (.piece p)) ∧
      ∃ d, m = ⟨c, d, none⟩ ∧ (b.standing p c).Enters true d := by
  obtain ⟨p, hp, direction, budget, moves, hmoves, hm⟩ := exists_ray_of_mem_candidates h hfound hm
  exact ⟨p, hp, Standing.of_mem_ray (s := b.standing p c) h hmoves hm⟩

/-- Candidate moves lead from the square of the piece to a square of the board. -/
theorem of_mem_candidates (h : b.Populated) {found : List Move} (hfound : b.candidates book c = .ok found) {m : Move}
    (hm : m ∈ found) : m.src = c ∧ b.contains m.dst = true := by
  obtain ⟨p, -, d, rfl, henters⟩ := entered_of_mem_candidates h hfound hm
  exact ⟨rfl, henters.contains⟩

/-- Both ends of a candidate move are on the board. -/
theorem candidates_ends (h : b.Populated) {found : List Move} (hfound : b.candidates book c = .ok found) :
    ∀ m ∈ found, b.contains m.src = true ∧ b.contains m.dst = true := by
  intro m hm
  obtain ⟨rfl, hdst⟩ := of_mem_candidates h hfound hm
  refine ⟨?_, hdst⟩
  cases hc : b.contains m.src with
  | true => rfl
  | false =>
    rw [candidates, get_eq_error hc] at hfound
    cases hfound

end Board

end Hyperchess
