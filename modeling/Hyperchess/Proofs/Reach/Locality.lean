import Hyperchess.Proofs.Reach.Chains
import Hyperchess.Proofs.Rule.References

/-!
# Rules count as far as references lead

The evaluation of a path looks rules up only for kinds that are reached from it. So two books that agree on these kinds
give the same moves, in the same order, or the same report on a kind without a rule (`pathsMoves_local`), however many
other rules they have. Main statement: the candidate moves of a piece depend on the rules that its kind reaches, and
overriding any other rule changes none of them (`candidates_local`).
-/

namespace Hyperchess

namespace Standing

variable {s : Standing} {book book' : RuleBook}

/-- **Two books that agree on what paths reach give the same moves.** The fuel may differ, as long as it is more than
the kinds that can still be entered. -/
theorem pathsMoves_local (entered : List Text) (paths : List Path)
    (hagree : book.AgreeFrom book' (Path.referencesOf paths)) {fuel fuel' : Nat}
    (hfuel : book.unentered entered < fuel) (hfuel' : book'.unentered entered < fuel') (depth : Nat) (outer : Budget) :
    s.pathsMoves (s.follow book fuel entered) depth paths outer =
      s.pathsMoves (s.follow book' fuel' entered) depth paths outer := by
  induction entered, paths using RuleBook.chains.induct book generalizing fuel fuel' depth outer with
  | case1 entered => rw [pathsMoves, pathsMoves]
  | case2 entered terms direction rest ih =>
    have hrest := ih hagree hfuel hfuel' depth outer
    rw [pathsMoves, pathsMoves, hrest, pathMoves, pathMoves]
  | case3 entered terms below rest ihbelow ih =>
    obtain ⟨hbelow, hrest⟩ := RuleBook.agreeFrom_append.1 hagree
    have hmoves := ih hrest hfuel hfuel' depth outer
    have hinner := ihbelow hbelow hfuel hfuel' (depth + 1) (outer.within terms)
    rw [pathsMoves, pathsMoves, hmoves, pathMoves, pathMoves, hinner]
  | case4 entered terms rest ih =>
    have hrest := ih hagree hfuel hfuel' depth outer
    rw [pathsMoves, pathsMoves, hrest, pathMoves, pathMoves]
  | case5 entered id rest ihrule ih =>
    obtain ⟨hid, hrest⟩ := RuleBook.agreeFrom_append.1 hagree
    have hmoves := ih hrest hfuel hfuel' depth outer
    obtain ⟨fuel, rfl⟩ := Nat.exists_eq_succ_of_ne_zero (Nat.ne_zero_of_lt hfuel)
    obtain ⟨fuel', rfl⟩ := Nat.exists_eq_succ_of_ne_zero (Nat.ne_zero_of_lt hfuel')
    have hsame : book.get? id = book'.get? id := hid.get?_eq (List.mem_singleton_self id)
    rw [pathsMoves, pathsMoves, hmoves, pathMoves, pathMoves, follow, follow, RuleBook.get, RuleBook.get, ← hsame]
    by_cases hin : entered.contains id
    · rw [if_pos hin, if_pos hin]
    · rw [if_neg hin, if_neg hin]
      cases hrule : book.get? id with
      | none => rfl
      | some rule =>
        -- both books enter the kind, so that in both fewer kinds are left
        have hnot : id ∉ entered := fun h => hin (List.contains_iff_mem.2 h)
        have hless := RuleBook.unentered_lt hnot (RuleBook.get_eq_ok_iff.2 hrule)
        have hless' := RuleBook.unentered_lt hnot (RuleBook.get_eq_ok_iff.2 (hsame ▸ hrule))
        have hleft : book.unentered (id :: entered) < fuel := by omega
        have hleft' : book'.unentered (id :: entered) < fuel' := by omega
        have hrefs := hid.references (List.mem_singleton_self id) hrule
        have hdeep := ihrule hnot rule hrule hrefs hleft hleft' (depth + 2) outer
        simp only [Outcome.ok_bind, hdeep]

end Standing

namespace Board

variable {b : Board} {c : Coord} {book book' : RuleBook}

/-- The candidate moves of a piece depend on the rules that its kind reaches. A kind that is no text has no rule. -/
theorem candidates_eq_of_agreeFrom (hroom : book.room = book'.room)
    (hagree : ∀ (p : Piece) (kind : Text), b.get c = .ok (some (.piece p)) → p.id = .text kind →
      book.AgreeFrom book' [kind]) : b.candidates book c = b.candidates book' c := by
  unfold candidates
  cases hget : b.get c with
  | error e => rfl
  | ok o =>
    cases o with
    | none => rfl
    | some o =>
      cases o with
      | piece p =>
        cases hid : p.id with
        | text kind =>
          have hkind := hagree p kind hget hid
          have hsame : book.get? kind = book'.get? kind := hkind.get?_eq (List.mem_singleton_self kind)
          simp only [Outcome.ok_bind, Occupant.asPiece, hid, RuleBook.getFor, RuleBook.get, ← hsame, ← hroom,
            Data.display]
          cases hrule : book.get? kind with
          | none => rfl
          | some rule =>
            have hfuel := RuleBook.unentered_singleton_lt (RuleBook.get_eq_ok_iff.2 hrule)
            have hfuel' := RuleBook.unentered_singleton_lt (RuleBook.get_eq_ok_iff.2 (hsame ▸ hrule))
            have hrefs := hkind.references (List.mem_singleton_self kind) hrule
            exact Standing.pathsMoves_local [kind] rule.roots hrefs hfuel hfuel' 0 {}
        | _ => simp only [Outcome.ok_bind, Occupant.asPiece, hid, RuleBook.getFor, Outcome.error_bind]
      | _ => rfl

/-- **Rules are local to what they refer to.** Two books that have the same rule, or none, for every kind that the kind
of a piece reaches give it the same candidate moves in the same order, or the same report, on every board; so no rule
for a kind that it does not reach can make a difference, be it a new one or one in the place of another. -/
theorem candidates_local (b : Board) (c : Coord) (book : RuleBook) :
    (∀ book' : RuleBook, book.room = book'.room →
      (∀ (p : Piece) (kind : Text), b.get c = .ok (some (.piece p)) → p.id = .text kind →
        ∀ id, book.Reaches kind id → book.get? id = book'.get? id) →
      b.candidates book c = b.candidates book' c) ∧
    ∀ (id : Text) (rule : Rule),
      (∀ (p : Piece) (kind : Text), b.get c = .ok (some (.piece p)) → p.id = .text kind → ¬book.Reaches kind id) →
      b.candidates book c = b.candidates (book.override id rule) c := by
  constructor
  · intro book' hroom hagree
    apply candidates_eq_of_agreeFrom hroom
    intro p kind hp hkind k hk other hother
    rw [List.mem_singleton.1 hk] at hother
    exact hagree p kind hp hkind other hother
  · intro id rule hnot
    have hroom : book.room = (book.override id rule).room := rfl
    apply candidates_eq_of_agreeFrom hroom
    intro p kind hp hkind k hk other hother
    rw [List.mem_singleton.1 hk] at hother
    have hne : other ≠ id := by
      rintro rfl
      exact hnot p kind hp hkind hother
    exact (RuleBook.get?_override_ne hne book rule).symm

/-- A queen moves as before if there is another rule for kings, which refer to queens; and a king moves as before if
there are other rules for knights and pawns, of which the latter refers to a kind without a rule. -/
theorem candidates_local_queen :
    let queen : Coord × Piece := (⟨0, 0, 0, 0⟩, ⟨0, .text "Q", .int 0⟩)
    let king : Coord × Piece := (⟨2, 1, 0, 0⟩, ⟨1, .text "K", .int 1⟩)
    let book : RuleBook := { custom := [] }
    let other : RuleBook := { custom := [("P", ⟨[.reference "X"]⟩), ("N", Rule.queen)] }
    ∃ b, arranged ⟨3, 2, 1, 1⟩ #[[], []] [queen, king] = .ok b ∧
      b.candidates book queen.1 = b.candidates (book.override "K" Rule.knight) queen.1 ∧
      b.candidates book king.1 = b.candidates other king.1 := by
  intro queen king book other
  obtain ⟨b, hb, hqueen, hking⟩ : ∃ b, arranged ⟨3, 2, 1, 1⟩ #[[], []] [queen, king] = .ok b ∧
      b.get queen.1 = .ok (some (.piece queen.2)) ∧ b.get king.1 = .ok (some (.piece king.2)) := ⟨_, rfl, rfl, rfl⟩
  refine ⟨b, hb, ?_, ?_⟩
  · apply (candidates_local b queen.1 book).2
    intro p kind hp hkind hreach
    rw [hqueen] at hp
    cases hp
    cases hkind
    have hmem : ("K" : Text) ∈ (["Q", "R", "B"] : List Text) := hreach.mem_of_closed (by decide) (by decide)
    revert hmem
    decide
  · apply (candidates_local b king.1 book).1 other rfl
    intro p kind hp hkind id hreach
    rw [hking] at hp
    cases hp
    cases hkind
    have hmem : id ∈ (["K", "Q", "R", "B"] : List Text) := hreach.mem_of_closed (by decide) (by decide)
    simp only [List.mem_cons, List.not_mem_nil, or_false] at hmem
    rcases hmem with rfl | rfl | rfl | rfl <;> rfl

end Board

end Hyperchess
