import Hyperchess.Proofs.Reach.Chains

/-!
# Limits on nesting that are never met

A path has a height: how much deeper than the path itself its evaluation goes, up to the rules that it refers to
(`Path.height`). Since no kind is entered twice, no evaluation can go deeper than the heights of all rules together. So
a limit that is not smaller makes no difference (`candidates_eq_unlimited`), and books with such a limit, or with none,
are roomy (`RuleBook.Roomy`).
-/

namespace Hyperchess

mutual

/-- How much deeper than a path its evaluation goes, up to the rules that it refers to. -/
def Path.height : Path → Nat
  | .leaf _ _ => 5
  | .branches _ below => Path.heightOf below + 1
  | .bare _ => 0
  | .reference _ => 2

/-- The largest height of several paths. -/
def Path.heightOf : List Path → Nat
  | [] => 0
  | path :: rest => max path.height (Path.heightOf rest)

end

namespace RuleBook

variable {book : RuleBook} {id : Text} {rule : Rule}

/-- The largest height of a rule. -/
def height (book : RuleBook) : Nat :=
  ((book.ids.filterMap book.get?).map fun rule => Path.heightOf rule.roots).foldr max 0

/-- The limit on nesting, if there is one, leaves room for all rules, one inside the other. -/
def Roomy (book : RuleBook) : Prop := ∀ limit ∈ book.room, book.ids.length * book.height ≤ limit

instance (book : RuleBook) : Decidable book.Roomy :=
  inferInstanceAs (Decidable (∀ limit ∈ book.room, book.ids.length * book.height ≤ limit))

theorem le_foldr_max {n : Nat} {ns : List Nat} (h : n ∈ ns) : n ≤ ns.foldr max 0 := by
  induction ns with
  | nil => cases h
  | cons k rest ih =>
    rw [List.foldr_cons]
    rcases List.mem_cons.1 h with rfl | hrest
    · exact Nat.le_max_left _ _
    · have hle := ih hrest
      omega

/-- No rule of a book is higher than the book. -/
theorem heightOf_le_height (hrule : book.get? id = some rule) : Path.heightOf rule.roots ≤ book.height := by
  have hid : id ∈ book.ids := mem_ids_of_get (get_eq_ok_iff.2 hrule)
  have hmem : rule ∈ book.ids.filterMap book.get? := List.mem_filterMap.2 ⟨id, hid, hrule⟩
  exact le_foldr_max (List.mem_map_of_mem hmem)

end RuleBook

namespace Standing

variable {s : Standing} {book : RuleBook}

/-- An evaluation may be nested so deeply. -/
def HasRoom (s : Standing) (depth : Nat) : Prop := ∀ limit ∈ s.room, depth ≤ limit

theorem HasRoom.mono {depth depth' : Nat} (h : s.HasRoom depth) (hle : depth' ≤ depth) : s.HasRoom depth' :=
  fun limit hlimit => Nat.le_trans hle (h limit hlimit)

theorem HasRoom.checkDepth_eq {depth : Nat} (h : s.HasRoom depth) : s.checkDepth depth = .ok () := by
  unfold checkDepth
  cases hroom : s.room with
  | none => rfl
  | some limit =>
    have hle : depth ≤ limit := h limit hroom
    simp [hle]

/-- **A limit that leaves room for what is below a path makes no difference**: for the paths themselves, and for as many
rules as there are kinds that can still be entered. -/
theorem pathsMoves_unlimited (book : RuleBook) (entered : List Text) (paths : List Path) (fuel depth : Nat)
    (outer : Budget)
    (hroom : s.HasRoom (depth + Path.heightOf paths + book.unentered entered * book.height)) :
    s.pathsMoves (s.follow book fuel entered) depth paths outer =
      s.unlimited.pathsMoves (s.unlimited.follow book fuel entered) depth paths outer := by
  have hfree (depth : Nat) : s.unlimited.checkDepth depth = .ok () := checkDepth_of_room_eq_none rfl depth
  induction entered, paths using RuleBook.chains.induct book generalizing fuel depth outer with
  | case1 entered => rw [pathsMoves, pathsMoves]
  | case2 entered terms direction rest ih =>
    simp only [Path.heightOf, Path.height] at hroom
    have hrest := ih fuel depth outer (hroom.mono (by omega))
    have hcheck : s.HasRoom (depth + 5) := hroom.mono (by omega)
    rw [pathsMoves, pathsMoves, hrest, pathMoves, pathMoves, hcheck.checkDepth_eq, hfree, allHold_unlimited,
      ray_unlimited]
    rfl
  | case3 entered terms below rest ihbelow ih =>
    simp only [Path.heightOf, Path.height] at hroom
    have hrest := ih fuel depth outer (hroom.mono (by omega))
    have hbelow := ihbelow fuel (depth + 1) (outer.within terms) (hroom.mono (by omega))
    have hcheck : s.HasRoom depth := hroom.mono (by omega)
    rw [pathsMoves, pathsMoves, hrest, pathMoves, pathMoves, hcheck.checkDepth_eq, hfree, allHold_unlimited, hbelow]
    rfl
  | case4 entered terms rest ih =>
    simp only [Path.heightOf, Path.height] at hroom
    have hrest := ih fuel depth outer (hroom.mono (by omega))
    have hcheck : s.HasRoom depth := hroom.mono (by omega)
    rw [pathsMoves, pathsMoves, hrest, pathMoves, pathMoves, hcheck.checkDepth_eq, hfree, allHold_unlimited]
    rfl
  | case5 entered id rest ihrule ih =>
    simp only [Path.heightOf, Path.height] at hroom
    have hrest := ih fuel depth outer (hroom.mono (by omega))
    have hcheck : s.HasRoom depth := hroom.mono (by omega)
    rw [pathsMoves, pathsMoves, hrest, pathMoves, pathMoves, hcheck.checkDepth_eq, hfree, Outcome.ok_bind,
      Outcome.ok_bind]
    cases fuel with
    | zero => rfl
    | succ fuel =>
      rw [follow, follow, RuleBook.get]
      by_cases hin : entered.contains id
      · rw [if_pos hin, if_pos hin]
      · rw [if_neg hin, if_neg hin]
        cases hrule : book.get? id with
        | none => rfl
        | some rule =>
          -- one kind fewer can be entered below, which makes room for its rule
          have hnot : id ∉ entered := fun h => hin (List.contains_iff_mem.2 h)
          have hless := RuleBook.unentered_lt hnot (RuleBook.get_eq_ok_iff.2 hrule)
          have hheight := RuleBook.heightOf_le_height hrule
          have hmul := Nat.mul_le_mul_right book.height hless
          rw [Nat.succ_mul] at hmul
          have hdeep := ihrule hnot rule hrule fuel (depth + 2) outer (hroom.mono (by omega))
          simp only [Outcome.ok_bind, hdeep]

end Standing

/-- **A limit that leaves room for all rules makes no difference.** -/
theorem Board.candidates_eq_unlimited {book : RuleBook} (h : book.Roomy) (b : Board) (c : Coord) :
    b.candidates book c = b.candidates book.unlimited c := by
  unfold candidates
  cases b.get c with
  | error e => rfl
  | ok o =>
    cases o with
    | none => rfl
    | some o =>
      simp only [Outcome.ok_bind]
      cases o.asPiece with
      | error e => rfl
      | ok p =>
        have hget : book.unlimited.getFor p.id = book.getFor p.id := rfl
        simp only [Outcome.ok_bind, hget]
        cases hrule : book.getFor p.id with
        | error e => rfl
        | ok rule =>
          have hdisplay := RuleBook.get_display hrule
          have hless := RuleBook.unentered_singleton_lt hdisplay
          have hheight := RuleBook.heightOf_le_height (RuleBook.get_eq_ok_iff.1 hdisplay)
          have hmul := Nat.mul_le_mul_right book.height hless
          rw [Nat.succ_mul] at hmul
          have hroom : Standing.HasRoom ⟨b, p, c, book.room⟩ (book.ids.length * book.height) := h
          have hsame := Standing.pathsMoves_unlimited book [p.id.display] rule.roots book.ids.length 0 {}
            (hroom.mono (by omega))
          rw [Outcome.ok_bind, Outcome.ok_bind, hsame, Standing.follow_unlimited]
          rfl

end Hyperchess
