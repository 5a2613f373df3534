import Hyperchess.Proofs.Reach.Fans

/-!
# Ways back

The directions of rook, bishop, queen, knight and king come in pairs, one the other turned around
(`opposite_mem_of_fan`), and a way between two squares is clear from one end if it is clear from the other one
(`reached_opposite`). So these pieces can go back: after a move to an empty square the piece has the move back among its
candidates, and where two of a kind are against one another, each of them has the move onto the other
(`candidates_return`). All that is asked of the board is that it holds nothing but pieces.
-/

namespace Hyperchess

namespace Coord

/-- The direction turned around. -/
def opposite (direction : Coord) : Coord := direction.scale (-1)

theorem add_scale_opposite (here direction : Coord) {j k : Nat} (h : j ≤ k) :
    here + direction.scale k + direction.opposite.scale j = here + direction.scale (k - j : Nat) := by
  have haxis (a n : Int) : a + n * k + n * (-1) * j = a + n * (k - j : Nat) := by
    have hback : n * (-1) * (j : Int) = -(n * j) := by rw [Int.mul_neg, Int.mul_one, Int.neg_mul]
    rw [Int.natCast_sub h, Int.mul_sub, hback]
    omega
  exact (Coord.mk.injEq ..).mpr ⟨haxis .., haxis .., haxis .., haxis ..⟩

end Coord

/-- There is a fan for each of these kinds. -/
theorem Rule.exists_fan {kind : Text} (h : kind ∈ (["R", "B", "Q", "N", "K"] : List Text)) :
    ∃ directions limit, (kind, directions, limit) ∈ fans := by
  have hmem : kind ∈ fans.map (·.1) := h
  obtain ⟨⟨_, directions, limit⟩, hfan, rfl⟩ := List.mem_map.1 hmem
  exact ⟨directions, limit, hfan⟩

/-- The directions of a fan come in pairs. -/
theorem Rule.opposite_mem_of_fan : ∀ fan ∈ fans, ∀ d ∈ fan.2.1, d.opposite ∈ fan.2.1 := by decide

/-- All directions lead somewhere. -/
theorem Rule.ne_origin_of_fan : ∀ fan ∈ fans, ∀ d ∈ fan.2.1, d ≠ .origin := by decide

namespace Standing

variable {s : Standing} {direction here : Coord} {capture : Bool} {k : Nat}

/-- **A clear way is clear in both directions**: from its end, the square where it begins is reached in as many steps,
if it can be entered. -/
theorem reached_opposite (hclear : ∀ j : Nat, 1 ≤ j → j < k → s.board.get (here + direction.scale j) = .ok none)
    (henters : s.Enters capture here) : s.Reached direction.opposite capture (here + direction.scale k) k := by
  refine ⟨fun j hj hlt => ?_, ?_⟩
  · rw [Coord.add_scale_opposite here direction hlt.le]
    exact hclear (k - j) (by omega) (by omega)
  · rw [Coord.add_scale_opposite here direction le_rfl, Nat.sub_self, Coord.scale_zero, Coord.add_origin]
    exact henters

end Standing

namespace Board

variable {b : Board} {book : RuleBook} {c : Coord} {p : Piece} {m : Move} {found : List Move}

/-- Along a way of its fan, a piece goes where it could come from. -/
theorem exists_candidates_back (h : b.Populated) (hcustom : book.custom = []) (hroom : book.Roomy) {kind : Text}
    {directions : List Coord} {limit : Number} (hfan : (kind, directions, limit) ∈ Rule.fans) (hid : p.id = .text kind)
    {d : Coord} (hd : d ∈ directions) {k : Nat} (hdst : m.dst = c + d.scale k)
    (hp : b.get m.dst = .ok (some (.piece p))) (hk : 1 ≤ k) (hsteps : k ≤ (b.standing p m.dst).stepsWithin limit)
    (hclear : ∀ j : Nat, 1 ≤ j → j < k → b.get (c + d.scale j) = .ok none)
    (henters : (b.standing p m.dst).Enters true c) :
    ∃ back, b.candidates book m.dst = .ok back ∧ ⟨m.dst, c, none⟩ ∈ back := by
  have hs : (b.standing p m.dst).board.Populated := h
  obtain ⟨back, hback⟩ := Standing.fan_ok hs directions ⟨some limit, some 1⟩
  refine ⟨back, (candidates_eq_fan h hcustom hroom hp hfan hid).trans hback, (Standing.mem_fan hs hback).2 ?_⟩
  have hreached : (b.standing p m.dst).Reached d.opposite true m.dst k := by
    rw [hdst] at henters ⊢
    exact Standing.reached_opposite hclear henters
  have hend : m.dst + d.opposite.scale k = c := by
    rw [hdst, Coord.add_scale_opposite c d le_rfl, Nat.sub_self, Coord.scale_zero, Coord.add_origin]
  refine ⟨d.opposite, Rule.opposite_mem_of_fan _ hfan d hd, k, hk, hsteps, hreached, ?_⟩
  rw [← hend]
  rfl

/-- Behind a move to an empty square, the way back is as clear as the way there was. -/
theorem get_moved_of_clear (h : b.Framed) (hs : b.contains m.src = true) (hin : b.contains m.dst = true) {d : Coord}
    (hdir : d ≠ .origin) {k : Nat} (hdst : m.dst = c + d.scale k)
    (hclear : ∀ j : Nat, 1 ≤ j → j < k → b.get (c + d.scale j) = .ok none) :
    ∀ j : Nat, 1 ≤ j → j < k → (b.moved m).get (c + d.scale j) = .ok none := by
  intro j hj hlt
  have hother : c + d.scale j ≠ m.dst := by
    rw [hdst, Ne, Coord.add_scale_inj hdir]
    omega
  rw [get_moved h hs hin, if_neg hother, hclear j hj hlt]
  simp

/-- **Pieces can go back.** Let a move be among the candidates of a rook, bishop, queen, knight or king that stands on
the square `c`.
- If its destination is empty, the move succeeds and captures nothing, and then the piece has the move back to `c` among
  its candidates.
- If a piece of the same kind stands on its destination, that piece is of another team, and has the move to `c` among
  its candidates. -/
theorem candidates_return (h : b.Populated) (hcustom : book.custom = []) (hroom : book.Roomy)
    (hp : b.get c = .ok (some (.piece p)))
    (hkind : ∃ kind ∈ (["R", "B", "Q", "N", "K"] : List Text), p.id = .text kind)
    (hfound : b.candidates book c = .ok found) (hm : m ∈ found) :
    (b.get m.dst = .ok none → ∃ b', b.move m = (.ok none, b') ∧ b'.get m.dst = .ok (some (.piece p)) ∧
      ∃ back, b'.candidates book m.dst = .ok back ∧ ⟨m.dst, c, none⟩ ∈ back) ∧
    (∀ q, b.get m.dst = .ok (some (.piece q)) → q.id = p.id → q.team.same p.team = false ∧
      ∃ back, b.candidates book m.dst = .ok back ∧ ⟨m.dst, c, none⟩ ∈ back) := by
  obtain ⟨kind, hkind, hid⟩ := hkind
  obtain ⟨directions, limit, hfan⟩ := Rule.exists_fan hkind
  rw [candidates_eq_fan h hcustom hroom hp hfan hid] at hfound
  obtain ⟨d, hd, k, hk, hsteps, hreached, hmove⟩ := (Standing.mem_fan (s := b.standing p c) h hfound).1 hm
  obtain rfl : c = m.src := (congrArg Move.src hmove).symm
  have hdst : m.dst = m.src + d.scale k := congrArg Move.dst hmove
  have hclear : ∀ j : Nat, 1 ≤ j → j < k → b.get (m.src + d.scale j) = .ok none := hreached.clear
  have henters : (b.standing p m.src).Enters true m.dst := hdst ▸ hreached.enters
  have hs : b.contains m.src = true := (contains_of_get hp).1
  have hin : b.contains m.dst = true := henters.contains
  refine ⟨fun hempty => ?_, fun q hq hidq => ?_⟩
  · have hne : m.src ≠ m.dst := by
      intro he
      rw [he] at hp
      cases hp.symm.trans hempty
    have hpiece : (b.moved m).get m.dst = .ok (some (.piece p)) := by
      rw [get_moved h.toFramed hs hin, if_pos rfl, hp]
    have hsource : (b.moved m).get m.src = .ok none := by
      rw [get_moved h.toFramed hs hin, if_neg hne, if_pos rfl]
    have hcapture : (b.placed m.src none).occupant m.dst = none := by
      rw [occupant_placed h.toFramed hs hin, if_neg hne.symm, ((get_eq_ok_iff h.toFramed).1 hempty).2]
    have hspan : (b.moved m).span = b.span := by rw [span, span, moved_size]
    have hsteps' : k ≤ ((b.moved m).standing p m.dst).stepsWithin limit := by
      simpa only [Standing.stepsWithin, standing, hspan] using hsteps
    have hclear' := get_moved_of_clear h.toFramed hs hin (Rule.ne_origin_of_fan _ hfan d hd) hdst hclear
    refine ⟨b.moved m, by rw [h.move_eq hs hin, hcapture], hpiece, ?_⟩
    exact exists_candidates_back (h.moved hs hin) hcustom hroom hfan hid hd hdst hpiece hk hsteps' hclear'
      (.inl hsource)
  · have henemy : q.team.same p.team = false := by
      obtain hempty | ⟨-, r, hr, hteam⟩ := henters
      · cases hempty.symm.trans hq
      · cases hr.symm.trans hq
        exact hteam
    have hback : (b.standing q m.dst).Enters true m.src := .inr ⟨rfl, p, hp, (Data.same_comm _ _).trans henemy⟩
    exact ⟨henemy, exists_candidates_back h hcustom hroom hfan (hidq.trans hid) hd hdst hq hk hsteps hclear hback⟩

/-- Two rooks against one another on a row: the first one can go two squares ahead and back again, and either of them
can capture the other one. -/
theorem candidates_return_rooks :
    let first : Coord × Piece := (⟨0, 0, 0, 0⟩, ⟨0, .text "R", .int 0⟩)
    let second : Coord × Piece := (⟨3, 0, 0, 0⟩, ⟨1, .text "R", .int 1⟩)
    let between : Coord := ⟨2, 0, 0, 0⟩
    let book : RuleBook := { custom := [] }
    ∃ b found, arranged ⟨4, 1, 1, 1⟩ #[[], []] [first, second] = .ok b ∧ b.candidates book first.1 = .ok found ∧
      ⟨first.1, between, none⟩ ∈ found ∧ ⟨first.1, second.1, none⟩ ∈ found ∧
      (∃ b', b.move ⟨first.1, between, none⟩ = (.ok none, b') ∧ b'.get between = .ok (some (.piece first.2)) ∧
        ∃ back, b'.candidates book between = .ok back ∧ ⟨between, first.1, none⟩ ∈ back) ∧
      ∃ back, b.candidates book second.1 = .ok back ∧ ⟨second.1, first.1, none⟩ ∈ back := by
  intro first second between book
  have hrun : (arranged ⟨4, 1, 1, 1⟩ #[[], []] [first, second] >>= fun b =>
      b.get first.1 >>= fun own => b.get between >>= fun empty => b.get second.1 >>= fun other =>
        b.candidates book first.1 >>= fun found => .ok (own, empty, other, found)) =
      .ok (some (.piece first.2), none, some (.piece second.2),
        [⟨first.1, ⟨1, 0, 0, 0⟩, none⟩, ⟨first.1, between, none⟩, ⟨first.1, second.1, none⟩]) := by decide +kernel
  obtain ⟨b, hb, hrun⟩ := Outcome.bind_eq_ok_iff.1 hrun
  obtain ⟨own, hown, hrun⟩ := Outcome.bind_eq_ok_iff.1 hrun
  obtain ⟨empty, hempty, hrun⟩ := Outcome.bind_eq_ok_iff.1 hrun
  obtain ⟨other, hother, hrun⟩ := Outcome.bind_eq_ok_iff.1 hrun
  obtain ⟨found, hfound, hrun⟩ := Outcome.bind_eq_ok_iff.1 hrun
  cases hrun
  have hsound : b.Sound := arranged_sound hb (by simp [first, second, contains, arranged_size hb])
  have hreturn {m : Move}
      (hm : m ∈ [⟨first.1, ⟨1, 0, 0, 0⟩, none⟩, ⟨first.1, between, none⟩, ⟨first.1, second.1, none⟩]) :=
    candidates_return hsound.populated rfl (by decide +kernel : book.Roomy) hown ⟨"R", by decide, rfl⟩ hfound hm
  refine ⟨b, _, hb, hfound, by decide, by decide, ?_, ?_⟩
  · exact (hreturn (m := ⟨first.1, between, none⟩) (by decide)).1 hempty
  · exact ((hreturn (m := ⟨first.1, second.1, none⟩) (by decide)).2 second.2 hother rfl).2

end Board

end Hyperchess
