import Hyperchess.Proofs.Reach.Pawns
import Hyperchess.Proofs.Reach.Returns
import Mathlib.Data.Finset.Card

/-!
# No square is found twice

The directions of rook, bishop, queen, knight and king have no common divisor on their axes (`content_of_fan`), so
different directions never lead to the same square, however far they go (`eq_of_scale_eq`), and a fan finds no square
twice (`nodup_fan`). The steps of a pawn go different ways, apart from those that it may make with a flag
(`pawnSteps_apart`). So with the built-in rules a piece has no two candidate moves with the same ends, unless it is a
pawn with such a flag (`candidates_counted`).
-/

namespace Hyperchess

/-! ## Different moves -/

namespace Move

/-- The two ends of a move, which tell it apart from others. -/
def ends (m : Move) : Coord × Coord := (m.src, m.dst)

theorem sameEnds_iff {m n : Move} : m.sameEnds n = true ↔ m.ends = n.ends := by
  simp [sameEnds, ends]

/-- All moves of a list are different, so their number is the length of the list. -/
structure Counted (moves : List Move) : Prop where
  apart : moves.Pairwise fun m n => m.sameEnds n = false
  count : (moves.map ends).toFinset.card = moves.length

theorem counted_iff {moves : List Move} : Counted moves ↔ (moves.map ends).Nodup := by
  have hapart : (moves.map ends).Nodup ↔ moves.Pairwise fun m n => m.sameEnds n = false := by
    rw [List.Nodup, List.pairwise_map]
    simp only [Ne, ← sameEnds_iff, Bool.not_eq_true]
  constructor
  · intro h
    exact hapart.2 h.apart
  · intro h
    exact ⟨hapart.1 h, by rw [List.toFinset_card_of_nodup h, List.length_map]⟩

theorem Counted.sublist {moves kept : List Move} (h : Counted moves) (hkept : kept.Sublist moves) : Counted kept :=
  counted_iff.2 ((counted_iff.1 h).sublist (hkept.map _))

/-- Moves to different squares are different. -/
theorem counted_of_nodup {moves : List Move} (h : (moves.map dst).Nodup) : Counted moves := by
  have hends : ((moves.map ends).map Prod.snd).Nodup := by
    rw [List.map_map]
    exact h
  exact counted_iff.2 hends.of_map

end Move

/-! ## Directions without a common divisor -/

namespace Coord

/-- The greatest number that divides all axes. -/
def content (c : Coord) : Nat := (c.x.natAbs.gcd c.y.natAbs).gcd (c.z.natAbs.gcd c.w.natAbs)

theorem content_scale (c : Coord) (k : Nat) : (c.scale k).content = c.content * k := by
  simp only [content, scale, Int.natAbs_mul, Int.natAbs_natCast, Nat.gcd_mul_right]

theorem ne_origin_of_content {c : Coord} (h : c.content = 1) : c ≠ origin := by
  rintro rfl
  cases h

/-- Steps in two directions that have no divisor lead to the same square only if the directions are the same. -/
theorem eq_of_scale_eq {d e : Coord} (hd : d.content = 1) (he : e.content = 1) {j k : Nat} (hj : 1 ≤ j)
    (h : d.scale j = e.scale k) : d = e := by
  have hcontent := congrArg content h
  rw [content_scale, content_scale, hd, he, Nat.one_mul, Nat.one_mul] at hcontent
  subst hcontent
  have haxis {m n : Int} (hmn : m * j = n * j) : m = n := Int.eq_of_mul_eq_mul_right (by omega) hmn
  obtain ⟨hx, hy, hz, hw⟩ := (Coord.mk.injEq ..).mp h
  exact (Coord.mk.injEq ..).mpr ⟨haxis hx, haxis hy, haxis hz, haxis hw⟩

theorem add_left_cancel {a b c : Coord} (h : a + b = a + c) : b = c := by
  have haxis {l m n : Int} (hmn : l + m = l + n) : m = n := by omega
  obtain ⟨hx, hy, hz, hw⟩ := (Coord.mk.injEq ..).mp h
  exact (Coord.mk.injEq ..).mpr ⟨haxis hx, haxis hy, haxis hz, haxis hw⟩

end Coord

/-- The directions of a fan have no divisor. -/
theorem Rule.content_of_fan : ∀ fan ∈ fans, ∀ d ∈ fan.2.1, d.content = 1 := by decide

/-- No direction of a fan is listed twice. -/
theorem Rule.nodup_of_fan : ∀ fan ∈ fans, fan.2.1.Nodup := by decide

namespace Standing

variable {s : Standing} {found : List Move}

/-! ## Fans -/

/-- **A fan finds no square twice.** -/
theorem nodup_fan (h : s.board.Populated) {directions : List Coord} (hnodup : directions.Nodup)
    (hcontent : ∀ d ∈ directions, d.content = 1) {budget : Budget} (hfound : s.fan directions budget = .ok found) :
    (found.map Move.dst).Nodup := by
  refine Outcome.nodup_map_flatMapM hfound (fun d hd moves hmoves => ?_) (hnodup.imp_of_mem fun {d e} hd he hne => ?_)
  · exact nodup_ray h (Coord.ne_origin_of_content (hcontent d hd)) hmoves
  · intro moves moves' hmoves hmoves' m hm m' hm' hdst
    obtain ⟨n, rfl⟩ := exists_line_of_ray h hmoves
    obtain ⟨n', rfl⟩ := exists_line_of_ray h hmoves'
    simp only [line, List.map_map, List.mem_map, List.mem_range'_1] at hm hm'
    obtain ⟨j, hj, rfl⟩ := hm
    obtain ⟨k, -, rfl⟩ := hm'
    exact hne (Coord.eq_of_scale_eq (hcontent d hd) (hcontent e he) hj.1 (Coord.add_left_cancel hdst))

/-! ## Pawns -/

/-- Two steps of a pawn go different ways, or the second one is one that the pawn may make with a flag. -/
theorem pawnSteps_apart {forward : Int} (hforward : forward = 1 ∨ forward = -1) :
    (RuleBook.pawnSteps forward).Pairwise fun l l' => l.2 ≠ l'.2 ∨
      ({ flag := some 1 } : Condition) ∈ l'.1.conditions ∨ ({ flag := some 2 } : Condition) ∈ l'.1.conditions := by
  obtain rfl | rfl := hforward
  · decide
  · decide

/-- **A pawn without flags for empty squares finds no square twice.** -/
theorem nodup_pawnMoves (h : s.board.Populated) (hleft : (s.board.flagsOf s.piece).has Flags.left = false)
    (hright : (s.board.flagsOf s.piece).has Flags.right = false) {team forward : Int}
    (hforward : forward = 1 ∨ forward = -1) (hfound : s.pawnMoves team forward = .ok found) :
    (found.map Move.dst).Nodup := by
  rw [pawnMoves] at hfound
  split at hfound
  · rw [gather_leaves] at hfound
    have hdir : ∀ leaf ∈ RuleBook.pawnSteps forward, leaf.2 ≠ .origin := by
      obtain rfl | rfl := hforward
      · decide
      · decide
    refine Outcome.nodup_map_flatMapM hfound (fun leaf hleaf moves hmoves => ?_)
      (List.pairwise_filter.2 ((pawnSteps_apart hforward).imp_of_mem fun {l l'} hl hl' hapart _ hmeets => ?_))
    · exact nodup_ray h (hdir leaf (List.mem_of_mem_filter hleaf)) hmoves
    · have hmeets := of_decide_eq_true hmeets
      have hne : l.2 ≠ l'.2 := by
        obtain hne | hflag | hflag := hapart
        · exact hne
        · exact absurd (meets_flag_iff.1 (hmeets _ hflag)) (by rw [← Flags.left, hleft]; simp)
        · exact absurd (meets_flag_iff.1 (hmeets _ hflag)) (by rw [← Flags.right, hright]; simp)
      intro moves moves' hmoves hmoves' m hm m' hm' hdst
      obtain ⟨rfl, -⟩ := (mem_ray_pawnStep_iff h hl).1 ⟨moves, hmoves, hm⟩
      obtain ⟨rfl, -⟩ := (mem_ray_pawnStep_iff h hl').1 ⟨moves', hmoves', hm'⟩
      exact hne (Coord.add_left_cancel hdst)
  · cases hfound
    exact List.nodup_nil

end Standing

/-! ## Candidates -/

namespace Board

variable {b : Board} {book : RuleBook} {c : Coord} {p : Piece}

/-- No pawn on the board has one of the flags with which it may step onto an empty square on its side. -/
def Unflagged (b : Board) : Prop :=
  ∀ ⦃c : Coord⦄ ⦃p : Piece⦄, b.get c = .ok (some (.piece p)) → p.id = .text "P" →
    (b.flagsOf p).has Flags.left = false ∧ (b.flagsOf p).has Flags.right = false

theorem nodup_candidates_pawn (h : b.Populated) (hcustom : book.custom = []) (hroom : book.Roomy)
    (hp : b.get c = .ok (some (.piece p))) (hid : p.id = .text "P") (hplain : b.Unflagged) {found : List Move}
    (hfound : b.candidates book c = .ok found) : (found.map Move.dst).Nodup := by
  obtain ⟨hleft, hright⟩ := hplain hp hid
  have hrule : book.get? "P" = some Rule.pawn := (RuleBook.get?_eq_builtin hcustom "P").trans rfl
  have hs : (b.standing p c).board.Populated := h
  rw [candidates_eq_gather h hroom hp hid hrule, Standing.gather_pawn] at hfound
  obtain ⟨up, hup, hfound⟩ := Outcome.bind_eq_ok_iff.1 hfound
  obtain ⟨down, hdown, hfound⟩ := Outcome.bind_eq_ok_iff.1 hfound
  cases hfound
  -- a pawn is of one team at most
  cases hteam : p.team.same (.int 0) with
  | true =>
    have hother : p.team.same (.int 1) = false := (Data.same_congr hteam _).trans rfl
    rw [Standing.pawnMoves, if_neg (by simp [standing, hother])] at hdown
    cases hdown
    rw [List.append_nil]
    exact Standing.nodup_pawnMoves hs hleft hright (.inl rfl) hup
  | false =>
    rw [Standing.pawnMoves, if_neg (by simp [standing, hteam])] at hup
    cases hup
    exact Standing.nodup_pawnMoves hs hleft hright (.inr rfl) hdown

/-- **A piece of a built-in kind has no candidate move twice**, unless it is a pawn with a flag for empty squares. -/
theorem candidates_counted (h : b.Populated) (hcustom : book.custom = []) (hroom : book.Roomy)
    (hp : b.get c = .ok (some (.piece p)))
    (hkind : ∃ kind ∈ (["R", "B", "Q", "N", "P", "K"] : List Text), p.id = .text kind) (hplain : b.Unflagged)
    {found : List Move} (hfound : b.candidates book c = .ok found) : Move.Counted found := by
  apply Move.counted_of_nodup
  obtain ⟨kind, hkind, hid⟩ := hkind
  by_cases hpawn : kind = "P"
  · exact nodup_candidates_pawn h hcustom hroom hp (hpawn ▸ hid) hplain hfound
  · have hother : kind ∈ (["R", "B", "Q", "N", "K"] : List Text) := by
      simp only [List.mem_cons, List.not_mem_nil, or_false] at hkind ⊢
      tauto
    obtain ⟨directions, limit, hfan⟩ := Rule.exists_fan hother
    rw [candidates_eq_fan h hcustom hroom hp hfan hid] at hfound
    exact Standing.nodup_fan (s := b.standing p c) h (Rule.nodup_of_fan _ hfan) (Rule.content_of_fan _ hfan) hfound

end Board

end Hyperchess
