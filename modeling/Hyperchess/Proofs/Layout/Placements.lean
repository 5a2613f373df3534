import Hyperchess.Layout
import Hyperchess.Proofs.Outcome

/-!
# Where a layout puts pieces

A row has as many squares as its width (`length_rowFrom`), and of the parts of a body no more are read than there is
room for, so every piece of a layout is on the board (`placements_inside`).
-/

namespace Hyperchess.Layout

theorem length_rowFrom (room : Nat) (row : List CodePoint) : (rowFrom room row).length = room := by
  fun_induction rowFrom room row with
  | case1 => rfl
  | case2 => simp
  | case3 room p rest d hd ih =>
    rw [List.length_append, List.length_replicate, ih]
    omega
  | case4 room p rest hd ih => rw [List.length_cons, ih]

theorem index_lt_of_mem_parts {separator : Char} {extent : Int} {body part : List CodePoint} {i : Nat}
    (h : (part, i) ∈ parts separator extent body) : (i : Int) < extent := by
  have hlt := (List.mem_zipIdx h).2.1
  have hlen := List.length_take_le extent.toNat (body.splitOn (.char separator))
  omega

/-- **Pieces are put on the board.** -/
theorem placements_inside {size : Coord} {body : List CodePoint} {e : Coord × Design} (h : e ∈ placements size body) :
    ((0 ≤ e.1.x ∧ e.1.x < size.x) ∧ (0 ≤ e.1.y ∧ e.1.y < size.y)) ∧
      (0 ≤ e.1.z ∧ e.1.z < size.z) ∧ (0 ≤ e.1.w ∧ e.1.w < size.w) := by
  obtain ⟨⟨layer, w⟩, hw, h⟩ := List.mem_flatMap.1 h
  obtain ⟨⟨plane, z⟩, hz, h⟩ := List.mem_flatMap.1 h
  obtain ⟨⟨row, y⟩, hy, h⟩ := List.mem_flatMap.1 h
  obtain ⟨⟨square, x⟩, hx, h⟩ := List.mem_filterMap.1 h
  obtain ⟨d, -, rfl⟩ := Option.map_eq_some_iff.1 h
  have hxlt := (List.mem_zipIdx hx).2.1
  rw [parseRow, length_rowFrom] at hxlt
  have hwlt := index_lt_of_mem_parts hw
  have hzlt := index_lt_of_mem_parts hz
  have hylt := index_lt_of_mem_parts hy
  refine ⟨⟨⟨?_, ?_⟩, ?_, ?_⟩, ⟨?_, ?_⟩, ?_, ?_⟩ <;> dsimp only <;> omega

end Hyperchess.Layout
