import Hyperchess.Layout
import Hyperchess.Proofs.Coord.Text

/-!
# Rows of a body

What is written for the squares of a row is read as these squares: a run of empty squares of any length becomes digits
that stand for as many (`rowFrom_gap`), and marks stand for themselves (`rowFrom_rowText`). It takes up as many squares
as were written (`extentOf_rowText`). Whatever row is read, its pieces come from marks (`exists_mark_of_mem_rowFrom`).
-/

namespace Hyperchess.Layout

/-- The code point can stand for a piece: it is no digit, no blank and no separator. -/
structure IsMark (p : CodePoint) : Prop where
  digit : Text.digitValue? p.toChar = none
  blank : Text.isBlank p.toChar = false
  separator : p ≠ .char '|' ∧ p ≠ .char '/' ∧ p ≠ .char ','

instance (p : CodePoint) : Decidable (IsMark p) :=
  decidable_of_iff (Text.digitValue? p.toChar = none ∧ Text.isBlank p.toChar = false ∧
      p ≠ .char '|' ∧ p ≠ .char '/' ∧ p ≠ .char ',')
    ⟨fun ⟨hdigit, hblank, hseparator⟩ => ⟨hdigit, hblank, hseparator⟩,
      fun ⟨hdigit, hblank, hseparator⟩ => ⟨hdigit, hblank, hseparator⟩⟩

/-- The code point is a digit as they are written. -/
def IsDigit (p : CodePoint) : Prop := ∃ c : Char, c.isDigit = true ∧ p = .char c

variable {rest row : List CodePoint} {p : CodePoint}

theorem ne_separator (h : IsDigit p ∨ IsMark p) : p ≠ .char '|' ∧ p ≠ .char '/' ∧ p ≠ .char ',' := by
  obtain ⟨c, hc, rfl⟩ | hmark := h
  · refine ⟨?_, ?_, ?_⟩
    all_goals
      rintro ⟨⟩
      exact absurd hc (by decide)
  · exact hmark.separator

/-! ## Rows -/

/-- A digit stands for as many empty squares. -/
theorem rowFrom_digit {d : Nat} (hd : 0 < d ∧ d < 10) (m : Nat) (rest : List CodePoint) :
    rowFrom (d + m) (.char d.digitChar :: rest) = List.replicate d none ++ rowFrom m rest := by
  obtain ⟨n, hn⟩ := Nat.exists_eq_succ_of_ne_zero (show d + m ≠ 0 by omega)
  have hvalue : Text.digitValue? (CodePoint.char d.digitChar).toChar = some d := by
    have hall : ∀ d < 10, Text.digitValue? (CodePoint.char d.digitChar).toChar = some d := by decide
    exact hall d hd.2
  have hmin : min d (n + 1) = d := by omega
  have hbehind : n + 1 - d = m := by omega
  rw [hn, rowFrom, hvalue]
  simp only [hmin, hbehind]

theorem rowFrom_mark (hp : Text.digitValue? p.toChar = none) (m : Nat) (rest : List CodePoint) :
    rowFrom (m + 1) (p :: rest) = some (designOf p) :: rowFrom m rest := by
  rw [rowFrom, hp]

theorem gap_add_nine (n : Nat) : gap (n + 9) = '9' :: gap n := by
  have hdiv : (n + 9) / 9 = n / 9 + 1 := by omega
  have hmod : (n + 9) % 9 = n % 9 := by omega
  rw [gap, gap, hdiv, hmod, List.replicate_succ, List.cons_append]

theorem gap_of_lt {n : Nat} (h : 0 < n ∧ n < 9) : gap n = [n.digitChar] := by
  have hdiv : n / 9 = 0 := by omega
  have hmod : n % 9 = n := by omega
  rw [gap, hdiv, hmod, if_neg (by omega), Nat.toDigits_of_lt_base (by omega)]
  rfl

/-- A run of empty squares is written as nothing, as one digit, or as a nine and the rest of the run. -/
theorem gap_induction {P : Nat → List Char → Prop} (zero : P 0 []) (digit : ∀ d, 0 < d ∧ d < 9 → P d [d.digitChar])
    (nine : ∀ n, P n (gap n) → P (n + 9) ('9' :: gap n)) (n : Nat) : P n (gap n) := by
  induction n using Nat.strongRecOn with
  | ind n ih =>
    obtain rfl | hpos := Nat.eq_zero_or_pos n
    · exact zero
    · by_cases hlt : n < 9
      · rw [gap_of_lt ⟨hpos, hlt⟩]
        exact digit n ⟨hpos, hlt⟩
      · obtain ⟨k, rfl⟩ := Nat.exists_eq_add_of_le' (show 9 ≤ n by omega)
        rw [gap_add_nine]
        exact nine k (ih k (by omega))

/-- A run of empty squares is read as long as it was written. -/
theorem rowFrom_gap (n m : Nat) (rest : List CodePoint) :
    rowFrom (n + m) ((gap n).map .char ++ rest) = List.replicate n none ++ rowFrom m rest := by
  refine gap_induction
    (P := fun n cs => rowFrom (n + m) (cs.map .char ++ rest) = List.replicate n none ++ rowFrom m rest) ?_ ?_ ?_ n
  · simp
  · exact fun d hd => rowFrom_digit ⟨hd.1, by omega⟩ m rest
  · intro k ih
    have hnine := rowFrom_digit (d := 9) (by decide) (k + m) ((gap k).map .char ++ rest)
    rw [ih, ← List.append_assoc, List.replicate_append_replicate, Nat.add_comm 9 k, ← Nat.add_assoc,
      Nat.add_comm 9 k] at hnine
    exact hnine

/-- **What is written for the squares of a row, behind empty ones, is read as these squares.** -/
theorem rowFrom_rowText {cells : List (Option CodePoint)}
    (h : ∀ p, some p ∈ cells → Text.digitValue? p.toChar = none) (n : Nat) :
    rowFrom (n + cells.length) (rowText n (cells.map fun o => o.map Text.singleton)) =
      List.replicate n none ++ cells.map fun o => o.map designOf := by
  induction cells generalizing n with
  | nil =>
    have hgap := rowFrom_gap n 0 []
    rw [List.append_nil] at hgap
    exact hgap
  | cons o rest ih =>
    have hrest := ih fun p hp => h p (List.mem_cons_of_mem _ hp)
    cases o with
    | none =>
      rw [List.length_cons, show n + (rest.length + 1) = n + 1 + rest.length by omega]
      refine (hrest (n + 1)).trans ?_
      rw [List.replicate_succ', List.append_assoc]
      rfl
    | some p =>
      have hfirst := hrest 0
      rw [Nat.zero_add, List.replicate_zero, List.nil_append] at hfirst
      show rowFrom _ ((gap n).map .char ++ [p] ++ rowText 0 (rest.map fun o => o.map Text.singleton)) = _
      rw [List.append_assoc, List.length_cons, rowFrom_gap, List.singleton_append,
        rowFrom_mark (h p List.mem_cons_self), hfirst]
      rfl

theorem isDigit_of_mem_gap (n : Nat) : ∀ c ∈ gap n, c.isDigit = true := by
  refine gap_induction (P := fun _ cs => ∀ c ∈ cs, c.isDigit = true) ?_ ?_ ?_ n
  · exact fun c hc => absurd hc List.not_mem_nil
  · intro d hd
    have hall : ∀ d < 9, d.digitChar.isDigit = true := by decide
    simpa using hall d hd.2
  · exact fun k ih => List.forall_mem_cons.2 ⟨by decide, ih⟩

/-- A row is written with digits and with the marks of its squares. -/
theorem mem_rowText {cells : List (Option CodePoint)} {n : Nat}
    (hp : p ∈ rowText n (cells.map fun o => o.map Text.singleton)) :
    IsDigit p ∨ some p ∈ cells := by
  have hgap (n : Nat) (hin : p ∈ (gap n).map CodePoint.char) : IsDigit p := by
    obtain ⟨c, hc, rfl⟩ := List.mem_map.1 hin
    exact ⟨c, isDigit_of_mem_gap n c hc, rfl⟩
  induction cells generalizing n with
  | nil => exact .inl (hgap n hp)
  | cons o rest ih =>
    cases o with
    | none => exact (ih hp).imp_right (List.mem_cons_of_mem _)
    | some q =>
      change p ∈ (gap n).map CodePoint.char ++ [q] ++ rowText 0 (rest.map fun o => o.map Text.singleton) at hp
      obtain hp | hp := List.mem_append.1 hp
      · obtain hp | hp := List.mem_append.1 hp
        · exact .inl (hgap n hp)
        · rw [List.mem_singleton.1 hp]
          exact .inr List.mem_cons_self
      · exact (ih hp).imp_right (List.mem_cons_of_mem _)

theorem exists_mark_of_mem_rowFrom {room : Nat} {d : Design} (h : some d ∈ rowFrom room row) :
    ∃ p ∈ row, Text.digitValue? p.toChar = none ∧ d = designOf p := by
  fun_induction rowFrom room row with
  | case1 => exact absurd h List.not_mem_nil
  | case2 => simp at h
  | case3 room p rest n hn ih =>
    obtain h | h := List.mem_append.1 h
    · simp at h
    · obtain ⟨q, hq, hmark⟩ := ih h
      exact ⟨q, List.mem_cons_of_mem _ hq, hmark⟩
  | case4 room p rest hp ih =>
    obtain h | h := List.mem_cons.1 h
    · cases h
      exact ⟨p, List.mem_cons_self, hp, rfl⟩
    · obtain ⟨q, hq, hmark⟩ := ih h
      exact ⟨q, List.mem_cons_of_mem _ hq, hmark⟩

/-! ## Room -/

theorem extentOf_append (front back : List CodePoint) : extentOf (front ++ back) = extentOf front + extentOf back := by
  have hfoldl (row : List CodePoint) (n : Nat) :
      row.foldl (fun n p => n + (Text.digitValue? p.toChar).getD 1) n = n + extentOf row := by
    induction row generalizing n with
    | nil => rfl
    | cons p rest ih =>
      rw [extentOf, List.foldl_cons, List.foldl_cons, ih, ih]
      omega
  rw [extentOf, List.foldl_append, hfoldl back]
  rfl

theorem extentOf_gap (n : Nat) : extentOf ((gap n).map .char) = n := by
  refine gap_induction (P := fun n cs => extentOf (cs.map .char) = n) rfl ?_ ?_ n
  · intro d hd
    have hall : ∀ d < 9, extentOf [CodePoint.char d.digitChar] = d := by decide
    exact hall d hd.2
  · intro k ih
    have hnine : extentOf [CodePoint.char '9'] = 9 := by decide
    rw [List.map_cons, ← List.singleton_append, extentOf_append, hnine, ih, Nat.add_comm]

/-- A row takes up as many squares as were written. -/
theorem extentOf_rowText {cells : List (Option CodePoint)}
    (h : ∀ p, some p ∈ cells → Text.digitValue? p.toChar = none) (n : Nat) :
    extentOf (rowText n (cells.map fun o => o.map Text.singleton)) = n + cells.length := by
  induction cells generalizing n with
  | nil => exact extentOf_gap n
  | cons o rest ih =>
    have hrest := ih fun p hp => h p (List.mem_cons_of_mem _ hp)
    cases o with
    | none =>
      refine (hrest (n + 1)).trans ?_
      rw [List.length_cons]
      omega
    | some p =>
      have hp : extentOf [p] = 1 := by
        rw [extentOf, List.foldl_cons, List.foldl_nil, h p List.mem_cons_self]
        rfl
      show extentOf ((gap n).map .char ++ [p] ++ rowText 0 (rest.map fun o => o.map Text.singleton)) = _
      rw [extentOf_append, extentOf_append, extentOf_gap, hp, hrest 0, List.length_cons]
      omega

end Hyperchess.Layout
