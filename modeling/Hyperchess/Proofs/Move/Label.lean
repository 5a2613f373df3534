import Hyperchess.Move
import Hyperchess.Proofs.Coord.Letters
import Hyperchess.Proofs.Coord.Reading

/-!
# Labels tell squares and moves apart

In a label nothing stands between letters and numbers, nor between the two squares of a move. But letters are no digits,
so a label is cut where letters and digits meet (`append_class_inj`), and the label of a square on a board can be read
off whatever it is in front of, as long as that does not begin with a digit (`labelChars_append_inj`). Main statement:
`label_unambiguous`.
-/

namespace Hyperchess

/-! ## Parts of two classes -/

section Classes

variable {p : Char → Bool} {a b c d : List Char}

/-- The characters do not begin with one of a class. -/
def BeginsOutside (p : Char → Bool) (cs : List Char) : Prop := ∀ x ∈ cs.head?, p x = false

theorem beginsOutside_nil : BeginsOutside p [] := by simp [BeginsOutside]

theorem beginsOutside_append (hne : a ≠ []) (ha : ∀ x ∈ a, p x = false) (c : List Char) : BeginsOutside p (a ++ c) := by
  obtain ⟨x, rest, rfl⟩ := List.exists_cons_of_ne_nil hne
  intro y hy
  obtain rfl : x = y := by simpa using hy
  exact ha x List.mem_cons_self

theorem takeWhile_append_of_beginsOutside (ha : ∀ x ∈ a, p x = true) (hc : BeginsOutside p c) :
    (a ++ c).takeWhile p = a := by
  have hnone : c.takeWhile p = [] := by
    cases c with
    | nil => rfl
    | cons x rest => exact List.takeWhile_cons_of_neg (by simp [hc x rfl])
  rw [List.takeWhile_append_of_pos ha, hnone, List.append_nil]

/-- Parts whose characters belong to a class are told apart from what begins with another one. -/
theorem append_class_inj (ha : ∀ x ∈ a, p x = true) (hb : ∀ x ∈ b, p x = true) (hc : BeginsOutside p c)
    (hd : BeginsOutside p d) (h : a ++ c = b ++ d) : a = b ∧ c = d := by
  have hfront : a = b := by
    rw [← takeWhile_append_of_beginsOutside ha hc, h, takeWhile_append_of_beginsOutside hb hd]
  subst hfront
  exact ⟨rfl, List.append_cancel_left h⟩

end Classes

/-! ## The label of a square -/

namespace Coord

variable {a b : Coord} {s t : List Char}

/-- No axis is below zero, as on the squares of a board. -/
def IsNonneg (a : Coord) : Prop := ∀ n ∈ a.axes, 0 ≤ n

instance (a : Coord) : Decidable a.IsNonneg := inferInstanceAs (Decidable (∀ n ∈ a.axes, 0 ≤ n))

theorem IsNonneg.exists_nat (h : a.IsNonneg) : ∃ x y z w : Nat, a = ⟨x, y, z, w⟩ := by
  simp only [IsNonneg, axes, List.forall_mem_cons] at h
  obtain ⟨hx, hy, hz, hw, -⟩ := h
  exact ⟨a.x.toNat, a.y.toNat, a.z.toNat, a.w.toNat, by simp [hx, hy, hz, hw]⟩

theorem isDigit_of_isLower {c : Char} (h : c.isLower = true) : c.isDigit = false := by
  rw [Bool.eq_false_iff]
  intro hdigit
  have hlower := isLower_iff.1 h
  have hbounds := Text.bounds_of_isDigit hdigit
  omega

theorem isLower_of_isDigit {c : Char} (h : c.isDigit = true) : c.isLower = false := by
  rw [Bool.eq_false_iff]
  intro hlower
  rw [isDigit_of_isLower hlower] at h
  cases h

/-- The numbers in labels are digits, without a sign. -/
theorem isDigit_of_mem_literal {n : Nat} {c : Char} (h : c ∈ Integer.literal (n + 1)) : c.isDigit = true := by
  rw [Integer.literal, if_neg (by omega)] at h
  exact Integer.isDigit_of_mem_toDigits h

theorem literal_ne_nil (n : Int) : Integer.literal n ≠ [] := by
  rw [Integer.literal]
  split
  · exact List.cons_ne_nil _ _
  · exact Nat.toDigits_ne_nil

/-- Letters and a number behind them are cut off what does not begin with a digit. -/
theorem letters_literal_append_inj {m n k l : Nat} (hs : BeginsOutside Char.isDigit s)
    (ht : BeginsOutside Char.isDigit t)
    (h : letterChars m ++ (Integer.literal (k + 1) ++ s) = letterChars n ++ (Integer.literal (l + 1) ++ t)) :
    (m = n ∧ k = l) ∧ s = t := by
  have hnumber (i : Nat) (rest : List Char) : BeginsOutside Char.isLower (Integer.literal (i + 1) ++ rest) :=
    beginsOutside_append (literal_ne_nil _) (fun _ hc => isLower_of_isDigit (isDigit_of_mem_literal hc)) rest
  obtain ⟨hletters, h⟩ := append_class_inj (fun _ => isLower_of_mem_letterChars)
    (fun _ => isLower_of_mem_letterChars) (hnumber k s) (hnumber l t) h
  obtain ⟨hdigits, hrest⟩ :=
    append_class_inj (fun _ => isDigit_of_mem_literal) (fun _ => isDigit_of_mem_literal) hs ht h
  have hkl := Integer.literal_injective hdigits
  exact ⟨⟨letterChars_injective hletters, by omega⟩, hrest⟩

theorem beginsOutside_letters (n : Nat) (rest : List Char) :
    BeginsOutside Char.isDigit (letterChars n ++ rest) :=
  beginsOutside_append (letterChars_ne_nil n) (fun _ hc => isDigit_of_isLower (isLower_of_mem_letterChars hc)) rest

/-- **The label of a square is cut off whatever it is in front of**, unless that begins with a digit. -/
theorem labelChars_append_inj (ha : a.IsNonneg) (hb : b.IsNonneg) (hs : BeginsOutside Char.isDigit s)
    (ht : BeginsOutside Char.isDigit t) (h : a.labelChars ++ s = b.labelChars ++ t) : a = b ∧ s = t := by
  obtain ⟨x, y, z, w, rfl⟩ := ha.exists_nat
  obtain ⟨x', y', z', w', rfl⟩ := hb.exists_nat
  simp only [labelChars, List.append_assoc] at h
  obtain ⟨⟨rfl, rfl⟩, hback⟩ :=
    letters_literal_append_inj (beginsOutside_letters z _) (beginsOutside_letters z' _) h
  obtain ⟨⟨rfl, rfl⟩, hrest⟩ := letters_literal_append_inj hs ht hback
  exact ⟨rfl, hrest⟩

theorem beginsOutside_labelChars (h : a.IsNonneg) : BeginsOutside Char.isDigit a.labelChars := by
  obtain ⟨x, y, z, w, rfl⟩ := h.exists_nat
  rw [labelChars, List.append_assoc, List.append_assoc]
  exact beginsOutside_letters x _

/-- **No two squares have the same label.** -/
theorem label_injective (ha : a.IsNonneg) (hb : b.IsNonneg) (h : a.label = b.label) : a = b := by
  have hchars : a.labelChars ++ [] = b.labelChars ++ [] := by
    rw [List.append_nil, List.append_nil]
    exact String.ofList_injective h
  exact (labelChars_append_inj ha hb beginsOutside_nil beginsOutside_nil hchars).1

/-- The label that is given to a square, where it is not too far away for one, is its label. -/
theorem label_of_labelled {limit : Option Nat} {text : String} (h : a.labelled limit = .ok text) : text = a.label := by
  obtain ⟨⟨⟩, -, h⟩ := Outcome.bind_eq_ok_iff.1 h
  obtain ⟨⟨⟩, -, h⟩ := Outcome.bind_eq_ok_iff.1 h
  obtain ⟨⟨⟩, -, h⟩ := Outcome.bind_eq_ok_iff.1 h
  obtain ⟨⟨⟩, -, h⟩ := Outcome.bind_eq_ok_iff.1 h
  cases h
  rfl

end Coord

/-! ## The label of a move -/

namespace Move

variable {m n : Move}

/-- **Moves between squares of boards have the same label only if they have the same ends.** -/
theorem sameEnds_of_label (hm : m.src.IsNonneg ∧ m.dst.IsNonneg) (hn : n.src.IsNonneg ∧ n.dst.IsNonneg)
    (h : m.label = n.label) : m.src = n.src ∧ m.dst = n.dst := by
  have hchars : m.src.labelChars ++ m.dst.labelChars = n.src.labelChars ++ n.dst.labelChars :=
    String.ofList_injective h
  obtain ⟨hsrc, hdst⟩ := Coord.labelChars_append_inj hm.1 hn.1 (Coord.beginsOutside_labelChars hm.2)
    (Coord.beginsOutside_labelChars hn.2) hchars
  exact ⟨hsrc, Coord.label_injective hm.2 hn.2 (congrArg String.ofList hdst)⟩

theorem label_of_labelled {limit : Option Nat} {text : String} (h : m.labelled limit = .ok text) : text = m.label := by
  obtain ⟨_, -, h⟩ := Outcome.bind_eq_ok_iff.1 h
  obtain ⟨_, -, h⟩ := Outcome.bind_eq_ok_iff.1 h
  cases h
  rfl

/-- **Labels are unambiguous.**
- Two squares with axes that are not below zero have the same label if and only if they are the same square.
- Two moves between such squares have the same label if and only if they have the same ends, although nothing stands
  between the labels of the two ends.
- Whether or not there is a limit on the letters of a label, a square or a move that has one at all has this one. -/
theorem label_unambiguous :
    (∀ a b : Coord, a.IsNonneg → b.IsNonneg → (a.label = b.label ↔ a = b)) ∧
    (∀ m n : Move, m.src.IsNonneg ∧ m.dst.IsNonneg → n.src.IsNonneg ∧ n.dst.IsNonneg →
      (m.label = n.label ↔ m.src = n.src ∧ m.dst = n.dst)) ∧
    (∀ (a : Coord) (limit : Option Nat) (text : String), a.labelled limit = .ok text → text = a.label) ∧
    (∀ (m : Move) (limit : Option Nat) (text : String), m.labelled limit = .ok text → text = m.label) := by
  refine ⟨fun a b ha hb => ⟨Coord.label_injective ha hb, congrArg Coord.label⟩,
    fun m n hm hn => ⟨sameEnds_of_label hm hn, ?_⟩, fun a _ _ => Coord.label_of_labelled,
    fun m _ _ => label_of_labelled⟩
  rintro ⟨hsrc, hdst⟩
  rw [label, label, hsrc, hdst]

/-- Squares whose labels share a beginning and an end, and moves whose labels differ in where one square ends and the
other one begins. -/
theorem label_unambiguous_shared :
    ((⟨0, 0, 26, 10⟩ : Coord).label = "a1aa11" ∧ (⟨0, 0, 26, 10⟩ : Coord).label ≠ (⟨0, 0, 0, 10⟩ : Coord).label) ∧
    ((Move.mk ⟨0, 0, 0, 0⟩ ⟨27, 0, 0, 0⟩ none).label = "a1a1ab1a1" ∧
      (Move.mk ⟨0, 0, 0, 0⟩ ⟨27, 0, 0, 0⟩ none).label ≠ (Move.mk ⟨0, 0, 0, 10⟩ ⟨27, 0, 0, 0⟩ none).label) ∧
    ((Coord.labelled (some 992) ⟨1, 2, 3, 4⟩ = .ok "b3d5" ∧ "b3d5" = (⟨1, 2, 3, 4⟩ : Coord).label) ∧
      (Move.mk ⟨0, 1, 0, 0⟩ ⟨0, 2, 0, 0⟩ none).labelled (some 992) = .ok "a2a1a3a1" ∧
        "a2a1a3a1" = (Move.mk ⟨0, 1, 0, 0⟩ ⟨0, 2, 0, 0⟩ none).label) := by
  obtain ⟨hsquare, hmove, hgiven, hgiven'⟩ := label_unambiguous
  have hlabelled : Coord.labelled (some 992) ⟨1, 2, 3, 4⟩ = .ok "b3d5" := by decide +kernel
  have hlabelled' : (Move.mk ⟨0, 1, 0, 0⟩ ⟨0, 2, 0, 0⟩ none).labelled (some 992) = .ok "a2a1a3a1" := by decide +kernel
  refine ⟨⟨by decide +kernel, fun h => ?_⟩, ⟨by decide +kernel, fun h => ?_⟩,
    ⟨hlabelled, hgiven _ _ _ hlabelled⟩, hlabelled', hgiven' _ _ _ hlabelled'⟩
  · exact absurd ((hsquare _ _ (by decide) (by decide)).1 h) (by decide)
  · exact absurd ((hmove _ _ (by decide) (by decide)).1 h).1 (by decide)

end Move

end Hyperchess
