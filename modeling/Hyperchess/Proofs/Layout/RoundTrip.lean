import Hyperchess.Proofs.Board.Arrangement
import Hyperchess.Proofs.Layout.Outline
import Hyperchess.Proofs.Layout.Room
import Hyperchess.Proofs.Text.Case

/-!
# Layouts that are printed and read again

A board is printable if its pieces are shown in a layout as what they are. Such a board is printed, and what is printed
is read as its size and its pieces, in visiting order (`exists_print`). The pieces that are read from a layout in common
characters are printable, however the rows of its body are cut (`exists_board`), so what is printed for the board of
such a layout is read as the layout is, and is printed again as it was printed.
-/

namespace Hyperchess

/-! ## Printable boards -/

/-- A character that can be the kind of a piece in a layout: a common one, but no digit, no small letter, no blank and
no separator. -/
def isKind (c : Char) : Bool :=
  c.toNat < 128 && !c.isDigit && !c.isLower && !Text.isBlank c && c != ',' && c != '/' && c != '|'

/-- The piece is shown in a layout as what it is: its kind is one character, and it is of the first team, or of the
second one if its kind is a capital letter. -/
def Piece.Printable (p : Piece) : Prop :=
  ∃ c, p.id = .text (.singleton (.char c)) ∧ isKind c = true ∧ (p.team = .int 0 ∨ p.team = .int 1 ∧ c.isUpper = true)

/-- The extents of a board can be written, and its squares hold nothing but printable pieces. -/
structure Board.Printable (b : Board) : Prop extends Populated b where
  extent : b.size.IsExtent
  printable : ∀ {c : Coord} {p : Piece}, b.pieceAt c = some p → p.Printable

/-- What a new piece of the same kind and team is made from. -/
def Piece.design (p : Piece) : Design where
  id := p.id
  team := p.team
  flags := match p.id with
    | .text kind => initialFlags kind
    | _ => []

namespace Layout

/-! ## Common characters -/

theorem isMark_of_isKind {c : Char} (hc : c.toNat < 128) : isKind c = true → c.toUpper = c ∧ IsMark (.char c) :=
  Text.forall_ascii (P := fun c => isKind c = true → c.toUpper = c ∧ IsMark (.char c)) (by decide +kernel) hc

theorem isMark_toLower {c : Char} (hc : c.toNat < 128) : c.isUpper = true →
    c.toLower.toNat < 128 ∧ c.toLower.toUpper = c ∧ c ≠ c.toLower ∧ IsMark (.char c.toLower) :=
  Text.forall_ascii (P := fun c => c.isUpper = true →
    c.toLower.toNat < 128 ∧ c.toLower.toUpper = c ∧ c ≠ c.toLower ∧ IsMark (.char c.toLower)) (by decide +kernel) hc

theorem isKind_toUpper {c : Char} (hc : c.toNat < 128) : IsMark (.char c) →
    isKind c.toUpper = true ∧ (c.toUpper = c ∨ c.toUpper.isUpper = true) :=
  Text.forall_ascii (P := fun c => IsMark (.char c) →
    isKind c.toUpper = true ∧ (c.toUpper = c ∨ c.toUpper.isUpper = true)) (by decide +kernel) hc

theorem upper_singleton {c : Char} (hc : c.toNat < 128) :
    Text.upper (.singleton (.char c)) = .singleton (.char c.toUpper) := by
  simp [Text.upper, Text.singleton, Text.upperPoint, Text.upperChar, hc]

theorem lower_singleton {c : Char} (hc : c.toNat < 128) :
    Text.lower (.singleton (.char c)) = .singleton (.char c.toLower) := by
  simp [Text.lower, Text.singleton, Text.lowerFrom, Text.lowerPoint, Text.lowerChar, hc]

/-- The piece that a common character stands for: its kind is in upper case, and its team is the first one if the
character is so too. -/
theorem designOf_char {c : Char} (hc : c.toNat < 128) : designOf (.char c) =
    ⟨.text (.singleton (.char c.toUpper)), .int (if c.toUpper = c then 0 else 1),
      initialFlags (.singleton (.char c.toUpper))⟩ := by
  rw [designOf, Design.ofKind, upper_singleton hc]
  simp [Text.upperPoint, Text.upperChar, hc]

/-! ## Marks of pieces -/

theorem lt_of_isKind {c : Char} (h : isKind c = true) : c.toNat < 128 := by
  simp only [isKind, Bool.and_eq_true, decide_eq_true_eq] at h
  exact h.1.1.1.1.1.1

/-- A printable piece has a mark, and the mark stands for a piece of its kind and team. -/
theorem exists_mark {p : Piece} (h : p.Printable) :
    ∃ q, IsMark q ∧ p.symbol = .ok (.singleton q) ∧ designOf q = p.design := by
  obtain ⟨c, hid, hkind, hteam⟩ := h
  have hc := lt_of_isKind hkind
  obtain ⟨serial, id, team⟩ := p
  obtain rfl : id = .text (.singleton (.char c)) := hid
  obtain rfl | ⟨rfl, hcapital⟩ : team = .int 0 ∨ team = .int 1 ∧ c.isUpper = true := hteam
  · obtain ⟨hupper, hmark⟩ := isMark_of_isKind hc hkind
    refine ⟨.char c, hmark, ?_, ?_⟩
    · rw [Piece.symbol, symbolOf, if_pos (Data.same_self _), upper_singleton hc, hupper]
    · rw [designOf_char hc, hupper, if_pos rfl]
      rfl
  · obtain ⟨hlt, hupper, hne, hmark⟩ := isMark_toLower hc hcapital
    refine ⟨.char c.toLower, hmark, ?_, ?_⟩
    · have hteam : (Data.int 1).same (.int 0) = false := by decide
      rw [Piece.symbol, symbolOf, hteam, if_neg Bool.false_ne_true, lower_singleton hc]
    · rw [designOf_char hlt, hupper, if_neg hne]
      rfl

/-- Whatever a common mark stands for is printable. -/
theorem printable_of_mark {p : Piece} {q : CodePoint} (hq : IsMark q) (hcode : q.code < 128)
    (hid : p.id = (designOf q).id) (hteam : p.team = (designOf q).team) : p.Printable ∧ p.design = designOf q := by
  cases q with
  | half n =>
    rw [CodePoint.code] at hcode
    omega
  | char c =>
    obtain ⟨hkind, hcase⟩ := isKind_toUpper hcode hq
    rw [designOf_char hcode] at hid hteam
    refine ⟨⟨c.toUpper, hid, hkind, ?_⟩, ?_⟩
    · rw [hteam]
      split
      · exact .inl rfl
      · rename_i hne
        exact .inr ⟨rfl, hcase.resolve_left hne⟩
    · rw [Piece.design, hid, hteam, designOf_char hcode]

/-! ## Printing -/

theorem joined_eq {separator : Char} {n : Int} {part : Nat → Except Fault (List CodePoint)}
    {f : Nat → List CodePoint} (h : ∀ (i : Nat), (i : Int) < n → part i = .ok (f i)) :
    joined separator n part = .ok ([.char separator].intercalate ((List.range n.toNat).map f)) := by
  have hparts : (List.range n.toNat).mapM part = .ok ((List.range n.toNat).map f) := by
    refine Outcome.mapM_eq_map fun i hi => h i ?_
    have := List.mem_range.1 hi
    omega
  rw [joined, hparts]
  rfl

/-- A board is printed as its extents and, behind a blank, what is written for the marks on its squares. -/
theorem print_eq {b : Board} {mark : Coord → Option CodePoint}
    (h : ∀ c, b.contains c = true → symbolAt b c = .ok ((mark c).map Text.singleton)) :
    print b = .ok ⟨(b.size.chars ++ [' ']).map .char ++ bodyText b.size mark⟩ := by
  have hrow (w z y : Nat) (hw : (w : Int) < b.size.w) (hz : (z : Int) < b.size.z) (hy : (y : Int) < b.size.y) :
      (List.range b.size.x.toNat).mapM (fun (x : Nat) => symbolAt b ⟨x, y, z, w⟩) =
        .ok ((rowMarks b.size mark y z w).map fun o => o.map Text.singleton) := by
    rw [rowMarks, List.map_map]
    refine Outcome.mapM_eq_map fun x hx => h _ (Board.contains_iff.2 ?_)
    have := List.mem_range.1 hx
    dsimp only
    omega
  have hbody : (joined '|' b.size.w fun w => joined '/' b.size.z fun z => joined ',' b.size.y fun y => do
      return rowText 0 (← (List.range b.size.x.toNat).mapM fun (x : Nat) => symbolAt b ⟨x, y, z, w⟩)) =
        .ok (bodyText b.size mark) :=
    joined_eq fun w hw => joined_eq fun z hz => joined_eq fun y hy => by
      rw [hrow w z y hw hz hy]
      rfl
  rw [print, hbody]
  rfl

theorem not_isBlank_of_mem_bodyText {size : Coord} {mark : Coord → Option CodePoint}
    (h : ∀ c p, mark c = some p → IsMark p) {p : CodePoint} (hp : p ∈ bodyText size mark) :
    Text.isBlank p.toChar = false := by
  obtain rfl | rfl | rfl | ⟨c, hc, rfl⟩ | hmark := of_mem_bodyText h hp
  · decide
  · decide
  · decide
  · exact Text.isBlank_of_isDigit hc
  · exact hmark.blank

/-! ## Printing and reading -/

/-- **What is printed for a printable board is read as its size and its pieces**, on every machine. -/
theorem exists_print {b : Board} (h : b.Printable) : ∃ text, print b = .ok text ∧
    parse text = .ok (b.size, b.squares.filterMap fun c => (b.pieceAt c).map fun p => (c, p.design)) ∧
    ∀ m, parseWithin m text = parse text := by
  have hmarks (c : Coord) : ∃ o : Option CodePoint, (∀ q, o = some q → IsMark q) ∧
      (b.contains c = true → symbolAt b c = .ok (o.map Text.singleton)) ∧
      o.map designOf = (b.pieceAt c).map Piece.design := by
    cases hp : b.pieceAt c with
    | none =>
      refine ⟨none, fun _ hq => (by cases hq), fun hc => ?_, rfl⟩
      rw [symbolAt, h.get_eq hc, hp]
      rfl
    | some p =>
      obtain ⟨q, hq, hsymbol, hdesign⟩ := exists_mark (h.printable hp)
      refine ⟨some q, fun _ hq' => Option.some.inj hq' ▸ hq, fun hc => ?_, congrArg some hdesign⟩
      rw [symbolAt, h.get_eq hc, hp]
      simp [Occupant.asPiece, hsymbol]
  obtain ⟨mark, hmark⟩ := Classical.skolem.1 hmarks
  refine ⟨_, print_eq fun c => (hmark c).2.1, ?_⟩
  have hx : 0 ≤ b.size.x := (h.extent b.size.x (by simp [Coord.axes])).1
  have hbody : ∀ p ∈ bodyText b.size mark, Text.isBlank p.toChar = false := fun p hp =>
    not_isBlank_of_mem_bodyText (fun c => (hmark c).1) hp
  have hread : placements b.size (bodyText b.size mark) =
      b.squares.filterMap fun c => (b.pieceAt c).map fun p => (c, p.design) := by
    rw [placements_eq]
    refine List.filterMap_congr fun c hc => ?_
    rw [squareAt_bodyText (fun c => (hmark c).1) rfl (Board.mem_squares.1 hc), (hmark c).2.2, Option.map_map]
    rfl
  rw [parse, outline_printed h.extent hbody, ← hread]
  refine ⟨rfl, fun m => ?_⟩
  simp only [parseWithin, outline_printed h.extent hbody, Outcome.ok_bind,
    checkRows_bodyText (fun c => (hmark c).1) hx m]

/-! ## The board of a layout -/

theorem empty_eq {size : Coord} (h : size.IsExtent) (digits : Option Nat) :
    Board.empty size digits = .ok ⟨size, Grid.empty (Board.shapeOf size) .anything, [], #[], digits⟩ :=
  Board.empty_of_nonneg (fun n hn => (h n hn).1) digits

/-- What is put on a square is what the body says about it. -/
theorem mem_placements {b : Board} {body : List CodePoint} {c : Coord} {d : Design} :
    (c, d) ∈ placements b.size body ↔ b.contains c = true ∧ squareAt b.size body c = some d := by
  rw [placements_eq, Coord.mem_listed, Board.mem_squares]

/-- Pieces are put on squares in the order in which these are visited. -/
theorem pairwise_placements (size : Coord) (body : List CodePoint) :
    ((placements size body).map (·.1)).Pairwise fun c d => c.visitedBefore d = true := by
  obtain ⟨b, rfl⟩ := Board.exists_of_size size
  rw [placements_eq]
  exact b.visits_squares.inOrder.sublist (Coord.sublist_listed _ _)

/-- The pieces of a body become a board, on which they are listed in the same order. -/
theorem exists_ofPlacements {size : Coord} (hsize : size.IsExtent) (body : List CodePoint) (digits : Option Nat) :
    ∃ b, Board.ofPlacements size (placements size body) digits = .ok b ∧ b.size = size ∧ b.digits = digits ∧
      b.Sound ∧ b.Distinct ∧ b.flags = ((placements size body).map (·.2.flags)).toArray ∧
      b.index = (Board.numbered 0 (placements size body)).map fun e => (e.1, .piece e.2) := by
  have hsquares : ((placements size body).map (·.1)).Nodup :=
    (pairwise_placements size body).imp Coord.ne_of_visitedBefore
  refine Board.exists_ofPlacements (empty_eq hsize digits) (fun e he => ?_) hsquares
  obtain ⟨⟨hx, hy⟩, hz, hw⟩ := placements_inside he
  exact Board.contains_iff.2 ⟨hx, hy, hz, hw⟩

/-- The pieces on the board of a body are of the kinds and teams that the body says. -/
theorem pieceAt_iff_squareAt {b : Board} {body : List CodePoint} (h : b.Sound)
    (hindex : b.index = (Board.numbered 0 (placements b.size body)).map fun e => (e.1, .piece e.2)) {c : Coord}
    {k : Data × Data} : (b.pieceAt c).map (fun p => (p.id, p.team)) = some k ↔
      ∃ d, (b.contains c = true ∧ squareAt b.size body c = some d) ∧ (d.id, d.team) = k := by
  rw [Board.pieceAt_iff_of_index h hindex, List.mem_map]
  constructor
  · rintro ⟨⟨c', d⟩, he, heq⟩
    cases heq
    exact ⟨d, mem_placements.1 he, rfl⟩
  · rintro ⟨d, hd, rfl⟩
    exact ⟨(c, d), mem_placements.2 hd, rfl⟩

/-- **The board of a layout in common characters is printable**, and has the pieces of the layout. -/
theorem exists_board {layout : Text} {size : Coord} {pieces : List (Coord × Design)}
    (h : parse layout = .ok (size, pieces))
    (hcommon : ∀ body, layout.fields[1]? = some body → ∀ p ∈ body.points, p.code < 128) :
    ∃ b, board layout = .ok b ∧ b.Printable ∧ b.size = size ∧
      pieces = b.squares.filterMap fun c => (b.pieceAt c).map fun p => (c, p.design) := by
  obtain ⟨⟨size, body⟩, houtline, hpieces⟩ := Outcome.bind_eq_ok_iff.1 h
  cases hpieces
  have houtlined := outlined_of_outline houtline
  have hcode : ∀ p ∈ body, p.code < 128 := by
    rw [houtlined.field]
    cases hfields : layout.fields.drop 1 with
    | nil => exact fun p hp => absurd hp List.not_mem_nil
    | cons second rest =>
      have hsecond : layout.fields[1]? = some second := by rw [← List.head?_drop, hfields, List.head?_cons]
      exact hcommon second hsecond
  obtain ⟨b, hb, rfl, -, hsound, -, -, hindex⟩ :=
    exists_ofPlacements houtlined.extent body (some Integer.digitLimit)
  have hpiece {c : Coord} {k : Data × Data} := pieceAt_iff_squareAt hsound hindex (c := c) (k := k)
  have hknown {c : Coord} {p : Piece} (hp : b.pieceAt c = some p) :
      p.Printable ∧ squareAt b.size body c = some p.design := by
    obtain ⟨d, ⟨-, hd⟩, hkind⟩ := hpiece.1 (by rw [hp]; rfl)
    obtain ⟨hid, hteam⟩ := Prod.mk.inj hkind
    obtain ⟨q, hq, hmark, rfl⟩ := exists_mark_of_squareAt houtlined.blank hd
    obtain ⟨hprintable, hdesign⟩ := printable_of_mark hmark (hcode q hq) hid.symm hteam.symm
    exact ⟨hprintable, by rw [hd, hdesign]⟩
  have hsquare {c : Coord} (hc : b.contains c = true) :
      squareAt b.size body c = (b.pieceAt c).map Piece.design := by
    cases hp : b.pieceAt c with
    | some p => exact (hknown hp).2
    | none =>
      refine Option.eq_none_iff_forall_ne_some.2 fun d hd => ?_
      have hsome := hpiece.2 ⟨d, ⟨hc, hd⟩, rfl⟩
      rw [hp] at hsome
      cases hsome
  refine ⟨b, ?_, ⟨hsound.populated, houtlined.extent, fun hp => (hknown hp).1⟩, rfl, ?_⟩
  · rw [board, h]
    exact hb
  · rw [placements_eq]
    refine List.filterMap_congr fun c hc => ?_
    rw [hsquare (Board.mem_squares.1 hc), Option.map_map]
    rfl

/-! ## Round trips -/

/-- **Printing and reading are inverse to each other.** What is printed for a printable board is read as its size and,
in visiting order, its pieces with their kinds and teams. What is printed for the board of a layout in common
characters is read as the layout is, and is printed as itself. Every machine has room to read both. -/
theorem parse_print :
    (∀ b : Board, b.Printable → ∃ text pieces, print b = .ok text ∧ parse text = .ok (b.size, pieces) ∧
      pieces.map (fun e => (e.1, e.2.id, e.2.team)) =
        b.squares.filterMap (fun c => (b.pieceAt c).map fun p => (c, p.id, p.team)) ∧
      ∀ m, parseWithin m text = parse text) ∧
    ∀ (layout : Text) (size : Coord) (pieces : List (Coord × Design)), parse layout = .ok (size, pieces) →
      (∀ body, layout.fields[1]? = some body → ∀ p ∈ body.points, p.code < 128) →
      ∃ b text, board layout = .ok b ∧ print b = .ok text ∧ parse text = .ok (size, pieces) ∧
        (board text >>= print) = .ok text ∧ ∀ m, parseWithin m text = parse text := by
  refine ⟨fun b hb => ?_, fun layout size pieces h hcommon => ?_⟩
  · obtain ⟨text, hprint, hparse, hroom⟩ := exists_print hb
    refine ⟨text, _, hprint, hparse, ?_, hroom⟩
    rw [List.map_filterMap]
    refine List.filterMap_congr fun c _ => ?_
    rw [Option.map_map]
    rfl
  · obtain ⟨b, hboard, hprintable, rfl, rfl⟩ := exists_board h hcommon
    obtain ⟨text, hprint, hparse, hroom⟩ := exists_print hprintable
    have hagain : board text = board layout := by rw [board, board, h, hparse]
    exact ⟨b, text, hboard, hprint, hparse, by rw [hagain, hboard, Outcome.ok_bind, hprint], hroom⟩

/-- A layout with an excess of squares, rows that are missing and a plane too many: it is printed as it should have been
written, and that is read as the same pieces. -/
theorem parse_print_ragged :
    let ragged : Text := "3,2,1,2 a9X,,zz/q|2k"
    let canonical : Text := "3,2,1,2 a2,3|2k,3"
    ∃ b pieces, board ragged = .ok b ∧ b.Printable ∧ print b = .ok canonical ∧
      parse ragged = .ok (⟨3, 2, 1, 2⟩, pieces) ∧ parse canonical = .ok (⟨3, 2, 1, 2⟩, pieces) ∧
      pieces.map (fun e => (e.1, e.2.id, e.2.team)) =
        b.squares.filterMap (fun c => (b.pieceAt c).map fun p => (c, p.id, p.team)) := by
  intro ragged canonical
  have hprinted : (board ragged >>= print) = .ok canonical := by decide +kernel
  have hparse : parse ragged = .ok (⟨3, 2, 1, 2⟩,
      [(⟨0, 0, 0, 0⟩, ⟨.text "A", .int 1, []⟩), (⟨2, 0, 0, 1⟩, ⟨.text "K", .int 1, [.int 1, .int 2]⟩)]) := by
    decide +kernel
  have hcommon : ∀ body, ragged.fields[1]? = some body → ∀ p ∈ body.points, p.code < 128 := by
    intro body hbody
    have hfield : ragged.fields[1]? = some ("a9X,,zz/q|2k" : Text) := by decide +kernel
    cases hfield.symm.trans hbody
    decide
  obtain ⟨b, hboard, hprintable, -, -⟩ := exists_board hparse hcommon
  rw [hboard, Outcome.ok_bind] at hprinted
  obtain ⟨text, pieces, hprint, hread, hpieces, -⟩ := parse_print.1 b hprintable
  obtain ⟨b', text', hboard', hprint', hread', -⟩ := parse_print.2 ragged _ _ hparse hcommon
  cases hboard.symm.trans hboard'
  cases hprinted.symm.trans hprint
  cases hprinted.symm.trans hprint'
  obtain ⟨-, rfl⟩ := Prod.mk.inj (Except.ok.inj (hread.symm.trans hread'))
  exact ⟨b, _, hboard, hprintable, hprinted, hparse, hread', hpieces⟩

end Layout

end Hyperchess
