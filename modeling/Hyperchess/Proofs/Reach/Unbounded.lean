import Hyperchess.Proofs.Number.Ceiling
import Hyperchess.Proofs.Reach.Chains

/-!
# The search for moves comes to an end

Candidate moves can be sought without any bound: references are followed as long as they lead to a rule that is not
being evaluated, and walks go on as long as the limit on steps allows it (`Board.search`). Such a search might never
come to an end. So it is given some fuel, of which every call takes one, and breaks off when none is left; a search
that never ends breaks off with any amount. It keeps a log of the rules that it opens and of the rounds of its walks.

For all rules, boards and squares there is an amount that is enough: with no less, the search comes to an end with the
candidate moves (`Board.search_ends`). The rules that are open at the same time are all different, and a walk goes into
no more rounds than the largest extent of the board, since after that many steps it has left the board; one that leads
nowhere meets its own piece in the first round.
-/

namespace Hyperchess

/-! ## Searching without a bound -/

/-- What the log of a search says. -/
inductive Event where
  /-- A rule is opened: its kind, and the kinds of the rules that are open already, the last one first. -/
  | entered (kinds : List Text)
  /-- A walk in a direction goes into a round, counted from one, which looks at a square. -/
  | round (direction : Coord) (count : Nat) (square : Coord)
  deriving DecidableEq, Repr, Inhabited

/-- A computation that may break off, keeps a log and may fail. -/
abbrev Course := ExceptT Fault (StateT (List Event) Option)

namespace Course

variable {α : Type}

/-- The outcome of a computation and its log; nothing if it breaks off. -/
def result (x : Course α) : Option (Except Fault α × List Event) := x.run.run []

/-- Breaks off. -/
def breakOff : Course α := ExceptT.mk fun _ => none

/-- Adds to the log. -/
def report (e : Event) : Course Unit := ExceptT.mk fun log => some (.ok (), log ++ [e])

end Course

namespace Standing

variable (s : Standing)

/-- The squares that are reached as long as the count of the steps is below the limit. -/
def walkOn (direction : Coord) (limit : Number) (capture : Bool) :
    (fuel : Nat) → (count : Nat) → (here : Coord) → Course (List Coord)
  | 0, _, _ => Course.breakOff
  | fuel + 1, count, here => do
    if (Number.int count).lt limit then
      let next := here + direction
      Course.report (.round direction (count + 1) next)
      if s.board.contains next then
        match ← s.board.cell next with
        | none => return next :: (← walkOn direction limit capture fuel (count + 1) next)
        | some o =>
          let other ← o.asPiece
          return if !other.team.same s.piece.team && capture then [next] else []
      else return []
    else return []

/-- The moves along a direction; none unless both limits are set. -/
def rayOn (fuel : Nat) (direction : Coord) (budget : Budget) : Course (List Move) :=
  match budget.steps, budget.captures with
  | some steps, some captures => do
    let squares ← s.walkOn direction steps (0 < captures) fuel 0 s.square
    return squares.map fun c => ⟨s.square, c, none⟩
  | _, _ => return []

mutual

/-- The moves of a path, while the rules of the kinds `entered` are open. -/
def evaluate (book : RuleBook) : (fuel : Nat) → (entered : List Text) → Path → Budget → Course (List Move)
  | 0, _, _, _ => Course.breakOff
  | fuel + 1, entered, .reference id, budget =>
    if entered.contains id then return []
    else do
      let rule ← book.get id
      Course.report (.entered (id :: entered))
      evaluateAll book fuel (id :: entered) rule.roots budget
  | fuel + 1, _, .leaf terms direction, budget => do
    if ← s.allHold (s.square + direction) terms.conditions then s.rayOn fuel direction (budget.within terms)
    else return []
  | fuel + 1, entered, .branches terms below, budget => do
    if ← s.allHold s.square terms.conditions then evaluateAll book fuel entered below (budget.within terms)
    else return []
  | _ + 1, _, .bare terms, _ => do
    let _ ← s.allHold s.square terms.conditions
    return []

/-- The moves of several paths, one after the other. -/
def evaluateAll (book : RuleBook) : (fuel : Nat) → (entered : List Text) → List Path → Budget → Course (List Move)
  | 0, _, _, _ => Course.breakOff
  | _ + 1, _, [], _ => return []
  | fuel + 1, entered, path :: rest, budget => do
    let moves ← evaluate book fuel entered path budget
    return moves ++ (← evaluateAll book fuel entered rest budget)

end

end Standing

/-- The candidate moves of what stands on a square, sought without any bound but the fuel. -/
def Board.search (b : Board) (book : RuleBook) (fuel : Nat) (square : Coord) : Course (List Move) := do
  match ← b.get square with
  | none => return []
  | some o =>
    let piece ← o.asPiece
    let rule ← book.getFor piece.id
    Course.report (.entered [piece.id.display])
    (b.standing piece square).evaluateAll book fuel [piece.id.display] rule.roots {}

/-- What the log of a search may say: the rules that are open are all different and no more than the book has, and a
walk goes into no more rounds than the largest extent, into one, on the square `own` of its piece, if it leads
nowhere. -/
def Board.Bounded (b : Board) (book : RuleBook) (own : Coord) : Event → Prop
  | .entered kinds => kinds.Nodup ∧ kinds.length ≤ book.ids.length
  | .round direction count square => count ≤ b.span ∧ (direction = .origin → count = 1 ∧ square = own)

/-! ## Computations that come to an end -/

namespace Course

variable {α β : Type} {P : Event → Prop}

/-- With enough fuel the computation comes to an end with this outcome, and everything that it adds to the log is of
this kind. -/
def Ends (x : (fuel : Nat) → Course α) (outcome : Except Fault α) (P : Event → Prop) : Prop :=
  ∃ enough events, (∀ fuel ≥ enough, ∀ log, (x fuel).run.run log = some (outcome, log ++ events)) ∧ ∀ e ∈ events, P e

theorem ends_pure (a : α) : Ends (fun _ => pure a) (.ok a) P :=
  ⟨0, [], fun _ _ log => by simp, by simp⟩

theorem ends_lift (x : Except Fault α) : Ends (fun _ => liftM x) x P :=
  ⟨0, [], fun _ _ log => by rw [List.append_nil]; rfl, by simp⟩

theorem ends_report {e : Event} (h : P e) : Ends (fun _ => report e) (.ok ()) P :=
  ⟨0, [e], fun _ _ _ => rfl, by simpa using h⟩

/-- A call takes one of the fuel. -/
theorem Ends.call {x : Nat → Course α} {outcome : Except Fault α} (h : Ends (fun fuel => x (fuel + 1)) outcome P) :
    Ends x outcome P := by
  obtain ⟨enough, events, hx, hevents⟩ := h
  refine ⟨enough + 1, events, fun fuel hfuel => ?_, hevents⟩
  obtain ⟨less, rfl⟩ : ∃ less, fuel = less + 1 := ⟨fuel - 1, by omega⟩
  exact hx less (by omega)

/-- Of two computations one after the other, the second one takes place if the first one does not fail. What is enough
for each of them is enough for both. -/
theorem Ends.bind {x : Nat → Course α} {f : Nat → α → Course β} {outcome : Except Fault α} {g : α → Except Fault β}
    (h : Ends x outcome P) (hf : ∀ a, outcome = .ok a → Ends (fun fuel => f fuel a) (g a) P) :
    Ends (fun fuel => x fuel >>= f fuel) (outcome >>= g) P := by
  obtain ⟨enough, events, hx, hevents⟩ := h
  cases outcome with
  | error e =>
    refine ⟨enough, events, fun fuel hfuel log => ?_, hevents⟩
    rw [ExceptT.run_bind, StateT.run_bind, hx fuel hfuel]
    rfl
  | ok a =>
    obtain ⟨enough', more, hy, hmore⟩ := hf a rfl
    refine ⟨max enough enough', events ++ more, fun fuel hfuel log => ?_, List.forall_mem_append.2 ⟨hevents, hmore⟩⟩
    obtain ⟨hfuel, hfuel'⟩ := max_le_iff.1 hfuel
    rw [ExceptT.run_bind, StateT.run_bind, hx fuel hfuel, ← List.append_assoc]
    exact hy fuel hfuel' _

theorem Ends.after_report {e : Event} {x : Nat → Course α} {outcome : Except Fault α} (h : P e)
    (hx : Ends x outcome P) : Ends (fun fuel => report e >>= fun _ => x fuel) outcome P :=
  (ends_report h).bind fun _ _ => hx

/-- What a computation does if a condition holds, and if it does not. -/
theorem Ends.ite {c : Prop} [Decidable c] {x y : Nat → Course α} {outcome outcome' : Except Fault α}
    (hx : c → Ends x outcome P) (hy : ¬c → Ends y outcome' P) :
    Ends (fun fuel => if c then x fuel else y fuel) (if c then outcome else outcome') P := by
  split
  · exact hx ‹c›
  · exact hy ‹¬c›

end Course

/-! ## Steps in a direction -/

namespace Coord

theorem add_origin (a : Coord) : a + .origin = a :=
  (Coord.mk.injEq ..).mpr ⟨Int.add_zero _, Int.add_zero _, Int.add_zero _, Int.add_zero _⟩

theorem scale_zero (direction : Coord) : direction.scale (0 : Nat) = .origin := by simp [scale, origin]

theorem origin_scale (k : Int) : origin.scale k = .origin := by simp [scale, origin]

theorem add_scale_succ (a direction : Coord) (count : Nat) :
    a + direction.scale count + direction = a + direction.scale (count + 1 : Nat) := by
  have axis (x y : Int) : x + y * count + y = x + y * (count + 1 : Nat) := by
    rw [Int.natCast_succ, Int.mul_add]
    omega
  exact (Coord.mk.injEq ..).mpr ⟨axis _ _, axis _ _, axis _ _, axis _ _⟩

end Coord

namespace Standing

variable {s : Standing} {book : RuleBook} {direction here : Coord} {limit : Number} {count : Nat} {budget : Budget}
  {entered : List Text}

/-- The piece stands on its square. -/
structure Occupies (s : Standing) : Prop where
  inside : s.board.contains s.square = true
  own : ∃ o, s.board.cell s.square = .ok (some o) ∧ o.asPiece = .ok s.piece

/-- Along an axis on which it moves, a walk makes fewer steps on the board than the board extends. -/
theorem lt_extent {a n d : Int} (ha : 0 ≤ a ∧ a < n) (hd : d ≠ 0) (hk : 0 ≤ a + d * count ∧ a + d * count < n) :
    (count : Int) < n := by
  obtain hneg | hpos := lt_or_gt_of_ne hd
  · have := Int.mul_le_mul_of_nonneg_right (show d ≤ -1 by omega) (Int.natCast_nonneg count)
    omega
  · have := Int.mul_le_mul_of_nonneg_right (show 1 ≤ d by omega) (Int.natCast_nonneg count)
    omega

/-- A walk makes fewer steps on the board than the largest extent. -/
theorem lt_span (hs : s.Occupies) (hdir : direction = .origin → count = 0)
    (hin : s.board.contains (s.square + direction.scale count) = true) : count < s.board.span := by
  obtain ⟨hx, hy, hz, hw⟩ := Board.contains_iff.1 hs.inside
  obtain ⟨hx', hy', hz', hw'⟩ := Board.contains_iff.1 hin
  simp only [Coord.add_x, Coord.add_y, Coord.add_z, Coord.add_w, Coord.scale] at hx' hy' hz' hw'
  unfold Board.span
  by_cases hdx : direction.x = 0
  · by_cases hdy : direction.y = 0
    · by_cases hdz : direction.z = 0
      · by_cases hdw : direction.w = 0
        · have hzero : direction = .origin := (Coord.mk.injEq ..).mpr ⟨hdx, hdy, hdz, hdw⟩
          have := hdir hzero
          omega
        · have := lt_extent hw hdw hw'
          omega
      · have := lt_extent hz hdz hz'
        omega
    · have := lt_extent hy hdy hy'
      omega
  · have := lt_extent hx hdx hx'
    omega

/-- As long as a count is no more than the largest extent, it is below a limit exactly if it is below the number of
steps worth trying. -/
theorem lt_limit_iff (hlimit : limit.ge (.int 1) = true) (hcount : count ≤ s.board.span) :
    (Number.int count).lt limit = true ↔ count < s.stepsWithin limit := by
  unfold stepsWithin
  cases hceil : limit.ceil? with
  | none =>
    simp only [Number.lt_of_ceil_eq_none hceil hlimit, true_iff]
    omega
  | some n =>
    rw [Number.lt_iff_lt_ceil hceil]
    simp only [lt_min_iff]
    omega

/-! ## Walks -/

/-- **A walk comes to an end**, and has found by then what a walk of a bounded number of steps finds. -/
theorem walkOn_ends (hs : s.Occupies) (hlimit : limit.ge (.int 1) = true) (capture : Bool)
    (hhere : here = s.square + direction.scale count) (hin : s.board.contains here = true)
    (hdir : direction = .origin → count = 0) :
    Course.Ends (fun fuel => s.walkOn direction limit capture fuel count here)
      (s.walk direction capture (s.stepsWithin limit - count) here) (s.board.Bounded book s.square) := by
  have hspan : count < s.board.span := lt_span hs hdir (hhere ▸ hin)
  -- the count grows and stays below the largest extent
  induction hrest : s.board.span - count generalizing count here with
  | zero => omega
  | succ rest ih =>
    have hlt := lt_limit_iff hlimit hspan.le
    have hstay (hzero : direction = .origin) : here + direction = s.square := by
      rw [hhere, hzero, Coord.origin_scale, Coord.add_origin, Coord.add_origin]
    refine Course.Ends.call ?_
    simp only [walkOn]
    by_cases hbelow : (Number.int count).lt limit = true
    · have hfuel : s.stepsWithin limit - count = s.stepsWithin limit - (count + 1) + 1 := by
        have := hlt.1 hbelow
        omega
      rw [hfuel, walk]
      simp only [if_pos hbelow]
      have hround : s.board.Bounded book s.square (.round direction (count + 1) (here + direction)) :=
        ⟨hspan, fun hzero => ⟨by rw [hdir hzero], hstay hzero⟩⟩
      refine Course.Ends.after_report hround ?_
      refine Course.Ends.ite (fun hnext => ?_) fun _ => Course.ends_pure _
      refine (Course.ends_lift _).bind fun o ho => ?_
      cases o with
      | none =>
        -- a walk that leads nowhere would have met its own piece
        have hne : direction ≠ .origin := by
          intro hzero
          obtain ⟨own, hown, -⟩ := hs.own
          rw [hstay hzero, hown] at ho
          cases ho
        have hhere' : here + direction = s.square + direction.scale (count + 1 : Nat) := by
          rw [hhere, Coord.add_scale_succ]
        have hdir' : direction = .origin → count + 1 = 0 := fun hzero => absurd hzero hne
        have hspan' := lt_span hs hdir' (hhere' ▸ hnext)
        exact (ih hhere' hnext hdir' hspan' (by omega)).bind fun _ _ => Course.ends_pure _
      | some o => exact (Course.ends_lift _).bind fun other _ => Course.ends_pure _
    · have hfuel : s.stepsWithin limit - count = 0 := Nat.sub_eq_zero_of_le (not_lt.1 fun h => hbelow (hlt.2 h))
      rw [hfuel, walk]
      simp only [if_neg hbelow]
      exact Course.ends_pure _

end Standing

/-- The limit on steps, if there is one, is at least one. -/
def Budget.Positive (budget : Budget) : Prop := ∀ steps ∈ budget.steps, steps.ge (.int 1) = true

theorem Budget.Positive.within {budget : Budget} (h : budget.Positive) (terms : Terms) :
    (budget.within terms).Positive := by
  intro steps hsteps
  rw [Budget.within, Option.orElse_eq_orElse, Option.orElse_eq_or, Option.mem_def, Option.or_eq_some_iff] at hsteps
  obtain houter | ⟨-, hinner⟩ := hsteps
  · exact h steps houter
  · exact (Option.filter_eq_some_iff.1 hinner).2

namespace Standing

variable {s : Standing} {book : RuleBook} {budget : Budget} {entered : List Text}

theorem rayOn_ends (hs : s.Occupies) (direction : Coord) (hbudget : budget.Positive) :
    Course.Ends (fun fuel => s.rayOn fuel direction budget) (s.ray direction budget)
      (s.board.Bounded book s.square) := by
  unfold rayOn ray
  cases hsteps : budget.steps with
  | none => exact Course.ends_pure _
  | some steps =>
    cases budget.captures with
    | none => exact Course.ends_pure _
    | some captures =>
      have hhere : s.square = s.square + direction.scale (0 : Nat) := by rw [Coord.scale_zero, Coord.add_origin]
      exact (walkOn_ends hs (hbudget steps hsteps) (0 < captures) hhere hs.inside fun _ => rfl).bind fun _ _ =>
        Course.ends_pure _

/-! ## Paths -/

/-- A path is evaluated before the paths behind it. -/
theorem evaluateAll_cons_ends {P : Event → Prop} {path : Path} {rest : List Path}
    {first more : Except Fault (List Move)}
    (hpath : Course.Ends (fun fuel => s.evaluate book (fuel + 1) entered path budget) first P)
    (hrest : Course.Ends (fun fuel => s.evaluateAll book fuel entered rest budget) more P) :
    Course.Ends (fun fuel => s.evaluateAll book fuel entered (path :: rest) budget)
      (do let moves ← first; return moves ++ (← more)) P :=
  Course.Ends.call (hpath.call.bind fun _ _ => hrest.bind fun _ _ => Course.ends_pure _)

/-- **An evaluation of paths comes to an end**, whatever the references lead to: the kinds that can still be entered
become fewer with every rule that is opened. -/
theorem evaluateAll_ends (hs : s.Occupies) (hroom : s.room = none) (paths : List Path) {bound : Nat}
    (hbound : book.unentered entered < bound) (hnodup : entered.Nodup) (hids : ∀ id ∈ entered, id ∈ book.ids)
    (depth : Nat) (hbudget : budget.Positive) :
    Course.Ends (fun fuel => s.evaluateAll book fuel entered paths budget)
      (s.pathsMoves (s.follow book bound entered) depth paths budget) (s.board.Bounded book s.square) := by
  have hdepth := checkDepth_of_room_eq_none hroom
  induction entered, paths using RuleBook.chains.induct book generalizing bound depth budget with
  | case1 entered =>
    rw [pathsMoves]
    exact Course.Ends.call (Course.ends_pure _)
  | case2 entered terms direction rest ih =>
    rw [pathsMoves, pathMoves, hdepth, Outcome.ok_bind]
    refine evaluateAll_cons_ends ?_ (ih hbound hnodup hids depth hbudget)
    simp only [evaluate]
    exact (Course.ends_lift _).bind fun holds _ =>
      Course.Ends.ite (fun _ => rayOn_ends hs direction (hbudget.within terms)) fun _ => Course.ends_pure _
  | case3 entered terms below rest ihbelow ih =>
    rw [pathsMoves, pathMoves, hdepth, Outcome.ok_bind]
    refine evaluateAll_cons_ends ?_ (ih hbound hnodup hids depth hbudget)
    simp only [evaluate]
    exact (Course.ends_lift _).bind fun holds _ =>
      Course.Ends.ite (fun _ => ihbelow hbound hnodup hids (depth + 1) (hbudget.within terms)) fun _ =>
        Course.ends_pure _
  | case4 entered terms rest ih =>
    rw [pathsMoves, pathMoves, hdepth, Outcome.ok_bind]
    refine evaluateAll_cons_ends ?_ (ih hbound hnodup hids depth hbudget)
    simp only [evaluate]
    exact (Course.ends_lift _).bind fun _ _ => Course.ends_pure _
  | case5 entered id rest ihrule ih =>
    rw [pathsMoves, pathMoves, hdepth, Outcome.ok_bind]
    refine evaluateAll_cons_ends ?_ (ih hbound hnodup hids depth hbudget)
    obtain ⟨bound, rfl⟩ := Nat.exists_eq_succ_of_ne_zero (Nat.ne_zero_of_lt hbound)
    simp only [evaluate, follow]
    refine Course.Ends.ite (fun _ => Course.ends_pure _) fun hid => ?_
    rw [List.contains_iff_mem] at hid
    refine (Course.ends_lift _).bind fun rule hrule => ?_
    have hless := RuleBook.unentered_lt hid hrule
    have hnodup' : (id :: entered).Nodup := List.nodup_cons.2 ⟨hid, hnodup⟩
    have hids' : ∀ kind ∈ id :: entered, kind ∈ book.ids :=
      List.forall_mem_cons.2 ⟨RuleBook.mem_ids_of_get hrule, hids⟩
    refine Course.Ends.after_report ⟨hnodup', RuleBook.length_le_ids hnodup' hids'⟩ ?_
    exact ihrule hid rule (RuleBook.get_eq_ok_iff.1 hrule) (by omega) hnodup' hids' (depth + 2) hbudget

end Standing

/-! ## The search -/

namespace Board

variable {b : Board} {c : Coord}

/-- A search comes to an end with the candidate moves, as they are without a limit on nesting. -/
theorem search_ends_unlimited (b : Board) (book : RuleBook) (c : Coord) :
    Course.Ends (fun fuel => b.search book fuel c) (b.candidates book.unlimited c) (b.Bounded book c) := by
  unfold search candidates
  refine (Course.ends_lift _).bind fun o ho => ?_
  cases o with
  | none => exact Course.ends_pure _
  | some o =>
    refine (Course.ends_lift _).bind fun piece hpiece => (Course.ends_lift _).bind fun rule hrule => ?_
    obtain ⟨hin, hcell⟩ := contains_of_get ho
    have hget := RuleBook.get_display hrule
    have hids : ∀ id ∈ [piece.id.display], id ∈ book.ids := by simpa using RuleBook.mem_ids_of_get hget
    have hnodup := List.nodup_singleton piece.id.display
    refine Course.Ends.after_report ⟨hnodup, RuleBook.length_le_ids hnodup hids⟩ ?_
    have hunset : Budget.Positive {} := fun _ h => absurd h (Option.not_mem_none _)
    have hends := Standing.evaluateAll_ends (s := b.standing piece c) ⟨hin, o, hcell, hpiece⟩ rfl rule.roots
      (RuleBook.unentered_singleton_lt hget) hnodup hids 0 hunset
    rw [← Standing.follow_unlimited] at hends
    exact hends

/-- **The search for moves comes to an end**, for all rules, boards and squares: there is an amount of fuel that is
enough. It ends with the candidate moves, unless these are refused because the rules are nested too deeply. No kind is
entered twice on the way to a rule, so no more rules are open at the same time than the book has, and no walk goes into
more rounds than the largest extent of the board; one that leads nowhere ends in its first round, on the square of its
own piece. -/
theorem search_ends (b : Board) (book : RuleBook) (c : Coord) : ∃ outcome events,
    (∃ enough, ∀ fuel ≥ enough, (b.search book fuel c).result = some (outcome, events)) ∧
    (b.candidates book c = outcome ∨ book.room ≠ none ∧ b.candidates book c = .error .tooDeep) ∧
    (∀ kinds, .entered kinds ∈ events → kinds.Nodup ∧ kinds.length ≤ book.ids.length) ∧
    ∀ direction count square, .round direction count square ∈ events →
      count ≤ b.span ∧ (direction = .origin → count = 1 ∧ square = c) := by
  obtain ⟨enough, events, hrun, hevents⟩ := b.search_ends_unlimited book c
  exact ⟨_, events, ⟨enough, fun fuel hfuel => hrun fuel hfuel []⟩, b.candidates_eq_or_tooDeep book c,
    fun _ h => hevents _ h, fun _ _ _ h => hevents _ h⟩

end Board

end Hyperchess
