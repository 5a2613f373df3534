import Hyperchess.Piece

/-!
# Grids

A grid is an array of cells with a shape. The grid of a sound board has four axes and holds pieces or nothing; a
damaged one may have any number of axes and hold anything, so reading and writing can fail, and what is found may be no
piece. Main statements: an address determines a place below the number of cells (`locate_lt`), different addresses of
the same length determine different places (`locate_inj`).
-/

namespace Hyperchess

/-- What stands in a cell. -/
inductive Occupant where
  | piece (p : Piece)
  /-- Plain data that is no piece. The serial number tells equal values apart; it is 0 for those of which there is only
  one. -/
  | value (serial : Nat) (d : Data)
  /-- A cell of a grid of integers. -/
  | word (n : Int)
  /-- A part of a grid with more axes than the address: where its cells begin, and its shape. -/
  | part (start : Nat) (shape : List Nat)
  deriving DecidableEq, Repr, Inhabited

namespace Occupant

/-- The two are one individual. A cell of integers and a part of a grid are new ones each time that they are read. -/
def isSame : Occupant → Occupant → Bool
  | .piece p, .piece q => p = q
  | .value m d, .value n e => m = n && d = e
  | _, _ => false

/-- Two cells hold one individual, or both hold nothing. -/
def areSame : Option Occupant → Option Occupant → Bool
  | none, none => true
  | some a, some b => a.isSame b
  | _, _ => false

/-- The piece; nothing else has a kind and a team. -/
def asPiece : Occupant → Except Fault Piece
  | .piece p => .ok p
  | _ => .error .lacksMember

end Occupant

/-- What the cells of a grid can hold. -/
inductive CellKind where
  | anything
  | integers
  deriving DecidableEq, Repr, Inhabited

/-- The name of a kind of cell in messages. -/
def CellKind.name : CellKind → String
  | .anything => "object"
  | .integers => "int64"

/-- An array of cells. -/
structure Grid where
  shape : List Nat
  kind : CellKind
  cells : Array (Option Occupant)
  deriving Repr, Inhabited

namespace Grid

/-- The number of cells of a shape. -/
def volume (shape : List Nat) : Nat := shape.foldr (· * ·) 1

/-- A grid without pieces. -/
def empty (shape : List Nat) (kind : CellKind) : Grid :=
  ⟨shape, kind, Array.replicate (volume shape) (match kind with | .anything => none | .integers => some (.word 0))⟩

/-- The largest integer that a machine word, and so a cell of integers, holds. -/
def wordLimit : Int := Int.pow 2 63 - 1

/-- The place of an address in the array, and the shape that is left below it; nothing if the address is too long or
an entry too large. -/
def locate : (shape address : List Nat) → Option (Nat × List Nat)
  | shape, [] => some (0, shape)
  | [], _ :: _ => none
  | n :: shape, i :: address =>
    if i < n then (locate shape address).map fun r => (i * volume shape + r.1, r.2) else none

/-- A tuple of numbers, with `gap` between them. -/
def tupleBy (gap : String) (ns : List Nat) : String :=
  match ns with
  | [n] => "(" ++ Integer.text n ++ ",)"
  | _ => "(" ++ gap.intercalate (ns.map fun n : Nat => Integer.text n) ++ ")"

/-- A tuple of numbers. -/
def tuple (ns : List Nat) : String := tupleBy ", " ns

/-! ## Reading and writing -/

/-- What an address leads to. -/
def read (g : Grid) (address : List Nat) : Except Fault (Option Occupant) :=
  match locate g.shape address with
  | none => .error .badAddress
  | some (i, []) => .ok (g.cells.getD i none)
  | some (i, shape) => .ok (some (.part i shape))

/-- An integer that a cell of integers can hold. -/
def inWord (n : Int) : Except Fault Int := if n < -wordLimit - 1 ∨ wordLimit < n then .error .tooLarge else .ok n

/-- The integer that a cell of integers holds after being given a value. -/
def wordOf (d : Data) : Except Fault Int :=
  match d with
  | .text s =>
    match Integer.parse? s.chars with
    | some n => inWord n
    | none => .error (.badValue ("invalid literal for int() with base 10: " ++
        String.ofList (s.quoted.toList.take 200)))
  | .float .nan => .error (.badValue "cannot convert float NaN to integer")
  | .float (.infinite _) => .error .tooLarge
  | _ =>
    match d.number? with
    | some n => inWord n.truncate
    | none => .error .wrongType

/-- What a cell holds after being given `o`. -/
def stored (kind : CellKind) (o : Option Occupant) : Except Fault (Option Occupant) :=
  match kind, o with
  | .anything, o => .ok o
  | .integers, some (.word n) => .ok (some (.word n))
  | .integers, some (.value _ d) => do return some (.word (← wordOf d))
  | .integers, _ => .error .wrongType

/-- An array of occupants that is to be spread over a part of a grid. -/
structure Spread where
  shape : List Nat
  items : List (Option Occupant)
  deriving Repr

/-- The items of lists. -/
def inner (xs : List Data) : List Data := xs.flatMap fun x => match x with | .list items => items | _ => []

/-- The lengths of nested lists on the first `depth` levels, as far as all lists of a level have the same length, and
the values below them. -/
def levels : (depth : Nat) → List Data → List Nat × List Data
  | 0, xs => ([], xs)
  | depth + 1, xs =>
    match xs with
    | .list items :: rest =>
      if rest.all fun x => match x with | .list more => more.length = items.length | _ => false then
        let r := levels depth (inner xs)
        (items.length :: r.1, r.2)
      else ([], xs)
    | _ => ([], xs)

/-- The array that nested lists stand for, if its axes are at most `depth`. A grid of integers has no place for lists
below its axes. -/
def spreadOf (kind : CellKind) (depth serial : Nat) (d : Data) : Except Fault Spread := do
  let (shape, values) := levels depth [d]
  if kind = .integers && values.any fun x => match x with | .list _ => true | _ => false then
    throw (.badValue ("setting an array element with a sequence. The requested array " ++
      if shape.length = depth then "would exceed the maximum number of dimension of " ++ Integer.text depth ++ "."
      else "has an inhomogeneous shape after " ++ Integer.text shape.length ++ " dimensions. The detected shape was " ++
        tuple shape ++ " + inhomogeneous part."))
  let items ← values.mapM fun x => stored kind (if x = .null then none else some (.value serial x))
  return ⟨shape, items⟩

/-- The array that is to be spread over a part of the grid. -/
def spread (g : Grid) (shape : List Nat) (o : Option Occupant) : Except Fault Spread :=
  match o with
  | some (.value serial (.list items)) => spreadOf g.kind shape.length serial (.list items)
  | some (.part start inside) => .ok ⟨inside, (List.range (volume inside)).map fun j => g.cells.getD (start + j) none⟩
  | o => do return ⟨[], [← stored g.kind o]⟩

/-- The two axes agree, or the first one can be stretched. -/
def fits : (from_ to_ : List Nat) → Bool
  | m :: from_, n :: to_ => (m = n || m = 1) && fits from_ to_
  | [], _ => true
  | _ :: _, [] => false

/-- The place in an array of the item for the cell at place `i` of a shape: axes of length one are stretched. Both
shapes begin with the last axis. -/
def sourceOf : (from_ to_ : List Nat) → (i : Nat) → Nat
  | m :: from_, n :: to_, i => (if m = 1 then 0 else i % n) + m * sourceOf from_ to_ (i / n)
  | _, _, _ => 0

/-- The grid with something else at an address. If the address is short, an array is spread over the cells below it. -/
def write (g : Grid) (address : List Nat) (o : Option Occupant) : Except Fault Grid :=
  match locate g.shape address with
  | none => .error .badAddress
  | some (i, []) => do return { g with cells := g.cells.setIfInBounds i (← stored g.kind o) }
  | some (i, shape) => do
    let array ← g.spread shape o
    if !fits array.shape.reverse shape.reverse then
      throw (.badValue ("could not broadcast input array from shape " ++ tupleBy "," array.shape ++ " into shape " ++
        tupleBy "," shape))
    let items := array.items.toArray
    return { g with cells := (List.range (volume shape)).foldl (fun cells j =>
      cells.setIfInBounds (i + j) (items.getD (sourceOf array.shape.reverse shape.reverse j) none)) g.cells }

/-! ## Addresses -/

theorem locate_nil (shape : List Nat) : locate shape [] = some (0, shape) := by
  cases shape <;> rfl

/-- An address below an axis: its first entry is within the axis, the others lead on. -/
theorem locate_cons {n i k : Nat} {shape address rest : List Nat}
    (h : locate (n :: shape) (i :: address) = some (k, rest)) :
    i < n ∧ ∃ j, locate shape address = some (j, rest) ∧ k = i * volume shape + j := by
  rw [locate] at h
  split at h
  · rename_i hi
    obtain ⟨⟨j, r⟩, hj, e⟩ := Option.map_eq_some_iff.1 h
    cases e
    exact ⟨hi, j, hj, rfl⟩
  · cases h

/-- Whole rows fit below the row that `i` begins. -/
theorem row_le {i n v : Nat} (h : i < n) : i * v + v ≤ n * v := by
  have := Nat.mul_le_mul_right v (Nat.succ_le_of_lt h)
  rwa [Nat.succ_mul] at this

/-- An address leads to a place in the array. -/
theorem locate_le {shape address rest : List Nat} {i : Nat} (h : locate shape address = some (i, rest)) :
    i + volume rest ≤ volume shape := by
  induction address generalizing shape i with
  | nil =>
    rw [locate_nil] at h
    cases h
    omega
  | cons a address ih =>
    cases shape with
    | nil => cases h
    | cons n shape =>
      obtain ⟨ha, j, hj, rfl⟩ := locate_cons h
      have hle := row_le (v := volume shape) ha
      have hi := ih hj
      show a * volume shape + j + volume rest ≤ n * volume shape
      omega

/-- A full address leads to a place below the number of cells. -/
theorem locate_lt {shape address : List Nat} {i : Nat} (h : locate shape address = some (i, [])) :
    i < volume shape := by
  have : i + 1 ≤ volume shape := locate_le h
  omega

/-- Full addresses that lead to the same place are equal. -/
theorem locate_inj {shape a b : List Nat} {i : Nat} (h : locate shape a = some (i, []))
    (k : locate shape b = some (i, [])) : a = b := by
  induction shape generalizing a b i with
  | nil =>
    cases a with
    | nil => cases b with
      | nil => rfl
      | cons => cases k
    | cons => cases h
  | cons n shape ih =>
    cases a with
    | nil => cases h
    | cons x a =>
      cases b with
      | nil => cases k
      | cons y b =>
        obtain ⟨_, p, hp, rfl⟩ := locate_cons h
        obtain ⟨_, q, hq, e⟩ := locate_cons k
        have hpv := locate_lt hp
        have hqv := locate_lt hq
        rcases Nat.lt_trichotomy x y with hlt | rfl | hgt
        · have := row_le (v := volume shape) hlt
          omega
        · have : p = q := by omega
          subst this
          rw [ih hp hq]
        · have := row_le (v := volume shape) hgt
          omega

end Grid

end Hyperchess
