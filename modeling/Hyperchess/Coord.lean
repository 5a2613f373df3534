import Hyperchess.Data
import Hyperchess.Error

/-!
# Coordinates

Squares of a board with four axes, and the offsets between them. A coordinate has a text `x,y,z,w` that can be read
back, and a label for people, in which the axes `x` and `z` are letters and `y` and `w` are numbers from one.
-/

namespace Hyperchess

/-- A square, or the offset from one square to another. -/
structure Coord where
  x : Int
  y : Int
  z : Int
  w : Int
  deriving DecidableEq, Repr, Inhabited

namespace Coord

/-- The square in the first corner; the offset that leads nowhere. -/
def origin : Coord := ⟨0, 0, 0, 0⟩

/-- The sum of a square and an offset, axis by axis. -/
def add (a b : Coord) : Coord := ⟨a.x + b.x, a.y + b.y, a.z + b.z, a.w + b.w⟩

instance : Add Coord := ⟨add⟩

@[simp] theorem add_x (a b : Coord) : (a + b).x = a.x + b.x := rfl
@[simp] theorem add_y (a b : Coord) : (a + b).y = a.y + b.y := rfl
@[simp] theorem add_z (a b : Coord) : (a + b).z = a.z + b.z := rfl
@[simp] theorem add_w (a b : Coord) : (a + b).w = a.w + b.w := rfl

/-- Every axis multiplied by an integer. -/
def scale (a : Coord) (k : Int) : Coord := ⟨a.x * k, a.y * k, a.z * k, a.w * k⟩

/-- An integer times a floating point number, cut to an integer. -/
def scaleAxis (n : Int) (k : Binary64) : Except Fault Int :=
  match Binary64.ofInt n with
  | .infinite _ => .error .tooLarge
  | x => .ok ((x.mul k).truncate?.getD 0)

/-- Every axis multiplied by a number; the products of a floating point number are cut to integers. -/
def scaleBy (a : Coord) : Number → Except Fault Coord
  | .int k => .ok (a.scale k)
  | .float k => do
    return ⟨← scaleAxis a.x k, ← scaleAxis a.y k, ← scaleAxis a.z k, ← scaleAxis a.w k⟩

/-- The axes in the order in which a board nests them. -/
def nested (a : Coord) : List Int := [a.w, a.z, a.y, a.x]

/-- The axes in the order of the text. -/
def axes (a : Coord) : List Int := [a.x, a.y, a.z, a.w]

/-- The order in which a board's squares are visited. -/
def visitedBefore (a b : Coord) : Bool :=
  a.w < b.w || (a.w == b.w && (a.z < b.z || (a.z == b.z && (a.y < b.y || (a.y == b.y && a.x < b.x)))))

/-! ## Texts -/

/-- The text of a coordinate, as characters. -/
def chars (a : Coord) : List Char :=
  Integer.literal a.x ++ ',' :: Integer.literal a.y ++ ',' :: Integer.literal a.z ++ ',' :: Integer.literal a.w

/-- The text of a coordinate, `x,y,z,w`. -/
def text (a : Coord) : String := String.ofList a.chars

/-- The axis that a written part stands for: zero if it is no integer. -/
def axisOf (part : List Char) : Int :=
  (Integer.parse? (Text.trim Text.isBlank part)).getD 0

/-- The first four of these axes, missing ones being zero. -/
def ofAxes (axes : List Int) : Coord :=
  ⟨axes.getD 0 0, axes.getD 1 0, axes.getD 2 0, axes.getD 3 0⟩

/-- The coordinate that the characters stand for: parts between commas, further parts being ignored. -/
def ofChars (cs : List Char) : Coord :=
  ofAxes ((cs.splitOn ',').map axisOf)

/-- The coordinate that a text stands for. -/
def ofText (t : Text) : Coord := ofChars t.chars

/-! ## Labels -/

/-- The letters of a number: `a` to `z`, then `aa` and on. The fuel bounds the number of letters. -/
def lettersFrom : (fuel : Nat) → Int → List Char → List Char
  | 0, _, behind => behind
  | fuel + 1, n, behind =>
    let digit := n % 26
    let front := (n - digit) / 26
    let letters := Char.ofNat (97 + digit.toNat) :: behind
    if 0 < front then lettersFrom fuel (front - 1) letters else letters

/-- The letters of a number; a number below zero has the letter of its remainder. -/
def letterChars (n : Int) : List Char := lettersFrom (n.natAbs.log2 + 1) n []

/-- The letters of a number as a text. -/
def letters (n : Int) : String := String.ofList (letterChars n)

/-- The label of a coordinate, as characters. -/
def labelChars (a : Coord) : List Char :=
  letterChars a.x ++ Integer.literal (a.y + 1) ++ letterChars a.z ++ Integer.literal (a.w + 1)

/-- The label of a coordinate: `b3d5` for `x = 1`, `y = 2`, `z = 3`, `w = 4`. -/
def label (a : Coord) : String := String.ofList a.labelChars

/-! ## Limits

A coordinate can be so far away that it cannot be written any more: integers may have so many digits, and so many
letters can be put in front of one another.
-/

/-- No axis has more digits than a limit, if there is one. -/
def isWithin (limit : Option Nat) (a : Coord) : Bool := a.axes.all (Integer.isWithin limit)

/-- Refuses an integer with more digits than a literal may have. -/
def checkDigits (n : Int) : Except Fault Unit := if Integer.isWritable n then .ok () else .error .tooManyDigits

/-- Refuses an integer with more letters than a limit, if there is one. -/
def checkLetters (limit : Option Nat) (n : Int) : Except Fault Unit :=
  if limit.all fun most => (letterChars n).length ≤ most then .ok () else .error .tooDeep

/-- The letters of a number, unless there are more than a limit. -/
def spelled (limit : Option Nat) (n : Int) : Except Fault String := do
  checkLetters limit n
  return letters n

/-- The text of a coordinate, unless an axis has more digits than a limit. -/
def written (a : Coord) (limit : Option Nat := some Integer.digitLimit) : Except Fault String :=
  if a.isWithin limit then .ok a.text else .error (.tooManyDigits limit)

/-- The label of a coordinate, unless an axis is too large for one or has more letters than a limit. -/
def labelled (limit : Option Nat) (a : Coord) : Except Fault String := do
  checkLetters limit a.x
  checkDigits (a.y + 1)
  checkLetters limit a.z
  checkDigits (a.w + 1)
  return a.label

/-! ## Reading from data -/

/-- The axis that a value stands for: a truth value is zero or one, a fraction is cut, what is no number is zero. -/
def axisOfData : Data → Int
  | .bool b => if b then 1 else 0
  | .int n => n
  | .float x => x.truncate?.getD 0
  | .text s => (Integer.parse? s.chars).getD 0
  | _ => 0

/-- The coordinate with these axes; more than four are refused. -/
def ofItems (items : List Data) : Except Fault Coord :=
  if items.length ≤ 4 then .ok (ofAxes (items.map axisOfData)) else .error .wrongType

end Coord

end Hyperchess
