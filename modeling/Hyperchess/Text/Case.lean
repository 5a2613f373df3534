import Hyperchess.Text
import Hyperchess.Text.CaseTable

/-!
# Upper and lower case

Texts are mapped character by character, halves of pairs to themselves; one character may become several (`ß` is `SS`
in upper case), and a capital sigma that ends a word becomes the final form in lower case.
-/

namespace Hyperchess.Text

namespace Case

/-- The image of a code point under one run. -/
def Run.image? (r : Run) (n : Nat) : Option Nat :=
  if r.first ≤ n ∧ n ≤ r.last ∧ (n - r.first) % r.stride = 0 then some ((n : Int) + r.shift).toNat else none

/-- The image of a code point under the first run that holds it, itself if none does. -/
def image (runs : List Run) (n : Nat) : Nat :=
  (runs.findSome? fun r => r.image? n).getD n

/-- The code point lies in one of the inclusive ranges. -/
def within (ranges : List (Nat × Nat)) (n : Nat) : Bool :=
  ranges.any fun r => r.1 ≤ n && n ≤ r.2

/-- A letter with case. -/
def isCased (c : Char) : Bool := within casedRanges c.toNat

/-- A mark that is skipped when a sigma's surroundings are examined. -/
def isIgnorable (c : Char) : Bool := within ignorableRanges c.toNat

/-- The nearest code point that is not skipped is a letter with case. -/
def isNextCased (ps : List CodePoint) : Bool :=
  (ps.dropWhile fun p => isIgnorable p.toChar).head?.any fun p => isCased p.toChar

/-- A sigma is final if the nearest letter before it has case and the nearest one behind it has not. -/
def isFinal (before behind : List CodePoint) : Bool := isNextCased before && !isNextCased behind

end Case

open Case

/-- The upper case of one character. -/
def upperChar (c : Char) : List Char :=
  if c.toNat < 128 then [c.toUpper]
  else
    match upperMany.find? fun entry => entry.1 == c.toNat with
    | some entry => entry.2.map Char.ofNat
    | none => [Char.ofNat (image upperRuns c.toNat)]

/-- The upper case of one code point; a half of a pair has no case. -/
def upperPoint : CodePoint → List CodePoint
  | .char c => (upperChar c).map .char
  | p => [p]

/-- The text in upper case. -/
def upper (t : Text) : Text := ⟨t.points.flatMap upperPoint⟩

/-- The lower case of one character between the code points before it, nearest first, and those behind it. -/
def lowerChar (before : List CodePoint) (c : Char) (behind : List CodePoint) : List Char :=
  if c.toNat < 128 then [c.toLower]
  else if c = 'Σ' then [if isFinal before behind then 'ς' else 'σ']
  else if c = 'İ' then ['i', '\u0307']
  else [Char.ofNat (image lowerRuns c.toNat)]

/-- The lower case of one code point between those before it, nearest first, and those behind it. -/
def lowerPoint (before : List CodePoint) (p : CodePoint) (behind : List CodePoint) : List CodePoint :=
  match p with
  | .char c => (lowerChar before c behind).map .char
  | p => [p]

/-- The lower case of the code points behind `before`, which is in reverse. -/
def lowerFrom (before : List CodePoint) : List CodePoint → List CodePoint
  | [] => []
  | p :: rest => lowerPoint before p rest ++ lowerFrom (p :: before) rest

/-- The text in lower case. -/
def lower (t : Text) : Text := ⟨lowerFrom [] t.points⟩

end Hyperchess.Text
