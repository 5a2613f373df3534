import Hyperchess.Text

/-!
# Lines

The lines of a text. A line ends with a break of any kind, a carriage return and a line feed behind it being one break;
the last line may end without one.
-/

namespace Hyperchess.Text

/-- A character that ends a line: line feeds and tabs, page breaks, the three larger separators, and the breaks of other
scripts. -/
def isLineBreak (c : Char) : Bool :=
  let n := c.toNat
  (10 ≤ n && n ≤ 13) || (28 ≤ n && n ≤ 30) || n == 0x85 || n == 0x2028 || n == 0x2029

/-- The lines of code points, of which the first one begins with `line`, in reverse. -/
def linesFrom (line : List CodePoint) : List CodePoint → List (List CodePoint)
  | [] => if line.isEmpty then [] else [line.reverse]
  | .char '\r' :: .char '\n' :: rest => line.reverse :: linesFrom [] rest
  | p :: rest => if isLineBreak p.toChar then line.reverse :: linesFrom [] rest else linesFrom (p :: line) rest

/-- The lines of a text. -/
def lines (t : Text) : List Text := (linesFrom [] t.points).map Text.mk

end Hyperchess.Text
