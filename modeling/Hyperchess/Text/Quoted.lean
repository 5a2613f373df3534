import Hyperchess.Text
import Hyperchess.Text.Printable

/-!
# Quoted texts

The form in which messages show a text: between single quotes, or double quotes if it holds a single quote and no
double one, with escapes for the quote, the backslash and everything that is not printable, also halves of pairs: a
quoted text is a string.
-/

namespace Hyperchess.Text

/-- `n` in hexadecimal, lower case, with at least `width` digits. -/
def hex (width n : Nat) : List Char :=
  let digits := Nat.toDigits 16 n
  List.replicate (width - digits.length) '0' ++ digits

/-- The escape of a code. -/
def codeEscape (n : Nat) : List Char :=
  if n < 0x100 then '\\' :: 'x' :: hex 2 n
  else if n < 0x10000 then '\\' :: 'u' :: hex 4 n
  else '\\' :: 'U' :: hex 8 n

/-- One character inside quotes of the kind `quote`. -/
def quotedChar (quote c : Char) : List Char :=
  if c = quote ∨ c = '\\' then ['\\', c]
  else if c = '\t' then ['\\', 't']
  else if c = '\n' then ['\\', 'n']
  else if c = '\r' then ['\\', 'r']
  else if isPrintable c then [c]
  else codeEscape c.toNat

/-- One code point inside quotes of the kind `quote`. -/
def quotedPoint (quote : Char) : CodePoint → List Char
  | .char c => quotedChar quote c
  | .half n => codeEscape (CodePoint.half n).code

/-- The quotation mark that needs the fewest escapes; the single one unless only it occurs. -/
def quoteFor (cs : List Char) : Char :=
  if cs.contains '\'' && !cs.contains '"' then '"' else '\''

/-- The text between quotes. -/
def quoted (t : Text) : String :=
  let quote := quoteFor t.chars
  String.ofList (quote :: (t.points.flatMap (quotedPoint quote) ++ [quote]))

end Hyperchess.Text
