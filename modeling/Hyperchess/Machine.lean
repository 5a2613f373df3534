import Hyperchess.Error

/-!
# Machines

What the machine that a program runs on allows: how many items fit into a list, which arrays can be made, and how long
the integers are that can be written. A program that asks for more than that fails with a fault of the machine's own.
The limit on digits is a setting of the runtime, which can be raised or lifted.
-/

namespace Hyperchess

/-- What a machine allows. -/
structure Machine where
  /-- There is room for a list of so many items. -/
  fits : Nat → Bool := fun _ => true
  /-- Refuses the extents of an array that cannot be made. -/
  array : List Int → Except Fault Unit := fun _ => .ok ()
  /-- The largest number of digits of an integer that is written, if there is a limit. -/
  digits : Option Nat := some Integer.digitLimit
  deriving Inhabited

end Hyperchess
