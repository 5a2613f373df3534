import Hyperchess.Number
import Hyperchess.Text.Quoted
import Hyperchess.Timestamp

/-!
# Plain data

What settings files, rule files and other untyped input consist of. Maps keep the order of their entries. Two values
count as the same if they are equal once truth values and integral floating point numbers are read as integers, times
are read in universal time, and the order of entries is disregarded (`Data.same`); this is an equivalence, since it
compares the images under one function (`Data.canonical`).
-/

namespace Hyperchess

/-- A plain value. -/
inductive Data where
  | null
  | bool (b : Bool)
  | int (n : Int)
  | float (x : Binary64)
  | text (s : Text)
  | time (t : Timestamp)
  | list (items : List Data)
  | map (entries : List (Data × Data))
  deriving Repr, Inhabited

namespace Data

/-! ## Equality -/

mutual

/-- Equality of plain values is decidable. -/
def decEq : (a b : Data) → Decidable (a = b)
  | .null, .null => isTrue rfl
  | .bool a, .bool b => if h : a = b then isTrue (by rw [h]) else isFalse fun e => h (by injection e)
  | .int a, .int b => if h : a = b then isTrue (by rw [h]) else isFalse fun e => h (by injection e)
  | .float a, .float b => if h : a = b then isTrue (by rw [h]) else isFalse fun e => h (by injection e)
  | .text a, .text b => if h : a = b then isTrue (by rw [h]) else isFalse fun e => h (by injection e)
  | .time a, .time b => if h : a = b then isTrue (by rw [h]) else isFalse fun e => h (by injection e)
  | .list a, .list b =>
    match decEqItems a b with
    | isTrue h => isTrue (by rw [h])
    | isFalse h => isFalse fun e => h (by injection e)
  | .map a, .map b =>
    match decEqEntries a b with
    | isTrue h => isTrue (by rw [h])
    | isFalse h => isFalse fun e => h (by injection e)
  | .null, .bool _ | .null, .int _ | .null, .float _ | .null, .text _
  | .null, .time _ | .null, .list _ | .null, .map _
  | .bool _, .null | .bool _, .int _ | .bool _, .float _ | .bool _, .text _
  | .bool _, .time _ | .bool _, .list _ | .bool _, .map _
  | .int _, .null | .int _, .bool _ | .int _, .float _ | .int _, .text _
  | .int _, .time _ | .int _, .list _ | .int _, .map _
  | .float _, .null | .float _, .bool _ | .float _, .int _ | .float _, .text _
  | .float _, .time _ | .float _, .list _ | .float _, .map _
  | .text _, .null | .text _, .bool _ | .text _, .int _ | .text _, .float _
  | .text _, .time _ | .text _, .list _ | .text _, .map _
  | .time _, .null | .time _, .bool _ | .time _, .int _ | .time _, .float _
  | .time _, .text _ | .time _, .list _ | .time _, .map _
  | .list _, .null | .list _, .bool _ | .list _, .int _ | .list _, .float _
  | .list _, .text _ | .list _, .time _ | .list _, .map _
  | .map _, .null | .map _, .bool _ | .map _, .int _ | .map _, .float _
  | .map _, .text _ | .map _, .time _ | .map _, .list _ =>
    isFalse (by intro e; cases e)

/-- Equality of lists of plain values is decidable. -/
def decEqItems : (a b : List Data) → Decidable (a = b)
  | [], [] => isTrue rfl
  | x :: a, y :: b =>
    match decEq x y, decEqItems a b with
    | isTrue h, isTrue t => isTrue (by rw [h, t])
    | isFalse h, _ => isFalse fun e => h (by injection e)
    | _, isFalse t => isFalse fun e => t (by injection e)
  | [], _ :: _ | _ :: _, [] => isFalse (by intro e; cases e)

/-- Equality of entry lists is decidable. -/
def decEqEntries : (a b : List (Data × Data)) → Decidable (a = b)
  | [], [] => isTrue rfl
  | (k, x) :: a, (l, y) :: b =>
    match decEq k l, decEq x y, decEqEntries a b with
    | isTrue h, isTrue t, isTrue r => isTrue (by rw [h, t, r])
    | isFalse h, _, _ => isFalse fun e => h (by injection e with e _; injection e)
    | _, isFalse t, _ => isFalse fun e => t (by injection e with e _; injection e)
    | _, _, isFalse r => isFalse fun e => r (by injection e)
  | [], _ :: _ | _ :: _, [] => isFalse (by intro e; cases e)

end

instance : DecidableEq Data := decEq

/-! ## Texts of values -/

mutual

/-- The form in which messages show a value inside others. -/
def literal : Data → String
  | .null => "None"
  | .bool b => if b then "True" else "False"
  | .int n => Integer.text n
  | .float x => x.text
  | .text s => Text.quoted s
  | .time t => t.literal
  | .list items => "[" ++ ", ".intercalate (literalItems items) ++ "]"
  | .map entries => "\x7b" ++ ", ".intercalate (literalEntries entries) ++ "\x7d"

/-- The forms in which messages show items. -/
def literalItems : List Data → List String
  | [] => []
  | x :: rest => literal x :: literalItems rest

/-- The forms in which messages show keys with their values. -/
def literalEntries : List (Data × Data) → List String
  | [] => []
  | (k, x) :: rest => (literal k ++ ": " ++ literal x) :: literalEntries rest

end

/-- The form in which messages show a value of its own: a text without quotes, a point in time as it is written. -/
def display : Data → Text
  | .text s => s
  | .time t => t.text
  | d => d.literal

/-! ## Sameness -/

/-- Insertion of an entry in front of the first one whose key is shown as a text that comes later. -/
def insertEntry (e : Data × Data) : List (Data × Data) → List (Data × Data)
  | [] => [e]
  | f :: rest => if e.1.literal < f.1.literal then e :: f :: rest else f :: insertEntry e rest

mutual

/-- Truth values and integral floating point numbers read as integers, times in universal time, and entries in an order
that their keys determine, at every depth. -/
def canonical : Data → Data
  | .bool b => .int (if b then 1 else 0)
  | .float x =>
    match x.units? with
    | some u => if u % Binary64.unitsPerOne = 0 then .int (u / Binary64.unitsPerOne) else .float x
    | none => .float x
  | .list items => .list (canonicalItems items)
  | .map entries => .map (canonicalEntries entries)
  | .time t => .time t.universal
  | .null => .null
  | .int n => .int n
  | .text s => .text s

/-- The canonical forms of items. -/
def canonicalItems : List Data → List Data
  | [] => []
  | x :: rest => canonical x :: canonicalItems rest

/-- The canonical forms of keys and values, in order. -/
def canonicalEntries : List (Data × Data) → List (Data × Data)
  | [] => []
  | (k, x) :: rest => insertEntry (canonical k, canonical x) (canonicalEntries rest)

end

/-- The two values count as the same. -/
def same (a b : Data) : Bool :=
  match a, b with
  | .int m, .int n => m == n
  | .text s, .text t => s == t
  | _, _ => decide (a.canonical = b.canonical)

theorem same_iff {a b : Data} : a.same b = true ↔ a.canonical = b.canonical := by
  unfold same
  split
  · simp [canonical]
  · simp [canonical]
  · simp

theorem same_self (a : Data) : a.same a = true := same_iff.2 rfl

theorem same_comm (a b : Data) : a.same b = b.same a := by
  rw [Bool.eq_iff_iff, same_iff, same_iff, eq_comm]

theorem same_trans {a b c : Data} (h : a.same b = true) (k : b.same c = true) : a.same c = true :=
  same_iff.2 ((same_iff.1 h).trans (same_iff.1 k))

/-- Values that count as the same are compared alike with any other. -/
theorem same_congr {a b : Data} (h : a.same b = true) (c : Data) : a.same c = b.same c := by
  rw [Bool.eq_iff_iff, same_iff, same_iff, same_iff.1 h]

/-- The value, or one that counts as the same, is in the list. -/
def isIn (x : Data) (items : List Data) : Bool := items.any (·.same x)

/-- The items without those that count as the same as an earlier one. -/
def distinct (items : List Data) : List Data :=
  (items.foldl (fun seen x => if x.isIn seen then seen else x :: seen) []).reverse

/-- Lists and maps cannot be members of a set or keys of a map. -/
def isKey : Data → Bool
  | .list _ | .map _ => false
  | _ => true

/-! ## Maps -/

/-- The value of the first entry with this key. -/
def lookup (key : Data) (entries : List (Data × Data)) : Option Data :=
  (entries.find? fun e => e.1.same key).map (·.2)

/-- The entry for a key is replaced where it stands, a new one is put at the end. -/
def put (entries : List (Data × Data)) (key value : Data) : List (Data × Data) :=
  match entries with
  | [] => [(key, value)]
  | e :: rest => if e.1.same key then (e.1, value) :: rest else e :: put rest key value

/-- The value that a map has for a text key. -/
def get? (d : Data) (key : Text) : Option Data :=
  match d with
  | .map entries => lookup (.text key) entries
  | _ => none

/-! ## Readings -/

/-- False for null, false, zero and everything empty. -/
def truthy : Data → Bool
  | .null => false
  | .bool b => b
  | .int n => n != 0
  | .float x => x.units? != some 0
  | .text s => !s.isEmpty
  | .time _ => true
  | .list items => !items.isEmpty
  | .map entries => !entries.isEmpty

/-- The number that a value stands for, a truth value counting as zero or one. -/
def number? : Data → Option Number
  | .bool b => some (.int (if b then 1 else 0))
  | .int n => some (.int n)
  | .float x => some (.float x)
  | _ => none

/-- The name of the kind of value that messages use. -/
def kindName : Data → String
  | .null => "NoneType"
  | .bool _ => "bool"
  | .int _ => "int"
  | .float _ => "float"
  | .text _ => "str"
  | .time (.day _) => "date"
  | .time _ => "datetime"
  | .list _ => "list"
  | .map _ => "dict"

/-- Insertion of `x` behind the items that are not larger, in an order given by `lt`. -/
def insertBy (lt : Data → Data → Bool) (x : Data) : List Data → List Data
  | [] => [x]
  | y :: rest => if lt x y then x :: y :: rest else y :: insertBy lt x rest

/-- The two values have an order: both are numbers, both texts, or both points in time of one kind. -/
def isComparable (a b : Data) : Bool :=
  match a, b with
  | .text _, .text _ => true
  | .time s, .time t => s.isComparable t
  | _, _ => a.number?.isSome && b.number?.isSome

/-- Whether `a` comes before `b`: numbers by value, texts by code points, points in time from early to late. -/
def before (a b : Data) : Bool :=
  match a, b with
  | .text s, .text t => s.before t
  | .time s, .time t => s.before t
  | _, _ =>
    match a.number?, b.number? with
    | some m, some n => m.lt n
    | _, _ => false

/-- Any two of the items have an order. -/
def areComparable : List Data → Bool
  | [] => true
  | x :: rest => rest.all x.isComparable

/-- The items in increasing order, if any two of them have an order. -/
def sorted? (items : List Data) : Option (List Data) :=
  if areComparable items then some (items.foldl (fun done x => insertBy before x done) []) else none

/-! ## Limits -/

mutual

/-- No integer in the value has more digits than a limit, if there is one. -/
def isWithin (limit : Option Nat) : Data → Bool
  | .int n => Integer.isWithin limit n
  | .list items => areWithin limit items
  | .map entries => areWithinEntries limit entries
  | _ => true

/-- No integer in the items has too many digits. -/
def areWithin (limit : Option Nat) : List Data → Bool
  | [] => true
  | x :: rest => isWithin limit x && areWithin limit rest

/-- No integer in the entries has too many digits. -/
def areWithinEntries (limit : Option Nat) : List (Data × Data) → Bool
  | [] => true
  | (k, x) :: rest => isWithin limit k && isWithin limit x && areWithinEntries limit rest

end

theorem areWithin_iff {limit : Option Nat} {items : List Data} :
    areWithin limit items = true ↔ ∀ x ∈ items, x.isWithin limit = true := by
  induction items with
  | nil => simp [areWithin]
  | cons x rest ih => simp [areWithin, ih]

theorem areWithinEntries_iff {limit : Option Nat} {entries : List (Data × Data)} :
    areWithinEntries limit entries = true ↔ ∀ e ∈ entries, e.1.isWithin limit = true ∧ e.2.isWithin limit = true := by
  induction entries with
  | nil => simp [areWithinEntries]
  | cons e rest ih => rw [areWithinEntries, Bool.and_eq_true, Bool.and_eq_true, ih, List.forall_mem_cons]

/-- No integer in the value has more digits than a literal may have. -/
def isWritable (d : Data) : Bool := d.isWithin (some Integer.digitLimit)

mutual

/-- How many lists and maps are inside one another. -/
def depth : Data → Nat
  | .list items => depthOfItems items + 1
  | .map entries => depthOfEntries entries + 1
  | _ => 0

/-- How many lists and maps are inside one another in items. -/
def depthOfItems : List Data → Nat
  | [] => 0
  | x :: rest => max (depth x) (depthOfItems rest)

/-- How many lists and maps are inside one another in entries. -/
def depthOfEntries : List (Data × Data) → Nat
  | [] => 0
  | (k, x) :: rest => max (max (depth k) (depth x)) (depthOfEntries rest)

end

/-- No more lists and maps than a limit are inside one another, if there is one. -/
def isShallow (limit : Option Nat) (d : Data) : Bool := limit.all fun most => d.depth ≤ most

end Data

end Hyperchess
