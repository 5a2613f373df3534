import Hyperchess.Number.Integer

/-!
# Points in time

A calendar day, or a time of a day, with or without an offset from universal time. Days are counted from 1970
(`Date.number`); times with an offset are compared in universal time (`Timestamp.universal`), and there is no order
between days, times, and times with an offset (`Timestamp.isComparable`).
-/

namespace Hyperchess

/-- A day of the calendar. -/
structure Date where
  year : Int
  month : Nat
  day : Nat
  deriving DecidableEq, Repr, Inhabited

namespace Date

/-- The year has a 29th of February. -/
def isLeap (year : Int) : Bool := year % 4 == 0 && (year % 100 != 0 || year % 400 == 0)

/-- The number of days of a month. -/
def monthLength (year : Int) (month : Nat) : Nat :=
  if month = 2 then (if isLeap year then 29 else 28) else if [4, 6, 9, 11].contains month then 30 else 31

/-- Why there is no such day, if there is none. -/
def problem? (d : Date) : Option String :=
  if d.year < 1 ∨ 9999 < d.year then some ("year " ++ Integer.text d.year ++ " is out of range")
  else if d.month < 1 ∨ 12 < d.month then some "month must be in 1..12"
  else if d.day < 1 ∨ monthLength d.year d.month < d.day then some "day is out of range for month"
  else none

/-- The number of days since the first of January 1970. Years are counted from March, so that a leap day is the last day
of its year. -/
def number (d : Date) : Int :=
  let year := if d.month ≤ 2 then d.year - 1 else d.year
  let months : Int := if d.month ≤ 2 then d.month + 9 else d.month - 3
  let era := year.fdiv 400
  let ofEra := year - era * 400
  let ofYear := (153 * months + 2).fdiv 5 + d.day - 1
  era * 146097 + (ofEra * 365 + ofEra.fdiv 4 - ofEra.fdiv 100 + ofYear) - 719468

/-- The day with a number. -/
def ofNumber (n : Int) : Date :=
  let days := n + 719468
  let era := days.fdiv 146097
  let ofEra := days - era * 146097
  let year := (ofEra - ofEra.fdiv 1460 + ofEra.fdiv 36524 - ofEra.fdiv 146096).fdiv 365
  let ofYear := ofEra - (365 * year + year.fdiv 4 - year.fdiv 100)
  let months := (5 * ofYear + 2).fdiv 153
  let day := ofYear - (153 * months + 2).fdiv 5 + 1
  let month := if months < 10 then months + 3 else months - 9
  ⟨year + era * 400 + (if month ≤ 2 then 1 else 0), month.toNat, day.toNat⟩

end Date

/-- A time of day. -/
structure Clock where
  hour : Nat
  minute : Nat
  second : Nat
  micro : Nat
  deriving DecidableEq, Repr, Inhabited

namespace Clock

/-- Why there is no such time of day, if there is none. -/
def problem? (c : Clock) : Option String :=
  if 23 < c.hour then some "hour must be in 0..23"
  else if 59 < c.minute then some "minute must be in 0..59"
  else if 59 < c.second then some "second must be in 0..59"
  else none

end Clock

/-- A point in time. -/
inductive Timestamp where
  | day (d : Date)
  | time (d : Date) (c : Clock)
  /-- A time that is ahead of universal time by an offset in minutes. -/
  | zoned (d : Date) (c : Clock) (offset : Int)
  deriving DecidableEq, Repr, Inhabited

namespace Timestamp

/-! ## Comparison -/

/-- A time with an offset in universal time; everything else as it is. -/
def universal : Timestamp → Timestamp
  | zoned d c offset =>
    let minutes := d.number * 1440 + c.hour * 60 + c.minute - offset
    let ofDay := minutes.fmod 1440
    .zoned (.ofNumber (minutes.fdiv 1440)) ⟨(ofDay.fdiv 60).toNat, (ofDay.fmod 60).toNat, c.second, c.micro⟩ 0
  | t => t

/-- The number of the day and the fields of the time of day. -/
def fields : Timestamp → List Int
  | day d => [d.number]
  | time d c | zoned d c _ => [d.number, c.hour, c.minute, c.second, c.micro]

/-- Both are of one kind. -/
def isComparable : Timestamp → Timestamp → Bool
  | day _, day _ | time .., time .. | zoned .., zoned .. => true
  | _, _ => false

/-- Of two points in time of one kind the first is earlier. -/
def before (s t : Timestamp) : Bool :=
  s.isComparable t && decide (s.universal.fields < t.universal.fields)

/-! ## Texts -/

/-- A number with at least `width` digits. -/
def padded (width n : Nat) : String :=
  let digits := Nat.toDigits 10 n
  String.ofList (List.replicate (width - digits.length) '0' ++ digits)

/-- The text of a day. -/
def dayText (d : Date) : String := padded 4 d.year.toNat ++ "-" ++ padded 2 d.month ++ "-" ++ padded 2 d.day

/-- The text of a time of day. -/
def clockText (c : Clock) : String :=
  padded 2 c.hour ++ ":" ++ padded 2 c.minute ++ ":" ++ padded 2 c.second ++
    (if c.micro = 0 then "" else "." ++ padded 6 c.micro)

/-- The text of an offset. -/
def offsetText (offset : Int) : String :=
  (if offset < 0 then "-" else "+") ++ padded 2 (offset.natAbs / 60) ++ ":" ++ padded 2 (offset.natAbs % 60)

/-- The text of a point in time. -/
def text : Timestamp → String
  | day d => dayText d
  | time d c => dayText d ++ " " ++ clockText c
  | zoned d c offset => dayText d ++ " " ++ clockText c ++ offsetText offset

/-- How messages show a span of minutes. -/
def spanLiteral (minutes : Int) : String :=
  let part := fun (name : String) (n : Int) => if n = 0 then [] else [name ++ "=" ++ Integer.text n]
  let parts := part "days" (minutes.fdiv 1440) ++ part "seconds" (minutes.fmod 1440 * 60)
  "datetime.timedelta(" ++ (if parts.isEmpty then "0" else ", ".intercalate parts) ++ ")"

/-- How messages show an offset. -/
def offsetLiteral (offset : Int) : String :=
  if offset = 0 then "datetime.timezone.utc" else "datetime.timezone(" ++ spanLiteral offset ++ ")"

/-- How messages show a time, with more between brackets. Seconds that are zero are left out. -/
def timeLiteral (d : Date) (c : Clock) (more : String) : String :=
  let small := if c.micro ≠ 0 then [c.second, c.micro] else if c.second ≠ 0 then [c.second] else []
  let numbers := Integer.text d.year :: ([d.month, d.day, c.hour, c.minute] ++ small).map fun n : Nat => Integer.text n
  "datetime.datetime(" ++ ", ".intercalate numbers ++ more ++ ")"

/-- The form in which messages show a point in time. -/
def literal : Timestamp → String
  | day d =>
    "datetime.date(" ++ ", ".intercalate [Integer.text d.year, Integer.text d.month, Integer.text d.day] ++ ")"
  | time d c => timeLiteral d c ""
  | zoned d c offset => timeLiteral d c (", tzinfo=" ++ offsetLiteral offset)

/-! ## Checks -/

/-- Why there is no such point in time, if there is none. -/
def problem? : Timestamp → Option String
  | day d => d.problem?
  | time d c => d.problem? <|> c.problem?
  | zoned d c offset =>
    if 1440 ≤ offset.natAbs then
      some ("offset must be a timedelta strictly between -timedelta(hours=24) and timedelta(hours=24), not " ++
        spanLiteral offset ++ ".")
    else d.problem? <|> c.problem?

end Timestamp

end Hyperchess
