/-!
# Calendar

Dates of the Gregorian calendar, carried on before its introduction and before the year one. Days of the
week count from Monday, which is zero.
-/

namespace XmlMapping.Date

/-- Whether a year has a day more. -/
def isLeap (year : Int) : Bool :=
  year % 4 == 0 && (year % 100 != 0 || year % 400 == 0)

/-- The numbers of days in the months of a year. -/
def monthLengths (year : Int) : List Nat :=
  [31, if isLeap year then 29 else 28, 31, 30, 31, 30, 31, 31, 30, 31, 30, 31]

/-- A day of the calendar: a year, and a month and a day that count from one. -/
structure Day where
  year : Int
  month : Nat
  day : Nat
deriving DecidableEq

/-- Whether a year is within the range of dates. -/
def yearInRange (year : Int) : Bool :=
  -262143 ≤ year && year ≤ 262142

/-- The day with a number of the month, if the month has that day. -/
def Day.ofMonth? (year : Int) (month day : Nat) : Option Day :=
  match month with
  | 0 => none
  | m + 1 =>
    match (monthLengths year)[m]? with
    | some days => if yearInRange year && 1 ≤ day && day ≤ days then some ⟨year, month, day⟩ else none
    | none => none

/-- The month and the day of the month of the `n`-th day after the first of a month, given the lengths of
    the months from there on. -/
def monthAndDay? (month : Nat) : List Nat → Nat → Option (Nat × Nat)
  | [], _ => none
  | days :: later, n => if n < days then some (month, n + 1) else monthAndDay? (month + 1) later (n - days)

/-- The day with a number of the year, if the year has that day. -/
def Day.ofOrdinal? (year : Int) (ordinal : Nat) : Option Day :=
  if yearInRange year && 1 ≤ ordinal then
    (monthAndDay? 1 (monthLengths year) (ordinal - 1)).map fun (month, day) => ⟨year, month, day⟩
  else none

/-- The number of a day in its year, from one. -/
def Day.ordinal (d : Day) : Nat :=
  ((monthLengths d.year).take (d.month - 1)).foldl (· + ·) 0 + d.day

/-- The number of days from the first day of the year one to the first day of a year. -/
def daysBefore (year : Int) : Int :=
  let years := year - 1
  365 * years + years / 4 - years / 100 + years / 400

/-- The number of a day, counted from the first day of the year one. -/
def Day.number (d : Day) : Int :=
  daysBefore d.year + d.ordinal - 1

/-- The year of a day, and the number of the day in it, given the number of the day. Four hundred years
    have 146097 days; the last century of them, the last four years of a century and the last of four
    years may have a day more or less than those before. -/
def yearAndOrdinal (number : Int) : Int × Nat :=
  let inCycle := number % 146097
  let century := min 3 (inCycle / 36524)
  let inCentury := inCycle - 36524 * century
  let four := inCentury / 1461
  let inFour := inCentury % 1461
  let one := min 3 (inFour / 365)
  (400 * (number / 146097) + 100 * century + 4 * four + one + 1, (inFour - 365 * one).toNat + 1)

/-- The day with a number, if its year is within the range of dates. -/
def Day.ofNumber? (number : Int) : Option Day :=
  let (year, ordinal) := yearAndOrdinal number
  Day.ofOrdinal? year ordinal

/-- The day of the week, from Monday. The year one started on a Monday. -/
def Day.weekday (d : Day) : Int :=
  d.number % 7

example : (⟨1956, 3, 1⟩ : Day).weekday = 3 := by decide
example : Day.ofNumber? (⟨2000, 12, 31⟩ : Day).number = some ⟨2000, 12, 31⟩ := by decide

end XmlMapping.Date
