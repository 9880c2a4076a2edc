import XmlMapping.Date.Reading
import XmlMapping.Date.Week

/-!
# Dates and times from what is known

A date follows from a year together with a month and a day, with a number of the day in the year, or with
a week and a day of the week. A year of a century alone lies between 1970 and 2069. Whatever else is known
must agree with the date. A time follows from the hour and the minute; the sixtieth second of a minute is
taken for the one before. A timestamp gives what a date and time still lack.
-/

namespace XmlMapping.Date

/-- A time of the day. -/
structure Time where
  hour : Int
  minute : Int
  second : Int
deriving DecidableEq

/-! ### Dates -/

/-- A year, if anything is known of it. -/
def yearFrom (year century yearOfCentury : Option Int) : Except Failure (Option Int) :=
  match year, century, yearOfCentury with
  | y, none, none => .ok y
  | some y, c, r =>
    if 0 ≤ y && c.all (· == y / 100) && r.all (· == y % 100) then .ok (some y) else .error .impossible
  | none, some c, some r => .ok (some (c * 100 + r))
  | none, none, some r => .ok (some (if r < 70 then 2000 + r else 1900 + r))
  | none, some _, none => .error .notEnough

/-- A day that must be within the calendar. -/
def inCalendar (day? : Option Day) : Except Failure Day :=
  day?.elim (.error .outOfRange) .ok

/-- The day of a year with a week and a day of the week, for weeks that start on a day of the week. -/
def dayInWeek (start year week weekday : Int) : Except Failure Day :=
  if yearInRange year then (Day.ofWeek? start year week weekday).elim (.error .impossible) .ok
  else .error .outOfRange

/-- What a year that is not negative says of its century and its place in it. -/
def centuryFacts (year : Int) : Option Int × Option Int :=
  if 0 ≤ year then (some (year / 100), some (year % 100)) else (none, none)

/-- What a day says of all that can be known of it. -/
def Day.facts (d : Day) : List (Slot × Option Int) :=
  [(.year, some d.year), (.century, (centuryFacts d.year).1), (.yearOfCentury, (centuryFacts d.year).2),
    (.isoYear, some d.isoYear), (.isoYearOfCentury, (centuryFacts d.isoYear).2),
    (.quarter, some ((d.month - 1) / 3 + 1 : Nat)), (.month, some d.month), (.day, some d.day),
    (.ordinal, some d.ordinal), (.isoWeek, some d.isoWeek), (.weekFromSunday, some (d.week 6)),
    (.weekFromMonday, some (d.week 0)), (.weekday, some d.weekday)]

namespace Knowledge
variable (k : Knowledge)

/-- The ways to a day, given what is known of its year and of the year of its week: each is missing when
    something that it needs is not known. -/
def waysToDay (year? isoYear? : Option Int) : List (Option (Except Failure Day)) :=
  [do return inCalendar (Day.ofMonth? (← year?) (← k.get? .month).toNat (← k.get? .day).toNat),
    do return inCalendar (Day.ofOrdinal? (← year?) (← k.get? .ordinal).toNat),
    do return dayInWeek 6 (← year?) (← k.get? .weekFromSunday) (← k.get? .weekday),
    do return dayInWeek 0 (← year?) (← k.get? .weekFromMonday) (← k.get? .weekday),
    do return inCalendar (Day.ofIsoWeek? (← isoYear?) (← k.get? .isoWeek) (← k.get? .weekday))]

/-- The date, by the first way to it. -/
def resolveDay : Except Failure Day := do
  let year? ← yearFrom (k.get? .year) (k.get? .century) (k.get? .yearOfCentury)
  let isoYear? ← yearFrom (k.get? .isoYear) none (k.get? .isoYearOfCentury)
  match (k.waysToDay year? isoYear?).findSome? id with
  | none => throw .notEnough
  | some found =>
    let d ← found
    if d.facts.all fun (slot, value?) => k.fits slot value? then return d else throw .impossible

/-! ### Times -/

/-- The time. -/
def resolveTime : Except Failure Time :=
  match k.get? .half, k.get? .hourOfHalf, k.get? .minute, k.get? .second, k.get? .nanosecond with
  | some half, some hour, some minute, second, nanosecond =>
    if second.isNone && nanosecond.isSome then .error .notEnough
    else .ok ⟨12 * half + hour, minute, min (second.getD 0) 59⟩
  | _, _, _, _, _ => .error .notEnough

end Knowledge

/-! ### Timestamps -/

/-- The number of the first day of 1970. -/
def epochNumber : Int :=
  719162

example : daysBefore 1970 = epochNumber := by decide

/-- The seconds from the start of 1970 to a moment. -/
def timestampOf (d : Day) (t : Time) : Int :=
  86400 * (d.number - epochNumber) + 3600 * t.hour + 60 * t.minute + t.second

namespace Knowledge
variable (k : Knowledge)

/-- Whether a moment agrees with the timestamp that is known. The sixtieth second of a minute has the
    timestamp of the second before or after. -/
def admitsMoment (d : Day) (t : Time) : Bool :=
  (k.get? .timestamp).all fun given =>
    given == timestampOf d t || (k.get? .second == some 60 && given == timestampOf d t + 1)

/-- Knowledge with what a timestamp says added to it. When the sixtieth second of a minute is known, the
    timestamp is that of the second before or after. -/
def learnTimestamp (seconds : Int) : Except Failure Knowledge := do
  let _ ← inCalendar (Day.ofNumber? (epochNumber + seconds / 86400))
  let ofMinute := seconds % 60
  let isSixtieth := k.get? .second == some 60
  if isSixtieth && ofMinute ≠ 0 && ofMinute ≠ 59 then throw .impossible
  let moment := if isSixtieth && ofMinute = 0 then seconds - 1 else seconds
  let d ← inCalendar (Day.ofNumber? (epochNumber + moment / 86400))
  let second := if isSixtieth then [] else [(Slot.second, ofMinute)]
  let said := second ++ [(.year, d.year), (.ordinal, (d.ordinal : Int))] ++ hourSlots (moment % 86400 / 3600) ++
    [(.minute, moment % 3600 / 60)]
  k.learn said

/-- The date and time, with a timestamp added to what is known of them. -/
def completeMoment (seconds : Int) : Except Failure (Day × Time) := do
  let known ← k.learnTimestamp seconds
  let d ← known.resolveDay
  let t ← known.resolveTime
  return (d, t)

/-- The date and time. A timestamp is only added when not enough is known without it. Problems of the date
    come first. -/
def resolveMoment : Except Failure (Day × Time) :=
  match k.resolveDay, k.resolveTime, k.get? .timestamp with
  | .ok d, .ok t, _ => if k.admitsMoment d t then .ok (d, t) else .error .impossible
  | .ok _, .error _, some seconds => k.completeMoment seconds
  | .error .notEnough, _, some seconds => k.completeMoment seconds
  | .error e, _, _ => .error e
  | .ok _, .error e, none => .error e

end Knowledge

/-! ### Texts -/

/-- The date that a text gives by a format. -/
def readDay (format text : String) : Except Failure Day := do
  let k ← readItems [] (itemsOfFormat format.toList) text.toList
  k.resolveDay

/-- The date and the time that a text gives by a format. -/
def readDayAndTime (format text : String) : Except Failure (Day × Time) := do
  let k ← readItems [] (itemsOfFormat format.toList) text.toList
  k.resolveMoment

end XmlMapping.Date
