import XmlMapping.Date.Calendar

/-!
# Weeks

The weeks of a year can be counted in two ways. Weeks that start on a given day of the week begin with the
first such day of the year, and the days before it are in week zero. Weeks of ISO 8601 start on a Monday
and belong to the year that has most of their days, so that a year of theirs is made of whole weeks.
-/

namespace XmlMapping.Date

/-! ### Weeks from a day of the week -/

/-- The number of the week of a day, for weeks that start on a day of the week. -/
def Day.week (start : Int) (d : Day) : Int :=
  (d.ordinal - (d.weekday - start) % 7 + 6) / 7

/-- The day of a year with a week and a day of the week, for weeks that start on a day of the week. -/
def Day.ofWeek? (start year week weekday : Int) : Option Day :=
  let firstStart := 1 + (start - daysBefore year) % 7
  Day.ofOrdinal? year (firstStart + 7 * (week - 1) + (weekday - start) % 7).toNat

/-! ### Weeks of ISO 8601 -/

/-- The number of the day on which the first week of a year starts; the fourth of January is in it. -/
def isoYearStart (year : Int) : Int :=
  let fourth := daysBefore year + 3
  fourth - fourth % 7

/-- The number of weeks of a year. -/
def isoWeeksIn (year : Int) : Int :=
  (isoYearStart (year + 1) - isoYearStart year) / 7

/-- The year that the week of a day belongs to. -/
def Day.isoYear (d : Day) : Int :=
  if d.number < isoYearStart d.year then d.year - 1
  else if d.number < isoYearStart (d.year + 1) then d.year
  else d.year + 1

/-- The number of the week of a day in the year that the week belongs to. -/
def Day.isoWeek (d : Day) : Int :=
  (d.number - isoYearStart d.isoYear) / 7 + 1

/-- The day of a year with a week and a day of the week, if the year has that week. -/
def Day.ofIsoWeek? (year week weekday : Int) : Option Day :=
  if 1 ≤ week && week ≤ isoWeeksIn year then Day.ofNumber? (isoYearStart year + 7 * (week - 1) + weekday)
  else none

example : (⟨2021, 1, 3⟩ : Day).isoYear = 2020 ∧ (⟨2021, 1, 3⟩ : Day).isoWeek = 53 := by decide
example : Day.ofIsoWeek? 2020 53 6 = some ⟨2021, 1, 3⟩ := by decide

end XmlMapping.Date
