import XmlMapping.Text.Blank
import XmlMapping.Date.Pattern

/-!
# Formats of dates

A format is a text with items that begin with a percent sign. Between them a run of white space stands
for any white space and every other run for itself. An item that is not known makes the format bad from
there on.
-/

namespace XmlMapping.Date

/-- The parts of a date and a time that are written as numbers. -/
inductive NumericField
  | year
  | century
  | yearOfCentury
  | isoYear
  | isoYearOfCentury
  | quarter
  | month
  | day
  | ordinal
  | isoWeek
  | weekFromSunday
  | weekFromMonday
  | weekdayFromMonday
  | weekdayFromSunday
  | hour
  | hourOfHalf
  | minute
  | second
  | nanosecond
  | timestamp
deriving DecidableEq

/-- The ways to write an offset: always in digits; or in hours alone or as the letter Z; or as the letter Z
    or the word UTC. -/
inductive OffsetForm
  | digits
  | hoursOrLetter
  | letterOrWord
deriving DecidableEq

/-- The items of a format. Names may be allowed to be written in full. A fraction of a second has a number
    of digits; one that follows a point may be missing with its point, and may have any number of digits. -/
inductive Item
  | literal (text : List Char)
  | blanks
  | numeric (field : NumericField)
  | monthName (full : Bool)
  | weekdayName (full : Bool)
  | half
  | fraction (digits : Nat)
  | pointAndFraction (digits? : Option Nat)
  | timeMark
  | offset (form : OffsetForm)
  | zoneName
  | unknown
deriving DecidableEq

open NumericField in
/-- The items that a letter after a percent sign stands for. -/
def itemsOf? : Char → Option (List Item)
  | 'Y' => some [.numeric year]
  | 'C' => some [.numeric century]
  | 'y' => some [.numeric yearOfCentury]
  | 'G' => some [.numeric isoYear]
  | 'g' => some [.numeric isoYearOfCentury]
  | 'q' => some [.numeric quarter]
  | 'm' => some [.numeric month]
  | 'd' => some [.numeric day]
  | 'e' => some [.numeric day]
  | 'j' => some [.numeric ordinal]
  | 'V' => some [.numeric isoWeek]
  | 'U' => some [.numeric weekFromSunday]
  | 'W' => some [.numeric weekFromMonday]
  | 'u' => some [.numeric weekdayFromMonday]
  | 'w' => some [.numeric weekdayFromSunday]
  | 'H' => some [.numeric hour]
  | 'k' => some [.numeric hour]
  | 'I' => some [.numeric hourOfHalf]
  | 'l' => some [.numeric hourOfHalf]
  | 'M' => some [.numeric minute]
  | 'S' => some [.numeric second]
  | 'f' => some [.numeric nanosecond]
  | 's' => some [.numeric timestamp]
  | 'b' => some [.monthName false]
  | 'h' => some [.monthName false]
  | 'B' => some [.monthName true]
  | 'a' => some [.weekdayName false]
  | 'A' => some [.weekdayName true]
  | 'p' => some [.half]
  | 'P' => some [.half]
  | 'z' => some [.offset .digits]
  | 'Z' => some [.zoneName]
  | 'n' => some [.blanks]
  | 't' => some [.blanks]
  | '%' => some [.literal ['%']]
  | 'D' => some american
  | 'x' => some american
  | 'F' => some [.numeric year, .literal ['-'], .numeric month, .literal ['-'], .numeric day]
  | 'v' => some [.numeric day, .literal ['-'], .monthName false, .literal ['-'], .numeric year]
  | 'R' => some [.numeric hour, .literal [':'], .numeric minute]
  | 'T' => some (clock hour)
  | 'X' => some (clock hour)
  | 'r' => some (clock hourOfHalf ++ [.blanks, .half])
  | 'c' => some ([.weekdayName false, .blanks, .monthName false, .blanks, .numeric day, .blanks] ++
      clock hour ++ [.blanks, .numeric year])
  | '+' => some (spaced '-' year month day ++ [.timeMark] ++ spaced ':' hour minute second ++
      [.pointAndFraction none, .offset .letterOrWord])
  | _ => none
where
  /-- A date with slashes, the month first. -/
  american : List Item :=
    [.numeric month, .literal ['/'], .numeric day, .literal ['/'], .numeric yearOfCentury]
  /-- A time with colons. -/
  clock (first : NumericField) : List Item :=
    [.numeric first, .literal [':'], .numeric minute, .literal [':'], .numeric second]
  /-- Three numbers with a mark between them, which may have blanks before it. -/
  spaced (mark : Char) (a b c : NumericField) : List Item :=
    [.numeric a, .blanks, .literal [mark], .numeric b, .blanks, .literal [mark], .numeric c]

/-- The items that a percent sign begins, given what follows it, and the text after them. A number may
    have a mark before its letter that only matters in writing. -/
def specification : List Char → List Item × List Char
  | '3' :: 'f' :: rest => ([.fraction 3], rest)
  | '6' :: 'f' :: rest => ([.fraction 6], rest)
  | '9' :: 'f' :: rest => ([.fraction 9], rest)
  | '.' :: 'f' :: rest => ([.pointAndFraction none], rest)
  | '.' :: '3' :: 'f' :: rest => ([.pointAndFraction (some 3)], rest)
  | '.' :: '6' :: 'f' :: rest => ([.pointAndFraction (some 6)], rest)
  | '.' :: '9' :: 'f' :: rest => ([.pointAndFraction (some 9)], rest)
  | ':' :: 'z' :: rest => ([.offset .digits], rest)
  | ':' :: ':' :: 'z' :: rest => ([.offset .digits], rest)
  | ':' :: ':' :: ':' :: 'z' :: rest => ([.offset .digits], rest)
  | '#' :: 'z' :: rest => ([.offset .hoursOrLetter], rest)
  | c :: rest =>
    if c = '-' ∨ c = '0' ∨ c = '_' then
      match rest with
      | d :: rest' =>
        match itemsOf? d with
        | some [.numeric field] => ([.numeric field], rest')
        | _ => ([.unknown], rest')
      | [] => ([.unknown], [])
    else
      match itemsOf? c with
      | some items => (items, rest)
      | none => ([.unknown], rest)
  | [] => ([.unknown], [])

theorem length_specification_le (s : List Char) : (specification s).2.length ≤ s.length := by
  unfold specification
  repeat' split
  all_goals simp only [List.length_cons, List.length_nil]
  all_goals omega

/-- Whether a character stands for itself, in a run of such characters. -/
def isPlain (c : Char) : Bool :=
  c != '%' && !Text.isWhiteSpace c

/-- The items of a format. -/
def itemsOfFormat (s : List Char) : List Item :=
  match s with
  | [] => []
  | c :: rest =>
    if c = '%' then
      let found := specification rest
      found.1 ++ itemsOfFormat found.2
    else if Text.isWhiteSpace c then .blanks :: itemsOfFormat (rest.dropWhile Text.isWhiteSpace)
    else .literal (c :: rest.takeWhile isPlain) :: itemsOfFormat (rest.dropWhile isPlain)
termination_by s.length
decreasing_by
  · have := length_specification_le rest
    simp only [List.length_cons]
    omega
  · have := length_dropWhile_le Text.isWhiteSpace rest
    simp only [List.length_cons]
    omega
  · have := length_dropWhile_le isPlain rest
    simp only [List.length_cons]
    omega

end XmlMapping.Date
