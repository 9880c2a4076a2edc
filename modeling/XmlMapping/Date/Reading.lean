import XmlMapping.Date.Format
import XmlMapping.Date.Knowledge
import XmlMapping.Number.Decimal
import XmlMapping.Text.ByteCount
import XmlMapping.Text.Search

/-!
# Reading dates

A text is read item by item, and what an item says is added to what is known. Every value is checked
against its range as it is read.
-/

namespace XmlMapping.Date

open Text

/-! ### Numbers -/

/-- The most digits of a number without a sign, if there is a limit. -/
def NumericField.width? : NumericField → Option Nat
  | .year => some 4
  | .isoYear => some 4
  | .quarter => some 1
  | .ordinal => some 3
  | .weekdayFromMonday => some 1
  | .weekdayFromSunday => some 1
  | .nanosecond => some 9
  | .timestamp => none
  | _ => some 2

/-- Whether a number may have a sign. -/
def NumericField.isSigned : NumericField → Bool
  | .year => true
  | .isoYear => true
  | _ => false

/-- The least and the greatest value of a number. -/
def NumericField.range : NumericField → Int × Int
  | .year => (-2147483648, 2147483647)
  | .century => (0, 99)
  | .yearOfCentury => (0, 99)
  | .isoYear => (-2147483648, 2147483647)
  | .isoYearOfCentury => (0, 99)
  | .quarter => (1, 4)
  | .month => (1, 12)
  | .day => (1, 31)
  | .ordinal => (1, 366)
  | .isoWeek => (1, 53)
  | .weekFromSunday => (0, 53)
  | .weekFromMonday => (0, 53)
  | .weekdayFromMonday => (1, 7)
  | .weekdayFromSunday => (0, 6)
  | .hour => (0, 23)
  | .hourOfHalf => (1, 12)
  | .minute => (0, 59)
  | .second => (0, 60)
  | .nanosecond => (0, 999999999)
  | .timestamp => (0, 9223372036854775807)

/-- What a number says, once it is in range. -/
def NumericField.slots (field : NumericField) (value : Int) : List (Slot × Int) :=
  match field with
  | .year => [(.year, value)]
  | .century => [(.century, value)]
  | .yearOfCentury => [(.yearOfCentury, value)]
  | .isoYear => [(.isoYear, value)]
  | .isoYearOfCentury => [(.isoYearOfCentury, value)]
  | .quarter => [(.quarter, value)]
  | .month => [(.month, value)]
  | .day => [(.day, value)]
  | .ordinal => [(.ordinal, value)]
  | .isoWeek => [(.isoWeek, value)]
  | .weekFromSunday => [(.weekFromSunday, value)]
  | .weekFromMonday => [(.weekFromMonday, value)]
  | .weekdayFromMonday => [(.weekday, value - 1)]
  | .weekdayFromSunday => [(.weekday, (value + 6) % 7)]
  | .hour => hourSlots value
  | .hourOfHalf => [(.hourOfHalf, value % 12)]
  | .minute => [(.minute, value)]
  | .second => [(.second, value)]
  | .nanosecond => [(.nanosecond, value)]
  | .timestamp => [(.timestamp, value)]

/-- Reads a number of at most so many digits. -/
def unsigned (width? : Option Nat) (s : List Char) : Except Failure (Nat × List Char) :=
  match s with
  | [] => .error .tooShort
  | c :: _ =>
    if c.isDigit then
      let run := s.takeWhile Char.isDigit
      let counted := run.take (width?.getD run.length)
      .ok (Number.digitsValue counted, s.drop counted.length)
    else .error .invalid

/-- Reads the number of a field, with white space allowed before it. After a sign there may be any number
    of digits. -/
def fieldValue (field : NumericField) (s : List Char) : Except Failure (Int × List Char) :=
  let start := s.dropWhile isWhiteSpace
  match field.isSigned, start with
  | true, '-' :: rest => (unsigned none rest).map fun (n, rest') => (-(n : Int), rest')
  | true, '+' :: rest => (unsigned none rest).map fun (n, rest') => ((n : Int), rest')
  | _, _ => (unsigned field.width? start).map fun (n, rest) => ((n : Int), rest)

/-- Reads a number of exactly so many digits. -/
def digitsOf (width : Nat) (s : List Char) : Except Failure (Nat × List Char) :=
  if shorterThan width s then .error .tooShort
  else
    let run := s.take width
    if run.all Char.isDigit then .ok (Number.digitsValue run, s.drop width) else .error .invalid

/-- Reads the fraction of a second, in nanoseconds. Without a number of digits there may be any, and those
    after the ninth do not count. -/
def fractionValue (digits? : Option Nat) (s : List Char) : Except Failure (Int × List Char) :=
  match digits? with
  | some digits => (digitsOf digits s).map fun (n, rest) => ((n * Nat.pow 10 (9 - digits) : Nat), rest)
  | none => do
    let (n, rest) ← unsigned (some 9) s
    return ((n * Nat.pow 10 (9 - (s.length - rest.length)) : Nat), rest.dropWhile Char.isDigit)

/-! ### Names -/

/-- The names of the months. -/
def monthNames : List String :=
  ["january", "february", "march", "april", "may", "june", "july", "august", "september", "october",
    "november", "december"]

/-- The names of the days of the week. -/
def weekdayNames : List String :=
  ["monday", "tuesday", "wednesday", "thursday", "friday", "saturday", "sunday"]

/-- The text after a word in lower case that it begins with in any case. -/
def afterAnyCase? (word : List Char) (s : List Char) : Option (List Char) :=
  (after? word ((s.take word.length).map Char.toLower)).map fun _ => s.drop word.length

/-- Reads one of several names by its first three letters: the place of the name in the list. Where names
    may be in full, the other letters are read too if they follow. -/
def nameOf (full : Bool) (names : List String) (s : List Char) : Except Failure (Nat × List Char) :=
  if shorterThan 3 s then .error .tooShort
  else
    match names.findIdx? fun name => (afterAnyCase? (name.toList.take 3) s).isSome with
    | none => .error .invalid
    | some i =>
      let rest := s.drop 3
      let others := (names.getD i "").toList.drop 3
      .ok (i, if full then (afterAnyCase? others rest).getD rest else rest)

/-! ### Offsets -/

/-- Reads the sign of an offset, which is a plus, a hyphen or a minus: whether it is negative. -/
def offsetSign : List Char → Except Failure (Bool × List Char)
  | [] => .error .tooShort
  | c :: rest =>
    if c = '+' then .ok (false, rest)
    else if c = '-' ∨ c = '\u2212' then .ok (true, rest)
    else .error .invalid

/-- Reads the minutes of an offset, which may be allowed to be missing at the end of a text. -/
def offsetMinutes (optional : Bool) (s : List Char) : Except Failure (Nat × List Char) :=
  if optional && s.isEmpty then .ok (0, [])
  else do
    let (minutes, rest) ← digitsOf 2 s
    if 59 < minutes then throw .outOfRange
    return (minutes, rest)

/-- Reads an offset in digits: a sign, hours, colons or white space, and minutes. -/
def signedOffset (optionalMinutes : Bool) (s : List Char) : Except Failure (Int × List Char) := do
  let (negative, rest) ← offsetSign s
  let (hours, rest) ← digitsOf 2 rest
  let (minutes, rest) ← offsetMinutes optionalMinutes (rest.dropWhile fun c => c == ':' || isWhiteSpace c)
  let seconds : Int := 3600 * hours + 60 * minutes
  return (if negative then -seconds else seconds, rest)

/-- The text after a letter Z that it begins with. -/
def afterZ? : List Char → Option (List Char)
  | 'Z' :: rest => some rest
  | 'z' :: rest => some rest
  | _ => none

/-- Reads an offset, in seconds. -/
def OffsetForm.read (form : OffsetForm) (s : List Char) : Except Failure (Int × List Char) :=
  let word? :=
    match form with
    | .digits => none
    | .hoursOrLetter => afterZ? s
    | .letterOrWord => (afterAnyCase? ['u', 't', 'c'] s).or (afterZ? s)
  match word? with
  | some rest => .ok (0, rest)
  | none => signedOffset (form == .hoursOrLetter) s

/-! ### Items -/

/-- Reads what an item stands for: what it says, and the text after it. -/
def Item.read (item : Item) (s : List Char) : Except Failure (List (Slot × Int) × List Char) :=
  match item with
  | .literal text =>
    if shorterThan (byteCount text) s then .error .tooShort
    else
      match after? text s with
      | some rest => .ok ([], rest)
      | none => .error .invalid
  | .blanks => .ok ([], s.dropWhile isWhiteSpace)
  | .numeric field => do
    let (value, rest) ← fieldValue field s
    if value < field.range.1 || field.range.2 < value then throw .outOfRange
    return (field.slots value, rest)
  | .monthName full => (nameOf full monthNames s).map fun (i, rest) => ([(.month, (i : Int) + 1)], rest)
  | .weekdayName full => (nameOf full weekdayNames s).map fun (i, rest) => ([(.weekday, (i : Int))], rest)
  | .half =>
    if shorterThan 2 s then .error .tooShort
    else
      match afterAnyCase? ['a', 'm'] s, afterAnyCase? ['p', 'm'] s with
      | some rest, _ => .ok ([(.half, 0)], rest)
      | _, some rest => .ok ([(.half, 1)], rest)
      | none, none => .error .invalid
  | .fraction digits => (fractionValue (some digits) s).map fun (n, rest) => ([(.nanosecond, n)], rest)
  | .pointAndFraction digits? =>
    match s with
    | '.' :: rest => (fractionValue digits? rest).map fun (n, rest') => ([(.nanosecond, n)], rest')
    | _ => .ok ([], s)
  | .timeMark =>
    match s with
    | [] => .error .tooShort
    | c :: rest => if c = 'T' ∨ c = 't' ∨ c = ' ' then .ok ([], rest) else .error .invalid
  | .offset form => (form.read (s.dropWhile isWhiteSpace)).map fun (n, rest) => ([(.offset, n)], rest)
  | .zoneName => .ok ([], s.dropWhile fun c => !isWhiteSpace c)
  | .unknown => .error .badFormat

/-- Reads a whole text by items: what it says. -/
def readItems (k : Knowledge) : List Item → List Char → Except Failure Knowledge
  | [], [] => .ok k
  | [], _ :: _ => .error .tooLong
  | item :: items, s => do
    let (said, rest) ← item.read s
    let k ← k.learn said
    readItems k items rest

end XmlMapping.Date
