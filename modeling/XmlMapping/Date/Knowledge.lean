/-!
# What is known of a date and time

What a text says of a date and time is kept slot by slot. A slot that is given twice must be given the
same value.
-/

namespace XmlMapping.Date

/-- Why a text does not give a date and time. -/
inductive Failure
  | tooShort
  | invalid
  | outOfRange
  | tooLong
  | impossible
  | notEnough
  | badFormat
deriving DecidableEq

/-- What a message says of a failure. -/
def Failure.message : Failure → String
  | .tooShort => "premature end of input"
  | .invalid => "input contains invalid characters"
  | .outOfRange => "input is out of range"
  | .tooLong => "trailing input"
  | .impossible => "no possible date and time matching input"
  | .notEnough => "input is not enough for unique date and time"
  | .badFormat => "bad or unsupported format string"

/-- What can be known of a date and time. The hour is the half of the day and the hour of that half; the
    timestamp counts seconds from the start of 1970, and the offset is in seconds. -/
inductive Slot
  | year
  | century
  | yearOfCentury
  | isoYear
  | isoYearOfCentury
  | quarter
  | month
  | day
  | ordinal
  | isoWeek
  | weekFromSunday
  | weekFromMonday
  | weekday
  | half
  | hourOfHalf
  | minute
  | second
  | nanosecond
  | timestamp
  | offset
deriving DecidableEq

/-- The values of the slots that are known. -/
abbrev Knowledge := List (Slot × Int)

namespace Knowledge
variable (k : Knowledge)

/-- The value of a slot. -/
def get? (slot : Slot) : Option Int :=
  k.lookup slot

/-- Whether a value agrees with what is known of a slot. -/
def admits (slot : Slot) (value : Int) : Bool :=
  (k.get? slot).all (· == value)

/-- Whether nothing is known of a slot but the value that it has. -/
def fits (slot : Slot) (value? : Option Int) : Bool :=
  (k.get? slot).all (some · == value?)

/-- Knowledge with values added to it. -/
def learn (k : Knowledge) : List (Slot × Int) → Except Failure Knowledge
  | [] => .ok k
  | (slot, value) :: rest =>
    if k.admits slot value then learn ((slot, value) :: k) rest else .error .impossible

end Knowledge

/-- What the hour of a day says. -/
def hourSlots (hour : Int) : List (Slot × Int) :=
  [(.half, hour / 12), (.hourOfHalf, hour % 12)]

end XmlMapping.Date
