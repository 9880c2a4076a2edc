import XmlMapping.Number.Decimal

/-!
# Whole numbers from text

A whole number is written with digits and perhaps a sign; a minus sign only where the range has numbers
below zero. The text is read from the left, and the first thing wrong counts: a character that is no
digit, or the digit with which the number leaves its range.
-/

namespace XmlMapping

/-- The whole numbers from a least to a greatest one. -/
structure IntegerRange where
  least : Int
  greatest : Int
deriving DecidableEq

namespace IntegerRange

/-- The numbers of so many bits, with a sign. -/
def signed (bits : Nat) : IntegerRange :=
  let half : Int := Nat.pow 2 (bits - 1)
  ⟨-half, half - 1⟩

/-- The numbers of so many bits, without a sign. -/
def unsigned (bits : Nat) : IntegerRange :=
  let all : Int := Nat.pow 2 bits
  ⟨0, all - 1⟩

/-- Why a text is no whole number of a range. -/
inductive Fault
  | empty
  | invalidDigit
  | tooLarge
  | tooSmall
deriving DecidableEq

/-- What a message says of a fault. -/
def Fault.message : Fault → String
  | .empty => "cannot parse integer from empty string"
  | .invalidDigit => "invalid digit found in string"
  | .tooLarge => "number too large to fit in target type"
  | .tooSmall => "number too small to fit in target type"

/-- The number that digits go on to from a number before them. A negative number grows downward. -/
def goOn (r : IntegerRange) (negative : Bool) (n : Int) : List Char → Except Fault Int
  | [] => .ok n
  | c :: s =>
    if !c.isDigit then .error .invalidDigit
    else
      let digit : Int := Number.digitsValue [c]
      let next := if negative then 10 * n - digit else 10 * n + digit
      if next < r.least then .error .tooSmall
      else if r.greatest < next then .error .tooLarge
      else goOn r negative next s

/-- The whole number that a text denotes. -/
def read (r : IntegerRange) (s : List Char) : Except Fault Int :=
  match s with
  | [] => .error .empty
  | ['+'] => .error .invalidDigit
  | ['-'] => .error .invalidDigit
  | '+' :: digits => r.goOn false 0 digits
  | c :: rest => if c = '-' ∧ r.least < 0 then r.goOn true 0 rest else r.goOn false 0 (c :: rest)

end IntegerRange
end XmlMapping
