import XmlMapping.Number.Basic

/-!
# Decimal text of numbers

A decimal numeral denotes the number nearest to it. A number is written with the fewest digits that
read back as it, the nearest such digits, and of two equally near the greater; the digits stand in
positional notation, however long that makes the text.
-/

namespace XmlMapping
namespace Number

/-! ### Reading -/

/-- The value of decimal digits. -/
def digitsValue (digits : List Char) : Nat :=
  digits.foldl (fun n c => 10 * n + (c.toNat - '0'.toNat)) 0

/-- The number nearest to `value * 10 ^ exponent`. Exponents far outside the range of magnitudes give
    a zero or an infinity without the power being computed. -/
def ofDecimal (negative : Bool) (value : Nat) (exponent : Int) : Number :=
  if value = 0 then zero negative
  else if 400 < exponent then .infinite negative
  else if exponent + (Nat.toDigits 10 value).length < -400 then zero negative
  else if 0 ≤ exponent then ofRatio negative (value * Nat.pow 10 exponent.toNat * oneUnits) 1
  else ofRatio negative (value * oneUnits) (Nat.pow 10 (-exponent).toNat)

/-- The number that a numeral denotes, given the digits before and after its point. -/
def ofNumeral (negative : Bool) (whole fraction : List Char) : Number :=
  ofDecimal negative (digitsValue (whole ++ fraction)) (-(fraction.length : Int))

/-- The power of ten that follows a numeral: none, or a letter, perhaps a sign, and digits. -/
def exponent? : List Char → Option Int
  | [] => some 0
  | c :: s =>
    let (negative, power) :=
      match s with
      | '-' :: t => (true, t)
      | '+' :: t => (false, t)
      | _ => (false, s)
    if (c == 'e' || c == 'E') && !power.isEmpty && power.all Char.isDigit then
      some (signed negative (digitsValue power))
    else none

/-- The number of a word: an infinity, or none, in letters of either case. -/
def word? (negative : Bool) (word : List Char) : Option Number :=
  let lower := String.ofList (word.map Char.toLower)
  if lower = "inf" ∨ lower = "infinity" then some (.infinite negative)
  else if lower = "nan" then some .nan
  else none

/-- The number that a text denotes in scientific notation: perhaps a sign, digits with at most one point
    among, before or after them, and perhaps a power of ten; or a word. -/
def parse? (text : String) : Option Number :=
  let (negative, s) :=
    match text.toList with
    | '-' :: t => (true, t)
    | '+' :: t => (false, t)
    | t => (false, t)
  let whole := s.takeWhile Char.isDigit
  let rest := s.dropWhile Char.isDigit
  let (fraction, rest) :=
    match rest with
    | '.' :: t => (t.takeWhile Char.isDigit, t.dropWhile Char.isDigit)
    | _ => ([], rest)
  if whole.isEmpty && fraction.isEmpty then word? negative s
  else (exponent? rest).map fun e => ofDecimal negative (digitsValue (whole ++ fraction)) (e - fraction.length)

/-! ### Writing

The search for digits counts in parts of `10 ^ -340` of a quarter unit, so that every decimal it
considers is a whole number: grid `j` holds the multiples of `10 ^ (j - 340)`. -/

/-- The finest decimal grid of the search. -/
def finestGrid : Nat := 340

/-- A magnitude counted in the parts of the search. -/
def parts (units : Nat) : Nat :=
  4 * units * Nat.pow 10 finestGrid

/-- The distance between neighbours on a decimal grid, in parts. -/
def gridStep (j : Nat) : Nat :=
  4 * oneUnits * Nat.pow 10 j

/-- Whether a count of parts reads back as the magnitude: it is nearer to the magnitude than to its
    neighbours, or half-way and the magnitude is the even one. Below a power of two the neighbour is
    nearer. -/
def readsBack (units : Nat) (x : Nat) : Bool :=
  let step := Nat.pow 2 (units.log2 - 52)
  let below := if units == Nat.pow 2 units.log2 && 1 < step then step else 2 * step
  let lower := (4 * units - below) * Nat.pow 10 finestGrid
  let upper := (4 * units + 2 * step) * Nat.pow 10 finestGrid
  if units / step % 2 == 0 then lower ≤ x && x ≤ upper else lower < x && x < upper

/-- The digits on a grid that read back as the magnitude, if there are any: of its two neighbours on
    the grid the nearer that reads back, on a tie the greater. -/
def digitsOn? (units j : Nat) : Option Nat :=
  let step := gridStep j
  let floor := parts units / step
  let rest := parts units % step
  match readsBack units (floor * step), readsBack units ((floor + 1) * step) with
  | true, true => some (if 2 * rest < step then floor else floor + 1)
  | true, false => some floor
  | false, true => some (floor + 1)
  | false, false => none

/-- The digits on the coarsest grid from `j` down that has any, with the grid. -/
def fewestDigitsFrom (units : Nat) : Nat → Nat × Nat
  | 0 => ((digitsOn? units 0).getD 0, 0)
  | j + 1 =>
    match digitsOn? units (j + 1) with
    | some digits => (digits, j + 1)
    | none => fewestDigitsFrom units j

/-- The fewest digits that read back as a positive magnitude, and the power of ten they count. -/
def fewestDigits (units : Nat) : Nat × Int :=
  let places := (Nat.toDigits 10 (units * Nat.pow 10 324 / oneUnits)).length
  let (digits, j) := fewestDigitsFrom units (places + (finestGrid - 324))
  (digits, (j : Int) - finestGrid)

/-- Digits that count a power of ten, in positional notation. -/
def positional (digits : Nat) (exponent : Int) : List Char :=
  let text := Nat.toDigits 10 digits
  if 0 ≤ exponent then text ++ List.replicate exponent.toNat '0'
  else
    let places := (-exponent).toNat
    if places < text.length then
      text.take (text.length - places) ++ '.' :: text.drop (text.length - places)
    else '0' :: '.' :: List.replicate (places - text.length) '0' ++ text

/-- The text of a number. Both zeros are written without a sign. -/
def text : Number → String
  | .nan => "NaN"
  | .infinite s => if s then "-Infinity" else "Infinity"
  | .finite s u _ =>
    if u = 0 then "0"
    else
      let (digits, exponent) := fewestDigits u
      String.ofList ((if s then ['-'] else []) ++ positional digits exponent)

end Number
end XmlMapping
