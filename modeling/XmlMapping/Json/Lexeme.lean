import XmlMapping.Json.Basic
import XmlMapping.Text.Blank
import XmlMapping.Text.ByteCount

/-!
# Lexemes of JSON

The parts of a JSON text, each read from the front of a text and given with the text after it. A text
can be at fault in three ways: it ends early, it is malformed, or it is well formed and does not say
what is asked for. The first fault met, from left to right, is the one that counts.

A value that nobody asked for is only passed over, by rules that ask less of it: a string may hold half
a surrogate pair, and a number that ends with the text is malformed instead of ending early.
-/

namespace XmlMapping.Json

open Text

/-- What is wrong with a text. -/
inductive Fault
  | ended
  | malformed
  | unfit
deriving DecidableEq

/-! ### Words -/

/-- Reads a word. -/
def word : List Char → List Char → Except Fault (List Char)
  | [], s => .ok s
  | _ :: _, [] => .error .ended
  | c :: cs, d :: s => if c = d then word cs s else .error .malformed

/-- Reads a mark with blanks allowed before it. -/
def mark (c : Char) (s : List Char) : Except Fault (List Char) :=
  word [c] (skipBlanks s)

/-! ### Strings -/

/-- The value of a hexadecimal digit. -/
def hexDigit? (c : Char) : Option Nat :=
  if '0' ≤ c ∧ c ≤ '9' then some (c.toNat - '0'.toNat)
  else if 'a' ≤ c ∧ c ≤ 'f' then some (c.toNat - 'a'.toNat + 10)
  else if 'A' ≤ c ∧ c ≤ 'F' then some (c.toNat - 'A'.toNat + 10)
  else none

/-- Reads four hexadecimal digits. A text with fewer than four bytes left ends early, whatever they
    are. -/
def codeUnit (s : List Char) : Except Fault (Nat × List Char) :=
  if shorterThan 4 s then .error .ended
  else
    match (s.take 4).mapM hexDigit? with
    | some digits => .ok (digits.foldl (fun n d => 16 * n + d) 0, s.drop 4)
    | none => .error .malformed

/-- Whether a code unit is the first half of a surrogate pair. -/
def isLeading (unit : Nat) : Bool :=
  0xD800 ≤ unit && unit ≤ 0xDBFF

/-- Whether a code unit is the second half of a surrogate pair. -/
def isTrailing (unit : Nat) : Bool :=
  0xDC00 ≤ unit && unit ≤ 0xDFFF

/-- Reads what follows `\u`: a code unit, or a surrogate pair with `\u` before its second half. Unless
    the string is asked for, each half counts on its own. -/
def unicodeEscape (asked : Bool) (s : List Char) : Except Fault (Char × List Char) := do
  let (unit, rest) ← codeUnit s
  if asked && isTrailing unit then throw .malformed
  if asked && isLeading unit then
    let rest ← word ['\\', 'u'] rest
    let (second, rest) ← codeUnit rest
    if !isTrailing second then throw .malformed
    return (Char.ofNat (0x10000 + (unit - 0xD800) * 0x400 + (second - 0xDC00)), rest)
  return (Char.ofNat unit, rest)

/-- The character that a backslash and a letter stand for. -/
def escaped? : Char → Option Char
  | '"' => some '"'
  | '\\' => some '\\'
  | '/' => some '/'
  | 'b' => some '\x08'
  | 'f' => some '\x0c'
  | 'n' => some '\n'
  | 'r' => some '\r'
  | 't' => some '\t'
  | _ => none

/-- Reads one character of a string, or its closing quote. -/
def stringPart (asked : Bool) : List Char → Except Fault (Option Char × List Char)
  | [] => .error .ended
  | '"' :: rest => .ok (none, rest)
  | '\\' :: [] => .error .ended
  | '\\' :: 'u' :: rest => (unicodeEscape asked rest).map fun (c, rest') => (some c, rest')
  | '\\' :: c :: rest =>
    match escaped? c with
    | some d => .ok (some d, rest)
    | none => .error .malformed
  | c :: rest => if c.toNat < 0x20 then .error .malformed else .ok (some c, rest)

/-- Reads the rest of a string after its opening quote. -/
def stringRest (asked : Bool) (s : List Char) : Except Fault (List Char × List Char) :=
  match stringPart asked s with
  | .error f => .error f
  | .ok (none, rest) => .ok ([], rest)
  | .ok (some c, rest) =>
    if rest.length < s.length then (stringRest asked rest).map fun (t, rest') => (c :: t, rest')
    else .error .malformed
termination_by s.length

/-! ### Numbers -/

/-- A number as it is written. -/
structure Numeral where
  negative : Bool
  whole : List Char
  fraction : Option (List Char)
  power : Option Int
deriving DecidableEq

/-- What the significant digits of a number must stay below. -/
def significandBound : Nat :=
  0x10000000000000000

/-- Appends digits to a significand up to the first that does not fit any more, and counts those that are
    left over. -/
def appendDigits (significand : Nat) : List Char → Nat × Nat
  | [] => (significand, 0)
  | c :: cs =>
    let longer := 10 * significand + (c.toNat - '0'.toNat)
    if longer < significandBound then appendDigits longer cs else (significand, cs.length + 1)

/-- The significant digits of a numeral and the power of ten that they are multiplied by. Digits that are
    left over count for the power before the point, and for nothing after it. -/
def Numeral.scaled (n : Numeral) : Nat × Int :=
  let fraction := n.fraction.getD []
  let (whole, surplus) := appendDigits 0 n.whole
  let (significand, ignored) := appendDigits whole fraction
  (significand, n.power.getD 0 + surplus - (fraction.length - ignored : Nat))

/-- Whether a numeral is too large: its power of ten is, or the product of its significant digits with that
    power, both rounded first. -/
def Numeral.isTooLarge (n : Numeral) : Bool :=
  let (significand, power) := n.scaled
  if significand = 0 ∨ power < 0 then false
  else if 308 < power then true
  else
    match Number.mul (.ofNat significand) (.ofDecimal false 1 power) with
    | .infinite _ => true
    | _ => false

/-- The whole number that a numeral without a sign, a fraction and a power denotes. -/
def Numeral.nat? (n : Numeral) : Option Nat :=
  if n.negative || n.fraction.isSome || n.power.isSome then none else some (Number.digitsValue n.whole)

/-- Reads at least one digit. The first argument says what it means that the text ends before one. -/
def digits (early : Fault) (s : List Char) : Except Fault (List Char × List Char) :=
  match s with
  | [] => .error early
  | c :: _ =>
    if c.isDigit then .ok (s.takeWhile Char.isDigit, s.dropWhile Char.isDigit) else .error .malformed

/-- Reads the whole part of a number: a zero alone, or digits that start with none. -/
def wholePart (early : Fault) (s : List Char) : Except Fault (List Char × List Char) := do
  let (run, rest) ← digits early s
  if run.head? == some '0' && 1 < run.length then throw .malformed
  return (run, rest)

/-- Reads the power of ten of a number after its letter. -/
def powerPart (early : Fault) (s : List Char) : Except Fault (Int × List Char) :=
  match s with
  | '-' :: rest => (digits early rest).map fun (run, rest') => (-(Number.digitsValue run : Int), rest')
  | '+' :: rest => (digits early rest).map fun (run, rest') => ((Number.digitsValue run : Int), rest')
  | _ => (digits early s).map fun (run, rest) => ((Number.digitsValue run : Int), rest)

/-- Reads a number. -/
def numeral (early : Fault) (s : List Char) : Except Fault (Numeral × List Char) := do
  let (negative, rest) :=
    match s with
    | '-' :: rest => (true, rest)
    | _ => (false, s)
  let (whole, rest) ← wholePart early rest
  let (fraction, rest) ←
    match rest with
    | '.' :: rest' => (digits early rest').map fun (run, rest'') => (some run, rest'')
    | _ => .ok (none, rest)
  let (power, rest) ←
    match rest with
    | 'e' :: rest' => (powerPart early rest').map fun (p, rest'') => (some p, rest'')
    | 'E' :: rest' => (powerPart early rest').map fun (p, rest'') => (some p, rest'')
    | _ => .ok (none, rest)
  return (⟨negative, whole, fraction, power⟩, rest)

/-- Reads a number that must not be too large. -/
def boundedNumeral (s : List Char) : Except Fault (Numeral × List Char) := do
  let (n, rest) ← numeral .ended s
  if n.isTooLarge then throw .malformed
  return (n, rest)

/-! ### Brackets -/

/-- Reads on to the next item of an array, or past its closing bracket: whether there is one. -/
def nextItem (first : Bool) (s : List Char) : Except Fault (Bool × List Char) :=
  match skipBlanks s with
  | [] => .error .ended
  | ']' :: rest => .ok (false, rest)
  | c :: rest =>
    if first then .ok (true, c :: rest)
    else if c = ',' then
      match skipBlanks rest with
      | [] => .error .ended
      | ']' :: _ => .error .malformed
      | _ => .ok (true, rest)
    else .error .malformed

/-- Reads the key of the next member of an object, or the closing brace. -/
def nextKey (asked first : Bool) (s : List Char) : Except Fault (Option String × List Char) :=
  let key (s : List Char) : Except Fault (Option String × List Char) :=
    match s with
    | [] => .error .ended
    | '"' :: rest => (stringRest asked rest).map fun (k, rest') => (some (String.ofList k), rest')
    | _ => .error .malformed
  match skipBlanks s with
  | [] => .error .ended
  | '\x7d' :: rest => .ok (none, rest)
  | c :: rest =>
    if first then key (c :: rest) else if c = ',' then key (skipBlanks rest) else .error .malformed

/-- Goes through the items of an array after its opening bracket. -/
def foldItems {σ : Type} (item : σ → List Char → Except Fault (σ × List Char)) (first : Bool) (state : σ)
    (s : List Char) : Except Fault (σ × List Char) :=
  match nextItem first s with
  | .error f => .error f
  | .ok (false, rest) => .ok (state, rest)
  | .ok (true, rest) =>
    match item state rest with
    | .error f => .error f
    | .ok (state', rest') =>
      if rest'.length < s.length then foldItems item false state' rest' else .error .malformed
termination_by s.length

/-- Goes through the members of an object after its opening brace; a member is read from after its
    key. -/
def foldMembers {σ : Type} (asked : Bool) (member : σ → String → List Char → Except Fault (σ × List Char))
    (first : Bool) (state : σ) (s : List Char) : Except Fault (σ × List Char) :=
  match nextKey asked first s with
  | .error f => .error f
  | .ok (none, rest) => .ok (state, rest)
  | .ok (some key, rest) =>
    match member state key rest with
    | .error f => .error f
    | .ok (state', rest') =>
      if rest'.length < s.length then foldMembers asked member false state' rest' else .error .malformed
termination_by s.length

/-! ### Values -/

/-- The words that stand for values, by their first letters. -/
def literalWord? : Char → Option (List Char)
  | 'n' => some ['n', 'u', 'l', 'l']
  | 't' => some ['t', 'r', 'u', 'e']
  | 'f' => some ['f', 'a', 'l', 's', 'e']
  | _ => none

/-- Whether a character starts a number. -/
def startsNumber (c : Char) : Bool :=
  c == '-' || c.isDigit

/-- Passes over a value. -/
def skipValue (s : List Char) : Except Fault (List Char) :=
  let inner (rest : List Char) : Except Fault (List Char) :=
    if rest.length < s.length then skipValue rest else .error .malformed
  match skipBlanks s with
  | [] => .error .ended
  | '"' :: rest => (stringRest false rest).map (·.2)
  | '[' :: rest => (foldItems (fun _ s => (inner s).map ((), ·)) true () rest).map (·.2)
  | '\x7b' :: rest =>
    let member (_ : Unit) (_ : String) (s : List Char) : Except Fault (Unit × List Char) :=
      match mark ':' s with
      | .ok rest => (inner rest).map ((), ·)
      | .error f => .error f
    (foldMembers false member true () rest).map (·.2)
  | c :: rest =>
    match literalWord? c with
    | some w => word w (c :: rest)
    | none => if startsNumber c then (numeral .malformed (c :: rest)).map (·.2) else .error .malformed
termination_by s.length

/-- The fault of a text that begins with a value of a kind that is not asked for: that of the value
    where it has one. An array or object is not looked into. -/
def misfit (s : List Char) : Fault :=
  let read : Except Fault (List Char) :=
    match s with
    | [] => .error .ended
    | '"' :: rest => (stringRest true rest).map (·.2)
    | '[' :: rest => .ok rest
    | '\x7b' :: rest => .ok rest
    | c :: rest =>
      match literalWord? c with
      | some w => word w (c :: rest)
      | none => if startsNumber c then (boundedNumeral (c :: rest)).map (·.2) else .error .malformed
  match read with
  | .ok _ => .unfit
  | .error f => f

/-- Reads a string where one is asked for. -/
def askedString (s : List Char) : Except Fault (String × List Char) :=
  match skipBlanks s with
  | '"' :: rest => (stringRest true rest).map fun (t, rest') => (String.ofList t, rest')
  | rest => .error (misfit rest)

/-- Reads a whole number below a bound where one is asked for. -/
def askedNat (bound : Nat) (s : List Char) : Except Fault (Nat × List Char) :=
  match skipBlanks s with
  | [] => .error .ended
  | c :: rest =>
    if startsNumber c then do
      let (n, rest) ← boundedNumeral (c :: rest)
      match n.nat? with
      | some value => if value < bound then return (value, rest) else throw .unfit
      | none => throw .unfit
    else .error (misfit (c :: rest))

end XmlMapping.Json
