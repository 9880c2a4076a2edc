import XmlMapping.Markup.Lexeme

/-!
# References and line ends

A reference stands for a character. Around references, blanks in the value of an attribute become spaces,
and line ends in a text become line feeds; characters that come from references are kept.
-/

namespace XmlMapping.Markup

/-- What a reference is to: a character, or an entity that is not predefined. -/
inductive Reference
  | char (c : Char)
  | entity (name : List Char)

/-- The value of a digit in bases up to sixteen. -/
def digitValue (c : Char) : Nat :=
  if c.isDigit then c.toNat - '0'.toNat
  else if 'a' ≤ c ∧ c ≤ 'f' then c.toNat - 'a'.toNat + 10
  else c.toNat - 'A'.toNat + 10

/-- Whether a character is a hexadecimal digit. -/
def isHexDigit (c : Char) : Bool :=
  c.isDigit || ('a' ≤ c && c ≤ 'f') || ('A' ≤ c && c ≤ 'F')

/-- The character with a number given by its digits. A number that no character has gives the replacement
    character; one that needs more than 32 bits, and the number of a character that no document may
    hold, give none. -/
def numbered? (base : Nat) (digits : List Char) : Option Char :=
  let n := digits.foldl (fun n c => base * n + digitValue c) 0
  let c := if h : n.isValidChar then Char.ofNatAux n h else '\uFFFD'
  if digits.isEmpty || 0x100000000 ≤ n || !isXmlChar c then none else some c

/-- Reads a reference after its ampersand. -/
def reference? (s : List Char) : Option (Reference × List Char) :=
  match s with
  | '#' :: 'x' :: t => do
    let c ← numbered? 16 (t.takeWhile isHexDigit)
    let rest ← Text.after? [';'] (t.dropWhile isHexDigit)
    some (.char c, rest)
  | '#' :: t => do
    let c ← numbered? 10 (t.takeWhile Char.isDigit)
    let rest ← Text.after? [';'] (t.dropWhile Char.isDigit)
    some (.char c, rest)
  | _ => do
    let (name, rest) ← (plainName s).toOption
    let rest ← Text.after? [';'] rest
    some (named name, rest)
where
  /-- The reference with a name. -/
  named (name : List Char) : Reference :=
    if name = "quot".toList then .char '"'
    else if name = "amp".toList then .char '&'
    else if name = "apos".toList then .char '\''
    else if name = "lt".toList then .char '<'
    else if name = "gt".toList then .char '>'
    else .entity name

/-- A character of a text with references: as it stands, or through a reference. -/
inductive Piece
  | plain (c : Char)
  | referenced (c : Char)
deriving DecidableEq

/-- The characters of a text with references. -/
def pieces (s : List Char) : Except Error (List Piece) :=
  match s with
  | [] => .ok []
  | c :: t =>
    if c = '&' then
      match reference? t with
      | none => .error .malformedReference
      | some (.entity _, _) => .error .unknownEntity
      | some (.char r, rest) =>
        if rest.length ≤ t.length then (pieces rest).map (.referenced r :: ·)
        else .error .malformedReference
    else (pieces t).map (.plain c :: ·)
termination_by s.length

/-- The value of an attribute: tabs and line ends become spaces, a carriage return with its line feed
    one space. -/
def attributeText : List Piece → List Char
  | [] => []
  | .referenced c :: ps => c :: attributeText ps
  | .plain '\r' :: .plain '\n' :: ps => ' ' :: attributeText ps
  | .plain c :: ps => (if c = '\t' ∨ c = '\n' ∨ c = '\r' then ' ' else c) :: attributeText ps

/-! ### Line ends

A carriage return that stands as it is becomes a line feed when the next plain character is added, which
disappears if it is a line feed itself, or when it is the last. The character after a referenced one is
added as it is. -/

/-- A text under construction, last character first, and whether the next character is added as it is. -/
structure LineEnds where
  reversed : List Char
  asIs : Bool

/-- A text with one more plain character; `last` tells whether it is the last one. -/
def LineEnds.addPlain (t : List Char) (c : Char) (last : Bool) : List Char :=
  match t with
  | '\r' :: before =>
    if last && c == '\r' then '\n' :: '\n' :: before
    else if c == '\n' then '\n' :: before
    else c :: '\n' :: before
  | _ => if last && c == '\r' then '\n' :: t else c :: t

/-- A text with all the characters of a list. -/
def LineEnds.addAll (t : LineEnds) : List Piece → List Char
  | [] => t.reversed
  | .referenced c :: ps => LineEnds.addAll ⟨c :: t.reversed, true⟩ ps
  | .plain c :: ps =>
    if t.asIs then LineEnds.addAll ⟨c :: t.reversed, false⟩ ps
    else LineEnds.addAll ⟨LineEnds.addPlain t.reversed c ps.isEmpty, false⟩ ps

/-- The content of a text with its line ends made line feeds. -/
def contentText (ps : List Piece) : List Char :=
  (LineEnds.addAll ⟨[], false⟩ ps).reverse

end XmlMapping.Markup
