/-!
# Blanks

Two classes of blank characters. Markup and expressions know four: space, tab, line feed and carriage
return. Trimming and splitting into words use the larger class of the Unicode property White_Space.
-/

namespace XmlMapping.Text

/-- Whether a character is blank in markup and between the parts of an expression. -/
def isBlank (c : Char) : Bool :=
  c == ' ' || c == '\t' || c == '\n' || c == '\r'

/-- Whether a character has the Unicode property White_Space. -/
def isWhiteSpace (c : Char) : Bool :=
  let n := c.toNat
  (9 ≤ n && n ≤ 13) || n == 0x20 || n == 0x85 || n == 0xA0 || n == 0x1680 ||
    (0x2000 ≤ n && n ≤ 0x200A) || n == 0x2028 || n == 0x2029 || n == 0x202F || n == 0x205F || n == 0x3000

/-- What is left of a text without its leading blanks. -/
def skipBlanks (s : List Char) : List Char :=
  s.dropWhile isBlank

/-- A text without the white space at its ends. -/
def trim (s : List Char) : List Char :=
  ((s.dropWhile isWhiteSpace).reverse.dropWhile isWhiteSpace).reverse

/-- The words of a text: its longest runs without white space. -/
def words (s : List Char) : List (List Char) :=
  let step (c : Char) (rest : List Char × List (List Char)) :=
    if isWhiteSpace c then ([], if rest.1.isEmpty then rest.2 else rest.1 :: rest.2)
    else (c :: rest.1, rest.2)
  let (first, others) := s.foldr step ([], [])
  if first.isEmpty then others else first :: others

end XmlMapping.Text
