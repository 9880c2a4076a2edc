/-!
# Classes of characters as spans

A class of characters is given by the spans of code points that hold them. A character is in the
class when one of the spans holds its code point.
-/

namespace XmlMapping.Text

/-- The code points from the first to the second, both included. -/
abbrev Span := Nat × Nat

/-- Whether the span holds the code point. -/
def Span.holds (s : Span) (code : Nat) : Bool :=
  s.1 ≤ code && code ≤ s.2

/-- Whether one of the spans holds the character. -/
def within (spans : List Span) (c : Char) : Bool :=
  spans.any (·.holds c.toNat)

end XmlMapping.Text
