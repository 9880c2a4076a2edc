import XmlMapping.Text.Numeric

/-!
# Names

A name without a colon starts with an alphabetic character or an underscore and goes on with
alphanumeric characters, underscores, hyphens and dots. A qualified name is such a name, or two of
them joined by a colon.
-/

namespace XmlMapping.Text

/-- Whether a character may start a name. -/
def isNameStart (c : Char) : Bool :=
  isAlphabetic c || c == '_'

/-- Whether a character may continue a name. -/
def isNameChar (c : Char) : Bool :=
  isAlphanumeric c || c == '_' || c == '-' || c == '.'

/-- Whether a whole text is a name without a colon. -/
def isName : List Char → Bool
  | [] => false
  | c :: s => isNameStart c && s.all isNameChar

/-- The name at the front of a text, and what follows it. -/
def name? : List Char → Option (List Char × List Char)
  | [] => none
  | c :: s => if isNameStart c then some (c :: s.takeWhile isNameChar, s.dropWhile isNameChar) else none

end XmlMapping.Text
