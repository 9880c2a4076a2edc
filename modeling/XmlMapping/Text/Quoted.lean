import XmlMapping.Text.GraphemeExtend
import XmlMapping.Text.Unprintable

/-!
# Quoted text

A text in double quotes for a message. Quotes, backslashes and the usual controls have short escapes;
other unprintable characters and combining characters are written by code point.
-/

namespace XmlMapping.Text

/-- A code point in the form `\u{…}`, with lower-case hexadecimal digits. -/
def codePointEscape (c : Char) : List Char :=
  ['\\', 'u', '\x7b'] ++ Nat.toDigits 16 c.toNat ++ ['\x7d']

/-- A character as it stands between double quotes. -/
def escape (c : Char) : List Char :=
  match c with
  | '"' => ['\\', '"']
  | '\\' => ['\\', '\\']
  | '\n' => ['\\', 'n']
  | '\r' => ['\\', 'r']
  | '\t' => ['\\', 't']
  | '\x00' => ['\\', '0']
  | c => if isUnprintable c || isGraphemeExtend c then codePointEscape c else [c]

/-- A text between double quotes. -/
def quoted (s : List Char) : List Char :=
  ['"'] ++ s.flatMap escape ++ ['"']

end XmlMapping.Text
