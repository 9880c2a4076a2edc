import XmlMapping.Conversion.Basic
import XmlMapping.Date.Moment

/-!
# Conversions of text

What mappings need of a text: the text itself, numbers, truth values, dates. A conversion that is lenient
leaves white space at the ends of the text out of account.
-/

namespace XmlMapping.TextConversion

/-- A conversion that leaves white space at the ends out of account. -/
def trimmed (convert : TextConversion) : TextConversion := fun text =>
  convert (String.ofList (Text.trim text.toList))

/-- The text itself. -/
def text : TextConversion := fun text =>
  .value (.string text)

/-- A whole number of a range. -/
def integerIn (range : IntegerRange) : TextConversion := fun text =>
  .ofExcept .integer .integer (range.read text.toList)

/-- A number. -/
def number : TextConversion := fun text =>
  if text.isEmpty then .failure .emptyNumber
  else
    match Number.parse? text with
    | some n => .value (.ofNumber n)
    | none => .failure .malformedNumber

/-- A truth value, in one of the words that denote it. -/
def boolean : TextConversion := fun text =>
  if text = "true" ∨ text = "1" then .value (.boolean true)
  else if text = "false" ∨ text = "0" then .value (.boolean false)
  else .failure .notBoolean

/-- A truth value, in words alone. -/
def trueOrFalse : TextConversion := fun text =>
  if text = "true" then .value (.boolean true)
  else if text = "false" then .value (.boolean false)
  else .failure .notTrueOrFalse

/-- Whole numbers as an array. -/
def integers (ns : List Int) : Json :=
  .array (ns.map .integer)

/-- A date as an array of year, month and day. -/
def day (format : String) : TextConversion := fun text =>
  .ofExcept .date (fun d => integers [d.year, d.month, d.day]) (Date.readDay format text)

/-- A date and time as an array of year, month, day, hour, minute and second. -/
def dayAndTime (format : String) : TextConversion := fun text =>
  .ofExcept .date (fun (d, t) => integers [d.year, d.month, d.day, t.hour, t.minute, t.second])
    (Date.readDayAndTime format text)

/-- The bytes of the text in UTF-8. -/
def bytes : TextConversion := fun text =>
  .value (integers (text.toUTF8.data.toList.map fun b => (b.toNat : Int)))

/-- The text without white space at its ends, and the number of bytes of the whole text. -/
def trimmedWithSize : TextConversion := fun text =>
  .value (.array [.string (String.ofList (Text.trim text.toList)), .integer (Text.byteCount text.toList)])

/-- The text, or null if it is empty. -/
def unlessEmpty : TextConversion := fun text =>
  .value (if text.isEmpty then .null else .string text)

/-- A conversion that takes no text. -/
def refuse (reason : String) : TextConversion := fun _ =>
  .failure (.refused reason)

/-- A conversion that never comes to a JSON value. -/
def noJson : TextConversion := fun _ =>
  .noJson

end XmlMapping.TextConversion
