import XmlMapping.Conversion.Integer
import XmlMapping.Date.Reading
import XmlMapping.Document.Naming
import XmlMapping.Json.Basic

/-!
# Conversions

A conversion makes a JSON value of the text of a node, or of the node itself. It may also fail, with a
cause, or come to something that is no JSON value.
-/

namespace XmlMapping

/-- Why a conversion fails. -/
inductive Cause
  | integer (fault : IntegerRange.Fault)
  | emptyNumber
  | malformedNumber
  | notBoolean
  | notTrueOrFalse
  | date (failure : Date.Failure)
  | refused (reason : String)
deriving DecidableEq

/-- What a message says of a cause. -/
def Cause.message : Cause → String
  | .integer fault => fault.message
  | .emptyNumber => "cannot parse float from empty string"
  | .malformedNumber => "invalid float literal"
  | .notBoolean => "expected one of true, false, 1, 0"
  | .notTrueOrFalse => "provided string was not `true` or `false`"
  | .date failure => failure.message
  | .refused reason => reason

/-- What a conversion comes to. -/
inductive Conversion
  | value (v : Json)
  | failure (cause : Cause)
  | noJson

/-- A conversion of the string value of a node. -/
abbrev TextConversion := String → Conversion

/-- A conversion of a node of a document. -/
abbrev NodeConversion := Document → Node → Conversion

/-- What a computation comes to that may fail. -/
def Conversion.ofExcept {ε α : Type} (cause : ε → Cause) (value : α → Json) : Except ε α → Conversion
  | .ok a => .value (value a)
  | .error e => .failure (cause e)

end XmlMapping
