import XmlMapping.Config.Basic
import XmlMapping.Conversion.Basic
import XmlMapping.Json.Lexeme
import XmlMapping.Markup.Error
import XmlMapping.XPath.Error

/-!
# Errors

What can go wrong from loading a document to mapping it, and the message of each error.
-/

namespace XmlMapping

/-- Why a document cannot be loaded. -/
inductive LoadError
  | unread (source reason : String)
  | markup (cause : Markup.Error)
deriving DecidableEq

/-- The message of an error of loading. -/
def LoadError.message : LoadError → String
  | .unread source reason => "Failed to read '" ++ source ++ "': " ++ reason
  | .markup cause => "XML parsing error (roxmltree): " ++ cause.message

/-- What a message says of a fault of a JSON text. -/
def Json.Fault.message : Json.Fault → String
  | .ended => "the text ends early"
  | .malformed => "the text is malformed"
  | .unfit => "the text holds another value than expected"

/-- Why a mapping gives no value, or cannot be set up. -/
inductive Error
  | path (expression : String) (cause : XPath.Error)
  | conversion (input : String) (cause : Cause)
  | json (fault : Json.Fault)
  | load (cause : LoadError)
  | configuration (flaw : Config.Flaw)
  | pattern (written : String) (flaw : Date.PatternFlaw)
  | undefined (name : String)
  | unending
deriving DecidableEq

/-- The message of an error. -/
def Error.message : Error → String
  | .path expression cause => "XPath error in '" ++ expression ++ "': " ++ cause.message
  | .conversion input cause => "Failed to convert '" ++ input ++ "': " ++ cause.message
  | .json fault => "JSON error: " ++ fault.message
  | .load cause => "Document error: " ++ cause.message
  | .configuration flaw => "Invalid configuration: " ++ flaw.message
  | .pattern written flaw => "Invalid configuration: " ++ flaw.message written
  | .undefined name => "Mapping '" ++ name ++ "' is not defined"
  | .unending => "The mapping refers to itself without end"

end XmlMapping
