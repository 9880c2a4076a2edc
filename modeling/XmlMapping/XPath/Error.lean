import XmlMapping.Text.Quoted
import XmlMapping.XPath.Parser

/-!
# Errors of expressions

What can go wrong with an expression, as causes, and the message of each cause.
-/

namespace XmlMapping.XPath

/-- The types of values. -/
inductive ValueType
  | nodeSet
  | string
  | number
  | boolean
deriving DecidableEq

/-- The name of a type in messages and answers. -/
def ValueType.name : ValueType → String
  | .nodeSet => "node-set"
  | .string => "string"
  | .number => "number"
  | .boolean => "boolean"

/-- How many arguments a function takes. -/
inductive Arity
  | between (least most : Nat)
  | atLeast (least : Nat)
deriving DecidableEq

/-- Whether a function takes so many arguments. -/
def Arity.admits : Arity → Nat → Bool
  | .between least most, n => least ≤ n && n ≤ most
  | .atLeast least, n => least ≤ n

/-- Why an expression has no value. -/
inductive Error
  | malformed (source : String) (failure : ParseFailure)
  | unboundPrefix (nsPrefix : String)
  | unknownFunction (function : String)
  | argumentCount (function : String) (arity : Arity) (given : Nat)
  | argumentNotNodes (function : String) (found : ValueType)
  | unionNotNodes
  | notNodes (found : ValueType)
deriving DecidableEq

/-- What a message says of a text that is no expression. -/
def ParseFailure.message : ParseFailure → String
  | .unexpected rest => "unexpected input at '" ++ String.ofList rest ++ "'"
  | .nameExpected rest =>
    "Parsing Error: Error \x7b input: " ++ String.ofList (Text.quoted rest) ++ ", code: TakeWhile1 \x7d"

/-- What a message says of a wrong number of arguments. -/
def Arity.message (given : Nat) : Arity → String
  | .between least most =>
    let expected := if least = most then toString least else toString least ++ " to " ++ toString most
    "Expected " ++ expected ++ " argument(s), got " ++ toString given
  | .atLeast least => "Expected at least " ++ toString least ++ " arguments"

/-- The message of an error. -/
def Error.message : Error → String
  | .malformed source failure => "XPath parse error in '" ++ source ++ "': " ++ failure.message
  | .unboundPrefix p => "Namespace prefix '" ++ p ++ "' is not bound"
  | .unknownFunction f => "Function '" ++ f ++ "' error: Unknown XPath function"
  | .argumentCount f arity given => "Function '" ++ f ++ "()' error: " ++ arity.message given
  | .argumentNotNodes f found =>
    "Type error: " ++ f ++ "() argument must be a node-set, got " ++ found.name
  | .unionNotNodes => "Type error: Both operands of '|' must be node-sets."
  | .notNodes found => "Expression does not select nodes, it evaluates to " ++ found.name

end XmlMapping.XPath
