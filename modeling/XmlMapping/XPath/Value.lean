import XmlMapping.Number.Decimal
import XmlMapping.Text.Blank
import XmlMapping.XPath.Error
import XmlMapping.Document.Node

/-!
# Values of expressions

An expression has a node-set, a string, a number or a boolean as its value. Each value can be taken as a
boolean, a number or a string; a node-set is taken as the string value of its first node. Values are read
against the document that holds their nodes.
-/

namespace XmlMapping.XPath

/-- A value of an expression. -/
inductive Value
  | nodes (nodes : List Node)
  | string (text : String)
  | number (value : Number)
  | boolean (value : Bool)
deriving DecidableEq

/-- The number that a text denotes: decimal digits with at most one point among them, perhaps a minus
    sign, and white space around. Any other text denotes none. -/
def numberOf (text : String) : Number :=
  let trimmed := Text.trim text.toList
  let (negative, numeral) :=
    match trimmed with
    | '-' :: rest => (true, rest)
    | _ => (false, trimmed)
  let (whole, rest) := digits numeral
  match rest with
  | [] => if whole.isEmpty then .nan else .ofNumeral negative whole []
  | '.' :: fraction =>
    if fraction.all Char.isDigit && !(whole.isEmpty && fraction.isEmpty) then
      .ofNumeral negative whole fraction
    else .nan
  | _ => .nan

/-- The text of a boolean. -/
def booleanText (b : Bool) : String :=
  if b then "true" else "false"

namespace Value

/-- The type of a value. -/
def type : Value → ValueType
  | .nodes _ => .nodeSet
  | .string _ => .string
  | .number _ => .number
  | .boolean _ => .boolean

/-- A value taken as a boolean: whether there is a node, a character, or a number other than zero. -/
def toBoolean : Value → Bool
  | .nodes ns => !ns.isEmpty
  | .string s => !s.isEmpty
  | .number n => !n.isZero && !n.isNaN
  | .boolean b => b

/-- A value taken as a string. -/
def toText (d : Document) : Value → String
  | .nodes [] => ""
  | .nodes (n :: _) => d.stringValue n
  | .string s => s
  | .number n => n.text
  | .boolean b => booleanText b

/-- A value taken as a number. -/
def toNumber (d : Document) : Value → Number
  | .nodes [] => .nan
  | .nodes (n :: _) => numberOf (d.stringValue n)
  | .string s => numberOf s
  | .number n => n
  | .boolean b => .ofNat b.toNat

/-- The nodes of a node-set. -/
def toNodes : Value → Except Error (List Node)
  | .nodes ns => .ok ns
  | v => .error (.notNodes v.type)

/-- Whether a predicate with this value keeps the node at a position: a number asks for the position. -/
def keeps (position : Nat) : Value → Bool
  | .number n => n.equals (.ofNat position)
  | v => v.toBoolean

end Value
end XmlMapping.XPath
