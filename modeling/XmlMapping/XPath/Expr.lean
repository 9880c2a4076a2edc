import XmlMapping.Number.Basic

/-!
# Expressions

The expressions of XPath 1.0 as trees: literals, numbers, location paths, filters, calls of functions,
binary operators and the unary minus. A location path starts from the context node, from the document
node or from the nodes of another expression, and goes on in steps.
-/

namespace XmlMapping.XPath

/-- The directions in which a step leaves a node. -/
inductive Axis
  | ancestorOrSelf
  | ancestor
  | attribute
  | child
  | descendantOrSelf
  | descendant
  | followingSibling
  | following
  | parent
  | precedingSibling
  | preceding
  | self
deriving DecidableEq

/-- The name of an axis in an expression. -/
def Axis.name : Axis → String
  | .ancestorOrSelf => "ancestor-or-self"
  | .ancestor => "ancestor"
  | .attribute => "attribute"
  | .child => "child"
  | .descendantOrSelf => "descendant-or-self"
  | .descendant => "descendant"
  | .followingSibling => "following-sibling"
  | .following => "following"
  | .parent => "parent"
  | .precedingSibling => "preceding-sibling"
  | .preceding => "preceding"
  | .self => "self"

/-- All axes, a longer name before the names it begins with. -/
def Axis.all : List Axis :=
  [.ancestorOrSelf, .ancestor, .attribute, .child, .descendantOrSelf, .descendant, .followingSibling,
    .following, .parent, .precedingSibling, .preceding, .self]

/-- A name as it is written: a local part, with or without a namespace prefix. -/
structure QName where
  nsPrefix : Option String
  localPart : String
deriving DecidableEq

/-- The text of a name, the prefix and the local part joined by a colon. -/
def QName.text (q : QName) : String :=
  match q.nsPrefix with
  | some p => p ++ ":" ++ q.localPart
  | none => q.localPart

/-- The kinds of nodes that a step can ask for. -/
inductive KindTest
  | text
  | node
  | comment
  | instruction
deriving DecidableEq

/-- The name of a kind of nodes in an expression. -/
def KindTest.name : KindTest → String
  | .text => "text"
  | .node => "node"
  | .comment => "comment"
  | .instruction => "processing-instruction"

/-- All kinds of nodes that a step can ask for. -/
def KindTest.all : List KindTest :=
  [.instruction, .comment, .text, .node]

/-- Which nodes of its axis a step keeps: those of a name, of any name in one namespace, of any name,
    or of a kind. -/
inductive NodeTest
  | name (name : QName)
  | anyIn (nsPrefix : String)
  | any
  | kind (kind : KindTest)
deriving DecidableEq

/-- The namespace prefix that a node test uses. -/
def NodeTest.nsPrefix? : NodeTest → Option String
  | .name q => q.nsPrefix
  | .anyIn p => some p
  | .any => none
  | .kind _ => none

/-- The comparisons. -/
inductive Comparison
  | equal
  | notEqual
  | less
  | lessOrEqual
  | greater
  | greaterOrEqual
deriving DecidableEq

/-- The operations on two numbers. -/
inductive Arithmetic
  | plus
  | minus
  | times
  | div
  | mod
deriving DecidableEq

/-- The binary operators. -/
inductive Operator
  | or
  | and
  | comparison (relation : Comparison)
  | arithmetic (operation : Arithmetic)
  | union
deriving DecidableEq

/-- An operator as it is written. -/
def Operator.symbol : Operator → String
  | .or => "or"
  | .and => "and"
  | .comparison .equal => "="
  | .comparison .notEqual => "!="
  | .comparison .less => "<"
  | .comparison .lessOrEqual => "<="
  | .comparison .greater => ">"
  | .comparison .greaterOrEqual => ">="
  | .arithmetic .plus => "+"
  | .arithmetic .minus => "-"
  | .arithmetic .times => "*"
  | .arithmetic .div => "div"
  | .arithmetic .mod => "mod"
  | .union => "|"

mutual

/-- An expression. -/
inductive Expr
  | literal (text : String)
  | number (value : Number)
  | path (origin : Origin) (steps : List Step)
  | filter (base : Expr) (predicates : List Expr)
  | call (function : QName) (args : List Expr)
  | binary (op : Operator) (left right : Expr)
  | negate (operand : Expr)

/-- Where a location path starts. -/
inductive Origin
  | context
  | root
  | nodes (start : Expr)

/-- One step of a location path. -/
inductive Step
  | mk (axis : Axis) (test : NodeTest) (predicates : List Expr)

end

/-- The step that `//` stands for. -/
def Step.anyBelow : Step :=
  ⟨.descendantOrSelf, .kind .node, []⟩

/-- Whether an expression is a location path. -/
def Expr.isPath : Expr → Bool
  | .path .. => true
  | _ => false

/-- Whether an expression applies a binary operator. -/
def Expr.isBinary : Expr → Bool
  | .binary .. => true
  | _ => false

end XmlMapping.XPath
