import XmlMapping.Document.Naming
import XmlMapping.Text.Search
import XmlMapping.XPath.Operation

/-!
# Functions

The functions that an expression can call. Each has a name, a number of arguments that it takes and a
type of results. A call looks up the function, checks the number of arguments and then applies it; some
functions take the context node when an argument is left out.
-/

namespace XmlMapping.XPath

/-- What an expression is evaluated for: a node, and its position among so many nodes. -/
structure Context where
  node : Node
  position : Nat
  size : Nat
deriving DecidableEq

/-- The functions. -/
inductive Function
  | last
  | position
  | count
  | localName
  | name
  | namespaceUri
  | string
  | concat
  | startsWith
  | contains
  | substringBefore
  | substringAfter
  | substring
  | stringLength
  | normalizeSpace
  | translate
  | boolean
  | negation
  | alwaysTrue
  | alwaysFalse
  | number
  | sum
  | floor
  | ceiling
  | round
deriving DecidableEq

namespace Function

/-- All functions. -/
def all : List Function :=
  [.last, .position, .count, .localName, .name, .namespaceUri, .string, .concat, .startsWith, .contains,
    .substringBefore, .substringAfter, .substring, .stringLength, .normalizeSpace, .translate, .boolean,
    .negation, .alwaysTrue, .alwaysFalse, .number, .sum, .floor, .ceiling, .round]

/-- The name of a function in an expression. -/
def spelling : Function → String
  | .last => "last"
  | .position => "position"
  | .count => "count"
  | .localName => "local-name"
  | .name => "name"
  | .namespaceUri => "namespace-uri"
  | .string => "string"
  | .concat => "concat"
  | .startsWith => "starts-with"
  | .contains => "contains"
  | .substringBefore => "substring-before"
  | .substringAfter => "substring-after"
  | .substring => "substring"
  | .stringLength => "string-length"
  | .normalizeSpace => "normalize-space"
  | .translate => "translate"
  | .boolean => "boolean"
  | .negation => "not"
  | .alwaysTrue => "true"
  | .alwaysFalse => "false"
  | .number => "number"
  | .sum => "sum"
  | .floor => "floor"
  | .ceiling => "ceiling"
  | .round => "round"

/-- The function with a name. -/
def ofName? (name : String) : Option Function :=
  all.find? (·.spelling == name)

/-- How many arguments a function takes. -/
def arity : Function → Arity
  | .last | .position | .alwaysTrue | .alwaysFalse => .between 0 0
  | .count | .boolean | .negation | .sum | .floor | .ceiling | .round => .between 1 1
  | .localName | .name | .namespaceUri | .string | .stringLength | .normalizeSpace | .number => .between 0 1
  | .startsWith | .contains | .substringBefore | .substringAfter => .between 2 2
  | .substring => .between 2 3
  | .translate => .between 3 3
  | .concat => .atLeast 2

/-- The type of the results of a function. -/
def result : Function → ValueType
  | .last | .position | .count | .stringLength | .number | .sum | .floor | .ceiling | .round => .number
  | .startsWith | .contains | .boolean | .negation | .alwaysTrue | .alwaysFalse => .boolean
  | .localName | .name | .namespaceUri | .string | .concat | .substringBefore | .substringAfter
  | .substring | .normalizeSpace | .translate => .string

/-- The text before the first occurrence of another one; empty when there is none. -/
def textBefore (s word : String) : String :=
  match Text.splitAt? word.toList s.toList with
  | some (before, _) => String.ofList before
  | none => ""

/-- The text after the first occurrence of another one; empty when there is none. -/
def textAfter (s word : String) : String :=
  match Text.splitAt? word.toList s.toList with
  | some (_, rest) => String.ofList rest
  | none => ""

/-- The characters at positions from a rounded start on, counted from one, and before that start plus a
    rounded length. Where the start or the end is not a number, there are none. -/
def textFrom (s : String) (start : Number) (length : Option Number) : String :=
  let first := start.round
  let afterLast :=
    match length with
    | some l => first.add l.round
    | none => .infinite false
  let kept := (s.toList.zipIdx 1).filter fun (_, i) =>
    first.lessOrEqual (.ofNat i) && (Number.ofNat i).less afterLast
  String.ofList (kept.map (·.1))

/-- The words of a text with single spaces between them. -/
def spaceNormalized (s : String) : String :=
  String.ofList ((Text.words s.toList).intersperse [' ']).flatten

/-- A text with each character that occurs in a list replaced by the character at the same place in
    another list, or dropped when that list is shorter. -/
def translated (s source target : List Char) : List Char :=
  s.filterMap fun c =>
    match source.findIdx? (· == c) with
    | some i => target[i]?
    | none => some c

/-- The sum of numbers, starting from the negative zero. -/
def total (numbers : List Number) : Number :=
  numbers.foldl .add (.zero true)

/-- The nodes of an argument that must be a node-set. -/
def nodesOf (f : Function) : Value → Except Error (List Node)
  | .nodes ns => .ok ns
  | v => .error (.argumentNotNodes f.spelling v.type)

/-- The node that a function speaks about: the first of its argument, or the context node. -/
def subject? (f : Function) (c : Context) : List Value → Except Error (Option Node)
  | [] => .ok (some c.node)
  | v :: _ => (f.nodesOf v).map firstInOrder?

/-- The text that a function speaks about: its argument, or the string value of the context node. -/
def subjectText (d : Document) (c : Context) : List Value → String
  | [] => d.stringValue c.node
  | v :: _ => v.toText d

/-- The result of a function on arguments of a number that it takes. -/
def applyTo (d : Document) (c : Context) (f : Function) (args : List Value) : Except Error Value :=
  match f, args with
  | .last, _ => .ok (.number (.ofNat c.size))
  | .position, _ => .ok (.number (.ofNat c.position))
  | .count, v :: _ => (f.nodesOf v).map fun ns => .number (.ofNat ns.length)
  | .localName, vs => (f.subject? c vs).map fun n => .string ((n.map d.localName).getD "")
  | .name, vs => (f.subject? c vs).map fun n => .string ((n.map d.qualifiedName).getD "")
  | .namespaceUri, vs => (f.subject? c vs).map fun n => .string ((n.map d.namespaceUri).getD "")
  | .string, vs => .ok (.string (subjectText d c vs))
  | .concat, vs => .ok (.string (String.join (vs.map (·.toText d))))
  | .startsWith, v :: w :: _ =>
    .ok (.boolean (Text.after? (w.toText d).toList (v.toText d).toList).isSome)
  | .contains, v :: w :: _ =>
    .ok (.boolean (Text.splitAt? (w.toText d).toList (v.toText d).toList).isSome)
  | .substringBefore, v :: w :: _ => .ok (.string (textBefore (v.toText d) (w.toText d)))
  | .substringAfter, v :: w :: _ => .ok (.string (textAfter (v.toText d) (w.toText d)))
  | .substring, v :: start :: rest =>
    .ok (.string (textFrom (v.toText d) (start.toNumber d) (rest.head?.map (·.toNumber d))))
  | .stringLength, vs => .ok (.number (.ofNat (subjectText d c vs).length))
  | .normalizeSpace, vs => .ok (.string (spaceNormalized (subjectText d c vs)))
  | .translate, v :: source :: target :: _ =>
    .ok (.string (String.ofList
      (translated (v.toText d).toList (source.toText d).toList (target.toText d).toList)))
  | .boolean, v :: _ => .ok (.boolean v.toBoolean)
  | .negation, v :: _ => .ok (.boolean !v.toBoolean)
  | .alwaysTrue, _ => .ok (.boolean true)
  | .alwaysFalse, _ => .ok (.boolean false)
  | .number, [] => .ok (.number (numberOf (d.stringValue c.node)))
  | .number, v :: _ => .ok (.number (v.toNumber d))
  | .sum, v :: _ =>
    (f.nodesOf v).map fun ns => .number (total (ns.map fun n => numberOf (d.stringValue n)))
  | .floor, v :: _ => .ok (.number (v.toNumber d).floor)
  | .ceiling, v :: _ => .ok (.number (v.toNumber d).ceiling)
  | .round, v :: _ => .ok (.number (v.toNumber d).round)
  | _, _ => .error (.argumentCount f.spelling f.arity args.length)

/-- The result of a function, which fails on a number of arguments that it does not take. -/
def apply (d : Document) (c : Context) (f : Function) (args : List Value) : Except Error Value :=
  if f.arity.admits args.length then f.applyTo d c args
  else .error (.argumentCount f.spelling f.arity args.length)

/-- The result of the function with a name. -/
def call (d : Document) (c : Context) (name : String) (args : List Value) : Except Error Value :=
  match ofName? name with
  | some f => f.apply d c args
  | none => .error (.unknownFunction name)

end Function
end XmlMapping.XPath
