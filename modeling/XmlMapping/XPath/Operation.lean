import XmlMapping.XPath.Value

/-!
# Operators on values

A comparison of values holds when it holds of some of the texts that stand for a node-set, or of some
pair of them; against a boolean, a node-set stands for whether it has a node. Equality of single values
is that of booleans when one of them is a boolean, else that of numbers when one of them is a number, and
else that of texts. The other comparisons and the arithmetic are those of numbers.
-/

namespace XmlMapping.XPath

/-- Whether two single values are equal. -/
def equalSingles (d : Document) (l r : Value) : Bool :=
  if l.type = .boolean ∨ r.type = .boolean then l.toBoolean == r.toBoolean
  else if l.type = .number ∨ r.type = .number then (l.toNumber d).equals (r.toNumber d)
  else l.toText d == r.toText d

/-- Whether a comparison holds of two single values. -/
def Comparison.holdsOf (d : Document) (l r : Value) : Comparison → Bool
  | .equal => equalSingles d l r
  | .notEqual => !equalSingles d l r
  | .less => (l.toNumber d).less (r.toNumber d)
  | .lessOrEqual => (l.toNumber d).lessOrEqual (r.toNumber d)
  | .greater => (r.toNumber d).less (l.toNumber d)
  | .greaterOrEqual => (r.toNumber d).lessOrEqual (l.toNumber d)

/-- The single values that stand for a value when it is compared with another one. -/
def Value.singles (d : Document) (v other : Value) : List Value :=
  match v with
  | .nodes ns =>
    if other.type = .boolean then [.boolean !ns.isEmpty] else ns.map fun n => .string (d.stringValue n)
  | _ => [v]

/-- Whether a comparison holds of two values. -/
def Comparison.holds (d : Document) (relation : Comparison) (l r : Value) : Bool :=
  let rights := r.singles d l
  (l.singles d r).any fun a => rights.any fun b => relation.holdsOf d a b

/-- The result of an operation on two numbers. -/
def Arithmetic.apply : Arithmetic → Number → Number → Number
  | .plus => .add
  | .minus => .sub
  | .times => .mul
  | .div => .div
  | .mod => .mod

/-- The nodes of two node-sets, in document order and each once. -/
def Value.union : Value → Value → Except Error Value
  | .nodes l, .nodes r => .ok (.nodes (mergeInOrder (inDocumentOrder l) (inDocumentOrder r)))
  | _, _ => .error .unionNotNodes

/-- The value of a binary operator on two values. -/
def Operator.apply (d : Document) (op : Operator) (l r : Value) : Except Error Value :=
  match op with
  | .or => .ok (.boolean (l.toBoolean || r.toBoolean))
  | .and => .ok (.boolean (l.toBoolean && r.toBoolean))
  | .comparison relation => .ok (.boolean (relation.holds d l r))
  | .arithmetic operation => .ok (.number (operation.apply (l.toNumber d) (r.toNumber d)))
  | .union => l.union r

end XmlMapping.XPath
