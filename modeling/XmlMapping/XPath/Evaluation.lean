import XmlMapping.Document.Navigation
import XmlMapping.XPath.Bindings
import XmlMapping.XPath.Function

/-!
# Evaluation

An expression is evaluated against a document and bindings of prefixes, for a context. A step takes every
node that it starts from: it follows the axis from the node, keeps what passes the node test and then what
the predicates keep, counting positions in the order of the axis. The nodes found from all starting nodes
are put together in document order, each once.
-/

namespace XmlMapping.XPath

/-- The nodes along an axis, in the order in which predicates count them. -/
def Axis.nodes (d : Document) (n : Node) : Axis → List Node
  | .self => [n]
  | .child => d.children n
  | .attribute => d.attributes n
  | .parent => n.parent?.toList
  | .ancestor => n.ancestors
  | .ancestorOrSelf => n :: n.ancestors
  | .descendant => d.descendants n
  | .descendantOrSelf => n :: d.descendants n
  | .followingSibling => d.followingSiblings n
  | .precedingSibling => d.precedingSiblings n
  | .following => d.following n
  | .preceding => d.preceding n

/-- Whether the nodes along an axis are in the opposite of document order. -/
def Axis.isReverse : Axis → Bool
  | .ancestor => true
  | .ancestorOrSelf => true
  | .preceding => true
  | .precedingSibling => true
  | _ => false

/-- The kind of nodes that a name on an axis stands for. -/
def Axis.principal : Axis → NodeKind
  | .attribute => .attribute
  | _ => .element

/-- The kind of nodes that a test by kind asks for, if not all. -/
def KindTest.kind? : KindTest → Option NodeKind
  | .text => some .text
  | .node => none
  | .comment => some .comment
  | .instruction => some .instruction

/-- The namespace that a prefix is bound to. -/
def resolve (b : Bindings) (p : String) : Except Error String :=
  match b.uri? p with
  | some uri => .ok uri
  | none => .error (.unboundPrefix p)

/-- The namespace that a node test asks for, if it has a prefix. -/
def NodeTest.namespaceUri? (b : Bindings) (test : NodeTest) : Except Error (Option String) :=
  match test.nsPrefix? with
  | some p => (resolve b p).map some
  | none => .ok none

/-- Whether a node passes a node test on an axis, given the namespace that the test asks for. A name
    without a prefix asks for a name in no namespace. -/
def NodeTest.admits (d : Document) (principal : NodeKind) (uri : Option String) (n : Node) : NodeTest → Bool
  | .any => d.kind? n == some principal
  | .anyIn _ => (d.content? n).any fun c => c.kind == principal && c.name?.any (·.namespaceUri == uri)
  | .name q => (d.content? n).any fun c => c.kind == principal && c.name? == some ⟨uri, q.localPart⟩
  | .kind k => k.kind?.all fun kind => d.kind? n == some kind

/-- The nodes of a list that pass a node test. -/
def NodeTest.filter (d : Document) (b : Bindings) (axis : Axis) (test : NodeTest) (ns : List Node) :
    Except Error (List Node) :=
  (test.namespaceUri? b).map fun uri => ns.filter fun n => test.admits d axis.principal uri n

/-- The nodes of a list that a test keeps, given the position of each. -/
def keepWhere (test : Node → Nat → Except Error Bool) : List Node → Nat → Except Error (List Node)
  | [], _ => .ok []
  | n :: ns, i => do
    let kept ← test n i
    let rest ← keepWhere test ns (i + 1)
    return if kept then n :: rest else rest

/-- Adds nodes in document order to nodes in the opposite order, each once. Mostly they come after them
    all. -/
def addFound (before found : List Node) : List Node :=
  match before, found with
  | m :: _, n :: _ =>
    if m.compare n = .lt then found.reverse ++ before else (mergeInOrder before.reverse found).reverse
  | _, _ => found.reverse ++ before

/-- The nodes found from the nodes of a list, in document order and each once, given those found before in
    the opposite order. -/
def gather (find : Node → Except Error (List Node)) (before : List Node) :
    List Node → Except Error (List Node)
  | [] => .ok before.reverse
  | n :: ns => do
    let found ← find n
    gather find (addFound before found) ns

mutual

/-- The value of an expression. -/
def Expr.evaluate (d : Document) (b : Bindings) : Expr → Context → Except Error Value
  | .literal s, _ => .ok (.string s)
  | .number n, _ => .ok (.number n)
  | .path origin steps, c => do
    let start ← origin.evaluate d b c
    let found ← follow d b steps start
    return .nodes found
  | .filter base predicates, c => do
    let value ← base.evaluate d b c
    let ns ← value.toNodes
    let kept ← keepAll d b predicates (inDocumentOrder ns)
    return .nodes kept
  | .call function args, c => do
    let values ← evaluateAll d b args c
    Function.call d c function.text values
  | .binary op left right, c => do
    let l ← left.evaluate d b c
    let r ← right.evaluate d b c
    op.apply d l r
  | .negate operand, c => do
    let value ← operand.evaluate d b c
    return .number (value.toNumber d).neg

/-- The nodes that a location path starts from. -/
def Origin.evaluate (d : Document) (b : Bindings) : Origin → Context → Except Error (List Node)
  | .context, c => .ok [c.node]
  | .root, _ => .ok [.root]
  | .nodes start, c => do
    let value ← start.evaluate d b c
    let ns ← value.toNodes
    return inDocumentOrder ns

/-- The values of several expressions. -/
def evaluateAll (d : Document) (b : Bindings) : List Expr → Context → Except Error (List Value)
  | [], _ => .ok []
  | e :: es, c => do
    let value ← e.evaluate d b c
    let values ← evaluateAll d b es c
    return value :: values

/-- The nodes that steps lead to. -/
def follow (d : Document) (b : Bindings) : List Step → List Node → Except Error (List Node)
  | [], ns => .ok ns
  | s :: ss, ns => do
    let found ← gather (s.reach d b) [] ns
    follow d b ss found

/-- The nodes that a step leads to from one node, in document order. -/
def Step.reach (d : Document) (b : Bindings) : Step → Node → Except Error (List Node)
  | ⟨axis, test, predicates⟩, n => do
    let tested ← test.filter d b axis (axis.nodes d n)
    let kept ← keepAll d b predicates tested
    return if axis.isReverse then kept.reverse else kept

/-- The nodes of a list that predicates keep, each predicate counting what is left by those before. -/
def keepAll (d : Document) (b : Bindings) : List Expr → List Node → Except Error (List Node)
  | [], ns => .ok ns
  | p :: ps, ns => do
    let kept ← keepWhere (fun n i => (p.evaluate d b ⟨n, i, ns.length⟩).map (·.keeps i)) ns 1
    keepAll d b ps kept

end

/-! ### Prefixes -/

mutual

/-- The prefixes of the node tests in an expression, from left to right. -/
def Expr.prefixes : Expr → List String
  | .literal _ => []
  | .number _ => []
  | .path origin steps => origin.prefixes ++ prefixesOfSteps steps
  | .filter base predicates => base.prefixes ++ prefixesOfAll predicates
  | .call _ args => prefixesOfAll args
  | .binary _ left right => left.prefixes ++ right.prefixes
  | .negate operand => operand.prefixes

/-- The prefixes of the node tests in the start of a location path. -/
def Origin.prefixes : Origin → List String
  | .context => []
  | .root => []
  | .nodes start => start.prefixes

/-- The prefixes of the node tests in several expressions. -/
def prefixesOfAll : List Expr → List String
  | [] => []
  | e :: es => e.prefixes ++ prefixesOfAll es

/-- The prefixes of the node tests in several steps. -/
def prefixesOfSteps : List Step → List String
  | [] => []
  | s :: ss => s.prefixes ++ prefixesOfSteps ss

/-- The prefixes of the node tests in a step: that of its own test first. -/
def Step.prefixes : Step → List String
  | ⟨_, test, predicates⟩ => test.nsPrefix?.toList ++ prefixesOfAll predicates

end

/-- Fails with the first prefix of an expression that is not bound. -/
def Expr.checkPrefixes (b : Bindings) (e : Expr) : Except Error Unit :=
  match e.prefixes.find? fun p => (b.uri? p).isNone with
  | some p => .error (.unboundPrefix p)
  | none => .ok ()

/-! ### Queries -/

/-- The value of an expression for a node on its own. Every prefix must be bound, whether or not the
    evaluation would come to it. -/
def Expr.valueAt (d : Document) (b : Bindings) (e : Expr) (n : Node) : Except Error Value := do
  e.checkPrefixes b
  e.evaluate d b ⟨n, 1, 1⟩

/-- The nodes that an expression selects for a node, in document order. -/
def Expr.select (d : Document) (b : Bindings) (e : Expr) (n : Node) : Except Error (List Node) := do
  let value ← e.valueAt d b n
  let ns ← value.toNodes
  return inDocumentOrder ns

/-- The expression of a text, with the text in the error. -/
def compile (source : String) : Except Error Expr :=
  (Expr.parse source).mapError (.malformed source)

end XmlMapping.XPath
