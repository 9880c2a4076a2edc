import XmlMapping.Document.Tree

/-!
# Nodes

A node of a document is a place in it: the numbers of the children to go through from the document node
down, and at the end perhaps the number of an attribute. What stands at a place is looked up in the
document. Document order compares places: an element comes before its attributes and these before its
children.
-/

namespace XmlMapping

/-- The numbers of the children to go through from the document node down, the last of them first: the path
    of a parent is the rest of the path of its child. -/
abbrev Path := List Nat

/-- A place in a document: a tree node, or one of its attributes. -/
structure Node where
  path : Path
  attr : Option Nat
deriving DecidableEq

/-- The tree node at a path. -/
def Node.ofPath (p : Path) : Node :=
  ⟨p, none⟩

/-- The document node. -/
def Node.root : Node :=
  .ofPath []

/-! ### Document order -/

/-- How two paths of one length compare: by the first number from the document node down that differs. -/
def compareLevel : Path → Path → Ordering
  | i :: p, j :: q => (compareLevel p q).then (compare i j)
  | _, _ => .eq

/-- How two paths compare: as they do down to the end of the shorter one, and a path before those that go on
    from it. -/
def comparePaths (p q : Path) : Ordering :=
  (compareLevel (p.drop (p.length - q.length)) (q.drop (q.length - p.length))).then
    (compare p.length q.length)

/-- How an element and its attributes compare: the element, then the attributes by number. -/
def compareAttributes : Option Nat → Option Nat → Ordering
  | none, none => .eq
  | none, some _ => .lt
  | some _, none => .gt
  | some i, some j => compare i j

/-- How two nodes compare in document order. -/
def Node.compare (m n : Node) : Ordering :=
  (comparePaths m.path n.path).then (compareAttributes m.attr n.attr)

/-- Whether a node comes before another in document order. -/
def Node.before (m n : Node) : Prop :=
  m.compare n = .lt

/-- Puts a node at its place in an ordered list, unless it is there already. -/
def insertInOrder (n : Node) : List Node → List Node
  | [] => [n]
  | m :: ms =>
    match n.compare m with
    | .lt => n :: m :: ms
    | .eq => m :: ms
    | .gt => m :: insertInOrder n ms

/-- The nodes of a list in document order, each once. -/
def inDocumentOrder (nodes : List Node) : List Node :=
  nodes.foldr insertInOrder []

/-- The nodes of two ordered lists in order, each once. -/
def mergeInOrder : List Node → List Node → List Node
  | [], ns => ns
  | ms, [] => ms
  | m :: ms, n :: ns =>
    match m.compare n with
    | .lt => m :: mergeInOrder ms (n :: ns)
    | .eq => m :: mergeInOrder ms ns
    | .gt => n :: mergeInOrder (m :: ms) ns
termination_by ms ns => ms.length + ns.length

/-- The first node of a list in document order. -/
def firstInOrder? (nodes : List Node) : Option Node :=
  (inDocumentOrder nodes).head?

/-! ### What stands at a place -/

/-- The trees below a path. -/
def childrenAt (ts : List Tree) : Path → List Tree
  | [] => ts
  | i :: p =>
    match (childrenAt ts p)[i]? with
    | some t => t.children
    | none => []

/-- The tree at a path that goes down at least once. -/
def treeAt? (ts : List Tree) : Path → Option Tree
  | [] => none
  | i :: p => (childrenAt ts p)[i]?

/-- What can stand at a place. -/
inductive Content
  | document (trees : List Tree)
  | tree (tree : Tree)
  | attribute (attr : Attribute)

namespace Document
variable (d : Document)

/-- What stands at a node. -/
def content? (n : Node) : Option Content :=
  match n.path, n.attr with
  | [], none => some (.document d.trees)
  | p, none => (treeAt? d.trees p).map .tree
  | p, some k =>
    match treeAt? d.trees p with
    | some (.element tag _) => tag.attributes[k]?.map .attribute
    | _ => none

/-- Whether a node is one of the document. -/
def Holds (n : Node) : Prop :=
  (d.content? n).isSome

/-- The string value of a node: the texts below the document node or an element, the value of an
    attribute, otherwise the content. -/
def stringValue (n : Node) : String :=
  match d.content? n with
  | some (.document ts) => textWithinAll ts
  | some (.tree t) => t.stringValue
  | some (.attribute a) => a.value
  | none => ""

end Document

/-! ### Names -/

/-- The name of what stands at a place, if it is an element or attribute; the target of a processing
    instruction counts as a name in no namespace. -/
def Content.name? : Content → Option ExpandedName
  | .document _ => none
  | .tree (.element tag _) => some tag.name
  | .tree (.text _) => none
  | .tree (.comment _) => none
  | .tree (.instruction target _) => some ⟨none, target⟩
  | .attribute a => some a.name

/-- The name of a node. -/
def Document.name? (d : Document) (n : Node) : Option ExpandedName :=
  (d.content? n).bind Content.name?

/-! ### Kinds -/

/-- The kinds of nodes. -/
inductive NodeKind
  | document
  | element
  | attribute
  | text
  | comment
  | instruction
deriving DecidableEq

/-- The kind of what stands at a place. -/
def Content.kind : Content → NodeKind
  | .document _ => .document
  | .tree (.element ..) => .element
  | .tree (.text _) => .text
  | .tree (.comment _) => .comment
  | .tree (.instruction ..) => .instruction
  | .attribute _ => .attribute

/-- The kind of a node. -/
def Document.kind? (d : Document) (n : Node) : Option NodeKind :=
  (d.content? n).map Content.kind

end XmlMapping
