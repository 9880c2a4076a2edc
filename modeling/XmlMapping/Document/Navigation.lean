import XmlMapping.Document.Node

/-!
# Navigation

The nodes to be reached from a node. Lists that go forward are in document order, and lists that go
backward are in the opposite order, so that the nearest node comes first. Attributes are no children of
their element and have no siblings; what follows and precedes an attribute is seen from its element,
whose descendants follow it.
-/

namespace XmlMapping

mutual

/-- The paths to everything below a tree with a path, in document order. -/
def Tree.pathsBelow (p : Path) : Tree → List Path
  | .element _ ts => pathsWithin p 0 ts
  | .text _ => []
  | .comment _ => []
  | .instruction .. => []

/-- The paths to everything in trees below a path that are numbered from `i`, in document order. -/
def pathsWithin (p : Path) (i : Nat) : List Tree → List Path
  | [] => []
  | t :: ts => (i :: p) :: t.pathsBelow (i :: p) ++ pathsWithin p (i + 1) ts

end

/-- The paths to everything after the tree at a path and not below it, in document order. -/
def pathsAfter (ts : List Tree) : Path → List Path
  | [] => []
  | i :: p => pathsWithin p (i + 1) ((childrenAt ts p).drop (i + 1)) ++ pathsAfter ts p

/-- The paths to everything before the tree at a path and not above it, the nearest first. -/
def pathsBefore (ts : List Tree) : Path → List Path
  | [] => []
  | i :: p => (pathsWithin p 0 ((childrenAt ts p).take i)).reverse ++ pathsBefore ts p

/-- The paths that a path goes on from, the nearest first. -/
def pathsAbove : Path → List Path
  | [] => []
  | _ :: p => p :: pathsAbove p

/-- The parent of a node; for an attribute, its element. -/
def Node.parent? (n : Node) : Option Node :=
  match n.attr, n.path with
  | some _, p => some (.ofPath p)
  | none, [] => none
  | none, _ :: p => some (.ofPath p)

/-- The number of nodes above a node. -/
def Node.depth (n : Node) : Nat :=
  n.path.length + n.attr.toList.length

theorem Node.depth_parent? {m n : Node} (h : n.parent? = some m) : m.depth < n.depth := by
  unfold parent? at h
  split at h
  · next hattr =>
    cases h
    simp [depth, ofPath, hattr]
  · cases h
  · next hattr hpath =>
    cases h
    simp [depth, ofPath, hattr, hpath]

/-- The node that going up from parent to parent ends at. -/
def Node.top (n : Node) : Node :=
  match _h : n.parent? with
  | some m => m.top
  | none => n
termination_by n.depth
decreasing_by exact depth_parent? ‹_›

/-- The nodes above a node, the nearest first. -/
def Node.ancestors (n : Node) : List Node :=
  let above := (pathsAbove n.path).map Node.ofPath
  match n.attr with
  | some _ => .ofPath n.path :: above
  | none => above

namespace Document
variable (d : Document)

/-- The nodes of the trees right below a path. -/
def childrenOf (p : Path) : List Node :=
  (List.range (childrenAt d.trees p).length).map fun i => .ofPath (i :: p)

/-- The children of a node. -/
def children (n : Node) : List Node :=
  match n.attr with
  | some _ => []
  | none => d.childrenOf n.path

/-- The attributes of a node. -/
def attributes (n : Node) : List Node :=
  match d.content? n with
  | some (.tree (.element tag _)) => (List.range tag.attributes.length).map fun k => ⟨n.path, some k⟩
  | _ => []

/-- The nodes below a node, in document order. -/
def descendants (n : Node) : List Node :=
  match n.attr with
  | some _ => []
  | none => (pathsWithin n.path 0 (childrenAt d.trees n.path)).map Node.ofPath

/-- The children of the same parent after a node, in document order. -/
def followingSiblings (n : Node) : List Node :=
  match n.attr, n.path with
  | none, i :: p => (d.childrenOf p).drop (i + 1)
  | _, _ => []

/-- The children of the same parent before a node, the nearest first. -/
def precedingSiblings (n : Node) : List Node :=
  match n.attr, n.path with
  | none, i :: p => ((d.childrenOf p).take i).reverse
  | _, _ => []

/-- The nodes after a node that are not below it, in document order. -/
def following (n : Node) : List Node :=
  let after := (pathsAfter d.trees n.path).map Node.ofPath
  match n.attr with
  | some _ => d.descendants (.ofPath n.path) ++ after
  | none => after

/-- The nodes before a node that are not above it, the nearest first. -/
def preceding (n : Node) : List Node :=
  (pathsBefore d.trees n.path).map Node.ofPath

/-- The tree nodes of the document in document order. -/
def nodes : List Node :=
  .root :: d.descendants .root

end Document
end XmlMapping
