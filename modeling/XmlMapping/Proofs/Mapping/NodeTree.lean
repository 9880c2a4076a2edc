import Mathlib.Data.List.Perm.Subperm
import XmlMapping.Mapping.Definitions
import XmlMapping.Proofs.Document.Kin
import XmlMapping.Proofs.XPath.Composition

/-! # Node trees

The node tree of a node is the object of its name and the node trees of its children. It is defined here by
recursion on the trees of the document, and the ready-made mapping, which refers to itself through a path
to the children, makes it of every node. The references end at the leaves: from a node to its child there
are fewer nodes below, and never as many as the depth to which references are followed. -/

namespace XmlMapping

/-! ### By recursion on the document -/

/-- The object for a node in a node tree. -/
def nodeObject (name : String) (children : List Json) : Json :=
  .object [(Mapping.nameKey, .string name), (Mapping.childrenKey, .array children)]

mutual

/-- The node tree of the tree at a path. -/
def Tree.nodeTree (d : Document) (p : Path) : Tree → Json
  | .element _ ts => nodeObject (d.nodeName (.ofPath p)) (nodeTreesWithin d p 0 ts)
  | .text _ => nodeObject (d.nodeName (.ofPath p)) []
  | .comment _ => nodeObject (d.nodeName (.ofPath p)) []
  | .instruction .. => nodeObject (d.nodeName (.ofPath p)) []

/-- The node trees of trees below a path that are numbered from `i`. -/
def nodeTreesWithin (d : Document) (p : Path) (i : Nat) : List Tree → List Json
  | [] => []
  | t :: ts => t.nodeTree d (i :: p) :: nodeTreesWithin d p (i + 1) ts

end

/-- The node tree of a node: its name and the node trees of its children, down to the leaves. -/
def Document.nodeTree (d : Document) (n : Node) : Json :=
  nodeObject (d.nodeName n) <|
    match n.attr with
    | some _ => []
    | none => nodeTreesWithin d n.path 0 (childrenAt d.trees n.path)

variable {d : Document} {n : Node} {p : Path} {i : Nat}

theorem getElem?_nodeTreesWithin (ts : List Tree) (j : Nat) :
    (nodeTreesWithin d p i ts)[j]? = ts[j]?.map fun t => t.nodeTree d ((i + j) :: p) := by
  induction ts generalizing i j with
  | nil => simp [nodeTreesWithin]
  | cons t ts ih =>
    rw [nodeTreesWithin]
    cases j with
    | zero => rfl
    | succ j => rw [List.getElem?_cons_succ, List.getElem?_cons_succ, ih, Nat.add_right_comm, Nat.add_assoc]

theorem Tree.nodeTree_eq {t : Tree} (h : treeAt? d.trees p = some t) : t.nodeTree d p = d.nodeTree (.ofPath p) := by
  show _ = nodeObject _ (nodeTreesWithin d p 0 (childrenAt d.trees p))
  rw [childrenAt_of_treeAt? h]
  cases t <;> rfl

/-- The children of a node have their node trees in document order. -/
theorem Document.nodeTree_eq (d : Document) (n : Node) :
    d.nodeTree n = nodeObject (d.nodeName n) ((d.children n).map d.nodeTree) := by
  rw [nodeTree, children]
  cases hattr : n.attr with
  | some k => rfl
  | none =>
    congr 1
    apply List.ext_getElem?
    intro j
    rw [getElem?_nodeTreesWithin, Nat.zero_add, childrenOf, List.map_map, List.getElem?_map]
    cases ht : (childrenAt d.trees n.path)[j]? with
    | none => simp [List.getElem?_eq_none_iff.mp ht]
    | some t =>
      obtain ⟨hj, -⟩ := List.getElem?_eq_some_iff.mp ht
      rw [List.getElem?_range hj]
      exact congrArg some (Tree.nodeTree_eq (by rw [treeAt?, ht]))

/-! ### The objects in a node tree -/

mutual

/-- The objects in a value, an outer one before those in it. -/
def Json.objects : Json → List (List (String × Json))
  | .object members => members :: Json.objectsOfMembers members
  | .array items => Json.objectsOfItems items
  | .null => []
  | .boolean _ => []
  | .integer _ => []
  | .number _ => []
  | .string _ => []

/-- The objects in the items of an array. -/
def Json.objectsOfItems : List Json → List (List (String × Json))
  | [] => []
  | v :: vs => v.objects ++ Json.objectsOfItems vs

/-- The objects in the members of an object. -/
def Json.objectsOfMembers : List (String × Json) → List (List (String × Json))
  | [] => []
  | (_, v) :: rest => v.objects ++ Json.objectsOfMembers rest

end

theorem objects_nodeObject (name : String) (children : List Json) : (nodeObject name children).objects =
    [(Mapping.nameKey, .string name), (Mapping.childrenKey, .array children)] :: Json.objectsOfItems children := by
  simp [nodeObject, Json.objects, Json.objectsOfMembers]

/-- The value under the key of the name in an object, if there is one. -/
def shownName (members : List (String × Json)) : Option Json :=
  members.lookup Mapping.nameKey

theorem map_objects_nodeObject (name : String) (children : List Json) :
    (nodeObject name children).objects.map shownName =
      some (.string name) :: (Json.objectsOfItems children).map shownName := by
  rw [objects_nodeObject, List.map_cons]
  rfl

mutual

theorem Tree.map_objects_nodeTree (d : Document) (p : Path) : ∀ t : Tree,
    (t.nodeTree d p).objects.map shownName =
      (p :: t.pathsBelow p).map fun q => some (.string (d.nodeName (.ofPath q)))
  | .element _ ts => by
    rw [Tree.nodeTree, map_objects_nodeObject, map_objects_nodeTreesWithin d p 0 ts]
    rfl
  | .text _ => map_objects_nodeObject _ []
  | .comment _ => map_objects_nodeObject _ []
  | .instruction .. => map_objects_nodeObject _ []

theorem map_objects_nodeTreesWithin (d : Document) (p : Path) (i : Nat) : ∀ ts : List Tree,
    (Json.objectsOfItems (nodeTreesWithin d p i ts)).map shownName =
      (pathsWithin p i ts).map fun q => some (.string (d.nodeName (.ofPath q)))
  | [] => rfl
  | t :: ts => by
    rw [nodeTreesWithin, Json.objectsOfItems, List.map_append, Tree.map_objects_nodeTree d (i :: p) t,
      map_objects_nodeTreesWithin d p (i + 1) ts, pathsWithin, List.cons_append, List.map_cons, List.map_cons,
      List.map_append, List.cons_append]

end

/-- A node tree has one object for the node and one for each node below it, in document order. -/
theorem Document.map_objects_nodeTree (d : Document) (n : Node) : (d.nodeTree n).objects.map shownName =
    (n :: d.descendants n).map fun m => some (.string (d.nodeName m)) := by
  rw [nodeTree, map_objects_nodeObject, descendants]
  cases n.attr with
  | some k => rfl
  | none =>
    rw [map_objects_nodeTreesWithin, List.map_cons, List.map_map]
    rfl

/-! ### Running -/

theorem Run.each_done {α β : Type} {f : α → Run β} {g : α → β} {as : List α} (h : ∀ a ∈ as, f a = .done (g a)) :
    Run.each f as = .done (as.map g) := by
  induction as with
  | nil => rfl
  | cons a as ih =>
    rw [each, h a List.mem_cons_self, ih fun b hb => h b (List.mem_cons_of_mem a hb)]
    rfl

theorem compile_children : XPath.compile "node()" = .ok (.path .context [⟨.child, .kind .node, []⟩]) := by
  with_unfolding_all rfl

theorem Mapping.nodeTree_def : Mapping.nodeTree =
    .object [.here nameKey nodeName, .here childrenKey (.array "node()" (.deferred .nodeTree))] := by
  rfl

theorem selectAt_children (d : Document) (b : Bindings) (n : Node) :
    selectAt d b "node()" n = .ok (d.children n) := by
  have hfilter : XPath.NodeTest.filter d b .child (.kind .node) (d.children n) = .ok (d.children n) := by
    simp [XPath.NodeTest.filter, XPath.NodeTest.namespaceUri?, XPath.NodeTest.nsPrefix?, XPath.NodeTest.admits,
      XPath.KindTest.kind?, Except.map]
  rw [selectAt, compile_children]
  show (XPath.Expr.select d b (.path .context [⟨.child, .kind .node, []⟩]) n).mapError (Error.path "node()") = _
  rw [XPath.Expr.select_step, XPath.Axis.nodes, hfilter]
  rfl

/-- The mapping gives the node tree when the reference in it gives those of the children. -/
theorem Mapping.apply_nodeTree {resolve : Reference → Node → Run Json} {b : Bindings}
    (h : ∀ m ∈ d.children n, resolve .nodeTree m = .done (d.nodeTree m)) :
    Mapping.nodeTree.apply resolve d b n = .done (d.nodeTree n) := by
  have hitems : itemsAt d b "node()" (resolve .nodeTree) n = .done ((d.children n).map d.nodeTree) := by
    rw [itemsAt, selectAt_children]
    exact Run.each_done h
  have hchildren : (Mapping.array "node()" (.deferred .nodeTree)).apply resolve d b n =
      .done (.array ((d.children n).map d.nodeTree)) := by
    show (itemsAt d b "node()" (resolve .nodeTree) n).map Json.array = _
    rw [hitems]
    rfl
  rw [nodeTree_def, d.nodeTree_eq n, Mapping.apply, membersOf, membersOf, membersOf, Binding.apply, Binding.apply, hchildren]
  rfl

/-! ### The depth of references -/

namespace Document
variable {m : Node}

theorem length_descendants_lt (hm : m ∈ d.descendants n) : (d.descendants m).length < (d.descendants n).length := by
  have hnodup : (m :: d.descendants m).Nodup := (XPath.Axis.ordered_nodes (d := d) (n := m) .descendantOrSelf).nodup
  exact (hnodup.subperm (List.cons_subset.mpr ⟨hm, fun _ hx => mem_descendants_of_mem hm hx⟩)).length_le

theorem length_descendants_lt_size (d : Document) (n : Node) : (d.descendants n).length < d.size := by
  -- The size counts every node with its attributes, so it is not less than the number of nodes.
  have hcount : ∀ (ns : List Node) (start : Nat),
      start + ns.length ≤ ns.foldl (fun count n => count + 1 + (d.attributes n).length) start := fun ns => by
    induction ns with
    | nil => simp
    | cons m ns ih =>
      intro start
      have := ih (start + 1 + (d.attributes m).length)
      rw [List.foldl_cons, List.length_cons]
      omega
  have hroot : (d.descendants n).length ≤ (d.descendants .root).length :=
    ((d.ordered_descendants n).nodup.subperm fun _ hm => mem_descendants_root hm).length_le
  have := hcount (.root :: d.descendants .root) 0
  rw [List.length_cons] at this
  rw [size]
  omega

end Document

/-- References to the node tree are followed through a node down to its leaves, when the depth is greater than
    the number of nodes below it. -/
theorem resolveWithin_nodeTree (defs : Definitions) (d : Document) (b : Bindings) {depth : Nat} {n : Node}
    (h : (d.descendants n).length < depth) :
    resolveWithin defs d b depth .nodeTree n = .done (d.nodeTree n) := by
  induction depth generalizing n with
  | zero => exact absurd h (Nat.not_lt_zero _)
  | succ depth ih =>
    refine Mapping.apply_nodeTree fun m hm => ih ?_
    have := Document.length_descendants_lt (Document.mem_descendants_of_mem_children hm)
    omega

/-- No attribute is below a node. -/
theorem Document.not_mem_kinds_descendants (d : Document) (n : Node) :
    some .attribute ∉ (d.descendants n).map d.kind? := by
  intro h
  obtain ⟨m, hm, hkind⟩ := List.mem_map.mp h
  obtain ⟨-, p, s, -, -, rfl⟩ := mem_descendants_iff.mp hm
  obtain ⟨c, hc, hkind⟩ := Option.map_eq_some_iff.mp hkind
  rcases c with _ | (_ | _ | _ | _) | a <;> cases hkind
  cases (content?_eq_attribute hc).1

/-- The ready-made mapping makes of every node its node tree, without a warning: the object of its name and
    the node trees of its children in document order. In it is one object for each node of the subtree and
    none for an attribute below. -/
theorem run_nodeTree (defs : Definitions) (d : Document) (b : Bindings) (n : Node) :
    Mapping.nodeTree.run defs d b n = .done (d.nodeTree n) ∧
      d.nodeTree n = .object [(Mapping.nameKey, .string (d.nodeName n)),
        (Mapping.childrenKey, .array ((d.children n).map d.nodeTree))] ∧
      (d.nodeTree n).objects.map shownName = (n :: d.descendants n).map (fun m => some (.string (d.nodeName m))) ∧
      some .attribute ∉ (d.descendants n).map d.kind? := by
  refine ⟨Mapping.apply_nodeTree fun m _ => resolveWithin_nodeTree defs d b ?_, d.nodeTree_eq n,
    d.map_objects_nodeTree n, d.not_mem_kinds_descendants n⟩
  calc (d.descendants m).length
      < d.size := d.length_descendants_lt_size m
    _ ≤ referenceDepth defs d := Nat.le_mul_of_pos_left _ (Nat.succ_pos _)

end XmlMapping
