import XmlMapping.Document.Naming
import XmlMapping.Document.Navigation

/-! # Documents without declarations

The declarations of namespaces in a document decide with which prefix a name is shown and nothing else: a
document without them has the same places, with the same names, kinds and string values, and the same
nodes are reached from each. So two documents that differ in what they declare alone show their names with
different prefixes, and are told apart by nothing else. -/

namespace XmlMapping

mutual

/-- A tree whose elements declare no namespaces. -/
def Tree.undeclared : Tree → Tree
  | .element tag ts => .element { tag with declarations := [] } (undeclaredAll ts)
  | .text s => .text s
  | .comment s => .comment s
  | .instruction target s => .instruction target s

/-- Trees whose elements declare no namespaces. -/
def undeclaredAll : List Tree → List Tree
  | [] => []
  | t :: ts => t.undeclared :: undeclaredAll ts

end

/-- A document whose elements declare no namespaces, so that no name is shown with a prefix but `xml`. -/
def Document.undeclared (d : Document) : Document :=
  ⟨undeclaredAll d.trees⟩

/-- What stands at a place, without declarations. -/
def Content.undeclared : Content → Content
  | .document ts => .document (undeclaredAll ts)
  | .tree t => .tree t.undeclared
  | .attribute a => .attribute a

theorem undeclaredAll_eq_map (ts : List Tree) : undeclaredAll ts = ts.map Tree.undeclared := by
  induction ts with
  | nil => rfl
  | cons t ts ih => rw [undeclaredAll, ih, List.map_cons]

/-! ### Places -/

@[simp] theorem Tree.children_undeclared (t : Tree) : t.undeclared.children = undeclaredAll t.children := by
  cases t <;> rfl

@[simp] theorem childrenAt_undeclaredAll (ts : List Tree) (p : Path) :
    childrenAt (undeclaredAll ts) p = undeclaredAll (childrenAt ts p) := by
  induction p with
  | nil => rfl
  | cons i p ih =>
    rw [childrenAt, childrenAt, ih, undeclaredAll_eq_map, List.getElem?_map]
    cases (childrenAt ts p)[i]? with
    | none => rfl
    | some t => exact t.children_undeclared

@[simp] theorem treeAt?_undeclaredAll (ts : List Tree) (p : Path) :
    treeAt? (undeclaredAll ts) p = (treeAt? ts p).map Tree.undeclared := by
  cases p with
  | nil => rfl
  | cons i p => rw [treeAt?, treeAt?, childrenAt_undeclaredAll, undeclaredAll_eq_map, List.getElem?_map]

mutual

@[simp] theorem Tree.pathsBelow_undeclared (p : Path) : ∀ t : Tree, t.undeclared.pathsBelow p = t.pathsBelow p
  | .element _ ts => pathsWithin_undeclaredAll p 0 ts
  | .text _ => rfl
  | .comment _ => rfl
  | .instruction .. => rfl

@[simp] theorem pathsWithin_undeclaredAll (p : Path) (i : Nat) : ∀ ts : List Tree,
    pathsWithin p i (undeclaredAll ts) = pathsWithin p i ts
  | [] => rfl
  | t :: ts => by
    rw [undeclaredAll, pathsWithin, pathsWithin, Tree.pathsBelow_undeclared _ t, pathsWithin_undeclaredAll _ _ ts]

end

@[simp] theorem pathsAfter_undeclaredAll (ts : List Tree) (p : Path) :
    pathsAfter (undeclaredAll ts) p = pathsAfter ts p := by
  induction p with
  | nil => rfl
  | cons i p ih =>
    have hdrop := pathsWithin_undeclaredAll p (i + 1) ((childrenAt ts p).drop (i + 1))
    rw [pathsAfter, pathsAfter, ih, childrenAt_undeclaredAll, ← hdrop, undeclaredAll_eq_map, undeclaredAll_eq_map,
      List.map_drop]

@[simp] theorem pathsBefore_undeclaredAll (ts : List Tree) (p : Path) :
    pathsBefore (undeclaredAll ts) p = pathsBefore ts p := by
  induction p with
  | nil => rfl
  | cons i p ih =>
    have htake := pathsWithin_undeclaredAll p 0 ((childrenAt ts p).take i)
    rw [pathsBefore, pathsBefore, ih, childrenAt_undeclaredAll, ← htake, undeclaredAll_eq_map, undeclaredAll_eq_map,
      List.map_take]

/-! ### String values -/

mutual

@[simp] theorem Tree.textWithin_undeclared : ∀ t : Tree, t.undeclared.textWithin = t.textWithin
  | .element _ ts => textWithinAll_undeclaredAll ts
  | .text _ => rfl
  | .comment _ => rfl
  | .instruction .. => rfl

@[simp] theorem textWithinAll_undeclaredAll : ∀ ts : List Tree, textWithinAll (undeclaredAll ts) = textWithinAll ts
  | [] => rfl
  | t :: ts => by
    rw [undeclaredAll, textWithinAll, textWithinAll, Tree.textWithin_undeclared t, textWithinAll_undeclaredAll ts]

end

@[simp] theorem Tree.stringValue_undeclared (t : Tree) : t.undeclared.stringValue = t.stringValue := by
  cases t with
  | element tag ts => exact textWithinAll_undeclaredAll ts
  | _ => rfl

namespace Content

@[simp] theorem name?_undeclared (c : Content) : c.undeclared.name? = c.name? := by
  rcases c with _ | t | _
  · rfl
  · cases t <;> rfl
  · rfl

@[simp] theorem kind_undeclared (c : Content) : c.undeclared.kind = c.kind := by
  rcases c with _ | t | _
  · rfl
  · cases t <;> rfl
  · rfl

end Content

namespace Document
variable (d : Document) (n : Node)

@[simp] theorem trees_undeclared : d.undeclared.trees = undeclaredAll d.trees := rfl

@[simp] theorem content?_undeclared : d.undeclared.content? n = (d.content? n).map Content.undeclared := by
  obtain ⟨p, _ | k⟩ := n
  · cases p with
    | nil => rfl
    | cons i p =>
      simp only [content?, trees_undeclared, treeAt?_undeclaredAll, Option.map_map]
      rfl
  · simp only [content?, trees_undeclared, treeAt?_undeclaredAll]
    cases treeAt? d.trees p with
    | none => rfl
    | some t =>
      cases t with
      | element tag ts =>
        show tag.attributes[k]?.map .attribute = (tag.attributes[k]?.map .attribute).map Content.undeclared
        rw [Option.map_map]
        rfl
      | _ => rfl

@[simp] theorem stringValue_undeclared : d.undeclared.stringValue n = d.stringValue n := by
  rw [stringValue, stringValue, content?_undeclared]
  rcases d.content? n with _ | ts | t | _
  · rfl
  · exact textWithinAll_undeclaredAll ts
  · exact t.stringValue_undeclared
  · rfl

/-! ### Names and kinds -/

@[simp] theorem name?_undeclared : d.undeclared.name? n = d.name? n := by
  rw [name?, name?, content?_undeclared]
  cases d.content? n with
  | none => rfl
  | some c => exact c.name?_undeclared

@[simp] theorem kind?_undeclared : d.undeclared.kind? n = d.kind? n := by
  rw [kind?, kind?, content?_undeclared]
  cases d.content? n with
  | none => rfl
  | some c => exact congrArg some c.kind_undeclared

@[simp] theorem localName_undeclared : d.undeclared.localName = d.localName := by
  funext n
  rw [localName, localName, name?_undeclared]

@[simp] theorem namespaceUri_undeclared : d.undeclared.namespaceUri = d.namespaceUri := by
  funext n
  rw [namespaceUri, namespaceUri, name?_undeclared]

/-! ### Navigation -/

@[simp] theorem childrenOf_undeclared (p : Path) : d.undeclared.childrenOf p = d.childrenOf p := by
  rw [childrenOf, childrenOf, trees_undeclared, childrenAt_undeclaredAll, undeclaredAll_eq_map, List.length_map]

@[simp] theorem children_undeclared : d.undeclared.children n = d.children n := by
  simp [children]

@[simp] theorem attributes_undeclared : d.undeclared.attributes n = d.attributes n := by
  rw [attributes, attributes, content?_undeclared]
  rcases d.content? n with _ | _ | t | _
  · rfl
  · rfl
  · cases t <;> rfl
  · rfl

@[simp] theorem descendants_undeclared : d.undeclared.descendants n = d.descendants n := by
  simp [descendants]

@[simp] theorem followingSiblings_undeclared : d.undeclared.followingSiblings n = d.followingSiblings n := by
  simp [followingSiblings]

@[simp] theorem precedingSiblings_undeclared : d.undeclared.precedingSiblings n = d.precedingSiblings n := by
  simp [precedingSiblings]

@[simp] theorem following_undeclared : d.undeclared.following n = d.following n := by
  simp [following]

@[simp] theorem preceding_undeclared : d.undeclared.preceding n = d.preceding n := by
  simp [preceding]

end Document
end XmlMapping
