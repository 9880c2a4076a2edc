import XmlMapping.Proofs.Document.Kin
import XmlMapping.Proofs.XPath.Direction

/-! # Document order by numbers

The tree nodes of a document are numbered depth first, a node before what is below it. Attributes have no
numbers of their own: they take the number of their element and count on from it. Comparing such keys is
comparing places, so that no two nodes of a document share a key and no key is out of order. -/

namespace XmlMapping

/-! ### Keys -/

/-- The number of the tree node at a path among all tree nodes, depth first. -/
def Document.number (d : Document) (p : Path) : Nat :=
  d.nodes.idxOf (.ofPath p)

/-- The place of a node in the order of an element and its attributes. -/
def attributeOffset : Option Nat → Nat
  | none => 0
  | some k => k + 1

/-- The key of a node: the number of its tree node, and the offset of an attribute from its element. -/
def Document.orderKey (d : Document) (n : Node) : Nat × Nat :=
  (d.number n.path, attributeOffset n.attr)

/-- How two keys compare: by the numbers first. -/
def compareKeys (x y : Nat × Nat) : Ordering :=
  (compare x.1 y.1).then (compare x.2 y.2)

theorem compareKeys_eq {x y : Nat × Nat} : compareKeys x y = .eq ↔ x = y := by
  rw [compareKeys, Ordering.then_eq_eq, Nat.compare_eq_eq, Nat.compare_eq_eq, Prod.ext_iff]

theorem compareAttributes_offset (a b : Option Nat) :
    compareAttributes a b = compare (attributeOffset a) (attributeOffset b) := by
  cases a with
  | none => cases b <;> rfl
  | some i =>
    cases b with
    | none => rfl
    | some j =>
      show compare i j = compare (i + 1) (j + 1)
      rcases Nat.lt_trichotomy i j with h | h | h
      · rw [Nat.compare_eq_lt.mpr h, Nat.compare_eq_lt.mpr (Nat.succ_lt_succ h)]
      · rw [Nat.compare_eq_eq.mpr h, Nat.compare_eq_eq.mpr (congrArg Nat.succ h)]
      · rw [Nat.compare_eq_gt.mpr h, Nat.compare_eq_gt.mpr (Nat.succ_lt_succ h)]

/-- In a list in document order a node that comes before another has the smaller index. -/
theorem Ordered.idxOf_lt {ns : List Node} (h : Ordered ns) {m n : Node} (hm : m ∈ ns) (hn : n ∈ ns)
    (hbefore : m.before n) : ns.idxOf m < ns.idxOf n := by
  have hm' := List.idxOf_lt_length_iff.mpr hm
  have hn' := List.idxOf_lt_length_iff.mpr hn
  rcases Nat.lt_trichotomy (ns.idxOf m) (ns.idxOf n) with hlt | heq | hgt
  · exact hlt
  · rw [(List.idxOf_inj hm).mp heq] at hbefore
    exact absurd hbefore (Node.before_irrefl n)
  · have hback := List.pairwise_iff_getElem.mp h _ _ hn' hm' hgt
    rw [List.getElem_idxOf hn', List.getElem_idxOf hm'] at hback
    exact absurd (Node.before_trans hbefore hback) (Node.before_irrefl m)

variable {d : Document} {m n x : Node} {p : Path}

theorem Document.number_lt {q : Path} (hp : d.Holds (.ofPath p)) (hq : d.Holds (.ofPath q))
    (h : (Node.ofPath p).before (.ofPath q)) : d.number p < d.number q :=
  (XPath.ordered_nodes d).idxOf_lt (XPath.mem_nodes_iff.mpr ⟨hp, rfl⟩) (XPath.mem_nodes_iff.mpr ⟨hq, rfl⟩) h

theorem compare_ofPath (p q : Path) : (Node.ofPath p).compare (.ofPath q) = comparePaths p q := by
  show (comparePaths p q).then .eq = _
  cases comparePaths p q <;> rfl

theorem comparePaths_number {q : Path} (hp : d.Holds (.ofPath p)) (hq : d.Holds (.ofPath q)) :
    comparePaths p q = compare (d.number p) (d.number q) := by
  rw [← compare_ofPath]
  cases h : (Node.ofPath p).compare (.ofPath q) with
  | lt => rw [Nat.compare_eq_lt.mpr (Document.number_lt hp hq h)]
  | eq =>
    obtain rfl : p = q := congrArg Node.path (Node.eq_of_compare h)
    rw [Nat.compare_eq_eq.mpr rfl]
  | gt => rw [Nat.compare_eq_gt.mpr (Document.number_lt hq hp (Node.before_of_gt h))]

/-- Nodes of a document compare as their keys do. -/
theorem compare_eq_compareKeys (hm : d.Holds m) (hn : d.Holds n) :
    m.compare n = compareKeys (d.orderKey m) (d.orderKey n) := by
  rw [Node.compare, comparePaths_number hm.ofPath hn.ofPath, compareAttributes_offset]
  rfl

theorem orderKey_inj (hm : d.Holds m) (hn : d.Holds n) : d.orderKey m = d.orderKey n ↔ m = n := by
  rw [← compareKeys_eq, ← compare_eq_compareKeys hm hn]
  constructor
  · exact Node.eq_of_compare
  · intro h
    rw [h]
    exact Std.ReflCmp.compare_self

/-! ### Subtrees -/

/-- What lies at or below a tree node, or is attached there, is what its path begins with. -/
theorem ofPath_mem_ancestorOrSelf_iff :
    Node.ofPath p ∈ XPath.Axis.ancestorOrSelf.nodes d x ↔ ∃ s, x.path = s ++ p := by
  have hpaths : ∀ q, p = q ∨ p ∈ pathsAbove q ↔ ∃ s, q = s ++ p := fun q => by
    rw [mem_pathsAbove]
    constructor
    · intro h
      rcases h with h | ⟨s, -, h⟩
      · exact ⟨[], h.symm⟩
      · exact ⟨s, h⟩
    · intro h
      obtain ⟨s, h⟩ := h
      by_cases hs : s = []
      · exact Or.inl (by rw [h, hs]; rfl)
      · exact Or.inr ⟨s, hs, h⟩
  have hinj : ∀ q, Node.ofPath p = .ofPath q ↔ p = q := fun q =>
    ⟨congrArg Node.path, congrArg Node.ofPath⟩
  obtain ⟨q, _ | k⟩ := x
  · simp only [XPath.Axis.nodes, Node.ancestors, List.mem_cons, XPath.mem_map_ofPath]
    rw [← hpaths q]
    exact or_congr_left (hinj q)
  · have hself : Node.ofPath p ≠ ⟨q, some k⟩ := fun h => by cases congrArg Node.attr h
    simp only [XPath.Axis.nodes, Node.ancestors, List.mem_cons, XPath.mem_map_ofPath, hself, false_or]
    rw [← hpaths q]
    exact or_congr_left (hinj q)

/-- A node comes before everything at or below its children. -/
theorem before_subtree {c : Node} (hc : c ∈ d.children n) (hx : c ∈ XPath.Axis.ancestorOrSelf.nodes d x)
    (a : Option Nat) : Node.before ⟨n.path, a⟩ x := by
  obtain ⟨-, hattr, hparent⟩ := Document.mem_children_iff.mp hc
  obtain ⟨q, rfl⟩ := Node.exists_ofPath hattr
  cases q with
  | nil => cases hparent
  | cons i p =>
    obtain rfl := Option.some.inj hparent
    obtain ⟨s, hs⟩ := ofPath_mem_ancestorOrSelf_iff.mp hx
    obtain ⟨q, b⟩ := x
    obtain rfl : q = s ++ i :: p := hs
    have h := Node.before_below (p := p) (s := s ++ [i]) (by simp) a b
    rwa [List.append_assoc] at h

theorem attributes_getElem? {i : Nat} (h : (d.attributes n)[i]? = some m) : n.attr = none ∧ m = ⟨n.path, some i⟩ := by
  unfold Document.attributes at h
  split at h
  · next tag ts hcontent =>
    rw [List.getElem?_map, Option.map_eq_some_iff] at h
    obtain ⟨k, hk, rfl⟩ := h
    obtain ⟨hi, rfl⟩ := List.getElem?_eq_some_iff.mp hk
    rw [List.getElem_range]
    exact ⟨(Document.content?_eq_tree hcontent).1, rfl⟩
  · cases h

theorem children_getElem? {i : Nat} (h : (d.children n)[i]? = some m) : m = .ofPath (i :: n.path) := by
  unfold Document.children at h
  split at h
  · cases h
  · exact (Document.getElem?_childrenOf.mp h).2

/-! ### The document node -/

theorem Node.top_eq (n : Node) : n.top = .root := by
  fun_induction Node.top n with
  | case1 n m h ih => exact ih
  | case2 n h =>
    obtain ⟨p, _ | k⟩ := n
    · cases p with
      | nil => rfl
      | cons i p => cases h
    · cases h

theorem pathsAbove_getLast? (p : Path) : (p :: pathsAbove p).getLast? = some [] := by
  induction p with
  | nil => rfl
  | cons i p ih =>
    rw [pathsAbove, List.getLast?_cons_cons]
    exact ih

theorem ancestorOrSelf_getLast? (d : Document) (n : Node) :
    (XPath.Axis.ancestorOrSelf.nodes d n).getLast? = some .root := by
  have hpath : ((n.path :: pathsAbove n.path).map Node.ofPath).getLast? = some .root := by
    rw [List.getLast?_map, pathsAbove_getLast?]
    rfl
  obtain ⟨p, _ | k⟩ := n
  · exact hpath
  · show (⟨p, some k⟩ :: Node.ofPath p :: (pathsAbove p).map Node.ofPath).getLast? = _
    rw [List.getLast?_cons_cons]
    exact hpath

/-- Document order is a strict total order, and on the nodes of a document it is the order of their keys, which no
    two of them share. A node comes before everything below it and attached there, an element before its attributes
    by their positions and these before everything below it, and everything at or below a child before everything at
    or below a later one. Going up from a node ends at the document node, which is also the last of its ancestors. -/
theorem documentOrder_lawful (hn : d.Holds n) :
    (∀ m, d.Holds m → n.compare m = compareKeys (d.orderKey n) (d.orderKey m) ∧
        (n.compare m = .eq ↔ n = m) ∧ (d.orderKey n = d.orderKey m ↔ n = m)) ∧
      (∀ l : Node, ¬l.before l) ∧ (∀ l m k : Node, l.before m → m.before k → l.before k) ∧
      (∀ l m : Node, l.before m ∨ l = m ∨ m.before l) ∧
      (∀ c ∈ d.children n, ∀ x, c ∈ XPath.Axis.ancestorOrSelf.nodes d x → n.before x) ∧
      (∀ (i : Nat) (a : Node), (d.attributes n)[i]? = some a → n.before a ∧
        (∀ (j : Nat) (a' : Node), (d.attributes n)[j]? = some a' → (a.before a' ↔ i < j)) ∧
        ∀ c ∈ d.children n, ∀ x, c ∈ XPath.Axis.ancestorOrSelf.nodes d x → a.before x) ∧
      (∀ (i j : Nat) (c c' : Node), (d.children n)[i]? = some c → (d.children n)[j]? = some c' → i < j →
        ∀ x y, c ∈ XPath.Axis.ancestorOrSelf.nodes d x → c' ∈ XPath.Axis.ancestorOrSelf.nodes d y → x.before y) ∧
      n.top = .root ∧ (XPath.Axis.ancestorOrSelf.nodes d n).getLast? = some .root := by
  refine ⟨fun m hm => ⟨compare_eq_compareKeys hn hm, ?_, orderKey_inj hn hm⟩, Node.before_irrefl,
    fun _ _ _ => Node.before_trans, fun l m => ?_, fun c hc x hx => before_subtree hc hx n.attr,
    fun i a ha => ?_, fun i j c c' hc hc' hij x y hx hy => ?_, n.top_eq, ancestorOrSelf_getLast? d n⟩
  · rw [compare_eq_compareKeys hn hm, compareKeys_eq, orderKey_inj hn hm]
  · cases h : l.compare m with
    | lt => exact Or.inl h
    | eq => exact Or.inr (Or.inl (Node.eq_of_compare h))
    | gt => exact Or.inr (Or.inr (Node.before_of_gt h))
  · obtain ⟨hattr, rfl⟩ := attributes_getElem? ha
    obtain ⟨p, rfl⟩ := Node.exists_ofPath hattr
    refine ⟨Node.before_attribute p i, fun j a' ha' => ?_, fun c hc x hx => before_subtree hc hx (some i)⟩
    obtain ⟨-, rfl⟩ := attributes_getElem? ha'
    constructor
    · intro h
      refine Nat.lt_of_not_le fun hle => ?_
      rcases Nat.eq_or_lt_of_le hle with rfl | hlt
      · exact Node.before_irrefl _ h
      · exact Node.before_irrefl _ (Node.before_trans h (Node.attribute_before hlt))
    · exact Node.attribute_before
  · rw [children_getElem? hc] at hx
    rw [children_getElem? hc'] at hy
    obtain ⟨s, hs⟩ := ofPath_mem_ancestorOrSelf_iff.mp hx
    obtain ⟨t, ht⟩ := ofPath_mem_ancestorOrSelf_iff.mp hy
    obtain ⟨q, a⟩ := x
    obtain ⟨r, b⟩ := y
    obtain rfl : q = s ++ i :: n.path := hs
    obtain rfl : r = t ++ j :: n.path := ht
    exact Node.before_beside hij n.path s t a b

/-- `<r a="1" b="2"><c d="3"/><e/></r>` -/
def orderedDocument : Document :=
  ⟨[.element ⟨⟨none, "r"⟩, [], [⟨⟨none, "a"⟩, "1"⟩, ⟨⟨none, "b"⟩, "2"⟩]⟩
    [.element ⟨⟨none, "c"⟩, [], [⟨⟨none, "d"⟩, "3"⟩]⟩ [], .element ⟨⟨none, "e"⟩, [], []⟩ []]]⟩

/-- The attribute of `c` has the number of `c` and comes after both attributes of `r` and before `e`. -/
theorem documentOrder_lawful_attribute :
    orderedDocument.Holds (.ofPath [0]) ∧ orderedDocument.orderKey ⟨[0], some 1⟩ = (1, 2) ∧
      orderedDocument.orderKey ⟨[0, 0], some 0⟩ = (2, 1) ∧ orderedDocument.orderKey (.ofPath [1, 0]) = (3, 0) ∧
      Node.before ⟨[0], some 1⟩ ⟨[0, 0], some 0⟩ ∧ Node.before ⟨[0, 0], some 0⟩ (.ofPath [1, 0]) ∧
      (Node.ofPath [0]).top = .root := by
  obtain ⟨-, -, -, -, -, hattributes, hsiblings, htop, -⟩ :=
    documentOrder_lawful (d := orderedDocument) (n := .ofPath [0]) rfl
  obtain ⟨-, -, hbelow⟩ := hattributes 1 ⟨[0], some 1⟩ rfl
  refine ⟨rfl, by decide, by decide, by decide, ?_, ?_, htop⟩
  · exact hbelow (.ofPath [0, 0]) (by decide) _ (by decide)
  · exact hsiblings 0 1 (.ofPath [0, 0]) (.ofPath [1, 0]) rfl rfl (by decide) _ _ (by decide) (by decide)

end XmlMapping
