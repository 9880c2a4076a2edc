import XmlMapping.Proofs.XPath.Steps

/-! # The axes that part a document

From a node, each tree node of the document lies on exactly one of five axes: it is the node itself, or
above it, or below it, or before it, or after it. Which one it is follows from the places alone, from where
the path of the one parts from the path of the other. An attribute is seen from its element, which lies
above it and has all its descendants after the attribute. -/

namespace XmlMapping.XPath

/-! ### From one place to another -/

/-- The axis from one place to another, both given by their numbers from the document node down. -/
def axisBetween : List Nat → List Nat → Axis
  | [], [] => .self
  | [], _ :: _ => .descendant
  | _ :: _, [] => .ancestor
  | i :: p, j :: q => if i = j then axisBetween p q else if j < i then .preceding else .following

/-- Whether an axis leads from the place at one path to the place at another. -/
inductive Leads : Path → Path → Axis → Prop
  | self (p : Path) : Leads p p .self
  | descendant {s : Path} (hs : s ≠ []) (p : Path) : Leads p (s ++ p) .descendant
  | ancestor {s : Path} (hs : s ≠ []) (q : Path) : Leads (s ++ q) q .ancestor
  | preceding {i k : Nat} (h : k < i) (r s p : Path) : Leads (r ++ i :: p) (s ++ k :: p) .preceding
  | following {i k : Nat} (h : i < k) (r s p : Path) : Leads (r ++ i :: p) (s ++ k :: p) .following

variable {p q : Path} {axis : Axis}

theorem Leads.append (h : Leads p q axis) (c : Path) : Leads (p ++ c) (q ++ c) axis := by
  cases h with
  | self => exact .self _
  | descendant hs =>
    rw [List.append_assoc]
    exact .descendant hs _
  | ancestor hs =>
    rw [List.append_assoc]
    exact .ancestor hs _
  | preceding h r s =>
    simp only [List.append_assoc, List.cons_append]
    exact .preceding h r s _
  | following h r s =>
    simp only [List.append_assoc, List.cons_append]
    exact .following h r s _

theorem axisBetween_append (c u v : List Nat) : axisBetween (c ++ u) (c ++ v) = axisBetween u v := by
  induction c with
  | nil => rfl
  | cons i c ih => rw [List.cons_append, List.cons_append, axisBetween, if_pos rfl, ih]

theorem leads_axisBetween (u v : List Nat) : Leads u.reverse v.reverse (axisBetween u v) := by
  induction u generalizing v with
  | nil =>
    cases v with
    | nil => exact .self []
    | cons j v => simpa [axisBetween] using Leads.descendant (s := (j :: v).reverse) (by simp) []
  | cons i u ih =>
    cases v with
    | nil => simpa [axisBetween] using Leads.ancestor (s := (i :: u).reverse) (by simp) []
    | cons j v =>
      rw [axisBetween, List.reverse_cons, List.reverse_cons]
      split
      · next h =>
        rw [h]
        exact (ih v).append [j]
      · split
        · next h => exact .preceding h u.reverse v.reverse []
        · next h => exact .following (by omega) u.reverse v.reverse []

/-- Exactly one axis leads from a path to another. -/
theorem leads_iff : Leads p q axis ↔ axisBetween p.reverse q.reverse = axis := by
  constructor
  · intro h
    cases h with
    | self => simpa [axisBetween] using axisBetween_append p.reverse [] []
    | @descendant s hs =>
      obtain ⟨i, t, ht⟩ := List.exists_cons_of_ne_nil (List.reverse_ne_nil_iff.mpr hs)
      rw [List.reverse_append, ht]
      simpa [axisBetween] using axisBetween_append p.reverse [] (i :: t)
    | @ancestor s hs =>
      obtain ⟨i, t, ht⟩ := List.exists_cons_of_ne_nil (List.reverse_ne_nil_iff.mpr hs)
      rw [List.reverse_append, ht]
      simpa [axisBetween] using axisBetween_append q.reverse (i :: t) []
    | preceding h r s c =>
      simp only [List.reverse_append, List.reverse_cons, List.append_assoc, axisBetween_append]
      simp [axisBetween, h, Nat.ne_of_gt h]
    | following h r s c =>
      simp only [List.reverse_append, List.reverse_cons, List.append_assoc, axisBetween_append]
      simp [axisBetween, Nat.ne_of_lt h, Nat.not_lt_of_lt h]
  · rintro rfl
    simpa using leads_axisBetween p.reverse q.reverse

theorem leads_self_iff : Leads p q .self ↔ q = p := by
  constructor
  · rintro ⟨⟩
    rfl
  · rintro rfl
    exact .self q

theorem leads_descendant_iff : Leads p q .descendant ↔ ∃ s, s ≠ [] ∧ q = s ++ p := by
  constructor
  · rintro ⟨⟩
    next s hs => exact ⟨s, hs, rfl⟩
  · rintro ⟨s, hs, rfl⟩
    exact .descendant hs p

theorem leads_ancestor_iff : Leads p q .ancestor ↔ q ∈ pathsAbove p := by
  rw [mem_pathsAbove]
  constructor
  · rintro ⟨⟩
    next s hs => exact ⟨s, hs, rfl⟩
  · rintro ⟨s, hs, rfl⟩
    exact .ancestor hs q

theorem mem_pathsBefore_iff {ts : List Tree} :
    q ∈ pathsBefore ts p ↔ Leads p q .preceding ∧ (treeAt? ts q).isSome := by
  rw [mem_pathsBefore]
  constructor
  · rintro ⟨r, i, c, s, k, rfl, rfl, hk, hq⟩
    exact ⟨.preceding hk r s c, hq⟩
  · rintro ⟨⟨⟩, hq⟩
    next i k hk r s c => exact ⟨r, i, c, s, k, rfl, rfl, hk, hq⟩

theorem mem_pathsAfter_iff {ts : List Tree} :
    q ∈ pathsAfter ts p ↔ Leads p q .following ∧ (treeAt? ts q).isSome := by
  rw [mem_pathsAfter]
  constructor
  · rintro ⟨r, i, c, s, k, rfl, rfl, hk, hq⟩
    exact ⟨.following hk r s c, hq⟩
  · rintro ⟨⟨⟩, hq⟩
    next i k hk r s c => exact ⟨r, i, c, s, k, rfl, rfl, hk, hq⟩

theorem mem_pathsWithin_iff {ts : List Tree} :
    q ∈ pathsWithin p 0 (childrenAt ts p) ↔ Leads p q .descendant ∧ (treeAt? ts q).isSome := by
  rw [mem_pathsWithin, leads_descendant_iff]
  constructor
  · rintro ⟨s, j, rfl, hs⟩
    rw [← treeAt?_append _ (by simp)] at hs
    exact ⟨⟨s ++ [0 + j], by simp, by simp⟩, by simpa using hs⟩
  · rintro ⟨⟨s, hne, rfl⟩, hs⟩
    obtain ⟨s, j, rfl⟩ := (List.eq_nil_or_concat s).resolve_left hne
    rw [treeAt?_append _ hne, List.concat_eq_append] at hs
    exact ⟨s, j, by simp, hs⟩

/-! ### From one node to another -/

/-- The five axes that part a document. -/
def partingAxes : List Axis :=
  [.self, .ancestor, .descendant, .preceding, .following]

/-- The axis from an attribute to what lies on an axis from its element. -/
def Axis.fromAttribute : Axis → Axis
  | .self => .ancestor
  | .descendant => .following
  | axis => axis

/-- The axis from a node to the tree node at a path. -/
def axisTo (n : Node) (q : Path) : Axis :=
  let axis := axisBetween n.path.reverse q.reverse
  if n.attr.isSome then axis.fromAttribute else axis

theorem Axis.fromAttribute_eq_ancestor : axis.fromAttribute = .ancestor ↔ axis = .self ∨ axis = .ancestor := by
  cases axis <;> decide

theorem Axis.fromAttribute_eq_preceding : axis.fromAttribute = .preceding ↔ axis = .preceding := by
  cases axis <;> decide

theorem Axis.fromAttribute_eq_following :
    axis.fromAttribute = .following ↔ axis = .descendant ∨ axis = .following := by
  cases axis <;> decide

theorem Leads.axis_mem (h : Leads p q axis) : axis ∈ partingAxes := by
  cases h <;> decide

theorem Axis.fromAttribute_mem (h : axis ∈ partingAxes) : axis.fromAttribute ∈ partingAxes := by
  cases axis <;> first | exact h | decide

theorem axisTo_mem (n : Node) (q : Path) : axisTo n q ∈ partingAxes := by
  have h : axisBetween n.path.reverse q.reverse ∈ partingAxes := (leads_iff.mpr rfl).axis_mem
  unfold axisTo
  split
  · exact Axis.fromAttribute_mem h
  · exact h

section
variable {d : Document} {n m : Node}

theorem leads_and_holds_iff (haxis : axis = .descendant ∨ axis = .preceding ∨ axis = .following) :
    Leads p q axis ∧ d.Holds (.ofPath q) ↔ Leads p q axis ∧ (treeAt? d.trees q).isSome := by
  refine and_congr_right fun h => ?_
  -- The document node lies on none of these axes.
  have hne : q ≠ [] := by
    rcases haxis with rfl | rfl | rfl <;> cases h <;> simp [*]
  rw [Document.holds_ofPath, or_iff_right hne]

theorem mem_map_ofPath {ps : List Path} : Node.ofPath q ∈ ps.map Node.ofPath ↔ q ∈ ps := by
  simp [Node.ofPath]

theorem ofPath_mem_ancestor_iff (hn : d.Holds (.ofPath p)) :
    Node.ofPath q ∈ (pathsAbove p).map Node.ofPath ↔ Leads p q .ancestor ∧ d.Holds (.ofPath q) := by
  rw [mem_map_ofPath, ← leads_ancestor_iff]
  refine (and_iff_left_of_imp fun h => ?_).symm
  cases h
  exact hn.of_append

theorem ofPath_mem_descendant_iff :
    Node.ofPath q ∈ d.descendants (.ofPath p) ↔ Leads p q .descendant ∧ d.Holds (.ofPath q) := by
  rw [leads_and_holds_iff (Or.inl rfl), ← mem_pathsWithin_iff]
  exact mem_map_ofPath

theorem ofPath_mem_preceding_iff :
    Node.ofPath q ∈ d.preceding n ↔ Leads n.path q .preceding ∧ d.Holds (.ofPath q) := by
  rw [leads_and_holds_iff (Or.inr (Or.inl rfl)), ← mem_pathsBefore_iff]
  exact mem_map_ofPath

theorem ofPath_mem_following_iff :
    Node.ofPath q ∈ (pathsAfter d.trees p).map Node.ofPath ↔ Leads p q .following ∧ d.Holds (.ofPath q) := by
  rw [leads_and_holds_iff (Or.inr (Or.inr rfl)), ← mem_pathsAfter_iff]
  exact mem_map_ofPath

/-- A tree node lies on the one of the five axes that its place tells. -/
theorem ofPath_mem_nodes_iff (hn : d.Holds n) (haxis : axis ∈ partingAxes) :
    Node.ofPath q ∈ axis.nodes d n ↔ axisTo n q = axis ∧ d.Holds (.ofPath q) := by
  obtain ⟨p, attr⟩ := n
  have hp : d.Holds (.ofPath p) := hn.ofPath
  have hself : Leads p q .self ↔ Leads p q .self ∧ d.Holds (.ofPath q) :=
    (and_iff_left_of_imp fun h => leads_self_iff.mp h ▸ hp).symm
  cases attr with
  | none =>
    show _ ↔ axisBetween p.reverse q.reverse = axis ∧ _
    rw [← leads_iff]
    simp only [partingAxes, List.mem_cons, List.not_mem_nil, or_false] at haxis
    rcases haxis with rfl | rfl | rfl | rfl | rfl
    · rw [← hself, leads_self_iff]
      simp [Axis.nodes, Node.ofPath]
    · exact ofPath_mem_ancestor_iff hp
    · exact ofPath_mem_descendant_iff
    · exact ofPath_mem_preceding_iff
    · exact ofPath_mem_following_iff
  | some k =>
    show _ ↔ (axisBetween p.reverse q.reverse).fromAttribute = axis ∧ _
    simp only [partingAxes, List.mem_cons, List.not_mem_nil, or_false] at haxis
    rcases haxis with rfl | rfl | rfl | rfl | rfl
    · have hne : (axisBetween p.reverse q.reverse).fromAttribute ≠ .self := by
        cases axisBetween p.reverse q.reverse <;> decide
      simp [Axis.nodes, Node.ofPath, hne]
    · rw [Axis.fromAttribute_eq_ancestor, ← leads_iff, ← leads_iff, or_and_right, ← hself, leads_self_iff,
        ← ofPath_mem_ancestor_iff hp]
      simp [Axis.nodes, Node.ancestors, Node.ofPath]
    · have hne : (axisBetween p.reverse q.reverse).fromAttribute ≠ .descendant := by
        cases axisBetween p.reverse q.reverse <;> decide
      simp [Axis.nodes, Document.descendants, hne]
    · rw [Axis.fromAttribute_eq_preceding, ← leads_iff]
      exact ofPath_mem_preceding_iff
    · rw [Axis.fromAttribute_eq_following, ← leads_iff, ← leads_iff, or_and_right, ← ofPath_mem_descendant_iff,
        ← ofPath_mem_following_iff, ← List.mem_append]
      rfl

theorem eq_of_mem_self (h : m ∈ Axis.self.nodes d n) : m = n :=
  List.mem_singleton.mp h

/-- Only the axis of the node itself leads to an attribute. -/
theorem attr_of_mem_nodes (haxis : axis ∈ partingAxes) (hself : axis ≠ .self) (h : m ∈ axis.nodes d n) :
    m.attr = none := by
  have tree {ps : List Path} (hm : m ∈ ps.map Node.ofPath) : m.attr = none := by
    obtain ⟨q, -, rfl⟩ := List.mem_map.mp hm
    rfl
  have below {n : Node} (hm : m ∈ d.descendants n) : m.attr = none := by
    unfold Document.descendants at hm
    split at hm
    · cases hm
    · exact tree hm
  simp only [partingAxes, List.mem_cons, List.not_mem_nil, or_false] at haxis
  rcases haxis with rfl | rfl | rfl | rfl | rfl
  · exact absurd rfl hself
  · simp only [Axis.nodes, Node.ancestors] at h
    split at h
    · rcases List.mem_cons.mp h with rfl | h
      · rfl
      · exact tree h
    · exact tree h
  · exact below h
  · exact tree h
  · simp only [Axis.nodes, Document.following] at h
    split at h
    · rcases List.mem_append.mp h with h | h
      · exact below h
      · exact tree h
    · exact tree h

theorem Axis.nodup_nodes (axis : Axis) : (axis.nodes d n).Nodup := by
  have h := (axis.ordered_nodes (d := d) (n := n)).nodup
  split at h
  · exact List.nodup_reverse.mp h
  · exact h

theorem disjoint_nodes (hn : d.Holds n) {axis' : Axis} (haxis : axis ∈ partingAxes) (haxis' : axis' ∈ partingAxes)
    (hne : axis ≠ axis') : (axis.nodes d n).Disjoint (axis'.nodes d n) := by
  intro m hm hm'
  by_cases hattr : m.attr = none
  · obtain ⟨q, rfl⟩ := Node.exists_ofPath hattr
    have h := ((ofPath_mem_nodes_iff hn haxis).mp hm).1
    have h' := ((ofPath_mem_nodes_iff hn haxis').mp hm').1
    exact hne (h.symm.trans h')
  · have hself : axis = .self := by_contra fun h => hattr (attr_of_mem_nodes haxis h hm)
    have hself' : axis' = .self := by_contra fun h => hattr (attr_of_mem_nodes haxis' h hm')
    exact hne (hself.trans hself'.symm)

theorem exists_mem_nodes_iff (hn : d.Holds n) :
    (∃ axis ∈ partingAxes, m ∈ axis.nodes d n) ↔ m = n ∨ d.Holds m ∧ m.attr = none := by
  constructor
  · rintro ⟨axis, haxis, hm⟩
    by_cases hself : axis = .self
    · subst hself
      exact Or.inl (eq_of_mem_self hm)
    · exact Or.inr ⟨axis.holds_of_mem_nodes hn hm, attr_of_mem_nodes haxis hself hm⟩
  · rintro (rfl | ⟨hm, hattr⟩)
    · exact ⟨.self, by decide, List.mem_singleton_self m⟩
    · obtain ⟨q, rfl⟩ := Node.exists_ofPath hattr
      have haxis := axisTo_mem n q
      exact ⟨_, haxis, (ofPath_mem_nodes_iff hn haxis).mpr ⟨rfl, hm⟩⟩

/-- The five axes part the tree nodes of the document, and the node itself if it is an attribute. For an
    attribute, its element lies above it and the descendants of its element lie after it. -/
theorem axes_partition (hn : d.Holds n) :
    (∀ axis ∈ partingAxes, (axis.nodes d n).Nodup) ∧
      (partingAxes.Pairwise fun axis axis' => (axis.nodes d n).Disjoint (axis'.nodes d n)) ∧
      (∀ m, (∃ axis ∈ partingAxes, m ∈ axis.nodes d n) ↔ m = n ∨ d.Holds m ∧ m.attr = none) ∧
      ∀ p k, n = ⟨p, some k⟩ → .ofPath p ∈ Axis.ancestor.nodes d n ∧
        ∀ m ∈ Axis.descendant.nodes d (.ofPath p), m ∈ Axis.following.nodes d n := by
  refine ⟨fun axis _ => axis.nodup_nodes, ?_, fun m => exists_mem_nodes_iff hn, ?_⟩
  · have hdistinct : partingAxes.Nodup := by decide
    exact hdistinct.imp_of_mem fun haxis haxis' hne => disjoint_nodes hn haxis haxis' hne
  · rintro p k rfl
    exact ⟨List.mem_cons_self, fun m hm => List.mem_append_left _ hm⟩

end

/-- `<a><b x="1"><c/></b><d/></a>` -/
def partedDocument : Document :=
  ⟨[.element ⟨⟨none, "a"⟩, [], []⟩
    [.element ⟨⟨none, "b"⟩, [], [⟨⟨none, "x"⟩, "1"⟩]⟩ [.element ⟨⟨none, "c"⟩, [], []⟩ []],
      .element ⟨⟨none, "d"⟩, [], []⟩ []]]⟩

/-- The attribute of `b`. -/
def partedAttribute : Node :=
  ⟨[0, 0], some 0⟩

theorem axes_partition_attribute :
    partedDocument.Holds partedAttribute ∧
      (partingAxes.map (·.nodes partedDocument partedAttribute) =
        [[partedAttribute], [.ofPath [0, 0], .ofPath [0], .root], [], [], [.ofPath [0, 0, 0], .ofPath [1, 0]]]) ∧
      (∀ axis ∈ partingAxes, (axis.nodes partedDocument partedAttribute).Nodup) ∧
      (partingAxes.Pairwise fun axis axis' =>
        (axis.nodes partedDocument partedAttribute).Disjoint (axis'.nodes partedDocument partedAttribute)) ∧
      (∀ m, (∃ axis ∈ partingAxes, m ∈ axis.nodes partedDocument partedAttribute) ↔
        m = partedAttribute ∨ partedDocument.Holds m ∧ m.attr = none) ∧
      ∀ p k, partedAttribute = ⟨p, some k⟩ → .ofPath p ∈ Axis.ancestor.nodes partedDocument partedAttribute ∧
        ∀ m ∈ Axis.descendant.nodes partedDocument (.ofPath p),
          m ∈ Axis.following.nodes partedDocument partedAttribute :=
  have hn : partedDocument.Holds partedAttribute := rfl
  ⟨hn, by decide, axes_partition hn⟩

end XmlMapping.XPath
