import XmlMapping.Proofs.XPath.Partition

/-! # Directions of axes

Where a tree node lies from a node says which of the two comes first: what lies above a node or before it
comes first, what lies below it or after it comes later. So what lies after a node is all that comes later
and is not below it, and what lies before it is all that comes first and is not above it. A forward axis
lists its nodes in document order, a backward axis in the opposite order, from every node. -/

namespace XmlMapping

instance (m n : Node) : Decidable (m.before n) :=
  inferInstanceAs (Decidable (m.compare n = .lt))

namespace XPath

/-- The axes that list their nodes in document order. -/
def forwardAxes : List Axis :=
  [.child, .attribute, .self, .descendant, .descendantOrSelf, .followingSibling, .following, .parent]

/-- The axes that list their nodes in the opposite of document order, the nearest first. -/
def backwardAxes : List Axis :=
  [.ancestor, .ancestorOrSelf, .precedingSibling, .preceding]

/-! ### Places and their order -/

variable {d : Document} {n m : Node} {p q : Path} {axis : Axis}

theorem Leads.before (h : Leads p q axis) (haxis : axis = .descendant ∨ axis = .following) (a b : Option Nat) :
    Node.before ⟨p, a⟩ ⟨q, b⟩ := by
  rcases haxis with rfl | rfl
  · cases h with
    | descendant hs p => exact Node.before_below hs a b
  · cases h with
    | following hlt r s p => exact Node.before_beside hlt p r s a b

theorem Leads.after (h : Leads p q axis) (haxis : axis = .ancestor ∨ axis = .preceding) (a b : Option Nat) :
    Node.before ⟨q, b⟩ ⟨p, a⟩ := by
  rcases haxis with rfl | rfl
  · cases h with
    | ancestor hs q => exact Node.before_below hs b a
  · cases h with
    | preceding hlt r s p => exact Node.before_beside hlt p s r b a

theorem leads_axisTo_of_attr (hattr : n.attr = none) (q : Path) : Leads n.path q (axisTo n q) := by
  rw [axisTo, hattr]
  exact leads_iff.mpr rfl

theorem before_of_axisTo (h : axisTo n q = .descendant ∨ axisTo n q = .following) : n.before (.ofPath q) := by
  obtain ⟨p, _ | k⟩ := n
  · exact (leads_axisTo_of_attr rfl q).before h none none
  · have hleads : Leads p q (axisBetween p.reverse q.reverse) := leads_iff.mpr rfl
    rcases h with h | h
    · -- No axis from an attribute is the one of what lies below.
      change (axisBetween p.reverse q.reverse).fromAttribute = .descendant at h
      cases hbetween : axisBetween p.reverse q.reverse <;> rw [hbetween] at h <;> cases h
    · exact hleads.before (Axis.fromAttribute_eq_following.mp h) (some k) none

theorem after_of_axisTo (h : axisTo n q = .ancestor ∨ axisTo n q = .preceding) : (Node.ofPath q).before n := by
  obtain ⟨p, _ | k⟩ := n
  · exact (leads_axisTo_of_attr rfl q).after h none none
  · have hleads : Leads p q (axisBetween p.reverse q.reverse) := leads_iff.mpr rfl
    rcases h with h | h
    · rcases Axis.fromAttribute_eq_ancestor.mp h with h | h
      · rw [h, leads_self_iff] at hleads
        rw [hleads]
        exact Node.before_attribute p k
      · exact hleads.after (Or.inl h) (some k) none
    · exact hleads.after (Or.inr (Axis.fromAttribute_eq_preceding.mp h)) (some k) none

theorem eq_of_axisTo (h : axisTo n q = .self) : Node.ofPath q = n := by
  obtain ⟨p, _ | k⟩ := n
  · have hleads := leads_axisTo_of_attr (n := ⟨p, none⟩) rfl q
    rw [h, leads_self_iff] at hleads
    rw [hleads]
    rfl
  · change (axisBetween p.reverse q.reverse).fromAttribute = .self at h
    cases hbetween : axisBetween p.reverse q.reverse <;> rw [hbetween] at h <;> cases h

theorem axisTo_cases (n : Node) (q : Path) :
    axisTo n q = .self ∨ (axisTo n q = .ancestor ∨ axisTo n q = .preceding) ∨
      (axisTo n q = .descendant ∨ axisTo n q = .following) := by
  have h := axisTo_mem n q
  simp only [partingAxes, List.mem_cons, List.not_mem_nil, or_false] at h
  tauto

/-- A tree node comes later than a node when it lies below it or after it. -/
theorem before_ofPath_iff : n.before (.ofPath q) ↔ axisTo n q = .descendant ∨ axisTo n q = .following := by
  refine ⟨fun h => ?_, before_of_axisTo⟩
  rcases axisTo_cases n q with hself | hafter | hbefore
  · rw [eq_of_axisTo hself] at h
    exact absurd h (Node.before_irrefl n)
  · exact absurd (Node.before_trans h (after_of_axisTo hafter)) (Node.before_irrefl n)
  · exact hbefore

/-- A tree node comes before a node when it lies above it or before it. -/
theorem ofPath_before_iff : (Node.ofPath q).before n ↔ axisTo n q = .ancestor ∨ axisTo n q = .preceding := by
  refine ⟨fun h => ?_, after_of_axisTo⟩
  rcases axisTo_cases n q with hself | hafter | hbefore
  · rw [eq_of_axisTo hself] at h
    exact absurd h (Node.before_irrefl n)
  · exact hafter
  · exact absurd (Node.before_trans h (before_of_axisTo hbefore)) (Node.before_irrefl _)

/-! ### What lies after and before a node -/

theorem mem_nodes_iff : m ∈ d.nodes ↔ d.Holds m ∧ m.attr = none := by
  rw [Document.nodes, List.mem_cons]
  constructor
  · rintro (rfl | hm)
    · exact ⟨Document.holds_root, rfl⟩
    · have hm' : m ∈ Axis.descendant.nodes d .root := hm
      exact ⟨Document.holds_of_mem_descendants hm, attr_of_mem_nodes (by decide) (by decide) hm'⟩
  · rintro ⟨hm, hattr⟩
    obtain ⟨q, rfl⟩ := Node.exists_ofPath hattr
    by_cases hq : q = []
    · exact Or.inl (by rw [hq]; rfl)
    · refine Or.inr (ofPath_mem_descendant_iff.mpr ⟨?_, hm⟩)
      exact leads_descendant_iff.mpr ⟨q, hq, (List.append_nil q).symm⟩

theorem ordered_nodes (d : Document) : Ordered d.nodes :=
  List.pairwise_cons.mpr ⟨fun _ hm => Document.before_of_mem_descendants hm, d.ordered_descendants .root⟩

theorem mem_axis_iff (hn : d.Holds n) (haxis : axis ∈ partingAxes) (hself : axis ≠ .self) :
    m ∈ axis.nodes d n ↔ m ∈ d.nodes ∧ axisTo n m.path = axis := by
  rw [mem_nodes_iff]
  constructor
  · intro hm
    have hattr : m.attr = none := attr_of_mem_nodes haxis hself hm
    obtain ⟨q, rfl⟩ := Node.exists_ofPath hattr
    obtain ⟨hto, hholds⟩ := (ofPath_mem_nodes_iff hn haxis).mp hm
    exact ⟨⟨hholds, rfl⟩, hto⟩
  · rintro ⟨⟨hholds, hattr⟩, hto⟩
    obtain ⟨q, rfl⟩ := Node.exists_ofPath hattr
    exact (ofPath_mem_nodes_iff hn haxis).mpr ⟨hto, hholds⟩

/-- The nodes on an axis are those that lie on it or on another one and are not on the other one. -/
theorem mem_axis_iff_notMem (axis other : Axis) (hn : d.Holds n) (haxis : axis ∈ partingAxes) (hself : axis ≠ .self)
    (hother : other ∈ partingAxes) (hself' : other ≠ .self) (hne : axis ≠ other) :
    m ∈ axis.nodes d n ↔ m ∈ d.nodes ∧ (axisTo n m.path = other ∨ axisTo n m.path = axis) ∧ m ∉ other.nodes d n := by
  rw [mem_axis_iff hn haxis hself, mem_axis_iff hn hother hself']
  refine and_congr_right fun hm => ?_
  constructor
  · intro hto
    exact ⟨Or.inr hto, fun hmem => hne (hto.symm.trans hmem.2)⟩
  · rintro ⟨hto | hto, hmem⟩
    · exact absurd ⟨hm, hto⟩ hmem
    · exact hto

/-- What lies after a node are the tree nodes that come later and are not below it. -/
theorem mem_following_iff (hn : d.Holds n) :
    m ∈ Axis.following.nodes d n ↔ m ∈ d.nodes ∧ n.before m ∧ m ∉ Axis.descendant.nodes d n := by
  have h := mem_axis_iff_notMem (m := m) .following .descendant hn (by decide) nofun (by decide) nofun nofun
  refine h.trans (and_congr_right fun hm => ?_)
  obtain ⟨q, rfl⟩ := Node.exists_ofPath (mem_nodes_iff.mp hm).2
  exact and_congr_left' before_ofPath_iff.symm

/-- What lies before a node are the tree nodes that come first and are not above it. -/
theorem mem_preceding_iff (hn : d.Holds n) :
    m ∈ Axis.preceding.nodes d n ↔ m ∈ d.nodes ∧ m.before n ∧ m ∉ Axis.ancestor.nodes d n := by
  have h := mem_axis_iff_notMem (m := m) .preceding .ancestor hn (by decide) nofun (by decide) nofun nofun
  refine h.trans (and_congr_right fun hm => ?_)
  obtain ⟨q, rfl⟩ := Node.exists_ofPath (mem_nodes_iff.mp hm).2
  exact and_congr_left' ofPath_before_iff.symm

/-! ### All axes -/

theorem isReverse_of_forward : ∀ axis ∈ forwardAxes, axis.isReverse = false := by
  decide

theorem isReverse_of_backward : ∀ axis ∈ backwardAxes, axis.isReverse = true := by
  decide

theorem ordered_forward (haxis : axis ∈ forwardAxes) (d : Document) (n : Node) : Ordered (axis.nodes d n) := by
  have h := axis.ordered_nodes (d := d) (n := n)
  rwa [isReverse_of_forward axis haxis, if_neg Bool.false_ne_true] at h

theorem ordered_reverse_backward (haxis : axis ∈ backwardAxes) (d : Document) (n : Node) :
    Ordered (axis.nodes d n).reverse := by
  have h := axis.ordered_nodes (d := d) (n := n)
  rwa [isReverse_of_backward axis haxis, if_pos rfl] at h

/-- The attributes of an element come after it and before its children. -/
theorem attribute_between {a : Node} (ha : a ∈ d.attributes n) : n.before a ∧ ∀ c ∈ d.children n, a.before c := by
  unfold Document.attributes at ha
  split at ha
  · next tag ts hcontent =>
    obtain ⟨p, _⟩ := n
    obtain ⟨rfl, -⟩ := Document.content?_eq_tree hcontent
    obtain ⟨k, -, rfl⟩ := List.mem_map.mp ha
    refine ⟨Node.before_attribute p k, fun c hc => ?_⟩
    obtain ⟨i, -, rfl⟩ := List.mem_map.mp hc
    exact Node.before_below (s := [i]) (List.cons_ne_nil i []) (some k) none
  · cases ha

theorem following_eq_filter (hn : d.Holds n) : Axis.following.nodes d n =
    d.nodes.filter fun m => n.before m ∧ m ∉ Axis.descendant.nodes d n := by
  have hfollowing : Ordered (Axis.following.nodes d n) := ordered_forward (by decide) d n
  refine hfollowing.eq_of_mem_iff (List.Pairwise.filter _ (ordered_nodes d)) fun m => ?_
  rw [mem_following_iff hn, List.mem_filter, decide_eq_true_iff]

theorem preceding_eq_reverse_filter (hn : d.Holds n) : Axis.preceding.nodes d n =
    (d.nodes.filter fun m => m.before n ∧ m ∉ Axis.ancestor.nodes d n).reverse := by
  have hpreceding : Ordered (Axis.preceding.nodes d n).reverse := ordered_reverse_backward (by decide) d n
  rw [← List.reverse_eq_iff]
  refine hpreceding.eq_of_mem_iff (List.Pairwise.filter _ (ordered_nodes d)) fun m => ?_
  rw [List.mem_reverse, mem_preceding_iff hn, List.mem_filter, decide_eq_true_iff]

/-- Every axis is a forward or a backward one. From every node a forward axis lists its nodes in document order
    and a backward axis in the opposite order, where an element comes before its attributes and these before
    its children. What lies after a node are the tree nodes that come later and are not below it, in document
    order; what lies before it are those that come first and are not above it, the nearest first. -/
theorem axes_directed (hn : d.Holds n) :
    (∀ axis, axis ∈ forwardAxes ∨ axis ∈ backwardAxes) ∧
      (∀ axis ∈ forwardAxes, (axis.nodes d n).Pairwise fun m m' => m.before m') ∧
      (∀ axis ∈ backwardAxes, (axis.nodes d n).Pairwise fun m m' => m'.before m) ∧
      (∀ a ∈ Axis.attribute.nodes d n, n.before a ∧ ∀ c ∈ Axis.child.nodes d n, a.before c) ∧
      (∀ m, m ∈ d.nodes ↔ d.Holds m ∧ m.attr = none) ∧
      Axis.following.nodes d n = (d.nodes.filter fun m => n.before m ∧ m ∉ Axis.descendant.nodes d n) ∧
      Axis.preceding.nodes d n = (d.nodes.filter fun m => m.before n ∧ m ∉ Axis.ancestor.nodes d n).reverse := by
  refine ⟨fun axis => ?_, fun axis haxis => ordered_forward haxis d n, fun axis haxis => ?_,
    fun a ha => attribute_between ha, fun m => mem_nodes_iff, following_eq_filter hn, preceding_eq_reverse_filter hn⟩
  · cases axis <;> decide
  · exact List.pairwise_reverse.mp (ordered_reverse_backward haxis d n)

/-- `<a><b><c/></b><d x="1"><e/></d><f/></a>` -/
def directedDocument : Document :=
  ⟨[.element ⟨⟨none, "a"⟩, [], []⟩
    [.element ⟨⟨none, "b"⟩, [], []⟩ [.element ⟨⟨none, "c"⟩, [], []⟩ []],
      .element ⟨⟨none, "d"⟩, [], [⟨⟨none, "x"⟩, "1"⟩]⟩ [.element ⟨⟨none, "e"⟩, [], []⟩ []],
      .element ⟨⟨none, "f"⟩, [], []⟩ []]]⟩

/-- The attribute of `d`. -/
def directedAttribute : Node :=
  ⟨[1, 0], some 0⟩

/-- From the attribute, `e` and then `f` come later, and going back `c` comes before `b`. -/
theorem axes_directed_attribute :
    directedDocument.Holds directedAttribute ∧
      Axis.following ∈ forwardAxes ∧ Axis.preceding ∈ backwardAxes ∧
      directedAttribute ∈ Axis.attribute.nodes directedDocument (.ofPath [1, 0]) ∧
      Axis.following.nodes directedDocument directedAttribute = [.ofPath [0, 1, 0], .ofPath [2, 0]] ∧
      Axis.preceding.nodes directedDocument directedAttribute = [.ofPath [0, 0, 0], .ofPath [0, 0]] ∧
      (∀ axis ∈ forwardAxes, (axis.nodes directedDocument directedAttribute).Pairwise fun m m' => m.before m') ∧
      (∀ axis ∈ backwardAxes, (axis.nodes directedDocument directedAttribute).Pairwise fun m m' => m'.before m) ∧
      Axis.following.nodes directedDocument directedAttribute = (directedDocument.nodes.filter fun m =>
        directedAttribute.before m ∧ m ∉ Axis.descendant.nodes directedDocument directedAttribute) ∧
      Axis.preceding.nodes directedDocument directedAttribute = (directedDocument.nodes.filter fun m =>
        m.before directedAttribute ∧ m ∉ Axis.ancestor.nodes directedDocument directedAttribute).reverse := by
  have hn : directedDocument.Holds directedAttribute := rfl
  obtain ⟨-, hforward, hbackward, -, -, hfollowing, hpreceding⟩ := axes_directed hn
  exact ⟨hn, by decide, by decide, by decide, by decide, by decide, hforward, hbackward, hfollowing, hpreceding⟩

end XPath
end XmlMapping
