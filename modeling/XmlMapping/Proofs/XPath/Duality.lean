import XmlMapping.Proofs.Document.Kin
import XmlMapping.Proofs.XPath.Partition

/-! # Dual axes

Between tree nodes the axes come in pairs that lead back and forth: child and parent, descendant and ancestor,
the siblings after a node and those before it, what follows and what precedes. An attribute stands apart. Its
element alone leads to it, it has no siblings, children or descendants, and what lies after it and before it is
seen from its element. -/

namespace XmlMapping.XPath
variable {d : Document} {n m : Node} {p q : Path} {axis : Axis}

/-! ### There and back -/

theorem leads_descendant_iff_ancestor : Leads p q .descendant ↔ Leads q p .ancestor := by
  constructor
  · rintro ⟨⟩
    next s hs => exact .ancestor hs p
  · rintro ⟨⟩
    next s hs => exact .descendant hs p

theorem leads_following_iff_preceding : Leads p q .following ↔ Leads q p .preceding := by
  constructor
  · rintro ⟨⟩
    next i k h r s c => exact .preceding h s r c
  · rintro ⟨⟩
    next i k h r s c => exact .following h s r c

theorem ofPath_mem_nodes_ofPath_iff (hp : d.Holds (.ofPath p)) (hq : d.Holds (.ofPath q)) (haxis : axis ∈ partingAxes) :
    .ofPath q ∈ axis.nodes d (.ofPath p) ↔ Leads p q axis := by
  rw [ofPath_mem_nodes_iff hp haxis, leads_iff]
  exact and_iff_left hq

section
variable (hm : d.Holds m) (hmattr : m.attr = none) (hn : d.Holds n) (hnattr : n.attr = none)

include hm hmattr

theorem mem_child_iff_parent : m ∈ Axis.child.nodes d n ↔ n ∈ Axis.parent.nodes d m := by
  show m ∈ d.children n ↔ n ∈ m.parent?.toList
  rw [Document.mem_children_iff, Option.mem_toList]
  exact ⟨fun h => h.2.2, fun h => ⟨hm, hmattr, h⟩⟩

include hn hnattr

theorem mem_descendant_iff_ancestor : m ∈ Axis.descendant.nodes d n ↔ n ∈ Axis.ancestor.nodes d m := by
  obtain ⟨p, rfl⟩ := Node.exists_ofPath hnattr
  obtain ⟨q, rfl⟩ := Node.exists_ofPath hmattr
  rw [ofPath_mem_nodes_ofPath_iff hn hm (by decide), ofPath_mem_nodes_ofPath_iff hm hn (by decide)]
  exact leads_descendant_iff_ancestor

theorem mem_following_iff_preceding : m ∈ Axis.following.nodes d n ↔ n ∈ Axis.preceding.nodes d m := by
  obtain ⟨p, rfl⟩ := Node.exists_ofPath hnattr
  obtain ⟨q, rfl⟩ := Node.exists_ofPath hmattr
  rw [ofPath_mem_nodes_ofPath_iff hn hm (by decide), ofPath_mem_nodes_ofPath_iff hm hn (by decide)]
  exact leads_following_iff_preceding

theorem mem_followingSibling_iff_precedingSibling :
    m ∈ Axis.followingSibling.nodes d n ↔ n ∈ Axis.precedingSibling.nodes d m := by
  show m ∈ d.followingSiblings n ↔ n ∈ d.precedingSiblings m
  rw [Document.mem_followingSiblings_iff, Document.mem_precedingSiblings_iff]
  constructor
  · rintro ⟨-, p, i, j, hij, rfl, rfl⟩
    exact ⟨hn, p, j, i, hij, rfl, rfl⟩
  · rintro ⟨-, p, i, j, hij, rfl, rfl⟩
    exact ⟨hm, p, j, i, hij, rfl, rfl⟩

end

/-- Between tree nodes, child and parent, descendant and ancestor, the siblings after and before, and what follows
    and precedes lead back and forth. An attribute belongs to one element: that element alone leads to it, what
    follows it are the descendants of the element and then what follows the element, what precedes it precedes
    the element, and it has no siblings, children or descendants. -/
theorem axes_dual (d : Document) :
    (∀ m n, d.Holds m → m.attr = none → d.Holds n → n.attr = none →
      (m ∈ Axis.child.nodes d n ↔ n ∈ Axis.parent.nodes d m) ∧
      (m ∈ Axis.descendant.nodes d n ↔ n ∈ Axis.ancestor.nodes d m) ∧
      (m ∈ Axis.followingSibling.nodes d n ↔ n ∈ Axis.precedingSibling.nodes d m) ∧
      (m ∈ Axis.following.nodes d n ↔ n ∈ Axis.preceding.nodes d m)) ∧
    ∀ a, d.Holds a → a.attr.isSome → ∃ e, d.Holds e ∧ a.parent? = some e ∧
      (∀ n, a ∈ Axis.attribute.nodes d n ↔ n = e) ∧
      Axis.following.nodes d a = Axis.descendant.nodes d e ++ Axis.following.nodes d e ∧
      Axis.preceding.nodes d a = Axis.preceding.nodes d e ∧
      Axis.followingSibling.nodes d a = [] ∧ Axis.precedingSibling.nodes d a = [] ∧
      Axis.child.nodes d a = [] ∧ Axis.descendant.nodes d a = [] := by
  refine ⟨fun m n hm hmattr hn hnattr => ⟨mem_child_iff_parent hm hmattr,
    mem_descendant_iff_ancestor hm hmattr hn hnattr, mem_followingSibling_iff_precedingSibling hm hmattr hn hnattr,
    mem_following_iff_preceding hm hmattr hn hnattr⟩, fun a ha hattr => ?_⟩
  obtain ⟨p, k⟩ := a
  obtain ⟨k, rfl⟩ := Option.isSome_iff_exists.mp hattr
  refine ⟨.ofPath p, ha.ofPath, rfl, fun n => ?_, rfl, rfl, rfl, rfl, rfl, rfl⟩
  show ⟨p, some k⟩ ∈ d.attributes n ↔ n = .ofPath p
  rw [Document.mem_attributes_iff]
  constructor
  · intro h
    exact (Option.some.inj h.2.2).symm
  · rintro rfl
    exact ⟨ha, rfl, rfl⟩

/-- `<!--c--><a x="1"><b/></a>` -/
def dualDocument : Document :=
  ⟨[.comment "c", .element ⟨⟨none, "a"⟩, [], [⟨⟨none, "x"⟩, "1"⟩]⟩ [.element ⟨⟨none, "b"⟩, [], []⟩ []]]⟩

/-- `b` follows the comment, which precedes it, and follows the attribute of its parent. -/
theorem axes_dual_comment :
    dualDocument.Holds (.ofPath [0, 1]) ∧ dualDocument.Holds (.ofPath [0]) ∧ dualDocument.Holds ⟨[1], some 0⟩ ∧
      Axis.following.nodes dualDocument (.ofPath [0]) = [.ofPath [1], .ofPath [0, 1]] ∧
      (.ofPath [0, 1] ∈ Axis.following.nodes dualDocument (.ofPath [0]) ↔
        .ofPath [0] ∈ Axis.preceding.nodes dualDocument (.ofPath [0, 1])) ∧
      Axis.following.nodes dualDocument ⟨[1], some 0⟩ = [.ofPath [0, 1]] ∧
      ∃ e, dualDocument.Holds e ∧ Node.parent? ⟨[1], some 0⟩ = some e ∧
        Axis.following.nodes dualDocument ⟨[1], some 0⟩ =
          Axis.descendant.nodes dualDocument e ++ Axis.following.nodes dualDocument e := by
  obtain ⟨htree, hattr⟩ := axes_dual dualDocument
  obtain ⟨-, -, -, hfollowing⟩ := htree (.ofPath [0, 1]) (.ofPath [0]) rfl rfl rfl rfl
  obtain ⟨e, he, hparent, -, hafter, -⟩ := hattr ⟨[1], some 0⟩ rfl rfl
  exact ⟨rfl, rfl, rfl, by decide, hfollowing, by decide, e, he, hparent, hafter⟩

end XmlMapping.XPath
