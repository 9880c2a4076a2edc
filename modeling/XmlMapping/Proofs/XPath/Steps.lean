import XmlMapping.Proofs.Document.Navigation
import XmlMapping.Proofs.Result
import XmlMapping.XPath.Evaluation

/-! # Steps

What a step finds from one node is a part of its axis: the node test and the predicates only leave nodes
out. So it is in document order, once a backward axis is turned round, and belongs to the document of the
node. Putting together what is found from several nodes keeps the order and loses and adds no node, and
it fails exactly when the search from one of the nodes fails. -/

namespace XmlMapping.XPath

/-! ### Predicates -/

theorem keepWhere_sublist {test : Node → Nat → Except Error Bool} {ns kept : List Node} {i : Nat}
    (h : keepWhere test ns i = .ok kept) : kept.Sublist ns := by
  induction ns generalizing i kept with
  | nil =>
    obtain rfl := Except.ok.inj h
    exact List.Sublist.refl _
  | cons n ns ih =>
    simp only [keepWhere, except_bind_eq_ok] at h
    obtain ⟨keep, -, rest, hrest, h⟩ := h
    obtain rfl := Except.ok.inj h
    split
    · exact (ih hrest).cons_cons n
    · exact (ih hrest).cons n

theorem keepWhere_ok {test : Node → Nat → Except Error Bool} {ns : List Node}
    (h : ∀ n i, ∃ keep, test n i = .ok keep) (i : Nat) : ∃ kept, keepWhere test ns i = .ok kept := by
  induction ns generalizing i with
  | nil => exact ⟨[], rfl⟩
  | cons n ns ih =>
    obtain ⟨keep, hkeep⟩ := h n i
    obtain ⟨rest, hrest⟩ := ih (i + 1)
    exact ⟨_, by rw [keepWhere, hkeep, hrest]; rfl⟩

theorem keepAll_sublist {d : Document} {b : Bindings} {predicates : List Expr} {ns kept : List Node}
    (h : keepAll d b predicates ns = .ok kept) : kept.Sublist ns := by
  induction predicates generalizing ns with
  | nil =>
    obtain rfl := Except.ok.inj h
    exact List.Sublist.refl _
  | cons p ps ih =>
    simp only [keepAll, except_bind_eq_ok] at h
    obtain ⟨first, hfirst, h⟩ := h
    exact (ih h).trans (keepWhere_sublist hfirst)

/-! ### Node tests -/

theorem NodeTest.filter_sublist {d : Document} {b : Bindings} {axis : Axis} {test : NodeTest}
    {ns kept : List Node} (h : test.filter d b axis ns = .ok kept) : kept.Sublist ns := by
  obtain ⟨uri, -, rfl⟩ := except_map_eq_ok.mp h
  exact List.filter_sublist

theorem NodeTest.filter_ok (d : Document) {b : Bindings} (axis : Axis) {test : NodeTest} (ns : List Node)
    (h : ∀ p ∈ test.nsPrefix?, (b.uri? p).isSome) : ∃ kept, test.filter d b axis ns = .ok kept := by
  unfold filter namespaceUri?
  cases hp : test.nsPrefix? with
  | none => exact ⟨_, rfl⟩
  | some p =>
    obtain ⟨uri, huri⟩ := Option.isSome_iff_exists.mp (h p hp)
    simp only [resolve, huri]
    exact ⟨_, rfl⟩

/-! ### Putting nodes together -/

theorem mem_addFound {x : Node} {before found : List Node} :
    x ∈ addFound before found ↔ x ∈ before ∨ x ∈ found := by
  unfold addFound
  split
  · split
    · rw [List.mem_append, List.mem_reverse, or_comm]
    · rw [List.mem_reverse, mem_mergeInOrder, List.mem_reverse]
  · rw [List.mem_append, List.mem_reverse, or_comm]

theorem ordered_addFound {before found : List Node} (hb : Ordered before.reverse) (hf : Ordered found) :
    Ordered (addFound before found).reverse := by
  unfold addFound
  split
  · rename_i m ms n ns
    split
    · rename_i hlt
      rw [List.reverse_append, List.reverse_reverse]
      refine List.pairwise_append.mpr ⟨hb, hf, fun x hx y hy => ?_⟩
      -- All that was there ends with `m`, and all that is added starts with `n`.
      have hxm : x = m ∨ x.before m := by
        rcases List.mem_cons.mp (List.mem_reverse.mp hx) with rfl | hx
        · exact Or.inl rfl
        · exact Or.inr ((List.pairwise_cons.mp (List.pairwise_reverse.mp hb)).1 x hx)
      have hny : y = n ∨ n.before y := by
        rcases List.mem_cons.mp hy with rfl | hy
        · exact Or.inl rfl
        · exact Or.inr ((List.pairwise_cons.mp hf).1 y hy)
      have hxn : x.before n := by
        rcases hxm with rfl | hxm
        · exact hlt
        · exact Node.before_trans hxm hlt
      rcases hny with rfl | hny
      · exact hxn
      · exact Node.before_trans hxn hny
    · rw [List.reverse_reverse]
      exact ordered_mergeInOrder hb hf
  · rename_i hne
    rw [List.reverse_append, List.reverse_reverse]
    cases before with
    | nil => exact hf
    | cons m ms =>
      cases found with
      | nil => rwa [List.append_nil]
      | cons n ns => exact absurd rfl (hne m ms n ns rfl)

section Gather
variable {find : Node → Except Error (List Node)} {before ns out : List Node}

theorem gather_ok (before : List Node) (h : ∀ n ∈ ns, ∃ found, find n = .ok found) :
    ∃ out, gather find before ns = .ok out := by
  induction ns generalizing before with
  | nil => exact ⟨_, rfl⟩
  | cons n ns ih =>
    obtain ⟨found, hfound⟩ := h n (List.mem_cons_self ..)
    obtain ⟨out, hout⟩ := ih (addFound before found) fun m hm => h m (List.mem_cons_of_mem _ hm)
    exact ⟨out, by rw [gather, hfound]; exact hout⟩

theorem gather_each (h : gather find before ns = .ok out) : ∀ n ∈ ns, ∃ found, find n = .ok found := by
  induction ns generalizing before with
  | nil => simp
  | cons n ns ih =>
    simp only [gather, except_bind_eq_ok] at h
    obtain ⟨found, hfound, h⟩ := h
    intro m hm
    rcases List.mem_cons.mp hm with rfl | hm
    · exact ⟨found, hfound⟩
    · exact ih h m hm

theorem mem_gather (h : gather find before ns = .ok out) {x : Node} :
    x ∈ out ↔ x ∈ before ∨ ∃ n ∈ ns, ∃ found, find n = .ok found ∧ x ∈ found := by
  induction ns generalizing before with
  | nil =>
    obtain rfl := Except.ok.inj h
    simp
  | cons n ns ih =>
    simp only [gather, except_bind_eq_ok] at h
    obtain ⟨found, hfound, h⟩ := h
    rw [ih h, mem_addFound, or_assoc]
    refine or_congr_right ⟨?_, ?_⟩
    · rintro (hx | ⟨m, hm, hx⟩)
      · exact ⟨n, List.mem_cons_self .., found, hfound, hx⟩
      · exact ⟨m, List.mem_cons_of_mem _ hm, hx⟩
    · rintro ⟨m, hm, found', hfound', hx⟩
      rcases List.mem_cons.mp hm with rfl | hm
      · rw [hfound] at hfound'
        obtain rfl := Except.ok.inj hfound'
        exact Or.inl hx
      · exact Or.inr ⟨m, hm, found', hfound', hx⟩

/-- Nodes are put together when something is found from each node of the list. -/
theorem gather_ok_iff : (∃ out, gather find [] ns = .ok out) ↔ ∀ n ∈ ns, ∃ found, find n = .ok found :=
  ⟨fun ⟨_, h⟩ => gather_each h, gather_ok []⟩

theorem mem_gather_nil (h : gather find [] ns = .ok out) {x : Node} :
    x ∈ out ↔ ∃ n ∈ ns, ∃ found, find n = .ok found ∧ x ∈ found := by
  rw [mem_gather h, or_iff_right List.not_mem_nil]

theorem ordered_gather (hf : ∀ n found, find n = .ok found → Ordered found) (hb : Ordered before.reverse)
    (h : gather find before ns = .ok out) : Ordered out := by
  induction ns generalizing before with
  | nil =>
    obtain rfl := Except.ok.inj h
    exact hb
  | cons n ns ih =>
    simp only [gather, except_bind_eq_ok] at h
    obtain ⟨found, hfound, h⟩ := h
    exact ih (ordered_addFound hb (hf n found hfound)) h

theorem ordered_gather_nil (hf : ∀ n found, find n = .ok found → Ordered found)
    (h : gather find [] ns = .ok out) : Ordered out :=
  ordered_gather hf (by exact List.Pairwise.nil) h

end Gather

/-! ### One step -/

/-- The nodes along an axis are in document order, those of a backward axis once they are turned round. -/
theorem Axis.ordered_nodes {d : Document} {n : Node} : ∀ axis : Axis,
    Ordered (if axis.isReverse then (axis.nodes d n).reverse else axis.nodes d n)
  | .self => List.pairwise_singleton _ _
  | .child => d.ordered_children n
  | .attribute => d.ordered_attributes n
  | .parent => by
    show Ordered n.parent?.toList
    cases n.parent? with
    | none => exact List.Pairwise.nil
    | some m => exact List.pairwise_singleton _ _
  | .ancestor => n.ordered_reverse_ancestors
  | .ancestorOrSelf => by
    show Ordered (n :: n.ancestors).reverse
    rw [List.reverse_cons]
    refine List.pairwise_append.mpr ⟨n.ordered_reverse_ancestors, List.pairwise_singleton _ _, ?_⟩
    intro m hm n' hn'
    obtain rfl := List.mem_singleton.mp hn'
    exact Node.before_of_mem_ancestors (List.mem_reverse.mp hm)
  | .descendant => d.ordered_descendants n
  | .descendantOrSelf =>
    List.pairwise_cons.mpr ⟨fun _ hm => Document.before_of_mem_descendants hm, d.ordered_descendants n⟩
  | .followingSibling => d.ordered_followingSiblings n
  | .precedingSibling => d.ordered_reverse_precedingSiblings n
  | .following => d.ordered_following n
  | .preceding => d.ordered_reverse_preceding n

theorem Axis.holds_of_mem_nodes {d : Document} {n m : Node} (hn : d.Holds n) : ∀ axis : Axis,
    m ∈ axis.nodes d n → d.Holds m
  | .self, h => List.mem_singleton.mp h ▸ hn
  | .child, h => Document.holds_of_mem_children h
  | .attribute, h => Document.holds_of_mem_attributes h
  | .parent, h => hn.of_mem_parent? (Option.mem_toList.mp h)
  | .ancestor, h => hn.of_mem_ancestors h
  | .ancestorOrSelf, h => by
    rcases List.mem_cons.mp h with rfl | h
    · exact hn
    · exact hn.of_mem_ancestors h
  | .descendant, h => Document.holds_of_mem_descendants h
  | .descendantOrSelf, h => by
    rcases List.mem_cons.mp h with rfl | h
    · exact hn
    · exact Document.holds_of_mem_descendants h
  | .followingSibling, h => Document.holds_of_mem_followingSiblings h
  | .precedingSibling, h => Document.holds_of_mem_precedingSiblings h
  | .following, h => Document.holds_of_mem_following h
  | .preceding, h => Document.holds_of_mem_preceding h

/-- The axis of a step. -/
def Step.axis : Step → Axis
  | ⟨axis, _, _⟩ => axis

section Reach
variable {d : Document} {b : Bindings} {s : Step} {n : Node} {out : List Node}

/-- What a step finds is a part of its axis, in document order. -/
theorem Step.reach_sublist (h : s.reach d b n = .ok out) :
    out.Sublist (if s.axis.isReverse then (s.axis.nodes d n).reverse else s.axis.nodes d n) := by
  obtain ⟨axis, test, predicates⟩ := s
  simp only [Step.reach, except_bind_eq_ok] at h
  obtain ⟨tested, htested, kept, hkept, h⟩ := h
  obtain rfl := Except.ok.inj h
  have hsub := (keepAll_sublist hkept).trans (NodeTest.filter_sublist htested)
  rw [Step.axis]
  split
  · exact hsub.reverse
  · exact hsub

theorem Step.ordered_reach (h : s.reach d b n = .ok out) : Ordered out :=
  List.Pairwise.sublist (reach_sublist h) s.axis.ordered_nodes

theorem Step.mem_nodes_of_mem_reach (h : s.reach d b n = .ok out) {m : Node} (hm : m ∈ out) :
    m ∈ s.axis.nodes d n := by
  have hmem := (reach_sublist h).subset hm
  split at hmem
  · exact List.mem_reverse.mp hmem
  · exact hmem

theorem Step.holds_of_mem_reach (hn : d.Holds n) (h : s.reach d b n = .ok out) {m : Node} (hm : m ∈ out) :
    d.Holds m :=
  s.axis.holds_of_mem_nodes hn (mem_nodes_of_mem_reach h hm)

end Reach

/-! ### Many steps -/

section Follow
variable {d : Document} {b : Bindings} {steps : List Step} {ns out : List Node}

theorem ordered_follow (hns : Ordered ns) (h : follow d b steps ns = .ok out) : Ordered out := by
  induction steps generalizing ns with
  | nil =>
    obtain rfl := Except.ok.inj h
    exact hns
  | cons s ss ih =>
    simp only [follow, except_bind_eq_ok] at h
    obtain ⟨found, hfound, h⟩ := h
    exact ih (ordered_gather (fun _ _ => Step.ordered_reach) (by exact List.Pairwise.nil) hfound) h

theorem holds_of_mem_follow (hns : ∀ n ∈ ns, d.Holds n) (h : follow d b steps ns = .ok out) :
    ∀ n ∈ out, d.Holds n := by
  induction steps generalizing ns with
  | nil =>
    obtain rfl := Except.ok.inj h
    exact hns
  | cons s ss ih =>
    simp only [follow, except_bind_eq_ok] at h
    obtain ⟨found, hfound, h⟩ := h
    refine ih (fun m hm => ?_) h
    rcases (mem_gather hfound).mp hm with hm | ⟨n, hn, reached, hreached, hm⟩
    · cases hm
    · exact Step.holds_of_mem_reach (hns n hn) hreached hm

end Follow

end XmlMapping.XPath
