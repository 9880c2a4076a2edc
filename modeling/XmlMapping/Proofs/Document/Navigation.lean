import XmlMapping.Document.Navigation
import XmlMapping.Proofs.Document.Order

/-! # Navigation

The lists that navigation gives are described twice: by which places they hold, and by the order they
hold them in. Going down from a place gives the places that go on from it; going on after it or back
before it gives the places that part from its path at a later or an earlier number; going up gives the
beginnings of its path. Forward lists are in document order and backward lists in the opposite one,
from every place. From a node of a document they lead to nodes of the document. -/

namespace XmlMapping

/-! ### Places below a place -/

theorem childrenAt_append (ts : List Tree) (s p : Path) :
    childrenAt ts (s ++ p) = childrenAt (childrenAt ts p) s := by
  induction s with
  | nil => rfl
  | cons i s ih =>
    rw [List.cons_append, childrenAt, childrenAt, ih]

theorem treeAt?_append (ts : List Tree) {s : Path} (hs : s ≠ []) (p : Path) :
    treeAt? ts (s ++ p) = treeAt? (childrenAt ts p) s := by
  obtain ⟨i, s, rfl⟩ := List.exists_cons_of_ne_nil hs
  rw [List.cons_append, treeAt?, treeAt?, childrenAt_append]

@[simp] theorem childrenAt_nil (p : Path) : childrenAt [] p = [] := by
  induction p with
  | nil => rfl
  | cons i p ih => rw [childrenAt, ih]; rfl

@[simp] theorem treeAt?_nil (p : Path) : treeAt? [] p = none := by
  cases p <;> simp [treeAt?]

theorem childrenAt_of_treeAt? {ts : List Tree} {p : Path} {t : Tree} (h : treeAt? ts p = some t) :
    childrenAt ts p = t.children := by
  cases p with
  | nil => cases h
  | cons i p =>
    rw [treeAt?] at h
    rw [childrenAt, h]

theorem treeAt?_snoc (ts : List Tree) {s : Path} (hs : s ≠ []) (j : Nat) :
    treeAt? ts (s ++ [j]) = ts[j]?.bind fun t => treeAt? t.children s := by
  rw [treeAt?_append ts hs, childrenAt, childrenAt]
  cases ts[j]? with
  | none =>
    obtain ⟨i, s, rfl⟩ := List.exists_cons_of_ne_nil hs
    simp [treeAt?]
  | some t => rfl

theorem treeAt?_cons_succ (t : Tree) (ts : List Tree) (s : Path) (j : Nat) :
    treeAt? (t :: ts) (s ++ [j + 1]) = treeAt? ts (s ++ [j]) := by
  cases s with
  | nil => rfl
  | cons i s => rw [treeAt?_snoc _ (by simp), treeAt?_snoc _ (by simp), List.getElem?_cons_succ]

theorem treeAt?_drop (ts : List Tree) (k : Nat) (s : Path) (j : Nat) :
    treeAt? (ts.drop k) (s ++ [j]) = treeAt? ts (s ++ [k + j]) := by
  cases s with
  | nil => simp [treeAt?, childrenAt]
  | cons i s => rw [treeAt?_snoc _ (by simp), treeAt?_snoc _ (by simp), List.getElem?_drop]

theorem treeAt?_take (ts : List Tree) (k : Nat) (s : Path) (j : Nat) :
    treeAt? (ts.take k) (s ++ [j]) = if j < k then treeAt? ts (s ++ [j]) else none := by
  cases s with
  | nil => simp [treeAt?, childrenAt, List.getElem?_take]
  | cons i s =>
    rw [treeAt?_snoc _ (by simp), treeAt?_snoc _ (by simp), List.getElem?_take]
    split <;> rfl

mutual

/-- The places below a tree are those that go on from its path and hold a tree. -/
theorem Tree.mem_pathsBelow {p q : Path} : ∀ t : Tree,
    q ∈ t.pathsBelow p ↔ ∃ s, s ≠ [] ∧ q = s ++ p ∧ (treeAt? t.children s).isSome
  | .element _ ts => by
    rw [Tree.pathsBelow, mem_pathsWithin ts, Tree.children]
    constructor
    · rintro ⟨s, j, rfl, hs⟩
      exact ⟨s ++ [j], by simp, by simp, hs⟩
    · rintro ⟨s, hne, rfl, hs⟩
      obtain ⟨s, j, rfl⟩ := (List.eq_nil_or_concat s).resolve_left hne
      exact ⟨s, j, by simp, by rwa [List.concat_eq_append] at hs⟩
  | .text _ => by simp [Tree.pathsBelow, Tree.children]
  | .comment _ => by simp [Tree.pathsBelow, Tree.children]
  | .instruction .. => by simp [Tree.pathsBelow, Tree.children]

theorem mem_pathsWithin {p q : Path} {i : Nat} : ∀ ts : List Tree,
    q ∈ pathsWithin p i ts ↔ ∃ s j, q = s ++ (i + j) :: p ∧ (treeAt? ts (s ++ [j])).isSome
  | [] => by simp [pathsWithin]
  | t :: ts => by
    rw [pathsWithin, List.mem_append, List.mem_cons, Tree.mem_pathsBelow t, mem_pathsWithin ts]
    constructor
    · rintro ((rfl | ⟨s, hne, rfl, hs⟩) | ⟨s, j, rfl, hs⟩)
      · exact ⟨[], 0, rfl, rfl⟩
      · exact ⟨s, 0, rfl, by rwa [treeAt?_snoc _ hne]⟩
      · exact ⟨s, j + 1, by rw [Nat.add_right_comm]; rfl, by rwa [treeAt?_cons_succ]⟩
    · rintro ⟨s, j, rfl, hs⟩
      cases j with
      | zero =>
        by_cases hne : s = []
        · subst hne
          exact Or.inl (Or.inl rfl)
        · exact Or.inl (Or.inr ⟨s, hne, rfl, by rwa [treeAt?_snoc _ hne] at hs⟩)
      | succ j => exact Or.inr ⟨s, j, by rw [Nat.add_right_comm]; rfl, by rwa [treeAt?_cons_succ] at hs⟩

end

theorem mem_pathsAfter {ts : List Tree} {p q : Path} :
    q ∈ pathsAfter ts p ↔
      ∃ r i p' s k, p = r ++ i :: p' ∧ q = s ++ k :: p' ∧ i < k ∧ (treeAt? ts q).isSome := by
  induction p with
  | nil => simp [pathsAfter]
  | cons i p ih =>
    rw [pathsAfter, List.mem_append, mem_pathsWithin, ih]
    constructor
    · rintro (⟨s, j, rfl, hs⟩ | ⟨r, i', p', s, k, rfl, rfl, hk, hs⟩)
      · refine ⟨[], i, p, s, i + 1 + j, rfl, rfl, by omega, ?_⟩
        rw [treeAt?_drop, ← treeAt?_append _ (by simp)] at hs
        simpa using hs
      · exact ⟨i :: r, i', p', s, k, rfl, rfl, hk, hs⟩
    · rintro ⟨r, i', p', s, k, hp, rfl, hk, hs⟩
      cases r with
      | nil =>
        obtain ⟨rfl, rfl⟩ := List.cons_eq_cons.mp hp
        obtain ⟨j, rfl⟩ := Nat.exists_eq_add_of_le hk
        refine Or.inl ⟨s, j, rfl, ?_⟩
        rw [treeAt?_drop, ← treeAt?_append _ (by simp)]
        simpa using hs
      | cons i'' r =>
        obtain ⟨rfl, rfl⟩ := List.cons_eq_cons.mp hp
        exact Or.inr ⟨r, i', p', s, k, rfl, rfl, hk, hs⟩

theorem mem_pathsBefore {ts : List Tree} {p q : Path} :
    q ∈ pathsBefore ts p ↔
      ∃ r i p' s k, p = r ++ i :: p' ∧ q = s ++ k :: p' ∧ k < i ∧ (treeAt? ts q).isSome := by
  induction p with
  | nil => simp [pathsBefore]
  | cons i p ih =>
    rw [pathsBefore, List.mem_append, List.mem_reverse, mem_pathsWithin, ih]
    constructor
    · rintro (⟨s, j, rfl, hs⟩ | ⟨r, i', p', s, k, rfl, rfl, hk, hs⟩)
      · rw [treeAt?_take] at hs
        split at hs
        · rename_i hj
          refine ⟨[], i, p, s, j, rfl, by rw [Nat.zero_add], hj, ?_⟩
          rw [← treeAt?_append _ (by simp)] at hs
          simpa using hs
        · cases hs
      · exact ⟨i :: r, i', p', s, k, rfl, rfl, hk, hs⟩
    · rintro ⟨r, i', p', s, k, hp, rfl, hk, hs⟩
      cases r with
      | nil =>
        obtain ⟨rfl, rfl⟩ := List.cons_eq_cons.mp hp
        refine Or.inl ⟨s, k, by rw [Nat.zero_add], ?_⟩
        rw [treeAt?_take, if_pos hk, ← treeAt?_append _ (by simp)]
        simpa using hs
      | cons i'' r =>
        obtain ⟨rfl, rfl⟩ := List.cons_eq_cons.mp hp
        exact Or.inr ⟨r, i', p', s, k, rfl, rfl, hk, hs⟩

theorem mem_pathsAbove {p q : Path} : q ∈ pathsAbove p ↔ ∃ s, s ≠ [] ∧ p = s ++ q := by
  induction p with
  | nil => simp [pathsAbove]
  | cons i p ih =>
    rw [pathsAbove, List.mem_cons, ih]
    constructor
    · rintro (rfl | ⟨s, -, rfl⟩)
      · exact ⟨[i], by simp, rfl⟩
      · exact ⟨i :: s, by simp, rfl⟩
    · rintro ⟨s, hne, hs⟩
      cases s with
      | nil => exact absurd rfl hne
      | cons i' s =>
        obtain ⟨rfl, rfl⟩ := List.cons_eq_cons.mp hs
        by_cases hs' : s = []
        · exact Or.inl (by rw [hs']; rfl)
        · exact Or.inr ⟨s, hs', rfl⟩

/-! ### Order -/

mutual

theorem Tree.ordered_pathsBelow (p : Path) : ∀ t : Tree, Ordered ((t.pathsBelow p).map Node.ofPath)
  | .element _ ts => ordered_pathsWithin p 0 ts
  | .text _ => List.Pairwise.nil
  | .comment _ => List.Pairwise.nil
  | .instruction .. => List.Pairwise.nil

theorem ordered_pathsWithin (p : Path) (i : Nat) : ∀ ts : List Tree,
    Ordered ((pathsWithin p i ts).map Node.ofPath)
  | [] => List.Pairwise.nil
  | t :: ts => by
    rw [pathsWithin, List.map_append]
    refine List.pairwise_append.mpr ⟨?_, ordered_pathsWithin p (i + 1) ts, ?_⟩
    · refine List.pairwise_cons.mpr ⟨fun n hn => ?_, t.ordered_pathsBelow (i :: p)⟩
      obtain ⟨q, hq, rfl⟩ := List.mem_map.mp hn
      obtain ⟨s, hne, rfl, -⟩ := (Tree.mem_pathsBelow t).mp hq
      exact Node.before_below hne none none
    · intro m hm n hn
      obtain ⟨q, hq, rfl⟩ := List.mem_map.mp hm
      obtain ⟨q', hq', rfl⟩ := List.mem_map.mp hn
      obtain ⟨s', j, rfl, -⟩ := (mem_pathsWithin ts).mp hq'
      -- The tree itself and what is below it go on from its number, the others from later ones.
      have hs : ∃ s, q = s ++ i :: p := by
        rcases List.mem_cons.mp hq with rfl | hq
        · exact ⟨[], rfl⟩
        · obtain ⟨s, -, rfl, -⟩ := (Tree.mem_pathsBelow t).mp hq
          exact ⟨s, rfl⟩
      obtain ⟨s, rfl⟩ := hs
      exact Node.before_beside (by omega) p s s' none none

end

theorem ordered_pathsAfter (ts : List Tree) (p : Path) : Ordered ((pathsAfter ts p).map Node.ofPath) := by
  induction p with
  | nil => exact List.Pairwise.nil
  | cons i p ih =>
    rw [pathsAfter, List.map_append]
    refine List.pairwise_append.mpr ⟨ordered_pathsWithin p (i + 1) _, ih, ?_⟩
    intro m hm n hn
    obtain ⟨q, hq, rfl⟩ := List.mem_map.mp hm
    obtain ⟨q', hq', rfl⟩ := List.mem_map.mp hn
    obtain ⟨s, j, rfl, -⟩ := (mem_pathsWithin _).mp hq
    obtain ⟨r, i', p', s', k, rfl, rfl, hk, -⟩ := mem_pathsAfter.mp hq'
    have h := Node.before_beside hk p' (s ++ (i + 1 + j) :: r) s' none none
    rwa [List.append_assoc, List.cons_append] at h

theorem ordered_reverse_pathsBefore (ts : List Tree) (p : Path) :
    Ordered ((pathsBefore ts p).reverse.map Node.ofPath) := by
  induction p with
  | nil => exact List.Pairwise.nil
  | cons i p ih =>
    rw [pathsBefore, List.reverse_append, List.reverse_reverse, List.map_append]
    refine List.pairwise_append.mpr ⟨ih, ordered_pathsWithin p 0 _, ?_⟩
    intro m hm n hn
    obtain ⟨q, hq, rfl⟩ := List.mem_map.mp hm
    obtain ⟨q', hq', rfl⟩ := List.mem_map.mp hn
    obtain ⟨r, i', p', s, k, rfl, rfl, hk, -⟩ := mem_pathsBefore.mp (List.mem_reverse.mp hq)
    obtain ⟨s', j, rfl, -⟩ := (mem_pathsWithin _).mp hq'
    have h := Node.before_beside hk p' s (s' ++ (0 + j) :: r) none none
    rwa [List.append_assoc, List.cons_append] at h

theorem ordered_reverse_pathsAbove (p : Path) : Ordered ((pathsAbove p).reverse.map Node.ofPath) := by
  induction p with
  | nil => exact List.Pairwise.nil
  | cons i p ih =>
    rw [pathsAbove, List.reverse_cons, List.map_append]
    refine List.pairwise_append.mpr ⟨ih, List.pairwise_singleton _ _, ?_⟩
    intro m hm n hn
    obtain ⟨q, hq, rfl⟩ := List.mem_map.mp hm
    obtain rfl := List.mem_singleton.mp hn
    obtain ⟨s, hne, rfl⟩ := mem_pathsAbove.mp (List.mem_reverse.mp hq)
    exact Node.before_below hne none none

namespace Document
variable (d : Document) (n : Node)

theorem ordered_childrenOf (p : Path) : Ordered (d.childrenOf p) :=
  List.pairwise_map.mpr (List.pairwise_lt_range.imp fun h => Node.before_beside h p [] [] none none)

theorem ordered_children : Ordered (d.children n) := by
  unfold children
  split
  · exact List.Pairwise.nil
  · exact d.ordered_childrenOf n.path

theorem ordered_attributes : Ordered (d.attributes n) := by
  unfold attributes
  split
  · exact List.pairwise_map.mpr (List.pairwise_lt_range.imp fun h => Node.attribute_before h)
  · exact List.Pairwise.nil

theorem ordered_descendants : Ordered (d.descendants n) := by
  unfold descendants
  split
  · exact List.Pairwise.nil
  · exact ordered_pathsWithin n.path 0 _

theorem ordered_followingSiblings : Ordered (d.followingSiblings n) := by
  unfold followingSiblings
  split
  · exact List.Pairwise.sublist (List.drop_sublist _ _) (d.ordered_childrenOf _)
  · exact List.Pairwise.nil

theorem ordered_reverse_precedingSiblings : Ordered (d.precedingSiblings n).reverse := by
  unfold precedingSiblings
  split
  · rw [List.reverse_reverse]
    exact List.Pairwise.sublist (List.take_sublist _ _) (d.ordered_childrenOf _)
  · exact List.Pairwise.nil

theorem ordered_following : Ordered (d.following n) := by
  unfold following
  split
  · refine List.pairwise_append.mpr ⟨d.ordered_descendants _, ordered_pathsAfter d.trees n.path, ?_⟩
    intro l hl m hm
    obtain ⟨q, hq, rfl⟩ := List.mem_map.mp hl
    obtain ⟨q', hq', rfl⟩ := List.mem_map.mp hm
    obtain ⟨s, j, rfl, -⟩ := (mem_pathsWithin _).mp hq
    obtain ⟨r, i, p', s', k, hp, rfl, hk, -⟩ := mem_pathsAfter.mp hq'
    have h := Node.before_beside hk p' (s ++ (0 + j) :: r) s' none none
    rw [List.append_assoc, List.cons_append, ← hp] at h
    exact h
  · exact ordered_pathsAfter d.trees n.path

theorem ordered_reverse_preceding : Ordered (d.preceding n).reverse := by
  rw [preceding, ← List.map_reverse]
  exact ordered_reverse_pathsBefore d.trees n.path

end Document

theorem Node.ordered_reverse_ancestors (n : Node) : Ordered n.ancestors.reverse := by
  unfold Node.ancestors
  split
  · rw [List.reverse_cons, ← List.map_reverse]
    refine List.pairwise_append.mpr ⟨ordered_reverse_pathsAbove n.path, List.pairwise_singleton _ _, ?_⟩
    intro l hl m hm
    obtain ⟨q, hq, rfl⟩ := List.mem_map.mp hl
    obtain rfl := List.mem_singleton.mp hm
    obtain ⟨s, hne, hs⟩ := mem_pathsAbove.mp (List.mem_reverse.mp hq)
    rw [hs]
    exact Node.before_below hne none none
  · rw [← List.map_reverse]
    exact ordered_reverse_pathsAbove n.path

theorem Node.before_of_mem_ancestors {m n : Node} (h : m ∈ n.ancestors) : m.before n := by
  have above : m ∈ (pathsAbove n.path).map Node.ofPath → m.before n := fun hm => by
    obtain ⟨q, hq, rfl⟩ := List.mem_map.mp hm
    obtain ⟨s, hne, hs⟩ := mem_pathsAbove.mp hq
    have hn : n = ⟨s ++ q, n.attr⟩ := by rw [← hs]
    rw [hn]
    exact Node.before_below hne none n.attr
  unfold Node.ancestors at h
  split at h
  · rename_i k hk
    rcases List.mem_cons.mp h with rfl | h
    · have hn : n = ⟨n.path, some k⟩ := by rw [← hk]
      rw [hn]
      exact Node.before_attribute n.path k
    · exact above h
  · exact above h

theorem Document.before_of_mem_descendants {d : Document} {m n : Node} (h : m ∈ d.descendants n) :
    n.before m := by
  unfold Document.descendants at h
  split at h
  · cases h
  · rename_i hattr
    obtain ⟨q, hq, rfl⟩ := List.mem_map.mp h
    obtain ⟨s, j, rfl, -⟩ := (mem_pathsWithin _).mp hq
    have hn : n = ⟨n.path, none⟩ := by rw [← hattr]
    have hbefore := Node.before_below (p := n.path) (s := s ++ [0 + j]) (by simp) none none
    rw [List.append_assoc] at hbefore
    rw [hn]
    exact hbefore

/-! ### Nodes of a document -/

theorem Node.exists_ofPath {n : Node} (h : n.attr = none) : ∃ q, n = .ofPath q :=
  ⟨n.path, by rw [ofPath, ← h]⟩

theorem treeAt?_of_append {ts : List Tree} {s p : Path} (h : (treeAt? ts (s ++ p)).isSome) (hp : p ≠ []) :
    (treeAt? ts p).isSome := by
  by_cases hs : s = []
  · rwa [hs] at h
  · obtain ⟨i, p, rfl⟩ := List.exists_cons_of_ne_nil hp
    rw [treeAt?_append _ hs, childrenAt] at h
    rw [treeAt?]
    cases ht : (childrenAt ts p)[i]? with
    | none => simp [ht] at h
    | some t => rfl

namespace Document
variable {d : Document}

theorem content?_of_treeAt? {p : Path} {t : Tree} (h : treeAt? d.trees p = some t) :
    d.content? (.ofPath p) = some (.tree t) := by
  cases p with
  | nil => cases h
  | cons i p =>
    show (treeAt? d.trees (i :: p)).map Content.tree = _
    rw [h]
    rfl

theorem content?_eq_tree {n : Node} {t : Tree} (h : d.content? n = some (.tree t)) :
    n.attr = none ∧ treeAt? d.trees n.path = some t := by
  obtain ⟨p, _ | k⟩ := n
  · refine ⟨rfl, ?_⟩
    cases p with
    | nil => simp [content?] at h
    | cons i p => simpa [content?] using h
  · simp only [content?] at h
    split at h <;> simp at h

theorem content?_eq_attribute {n : Node} {a : Attribute} (h : d.content? n = some (.attribute a)) :
    n.attr.isSome ∧ ∃ tag ts, treeAt? d.trees n.path = some (.element tag ts) ∧ a ∈ tag.attributes := by
  obtain ⟨p, _ | k⟩ := n
  · cases p <;> simp [content?] at h
  · simp only [content?] at h
    split at h
    · next tag ts htree =>
      rw [Option.map_eq_some_iff] at h
      obtain ⟨a', ha, heq⟩ := h
      cases heq
      exact ⟨rfl, tag, ts, htree, List.mem_of_getElem? ha⟩
    · cases h

theorem holds_root : d.Holds .root := rfl

theorem holds_ofPath {p : Path} : d.Holds (.ofPath p) ↔ p = [] ∨ (treeAt? d.trees p).isSome := by
  cases p with
  | nil => simp [Holds, content?, Node.ofPath]
  | cons i p => simp [Holds, content?, Node.ofPath]

theorem holds_attribute {p : Path} {k : Nat} :
    d.Holds ⟨p, some k⟩ ↔
      ∃ tag ts, treeAt? d.trees p = some (.element tag ts) ∧ k < tag.attributes.length := by
  simp only [Holds, content?]
  cases ht : treeAt? d.trees p with
  | none => simp
  | some t => cases t <;> simp

/-- The tree node at the path of a node: for an attribute, its element. -/
theorem Holds.ofPath {n : Node} (h : d.Holds n) : d.Holds (.ofPath n.path) := by
  obtain ⟨p, _ | k⟩ := n
  · exact h
  · obtain ⟨tag, ts, ht, -⟩ := holds_attribute.mp h
    exact holds_ofPath.mpr (Or.inr (by rw [ht]; rfl))

theorem Holds.of_append {s p : Path} (h : d.Holds (.ofPath (s ++ p))) : d.Holds (.ofPath p) := by
  by_cases hp : p = []
  · exact holds_ofPath.mpr (Or.inl hp)
  · rcases holds_ofPath.mp h with h | h
    · exact absurd (List.append_eq_nil_iff.mp h).2 hp
    · exact holds_ofPath.mpr (Or.inr (treeAt?_of_append h hp))

theorem holds_of_mem_childrenOf {p : Path} {m : Node} (h : m ∈ d.childrenOf p) : d.Holds m := by
  obtain ⟨i, hi, rfl⟩ := List.mem_map.mp h
  refine holds_ofPath.mpr (Or.inr ?_)
  rw [treeAt?, List.getElem?_eq_getElem (List.mem_range.mp hi)]
  rfl

theorem holds_of_mem_children {n m : Node} (h : m ∈ d.children n) : d.Holds m := by
  unfold children at h
  split at h
  · cases h
  · exact holds_of_mem_childrenOf h

theorem holds_of_mem_attributes {n m : Node} (h : m ∈ d.attributes n) : d.Holds m := by
  unfold attributes at h
  split at h
  · rename_i tag ts hc
    obtain ⟨k, hk, rfl⟩ := List.mem_map.mp h
    exact holds_attribute.mpr ⟨tag, ts, (content?_eq_tree hc).2, List.mem_range.mp hk⟩
  · cases h

theorem holds_of_mem_pathsWithin {p : Path} {m : Node}
    (h : m ∈ (pathsWithin p 0 (childrenAt d.trees p)).map Node.ofPath) : d.Holds m := by
  obtain ⟨q, hq, rfl⟩ := List.mem_map.mp h
  obtain ⟨s, j, rfl, hs⟩ := (mem_pathsWithin _).mp hq
  rw [← treeAt?_append _ (by simp)] at hs
  exact holds_ofPath.mpr (Or.inr (by simpa using hs))

theorem holds_of_mem_descendants {n m : Node} (h : m ∈ d.descendants n) : d.Holds m := by
  unfold descendants at h
  split at h
  · cases h
  · exact holds_of_mem_pathsWithin h

theorem holds_of_mem_followingSiblings {n m : Node} (h : m ∈ d.followingSiblings n) : d.Holds m := by
  unfold followingSiblings at h
  split at h
  · exact holds_of_mem_childrenOf (List.mem_of_mem_drop h)
  · cases h

theorem holds_of_mem_precedingSiblings {n m : Node} (h : m ∈ d.precedingSiblings n) : d.Holds m := by
  unfold precedingSiblings at h
  split at h
  · exact holds_of_mem_childrenOf (List.mem_of_mem_take (List.mem_reverse.mp h))
  · cases h

theorem holds_of_mem_following {n m : Node} (h : m ∈ d.following n) : d.Holds m := by
  have after : m ∈ (pathsAfter d.trees n.path).map Node.ofPath → d.Holds m := fun hm => by
    obtain ⟨q, hq, rfl⟩ := List.mem_map.mp hm
    obtain ⟨_, _, _, _, _, -, -, -, hq⟩ := mem_pathsAfter.mp hq
    exact holds_ofPath.mpr (Or.inr hq)
  unfold following at h
  split at h
  · rcases List.mem_append.mp h with h | h
    · exact holds_of_mem_descendants h
    · exact after h
  · exact after h

theorem holds_of_mem_preceding {n m : Node} (h : m ∈ d.preceding n) : d.Holds m := by
  obtain ⟨q, hq, rfl⟩ := List.mem_map.mp h
  obtain ⟨_, _, _, _, _, -, -, -, hq⟩ := mem_pathsBefore.mp hq
  exact holds_ofPath.mpr (Or.inr hq)

theorem Holds.of_mem_parent? {n m : Node} (hn : d.Holds n) (h : m ∈ n.parent?) : d.Holds m := by
  unfold Node.parent? at h
  split at h
  · rename_i k p _
    obtain rfl := Option.mem_some.mp h
    exact hn.ofPath
  · cases h
  · rename_i i p _ hp
    obtain rfl := Option.mem_some.mp h
    have hpath := hn.ofPath
    rw [hp] at hpath
    exact Holds.of_append (s := [i]) hpath

theorem Holds.of_mem_ancestors {n m : Node} (hn : d.Holds n) (h : m ∈ n.ancestors) : d.Holds m := by
  have above : m ∈ (pathsAbove n.path).map Node.ofPath → d.Holds m := fun hm => by
    obtain ⟨q, hq, rfl⟩ := List.mem_map.mp hm
    obtain ⟨s, -, hs⟩ := mem_pathsAbove.mp hq
    have hpath := hn.ofPath
    rw [hs] at hpath
    exact hpath.of_append
  unfold Node.ancestors at h
  split at h
  · rcases List.mem_cons.mp h with rfl | h
    · exact hn.ofPath
    · exact above h
  · exact above h

end Document
end XmlMapping
