import XmlMapping.Proofs.Document.Navigation

/-! # Kin

Which nodes are children, attributes, siblings and descendants of a node, told by their places alone: a node has one
parent, siblings have one parent and different numbers below it, and the path of a descendant goes on from the path
of its ancestor. What is below a node are its children and what is below them. -/

namespace XmlMapping

/-! ### Children and attributes -/

namespace Document
variable {d : Document} {m n x : Node} {p : Path}

theorem holds_cons_iff {i : Nat} : d.Holds (.ofPath (i :: p)) ↔ i < (childrenAt d.trees p).length := by
  rw [holds_ofPath, treeAt?, or_iff_right (List.cons_ne_nil i p), isSome_getElem?]

/-- The trees right below a path stand at their numbers. -/
theorem getElem?_childrenOf {i : Nat} :
    (d.childrenOf p)[i]? = some m ↔ d.Holds (.ofPath (i :: p)) ∧ m = .ofPath (i :: p) := by
  rw [holds_cons_iff, List.getElem?_eq_some_iff]
  simp [childrenOf, eq_comm]

theorem mem_children_iff : m ∈ d.children n ↔ d.Holds m ∧ m.attr = none ∧ m.parent? = some n := by
  constructor
  · intro h
    have hholds := holds_of_mem_children h
    unfold children at h
    split at h
    · cases h
    · next hattr =>
      obtain ⟨p, rfl⟩ := Node.exists_ofPath hattr
      obtain ⟨i, hi⟩ := List.mem_iff_getElem?.mp h
      obtain ⟨-, rfl⟩ := getElem?_childrenOf.mp hi
      exact ⟨hholds, rfl, rfl⟩
  · rintro ⟨hholds, hattr, hparent⟩
    obtain ⟨q, rfl⟩ := Node.exists_ofPath hattr
    cases q with
    | nil => cases hparent
    | cons i p =>
      obtain rfl := Option.some.inj hparent
      exact List.mem_iff_getElem?.mpr ⟨i, getElem?_childrenOf.mpr ⟨hholds, rfl⟩⟩

theorem mem_attributes_iff : m ∈ d.attributes n ↔ d.Holds m ∧ m.attr.isSome ∧ m.parent? = some n := by
  constructor
  · intro h
    have hholds := holds_of_mem_attributes h
    unfold attributes at h
    split at h
    · next tag ts hcontent =>
      obtain ⟨p, rfl⟩ := Node.exists_ofPath (content?_eq_tree hcontent).1
      obtain ⟨k, -, rfl⟩ := List.mem_map.mp h
      exact ⟨hholds, rfl, rfl⟩
    · cases h
  · rintro ⟨hholds, hattr, hparent⟩
    obtain ⟨p, k⟩ := m
    obtain ⟨k, rfl⟩ := Option.isSome_iff_exists.mp hattr
    obtain rfl := Option.some.inj hparent
    obtain ⟨tag, ts, htree, hk⟩ := holds_attribute.mp hholds
    cases p with
    | nil => cases htree
    | cons i p =>
      rw [attributes, content?_of_treeAt? htree]
      exact List.mem_map.mpr ⟨k, List.mem_range.mpr hk, rfl⟩

/-! ### Siblings -/

theorem mem_followingSiblings_iff :
    m ∈ d.followingSiblings n ↔ d.Holds m ∧ ∃ p i j, i < j ∧ n = .ofPath (i :: p) ∧ m = .ofPath (j :: p) := by
  constructor
  · intro h
    have hholds := holds_of_mem_followingSiblings h
    unfold followingSiblings at h
    split at h
    · next i p hattr hpath =>
      obtain ⟨k, hk⟩ := List.mem_iff_getElem?.mp h
      rw [List.getElem?_drop] at hk
      obtain ⟨-, rfl⟩ := getElem?_childrenOf.mp hk
      obtain ⟨q, rfl⟩ := Node.exists_ofPath hattr
      obtain rfl : q = i :: p := hpath
      exact ⟨hholds, p, i, i + 1 + k, by omega, rfl, rfl⟩
    · cases h
  · rintro ⟨hholds, p, i, j, hij, rfl, rfl⟩
    refine List.mem_iff_getElem?.mpr ⟨j - (i + 1), ?_⟩
    show ((d.childrenOf p).drop (i + 1))[j - (i + 1)]? = _
    rw [List.getElem?_drop, show i + 1 + (j - (i + 1)) = j by omega]
    exact getElem?_childrenOf.mpr ⟨hholds, rfl⟩

theorem mem_precedingSiblings_iff :
    m ∈ d.precedingSiblings n ↔ d.Holds m ∧ ∃ p i j, j < i ∧ n = .ofPath (i :: p) ∧ m = .ofPath (j :: p) := by
  constructor
  · intro h
    have hholds := holds_of_mem_precedingSiblings h
    unfold precedingSiblings at h
    split at h
    · next i p hattr hpath =>
      obtain ⟨j, hj⟩ := List.mem_iff_getElem?.mp (List.mem_reverse.mp h)
      rw [List.getElem?_take, Option.ite_none_right_eq_some] at hj
      obtain ⟨hij, hj⟩ := hj
      obtain ⟨-, rfl⟩ := getElem?_childrenOf.mp hj
      obtain ⟨q, rfl⟩ := Node.exists_ofPath hattr
      obtain rfl : q = i :: p := hpath
      exact ⟨hholds, p, i, j, hij, rfl, rfl⟩
    · cases h
  · rintro ⟨hholds, p, i, j, hij, rfl, rfl⟩
    refine List.mem_reverse.mpr (List.mem_iff_getElem?.mpr ⟨j, ?_⟩)
    rw [List.getElem?_take_of_lt hij]
    exact getElem?_childrenOf.mpr ⟨hholds, rfl⟩

/-! ### Descendants -/

theorem mem_descendants_iff :
    m ∈ d.descendants n ↔ d.Holds m ∧ ∃ p s, s ≠ [] ∧ n = .ofPath p ∧ m = .ofPath (s ++ p) := by
  constructor
  · intro h
    have hholds := holds_of_mem_descendants h
    unfold descendants at h
    split at h
    · cases h
    · next hattr =>
      obtain ⟨p, rfl⟩ := Node.exists_ofPath hattr
      obtain ⟨q, hq, rfl⟩ := List.mem_map.mp h
      obtain ⟨s, j, rfl, -⟩ := (mem_pathsWithin _).mp hq
      exact ⟨hholds, p, s ++ [0 + j], by simp, rfl, by simp [Node.ofPath]⟩
  · rintro ⟨hholds, p, s, hs, rfl, rfl⟩
    obtain ⟨s, j, rfl⟩ := (List.eq_nil_or_concat s).resolve_left hs
    have htree := (holds_ofPath.mp hholds).resolve_left (by simp)
    rw [treeAt?_append _ hs, List.concat_eq_append] at htree
    exact List.mem_map.mpr ⟨_, (mem_pathsWithin _).mpr ⟨s, j, by simp [Node.ofPath], htree⟩, rfl⟩

theorem mem_descendants_of_mem_children (h : m ∈ d.children n) : m ∈ d.descendants n := by
  obtain ⟨hholds, hattr, hparent⟩ := mem_children_iff.mp h
  obtain ⟨q, rfl⟩ := Node.exists_ofPath hattr
  cases q with
  | nil => cases hparent
  | cons i p =>
    obtain rfl := Option.some.inj hparent
    exact mem_descendants_iff.mpr ⟨hholds, p, [i], by simp, rfl, rfl⟩

theorem mem_descendants_of_mem (hm : m ∈ d.descendants n) (hx : x ∈ d.descendants m) : x ∈ d.descendants n := by
  obtain ⟨-, p, s, hs, rfl, rfl⟩ := mem_descendants_iff.mp hm
  obtain ⟨hholds, q, t, -, hq, rfl⟩ := mem_descendants_iff.mp hx
  obtain rfl : s ++ p = q := congrArg Node.path hq
  exact mem_descendants_iff.mpr ⟨hholds, p, t ++ s, by simp [hs], rfl, by simp⟩

theorem mem_descendants_root (h : m ∈ d.descendants n) : m ∈ d.descendants .root := by
  obtain ⟨hholds, p, s, hs, -, rfl⟩ := mem_descendants_iff.mp h
  exact mem_descendants_iff.mpr ⟨hholds, [], s ++ p, by simp [hs], rfl, by simp⟩

/-- What is below a node are the children of the node and of what is below it. -/
theorem mem_descendants_iff_children :
    x ∈ d.descendants n ↔ ∃ m, (m = n ∨ m ∈ d.descendants n) ∧ x ∈ d.children m := by
  constructor
  · intro h
    obtain ⟨hholds, p, s, hs, rfl, rfl⟩ := mem_descendants_iff.mp h
    obtain ⟨i, s, rfl⟩ := List.exists_cons_of_ne_nil hs
    refine ⟨.ofPath (s ++ p), ?_, mem_children_iff.mpr ⟨hholds, rfl, rfl⟩⟩
    by_cases hnil : s = []
    · exact Or.inl (by rw [hnil]; rfl)
    · exact Or.inr (mem_descendants_iff.mpr ⟨Holds.of_append (s := [i]) hholds, p, s, hnil, rfl, rfl⟩)
  · rintro ⟨m, rfl | hm, hx⟩
    · exact mem_descendants_of_mem_children hx
    · exact mem_descendants_of_mem hm (mem_descendants_of_mem_children hx)

end Document
end XmlMapping
