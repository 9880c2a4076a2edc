import Mathlib.Data.List.Sort
import XmlMapping.Document.Node

/-! # Document order

Comparing two nodes compares their places number by number from the document node down, a place that
goes on after one that ends, and then the attributes. So document order is a strict total order, and
the lists that are built along it (`inDocumentOrder`, `mergeInOrder`) hold the nodes they are built
from, in order and each once. A list in document order is determined by its members. -/

namespace XmlMapping

/-! ### Comparing places -/

theorem compare_append {s t : List Nat} (u v : List Nat) (h : s.length = t.length) :
    compare (s ++ u) (t ++ v) = (compare s t).then (compare u v) := by
  induction s generalizing t with
  | nil =>
    obtain rfl := List.length_eq_zero_iff.mp h.symm
    rfl
  | cons i s ih =>
    obtain ⟨j, t, rfl⟩ := List.exists_cons_of_length_eq_add_one h.symm
    have hlen : s.length = t.length := by simpa using h
    simp only [List.cons_append, List.compare_cons_cons, ih hlen, Ordering.then_assoc]

theorem compareLevel_eq {p q : Path} (h : p.length = q.length) :
    compareLevel p q = compare p.reverse q.reverse := by
  induction p generalizing q with
  | nil =>
    obtain rfl := List.length_eq_zero_iff.mp h.symm
    rfl
  | cons i p ih =>
    obtain ⟨j, q, rfl⟩ := List.exists_cons_of_length_eq_add_one h.symm
    have hlen : p.length = q.length := by simpa using h
    have hone : compare [i] [j] = compare i j := by
      rw [List.compare_cons_cons]
      cases compare i j <;> rfl
    rw [compareLevel, ih hlen, List.reverse_cons, List.reverse_cons, compare_append _ _ (by simpa using hlen), hone]

/-- Places compare as their numbers from the document node down do. -/
theorem comparePaths_eq (p q : Path) : comparePaths p q = compare p.reverse q.reverse := by
  have hp := List.take_append_drop (p.length - q.length) p
  have hq := List.take_append_drop (q.length - p.length) q
  have hlen : (p.drop (p.length - q.length)).length = (q.drop (q.length - p.length)).length := by
    simp only [List.length_drop]
    omega
  -- One of the two beginnings that are cut off is empty: it belongs to the shorter path.
  have hrest : compare (p.take (p.length - q.length)).reverse (q.take (q.length - p.length)).reverse =
      compare p.length q.length := by
    rcases Nat.lt_trichotomy p.length q.length with h | h | h
    · have hne : (q.take (q.length - p.length)).reverse ≠ [] := by
        rw [← List.length_pos_iff_ne_nil, List.length_reverse, List.length_take]
        omega
      obtain ⟨j, t, ht⟩ := List.exists_cons_of_ne_nil hne
      rw [show p.length - q.length = 0 by omega, ht, Nat.compare_eq_lt.mpr h]
      rfl
    · rw [h, Nat.sub_self, Nat.compare_eq_eq.mpr rfl]
      rfl
    · have hne : (p.take (p.length - q.length)).reverse ≠ [] := by
        rw [← List.length_pos_iff_ne_nil, List.length_reverse, List.length_take]
        omega
      obtain ⟨i, s, hs⟩ := List.exists_cons_of_ne_nil hne
      rw [show q.length - p.length = 0 by omega, hs, Nat.compare_eq_gt.mpr h]
      rfl
  rw [comparePaths, compareLevel_eq hlen, ← hrest, ← compare_append _ _ (by simpa using hlen),
    ← List.reverse_append, ← List.reverse_append, hp, hq]

theorem compareAttributes_eq (a b : Option Nat) : compareAttributes a b = compare a b := by
  cases a <;> cases b <;> rfl

theorem Node.compare_eq : Node.compare = compareLex (compareOn (·.path.reverse)) (compareOn (·.attr)) := by
  funext m n
  rw [Node.compare, comparePaths_eq, compareAttributes_eq]
  rfl

/-! ### A strict total order -/

instance : Std.TransCmp Node.compare := by
  rw [Node.compare_eq]
  infer_instance

instance : Std.LawfulEqCmp Node.compare where
  compare_self := Std.ReflCmp.compare_self
  eq_of_compare {m n} h := by
    rw [Node.compare_eq, compareLex_eq_eq] at h
    have hpath : m.path.reverse = n.path.reverse := Std.LawfulEqOrd.eq_of_compare h.1
    have hattr : m.attr = n.attr := Std.LawfulEqOrd.eq_of_compare h.2
    cases m
    cases n
    simp_all

namespace Node

theorem before_irrefl (n : Node) : ¬n.before n := fun h => by
  have hself : n.compare n = .eq := Std.ReflCmp.compare_self
  rw [before, hself] at h
  cases h

theorem before_trans {l m n : Node} (h₁ : l.before m) (h₂ : m.before n) : l.before n :=
  Std.TransCmp.lt_trans h₁ h₂

theorem before_of_gt {m n : Node} (h : m.compare n = .gt) : n.before m :=
  Std.OrientedCmp.gt_iff_lt.mp h

theorem eq_of_compare {m n : Node} (h : m.compare n = .eq) : m = n :=
  Std.LawfulEqCmp.eq_of_compare h

instance : Std.Irrefl Node.before := ⟨before_irrefl⟩

instance : IsTrans Node Node.before := ⟨fun _ _ _ => before_trans⟩

instance : Std.Antisymm Node.before :=
  ⟨fun _ _ h₁ h₂ => absurd (before_trans h₁ h₂) (before_irrefl _)⟩

theorem before_iff {m n : Node} :
    m.before n ↔ Ord.compare m.path.reverse n.path.reverse = .lt ∨
      m.path = n.path ∧ Ord.compare m.attr n.attr = .lt := by
  rw [before, Node.compare_eq, compareLex, Ordering.then_eq_lt]
  simp [compareOn, List.reverse_inj]

/-- What goes on from a place comes after everything at the place. -/
theorem before_below {p s : Path} (hs : s ≠ []) (a b : Option Nat) : before ⟨p, a⟩ ⟨s ++ p, b⟩ := by
  obtain ⟨i, s', hs'⟩ := List.exists_cons_of_ne_nil (List.reverse_ne_nil_iff.mpr hs)
  refine before_iff.mpr (Or.inl ?_)
  have h := compare_append [] (i :: s') (rfl : p.reverse.length = p.reverse.length)
  rw [List.append_nil, Std.ReflOrd.compare_self] at h
  rw [List.reverse_append, hs', h]
  rfl

/-- What is at or below a child comes before what is at or below a later one. -/
theorem before_beside {i j : Nat} (h : i < j) (p s t : Path) (a b : Option Nat) :
    before ⟨s ++ i :: p, a⟩ ⟨t ++ j :: p, b⟩ := by
  refine before_iff.mpr (Or.inl ?_)
  simp only [List.reverse_append, List.reverse_cons, List.append_assoc, List.singleton_append]
  rw [compare_append _ _ rfl, Std.ReflOrd.compare_self, List.compare_cons_cons, Nat.compare_eq_lt.mpr h]
  rfl

theorem before_attribute (p : Path) (k : Nat) : before (ofPath p) ⟨p, some k⟩ :=
  before_iff.mpr (Or.inr ⟨rfl, rfl⟩)

theorem attribute_before {p : Path} {k l : Nat} (h : k < l) : before ⟨p, some k⟩ ⟨p, some l⟩ :=
  before_iff.mpr (Or.inr ⟨rfl, Nat.compare_eq_lt.mpr h⟩)

end Node

/-! ### Lists in document order -/

/-- The nodes of a list stand in document order, each once. -/
def Ordered (ns : List Node) : Prop :=
  ns.Pairwise Node.before

theorem Ordered.nodup {ns : List Node} (h : Ordered ns) : ns.Nodup := by
  refine List.Pairwise.imp ?_ h
  rintro m n hlt rfl
  exact Node.before_irrefl m hlt

theorem Ordered.eq_of_mem_iff {ms ns : List Node} (hm : Ordered ms) (hn : Ordered ns)
    (h : ∀ n, n ∈ ms ↔ n ∈ ns) : ms = ns :=
  List.Pairwise.eq_of_mem_iff hm hn h

theorem mem_insertInOrder {n x : Node} {ns : List Node} : x ∈ insertInOrder n ns ↔ x = n ∨ x ∈ ns := by
  induction ns with
  | nil => simp [insertInOrder]
  | cons m ms ih =>
    rw [insertInOrder]
    cases h : n.compare m with
    | lt => simp
    | eq => simp [Node.eq_of_compare h]
    | gt =>
      simp only [List.mem_cons, ih]
      exact or_left_comm

theorem ordered_insertInOrder {n : Node} {ns : List Node} (h : Ordered ns) : Ordered (insertInOrder n ns) := by
  induction ns with
  | nil => exact List.pairwise_singleton _ _
  | cons m ms ih =>
    obtain ⟨hm, hms⟩ := List.pairwise_cons.mp h
    rw [insertInOrder]
    cases hc : n.compare m with
    | lt =>
      refine List.pairwise_cons.mpr ⟨fun x hx => ?_, h⟩
      rcases List.mem_cons.mp hx with rfl | hx
      · exact hc
      · exact Node.before_trans hc (hm x hx)
    | eq => exact h
    | gt =>
      refine List.pairwise_cons.mpr ⟨fun x hx => ?_, ih hms⟩
      rcases mem_insertInOrder.mp hx with rfl | hx
      · exact Node.before_of_gt hc
      · exact hm x hx

@[simp] theorem mem_inDocumentOrder {x : Node} {ns : List Node} : x ∈ inDocumentOrder ns ↔ x ∈ ns := by
  induction ns with
  | nil => rfl
  | cons n ns ih =>
    rw [inDocumentOrder, List.foldr_cons, mem_insertInOrder, List.mem_cons]
    exact or_congr_right ih

theorem ordered_inDocumentOrder (ns : List Node) : Ordered (inDocumentOrder ns) := by
  induction ns with
  | nil => exact List.Pairwise.nil
  | cons n ns ih => exact ordered_insertInOrder ih

/-- Nodes that are in document order already stay as they are. -/
theorem Ordered.inDocumentOrder_eq {ns : List Node} (h : Ordered ns) : inDocumentOrder ns = ns :=
  (ordered_inDocumentOrder ns).eq_of_mem_iff h fun _ => mem_inDocumentOrder

theorem mem_mergeInOrder {x : Node} {ms ns : List Node} : x ∈ mergeInOrder ms ns ↔ x ∈ ms ∨ x ∈ ns := by
  fun_induction mergeInOrder ms ns with
  | case1 ns => simp
  | case2 ms => simp
  | case3 m ms n ns hc ih => simp [ih, or_assoc]
  | case4 m ms n ns hc ih =>
    obtain rfl := Node.eq_of_compare hc
    simp only [List.mem_cons, ih]
    tauto
  | case5 m ms n ns hc ih =>
    simp only [List.mem_cons, ih]
    tauto

theorem ordered_mergeInOrder {ms ns : List Node} (hm : Ordered ms) (hn : Ordered ns) :
    Ordered (mergeInOrder ms ns) := by
  fun_induction mergeInOrder ms ns with
  | case1 ns => exact hn
  | case2 ms => exact hm
  | case3 m ms n ns hc ih =>
    obtain ⟨hm', hms⟩ := List.pairwise_cons.mp hm
    refine List.pairwise_cons.mpr ⟨fun x hx => ?_, ih hms hn⟩
    rcases mem_mergeInOrder.mp hx with hx | hx
    · exact hm' x hx
    · rcases List.mem_cons.mp hx with rfl | hx
      · exact hc
      · exact Node.before_trans hc ((List.pairwise_cons.mp hn).1 x hx)
  | case4 m ms n ns hc ih =>
    obtain rfl := Node.eq_of_compare hc
    obtain ⟨hm', hms⟩ := List.pairwise_cons.mp hm
    obtain ⟨hn', hns⟩ := List.pairwise_cons.mp hn
    refine List.pairwise_cons.mpr ⟨fun x hx => ?_, ih hms hns⟩
    rcases mem_mergeInOrder.mp hx with hx | hx
    · exact hm' x hx
    · exact hn' x hx
  | case5 m ms n ns hc ih =>
    obtain ⟨hn', hns⟩ := List.pairwise_cons.mp hn
    refine List.pairwise_cons.mpr ⟨fun x hx => ?_, ih hm hns⟩
    rcases mem_mergeInOrder.mp hx with hx | hx
    · rcases List.mem_cons.mp hx with rfl | hx
      · exact Node.before_of_gt hc
      · exact Node.before_trans (Node.before_of_gt hc) ((List.pairwise_cons.mp hm).1 x hx)
    · exact hn' x hx

/-- The first node of an ordered list is its least one. -/
theorem Ordered.firstInOrder?_eq {ns : List Node} (h : Ordered ns) : firstInOrder? ns = ns.head? := by
  rw [firstInOrder?, h.inDocumentOrder_eq]

end XmlMapping
