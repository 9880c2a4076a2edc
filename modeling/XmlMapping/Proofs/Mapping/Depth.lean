import Mathlib.Data.Finset.Prod
import XmlMapping.Proofs.Mapping.Unrolling
import XmlMapping.Proofs.Mapping.NodeTree
import XmlMapping.Proofs.XPath.Direction

/-! # The depth of references

The greater the depth, the more references come to an end at nodes of a document. There are only so many names and
nodes, so some depth adds nothing to the one before, and then no depth does. The depth to which references are
followed is not less than that. So what a reference makes of a node is what the mapping makes of it that the
reference stands for, and a run that fails for want of depth fails with every depth. -/

namespace XmlMapping

/-! ### The nodes of a document -/

namespace Document
variable {d : Document} {n : Node}

/-- The nodes of the document, each tree node before its attributes. -/
def places (d : Document) : List Node :=
  d.nodes.flatMap fun n => n :: d.attributes n

theorem mem_places (h : d.Holds n) : n ∈ d.places := by
  rw [places, List.mem_flatMap]
  obtain ⟨p, _ | k⟩ := n
  · exact ⟨⟨p, none⟩, XPath.mem_nodes_iff.mpr ⟨h, rfl⟩, List.mem_cons_self⟩
  · refine ⟨.ofPath p, XPath.mem_nodes_iff.mpr ⟨h.ofPath, rfl⟩, List.mem_cons_of_mem _ ?_⟩
    exact mem_attributes_iff.mpr ⟨h, rfl, rfl⟩

theorem holds_of_mem_places (h : n ∈ d.places) : d.Holds n := by
  rw [places, List.mem_flatMap] at h
  obtain ⟨m, hm, h⟩ := h
  rcases List.mem_cons.mp h with rfl | h
  · exact (XPath.mem_nodes_iff.mp hm).1
  · exact holds_of_mem_attributes h

theorem length_places (d : Document) : d.places.length = d.size := by
  have hcount : ∀ (ns : List Node) (start : Nat),
      ns.foldl (fun count n => count + 1 + (d.attributes n).length) start =
        start + (ns.flatMap fun n => n :: d.attributes n).length := fun ns => by
    induction ns with
    | nil => exact fun _ => rfl
    | cons m ns ih =>
      intro start
      rw [List.foldl_cons, ih, List.flatMap_cons, List.length_append, List.length_cons]
      omega
  exact ((hcount d.nodes 0).trans (Nat.zero_add _)).symm

end Document

/-! ### Following references -/

theorem Definitions.mem_of_lookup {defs : Definitions} {name : String} {m : Mapping}
    (h : defs.lookup name = some m) : (name, m) ∈ defs := by
  obtain ⟨before, after, rfl, -⟩ := List.lookup_eq_some_iff.mp h
  exact List.mem_append_right before List.mem_cons_self

section
variable (defs : Definitions) (d : Document) (b : Bindings)

/-- What a reference makes of a node, given what the references make in the mapping that it stands for. -/
def follow (resolve : Reference → Node → Run Json) (reference : Reference) (n : Node) : Run Json :=
  match defs.get? reference with
  | some m => m.apply resolve d b n
  | none => .fail (.undefined reference.name)

/-- One more level of depth adds nothing. -/
def Steady (depth : Nat) : Prop :=
  ∀ reference n, d.Holds n →
    (resolveWithin defs d b (depth + 1) reference n).Approximates (resolveWithin defs d b depth reference n)

end

variable {defs : Definitions} {d : Document} {b : Bindings} {reference : Reference} {n : Node} {depth : Nat}

theorem resolveWithin_succ (depth : Nat) :
    resolveWithin defs d b (depth + 1) = follow defs d b (resolveWithin defs d b depth) :=
  rfl

theorem follow_of_get? {resolve : Reference → Node → Run Json} {m : Mapping} (h : defs.get? reference = some m) :
    follow defs d b resolve reference n = m.apply resolve d b n := by
  rw [follow, h]

theorem follow_of_none {resolve : Reference → Node → Run Json} (h : defs.get? reference = none) :
    follow defs d b resolve reference n = .fail (.undefined reference.name) := by
  rw [follow, h]

section
variable {Rel : (α : Type) → Run α → Run α → Prop} {resolve resolve' : Reference → Node → Run Json}

/-- What relates the runs of references relates those of following a reference in definitions and in unrolled ones. -/
theorem Run.Carries.follow {lookup : Reference → Option Mapping} {defs' : Definitions}
    (h : Run.Carries Rel lookup d b d.Holds resolve resolve')
    (hget : Option.Rel (Mapping.Unrolls lookup) (defs.get? reference) (defs'.get? reference)) (hn : d.Holds n) :
    Rel Json (follow defs d b resolve reference n) (follow defs' d b resolve' reference n) := by
  rw [XmlMapping.follow, XmlMapping.follow]
  generalize defs.get? reference = m, defs'.get? reference = m' at hget
  cases hget with
  | some hm => exact h.apply hm (Mapping.defersTo_holds _ hn)
  | none => exact h.refl nofun

theorem Run.Composes.follow (h : Run.Composes Rel)
    (hkept : ∀ reference n, d.Holds n → Rel Json (resolve reference n) (resolve' reference n)) (hn : d.Holds n) :
    Rel Json (follow defs d b resolve reference n) (follow defs d b resolve' reference n) := by
  refine (h.carries hkept).follow ?_ hn
  cases defs.get? reference with
  | some m => exact .some (.refl m)
  | none => exact .none

end

theorem approximates_succ (depth : Nat) (hn : d.Holds n) :
    (resolveWithin defs d b depth reference n).Approximates (resolveWithin defs d b (depth + 1) reference n) := by
  induction depth generalizing reference n with
  | zero => exact Run.approximates_of_not_ends (not_not_intro rfl) _
  | succ depth ih => exact Run.composes_approximates.follow (fun _ _ => ih) hn

theorem approximates_of_le {depth' : Nat} (hle : depth ≤ depth') (hn : d.Holds n) :
    (resolveWithin defs d b depth reference n).Approximates (resolveWithin defs d b depth' reference n) := by
  induction depth', hle using Nat.le_induction with
  | base => exact .refl _
  | succ depth' _ ih => exact ih.trans (approximates_succ depth' hn)

/-! ### A depth that is enough -/

theorem Steady.succ (h : Steady defs d b depth) : Steady defs d b (depth + 1) :=
  fun _ _ => Run.composes_approximated.follow h

theorem Steady.of_le {depth' : Nat} (h : Steady defs d b depth) (hle : depth ≤ depth') : Steady defs d b depth' := by
  induction depth', hle using Nat.le_induction with
  | base => exact h
  | succ _ _ ih => exact ih.succ

theorem Steady.approximates {depth' : Nat} (h : Steady defs d b depth) (hle : depth ≤ depth') (hn : d.Holds n) :
    (resolveWithin defs d b depth' reference n).Approximates (resolveWithin defs d b depth reference n) := by
  induction depth', hle using Nat.le_induction with
  | base => exact .refl _
  | succ depth' hle ih => exact (h.of_le hle reference n hn).trans ih

/-- The names and nodes at which references come to an end with a depth. -/
def settled (defs : Definitions) (d : Document) (b : Bindings) (depth : Nat) : Finset (String × Node) :=
  ((defs.map Prod.fst).toFinset ×ˢ d.places.toFinset).filter fun x =>
    (resolveWithin defs d b depth (.named x.1) x.2).Ends

theorem mem_settled {name : String} : (name, n) ∈ settled defs d b depth ↔
    (name ∈ defs.map Prod.fst ∧ d.Holds n) ∧ (resolveWithin defs d b depth (.named name) n).Ends := by
  rw [settled, Finset.mem_filter, Finset.mem_product, List.mem_toFinset, List.mem_toFinset]
  exact and_congr_left fun _ => and_congr_right fun _ => ⟨Document.holds_of_mem_places, Document.mem_places⟩

theorem card_settled_le : (settled defs d b depth).card ≤ defs.length * d.size := by
  calc (settled defs d b depth).card
      ≤ ((defs.map Prod.fst).toFinset ×ˢ d.places.toFinset).card := Finset.card_filter_le _ _
    _ = (defs.map Prod.fst).toFinset.card * d.places.toFinset.card := Finset.card_product _ _
    _ ≤ (defs.map Prod.fst).length * d.places.length :=
      Nat.mul_le_mul (List.toFinset_card_le _) (List.toFinset_card_le _)
    _ = defs.length * d.size := by rw [List.length_map, d.length_places]

theorem settled_subset_succ : settled defs d b depth ⊆ settled defs d b (depth + 1) := by
  rintro ⟨name, n⟩ h
  obtain ⟨hplace, hends⟩ := mem_settled.mp h
  exact mem_settled.mpr ⟨hplace, (approximates_succ depth hplace.2).ends hends⟩

/-- When no name comes to an end at one more node, no run changes. -/
theorem steady_of_settled (hdepth : d.size ≤ depth) (h : settled defs d b (depth + 1) ⊆ settled defs d b depth) :
    Steady defs d b depth := by
  intro reference n hn hends
  suffices hends' : (resolveWithin defs d b depth reference n).Ends from (approximates_succ depth hn hends').symm
  cases reference with
  | nodeTree =>
    rw [resolveWithin_nodeTree defs d b (Nat.lt_of_lt_of_le (d.length_descendants_lt_size n) hdepth)]
    exact Run.ends_done _
  | named name =>
    cases hget : defs.get? (.named name) with
    | some m =>
      have hname : name ∈ defs.map Prod.fst := List.mem_map_of_mem (Definitions.mem_of_lookup hget)
      exact (mem_settled.mp (h (mem_settled.mpr ⟨⟨hname, hn⟩, hends⟩))).2
    | none =>
      -- At any depth but the least an undefined reference is found to be one.
      have hpos : 0 < depth := Nat.lt_of_lt_of_le (Nat.zero_lt_of_lt (d.length_descendants_lt_size n)) hdepth
      obtain ⟨depth, rfl⟩ := Nat.exists_eq_succ_of_ne_zero hpos.ne'
      rw [resolveWithin_succ, follow_of_none hget]
      exact nofun

theorem exists_steady (defs : Definitions) (d : Document) (b : Bindings) :
    ∃ depth ≤ referenceDepth defs d, Steady defs d b depth := by
  by_contra hnone
  push Not at hnone
  -- Every level of depth up to this one settles one more name at a node.
  have hgrows : ∀ i, i ≤ defs.length * d.size + 1 → i ≤ (settled defs d b (d.size + i)).card := fun i => by
    induction i with
    | zero => exact fun _ => Nat.zero_le _
    | succ i ih =>
      intro hi
      have hdepth : d.size + i ≤ referenceDepth defs d := by
        rw [referenceDepth, Nat.succ_mul]
        omega
      have hnew : ¬settled defs d b (d.size + i + 1) ⊆ settled defs d b (d.size + i) :=
        fun h => hnone _ hdepth (steady_of_settled (Nat.le_add_right _ _) h)
      have hcard := Finset.card_lt_card ⟨settled_subset_succ, hnew⟩
      have := ih (Nat.le_of_succ_le hi)
      rw [← Nat.add_assoc]
      omega
  exact absurd (hgrows _ le_rfl) (Nat.not_le.mpr (Nat.lt_succ_of_le card_settled_le))

theorem steady_referenceDepth (defs : Definitions) (d : Document) (b : Bindings) :
    Steady defs d b (referenceDepth defs d) := by
  obtain ⟨depth, hle, hsteady⟩ := exists_steady defs d b
  exact hsteady.of_le hle

/-- What a reference makes of a node is what the mapping that it stands for makes of it. -/
theorem resolve_agrees (hn : d.Holds n) :
    (resolve defs d b reference n).Agrees (follow defs d b (resolve defs d b) reference n) :=
  Run.agrees_of_approximates (approximates_succ _ hn) (steady_referenceDepth defs d b reference n hn)

/-- No depth makes another thing of a node than the depth to which references are followed. -/
theorem approximates_resolve (depth : Nat) (hn : d.Holds n) :
    (resolveWithin defs d b depth reference n).Approximates (resolve defs d b reference n) := by
  rcases Nat.le_total depth (referenceDepth defs d) with hle | hle
  · exact approximates_of_le hle hn
  · exact (steady_referenceDepth defs d b).approximates hle hn

end XmlMapping
