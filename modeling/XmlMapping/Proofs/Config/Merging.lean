import Mathlib.Data.List.Sort
import Mathlib.Data.String.Basic
import XmlMapping.Config.Reader
import XmlMapping.Proofs.Result

/-! # Merging configurations

The bindings of a configuration stand in the order of their prefixes, one for each, also of one that is read
from a text. Binding further prefixes one after the other keeps this order; of several namespaces for a
prefix the last one counts, and a prefix that is not among them keeps the namespace it has. A configuration
is valid when all its bindings are and its limit is not zero, and otherwise it has a first flaw. -/

namespace XmlMapping

/-! ### Entries in order -/

namespace Bindings
variable {p q uri : String} {entries : List (String × String)}

/-- The entries stand in the order of their prefixes, one for each. -/
def Sorted (entries : List (String × String)) : Prop :=
  entries.Pairwise fun x y => x.1 < y.1

theorem lookup_cons (p q uri : String) (entries : List (String × String)) :
    ((q, uri) :: entries).lookup p = if p = q then some uri else entries.lookup p := by
  rw [List.lookup_cons]
  by_cases h : p = q
  · rw [if_pos h, beq_iff_eq.mpr h]
  · rw [if_neg h, beq_eq_false_iff_ne.mpr h]

theorem lookup_insertEntry (p q uri : String) (entries : List (String × String)) :
    (insertEntry p uri entries).lookup q = if q = p then some uri else entries.lookup q := by
  induction entries with
  | nil => rw [insertEntry, lookup_cons]
  | cons entry entries ih =>
    obtain ⟨r, other⟩ := entry
    rw [insertEntry]
    split
    · next hsame =>
      rw [lookup_cons, lookup_cons, ← hsame]
      split <;> rfl
    · next hne =>
      split
      · rw [lookup_cons]
      · rw [lookup_cons, lookup_cons, ih]
        by_cases hqr : q = r
        · rw [if_pos hqr, if_pos hqr, if_neg fun hqp => hne (hqp.symm.trans hqr)]
        · rw [if_neg hqr, if_neg hqr]

theorem mem_insertEntry {x : String × String} (h : x ∈ insertEntry p uri entries) : x = (p, uri) ∨ x ∈ entries := by
  induction entries with
  | nil => exact Or.inl (List.mem_singleton.mp h)
  | cons entry entries ih =>
    obtain ⟨r, other⟩ := entry
    rw [insertEntry] at h
    split at h
    · exact (List.mem_cons.mp h).imp_right (List.mem_cons_of_mem _)
    · split at h
      · exact List.mem_cons.mp h
      · rcases List.mem_cons.mp h with rfl | h
        · exact Or.inr List.mem_cons_self
        · exact (ih h).imp_right (List.mem_cons_of_mem _)

theorem Sorted.insertEntry (h : Sorted entries) (p uri : String) : Sorted (insertEntry p uri entries) := by
  induction entries with
  | nil => exact List.pairwise_singleton _ _
  | cons entry entries ih =>
    obtain ⟨r, other⟩ := entry
    obtain ⟨hfirst, hrest⟩ := List.pairwise_cons.mp h
    rw [Bindings.insertEntry]
    split
    · next hsame =>
      subst hsame
      exact List.pairwise_cons.mpr ⟨hfirst, hrest⟩
    · next hne =>
      split
      · next hlt =>
        refine List.pairwise_cons.mpr ⟨fun x hx => ?_, h⟩
        rcases List.mem_cons.mp hx with rfl | hx
        · exact hlt
        · exact lt_trans hlt (hfirst x hx)
      · next hnot =>
        refine List.pairwise_cons.mpr ⟨fun x hx => ?_, ih hrest⟩
        rcases mem_insertEntry hx with rfl | hx
        · exact lt_of_le_of_ne (not_lt.mp hnot) fun hsame => hne hsame.symm
        · exact hfirst x hx

/-- Entries in order hold what a look-up finds, and nothing else. -/
theorem Sorted.mem_iff_lookup (h : Sorted entries) : (p, uri) ∈ entries ↔ entries.lookup p = some uri := by
  induction entries with
  | nil => exact ⟨nofun, nofun⟩
  | cons entry entries ih =>
    obtain ⟨r, other⟩ := entry
    obtain ⟨hfirst, hrest⟩ := List.pairwise_cons.mp h
    rw [List.mem_cons, lookup_cons, ih hrest]
    by_cases hsame : p = r
    · rw [if_pos hsame]
      have hnot : entries.lookup p ≠ some uri := fun hlookup =>
        lt_irrefl r (hsame ▸ hfirst (p, uri) ((ih hrest).mpr hlookup))
      rw [or_iff_left hnot, Prod.mk.injEq, Option.some_inj]
      exact ⟨fun h => h.2.symm, fun h => ⟨hsame, h.symm⟩⟩
    · rw [if_neg hsame, or_iff_right fun heq => hsame (congrArg Prod.fst heq)]

theorem Sorted.eq_of_mem_iff {others : List (String × String)} (h : Sorted entries) (hothers : Sorted others)
    (hmem : ∀ p uri, (p, uri) ∈ entries ↔ (p, uri) ∈ others) : entries = others :=
  have : Std.Irrefl fun x y : String × String => x.1 < y.1 := ⟨fun x => lt_irrefl x.1⟩
  List.Pairwise.eq_of_mem_iff h hothers fun x => hmem x.1 x.2

end Bindings

namespace Config
variable {c : Config}

/-! ### Bindings of a command line -/

theorem nodesLimit_bindAll (c : Config) (namespaces : List (String × String)) :
    (c.bindAll namespaces).nodesLimit = c.nodesLimit := by
  induction namespaces generalizing c with
  | nil => rfl
  | cons _ _ ih => exact ih _

theorem sorted_bindAll (h : Bindings.Sorted c.namespaces.entries) (namespaces : List (String × String)) :
    Bindings.Sorted (c.bindAll namespaces).namespaces.entries := by
  induction namespaces generalizing c with
  | nil => exact h
  | cons binding _ ih => exact ih (c := c.bind binding.1 binding.2) (h.insertEntry binding.1 binding.2)

/-- The last namespace for a prefix counts, and before all of them that of the configuration. -/
theorem lookup_bindAll (c : Config) (namespaces : List (String × String)) (p : String) :
    (c.bindAll namespaces).namespaces.entries.lookup p =
      (namespaces.reverse.lookup p).or (c.namespaces.entries.lookup p) := by
  induction namespaces generalizing c with
  | nil => rfl
  | cons binding namespaces ih =>
    obtain ⟨q, uri⟩ := binding
    have hbind : (c.bind q uri).namespaces.entries.lookup p =
        if p = q then some uri else c.namespaces.entries.lookup p :=
      Bindings.lookup_insertEntry q p uri c.namespaces.entries
    refine (ih (c.bind q uri)).trans ?_
    rw [hbind, List.reverse_cons, List.lookup_append, Bindings.lookup_cons, Option.or_assoc]
    congr 1
    split <;> rfl

/-- A configuration is another one with bindings over it: a prefix has the last namespace that it is bound to, or
    else the one that it has already, and the limit stays. -/
def Merged (own : Config) (bindings : List (String × String)) (c : Config) : Prop :=
  c.nodesLimit = own.nodesLimit ∧ Bindings.Sorted c.namespaces.entries ∧ ∀ p uri,
    (p, uri) ∈ c.namespaces.entries ↔ (bindings.reverse.lookup p).or (own.namespaces.entries.lookup p) = some uri

theorem merged_bindAll (h : Bindings.Sorted c.namespaces.entries) (bindings : List (String × String)) :
    c.Merged bindings (c.bindAll bindings) := by
  refine ⟨c.nodesLimit_bindAll bindings, c.sorted_bindAll h bindings, fun p uri => ?_⟩
  rw [(c.sorted_bindAll h bindings).mem_iff_lookup, c.lookup_bindAll]

theorem Merged.unique {bindings : List (String × String)} {c₁ c₂ : Config} (h₁ : c.Merged bindings c₁)
    (h₂ : c.Merged bindings c₂) : c₁ = c₂ := by
  obtain ⟨⟨entries₁⟩, limit₁⟩ := c₁
  obtain ⟨⟨entries₂⟩, limit₂⟩ := c₂
  obtain ⟨hlimit₁, hsorted₁, hmem₁⟩ := h₁
  obtain ⟨hlimit₂, hsorted₂, hmem₂⟩ := h₂
  obtain rfl : entries₁ = entries₂ := hsorted₁.eq_of_mem_iff hsorted₂ fun p uri =>
    (hmem₁ p uri).trans (hmem₂ p uri).symm
  obtain rfl : limit₁ = limit₂ := hlimit₁.trans hlimit₂.symm
  rfl

theorem merged_iff (h : Bindings.Sorted c.namespaces.entries) {bindings : List (String × String)} {c' : Config} :
    c.Merged bindings c' ↔ c' = c.bindAll bindings := by
  constructor
  · exact fun hmerged => hmerged.unique (merged_bindAll h bindings)
  · rintro rfl
    exact merged_bindAll h bindings

/-! ### Validity -/

/-- Every prefix bound is a name, no namespace is empty, and the limit is not zero. -/
def Valid (c : Config) : Prop :=
  (∀ x ∈ c.namespaces.entries, Text.isName x.1.toList = true ∧ x.2 ≠ "") ∧ c.nodesLimit ≠ some 0

theorem flawOfBinding?_eq_none {x : String × String} :
    flawOfBinding? x = none ↔ Text.isName x.1.toList = true ∧ x.2 ≠ "" := by
  obtain ⟨p, uri⟩ := x
  simp only [flawOfBinding?]
  cases Text.isName p.toList <;> simp

theorem flaw?_eq_none : c.flaw? = none ↔ c.Valid := by
  have hbindings : c.namespaces.entries.findSome? flawOfBinding? = none ↔
      ∀ x ∈ c.namespaces.entries, Text.isName x.1.toList = true ∧ x.2 ≠ "" := by
    rw [List.findSome?_eq_none_iff]
    exact forall₂_congr fun x _ => flawOfBinding?_eq_none
  rw [flaw?, Valid, ← hbindings]
  cases c.namespaces.entries.findSome? flawOfBinding? with
  | some flaw => simp
  | none => simp

theorem validate_eq_ok : c.validate = .ok () ↔ c.Valid := by
  rw [← flaw?_eq_none, validate]
  cases c.flaw? <;> simp

theorem validate_eq_error {flaw : Flaw} : c.validate = .error flaw ↔ c.flaw? = some flaw := by
  rw [validate]
  cases c.flaw? <;> simp

/-! ### Reading -/

/-- What every member keeps holds after all members of an object. -/
theorem foldMembers_keeps {σ : Type} {asked : Bool} {member : σ → String → List Char → Except Json.Fault (σ × List Char)}
    {P : σ → Prop} (hmember : ∀ x key s y rest, P x → member x key s = .ok (y, rest) → P y) {first : Bool} {x y : σ}
    {s rest : List Char} (hx : P x) (h : Json.foldMembers asked member first x s = .ok (y, rest)) : P y := by
  fun_induction Json.foldMembers asked member first x s with
  | case1 => cases h
  | case2 =>
    cases h
    exact hx
  | case3 => cases h
  | case4 _ _ _ _ _ _ _ _ hmade _ ih => exact ih (hmember _ _ _ _ _ hx hmade) h
  | case5 => cases h

theorem sorted_namespacesValue {s rest : List Char} {b : Bindings} (h : namespacesValue s = .ok (b, rest)) :
    Bindings.Sorted b.entries := by
  unfold namespacesValue at h
  split at h
  · have hempty : Bindings.Sorted Bindings.empty.entries := .nil
    refine foldMembers_keeps (P := fun b => Bindings.Sorted b.entries) ?_ hempty h
    intro b p s b' rest hb hmember
    simp only [except_bind_eq_ok] at hmember
    obtain ⟨_, -, ⟨uri, _⟩, -, hmember⟩ := hmember
    cases hmember
    exact hb.insertEntry p uri
  · cases h

/-- The namespaces of a draft, if it has any, are bound in order. -/
def Draft.Sorted (d : Draft) : Prop :=
  ∀ b, d.namespaces = some b → Bindings.Sorted b.entries

theorem sorted_member {d d' : Draft} {key : String} {s rest : List Char} (hd : d.Sorted)
    (h : member d key s = .ok (d', rest)) : d'.Sorted := by
  unfold member at h
  split at h
  · split at h
    · cases h
    · simp only [except_bind_eq_ok] at h
      obtain ⟨_, -, ⟨b, _⟩, hb, h⟩ := h
      cases h
      rintro _ ⟨⟩
      exact sorted_namespacesValue hb
  · split at h
    · split at h
      · cases h
      · simp only [except_bind_eq_ok] at h
        obtain ⟨_, -, ⟨n, _⟩, -, h⟩ := h
        cases h
        exact hd
    · simp only [except_bind_eq_ok] at h
      obtain ⟨_, -, _, -, h⟩ := h
      cases h
      exact hd

theorem sorted_listed {d : Draft} {s rest : List Char} (h : listed s = .ok (d, rest)) : d.Sorted := by
  unfold listed at h
  simp only [except_bind_eq_ok] at h
  obtain ⟨⟨more, s'⟩, -, h⟩ := h
  split at h
  · cases h
    rintro _ ⟨⟩
  · simp only [except_bind_eq_ok] at h
    obtain ⟨⟨b, s'⟩, hb, ⟨more, s''⟩, -, h⟩ := h
    have hsorted : Draft.Sorted ⟨some b, none⟩ := by
      rintro _ ⟨⟩
      exact sorted_namespacesValue hb
    split at h
    · cases h
      exact hsorted
    · simp only [except_bind_eq_ok] at h
      obtain ⟨_, -, _, -, h⟩ := h
      cases h
      exact hsorted

theorem sorted_draft {d : Draft} {s rest : List Char} (h : draft s = .ok (d, rest)) : d.Sorted := by
  unfold draft at h
  split at h
  · exact foldMembers_keeps (P := Draft.Sorted) (fun _ _ _ _ _ => sorted_member) (by rintro _ ⟨⟩) h
  · exact sorted_listed h
  · cases h

theorem sorted_read {text : String} (h : Config.read text = .ok c) : Bindings.Sorted c.namespaces.entries := by
  unfold Config.read at h
  simp only [except_bind_eq_ok] at h
  obtain ⟨⟨d, rest⟩, hd, h⟩ := h
  obtain ⟨-, h⟩ := throw_or_eq_ok.mp h
  cases h
  have hsorted := sorted_draft hd
  show Bindings.Sorted (d.namespaces.getD .empty).entries
  cases hnamespaces : d.namespaces with
  | none => exact .nil
  | some b => exact hsorted b hnamespaces

end Config
end XmlMapping
