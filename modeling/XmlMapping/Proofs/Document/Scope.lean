import XmlMapping.Proofs.Document.Navigation
import XmlMapping.Document.Naming

/-! # Scopes

A prefix stands for the namespace that the innermost element around declares for it. The declarations that
are in scope at an element are gathered on the way down to it, and looking a prefix up among them finds that
namespace. The prefix that is shown for a namespace is looked up the other way round, so it need not be the
one that was written; as long as no prefix is declared twice it stands for the namespace all the same. -/

namespace XmlMapping

/-! ### Looking up prefixes -/

/-- The namespace that declarations give for a prefix, or the default one: the first declaration counts. -/
def declaredUri? (ds : List Declaration) (key : Option String) : Option String :=
  (ds.find? (·.nsPrefix == key)).map (·.uri)

/-- The namespace for a prefix, or the default one, that is declared by the innermost element on the way down
    that declares any. -/
def boundBelow (key : Option String) (ts : List Tree) : List Nat → Option String
  | [] => none
  | i :: deeper =>
    match ts[i]? with
    | some (.element tag ts') => (boundBelow key ts' deeper).or (declaredUri? tag.declarations key)
    | _ => none

/-- The namespace that a prefix stands for at a node, or the default one. -/
def Document.boundUri? (d : Document) (key : Option String) (n : Node) : Option String :=
  boundBelow key d.trees n.path.reverse

variable {key : Option String} {own around ds : List Declaration} {e : Declaration}

theorem declaredUri?_append :
    declaredUri? (own ++ around) key = (declaredUri? own key).or (declaredUri? around key) := by
  rw [declaredUri?, declaredUri?, declaredUri?, List.find?_append]
  cases own.find? (·.nsPrefix == key) <;> rfl

theorem declaredUri?_eq_none : declaredUri? ds key = none ↔ ∀ d ∈ ds, d.nsPrefix ≠ key := by
  simp [declaredUri?]

theorem find?_filter_of_imp {α : Type} {p q : α → Bool} (h : ∀ x, q x → p x) (xs : List α) :
    (xs.filter p).find? q = xs.find? q := by
  have hand : (fun x => decide (p x ∧ q x)) = q := by
    funext x
    cases hq : q x
    · simp
    · simp [h x hq]
  rw [List.find?_filter, hand]

theorem find?_eraseDupsBy (ds : List Declaration) :
    (ds.eraseDupsBy fun d e => d.nsPrefix == e.nsPrefix).find? (·.nsPrefix == key) =
      ds.find? (·.nsPrefix == key) := by
  match ds with
  | [] => rfl
  | d :: ds =>
    rw [List.eraseDupsBy_cons, List.find?_cons, List.find?_cons]
    split
    · rfl
    · next hd =>
      rw [find?_eraseDupsBy, find?_filter_of_imp]
      intro e he
      rw [beq_iff_eq] at he
      simp [he, Ne.symm (by simpa using hd)]
termination_by ds.length
decreasing_by exact Nat.lt_succ_of_le (List.length_filter_le _ _)

/-- A prefix is looked up among the own declarations first and then among those around. -/
theorem declaredUri?_inScope :
    declaredUri? (inScope own around) key = (declaredUri? own key).or (declaredUri? around key) := by
  cases own with
  | nil => rfl
  | cons o own =>
    rw [inScope, if_neg (by simp), declaredUri?_append]
    cases hown : declaredUri? (o :: own) key with
    | some uri => rfl
    | none =>
      -- What is left out of the declarations around has the prefix of an own one.
      rw [declaredUri?_eq_none] at hown
      rw [Option.none_or, Option.none_or, declaredUri?, find?_eraseDupsBy, find?_filter_of_imp, declaredUri?]
      intro d hd
      rw [beq_iff_eq] at hd
      rw [Bool.not_eq_true', List.any_eq_false]
      exact fun o' ho' => by simpa [hd] using hown o' ho'

/-- The declarations gathered on the way down give for a prefix what the innermost element declares. -/
theorem declaredUri?_scopeBelow (ts : List Tree) (around : List Declaration) (q : List Nat) :
    declaredUri? (scopeBelow ts around q) key = (boundBelow key ts q).or (declaredUri? around key) := by
  induction q generalizing ts around with
  | nil => rfl
  | cons i q ih =>
    rw [scopeBelow, boundBelow]
    rcases ts[i]? with _ | (⟨tag, ts'⟩ | _ | _ | _)
    · rfl
    · simp only [ih, declaredUri?_inScope, Option.or_assoc]
    · rfl
    · rfl
    · rfl

theorem Document.declaredUri?_scope (d : Document) (n : Node) : declaredUri? (d.scope n) key = d.boundUri? key n := by
  rw [Document.scope, declaredUri?_scopeBelow]
  exact Option.or_none

/-! ### Declarations that keep to the rules -/

/-- Whether a declaration may be made: neither the prefix `xml` nor its namespace is declared, and a prefix
    holds no colon. -/
structure Declaration.Allowed (d : Declaration) : Prop where
  notXml : d.nsPrefix ≠ some "xml"
  notXmlNamespace : d.uri ≠ xmlNamespace
  noColon : ∀ p, d.nsPrefix = some p → ':' ∉ p.toList

/-- No prefix is declared twice. The default namespace may be declared again, and then the first declaration
    counts. -/
structure Regular (ds : List Declaration) : Prop where
  once : ds.Pairwise fun d e => d.nsPrefix = e.nsPrefix → d.nsPrefix = none
  allowed : ∀ d ∈ ds, d.Allowed

theorem regular_nil : Regular [] :=
  ⟨List.Pairwise.nil, by simp⟩

theorem Regular.append_one (h : Regular ds) {d : Declaration}
    (hnew : ∀ e ∈ ds, e.nsPrefix = d.nsPrefix → e.nsPrefix = none) (hd : d.Allowed) : Regular (ds ++ [d]) where
  once := List.pairwise_append.mpr ⟨h.once, List.pairwise_singleton _ _, fun e he d' hd' => by
    obtain rfl := List.mem_singleton.mp hd'
    exact hnew e he⟩
  allowed := List.forall_mem_append.mpr ⟨h.allowed, List.forall_mem_singleton.mpr hd⟩

theorem eraseDupsBy_sublist (ds : List Declaration) :
    (ds.eraseDupsBy fun d e => d.nsPrefix == e.nsPrefix).Sublist ds := by
  match ds with
  | [] => exact List.Sublist.refl _
  | d :: ds =>
    rw [List.eraseDupsBy_cons]
    exact ((eraseDupsBy_sublist _).trans List.filter_sublist).cons_cons d
termination_by ds.length
decreasing_by exact Nat.lt_succ_of_le (List.length_filter_le _ _)

theorem Regular.sublist (h : Regular ds) (hs : own.Sublist ds) : Regular own :=
  ⟨h.once.sublist hs, fun d hd => h.allowed d (hs.subset hd)⟩

theorem Regular.inScope (hown : Regular own) (haround : Regular around) : Regular (inScope own around) := by
  unfold XmlMapping.inScope
  split
  · exact haround
  · have hsub := (eraseDupsBy_sublist
      (around.filter fun d => !own.any (·.nsPrefix == d.nsPrefix)))
    have hrest := haround.sublist (hsub.trans List.filter_sublist)
    refine ⟨List.pairwise_append.mpr ⟨hown.once, hrest.once, fun o ho d hd hsame => ?_⟩,
      List.forall_mem_append.mpr ⟨hown.allowed, hrest.allowed⟩⟩
    have hkept := (List.mem_filter.mp (hsub.subset hd)).2
    rw [Bool.not_eq_true', List.any_eq_false] at hkept
    exact absurd (beq_iff_eq.mpr hsame) (hkept o ho)

/-- A prefix stands for the namespace of each declaration that gives it one. -/
theorem Regular.declaredUri?_eq (h : Regular ds) {p : String} (he : e ∈ ds) (hp : e.nsPrefix = some p) :
    declaredUri? ds (some p) = some e.uri := by
  induction ds with
  | nil => cases he
  | cons d ds ih =>
    obtain ⟨honce, honce'⟩ := List.pairwise_cons.mp h.once
    rw [declaredUri?, List.find?_cons]
    rcases List.mem_cons.mp he with rfl | he
    · simp [hp]
    · have hne : d.nsPrefix ≠ some p := fun hd => by
        have hnone := honce e he (hd.trans hp.symm)
        rw [hd] at hnone
        cases hnone
      rw [beq_eq_false_iff_ne.mpr hne]
      exact ih ⟨honce', fun d' hd' => h.allowed d' (List.mem_cons_of_mem d hd')⟩ he

/-! ### Names that come from declarations -/

/-- Whether the names in a tag can come from its declarations and those around it: each namespace is
    declared, but that of `xml` for an attribute, and an element in none has no default namespace. The local
    parts hold no colon. -/
structure Tag.Fits (around : List Declaration) (tag : Tag) : Prop where
  regular : Regular tag.declarations
  unnamed : tag.name.namespaceUri = none → declaredUri? (inScope tag.declarations around) none = none
  named : ∀ u, tag.name.namespaceUri = some u → ∃ e ∈ inScope tag.declarations around, e.uri = u
  noColon : ':' ∉ tag.name.localPart.toList
  attributes : ∀ a ∈ tag.attributes, ':' ∉ a.name.localPart.toList ∧
    ∀ u, a.name.namespaceUri = some u → u = xmlNamespace ∨ ∃ e ∈ inScope tag.declarations around, e.uri = u

mutual

/-- Whether all names in a tree can come from declarations. -/
def Tree.Fits (around : List Declaration) : Tree → Prop
  | .element tag ts => tag.Fits around ∧ AllFit (inScope tag.declarations around) ts
  | .text _ => True
  | .comment _ => True
  | .instruction .. => True

/-- Whether all names in trees can come from declarations. -/
def AllFit (around : List Declaration) : List Tree → Prop
  | [] => True
  | t :: ts => t.Fits around ∧ AllFit around ts

end

theorem allFit_iff {ts : List Tree} : AllFit around ts ↔ ∀ t ∈ ts, t.Fits around := by
  induction ts with
  | nil => simp [AllFit]
  | cons t ts ih => rw [AllFit, ih, List.forall_mem_cons]

theorem AllFit.exists_scope {ts : List Tree} {q : List Nat} {tag : Tag} {ts' : List Tree} (hts : AllFit around ts)
    (haround : Regular around) (h : treeAt? ts q.reverse = some (.element tag ts')) :
    ∃ around', scopeBelow ts around q = inScope tag.declarations around' ∧ Regular around' ∧ tag.Fits around' := by
  induction q generalizing ts around with
  | nil => cases h
  | cons i q ih =>
    rw [List.reverse_cons] at h
    rcases eq_or_ne q [] with rfl | hq
    · have hi : ts[i]? = some (.element tag ts') := h
      refine ⟨around, ?_, haround, (allFit_iff.mp hts _ (List.mem_of_getElem? hi)).1⟩
      simp only [scopeBelow, hi]
    · rw [treeAt?_snoc ts (List.reverse_ne_nil_iff.mpr hq), Option.bind_eq_some_iff] at h
      obtain ⟨t, hi, h⟩ := h
      rcases t with ⟨tag', ts''⟩ | _ | _ | _
      · obtain ⟨htag, hts'⟩ := allFit_iff.mp hts _ (List.mem_of_getElem? hi)
        rw [scopeBelow, hi]
        exact ih hts' (htag.regular.inScope haround) h
      all_goals
        rw [Tree.children, treeAt?_nil] at h
        cases h

end XmlMapping
