import XmlMapping.Mapping.Definitions
import XmlMapping.Proofs.XPath.NodeSets
import XmlMapping.Proofs.XPath.Unbound

/-! # Bad paths

A path can be bad in three ways: its text is no expression, a prefix in it has no binding, or its expression
has values of another type than node-sets. Each comes to light at another time, and all end the same way:
following the path fails from every node of every document, with an error that shows its text. So an array
over a bad path is never empty and a binding to one is never null. An object fails as its first failing
binding does. -/

namespace XmlMapping
variable {d : Document} {b : Bindings} {path : String} {n : Node}

/-! ### Following a path -/

theorem XPath.Expr.evaluate_of_select {e : XPath.Expr} {ns : List Node} (h : e.select d b n = .ok ns) :
    e.checkPrefixes b = .ok () ∧ e.evaluate d b ⟨n, 1, 1⟩ = .ok (.nodes ns) := by
  rw [Expr.select_eq, except_bind_eq_ok] at h
  obtain ⟨v, hv, hns⟩ := h
  obtain rfl := Value.toNodes_eq_ok.mp hns
  obtain ⟨_, hcheck, hv⟩ := except_bind_eq_ok.mp hv
  exact ⟨hcheck, hv⟩

theorem XPath.Expr.select_eq_ok {e : XPath.Expr} {ns : List Node} (h : e.select d b n = .ok ns) :
    (∀ p ∈ e.prefixes, b.uri? p ≠ none) ∧ e.type? = some .nodeSet := by
  obtain ⟨hcheck, hv⟩ := e.evaluate_of_select h
  exact ⟨Expr.checkPrefixes_eq_ok.mp hcheck, Expr.type?_of_evaluate hv⟩

theorem selectAt_eq_ok {ns : List Node} :
    selectAt d b path n = .ok ns ↔ ∃ e, XPath.compile path = .ok e ∧ e.select d b n = .ok ns := by
  rw [selectAt, ← except_bind_eq_ok]
  cases XPath.compile path >>= fun e => e.select d b n <;> simp [Except.mapError]

theorem selectAt_cases (d : Document) (b : Bindings) (path : String) (n : Node) :
    (∃ ns, selectAt d b path n = .ok ns) ∨ ∃ cause, selectAt d b path n = .error (.path path cause) := by
  rw [selectAt]
  cases XPath.compile path >>= fun e => e.select d b n with
  | ok ns => exact Or.inl ⟨ns, rfl⟩
  | error cause => exact Or.inr ⟨cause, rfl⟩

/-- A path leads nowhere: its text is no expression, a prefix in it has no binding, or the values of its
    expression are no node-sets. -/
def BadPath (b : Bindings) (path : String) : Prop :=
  match XPath.compile path with
  | .error _ => True
  | .ok e => (∃ p ∈ e.prefixes, b.uri? p = none) ∨ e.type? ≠ some .nodeSet

instance (b : Bindings) (path : String) : Decidable (BadPath b path) :=
  match h : XPath.compile path with
  | .error _ => .isTrue (by rw [BadPath, h]; trivial)
  | .ok e => decidable_of_iff ((∃ p ∈ e.prefixes, b.uri? p = none) ∨ e.type? ≠ some .nodeSet) (by rw [BadPath, h])

theorem not_badPath_of_selectAt {ns : List Node} (h : selectAt d b path n = .ok ns) : ¬BadPath b path := by
  obtain ⟨e, he, hselect⟩ := selectAt_eq_ok.mp h
  obtain ⟨hbound, htype⟩ := XPath.Expr.select_eq_ok hselect
  rw [BadPath, he]
  rintro (⟨p, hp, hnone⟩ | hother)
  · exact hbound p hp hnone
  · exact hother htype

theorem BadPath.selectAt (h : BadPath b path) (d : Document) (n : Node) :
    ∃ cause, selectAt d b path n = .error (.path path cause) :=
  (selectAt_cases d b path n).resolve_left fun ⟨_, hns⟩ => not_badPath_of_selectAt hns h

/-! ### Arrays and bindings -/

/-- The path that a binding follows, if any. -/
def Binding.path? : Binding → Option String
  | .textAt _ path => some path
  | .mappedAt _ path _ => some path
  | .here _ _ => none

section
variable {resolve : Reference → Node → Run Json} {binding : Binding} {bindings : List Binding} {e : Error}

theorem Run.result_bind_error {α β : Type} {r : Run α} (h : r.result = .error e) (next : α → Run β) :
    (r.bind next).result = .error e := by
  rw [result_bind, h]
  rfl

theorem Mapping.result_array_of_error (h : selectAt d b path n = .error e) (element : Mapping) :
    ((Mapping.array path element).apply resolve d b n).result = .error e := by
  rw [Mapping.apply, Run.result_map, itemsAt, Run.result_bind_error (r := Run.ofExcept (selectAt d b path n)) h]
  rfl

theorem Binding.result_of_error (hpath : binding.path? = some path) (h : selectAt d b path n = .error e) :
    (binding.apply resolve d b n).result = .error e := by
  cases binding with
  | textAt key path' =>
    cases hpath
    exact Run.result_bind_error h _
  | mappedAt key path' element =>
    cases hpath
    exact Run.result_bind_error h _
  | here key element => cases hpath

/-- A binding fails with an error, and no binding before it fails. -/
def FirstFails (resolve : Reference → Node → Run Json) (d : Document) (b : Bindings) (n : Node)
    (bindings : List Binding) (e : Error) : Prop :=
  ∃ before binding after, bindings = before ++ binding :: after ∧
    (∀ other ∈ before, ∃ v, (other.apply resolve d b n).result = .ok v) ∧
    (binding.apply resolve d b n).result = .error e

theorem not_firstFails_nil : ¬FirstFails resolve d b n [] e := by
  rintro ⟨before, binding, after, heq, -⟩
  cases before <;> cases heq

theorem firstFails_cons : FirstFails resolve d b n (binding :: bindings) e ↔
    (binding.apply resolve d b n).result = .error e ∨
      ∃ v, (binding.apply resolve d b n).result = .ok v ∧ FirstFails resolve d b n bindings e := by
  constructor
  · rintro ⟨before, failing, after, heq, hbefore, hfails⟩
    cases before with
    | nil =>
      obtain ⟨rfl, rfl⟩ := List.cons_eq_cons.mp heq
      exact Or.inl hfails
    | cons first before =>
      obtain ⟨rfl, rfl⟩ := List.cons_eq_cons.mp heq
      obtain ⟨⟨v, hv⟩, hbefore⟩ := List.forall_mem_cons.mp hbefore
      exact Or.inr ⟨v, hv, before, failing, after, rfl, hbefore, hfails⟩
  · rintro (hfails | ⟨v, hv, before, failing, after, rfl, hbefore, hfails⟩)
    · exact ⟨[], binding, bindings, rfl, List.forall_mem_nil _, hfails⟩
    · exact ⟨binding :: before, failing, after, rfl, List.forall_mem_cons.mpr ⟨⟨v, hv⟩, hbefore⟩, hfails⟩

/-- The members of an object fail as the first failing binding does. -/
theorem result_membersOf_eq_error :
    (membersOf resolve d b bindings n).result = .error e ↔ FirstFails resolve d b n bindings e := by
  induction bindings with
  | nil => exact ⟨nofun, fun h => absurd h not_firstFails_nil⟩
  | cons binding bindings ih =>
    rw [firstFails_cons, membersOf, Run.result_bind]
    simp only [← ih, Run.result_map]
    exact except_bind_eq_error.trans (by simp only [except_map_eq_error])

theorem Mapping.result_object_eq_error :
    ((Mapping.object bindings).apply resolve d b n).result = .error e ↔ FirstFails resolve d b n bindings e := by
  rw [Mapping.apply, Run.result_map, except_map_eq_error, result_membersOf_eq_error]

/-- Bindings of which one fails have a first one that fails. -/
theorem exists_firstFails (hmem : binding ∈ bindings) (h : (binding.apply resolve d b n).result = .error e) :
    ∃ e', FirstFails resolve d b n bindings e' := by
  induction bindings with
  | nil => cases hmem
  | cons first bindings ih =>
    simp only [firstFails_cons]
    cases hfirst : (first.apply resolve d b n).result with
    | error e' => exact ⟨e', Or.inl rfl⟩
    | ok v =>
      have hmem : binding ∈ bindings := by
        rcases List.mem_cons.mp hmem with rfl | hmem
        · rw [h] at hfirst
          cases hfirst
        · exact hmem
      obtain ⟨e', he'⟩ := ih hmem
      exact ⟨e', Or.inr ⟨v, rfl, he'⟩⟩

end

/-- A bad path fails an array over it, and an object with a binding to it, from every node of every document. The
    array fails with an error that shows the path as it is written; the object fails as its first failing binding
    does, and with the same error as the array when none fails before the binding to the path. -/
theorem badPath_fails (h : BadPath b path) (resolve : Reference → Node → Run Json) (d : Document) (n : Node) :
    ∃ cause,
      (∀ element, ((Mapping.array path element).apply resolve d b n).result = .error (.path path cause)) ∧
      ∀ before binding after, binding.path? = some path →
        (∃ e, FirstFails resolve d b n (before ++ binding :: after) e ∧
          ((Mapping.object (before ++ binding :: after)).apply resolve d b n).result = .error e) ∧
        ((∀ other ∈ before, ∃ v, (other.apply resolve d b n).result = .ok v) →
          ((Mapping.object (before ++ binding :: after)).apply resolve d b n).result = .error (.path path cause)) := by
  obtain ⟨cause, hselect⟩ := h.selectAt d n
  refine ⟨cause, Mapping.result_array_of_error hselect, fun before binding after hpath => ⟨?_, fun hbefore => ?_⟩⟩
  · obtain ⟨e, he⟩ : ∃ e, FirstFails resolve d b n (before ++ binding :: after) e :=
      exists_firstFails (List.mem_append_right before List.mem_cons_self) (Binding.result_of_error hpath hselect)
    exact ⟨e, he, Mapping.result_object_eq_error.mpr he⟩
  · exact Mapping.result_object_eq_error.mpr
      ⟨before, binding, after, rfl, hbefore, Binding.result_of_error hpath hselect⟩

/-- A text that is no expression, a prefix without a binding, and an expression of numbers. The last of them fails
    an array, and an object with a binding before it that does not fail. -/
theorem badPath_fails_count :
    BadPath .empty "n[" ∧ BadPath .empty "q:n" ∧ BadPath .empty "count(n)" ∧ ∃ cause,
      ((Mapping.array "count(n)" .plainText).run [] ⟨[]⟩ .empty .root).result = .error (.path "count(n)" cause) ∧
      ((Mapping.object [.here "name" .nodeName, .textAt "n" "count(n)"]).run [] ⟨[]⟩ .empty .root).result =
        .error (.path "count(n)" cause) := by
  have hbad : BadPath .empty "count(n)" := by decide +kernel
  obtain ⟨cause, harray, hobject⟩ := badPath_fails hbad (resolve [] ⟨[]⟩ .empty) ⟨[]⟩ .root
  have hbefore : ∀ other ∈ [Binding.here "name" .nodeName],
      ∃ v, (other.apply (resolve [] ⟨[]⟩ .empty) ⟨[]⟩ .empty .root).result = .ok v :=
    List.forall_mem_singleton.mpr ⟨_, rfl⟩
  exact ⟨by decide +kernel, by decide +kernel, hbad, cause, harray .plainText,
    (hobject [.here "name" .nodeName] (.textAt "n" "count(n)") [] rfl).2 hbefore⟩

end XmlMapping
