import XmlMapping.Proofs.XPath.NodeSets

/-! # Composition of paths

Steps are followed from all nodes at once, and what each of them finds is put together before the next.
Following them from one node after the other and putting all together at the end fails for the same
starting nodes and leads to the same nodes. So a location path is the composition of its parts: the rest
of a path sees of what was found before one node at a time. -/

namespace XmlMapping.XPath

variable {d : Document} {b : Bindings}

theorem follow_append (ss ts : List Step) (ns : List Node) :
    follow d b (ss ++ ts) ns = follow d b ss ns >>= follow d b ts := by
  induction ss generalizing ns with
  | nil => rfl
  | cons s ss ih =>
    rw [List.cons_append, follow, follow]
    cases gather (s.reach d b) [] ns with
    | error e => rfl
    | ok found => exact ih found

theorem gather_singleton (find : Node → Except Error (List Node)) (n : Node) :
    gather find [] [n] = find n := by
  rw [gather]
  cases find n with
  | error e => rfl
  | ok found =>
    show Except.ok (addFound [] found).reverse = Except.ok found
    simp [addFound]

theorem follow_singleton (s : Step) (ss : List Step) (n : Node) :
    follow d b (s :: ss) [n] = s.reach d b n >>= follow d b ss := by
  rw [follow, gather_singleton]

/-! ### One node at a time -/

/-- Steps can be followed from nodes together when they can from each. -/
theorem follow_ok_iff {ss : List Step} {ns : List Node} :
    (∃ out, follow d b ss ns = .ok out) ↔ ∀ n ∈ ns, ∃ found, follow d b ss [n] = .ok found := by
  induction ss generalizing ns with
  | nil => exact ⟨fun _ n _ => ⟨[n], rfl⟩, fun _ => ⟨ns, rfl⟩⟩
  | cons s ss ih =>
    simp only [follow_singleton, except_bind_eq_ok]
    rw [follow]
    constructor
    · rintro ⟨out, h⟩ n hn
      obtain ⟨mid, hmid, h⟩ := except_bind_eq_ok.mp h
      obtain ⟨reached, hreached⟩ := gather_each hmid n hn
      have hall : ∀ m ∈ reached, ∃ found, follow d b ss [m] = .ok found := fun m hm =>
        ih.mp ⟨out, h⟩ m ((mem_gather hmid).mpr (Or.inr ⟨n, hn, reached, hreached, hm⟩))
      obtain ⟨found, hfound⟩ := ih.mpr hall
      exact ⟨found, reached, hreached, hfound⟩
    · intro h
      obtain ⟨mid, hmid⟩ := gather_ok [] fun n hn => by
        obtain ⟨_, reached, hreached, -⟩ := h n hn
        exact ⟨reached, hreached⟩
      have hall : ∀ m ∈ mid, ∃ found, follow d b ss [m] = .ok found := fun m hm => by
        rcases (mem_gather hmid).mp hm with hm | ⟨n, hn, reached, hreached, hm⟩
        · cases hm
        · obtain ⟨found, reached', hreached', hfound⟩ := h n hn
          rw [hreached] at hreached'
          obtain rfl := Except.ok.inj hreached'
          exact ih.mp ⟨found, hfound⟩ m hm
      obtain ⟨out, hout⟩ := ih.mpr hall
      exact ⟨out, except_bind_eq_ok.mpr ⟨mid, hmid, hout⟩⟩

/-- Steps lead from nodes together where they lead from one of them. -/
theorem mem_follow {ss : List Step} {ns out : List Node} (h : follow d b ss ns = .ok out) {x : Node} :
    x ∈ out ↔ ∃ n ∈ ns, ∃ found, follow d b ss [n] = .ok found ∧ x ∈ found := by
  induction ss generalizing ns out with
  | nil =>
    obtain rfl := Except.ok.inj h
    constructor
    · exact fun hx => ⟨x, hx, [x], rfl, List.mem_singleton_self x⟩
    · rintro ⟨n, hn, found, hfound, hx⟩
      obtain rfl := Except.ok.inj hfound
      exact List.mem_singleton.mp hx ▸ hn
  | cons s ss ih =>
    simp only [follow_singleton, except_bind_eq_ok]
    rw [follow] at h
    obtain ⟨mid, hmid, h⟩ := except_bind_eq_ok.mp h
    rw [ih h]
    constructor
    · rintro ⟨m, hm, found, hfound, hx⟩
      rcases (mem_gather hmid).mp hm with hm | ⟨n, hn, reached, hreached, hm⟩
      · cases hm
      · -- The rest can be followed from all that `n` reaches, for each of it is in `mid`.
        have hall : ∀ m ∈ reached, ∃ found, follow d b ss [m] = .ok found := fun m hm =>
          follow_ok_iff.mp ⟨out, h⟩ m ((mem_gather hmid).mpr (Or.inr ⟨n, hn, reached, hreached, hm⟩))
        obtain ⟨all, hall⟩ := follow_ok_iff.mpr hall
        exact ⟨n, hn, all, ⟨reached, hreached, hall⟩, (ih hall).mpr ⟨m, hm, found, hfound, hx⟩⟩
    · rintro ⟨n, hn, all, ⟨reached, hreached, hall⟩, hx⟩
      obtain ⟨m, hm, found, hfound, hx⟩ := (ih hall).mp hx
      exact ⟨m, (mem_gather hmid).mpr (Or.inr ⟨n, hn, reached, hreached, hm⟩), found, hfound, hx⟩

/-! ### Location paths -/

theorem Expr.evaluate_path_eq_ok {o : Origin} {ss : List Step} {c : Context} {v : Value} :
    (Expr.path o ss).evaluate d b c = .ok v ↔
      ∃ start, o.evaluate d b c = .ok start ∧ ∃ ns, follow d b ss start = .ok ns ∧ v = .nodes ns := by
  simp only [Expr.evaluate, except_bind_eq_ok]
  constructor
  · rintro ⟨start, hstart, ns, hns, h⟩
    exact ⟨start, hstart, ns, hns, (Except.ok.inj h).symm⟩
  · rintro ⟨start, hstart, ns, hns, rfl⟩
    exact ⟨start, hstart, ns, hns, rfl⟩

theorem Expr.evaluate_relative_eq_ok {ss : List Step} {c : Context} {v : Value} :
    (Expr.path .context ss).evaluate d b c = .ok v ↔
      ∃ ns, follow d b ss [c.node] = .ok ns ∧ v = .nodes ns := by
  rw [Expr.evaluate_path_eq_ok]
  constructor
  · rintro ⟨start, hstart, h⟩
    obtain rfl := Except.ok.inj hstart
    exact h
  · exact fun h => ⟨[c.node], rfl, h⟩

/-- A search gives a node-set from each node of a list, and the nodes of another list are all that it
    finds, in document order and each once. -/
structure Collects (find : Node → Except Error Value) (ms ns : List Node) : Prop where
  each : ∀ m ∈ ms, ∃ found, find m = .ok (.nodes found)
  ordered : Ordered ns
  mem : ∀ n, n ∈ ns ↔ ∃ m ∈ ms, ∃ found, find m = .ok (.nodes found) ∧ n ∈ found

theorem follow_eq_ok_iff {ts : List Step} {ms ns : List Node} (hms : Ordered ms) (i k : Nat) :
    follow d b ts ms = .ok ns ↔ Collects (fun m => (Expr.path .context ts).evaluate d b ⟨m, i, k⟩) ms ns := by
  have hfind : ∀ (m : Node) (found : List Node),
      (Expr.path .context ts).evaluate d b ⟨m, i, k⟩ = .ok (.nodes found) ↔
        follow d b ts [m] = .ok found := fun m found => by
    rw [Expr.evaluate_relative_eq_ok]
    simp
  constructor
  · intro h
    refine ⟨fun m hm => ?_, ordered_follow hms h, fun n => ?_⟩
    · obtain ⟨found, hfound⟩ := follow_ok_iff.mp ⟨ns, h⟩ m hm
      exact ⟨found, (hfind m found).mpr hfound⟩
    · simp only [hfind]
      exact mem_follow h
  · rintro ⟨each, ordered, mem⟩
    simp only [hfind] at each mem
    obtain ⟨out, hout⟩ := follow_ok_iff.mpr each
    have hmem : ∀ n, n ∈ out ↔ n ∈ ns := fun n => (mem_follow hout).trans (mem n).symm
    rw [hout, (ordered_follow hms hout).eq_of_mem_iff ordered hmem]

theorem Expr.evaluate_append_eq_ok {o : Origin} {ss ts : List Step} {c : Context} {v : Value} :
    (Expr.path o (ss ++ ts)).evaluate d b c = .ok v ↔
      ∃ ms, (Expr.path o ss).evaluate d b c = .ok (.nodes ms) ∧
        ∃ ns, follow d b ts ms = .ok ns ∧ v = .nodes ns := by
  simp only [Expr.evaluate_path_eq_ok, follow_append, except_bind_eq_ok]
  constructor
  · rintro ⟨start, hstart, ns, ⟨ms, hms, hns⟩, rfl⟩
    exact ⟨ms, ⟨start, hstart, ms, hms, rfl⟩, ns, hns, rfl⟩
  · rintro ⟨ms, ⟨start, hstart, reached, hms, h⟩, ns, hns, rfl⟩
    obtain rfl := Value.nodes.inj h
    exact ⟨start, hstart, ns, ⟨ms, hms, hns⟩, rfl⟩

/-- The last steps fail from several nodes when the relative path fails at one of them. -/
theorem fails_follow_iff {ts : List Step} {ms : List Node} (i k : Nat) :
    Fails (follow d b ts ms) ↔ ∃ m ∈ ms, Fails ((Expr.path .context ts).evaluate d b ⟨m, i, k⟩) := by
  have hrelative : ∀ m, Fails ((Expr.path .context ts).evaluate d b ⟨m, i, k⟩) ↔
      ¬∃ found, follow d b ts [m] = .ok found := fun m => by
    simp only [fails_iff, Expr.evaluate_relative_eq_ok]
    constructor
    · rintro h ⟨found, hfound⟩
      exact h ⟨_, found, hfound, rfl⟩
    · rintro h ⟨_, found, hfound, -⟩
      exact h ⟨found, hfound⟩
  rw [fails_iff, follow_ok_iff]
  constructor
  · intro h
    by_contra hnone
    refine h fun m hm => ?_
    by_contra hfound
    exact hnone ⟨m, hm, (hrelative m).mpr hfound⟩
  · rintro ⟨m, hm, hfails⟩ h
    exact (hrelative m).mp hfails (h m hm)

/-- A location path is the composition of its parts. It fails when its first steps fail or its last steps
    fail from one of the nodes that the first ones lead to; otherwise its nodes are all those that the last
    steps lead to from one of these nodes, wherever it stands among them. -/
theorem evaluate_path_append (d : Document) (b : Bindings) (o : Origin) (ss ts : List Step) (c : Context)
    (i k : Nat) :
    (Fails ((Expr.path o (ss ++ ts)).evaluate d b c) ↔
      Fails ((Expr.path o ss).evaluate d b c) ∨
        ∃ ms, (Expr.path o ss).evaluate d b c = .ok (.nodes ms) ∧
          ∃ m ∈ ms, Fails ((Expr.path .context ts).evaluate d b ⟨m, i, k⟩)) ∧
      ∀ ns, (Expr.path o (ss ++ ts)).evaluate d b c = .ok (.nodes ns) ↔
        ∃ ms, (Expr.path o ss).evaluate d b c = .ok (.nodes ms) ∧
          Collects (fun m => (Expr.path .context ts).evaluate d b ⟨m, i, k⟩) ms ns := by
  simp only [← fails_follow_iff]
  refine ⟨⟨fun h => ?_, fun h => ?_⟩, fun ns => ?_⟩
  · rw [fails_iff] at h
    by_cases hfirst : ∃ v, (Expr.path o ss).evaluate d b c = .ok v
    · obtain ⟨v, hv⟩ := hfirst
      obtain ⟨-, -, ms, -, rfl⟩ := Expr.evaluate_path_eq_ok.mp hv
      refine Or.inr ⟨ms, hv, fails_iff.mpr ?_⟩
      rintro ⟨ns, hns⟩
      exact h ⟨_, Expr.evaluate_append_eq_ok.mpr ⟨ms, hv, ns, hns, rfl⟩⟩
    · exact Or.inl (fails_iff.mpr hfirst)
  · refine fails_iff.mpr ?_
    rintro ⟨v, hv⟩
    obtain ⟨ms, hms, ns, hns, -⟩ := Expr.evaluate_append_eq_ok.mp hv
    rcases h with h | ⟨ms', hms', hf⟩
    · exact fails_iff.mp h ⟨_, hms⟩
    · rw [hms] at hms'
      obtain rfl := Value.nodes.inj (Except.ok.inj hms')
      exact fails_iff.mp hf ⟨ns, hns⟩
  · rw [Expr.evaluate_append_eq_ok]
    constructor
    · rintro ⟨ms, hms, _, hns, h⟩
      cases h
      exact ⟨ms, hms, (follow_eq_ok_iff (Expr.ordered_evaluate hms) i k).mp hns⟩
    · rintro ⟨ms, hms, hns⟩
      exact ⟨ms, hms, ns, (follow_eq_ok_iff (Expr.ordered_evaluate hms) i k).mpr hns, rfl⟩

/-! ### Paths of one step -/

section
variable {axis : Axis} {test : NodeTest} {n : Node}

/-- Nodes along an axis in document order: those of a backward axis are turned round. -/
def Axis.arranged (axis : Axis) (ns : List Node) : List Node :=
  if axis.isReverse then ns.reverse else ns

theorem Axis.mem_arranged {ns : List Node} : n ∈ axis.arranged ns ↔ n ∈ ns := by
  unfold arranged
  split
  · exact List.mem_reverse
  · exact Iff.rfl

theorem Axis.arranged_arranged (axis : Axis) (ns : List Node) : axis.arranged (axis.arranged ns) = ns := by
  unfold arranged
  split
  · exact List.reverse_reverse ns
  · rfl

theorem Axis.length_arranged (axis : Axis) (ns : List Node) : (axis.arranged ns).length = ns.length := by
  unfold arranged
  split
  · exact List.length_reverse
  · rfl

theorem Axis.filter_arranged (axis : Axis) (keep : Node → Bool) (ns : List Node) :
    (axis.arranged ns).filter keep = axis.arranged (ns.filter keep) := by
  unfold arranged
  split
  · exact List.filter_reverse
  · rfl

theorem Expr.checkPrefixes_step :
    (Expr.path .context [⟨axis, test, []⟩]).checkPrefixes b = (test.namespaceUri? b).map fun _ => () := by
  simp only [checkPrefixes, Expr.prefixes, Origin.prefixes, prefixesOfSteps, Step.prefixes, prefixesOfAll,
    List.nil_append, List.append_nil, NodeTest.namespaceUri?]
  cases test.nsPrefix? with
  | none => rfl
  | some p => cases hp : b.uri? p <;> simp [resolve, hp, Except.map]

theorem Expr.evaluate_step (c : Context) : (Expr.path .context [⟨axis, test, []⟩]).evaluate d b c =
    (test.filter d b axis (axis.nodes d c.node)).map fun ns => .nodes (axis.arranged ns) := by
  show (follow d b [⟨axis, test, []⟩] [c.node] >>= fun found => pure (Value.nodes found)) = _
  rw [follow_singleton, Step.reach]
  cases test.filter d b axis (axis.nodes d c.node) <;> rfl

/-- A path of one step without predicates selects what passes its node test along its axis. -/
theorem Expr.select_step : (Expr.path .context [⟨axis, test, []⟩]).select d b n =
    (test.filter d b axis (axis.nodes d n)).map axis.arranged := by
  rw [Expr.select_eq, Expr.valueAt, Expr.checkPrefixes_step, Expr.evaluate_step, NodeTest.filter]
  cases test.namespaceUri? b <;> rfl

end

end XmlMapping.XPath
