import XmlMapping.Proofs.XPath.Steps

/-! # Static types

An expression has a type that its outermost part gives alone: every value it can have is of that type.
An expression is well typed when node-sets stand where node-sets are needed and the functions it calls
exist and take as many arguments as they get. A well-typed expression with its prefixes bound has a
value for every document and context: evaluation fails only for one of these reasons. -/

namespace XmlMapping.XPath

/-! ### Functions -/

/-- Whether the arguments of a function must be node-sets. -/
def Function.takesNodes : Function → Bool
  | .count => true
  | .sum => true
  | .localName => true
  | .name => true
  | .namespaceUri => true
  | _ => false

namespace Function
variable {d : Document} {c : Context} {f : Function}

theorem applyTo_type {args : List Value} {v : Value} (h : f.applyTo d c args = .ok v) : v.type = f.result := by
  unfold applyTo at h
  split at h
  all_goals
    first
    | (cases h <;> rfl)
    | (obtain ⟨_, -, rfl⟩ := except_map_eq_ok.mp h; rfl)

theorem apply_type {args : List Value} {v : Value} (h : f.apply d c args = .ok v) : v.type = f.result := by
  unfold apply at h
  split at h
  · exact applyTo_type h
  · cases h

theorem call_type {name : String} {args : List Value} {v : Value} (h : call d c name args = .ok v) :
    (ofName? name).map result = some v.type := by
  unfold call at h
  split at h
  · rename_i f hf
    rw [hf, apply_type h]
    rfl
  · cases h

theorem nodesOf_ok {v : Value} (h : v.type = .nodeSet) : ∃ ns, f.nodesOf v = .ok ns := by
  cases v with
  | nodes ns => exact ⟨ns, rfl⟩
  | _ => cases h

theorem subject?_ok {args : List Value} (h : ∀ v ∈ args, v.type = .nodeSet) : ∃ n, f.subject? c args = .ok n := by
  cases args with
  | nil => exact ⟨_, rfl⟩
  | cons v vs =>
    obtain ⟨ns, hns⟩ := nodesOf_ok (f := f) (h v (List.mem_cons_self ..))
    exact ⟨firstInOrder? ns, by rw [subject?, hns]; rfl⟩

/-- A function has a result on so many arguments as it takes, when those that must be are node-sets. -/
theorem apply_ok {args : List Value} (hn : f.arity.admits args.length)
    (ht : f.takesNodes → ∀ v ∈ args, v.type = .nodeSet) : ∃ v, f.apply d c args = .ok v := by
  rw [apply, if_pos hn]
  cases f
  case last | position | string | concat | stringLength | normalizeSpace | alwaysTrue | alwaysFalse =>
    exact ⟨_, rfl⟩
  case localName | name | namespaceUri =>
    obtain ⟨n, hs⟩ := subject?_ok (c := c) (ht rfl)
    exact ⟨_, by rw [applyTo, hs]; rfl⟩
  case count | sum =>
    match args, hn with
    | v :: _, _ =>
      obtain ⟨ns, hv⟩ := nodesOf_ok (ht rfl v (List.mem_cons_self ..))
      exact ⟨_, by rw [applyTo, hv]; rfl⟩
  case number => cases args <;> exact ⟨_, rfl⟩
  case boolean | negation | floor | ceiling | round =>
    match args, hn with
    | _ :: _, _ => exact ⟨_, rfl⟩
  case startsWith | contains | substringBefore | substringAfter | substring =>
    match args, hn with
    | _ :: _ :: _, _ => exact ⟨_, rfl⟩
  case translate =>
    match args, hn with
    | _ :: _ :: _ :: _, _ => exact ⟨_, rfl⟩

end Function

/-! ### Operators -/

/-- The type of the values that an operator gives. -/
def Operator.type : Operator → ValueType
  | .or => .boolean
  | .and => .boolean
  | .comparison _ => .boolean
  | .arithmetic _ => .number
  | .union => .nodeSet

theorem Value.type_eq_nodeSet {v : Value} (h : v.type = .nodeSet) : ∃ ns, v = .nodes ns := by
  cases v with
  | nodes ns => exact ⟨ns, rfl⟩
  | _ => cases h

theorem Value.toNodes_eq_ok {v : Value} {ns : List Node} : v.toNodes = .ok ns ↔ v = .nodes ns := by
  cases v <;> simp [toNodes]

theorem Value.union_eq_ok {l r v : Value} (h : l.union r = .ok v) :
    ∃ ms ns, l = .nodes ms ∧ r = .nodes ns ∧
      v = .nodes (mergeInOrder (inDocumentOrder ms) (inDocumentOrder ns)) := by
  unfold union at h
  split at h
  · rename_i ms ns
    exact ⟨ms, ns, rfl, rfl, (Except.ok.inj h).symm⟩
  · cases h

theorem Operator.apply_type {d : Document} {op : Operator} {l r v : Value} (h : op.apply d l r = .ok v) :
    v.type = op.type := by
  cases op with
  | union =>
    obtain ⟨_, _, -, -, rfl⟩ := Value.union_eq_ok h
    rfl
  | _ =>
    obtain rfl := Except.ok.inj h
    rfl

/-- An operator has a result when a union is one of node-sets. -/
theorem Operator.apply_ok {d : Document} {op : Operator} {l r : Value}
    (h : op = .union → l.type = .nodeSet ∧ r.type = .nodeSet) : ∃ v, op.apply d l r = .ok v := by
  cases op with
  | union =>
    obtain ⟨ms, rfl⟩ := Value.type_eq_nodeSet (h rfl).1
    obtain ⟨ns, rfl⟩ := Value.type_eq_nodeSet (h rfl).2
    exact ⟨_, rfl⟩
  | _ => exact ⟨_, rfl⟩

/-! ### Expressions -/

/-- The type of the values that an expression can have; none for a call of an unknown function. -/
def Expr.type? : Expr → Option ValueType
  | .literal _ => some .string
  | .number _ => some .number
  | .path .. => some .nodeSet
  | .filter .. => some .nodeSet
  | .call function _ => (Function.ofName? function.text).map Function.result
  | .binary op _ _ => some op.type
  | .negate _ => some .number

/-- A value has the type that its expression gives. -/
theorem Expr.type?_of_evaluate {d : Document} {b : Bindings} {e : Expr} {c : Context} {v : Value}
    (h : e.evaluate d b c = .ok v) : e.type? = some v.type := by
  cases e with
  | literal s =>
    obtain rfl := Except.ok.inj h
    rfl
  | number n =>
    obtain rfl := Except.ok.inj h
    rfl
  | path origin steps =>
    simp only [Expr.evaluate, except_bind_eq_ok] at h
    obtain ⟨_, -, _, -, h⟩ := h
    obtain rfl := Except.ok.inj h
    rfl
  | filter base predicates =>
    simp only [Expr.evaluate, except_bind_eq_ok] at h
    obtain ⟨_, -, _, -, _, -, h⟩ := h
    obtain rfl := Except.ok.inj h
    rfl
  | call function args =>
    simp only [Expr.evaluate, except_bind_eq_ok] at h
    obtain ⟨_, -, h⟩ := h
    exact Function.call_type h
  | binary op left right =>
    simp only [Expr.evaluate, except_bind_eq_ok] at h
    obtain ⟨_, -, _, -, h⟩ := h
    rw [Expr.type?, Operator.apply_type h]
  | negate operand =>
    simp only [Expr.evaluate, except_bind_eq_ok] at h
    obtain ⟨_, -, h⟩ := h
    obtain rfl := Except.ok.inj h
    rfl

mutual

/-- Whether an expression has node-sets where they are needed, and calls functions that exist with as
    many arguments as they take. -/
def Expr.wellTyped : Expr → Bool
  | .literal _ => true
  | .number _ => true
  | .path origin steps => origin.wellTyped && stepsWellTyped steps
  | .filter base predicates => base.type? == some .nodeSet && base.wellTyped && allWellTyped predicates
  | .call function args =>
    (Function.ofName? function.text).any (fun f =>
      f.arity.admits args.length && (!f.takesNodes || args.all (·.type? == some .nodeSet))) &&
    allWellTyped args
  | .binary op left right =>
    (op != .union || left.type? == some .nodeSet && right.type? == some .nodeSet) &&
    left.wellTyped && right.wellTyped
  | .negate operand => operand.wellTyped

/-- Whether the start of a location path is well typed: an expression there gives a node-set. -/
def Origin.wellTyped : Origin → Bool
  | .context => true
  | .root => true
  | .nodes start => start.type? == some .nodeSet && start.wellTyped

/-- Whether expressions are well typed. -/
def allWellTyped : List Expr → Bool
  | [] => true
  | e :: es => e.wellTyped && allWellTyped es

/-- Whether the predicates of steps are well typed. -/
def stepsWellTyped : List Step → Bool
  | [] => true
  | s :: ss => s.wellTyped && stepsWellTyped ss

/-- Whether the predicates of a step are well typed. -/
def Step.wellTyped : Step → Bool
  | ⟨_, _, predicates⟩ => allWellTyped predicates

end

/-! ### Progress -/

section Progress
variable {d : Document} {b : Bindings}

theorem Expr.type_of_evaluate {e : Expr} {c : Context} {v : Value} {t : ValueType}
    (ht : (e.type? == some t) = true) (h : e.evaluate d b c = .ok v) : v.type = t := by
  rw [Expr.type?_of_evaluate h] at ht
  exact Option.some.inj (beq_iff_eq.mp ht)

theorem Expr.evaluate_nodes {e : Expr} {c : Context} (ht : (e.type? == some .nodeSet) = true)
    (h : ∃ v, e.evaluate d b c = .ok v) : ∃ ns, e.evaluate d b c = .ok (.nodes ns) := by
  obtain ⟨v, hv⟩ := h
  obtain ⟨ns, rfl⟩ := Value.type_eq_nodeSet (Expr.type_of_evaluate ht hv)
  exact ⟨ns, hv⟩

theorem evaluateAll_types {es : List Expr} {c : Context} {vs : List Value}
    (h : evaluateAll d b es c = .ok vs) : vs.length = es.length ∧
      ∀ t, (∀ e ∈ es, (e.type? == some t) = true) → ∀ v ∈ vs, v.type = t := by
  induction es generalizing vs with
  | nil =>
    obtain rfl := Except.ok.inj h
    simp
  | cons e es ih =>
    simp only [evaluateAll, except_bind_eq_ok] at h
    obtain ⟨v, hv, vs', hvs, h⟩ := h
    obtain rfl := Except.ok.inj h
    obtain ⟨hlen, htypes⟩ := ih hvs
    refine ⟨by rw [List.length_cons, List.length_cons, hlen], fun t ht w hw => ?_⟩
    rcases List.mem_cons.mp hw with rfl | hw
    · exact Expr.type_of_evaluate (ht e (List.mem_cons_self ..)) hv
    · exact htypes t (fun e he => ht e (List.mem_cons_of_mem _ he)) w hw

/-- Every prefix of a list is bound. -/
def Bound (b : Bindings) (ps : List String) : Prop :=
  ∀ p ∈ ps, (b.uri? p).isSome

theorem Bound.append {ps qs : List String} : Bound b (ps ++ qs) ↔ Bound b ps ∧ Bound b qs :=
  List.forall_mem_append

mutual

theorem Expr.evaluate_ok : ∀ (e : Expr) (c : Context), e.wellTyped → Bound b e.prefixes →
    ∃ v, e.evaluate d b c = .ok v
  | .literal _, _, _, _ => ⟨_, rfl⟩
  | .number _, _, _, _ => ⟨_, rfl⟩
  | .path origin steps, c, hw, hb => by
    obtain ⟨hw, hws⟩ := Bool.and_eq_true_iff.mp hw
    obtain ⟨hb, hbs⟩ := Bound.append.mp hb
    obtain ⟨start, hstart⟩ := origin.evaluate_ok c hw hb
    obtain ⟨found, hfound⟩ := follow_ok steps start hws hbs
    exact ⟨_, by rw [Expr.evaluate, hstart]; simp only [bind, Except.bind, hfound]; rfl⟩
  | .filter base predicates, c, hw, hb => by
    obtain ⟨hw, hwp⟩ := Bool.and_eq_true_iff.mp hw
    obtain ⟨ht, hw⟩ := Bool.and_eq_true_iff.mp hw
    obtain ⟨hb, hbp⟩ := Bound.append.mp hb
    obtain ⟨ns, hns⟩ := Expr.evaluate_nodes ht (base.evaluate_ok c hw hb)
    obtain ⟨kept, hkept⟩ := keepAll_ok predicates (inDocumentOrder ns) hwp hbp
    exact ⟨_, by rw [Expr.evaluate, hns]; simp only [bind, Except.bind, Value.toNodes, hkept]; rfl⟩
  | .call function args, c, hw, hb => by
    obtain ⟨hf, hw⟩ := Bool.and_eq_true_iff.mp hw
    obtain ⟨f, hname, hf⟩ := (Option.any_eq_true _ _).mp hf
    obtain ⟨hn, ht⟩ := Bool.and_eq_true_iff.mp hf
    obtain ⟨vs, hvs⟩ := evaluateAll_ok args c hw hb
    obtain ⟨hlen, htypes⟩ := evaluateAll_types hvs
    obtain ⟨v, hv⟩ := f.apply_ok (d := d) (c := c) (hlen ▸ hn) fun hf => by
      rw [hf, Bool.not_true, Bool.false_or, List.all_eq_true] at ht
      exact htypes .nodeSet ht
    exact ⟨v, by rw [Expr.evaluate, hvs, ← hv]; simp only [bind, Except.bind, Function.call, hname]⟩
  | .binary op left right, c, hw, hb => by
    obtain ⟨hw, hwr⟩ := Bool.and_eq_true_iff.mp hw
    obtain ⟨hop, hwl⟩ := Bool.and_eq_true_iff.mp hw
    obtain ⟨hbl, hbr⟩ := Bound.append.mp hb
    obtain ⟨l, hl⟩ := left.evaluate_ok c hwl hbl
    obtain ⟨r, hr⟩ := right.evaluate_ok c hwr hbr
    have htypes : op = .union → l.type = .nodeSet ∧ r.type = .nodeSet := fun hu => by
      subst hu
      obtain ⟨htl, htr⟩ := Bool.and_eq_true_iff.mp hop
      exact ⟨Expr.type_of_evaluate htl hl, Expr.type_of_evaluate htr hr⟩
    obtain ⟨v, hv⟩ := Operator.apply_ok (d := d) htypes
    exact ⟨v, by rw [Expr.evaluate, hl]; simp only [bind, Except.bind, hr, hv]⟩
  | .negate operand, c, hw, hb => by
    obtain ⟨v, hv⟩ := operand.evaluate_ok c hw hb
    exact ⟨_, by rw [Expr.evaluate, hv]; rfl⟩

theorem Origin.evaluate_ok : ∀ (o : Origin) (c : Context), o.wellTyped → Bound b o.prefixes →
    ∃ ns, o.evaluate d b c = .ok ns
  | .context, _, _, _ => ⟨_, rfl⟩
  | .root, _, _, _ => ⟨_, rfl⟩
  | .nodes start, c, hw, hb => by
    obtain ⟨ht, hw⟩ := Bool.and_eq_true_iff.mp hw
    obtain ⟨ns, hns⟩ := Expr.evaluate_nodes ht (start.evaluate_ok c hw hb)
    exact ⟨_, by rw [Origin.evaluate, hns]; rfl⟩

theorem evaluateAll_ok : ∀ (es : List Expr) (c : Context), allWellTyped es → Bound b (prefixesOfAll es) →
    ∃ vs, evaluateAll d b es c = .ok vs
  | [], _, _, _ => ⟨_, rfl⟩
  | e :: es, c, hw, hb => by
    obtain ⟨hw, hws⟩ := Bool.and_eq_true_iff.mp hw
    obtain ⟨hb, hbs⟩ := Bound.append.mp hb
    obtain ⟨v, hv⟩ := e.evaluate_ok c hw hb
    obtain ⟨vs, hvs⟩ := evaluateAll_ok es c hws hbs
    exact ⟨_, by rw [evaluateAll, hv]; simp only [bind, Except.bind, hvs]; rfl⟩

theorem follow_ok : ∀ (ss : List Step) (ns : List Node), stepsWellTyped ss → Bound b (prefixesOfSteps ss) →
    ∃ out, follow d b ss ns = .ok out
  | [], _, _, _ => ⟨_, rfl⟩
  | s :: ss, ns, hw, hb => by
    obtain ⟨hw, hws⟩ := Bool.and_eq_true_iff.mp hw
    obtain ⟨hb, hbs⟩ := Bound.append.mp hb
    obtain ⟨found, hfound⟩ := gather_ok [] fun n (_ : n ∈ ns) => s.reach_ok n hw hb
    obtain ⟨out, hout⟩ := follow_ok ss found hws hbs
    exact ⟨out, by rw [follow, hfound]; exact hout⟩

theorem Step.reach_ok : ∀ (s : Step) (n : Node), s.wellTyped → Bound b s.prefixes →
    ∃ out, s.reach d b n = .ok out
  | ⟨axis, test, predicates⟩, n, hw, hb => by
    obtain ⟨hb, hbp⟩ := Bound.append.mp hb
    obtain ⟨tested, htested⟩ := test.filter_ok d axis (axis.nodes d n)
      fun p hp => hb p (Option.mem_toList.mpr hp)
    obtain ⟨kept, hkept⟩ := keepAll_ok predicates tested hw hbp
    exact ⟨_, by rw [Step.reach, htested]; simp only [bind, Except.bind, hkept]; rfl⟩

theorem keepAll_ok : ∀ (ps : List Expr) (ns : List Node), allWellTyped ps → Bound b (prefixesOfAll ps) →
    ∃ kept, keepAll d b ps ns = .ok kept
  | [], _, _, _ => ⟨_, rfl⟩
  | p :: ps, ns, hw, hb => by
    obtain ⟨hw, hws⟩ := Bool.and_eq_true_iff.mp hw
    obtain ⟨hb, hbs⟩ := Bound.append.mp hb
    have htest : ∀ n i, ∃ keep, (p.evaluate d b ⟨n, i, ns.length⟩).map (·.keeps i) = .ok keep := fun n i => by
      obtain ⟨v, hv⟩ := p.evaluate_ok ⟨n, i, ns.length⟩ hw hb
      exact ⟨_, by rw [hv]; rfl⟩
    obtain ⟨first, hfirst⟩ := keepWhere_ok htest 1
    obtain ⟨kept, hkept⟩ := keepAll_ok ps first hws hbs
    exact ⟨kept, by rw [keepAll, hfirst]; exact hkept⟩

end

end Progress

/-! ### Type soundness -/

/-- A value has the static type of its expression, and a well-typed expression whose prefixes are bound
    has a value of its type for every document and context. -/
theorem evaluate_sound (b : Bindings) (e : Expr) :
    (∀ d c v, e.evaluate d b c = .ok v → e.type? = some v.type) ∧
      (e.wellTyped → (∀ p ∈ e.prefixes, (b.uri? p).isSome) →
        ∀ d c, ∃ v, e.evaluate d b c = .ok v ∧ e.type? = some v.type) := by
  refine ⟨fun _ _ _ => Expr.type?_of_evaluate, fun hw hb d c => ?_⟩
  obtain ⟨v, hv⟩ := e.evaluate_ok c hw hb
  exact ⟨v, hv, Expr.type?_of_evaluate hv⟩

/-- `count(a:entry[position() < last()] | /) = 1 or not(name(..))` -/
def countingExpr : Expr :=
  .binary .or
    (.binary (.comparison .equal)
      (.call ⟨none, "count"⟩
        [.binary .union
          (.path .context [⟨.child, .name ⟨some "a", "entry"⟩,
            [.binary (.comparison .less) (.call ⟨none, "position"⟩ []) (.call ⟨none, "last"⟩ [])]⟩])
          (.path .root [])])
      (.number (.ofNat 1)))
    (.call ⟨none, "not"⟩ [.call ⟨none, "name"⟩ [.path .context [⟨.parent, .kind .node, []⟩]]])

theorem evaluate_sound_counting :
    countingExpr.wellTyped ∧ (∀ p ∈ countingExpr.prefixes, ((Bindings.empty.bind "a" "u").uri? p).isSome) ∧
      ∀ d c, ∃ v, countingExpr.evaluate d (Bindings.empty.bind "a" "u") c = .ok v ∧
        countingExpr.type? = some v.type :=
  have hw : countingExpr.wellTyped := by decide
  have hb : ∀ p ∈ countingExpr.prefixes, ((Bindings.empty.bind "a" "u").uri? p).isSome := by decide
  ⟨hw, hb, (evaluate_sound (Bindings.empty.bind "a" "u") countingExpr).2 hw hb⟩

end XmlMapping.XPath
