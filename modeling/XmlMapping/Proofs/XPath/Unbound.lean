import XmlMapping.Proofs.XPath.Steps

/-! # Unbound prefixes

Prefixes are checked before an expression is evaluated, by one walk through it. The walk agrees with the
evaluation: it fails when a node test stands anywhere in the expression with a prefix that has no binding,
and names the one that stands furthest to the left; and when it passes, no prefix is missed on the way that
the evaluation takes. Where something stands in an expression is told by the numbers of the parts to go down
through, and a place is to the left of another when it comes first in the order of words. -/

namespace XmlMapping.XPath

/-! ### Places in an expression -/

/-- A part of an expression, down to the node tests. -/
inductive Part
  | expr (e : Expr)
  | origin (o : Origin)
  | step (s : Step)
  | test (t : NodeTest)

namespace Part

/-- What a part is put together from, from left to right as it is written. -/
def parts : Part → List Part
  | .expr (.literal _) => []
  | .expr (.number _) => []
  | .expr (.path o steps) => .origin o :: steps.map .step
  | .expr (.filter base predicates) => .expr base :: predicates.map .expr
  | .expr (.call _ args) => args.map .expr
  | .expr (.binary _ left right) => [.expr left, .expr right]
  | .expr (.negate operand) => [.expr operand]
  | .origin .context => []
  | .origin .root => []
  | .origin (.nodes start) => [.expr start]
  | .step ⟨_, t, predicates⟩ => .test t :: predicates.map .expr
  | .test _ => []

/-- The part at a place: the numbers of the parts to go down through. -/
def at? : Part → List Nat → Option Part
  | x, [] => some x
  | x, i :: place => x.parts[i]?.bind fun y => y.at? place

/-- The prefix that a part uses itself: only a node test may have one. -/
def nsPrefix? : Part → Option String
  | .test t => t.nsPrefix?
  | _ => none

/-- Whether a node test with a prefix stands at a place in a part. -/
def PrefixAt (x : Part) (place : List Nat) (p : String) : Prop :=
  (x.at? place).bind nsPrefix? = some p

/-! ### The first of the prefixes -/

/-- The prefixes of the node tests in a part, from left to right. -/
def prefixes : Part → List String
  | .expr e => e.prefixes
  | .origin o => o.prefixes
  | .step s => s.prefixes
  | .test t => t.nsPrefix?.toList

theorem prefixesOfAll_eq (es : List Expr) : prefixesOfAll es = (es.map Part.expr).flatMap prefixes := by
  induction es with
  | nil => rfl
  | cons e es ih => rw [prefixesOfAll, ih, List.map_cons, List.flatMap_cons, prefixes]

theorem prefixesOfSteps_eq (ss : List Step) : prefixesOfSteps ss = (ss.map Part.step).flatMap prefixes := by
  induction ss with
  | nil => rfl
  | cons s ss ih => rw [prefixesOfSteps, ih, List.map_cons, List.flatMap_cons, prefixes]

theorem prefixes_eq (x : Part) : x.prefixes = x.nsPrefix?.toList ++ x.parts.flatMap prefixes := by
  rcases x with (_ | _ | _ | _ | _ | _ | _) | (_ | _ | _) | ⟨_, _, _⟩ | _ <;>
    simp [prefixes, parts, nsPrefix?, Expr.prefixes, Origin.prefixes, Step.prefixes, prefixesOfAll_eq,
      prefixesOfSteps_eq]

theorem sizeOf_lt_of_mem_parts {x y : Part} (h : y ∈ x.parts) : sizeOf y < sizeOf x := by
  have hexpr : ∀ {es : List Expr}, y ∈ es.map expr → sizeOf y < 1 + sizeOf es := fun h => by
    obtain ⟨e, he, rfl⟩ := List.mem_map.mp h
    have := List.sizeOf_lt_of_mem he
    simp only [expr.sizeOf_spec]
    omega
  have hstep : ∀ {ss : List Step}, y ∈ ss.map step → sizeOf y < 1 + sizeOf ss := fun h => by
    obtain ⟨s, hs, rfl⟩ := List.mem_map.mp h
    have := List.sizeOf_lt_of_mem hs
    simp only [step.sizeOf_spec]
    omega
  cases x with
  | expr e =>
    cases e with
    | literal | number => cases h
    | path o ss =>
      simp only [expr.sizeOf_spec, Expr.path.sizeOf_spec]
      rcases List.mem_cons.mp h with rfl | h
      · simp only [origin.sizeOf_spec]
        omega
      · have := hstep h
        omega
    | filter base ps =>
      simp only [expr.sizeOf_spec, Expr.filter.sizeOf_spec]
      rcases List.mem_cons.mp h with rfl | h
      · simp only [expr.sizeOf_spec]
        omega
      · have := hexpr h
        omega
    | call f args =>
      simp only [expr.sizeOf_spec, Expr.call.sizeOf_spec]
      have := hexpr h
      omega
    | binary op left right =>
      simp only [expr.sizeOf_spec, Expr.binary.sizeOf_spec]
      rcases List.mem_pair.mp h with rfl | rfl
      · simp only [expr.sizeOf_spec]
        omega
      · simp only [expr.sizeOf_spec]
        omega
    | negate operand =>
      obtain rfl := List.mem_singleton.mp h
      simp only [expr.sizeOf_spec, Expr.negate.sizeOf_spec]
      omega
  | origin o =>
    cases o with
    | context | root => cases h
    | nodes start =>
      obtain rfl := List.mem_singleton.mp h
      simp only [expr.sizeOf_spec, origin.sizeOf_spec, Origin.nodes.sizeOf_spec]
      omega
  | step s =>
    obtain ⟨axis, t, ps⟩ := s
    simp only [step.sizeOf_spec, Step.mk.sizeOf_spec]
    rcases List.mem_cons.mp h with rfl | h
    · simp only [test.sizeOf_spec]
      omega
    · have := hexpr h
      omega
  | test t => cases h

@[simp] theorem prefixAt_nil {x : Part} {p : String} : x.PrefixAt [] p ↔ x.nsPrefix? = some p := Iff.rfl

theorem prefixAt_cons {x : Part} {i : Nat} {place : List Nat} {p : String} :
    x.PrefixAt (i :: place) p ↔ ∃ y, x.parts[i]? = some y ∧ y.PrefixAt place p := by
  rw [PrefixAt, at?]
  cases x.parts[i]? with
  | none => simp
  | some y => simp [PrefixAt]

theorem PrefixAt.mem_prefixes {x : Part} {place : List Nat} {p : String} (h : x.PrefixAt place p) :
    p ∈ x.prefixes := by
  induction place generalizing x with
  | nil =>
    rw [prefixes_eq, prefixAt_nil.mp h]
    exact List.mem_append_left _ List.mem_cons_self
  | cons i place ih =>
    obtain ⟨y, hy, h⟩ := prefixAt_cons.mp h
    rw [prefixes_eq]
    exact List.mem_append_right _ (List.mem_flatMap.mpr ⟨y, List.mem_of_getElem? hy, ih h⟩)

/-- A place has a prefix of some kind, and no place before it has one. The places before it are those to the
    left, for a node test has no parts. -/
structure FirstAt (x : Part) (bad : String → Bool) (place : List Nat) (p : String) : Prop where
  here : x.PrefixAt place p
  holds : bad p
  before : ∀ place' < place, ∀ q, x.PrefixAt place' q → bad q = false

/-- The first prefix of some kind in the list of prefixes is the one that stands at the first place. -/
theorem exists_firstAt {bad : String → Bool} {p : String} (x : Part) (h : x.prefixes.find? bad = some p) :
    ∃ place, x.FirstAt bad place p := by
  rw [prefixes_eq, List.find?_append, Option.or_eq_some_iff] at h
  rcases h with h | ⟨hown, h⟩
  · have hp := Option.mem_toList.mp (List.mem_of_find?_eq_some h)
    exact ⟨[], hp, List.find?_some h, fun place' hlt => absurd hlt (List.not_lt_nil _)⟩
  · rw [List.find?_flatMap, List.findSome?_eq_some_iff] at h
    obtain ⟨left, y, right, hparts, hy, hleft⟩ := h
    have hmem : y ∈ x.parts := by simp [hparts]
    have hlt := sizeOf_lt_of_mem_parts hmem
    obtain ⟨place, hplace⟩ := exists_firstAt y hy
    refine ⟨left.length :: place, prefixAt_cons.mpr ⟨y, by simp [hparts], hplace.here⟩, hplace.holds, ?_⟩
    -- A place before that one is the part itself, or in a part to the left, or before it in the same part.
    intro place' hbefore q hq
    cases place' with
    | nil =>
      simp only [prefixAt_nil.mp hq, Option.toList_some, List.find?_singleton] at hown
      simpa using hown
    | cons i place' =>
      obtain ⟨z, hz, hq⟩ := prefixAt_cons.mp hq
      rw [hparts] at hz
      rcases List.cons_lt_cons_iff.mp hbefore with hi | ⟨rfl, hleft'⟩
      · rw [List.getElem?_append_left hi] at hz
        have := List.find?_eq_none.mp (hleft z (List.mem_of_getElem? hz)) q hq.mem_prefixes
        simpa using this
      · obtain rfl : y = z := by simpa using hz
        exact hplace.before place' hleft' q hq
termination_by sizeOf x

end Part

/-! ### Failing to resolve a prefix -/

/-- A prefix of a list without a binding. -/
def Lacks (b : Bindings) (ps : List String) (p : String) : Prop :=
  p ∈ ps ∧ b.uri? p = none

variable {d : Document} {b : Bindings} {ps qs : List String} {p : String}

theorem Lacks.append_left (h : Lacks b ps p) (qs : List String) : Lacks b (ps ++ qs) p :=
  ⟨List.mem_append_left qs h.1, h.2⟩

theorem Lacks.append_right (h : Lacks b qs p) (ps : List String) : Lacks b (ps ++ qs) p :=
  ⟨List.mem_append_right ps h.1, h.2⟩

theorem Value.toNodes_ne (v : Value) : v.toNodes ≠ .error (.unboundPrefix p) := by
  cases v <;> simp [toNodes]

theorem Function.nodesOf_ne (f : Function) (v : Value) : f.nodesOf v ≠ .error (.unboundPrefix p) := by
  cases v <;> simp [nodesOf]

theorem Function.subject?_ne (f : Function) (c : Context) (args : List Value) :
    f.subject? c args ≠ .error (.unboundPrefix p) := by
  cases args with
  | nil => nofun
  | cons v vs => exact fun h => f.nodesOf_ne v (except_map_eq_error.mp h)

theorem Function.call_ne (c : Context) (name : String) (args : List Value) :
    Function.call d c name args ≠ .error (.unboundPrefix p) := by
  unfold call apply
  intro h
  split at h
  · next f hf =>
    split at h
    · unfold applyTo at h
      split at h
      all_goals
        first
        | cases h
        | exact nodesOf_ne _ _ (except_map_eq_error.mp h)
        | exact subject?_ne _ _ _ (except_map_eq_error.mp h)
    · cases h
  · cases h

theorem Operator.apply_ne (op : Operator) (l r : Value) : op.apply d l r ≠ .error (.unboundPrefix p) := by
  cases op with
  | union => cases l <;> cases r <;> simp [apply, Value.union]
  | _ => nofun

theorem NodeTest.filter_error {axis : Axis} {test : NodeTest} {ns : List Node}
    (h : test.filter d b axis ns = .error (.unboundPrefix p)) : Lacks b test.nsPrefix?.toList p := by
  have h := except_map_eq_error.mp h
  unfold namespaceUri? at h
  split at h
  · next q hq =>
    have h := except_map_eq_error.mp h
    unfold resolve at h
    split at h
    · cases h
    · next hnone =>
      cases h
      exact ⟨by rw [hq]; exact List.mem_cons_self, hnone⟩
  · cases h

theorem keepWhere_error {test : Node → Nat → Except Error Bool} {ns : List Node} {i : Nat} {e : Error}
    (h : keepWhere test ns i = .error e) : ∃ n i, test n i = .error e := by
  induction ns generalizing i with
  | nil => cases h
  | cons n ns ih =>
    rcases except_bind_eq_error.mp h with h | ⟨_, -, h⟩
    · exact ⟨n, i, h⟩
    · rcases except_bind_eq_error.mp h with h | ⟨_, -, h⟩
      · exact ih h
      · cases h

theorem gather_error {find : Node → Except Error (List Node)} {before ns : List Node} {e : Error}
    (h : gather find before ns = .error e) : ∃ n, find n = .error e := by
  induction ns generalizing before with
  | nil => cases h
  | cons n ns ih =>
    rcases except_bind_eq_error.mp h with h | ⟨_, -, h⟩
    · exact ⟨n, h⟩
    · exact ih h

mutual

/-- An evaluation that fails for a prefix fails for one of the prefixes of the expression, without a binding. -/
theorem Expr.lacks_of_evaluate : ∀ (e : Expr) {c : Context},
    e.evaluate d b c = .error (.unboundPrefix p) → Lacks b e.prefixes p
  | .literal _, _, h => by cases h
  | .number _, _, h => by cases h
  | .path origin steps, c, h => by
    simp only [Expr.evaluate, except_bind_eq_error] at h
    rcases h with h | ⟨start, -, h | ⟨_, -, h⟩⟩
    · exact (origin.lacks_of_evaluate h).append_left _
    · exact (lacks_of_follow steps h).append_right _
    · cases h
  | .filter base predicates, c, h => by
    simp only [Expr.evaluate, except_bind_eq_error] at h
    rcases h with h | ⟨v, -, h | ⟨ns, -, h | ⟨_, -, h⟩⟩⟩
    · exact (base.lacks_of_evaluate h).append_left _
    · exact absurd h v.toNodes_ne
    · exact (lacks_of_keepAll predicates h).append_right _
    · cases h
  | .call function args, c, h => by
    simp only [Expr.evaluate, except_bind_eq_error] at h
    rcases h with h | ⟨vs, -, h⟩
    · exact lacks_of_evaluateAll args h
    · exact absurd h (Function.call_ne c _ vs)
  | .binary op left right, c, h => by
    simp only [Expr.evaluate, except_bind_eq_error] at h
    rcases h with h | ⟨l, -, h | ⟨r, -, h⟩⟩
    · exact (left.lacks_of_evaluate h).append_left _
    · exact (right.lacks_of_evaluate h).append_right _
    · exact absurd h (op.apply_ne l r)
  | .negate operand, c, h => by
    simp only [Expr.evaluate, except_bind_eq_error] at h
    rcases h with h | ⟨_, -, h⟩
    · exact operand.lacks_of_evaluate h
    · cases h

theorem Origin.lacks_of_evaluate : ∀ (o : Origin) {c : Context},
    o.evaluate d b c = .error (.unboundPrefix p) → Lacks b o.prefixes p
  | .context, _, h => by cases h
  | .root, _, h => by cases h
  | .nodes start, c, h => by
    simp only [Origin.evaluate, except_bind_eq_error] at h
    rcases h with h | ⟨v, -, h | ⟨_, -, h⟩⟩
    · exact start.lacks_of_evaluate h
    · exact absurd h v.toNodes_ne
    · cases h

theorem lacks_of_evaluateAll : ∀ (es : List Expr) {c : Context},
    evaluateAll d b es c = .error (.unboundPrefix p) → Lacks b (prefixesOfAll es) p
  | [], _, h => by cases h
  | e :: es, c, h => by
    simp only [evaluateAll, except_bind_eq_error] at h
    rcases h with h | ⟨_, -, h | ⟨_, -, h⟩⟩
    · exact (e.lacks_of_evaluate h).append_left _
    · exact (lacks_of_evaluateAll es h).append_right _
    · cases h

theorem lacks_of_follow : ∀ (ss : List Step) {ns : List Node},
    follow d b ss ns = .error (.unboundPrefix p) → Lacks b (prefixesOfSteps ss) p
  | [], _, h => by cases h
  | s :: ss, ns, h => by
    simp only [follow, except_bind_eq_error] at h
    rcases h with h | ⟨_, -, h⟩
    · obtain ⟨n, h⟩ := gather_error h
      exact (s.lacks_of_reach h).append_left _
    · exact (lacks_of_follow ss h).append_right _

theorem Step.lacks_of_reach : ∀ (s : Step) {n : Node},
    s.reach d b n = .error (.unboundPrefix p) → Lacks b s.prefixes p
  | ⟨axis, test, predicates⟩, n, h => by
    simp only [Step.reach, except_bind_eq_error] at h
    rcases h with h | ⟨_, -, h | ⟨_, -, h⟩⟩
    · exact (NodeTest.filter_error h).append_left _
    · exact (lacks_of_keepAll predicates h).append_right _
    · cases h

theorem lacks_of_keepAll : ∀ (es : List Expr) {ns : List Node},
    keepAll d b es ns = .error (.unboundPrefix p) → Lacks b (prefixesOfAll es) p
  | [], _, h => by cases h
  | e :: es, ns, h => by
    simp only [keepAll, except_bind_eq_error] at h
    rcases h with h | ⟨_, -, h⟩
    · obtain ⟨_, _, h⟩ := keepWhere_error h
      exact (e.lacks_of_evaluate (except_map_eq_error.mp h)).append_left _
    · exact (lacks_of_keepAll es h).append_right _

end

/-! ### The check -/

theorem Part.mem_prefixes_iff {x : Part} : p ∈ x.prefixes ↔ ∃ place, x.PrefixAt place p := by
  refine ⟨fun h => ?_, fun ⟨_, h⟩ => h.mem_prefixes⟩
  obtain ⟨q, hq⟩ := Option.isSome_iff_exists.mp (List.find?_isSome (p := (· == p)) |>.mpr ⟨p, h, beq_self_eq_true p⟩)
  obtain rfl : q = p := by simpa using List.find?_some hq
  obtain ⟨place, hplace⟩ := x.exists_firstAt hq
  exact ⟨place, hplace.here⟩

theorem Expr.mem_prefixes_iff {e : Expr} : p ∈ e.prefixes ↔ ∃ place, (Part.expr e).PrefixAt place p :=
  Part.mem_prefixes_iff (x := .expr e)

theorem Expr.checkPrefixes_eq_ok {e : Expr} : e.checkPrefixes b = .ok () ↔ ∀ p ∈ e.prefixes, b.uri? p ≠ none := by
  unfold checkPrefixes
  split
  · next p hp =>
    have hnone := List.find?_some hp
    simp only [reduceCtorEq, false_iff, not_forall]
    exact ⟨p, List.mem_of_find?_eq_some hp, not_not.mpr (Option.isNone_iff_eq_none.mp hnone)⟩
  · next h => simpa using h

/-- A node test with a prefix that has no binding stands at a place in an expression, and none before it. -/
def Expr.FirstUnbound (e : Expr) (b : Bindings) (place : List Nat) (p : String) : Prop :=
  (Part.expr e).FirstAt (fun q => (b.uri? q).isNone) place p

/-- The check names the prefix that stands first among those without a binding. -/
theorem Expr.checkPrefixes_of_lacks {e : Expr} (h : Lacks b e.prefixes p) :
    ∃ first q, e.FirstUnbound b first q ∧ e.checkPrefixes b = .error (.unboundPrefix q) := by
  unfold checkPrefixes
  split
  · next q hq =>
    obtain ⟨first, hfirst⟩ := (Part.expr e).exists_firstAt hq
    exact ⟨first, q, hfirst, rfl⟩
  · next hq => simpa [h.2] using List.find?_eq_none.mp hq p h.1

/-- Where a node test with an unbound prefix stands in an expression, its value for any node of any document is
    the error that names the first such prefix. Otherwise the evaluation fails for no prefix, and the value
    is that of the evaluation for the node on its own. -/
theorem checkPrefixes_exact (b : Bindings) (e : Expr) :
    (∀ place p, (Part.expr e).PrefixAt place p → b.uri? p = none →
        ∃ first q, e.FirstUnbound b first q ∧ ∀ d n, e.valueAt d b n = .error (.unboundPrefix q)) ∧
      ((∀ place p, (Part.expr e).PrefixAt place p → b.uri? p ≠ none) → ∀ d,
        (∀ c p, e.evaluate d b c ≠ .error (.unboundPrefix p)) ∧
          ∀ n, e.valueAt d b n = e.evaluate d b ⟨n, 1, 1⟩) := by
  constructor
  · intro place p hp hnone
    obtain ⟨first, q, hfirst, hcheck⟩ := Expr.checkPrefixes_of_lacks ⟨Expr.mem_prefixes_iff.mpr ⟨place, hp⟩, hnone⟩
    exact ⟨first, q, hfirst, fun d n => by rw [Expr.valueAt, hcheck]; rfl⟩
  · intro hbound d
    have hall : ∀ p ∈ e.prefixes, b.uri? p ≠ none := fun p hp => by
      obtain ⟨place, hp⟩ := Expr.mem_prefixes_iff.mp hp
      exact hbound place p hp
    refine ⟨fun c p h => ?_, fun n => ?_⟩
    · obtain ⟨hp, hnone⟩ := e.lacks_of_evaluate h
      exact hall p hp hnone
    · rw [Expr.valueAt, Expr.checkPrefixes_eq_ok.mpr hall]
      rfl

/-- `a:x[q:y]/r:*` -/
def nestedExpr : Expr :=
  .path .context
    [⟨.child, .name ⟨some "a", "x"⟩, [.path .context [⟨.child, .name ⟨some "q", "y"⟩, []⟩]]⟩,
      ⟨.child, .anyIn "r", []⟩]

theorem checkPrefixes_exact_nested :
    (Part.expr nestedExpr).PrefixAt [2, 0] "r" ∧ (Bindings.empty.bind "a" "u").uri? "r" = none ∧
      (∃ first, nestedExpr.FirstUnbound (.bind .empty "a" "u") first "q" ∧
        ∀ d n, nestedExpr.valueAt d (.bind .empty "a" "u") n = .error (.unboundPrefix "q")) ∧
      (∀ place p, (Part.expr nestedExpr).PrefixAt place p →
        (Bindings.ofList [("a", "u"), ("q", "v"), ("r", "u")]).uri? p ≠ none) ∧
      ∀ d c p, nestedExpr.evaluate d (.ofList [("a", "u"), ("q", "v"), ("r", "u")]) c ≠ .error (.unboundPrefix p) := by
  have hr : (Part.expr nestedExpr).PrefixAt [2, 0] "r" := rfl
  have hnone : (Bindings.empty.bind "a" "u").uri? "r" = none := by decide
  have hall : ∀ place p, (Part.expr nestedExpr).PrefixAt place p →
      (Bindings.ofList [("a", "u"), ("q", "v"), ("r", "u")]).uri? p ≠ none := fun place p hp => by
    have hmem : p ∈ ["a", "q", "r"] := hp.mem_prefixes
    clear hp
    revert p
    decide
  obtain ⟨first, q, hfirst, hvalue⟩ := (checkPrefixes_exact _ nestedExpr).1 [2, 0] "r" hr hnone
  have hq : nestedExpr.valueAt ⟨[]⟩ (.bind .empty "a" "u") .root = .error (.unboundPrefix "q") := by decide
  obtain rfl : q = "q" := by simpa using (hvalue _ _).symm.trans hq
  exact ⟨hr, hnone, ⟨first, hfirst, hvalue⟩, hall, fun d => ((checkPrefixes_exact _ nestedExpr).2 hall d).1⟩

end XmlMapping.XPath
