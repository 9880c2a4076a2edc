import XmlMapping.Proofs.Document.Undeclared
import XmlMapping.Proofs.Result
import XmlMapping.XPath.Evaluation

/-! # Prefixes

Prefixes matter only through the namespaces that they stand for. What a document declares is seen by the
function `name` alone, so an expression that does not call it has the same outcome on two documents that
differ in their declarations. And the prefixes of an expression are seen through the bindings alone, so two
expressions that are alike but for prefixes have the same outcome when these stand for the same namespaces. -/

namespace XmlMapping.XPath

/-! ### Documents that differ in their declarations -/

section
variable (d : Document)

@[simp] theorem Axis.nodes_undeclared (n : Node) (axis : Axis) : axis.nodes d.undeclared n = axis.nodes d n := by
  cases axis <;> simp [Axis.nodes]

@[simp] theorem NodeTest.filter_undeclared (b : Bindings) (axis : Axis) (test : NodeTest) (ns : List Node) :
    test.filter d.undeclared b axis ns = test.filter d b axis ns := by
  have hadmits (uri : Option String) (n : Node) :
      test.admits d.undeclared axis.principal uri n = test.admits d axis.principal uri n := by
    have hcontent := d.content?_undeclared n
    cases hc : d.content? n <;> cases test <;> simp [NodeTest.admits, hcontent, hc]
  simp [NodeTest.filter, hadmits]

namespace Value

@[simp] theorem toText_undeclared (v : Value) : v.toText d.undeclared = v.toText d := by
  rcases v with (_ | _) | _ | _ | _ <;> simp [toText]

@[simp] theorem toNumber_undeclared (v : Value) : v.toNumber d.undeclared = v.toNumber d := by
  rcases v with (_ | _) | _ | _ | _ <;> simp [toNumber]

@[simp] theorem singles_undeclared (v other : Value) : v.singles d.undeclared other = v.singles d other := by
  cases v <;> simp [singles]

end Value

@[simp] theorem Comparison.holdsOf_undeclared (l r : Value) (relation : Comparison) :
    relation.holdsOf d.undeclared l r = relation.holdsOf d l r := by
  cases relation <;> simp [Comparison.holdsOf, equalSingles]

@[simp] theorem Operator.apply_undeclared (op : Operator) (l r : Value) :
    op.apply d.undeclared l r = op.apply d l r := by
  cases op <;> simp [Operator.apply, Comparison.holds]

namespace Function
variable (c : Context)

@[simp] theorem subjectText_undeclared (args : List Value) :
    subjectText d.undeclared c args = subjectText d c args := by
  cases args <;> simp [subjectText]

theorem applyTo_undeclared {f : Function} (hf : f ≠ .name) (args : List Value) :
    f.applyTo d.undeclared c args = f.applyTo d c args := by
  unfold applyTo
  split
  all_goals
    first
    | exact absurd rfl hf
    | simp only [Value.toText_undeclared, Value.toNumber_undeclared, subjectText_undeclared,
        Document.stringValue_undeclared, Document.localName_undeclared, Document.namespaceUri_undeclared]

theorem ofName?_name {name : String} : ofName? name = some .name ↔ name = "name" := by
  constructor
  · intro h
    have hspelling := List.find?_some h
    exact (beq_iff_eq.mp hspelling).symm
  · rintro rfl
    rfl

theorem call_undeclared {name : String} (hname : name ≠ "name") (args : List Value) :
    call d.undeclared c name args = call d c name args := by
  rw [call, call]
  split
  · next f hf =>
    have hne : f ≠ .name := by
      rintro rfl
      exact hname (ofName?_name.mp hf)
    rw [apply, apply, applyTo_undeclared d c hne]
  · rfl

end Function

mutual

/-- The names of the functions that an expression calls, from left to right and at any depth. -/
def Expr.calls : Expr → List String
  | .literal _ => []
  | .number _ => []
  | .path origin steps => origin.calls ++ callsOfSteps steps
  | .filter base predicates => base.calls ++ callsOfAll predicates
  | .call function args => function.text :: callsOfAll args
  | .binary _ left right => left.calls ++ right.calls
  | .negate operand => operand.calls

/-- The names of the functions that the start of a location path calls. -/
def Origin.calls : Origin → List String
  | .context => []
  | .root => []
  | .nodes start => start.calls

/-- The names of the functions that several expressions call. -/
def callsOfAll : List Expr → List String
  | [] => []
  | e :: es => e.calls ++ callsOfAll es

/-- The names of the functions that several steps call. -/
def callsOfSteps : List Step → List String
  | [] => []
  | s :: ss => s.calls ++ callsOfSteps ss

/-- The names of the functions that a step calls in its predicates. -/
def Step.calls : Step → List String
  | ⟨_, _, predicates⟩ => callsOfAll predicates

end

variable (b : Bindings)

mutual

theorem Expr.evaluate_undeclared : ∀ (e : Expr) (c : Context), (∀ f ∈ e.calls, f ≠ "name") →
    e.evaluate d.undeclared b c = e.evaluate d b c
  | .literal _, _, _ => rfl
  | .number _, _, _ => rfl
  | .path origin steps, c, h => by
    obtain ⟨ho, hs⟩ := List.forall_mem_append.mp h
    simp only [Expr.evaluate, origin.evaluate_undeclared c ho, follow_undeclared steps _ hs]
  | .filter base predicates, c, h => by
    obtain ⟨hb, hp⟩ := List.forall_mem_append.mp h
    simp only [Expr.evaluate, base.evaluate_undeclared c hb, keepAll_undeclared predicates _ hp]
  | .call function args, c, h => by
    obtain ⟨hf, ha⟩ := List.forall_mem_cons.mp h
    simp only [Expr.evaluate, evaluateAll_undeclared args c ha, Function.call_undeclared d c hf]
  | .binary op left right, c, h => by
    obtain ⟨hl, hr⟩ := List.forall_mem_append.mp h
    simp only [Expr.evaluate, left.evaluate_undeclared c hl, right.evaluate_undeclared c hr,
      Operator.apply_undeclared]
  | .negate operand, c, h => by
    simp only [Expr.evaluate, operand.evaluate_undeclared c h, Value.toNumber_undeclared]

theorem Origin.evaluate_undeclared : ∀ (o : Origin) (c : Context), (∀ f ∈ o.calls, f ≠ "name") →
    o.evaluate d.undeclared b c = o.evaluate d b c
  | .context, _, _ => rfl
  | .root, _, _ => rfl
  | .nodes start, c, h => by simp only [Origin.evaluate, start.evaluate_undeclared c h]

theorem evaluateAll_undeclared : ∀ (es : List Expr) (c : Context), (∀ f ∈ callsOfAll es, f ≠ "name") →
    evaluateAll d.undeclared b es c = evaluateAll d b es c
  | [], _, _ => rfl
  | e :: es, c, h => by
    obtain ⟨he, hes⟩ := List.forall_mem_append.mp h
    simp only [evaluateAll, e.evaluate_undeclared c he, evaluateAll_undeclared es c hes]

theorem follow_undeclared : ∀ (ss : List Step) (ns : List Node), (∀ f ∈ callsOfSteps ss, f ≠ "name") →
    follow d.undeclared b ss ns = follow d b ss ns
  | [], _, _ => rfl
  | s :: ss, ns, h => by
    obtain ⟨hs, hss⟩ := List.forall_mem_append.mp h
    have hreach : s.reach d.undeclared b = s.reach d b := funext fun n => s.reach_undeclared n hs
    simp only [follow, hreach, follow_undeclared ss _ hss]

theorem Step.reach_undeclared : ∀ (s : Step) (n : Node), (∀ f ∈ s.calls, f ≠ "name") →
    s.reach d.undeclared b n = s.reach d b n
  | ⟨axis, test, predicates⟩, n, h => by
    simp only [Step.reach, Axis.nodes_undeclared, NodeTest.filter_undeclared, keepAll_undeclared predicates _ h]

theorem keepAll_undeclared : ∀ (ps : List Expr) (ns : List Node), (∀ f ∈ callsOfAll ps, f ≠ "name") →
    keepAll d.undeclared b ps ns = keepAll d b ps ns
  | [], _, _ => rfl
  | p :: ps, ns, h => by
    obtain ⟨hp, hps⟩ := List.forall_mem_append.mp h
    simp only [keepAll, p.evaluate_undeclared _ hp, keepAll_undeclared ps _ hps]

end
end

/-! ### Expressions that differ in their prefixes -/

section
variable (b b' : Bindings)

/-- Whether two node tests are alike but for prefixes, which stand for the same namespaces. -/
inductive NodeTest.Alike : NodeTest → NodeTest → Prop
  | unprefixed (l : String) : Alike (.name ⟨none, l⟩) (.name ⟨none, l⟩)
  | prefixed {p p' : String} (h : b.uri? p = b'.uri? p') (l : String) :
    Alike (.name ⟨some p, l⟩) (.name ⟨some p', l⟩)
  | anyIn {p p' : String} (h : b.uri? p = b'.uri? p') : Alike (.anyIn p) (.anyIn p')
  | any : Alike .any .any
  | kind (k : KindTest) : Alike (.kind k) (.kind k)

mutual

/-- Whether two expressions are alike but for the prefixes in their node tests, each prefix standing for the
    same namespace as the one in its place. -/
inductive Expr.Alike : Expr → Expr → Prop
  | literal (text : String) : Expr.Alike (.literal text) (.literal text)
  | number (value : Number) : Expr.Alike (.number value) (.number value)
  | path {o o' : Origin} {ss ss' : List Step} : Origin.Alike o o' → StepsAlike ss ss' →
    Expr.Alike (.path o ss) (.path o' ss')
  | filter {e e' : Expr} {ps ps' : List Expr} : Expr.Alike e e' → AllAlike ps ps' →
    Expr.Alike (.filter e ps) (.filter e' ps')
  | call {args args' : List Expr} (function : QName) : AllAlike args args' →
    Expr.Alike (.call function args) (.call function args')
  | binary {l l' r r' : Expr} (op : Operator) : Expr.Alike l l' → Expr.Alike r r' →
    Expr.Alike (.binary op l r) (.binary op l' r')
  | negate {e e' : Expr} : Expr.Alike e e' → Expr.Alike (.negate e) (.negate e')

/-- Whether two starts of location paths are alike but for prefixes. -/
inductive Origin.Alike : Origin → Origin → Prop
  | context : Origin.Alike .context .context
  | root : Origin.Alike .root .root
  | nodes {e e' : Expr} : Expr.Alike e e' → Origin.Alike (.nodes e) (.nodes e')

/-- Whether expressions are alike but for prefixes, one by one. -/
inductive AllAlike : List Expr → List Expr → Prop
  | nil : AllAlike [] []
  | cons {e e' : Expr} {es es' : List Expr} : Expr.Alike e e' → AllAlike es es' → AllAlike (e :: es) (e' :: es')

/-- Whether steps are alike but for prefixes, one by one. -/
inductive StepsAlike : List Step → List Step → Prop
  | nil : StepsAlike [] []
  | cons {s s' : Step} {ss ss' : List Step} : Step.Alike s s' → StepsAlike ss ss' → StepsAlike (s :: ss) (s' :: ss')

/-- Whether two steps are alike but for prefixes. -/
inductive Step.Alike : Step → Step → Prop
  | mk {test test' : NodeTest} {ps ps' : List Expr} (axis : Axis) : NodeTest.Alike b b' test test' →
    AllAlike ps ps' → Step.Alike ⟨axis, test, ps⟩ ⟨axis, test', ps'⟩

end
end

section
variable {b b' : Bindings} (d : Document)

theorem NodeTest.sameOutcome_resolve {p p' : String} (h : b.uri? p = b'.uri? p') :
    SameOutcome (resolve b p) (resolve b' p') := by
  intro uri
  rw [resolve, resolve, h]
  cases b'.uri? p' <;> simp

theorem NodeTest.Alike.filter {test test' : NodeTest} (h : test.Alike b b' test') (axis : Axis) (ns : List Node) :
    SameOutcome (test.filter d b axis ns) (test'.filter d b' axis ns) := by
  cases h with
  | unprefixed l => exact .refl _
  | prefixed h l => exact ((NodeTest.sameOutcome_resolve h).map some).map _
  | anyIn h => exact ((NodeTest.sameOutcome_resolve h).map some).map _
  | any => exact .refl _
  | kind k => exact .refl _

theorem sameOutcome_keepWhere {test test' : Node → Nat → Except Error Bool}
    (h : ∀ n i, SameOutcome (test n i) (test' n i)) (ns : List Node) (i : Nat) :
    SameOutcome (keepWhere test ns i) (keepWhere test' ns i) := by
  induction ns generalizing i with
  | nil => exact .refl _
  | cons n ns ih => exact (h n i).bind fun kept => (ih (i + 1)).bind fun rest => .refl _

theorem sameOutcome_gather {find find' : Node → Except Error (List Node)}
    (h : ∀ n, SameOutcome (find n) (find' n)) (before ns : List Node) :
    SameOutcome (gather find before ns) (gather find' before ns) := by
  induction ns generalizing before with
  | nil => exact .refl _
  | cons n ns ih => exact (h n).bind fun found => ih (addFound before found)

mutual

theorem Expr.Alike.evaluate : ∀ {e e' : Expr}, e.Alike b b' e' → ∀ c : Context,
    SameOutcome (e.evaluate d b c) (e'.evaluate d b' c)
  | _, _, .literal _, _ => .refl _
  | _, _, .number _, _ => .refl _
  | _, _, .path ho hss, c => (ho.evaluate c).bind fun start => (hss.follow start).bind fun _ => .refl _
  | _, _, .filter he hps, c => (he.evaluate c).bind fun value =>
      (SameOutcome.refl value.toNodes).bind fun ns => (hps.keepAll (inDocumentOrder ns)).bind fun _ => .refl _
  | _, _, .call _ hargs, c => (hargs.evaluateAll c).bind fun _ => .refl _
  | _, _, .binary _ hl hr, c => (hl.evaluate c).bind fun _ => (hr.evaluate c).bind fun _ => .refl _
  | _, _, .negate he, c => (he.evaluate c).bind fun _ => .refl _

theorem Origin.Alike.evaluate : ∀ {o o' : Origin}, o.Alike b b' o' → ∀ c : Context,
    SameOutcome (o.evaluate d b c) (o'.evaluate d b' c)
  | _, _, .context, _ => .refl _
  | _, _, .root, _ => .refl _
  | _, _, .nodes he, c => (he.evaluate c).bind fun _ => .refl _

theorem AllAlike.evaluateAll : ∀ {es es' : List Expr}, AllAlike b b' es es' → ∀ c : Context,
    SameOutcome (evaluateAll d b es c) (evaluateAll d b' es' c)
  | _, _, .nil, _ => .refl _
  | _, _, .cons he hes, c => (he.evaluate c).bind fun _ => (hes.evaluateAll c).bind fun _ => .refl _

theorem StepsAlike.follow : ∀ {ss ss' : List Step}, StepsAlike b b' ss ss' → ∀ ns : List Node,
    SameOutcome (follow d b ss ns) (follow d b' ss' ns)
  | _, _, .nil, _ => .refl _
  | _, _, .cons hs hss, ns => (sameOutcome_gather hs.reach [] ns).bind fun found => hss.follow found

theorem Step.Alike.reach : ∀ {s s' : Step}, s.Alike b b' s' → ∀ n : Node,
    SameOutcome (s.reach d b n) (s'.reach d b' n)
  | _, _, .mk axis htest hps, n => (htest.filter d axis (axis.nodes d n)).bind fun tested =>
      (hps.keepAll tested).bind fun _ => .refl _

theorem AllAlike.keepAll : ∀ {ps ps' : List Expr}, AllAlike b b' ps ps' → ∀ ns : List Node,
    SameOutcome (keepAll d b ps ns) (keepAll d b' ps' ns)
  | _, _, .nil, _ => .refl _
  | _, _, .cons hp hps, ns =>
    (sameOutcome_keepWhere (fun n i => (hp.evaluate ⟨n, i, ns.length⟩).map _) ns 1).bind fun kept => hps.keepAll kept

end

/-- Two documents that differ in their declarations alone and two expressions that differ in prefixes that
    stand for the same namespaces have the same outcome, if the function `name` is not called. -/
theorem evaluate_prefixes {d d' : Document} (hd : d.undeclared = d'.undeclared) {e e' : Expr}
    (he : e.Alike b b' e') (hcalls : ∀ f ∈ e.calls, f ≠ "name") (c : Context) :
    SameOutcome (e.evaluate d b c) (e'.evaluate d' b' c) := by
  have hsame : e.evaluate d b c = e.evaluate d' b c := by
    rw [← Expr.evaluate_undeclared d b e c hcalls, hd, Expr.evaluate_undeclared d' b e c hcalls]
  rw [hsame]
  exact he.evaluate d' c

end

/-- `<a xmlns="u"><b/></a>` -/
def defaultDocument : Document :=
  ⟨[.element ⟨⟨some "u", "a"⟩, [⟨none, "u"⟩], []⟩ [.element ⟨⟨some "u", "b"⟩, [], []⟩ []]]⟩

/-- `<p:a xmlns:p="u"><p:b/></p:a>` -/
def prefixedDocument : Document :=
  ⟨[.element ⟨⟨some "u", "a"⟩, [⟨some "p", "u"⟩], []⟩ [.element ⟨⟨some "u", "b"⟩, [], []⟩ []]]⟩

/-- `local-name(x:a/x:*)` for a prefix `x`. -/
def localNameExpr (x : String) : Expr :=
  .call ⟨none, "local-name"⟩ [.path .context [⟨.child, .name ⟨some x, "a"⟩, []⟩, ⟨.child, .anyIn x, []⟩]]

theorem evaluate_prefixes_localName :
    defaultDocument.undeclared = prefixedDocument.undeclared ∧
      (localNameExpr "q").Alike (Bindings.empty.bind "q" "u") (Bindings.empty.bind "r" "u") (localNameExpr "r") ∧
      (∀ f ∈ (localNameExpr "q").calls, f ≠ "name") ∧
      (localNameExpr "q").evaluate defaultDocument (Bindings.empty.bind "q" "u") ⟨.root, 1, 1⟩ = .ok (.string "b") ∧
      SameOutcome ((localNameExpr "q").evaluate defaultDocument (Bindings.empty.bind "q" "u") ⟨.root, 1, 1⟩)
        ((localNameExpr "r").evaluate prefixedDocument (Bindings.empty.bind "r" "u") ⟨.root, 1, 1⟩) :=
  have hd : defaultDocument.undeclared = prefixedDocument.undeclared := rfl
  have hbound : (Bindings.empty.bind "q" "u").uri? "q" = (Bindings.empty.bind "r" "u").uri? "r" := by decide
  have he : (localNameExpr "q").Alike (Bindings.empty.bind "q" "u") (Bindings.empty.bind "r" "u")
      (localNameExpr "r") :=
    .call _ (.cons (.path .context (.cons (.mk .child (.prefixed hbound "a") .nil)
      (.cons (.mk .child (.anyIn hbound) .nil) .nil))) .nil)
  have hcalls : ∀ f ∈ (localNameExpr "q").calls, f ≠ "name" := by decide
  ⟨hd, he, hcalls, rfl, evaluate_prefixes hd he hcalls ⟨.root, 1, 1⟩⟩

/-- The function `name` tells the two documents apart. -/
example :
    defaultDocument.qualifiedName (.ofPath [0]) = "a" ∧ prefixedDocument.qualifiedName (.ofPath [0]) = "p:a" := by
  decide

end XmlMapping.XPath
