import XmlMapping.Proofs.XPath.NodeSets

/-! # What an expression sees of its context

An expression is evaluated for a node, at a position among so many nodes. It asks for the position and the number
of nodes by calls of `position` and `last`, and it speaks about the node where a location path starts from it or a
function takes it for the argument that is left out. What stands in the predicates of its steps and filters does not
count, for these are evaluated for other nodes. An expression that asks for nothing of its context has one outcome
in all of them. -/

namespace XmlMapping.XPath

/-! ### Asking for the position -/

mutual

/-- The names of the functions that an expression calls outside of predicates, from left to right. -/
def Expr.outerCalls : Expr → List String
  | .literal _ => []
  | .number _ => []
  | .path origin _ => origin.outerCalls
  | .filter base _ => base.outerCalls
  | .call function args => function.text :: outerCallsOfAll args
  | .binary _ left right => left.outerCalls ++ right.outerCalls
  | .negate operand => operand.outerCalls

/-- The names of the functions that the start of a location path calls outside of predicates. -/
def Origin.outerCalls : Origin → List String
  | .context => []
  | .root => []
  | .nodes start => start.outerCalls

/-- The names of the functions that several expressions call outside of predicates. -/
def outerCallsOfAll : List Expr → List String
  | [] => []
  | e :: es => e.outerCalls ++ outerCallsOfAll es

end

/-- None of these functions gives the position or the number of the nodes. -/
def NoneCounts (functions : List String) : Prop :=
  ∀ f ∈ functions, f ≠ "position" ∧ f ≠ "last"

/-! ### Speaking about the context node -/

/-- The functions that take the context node when they are called without arguments. -/
def nodeFunctions : List String :=
  ["string", "string-length", "normalize-space", "number", "name", "local-name", "namespace-uri"]

mutual

/-- Whether an expression does not speak about the context node outside of predicates. -/
def Expr.NodeFree : Expr → Prop
  | .literal _ => True
  | .number _ => True
  | .path origin _ => origin.NodeFree
  | .filter base _ => base.NodeFree
  | .call function args => (args = [] → function.text ∉ nodeFunctions) ∧ AllNodeFree args
  | .binary _ left right => left.NodeFree ∧ right.NodeFree
  | .negate operand => operand.NodeFree

/-- Whether the start of a location path does not speak about the context node. -/
def Origin.NodeFree : Origin → Prop
  | .context => False
  | .root => True
  | .nodes start => start.NodeFree

/-- Whether none of several expressions speaks about the context node outside of predicates. -/
def AllNodeFree : List Expr → Prop
  | [] => True
  | e :: es => e.NodeFree ∧ AllNodeFree es

end

/-! ### Functions -/

section
variable {d : Document} {c c' : Context} {args : List Value}

theorem Function.subject?_congr (f : Function) (hnode : args = [] → c.node = c'.node) :
    f.subject? c args = f.subject? c' args := by
  cases args with
  | nil => rw [subject?, subject?, hnode rfl]
  | cons v vs => rfl

theorem Function.subjectText_congr (hnode : args = [] → c.node = c'.node) :
    subjectText d c args = subjectText d c' args := by
  cases args with
  | nil => rw [subjectText, subjectText, hnode rfl]
  | cons v vs => rfl

theorem Function.applyTo_congr {f : Function} (hposition : f ≠ .position) (hlast : f ≠ .last)
    (hnode : args = [] → f.spelling ∈ nodeFunctions → c.node = c'.node) : f.applyTo d c args = f.applyTo d c' args := by
  unfold applyTo
  split
  all_goals
    first
    | exact absurd rfl hposition
    | exact absurd rfl hlast
    | rw [subject?_congr _ fun h => hnode h (by decide)]
    | rw [subjectText_congr fun h => hnode h (by decide)]
    | rw [hnode rfl (by decide)]
    | rfl

theorem Function.spelling_of_ofName? {name : String} {f : Function} (h : ofName? name = some f) : f.spelling = name := by
  have hspelling := List.find?_some h
  exact beq_iff_eq.mp hspelling

theorem Function.call_congr {name : String} (hname : name ≠ "position" ∧ name ≠ "last")
    (hnode : args = [] → name ∈ nodeFunctions → c.node = c'.node) : call d c name args = call d c' name args := by
  rw [call, call]
  split
  · next f hf =>
    obtain rfl := spelling_of_ofName? hf
    have hposition : f ≠ .position := by
      rintro rfl
      exact hname.1 rfl
    have hlast : f ≠ .last := by
      rintro rfl
      exact hname.2 rfl
    rw [apply, apply, applyTo_congr hposition hlast hnode]
  · rfl

/-! ### Expressions -/

variable {b : Bindings}

mutual

/-- The contexts may differ in the node only when the expression does not speak about it. -/
theorem Expr.evaluate_agree : ∀ e : Expr, NoneCounts e.outerCalls → e.NodeFree ∨ c.node = c'.node →
    e.evaluate d b c = e.evaluate d b c'
  | .literal _, _, _ => rfl
  | .number _, _, _ => rfl
  | .path origin steps, h, hnode => by rw [Expr.evaluate, Expr.evaluate, origin.evaluate_agree h hnode]
  | .filter base predicates, h, hnode => by rw [Expr.evaluate, Expr.evaluate, base.evaluate_agree h hnode]
  | .call function args, h, hnode => by
    obtain ⟨hname, hargs⟩ := List.forall_mem_cons.mp h
    rw [Expr.evaluate, Expr.evaluate, evaluateAll_agree args hargs (hnode.imp_left And.right)]
    refine except_bind_congr fun values hvalues => Function.call_congr hname fun hnil hmem => ?_
    have hlen := (evaluateAll_types hvalues).1
    rw [hnil] at hlen
    rcases hnode with hfree | hnode
    · exact absurd hmem (hfree.1 (List.length_eq_zero_iff.mp hlen.symm))
    · exact hnode
  | .binary op left right, h, hnode => by
    obtain ⟨hleft, hright⟩ := List.forall_mem_append.mp h
    rw [Expr.evaluate, Expr.evaluate, left.evaluate_agree hleft (hnode.imp_left And.left),
      right.evaluate_agree hright (hnode.imp_left And.right)]
  | .negate operand, h, hnode => by rw [Expr.evaluate, Expr.evaluate, operand.evaluate_agree h hnode]

theorem Origin.evaluate_agree : ∀ o : Origin, NoneCounts o.outerCalls → o.NodeFree ∨ c.node = c'.node →
    o.evaluate d b c = o.evaluate d b c'
  | .context, _, hnode => by rw [Origin.evaluate, Origin.evaluate, hnode.resolve_left id]
  | .root, _, _ => rfl
  | .nodes start, h, hnode => by rw [Origin.evaluate, Origin.evaluate, start.evaluate_agree h hnode]

theorem evaluateAll_agree : ∀ es : List Expr, NoneCounts (outerCallsOfAll es) → AllNodeFree es ∨ c.node = c'.node →
    evaluateAll d b es c = evaluateAll d b es c'
  | [], _, _ => rfl
  | e :: es, h, hnode => by
    obtain ⟨he, hes⟩ := List.forall_mem_append.mp h
    rw [evaluateAll, evaluateAll, e.evaluate_agree he (hnode.imp_left And.left),
      evaluateAll_agree es hes (hnode.imp_left And.right)]

end

/-- An expression that does not ask for its position has one value at a node, wherever the node stands. -/
theorem Expr.evaluate_congr (hnode : c.node = c'.node) (e : Expr) (h : NoneCounts e.outerCalls) :
    e.evaluate d b c = e.evaluate d b c' :=
  e.evaluate_agree h (Or.inr hnode)

end

/-- An expression that calls `position` and `last` in predicates only does not see where its node stands among how
    many. When outside of predicates each of its location paths starts from the document node or from another
    expression, and no function takes the context node, it does not see the node either. -/
theorem evaluate_anywhere (d : Document) (b : Bindings) (e : Expr) (h : NoneCounts e.outerCalls) :
    (∀ n i k i' k', e.evaluate d b ⟨n, i, k⟩ = e.evaluate d b ⟨n, i', k'⟩) ∧
      (e.NodeFree → ∀ c c', e.evaluate d b c = e.evaluate d b c') := by
  refine ⟨fun n i k i' k' => ?_, fun hfree c c' => ?_⟩
  · exact e.evaluate_agree h (Or.inr rfl)
  · exact e.evaluate_agree h (Or.inl hfree)

/-- `string((//*)[last()]/attribute::*[string()])` -/
def lastAttributeExpr : Expr :=
  .call ⟨none, "string"⟩ [.path
    (.nodes (.filter (.path .root [.anyBelow, ⟨.child, .any, []⟩]) [.call ⟨none, "last"⟩ []]))
    [⟨.attribute, .any, [.call ⟨none, "string"⟩ []]⟩]]

/-- In `<a><b/><b x="1"/></a>`, seen from the document node and from the attribute. -/
theorem evaluate_anywhere_lastAttribute :
    NoneCounts lastAttributeExpr.outerCalls ∧ lastAttributeExpr.NodeFree ∧
      lastAttributeExpr.evaluate kinDocument .empty ⟨.root, 1, 1⟩ = .ok (.string "1") ∧
      lastAttributeExpr.evaluate kinDocument .empty ⟨.root, 1, 1⟩ =
        lastAttributeExpr.evaluate kinDocument .empty ⟨.root, 2, 3⟩ ∧
      lastAttributeExpr.evaluate kinDocument .empty ⟨.root, 1, 1⟩ =
        lastAttributeExpr.evaluate kinDocument .empty ⟨⟨[1, 0], some 0⟩, 2, 3⟩ := by
  have hcalls : NoneCounts lastAttributeExpr.outerCalls := by
    simp [NoneCounts, lastAttributeExpr, Expr.outerCalls, outerCallsOfAll, Origin.outerCalls, QName.text]
  have hfree : lastAttributeExpr.NodeFree := by
    simp [lastAttributeExpr, Expr.NodeFree, AllNodeFree, Origin.NodeFree]
  obtain ⟨hplace, hnode⟩ := evaluate_anywhere kinDocument .empty lastAttributeExpr hcalls
  exact ⟨hcalls, hfree, by decide +kernel, hplace _ _ _ _ _, hnode hfree _ _⟩

/-- Without an argument, `string` speaks about the context node. -/
example : ¬(Expr.call ⟨none, "string"⟩ []).NodeFree := fun h => h.1 rfl (by decide)

end XmlMapping.XPath
