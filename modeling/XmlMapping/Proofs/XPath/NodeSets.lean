import XmlMapping.Proofs.XPath.Typing

/-! # Node-sets

The nodes that an expression gives stand in document order, each once, and belong to the document of the
context node, whatever the expression. So selecting them sorts nothing and drops nothing, and the first of
them is the least one: the functions that take the first node of an argument and those that take the
least one speak about the same node. -/

namespace XmlMapping.XPath

variable {d : Document} {b : Bindings}

theorem Function.result_ne_nodeSet (f : Function) : f.result ≠ .nodeSet := by
  cases f <;> decide

/-! ### The invariant -/

theorem Origin.ordered_evaluate {o : Origin} {c : Context} {start : List Node}
    (h : o.evaluate d b c = .ok start) : Ordered start := by
  cases o with
  | context =>
    obtain rfl := Except.ok.inj h
    exact List.pairwise_singleton _ _
  | root =>
    obtain rfl := Except.ok.inj h
    exact List.pairwise_singleton _ _
  | nodes e =>
    simp only [Origin.evaluate, except_bind_eq_ok] at h
    obtain ⟨_, -, ns, -, h⟩ := h
    obtain rfl := Except.ok.inj h
    exact ordered_inDocumentOrder ns

/-- Each part that gives node-sets orders its own: steps by putting together, the others at the start. -/
theorem Expr.ordered_evaluate {e : Expr} {c : Context} {ns : List Node}
    (h : e.evaluate d b c = .ok (.nodes ns)) : Ordered ns := by
  have ht := Expr.type?_of_evaluate h
  cases e with
  | path origin steps =>
    simp only [Expr.evaluate, except_bind_eq_ok] at h
    obtain ⟨start, hstart, found, hfound, h⟩ := h
    cases Except.ok.inj h
    exact ordered_follow (Origin.ordered_evaluate hstart) hfound
  | filter base predicates =>
    simp only [Expr.evaluate, except_bind_eq_ok] at h
    obtain ⟨_, -, ms, -, kept, hkept, h⟩ := h
    cases Except.ok.inj h
    exact List.Pairwise.sublist (keepAll_sublist hkept) (ordered_inDocumentOrder ms)
  | call function args =>
    obtain ⟨f, -, hf⟩ := Option.map_eq_some_iff.mp ht
    exact absurd hf f.result_ne_nodeSet
  | binary op left right =>
    simp only [Expr.evaluate, except_bind_eq_ok] at h
    obtain ⟨l, -, r, -, h⟩ := h
    cases op with
    | union =>
      obtain ⟨ms, ms', -, -, h⟩ := Value.union_eq_ok h
      cases h
      exact ordered_mergeInOrder (ordered_inDocumentOrder ms) (ordered_inDocumentOrder ms')
    | _ => cases ht
  | _ => cases ht

mutual

theorem Expr.holds_of_mem_evaluate {c : Context} (hc : d.Holds c.node) : ∀ (e : Expr) {ns : List Node},
    e.evaluate d b c = .ok (.nodes ns) → ∀ n ∈ ns, d.Holds n
  | .path origin steps, ns, h => by
    simp only [Expr.evaluate, except_bind_eq_ok] at h
    obtain ⟨start, hstart, found, hfound, h⟩ := h
    cases Except.ok.inj h
    exact holds_of_mem_follow (origin.holds_of_mem_evaluate hc hstart) hfound
  | .filter base predicates, ns, h => by
    simp only [Expr.evaluate, except_bind_eq_ok] at h
    obtain ⟨v, hv, ms, hms, kept, hkept, h⟩ := h
    cases Except.ok.inj h
    obtain rfl := Value.toNodes_eq_ok.mp hms
    intro n hn
    exact base.holds_of_mem_evaluate hc hv n (mem_inDocumentOrder.mp ((keepAll_sublist hkept).subset hn))
  | .call function args, ns, h => by
    obtain ⟨f, -, hf⟩ := Option.map_eq_some_iff.mp (Expr.type?_of_evaluate h)
    exact absurd hf f.result_ne_nodeSet
  | .binary op left right, ns, h => by
    have ht := Expr.type?_of_evaluate h
    simp only [Expr.evaluate, except_bind_eq_ok] at h
    obtain ⟨l, hl, r, hr, h⟩ := h
    cases op with
    | union =>
      obtain ⟨ms, ms', rfl, rfl, h⟩ := Value.union_eq_ok h
      cases h
      intro n hn
      rcases mem_mergeInOrder.mp hn with hn | hn
      · exact left.holds_of_mem_evaluate hc hl n (mem_inDocumentOrder.mp hn)
      · exact right.holds_of_mem_evaluate hc hr n (mem_inDocumentOrder.mp hn)
    | _ => cases ht
  | .literal _, _, h => by cases Expr.type?_of_evaluate h
  | .number _, _, h => by cases Expr.type?_of_evaluate h
  | .negate _, _, h => by cases Expr.type?_of_evaluate h

theorem Origin.holds_of_mem_evaluate {c : Context} (hc : d.Holds c.node) : ∀ (o : Origin) {start : List Node},
    o.evaluate d b c = .ok start → ∀ n ∈ start, d.Holds n
  | .context, _, h => by
    obtain rfl := Except.ok.inj h
    simpa using hc
  | .root, _, h => by
    obtain rfl := Except.ok.inj h
    simpa using Document.holds_root
  | .nodes e, _, h => by
    simp only [Origin.evaluate, except_bind_eq_ok] at h
    obtain ⟨v, hv, ns, hns, h⟩ := h
    cases Except.ok.inj h
    obtain rfl := Value.toNodes_eq_ok.mp hns
    intro n hn
    exact e.holds_of_mem_evaluate hc hv n (mem_inDocumentOrder.mp hn)

end

/-! ### The node that functions speak about -/

/-- The functions that speak about one node of their argument speak about this one, or about none, when
    they are called with an expression. -/
structure SpeakOf (d : Document) (b : Bindings) (c : Context) (e : Expr) (n : Option Node) : Prop where
  string : (Expr.call ⟨none, "string"⟩ [e]).evaluate d b c = .ok (.string ((n.map d.stringValue).getD ""))
  number : (Expr.call ⟨none, "number"⟩ [e]).evaluate d b c =
    .ok (.number ((n.map fun m => numberOf (d.stringValue m)).getD .nan))
  name : (Expr.call ⟨none, "name"⟩ [e]).evaluate d b c = .ok (.string ((n.map d.qualifiedName).getD ""))
  localName : (Expr.call ⟨none, "local-name"⟩ [e]).evaluate d b c = .ok (.string ((n.map d.localName).getD ""))
  namespaceUri : (Expr.call ⟨none, "namespace-uri"⟩ [e]).evaluate d b c =
    .ok (.string ((n.map d.namespaceUri).getD ""))

theorem Expr.evaluate_call_one {c : Context} {e : Expr} {v : Value} {name : String} {f : Function}
    (hf : Function.ofName? name = some f) (hn : f.arity.admits 1) (h : e.evaluate d b c = .ok v) :
    (Expr.call ⟨none, name⟩ [e]).evaluate d b c = f.applyTo d c [v] := by
  have hargs : evaluateAll d b [e] c = .ok [v] := by
    rw [evaluateAll, h]
    rfl
  rw [Expr.evaluate, hargs]
  show Function.call d c name [v] = _
  rw [Function.call, hf]
  exact if_pos hn

theorem speakOf_head? {c : Context} {e : Expr} {ns : List Node} (h : e.evaluate d b c = .ok (.nodes ns)) :
    SpeakOf d b c e ns.head? := by
  have hfirst := (Expr.ordered_evaluate h).firstInOrder?_eq
  constructor
  · rw [Expr.evaluate_call_one rfl rfl h]
    cases ns <;> rfl
  · rw [Expr.evaluate_call_one rfl rfl h]
    cases ns <;> rfl
  · rw [Expr.evaluate_call_one rfl rfl h, ← hfirst]
    rfl
  · rw [Expr.evaluate_call_one rfl rfl h, ← hfirst]
    rfl
  · rw [Expr.evaluate_call_one rfl rfl h, ← hfirst]
    rfl

/-! ### Selection -/

theorem Expr.select_eq (d : Document) (b : Bindings) (e : Expr) (n : Node) :
    e.select d b n = e.valueAt d b n >>= Value.toNodes := by
  rw [Expr.select]
  cases hv : e.valueAt d b n with
  | error err => rfl
  | ok v =>
    cases v with
    | nodes ns =>
      simp only [Expr.valueAt, except_bind_eq_ok] at hv
      obtain ⟨-, -, hv⟩ := hv
      show Except.ok (inDocumentOrder ns) = Except.ok ns
      rw [(Expr.ordered_evaluate hv).inDocumentOrder_eq]
    | _ => rfl

/-- The node-set of an expression stands in document order, each node once, and belongs to the document of
    the context node. Selection returns it as it is, and the functions on one node speak about its first. -/
theorem evaluate_canonical {e : Expr} {c : Context} {ns : List Node} (hc : d.Holds c.node)
    (h : e.evaluate d b c = .ok (.nodes ns)) :
    Ordered ns ∧ (∀ n ∈ ns, d.Holds n) ∧ (∀ n, e.select d b n = e.valueAt d b n >>= Value.toNodes) ∧
      SpeakOf d b c e ns.head? :=
  ⟨Expr.ordered_evaluate h, e.holds_of_mem_evaluate hc h, Expr.select_eq d b e, speakOf_head? h⟩

/-- `<a><b/><b x="1"/></a>` -/
def kinDocument : Document :=
  ⟨[.element ⟨⟨none, "a"⟩, [], []⟩
    [.element ⟨⟨none, "b"⟩, [], []⟩ [], .element ⟨⟨none, "b"⟩, [], [⟨⟨none, "x"⟩, "1"⟩]⟩ []]]⟩

/-- `//*/ancestor-or-self::* | //*/attribute::*`, where `a` is an ancestor of both `b`. -/
def kinExpr : Expr :=
  .binary .union
    (.path .root [.anyBelow, ⟨.child, .any, []⟩, ⟨.ancestorOrSelf, .any, []⟩])
    (.path .root [.anyBelow, ⟨.child, .any, []⟩, ⟨.attribute, .any, []⟩])

/-- The elements of the document and the attribute. -/
def kinNodes : List Node :=
  [.ofPath [0], .ofPath [0, 0], .ofPath [1, 0], ⟨[1, 0], some 0⟩]

theorem evaluate_canonical_kin :
    kinDocument.Holds Node.root ∧
      kinExpr.evaluate kinDocument .empty ⟨.root, 1, 1⟩ = .ok (.nodes kinNodes) ∧
      Ordered kinNodes ∧ (∀ n ∈ kinNodes, kinDocument.Holds n) ∧
      (∀ n, kinExpr.select kinDocument .empty n = kinExpr.valueAt kinDocument .empty n >>= Value.toNodes) ∧
      SpeakOf kinDocument .empty ⟨.root, 1, 1⟩ kinExpr kinNodes.head? :=
  have hc : kinDocument.Holds Node.root := kinDocument.holds_root
  have h : kinExpr.evaluate kinDocument .empty ⟨.root, 1, 1⟩ = .ok (.nodes kinNodes) := by decide +kernel
  ⟨hc, h, evaluate_canonical hc h⟩

end XmlMapping.XPath
