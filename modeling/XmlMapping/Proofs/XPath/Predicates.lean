import XmlMapping.Proofs.XPath.Composition

/-! # Predicates

The predicates of a step or filter are applied one after the other, each to the nodes that those before it have
kept. A step applies them in the order of its axis to the nodes found from one node, a filter in document order
to all nodes of its base. -/

namespace XmlMapping.XPath

variable {d : Document} {b : Bindings}

theorem keepAll_append (ps qs : List Expr) (ns : List Node) :
    keepAll d b (ps ++ qs) ns = keepAll d b ps ns >>= keepAll d b qs := by
  induction ps generalizing ns with
  | nil => rfl
  | cons p ps ih =>
    rw [List.cons_append, keepAll, keepAll, bind_assoc]
    exact bind_congr ih

theorem keepAll_singleton (p : Expr) (ns : List Node) : keepAll d b [p] ns =
    keepWhere (fun n i => (p.evaluate d b ⟨n, i, ns.length⟩).map (·.keeps i)) ns 1 := by
  rw [keepAll]
  exact bind_pure _

/-! ### Steps -/

/-- A step with further predicates after its own. -/
def Step.narrow : Step → List Expr → Step
  | ⟨axis, test, predicates⟩, further => ⟨axis, test, predicates ++ further⟩

/-- The nodes that a step leads to from one node, in the order in which its predicates count them. -/
def Step.counted (d : Document) (b : Bindings) : Step → Node → Except Error (List Node)
  | ⟨axis, test, predicates⟩, n => test.filter d b axis (axis.nodes d n) >>= keepAll d b predicates

theorem Step.reach_eq (axis : Axis) (test : NodeTest) (predicates : List Expr) (n : Node) :
    Step.reach d b ⟨axis, test, predicates⟩ n = (Step.counted d b ⟨axis, test, predicates⟩ n).map axis.arranged := by
  rw [Step.reach, counted]
  cases test.filter d b axis (axis.nodes d n) with
  | error e => rfl
  | ok tested =>
    show (keepAll d b predicates tested >>= fun kept => _) = (keepAll d b predicates tested).map axis.arranged
    cases keepAll d b predicates tested <;> rfl

theorem Step.counted_narrow (s : Step) (further : List Expr) (n : Node) :
    (s.narrow further).counted d b n = s.counted d b n >>= keepAll d b further := by
  obtain ⟨axis, test, predicates⟩ := s
  rw [narrow, counted, counted, bind_assoc]
  exact bind_congr (keepAll_append predicates further)

/-! ### Filters over location paths -/

theorem Expr.evaluate_path (o : Origin) (ss : List Step) (c : Context) : (Expr.path o ss).evaluate d b c =
    (o.evaluate d b c >>= follow d b ss).map .nodes := by
  rw [Expr.evaluate]
  cases o.evaluate d b c with
  | error e => rfl
  | ok start =>
    show (follow d b ss start >>= fun found => _) = (follow d b ss start).map Value.nodes
    cases follow d b ss start <;> rfl

/-- A filter over a location path applies its predicates to the nodes that the path leads to. -/
theorem Expr.evaluate_filter_path (o : Origin) (ss : List Step) (ps : List Expr) (c : Context) :
    (Expr.filter (.path o ss) ps).evaluate d b c =
      ((o.evaluate d b c >>= follow d b ss) >>= keepAll d b ps).map .nodes := by
  rw [Expr.evaluate, Expr.evaluate_path]
  cases hfound : o.evaluate d b c >>= follow d b ss with
  | error e => rfl
  | ok found =>
    have hordered : Ordered found := by
      obtain ⟨start, hstart, hfollow⟩ := except_bind_eq_ok.mp hfound
      exact ordered_follow (Origin.ordered_evaluate hstart) hfollow
    show (keepAll d b ps (inDocumentOrder found) >>= fun kept => _) = (keepAll d b ps found).map Value.nodes
    rw [hordered.inDocumentOrder_eq]
    cases keepAll d b ps found <;> rfl

end XmlMapping.XPath
