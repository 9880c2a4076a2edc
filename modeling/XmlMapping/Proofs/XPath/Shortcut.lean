import XmlMapping.Proofs.Document.Kin
import XmlMapping.Proofs.XPath.PositionFree

/-! # The descendant shortcut

Two slashes stand for a step to a node and everything below it, from where the next step goes on to children. The
children of all these nodes are what is below the first one, so one step to the descendants finds the same nodes,
as long as no predicate counts: the two steps count the children of each parent, the one step all descendants. -/

namespace XmlMapping.XPath
variable {d : Document} {b : Bindings} {test : NodeTest} {axis : Axis} {n x : Node}

/-! ### Steps without predicates -/

theorem Step.reach_bare (axis : Axis) (test : NodeTest) (n : Node) : Step.reach d b ⟨axis, test, []⟩ n =
    (test.namespaceUri? b).map fun uri =>
      axis.arranged ((axis.nodes d n).filter fun m => test.admits d axis.principal uri m) := by
  rw [reach_eq, counted, NodeTest.filter]
  cases test.namespaceUri? b <;> rfl

theorem Step.reach_bare_ok_iff : (∃ found, Step.reach d b ⟨axis, test, []⟩ n = .ok found) ↔
    ∃ uri, test.namespaceUri? b = .ok uri := by
  rw [reach_bare]
  cases test.namespaceUri? b <;> simp [Except.map]

theorem Step.mem_reach_bare_iff : (∃ found, Step.reach d b ⟨axis, test, []⟩ n = .ok found ∧ x ∈ found) ↔
    x ∈ axis.nodes d n ∧ ∃ uri, test.namespaceUri? b = .ok uri ∧ test.admits d axis.principal uri x := by
  rw [reach_bare]
  cases test.namespaceUri? b <;> simp [Except.map, Axis.mem_arranged]

theorem Step.reach_anyBelow (n : Node) : Step.anyBelow.reach d b n = .ok (n :: d.descendants n) := by
  have hall : ∀ ms : List Node, (ms.filter fun m => (NodeTest.kind .node).admits d .element none m) = ms := fun ms => by
    simp [NodeTest.admits, KindTest.kind?]
  rw [anyBelow, reach_bare]
  exact congrArg Except.ok (hall (n :: d.descendants n))

/-! ### The children of everything below -/

theorem sameOutcome_follow_descendant (test : NodeTest) (ns : List Node) :
    SameOutcome (follow d b [.anyBelow, ⟨.child, test, []⟩] ns) (follow d b [⟨.descendant, test, []⟩] ns) := by
  obtain ⟨all, hall⟩ := gather_ok_iff.mpr fun n (_ : n ∈ ns) => ⟨_, Step.reach_anyBelow (d := d) (b := b) n⟩
  have hmem : ∀ m, m ∈ all ↔ ∃ n ∈ ns, m = n ∨ m ∈ d.descendants n := fun m => by
    simp [mem_gather_nil hall, Step.reach_anyBelow]
  have hchild : follow d b [.anyBelow, ⟨.child, test, []⟩] ns = gather (Step.reach d b ⟨.child, test, []⟩) [] all := by
    rw [follow, hall]
    exact follow_one _ all
  rw [hchild, follow_one]
  refine sameOutcome_of_ordered (fun out => ordered_gather_nil fun _ _ => Step.ordered_reach)
    (fun out => ordered_gather_nil fun _ _ => Step.ordered_reach) ?_ fun out out' hout hout' x => ?_
  · -- Both searches fail when the prefix of the test is not bound, if there is a node to start from.
    simp only [gather_ok_iff, Step.reach_bare_ok_iff]
    constructor
    · intro h n hn
      exact h n ((hmem n).mpr ⟨n, hn, Or.inl rfl⟩)
    · intro h m hm
      obtain ⟨n, hn, -⟩ := (hmem m).mp hm
      exact h n hn
  · simp only [mem_gather_nil hout, mem_gather_nil hout', Step.mem_reach_bare_iff, hmem]
    constructor
    · rintro ⟨m, ⟨n, hn, hm⟩, hx, htest⟩
      exact ⟨n, hn, Document.mem_descendants_iff_children.mpr ⟨m, hm, hx⟩, htest⟩
    · rintro ⟨n, hn, hx, htest⟩
      obtain ⟨m, hm, hx⟩ := Document.mem_descendants_iff_children.mp hx
      exact ⟨m, ⟨n, hn, hm⟩, hx, htest⟩

/-- A step to the node and everything below it and a step from there to children lead to the same nodes as one step
    to the descendants, with the same node test and the same predicates, none of which asks for its position: from
    any nodes, attributes and the document node included, and anywhere in a location path. -/
theorem descendant_shortcut (d : Document) (b : Bindings) (test : NodeTest) {ps : List Expr}
    (hps : ∀ p ∈ ps, p.PositionFree) :
    (∀ ns, SameOutcome (follow d b [.anyBelow, ⟨.child, test, ps⟩] ns) (follow d b [⟨.descendant, test, ps⟩] ns)) ∧
    ∀ o ss ts c, SameOutcome ((Expr.path o (ss ++ .anyBelow :: ⟨.child, test, ps⟩ :: ts)).evaluate d b c)
      ((Expr.path o (ss ++ ⟨.descendant, test, ps⟩ :: ts)).evaluate d b c) := by
  have hsteps : ∀ ns, SameOutcome (follow d b [.anyBelow, ⟨.child, test, ps⟩] ns)
      (follow d b [⟨.descendant, test, ps⟩] ns) := fun ns => by
    have hleft := sameOutcome_follow_narrow (d := d) (b := b) hps [.anyBelow] ⟨.child, test, []⟩ ns
    have hright := sameOutcome_follow_narrow (d := d) (b := b) hps [] ⟨.descendant, test, []⟩ ns
    have hbare := (sameOutcome_follow_descendant (d := d) (b := b) test ns).bind fun kept => .refl (keepAll d b ps kept)
    exact (hleft.trans hbare).trans hright.symm
  refine ⟨hsteps, fun o ss ts c => ?_⟩
  rw [Expr.evaluate_path, Expr.evaluate_path]
  refine SameOutcome.map _ ((SameOutcome.refl _).bind fun start => ?_)
  rw [follow_append, follow_append]
  refine (SameOutcome.refl _).bind fun ms => ?_
  have hleft := follow_append (d := d) (b := b) [.anyBelow, ⟨.child, test, ps⟩] ts ms
  have hright := follow_append (d := d) (b := b) [⟨.descendant, test, ps⟩] ts ms
  rw [List.cons_append, List.singleton_append] at hleft
  rw [List.singleton_append] at hright
  rw [hleft, hright]
  exact (hsteps ms).bind fun found => .refl _

/-- The two steps are what two slashes before a name stand for. -/
example : Expr.parse "//b" = .ok (.path .root [.anyBelow, ⟨.child, .name ⟨none, "b"⟩, []⟩]) := by
  with_unfolding_all rfl

/-- `<a><b><c><b/></c></b><b/></a>` -/
def nestedDocument : Document :=
  ⟨[.element ⟨⟨none, "a"⟩, [], []⟩
    [.element ⟨⟨none, "b"⟩, [], []⟩
      [.element ⟨⟨none, "c"⟩, [], []⟩ [.element ⟨⟨none, "b"⟩, [], []⟩ []]],
      .element ⟨⟨none, "b"⟩, [], []⟩ []]]⟩

/-- `ancestor::c[last()]` -/
def withinExpr : Expr :=
  .path .context [⟨.ancestor, .name ⟨none, "c"⟩, [.call ⟨none, "last"⟩ []]⟩]

/-- `//b[ancestor::c[last()]]` leads to the `b` in `c`, and so does `/descendant::b[ancestor::c[last()]]`. -/
theorem descendant_shortcut_nested :
    (∀ p ∈ [withinExpr], p.PositionFree) ∧
      follow nestedDocument .empty [.anyBelow, ⟨.child, .name ⟨none, "b"⟩, [withinExpr]⟩] [.root] =
        .ok [.ofPath [0, 0, 0, 0]] ∧
      SameOutcome (follow nestedDocument .empty [.anyBelow, ⟨.child, .name ⟨none, "b"⟩, [withinExpr]⟩] [.root])
        (follow nestedDocument .empty [⟨.descendant, .name ⟨none, "b"⟩, [withinExpr]⟩] [.root]) := by
  have hps : ∀ p ∈ [withinExpr], p.PositionFree := by
    rintro p (_ | ⟨_, ⟨⟩⟩)
    exact ⟨by decide, nofun⟩
  exact ⟨hps, by decide +kernel, (descendant_shortcut nestedDocument .empty (.name ⟨none, "b"⟩) hps).1 [.root]⟩

/-- A predicate that counts sees the difference: each of the two `b` is the last child `b` of its parent, but only
    one is the last of all. -/
example :
    follow nestedDocument .empty [.anyBelow, ⟨.child, .name ⟨none, "b"⟩, [.call ⟨none, "last"⟩ []]⟩] [.root] =
        .ok [.ofPath [0, 0, 0, 0], .ofPath [1, 0]] ∧
      follow nestedDocument .empty [⟨.descendant, .name ⟨none, "b"⟩, [.call ⟨none, "last"⟩ []]⟩] [.root] =
        .ok [.ofPath [1, 0]] := by
  decide +kernel

end XmlMapping.XPath
