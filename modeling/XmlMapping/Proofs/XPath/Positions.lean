import XmlMapping.Proofs.Number.Whole
import XmlMapping.Proofs.XPath.Direction
import XmlMapping.Proofs.XPath.Predicates

/-! # Positions

A predicate whose value is a number asks for the node at that position. A step counts the nodes of a backward axis
from the nearest one, which is the last in document order; parentheses around the path put its nodes in document
order first, so that a predicate after them counts from the first one on every axis. -/

namespace XmlMapping.XPath

variable {d : Document} {b : Bindings} {axis : Axis} {test : NodeTest} {p : Expr} {v : Number}

/-! ### Nodes that pass a node test -/

/-- The nodes of an axis that pass a node test, in document order. The test asks for a name in the given
    namespace, if for one. -/
structure Passing (d : Document) (axis : Axis) (test : NodeTest) (uri : Option String) (n : Node)
    (ns : List Node) : Prop where
  ordered : Ordered ns
  mem : ∀ m, m ∈ ns ↔ m ∈ axis.nodes d n ∧ test.admits d axis.principal uri m

section
variable {uri : Option String} {n : Node} {ns : List Node}

theorem Axis.ordered_arranged_filter (axis : Axis) (keep : Node → Bool) (d : Document) (n : Node) :
    Ordered (axis.arranged ((axis.nodes d n).filter keep)) := by
  rw [← axis.filter_arranged]
  exact List.Pairwise.filter keep axis.ordered_nodes

theorem Passing.arranged_filter (d : Document) (axis : Axis) (test : NodeTest) (uri : Option String) (n : Node) :
    Passing d axis test uri n
      (axis.arranged ((axis.nodes d n).filter fun m => test.admits d axis.principal uri m)) where
  ordered := axis.ordered_arranged_filter _ d n
  mem m := by rw [Axis.mem_arranged, List.mem_filter]

theorem Passing.filter_eq (h : Passing d axis test uri n ns) (huri : test.namespaceUri? b = .ok uri) :
    test.filter d b axis (axis.nodes d n) = .ok (axis.arranged ns) := by
  have harranged := Passing.arranged_filter d axis test uri n
  have hns : ns = axis.arranged ((axis.nodes d n).filter fun m => test.admits d axis.principal uri m) :=
    h.ordered.eq_of_mem_iff harranged.ordered fun m => (h.mem m).trans (harranged.mem m).symm
  rw [NodeTest.filter, huri, hns, Axis.arranged_arranged]
  rfl

theorem Axis.arranged_of_forward (haxis : axis ∈ forwardAxes) (ns : List Node) : axis.arranged ns = ns := by
  rw [arranged, isReverse_of_forward axis haxis, if_neg Bool.false_ne_true]

/-- The one node that the parent axis can lead to is the same from either end. -/
theorem Passing.arranged_of_backward (h : Passing d axis test uri n ns) (haxis : axis ∈ .parent :: backwardAxes) :
    axis.arranged ns = ns.reverse := by
  rcases List.mem_cons.mp haxis with rfl | haxis
  · have hparent : ∀ m ∈ ns, n.parent? = some m := fun m hm => Option.mem_toList.mp ((h.mem m).mp hm).1
    match ns, h.ordered, hparent with
    | [], _, _ => rfl
    | [m], _, _ => rfl
    | m :: m' :: ms, hordered, hparent =>
      have hbefore : m.before m' := List.rel_of_pairwise_cons hordered (List.mem_cons_self ..)
      have hm := hparent m (List.mem_cons_self ..)
      have hm' := hparent m' (List.mem_cons_of_mem m (List.mem_cons_self ..))
      obtain rfl := Option.some.inj (hm.symm.trans hm')
      exact absurd hbefore (Node.before_irrefl m)
  · rw [Axis.arranged, isReverse_of_backward axis haxis, if_pos rfl]

end

/-! ### Predicates that ask for a position -/

/-- A predicate asks for the position of a number when the number is its value, whatever the context. -/
def Expr.Asks (d : Document) (b : Bindings) (p : Expr) (v : Number) : Prop :=
  ∀ c, p.evaluate d b c = .ok (.number v)

/-- The predicate that asks for the last position. -/
def Expr.last : Expr :=
  .call ⟨none, "last"⟩ []

theorem Expr.asks_number (v : Number) : (Expr.number v).Asks d b v :=
  fun _ => rfl

theorem Expr.evaluate_last (c : Context) : Expr.last.evaluate d b c = .ok (.number (.ofNat c.size)) :=
  rfl

/-- A test that asks for one position keeps the node there, if there is one. -/
theorem keepWhere_position {keep : Node → Nat → Except Error Bool} {k : Nat} {ns : List Node} {i : Nat}
    (h : ∀ n j, i ≤ j → j < i + ns.length → keep n j = .ok (decide (j = k))) :
    keepWhere keep ns i = .ok (if i ≤ k then ns[k - i]? else none).toList := by
  induction ns generalizing i with
  | nil => simp [keepWhere]
  | cons n ns ih =>
    have hrest : keepWhere keep ns (i + 1) = .ok (if i + 1 ≤ k then ns[k - (i + 1)]? else none).toList :=
      ih fun m j hj hlt => h m j (by omega) (by rw [List.length_cons]; omega)
    rw [keepWhere, h n i (Nat.le_refl i) (by rw [List.length_cons]; omega), hrest]
    refine congrArg Except.ok ?_
    rcases Nat.lt_trichotomy i k with hlt | rfl | hgt
    · have hindex : k - i = k - (i + 1) + 1 := by omega
      simp [Nat.ne_of_lt hlt, Nat.le_of_lt hlt, Nat.succ_le_of_lt hlt, hindex]
    · simp
    · simp [Nat.ne_of_gt hgt, Nat.not_le_of_gt hgt, Nat.not_le_of_gt (Nat.lt_succ_of_lt hgt)]

/-- A predicate whose value is the same number for all nodes keeps the one at the position that the number is. -/
theorem keepAll_number {ns : List Node} {k : Nat} (hsize : ns.length < 2 ^ 53)
    (hp : ∀ n i, p.evaluate d b ⟨n, i, ns.length⟩ = .ok (.number v))
    (hv : ∀ i, 0 < i → i < 2 ^ 53 → (v = .ofNat i ↔ i = k)) :
    keepAll d b [p] ns = .ok (if 1 ≤ k then ns[k - 1]? else none).toList := by
  rw [keepAll_singleton]
  refine keepWhere_position fun n i hi hlt => ?_
  have hpos : i < 2 ^ 53 := by omega
  rw [hp]
  refine congrArg Except.ok (Bool.eq_iff_iff.mpr ?_)
  rw [decide_eq_true_iff, ← hv i hi hpos]
  exact Number.equals_ofNat_iff hi hpos

/-- A predicate keeps at most one node of a list, the one that is chosen by its place. -/
def Expr.Picks (d : Document) (b : Bindings) (p : Expr) (choose : List Node → Option Node) : Prop :=
  ∀ ns, ns.length < 2 ^ 53 → keepAll d b [p] ns = .ok (choose ns).toList

theorem Expr.picks_position {k : Nat} (hk : 0 < k) (hp : p.Asks d b (.ofNat k)) : p.Picks d b (·[k - 1]?) := by
  intro ns hsize
  have hkeep := keepAll_number hsize (fun n i => hp ⟨n, i, ns.length⟩) fun i _ hi =>
    eq_comm.trans (Number.ofNat_inj hi)
  rwa [if_pos (Nat.succ_le_of_lt hk)] at hkeep

theorem Expr.picks_none (hv : ∀ k, 0 < k → k < 2 ^ 53 → v ≠ .ofNat k) (hp : p.Asks d b v) :
    p.Picks d b fun _ => none := by
  intro ns hsize
  exact keepAll_number (k := 0) hsize (fun n i => hp ⟨n, i, ns.length⟩) fun i hpos hi =>
    iff_of_false (hv i hpos hi) (Nat.ne_of_gt hpos)

theorem Expr.picks_last : Expr.last.Picks d b List.getLast? := by
  intro ns hsize
  have hlast : ∀ n i, Expr.last.evaluate d b ⟨n, i, ns.length⟩ = .ok (.number (.ofNat ns.length)) := fun n i =>
    evaluate_last ⟨n, i, ns.length⟩
  have hkeep := keepAll_number hsize hlast fun i _ hi => eq_comm.trans (Number.ofNat_inj hi)
  rw [hkeep, List.getLast?_eq_getElem?]
  cases ns with
  | nil => rfl
  | cons n ns =>
    have hpos : 1 ≤ (n :: ns).length := Nat.succ_pos _
    rw [if_pos hpos]

/-! ### Inside a step and after it -/

/-- A step with the predicate, `axis::test[p]`. -/
def Expr.inStep (axis : Axis) (test : NodeTest) (p : Expr) : Expr :=
  .path .context [⟨axis, test, [p]⟩]

/-- A step in parentheses with the predicate after them, `(axis::test)[p]`. -/
def Expr.afterStep (axis : Axis) (test : NodeTest) (p : Expr) : Expr :=
  .filter (.path .context [⟨axis, test, []⟩]) [p]

/-- An expression finds the nodes of a list. -/
def Expr.Finds (d : Document) (b : Bindings) (c : Context) (e : Expr) (ns : List Node) : Prop :=
  e.evaluate d b c = .ok (.nodes ns)

section
variable {uri : Option String} {c : Context} {ns : List Node} {choose : List Node → Option Node}

theorem Expr.finds_inStep (huri : test.namespaceUri? b = .ok uri) (h : Passing d axis test uri c.node ns)
    (hsize : ns.length < 2 ^ 53) (hp : p.Picks d b choose) :
    (Expr.inStep axis test p).Finds d b c (choose (axis.arranged ns)).toList := by
  have hlength : (axis.arranged ns).length < 2 ^ 53 := by rwa [Axis.length_arranged]
  have hpicked : axis.arranged (choose (axis.arranged ns)).toList = (choose (axis.arranged ns)).toList := by
    unfold Axis.arranged
    cases choose (if axis.isReverse then ns.reverse else ns) <;> split <;> rfl
  have hfollow : follow d b [⟨axis, test, [p]⟩] [c.node] = .ok (choose (axis.arranged ns)).toList := by
    rw [follow_singleton, Step.reach_eq, Step.counted, h.filter_eq huri]
    show (keepAll d b [p] (axis.arranged ns)).map axis.arranged >>= follow d b [] = _
    rw [hp _ hlength]
    exact congrArg Except.ok hpicked
  rw [Finds, inStep, Expr.evaluate_path]
  show (follow d b [⟨axis, test, [p]⟩] [c.node]).map Value.nodes = _
  rw [hfollow]
  rfl

theorem Expr.finds_afterStep (huri : test.namespaceUri? b = .ok uri) (h : Passing d axis test uri c.node ns)
    (hsize : ns.length < 2 ^ 53) (hp : p.Picks d b choose) :
    (Expr.afterStep axis test p).Finds d b c (choose ns).toList := by
  have hfollow : follow d b [⟨axis, test, []⟩] [c.node] = .ok ns := by
    rw [follow_singleton, Step.reach_eq, Step.counted, h.filter_eq huri]
    exact congrArg Except.ok (axis.arranged_arranged ns)
  rw [Finds, afterStep, Expr.evaluate_filter_path]
  show (follow d b [⟨axis, test, []⟩] [c.node] >>= keepAll d b [p]).map Value.nodes = _
  rw [hfollow]
  show (keepAll d b [p] ns).map Value.nodes = _
  rw [hp ns hsize]
  rfl

/-- A predicate that asks for a position is met by the node that comes at this place when the nodes of the axis
    that pass the node test are counted: in a step in document order for a forward axis and from the end for a
    backward one, after a step in parentheses in document order for every axis. The parent axis, which leads to one
    node at most, counts either way. Without such a node nothing is found. The last node is the one where counting
    ends, so for a backward axis the first one in the step is the last one after it, and the other way round. A
    number that is no position finds nothing. -/
theorem numeric_predicates (d : Document) (axis : Axis) (c : Context) (huri : test.namespaceUri? b = .ok uri) :
    (axis ∈ forwardAxes ∨ axis ∈ backwardAxes) ∧ (∃ ns, Passing d axis test uri c.node ns) ∧
      ∀ ns, Passing d axis test uri c.node ns → ns.length < 2 ^ 53 →
        (∀ k p, 0 < k → p.Asks d b (.ofNat k) →
          (axis ∈ forwardAxes → (Expr.inStep axis test p).Finds d b c ns[k - 1]?.toList) ∧
          (axis ∈ .parent :: backwardAxes → (Expr.inStep axis test p).Finds d b c ns.reverse[k - 1]?.toList) ∧
          (Expr.afterStep axis test p).Finds d b c ns[k - 1]?.toList ∧
          (ns.length < k →
            (Expr.inStep axis test p).Finds d b c [] ∧ (Expr.afterStep axis test p).Finds d b c [])) ∧
        (axis ∈ forwardAxes → (Expr.inStep axis test .last).Finds d b c ns.getLast?.toList) ∧
        (axis ∈ .parent :: backwardAxes → (Expr.inStep axis test .last).Finds d b c ns.head?.toList) ∧
        (Expr.afterStep axis test .last).Finds d b c ns.getLast?.toList ∧
        (axis ∈ .parent :: backwardAxes → ∀ p, p.Asks d b (.ofNat 1) →
          (Expr.inStep axis test p).evaluate d b c = (Expr.afterStep axis test .last).evaluate d b c ∧
          (Expr.inStep axis test .last).evaluate d b c = (Expr.afterStep axis test p).evaluate d b c) ∧
        ∀ v p, (∀ k, 0 < k → k < 2 ^ 53 → v ≠ .ofNat k) → p.Asks d b v →
          (Expr.inStep axis test p).Finds d b c [] ∧ (Expr.afterStep axis test p).Finds d b c [] := by
  have hdirected : axis ∈ forwardAxes ∨ axis ∈ backwardAxes := by cases axis <;> decide
  refine ⟨hdirected, ⟨_, Passing.arranged_filter d axis test uri c.node⟩, fun ns hns hsize => ?_⟩
  have hlastIn := Expr.finds_inStep huri hns hsize Expr.picks_last
  have hlastAfter := Expr.finds_afterStep huri hns hsize Expr.picks_last
  refine ⟨fun k p hk hp => ?_, fun haxis => ?_, fun haxis => ?_, hlastAfter, fun haxis p hp => ?_,
    fun v p hv hp => ?_⟩
  · have hin := Expr.finds_inStep huri hns hsize (Expr.picks_position hk hp)
    have hafter := Expr.finds_afterStep huri hns hsize (Expr.picks_position hk hp)
    refine ⟨fun haxis => ?_, fun haxis => ?_, hafter, fun hbeyond => ?_⟩
    · rwa [Axis.arranged_of_forward haxis] at hin
    · rwa [hns.arranged_of_backward haxis] at hin
    · have hle : ns.length ≤ k - 1 := Nat.le_sub_one_of_lt hbeyond
      rw [List.getElem?_eq_none (by rwa [Axis.length_arranged])] at hin
      rw [List.getElem?_eq_none hle] at hafter
      exact ⟨hin, hafter⟩
  · rwa [Axis.arranged_of_forward haxis] at hlastIn
  · rwa [hns.arranged_of_backward haxis, List.getLast?_reverse] at hlastIn
  · have hin := Expr.finds_inStep huri hns hsize (Expr.picks_position Nat.one_pos hp)
    have hafter := Expr.finds_afterStep huri hns hsize (Expr.picks_position Nat.one_pos hp)
    rw [hns.arranged_of_backward haxis, Nat.sub_self, ← List.head?_eq_getElem?, List.head?_reverse] at hin
    rw [Nat.sub_self, ← List.head?_eq_getElem?] at hafter
    rw [hns.arranged_of_backward haxis, List.getLast?_reverse] at hlastIn
    exact ⟨hin.trans hlastAfter.symm, hlastIn.trans hafter.symm⟩
  · exact ⟨Expr.finds_inStep huri hns hsize (Expr.picks_none hv hp),
      Expr.finds_afterStep huri hns hsize (Expr.picks_none hv hp)⟩

end

/-- The context of `f` in `<a><b><c/></b><d x="1"><e/></d><f/></a>`. -/
def lastSibling : Context :=
  ⟨.ofPath [2, 0], 1, 1⟩

/-- The siblings before `f` are `b` and `d`, counted from `d` in the step and from `b` after it. There is no third
    one, and none is at position zero. -/
theorem numeric_predicates_siblings :
    (NodeTest.any.namespaceUri? .empty = .ok none ∧
      Passing directedDocument .precedingSibling .any none lastSibling.node [.ofPath [0, 0], .ofPath [1, 0]] ∧
      Axis.precedingSibling ∈ .parent :: backwardAxes ∧
      (∀ v, (Expr.number v).Asks directedDocument .empty v) ∧
      ∀ k, 0 < k → k < 2 ^ 53 → Number.ofNat 0 ≠ .ofNat k) ∧
    (Expr.inStep .precedingSibling .any (.number (.ofNat 1))).Finds directedDocument .empty lastSibling
      [.ofPath [1, 0]] ∧
    (Expr.afterStep .precedingSibling .any (.number (.ofNat 1))).Finds directedDocument .empty lastSibling
      [.ofPath [0, 0]] ∧
    (Expr.inStep .precedingSibling .any .last).Finds directedDocument .empty lastSibling [.ofPath [0, 0]] ∧
    (Expr.inStep .precedingSibling .any (.number (.ofNat 3))).Finds directedDocument .empty lastSibling [] ∧
    (Expr.afterStep .precedingSibling .any (.number (.ofNat 0))).Finds directedDocument .empty lastSibling [] := by
  have huri : NodeTest.any.namespaceUri? .empty = .ok none := rfl
  have hnodes : Axis.precedingSibling.nodes directedDocument lastSibling.node =
      [.ofPath [1, 0], .ofPath [0, 0]] := by
    decide
  have hpassing : Passing directedDocument .precedingSibling .any none lastSibling.node
      [.ofPath [0, 0], .ofPath [1, 0]] := by
    have h := Passing.arranged_filter directedDocument .precedingSibling .any none lastSibling.node
    rwa [hnodes] at h
  have hbackward : Axis.precedingSibling ∈ .parent :: backwardAxes := by decide
  have hzero : ∀ k, 0 < k → k < 2 ^ 53 → Number.ofNat 0 ≠ .ofNat k := fun k hk _ h =>
    Nat.ne_of_lt hk ((Number.ofNat_inj (by decide)).mp h)
  obtain ⟨-, -, h⟩ := numeric_predicates directedDocument .precedingSibling lastSibling huri
  obtain ⟨hposition, -, hlast, -, -, hnone⟩ := h _ hpassing (by decide)
  obtain ⟨-, hin, hafter, -⟩ := hposition 1 _ Nat.one_pos (Expr.asks_number _)
  obtain ⟨-, -, -, hbeyond⟩ := hposition 3 _ (by decide) (Expr.asks_number _)
  exact ⟨⟨huri, hpassing, hbackward, Expr.asks_number, hzero⟩, hin hbackward, hafter, hlast hbackward,
    (hbeyond (by decide)).1, (hnone _ _ hzero (Expr.asks_number _)).2⟩

end XmlMapping.XPath
