import XmlMapping.Proofs.XPath.Predicates
import XmlMapping.Proofs.XPath.Surroundings

/-! # Predicates that do not count

A predicate asks for its position when its value is a number, or when it calls `position` or `last`. Inside the
predicates of its own steps and filters these calls speak about other nodes. A predicate that does not ask for its
position keeps a node wherever the node stands, and whatever other nodes stand there. So it makes no difference
whether such predicates are applied before or after the nodes found from several nodes are put together. -/

namespace XmlMapping.XPath

/-- A predicate that does not ask for its position. -/
structure Expr.PositionFree (p : Expr) : Prop where
  noNumber : p.type? ≠ some .number
  noneCounts : NoneCounts p.outerCalls

/-! ### Predicates at one node -/

section
variable (d : Document) (b : Bindings)

/-- Whether a predicate that does not ask for its position keeps a node. -/
def Expr.holdsAt (p : Expr) (n : Node) : Except Error Bool :=
  (p.evaluate d b ⟨n, 1, 1⟩).map Value.toBoolean

/-- Whether predicates that do not ask for their position all keep a node; those after the first that drops it are
    not looked at. -/
def allHoldAt : List Expr → Node → Except Error Bool
  | [], _ => .ok true
  | p :: ps, n => do
    let kept ← p.holdsAt d b n
    if kept then allHoldAt ps n else return false

end

section
variable {d : Document} {b : Bindings}

theorem Value.keeps_of_type_ne {v : Value} (h : v.type ≠ .number) (i : Nat) : v.keeps i = v.toBoolean := by
  cases v with
  | number n => exact absurd rfl h
  | _ => rfl

theorem Expr.PositionFree.keeps_eq {p : Expr} (hp : p.PositionFree) (n : Node) (i k : Nat) :
    (p.evaluate d b ⟨n, i, k⟩).map (·.keeps i) = p.holdsAt d b n := by
  rw [holdsAt, Expr.evaluate_congr (by rfl : Context.node ⟨n, i, k⟩ = Context.node ⟨n, 1, 1⟩) p hp.noneCounts]
  cases hv : p.evaluate d b ⟨n, 1, 1⟩ with
  | error e => rfl
  | ok v =>
    have hne : v.type ≠ .number := by
      intro htype
      exact hp.noNumber (htype ▸ Expr.type?_of_evaluate hv)
    show Except.ok (v.keeps i) = Except.ok v.toBoolean
    rw [Value.keeps_of_type_ne hne]

theorem keepWhere_eq_ok_iff {test : Node → Except Error Bool} {ns kept : List Node} {i : Nat} :
    keepWhere (fun n _ => test n) ns i = .ok kept ↔
      (∀ n ∈ ns, ∃ keep, test n = .ok keep) ∧ kept = ns.filter fun n => test n = .ok true := by
  induction ns generalizing i kept with
  | nil => simp [keepWhere, eq_comm]
  | cons n ns ih =>
    simp only [keepWhere, except_bind_eq_ok, ih]
    constructor
    · rintro ⟨keep, hkeep, rest, ⟨hall, rfl⟩, h⟩
      obtain rfl := Except.ok.inj h
      refine ⟨?_, ?_⟩
      · rintro m (_ | ⟨_, hm⟩)
        · exact ⟨keep, hkeep⟩
        · exact hall m hm
      · cases keep <;> simp [hkeep]
    · rintro ⟨hall, rfl⟩
      obtain ⟨keep, hkeep⟩ := hall n List.mem_cons_self
      refine ⟨keep, hkeep, _, ⟨fun m hm => hall m (List.mem_cons_of_mem n hm), rfl⟩, ?_⟩
      cases keep <;> simp [hkeep] <;> rfl

theorem allHoldAt_cons_eq_ok {p : Expr} {ps : List Expr} {n : Node} {keep : Bool} :
    allHoldAt d b (p :: ps) n = .ok keep ↔
      p.holdsAt d b n = .ok false ∧ keep = false ∨ p.holdsAt d b n = .ok true ∧ allHoldAt d b ps n = .ok keep := by
  rw [allHoldAt]
  cases p.holdsAt d b n with
  | error e => simp [bind, Except.bind]
  | ok kept => cases kept <;> simp [bind, Except.bind, pure, Except.pure, eq_comm]

theorem allHoldAt_eq_true_iff {ps : List Expr} {n : Node} :
    allHoldAt d b ps n = .ok true ↔ ∀ p ∈ ps, p.holdsAt d b n = .ok true := by
  induction ps with
  | nil => simp [allHoldAt]
  | cons p ps ih => simp [allHoldAt_cons_eq_ok, ih]

/-- Predicates that do not ask for their position keep each node by itself. -/
theorem keepAll_eq_ok_iff {ps : List Expr} (hps : ∀ p ∈ ps, p.PositionFree) {ns kept : List Node} :
    keepAll d b ps ns = .ok kept ↔ (∀ n ∈ ns, ∃ keep, allHoldAt d b ps n = .ok keep) ∧
      kept = ns.filter fun n => allHoldAt d b ps n = .ok true := by
  induction ps generalizing ns with
  | nil => simp [keepAll, allHoldAt, eq_comm]
  | cons p ps ih =>
    obtain ⟨hp, hps⟩ := List.forall_mem_cons.mp hps
    simp only [keepAll, hp.keeps_eq, except_bind_eq_ok, keepWhere_eq_ok_iff, ih hps]
    have hboth : ∀ n, (allHoldAt d b (p :: ps) n = .ok true ↔
        allHoldAt d b ps n = .ok true ∧ p.holdsAt d b n = .ok true) := fun n => by
      simp [allHoldAt_cons_eq_ok, and_comm]
    have hfilter : (ns.filter fun n => p.holdsAt d b n = .ok true).filter (fun n => allHoldAt d b ps n = .ok true) =
        ns.filter fun n => allHoldAt d b (p :: ps) n = .ok true := by
      rw [List.filter_filter]
      exact List.filter_congr fun n _ => by simp [hboth]
    constructor
    · rintro ⟨_, ⟨hfirst, rfl⟩, hrest, rfl⟩
      refine ⟨fun n hn => ?_, hfilter⟩
      obtain ⟨keep, hkeep⟩ := hfirst n hn
      cases keep with
      | false => exact ⟨false, allHoldAt_cons_eq_ok.mpr (Or.inl ⟨hkeep, rfl⟩)⟩
      | true =>
        obtain ⟨keep, hkeeps⟩ := hrest n (List.mem_filter.mpr ⟨hn, decide_eq_true hkeep⟩)
        exact ⟨keep, allHoldAt_cons_eq_ok.mpr (Or.inr ⟨hkeep, hkeeps⟩)⟩
    · rintro ⟨hall, rfl⟩
      refine ⟨_, ⟨fun n hn => ?_, rfl⟩, fun n hn => ?_, hfilter.symm⟩
      · obtain ⟨keep, hkeep⟩ := hall n hn
        rcases allHoldAt_cons_eq_ok.mp hkeep with ⟨hfalse, -⟩ | ⟨htrue, -⟩
        · exact ⟨false, hfalse⟩
        · exact ⟨true, htrue⟩
      · obtain ⟨hn, htrue⟩ := List.mem_filter.mp hn
        obtain ⟨keep, hkeep⟩ := hall n hn
        rcases allHoldAt_cons_eq_ok.mp hkeep with ⟨hfalse, -⟩ | ⟨-, hrest⟩
        · cases hfalse.symm.trans (of_decide_eq_true htrue)
        · exact ⟨keep, hrest⟩

/-! ### Before and after nodes are put together -/

theorem sameOutcome_of_ordered {x y : Except Error (List Node)} (hx : ∀ out, x = .ok out → Ordered out)
    (hy : ∀ out, y = .ok out → Ordered out) (hok : (∃ out, x = .ok out) ↔ ∃ out, y = .ok out)
    (hmem : ∀ out out', x = .ok out → y = .ok out' → ∀ n, n ∈ out ↔ n ∈ out') : SameOutcome x y := by
  intro out
  constructor
  · intro h
    obtain ⟨out', h'⟩ := hok.mp ⟨out, h⟩
    rw [h', (hx out h).eq_of_mem_iff (hy out' h') (hmem out out' h h')]
  · intro h
    obtain ⟨out', h'⟩ := hok.mpr ⟨out, h⟩
    rw [h', (hx out' h').eq_of_mem_iff (hy out h) (hmem out' out h' h)]

theorem follow_one (s : Step) (ns : List Node) : follow d b [s] ns = gather (s.reach d b) [] ns := by
  rw [follow]
  exact bind_pure _

section
variable {qs : List Expr} (hqs : ∀ q ∈ qs, q.PositionFree)

include hqs

/-- Predicates that do not ask for their position do not see that the nodes of a backward axis are turned round. -/
theorem sameOutcome_keepAll_arranged (axis : Axis) (ns : List Node) :
    SameOutcome ((keepAll d b qs ns).map axis.arranged) (keepAll d b qs (axis.arranged ns)) := by
  intro kept
  simp only [except_map_eq_ok, keepAll_eq_ok_iff hqs, Axis.mem_arranged, Axis.filter_arranged]
  constructor
  · rintro ⟨_, ⟨hall, rfl⟩, rfl⟩
    exact ⟨hall, rfl⟩
  · rintro ⟨hall, rfl⟩
    exact ⟨_, ⟨hall, rfl⟩, rfl⟩

theorem Step.sameOutcome_reach_narrow (s : Step) (n : Node) :
    SameOutcome ((s.narrow qs).reach d b n) (s.reach d b n >>= keepAll d b qs) := by
  have hcounted := s.counted_narrow (d := d) (b := b) qs n
  obtain ⟨axis, test, predicates⟩ := s
  rw [narrow] at hcounted ⊢
  rw [reach_eq, reach_eq, hcounted]
  cases counted d b ⟨axis, test, predicates⟩ n with
  | error e => exact .refl _
  | ok ns => exact sameOutcome_keepAll_arranged hqs axis ns

theorem eq_ok_iff_of_keepAll {x x' : Except Error (List Node)} (h : SameOutcome x' (x >>= keepAll d b qs))
    {kept : List Node} : x' = .ok kept ↔ ∃ found, x = .ok found ∧
      (∀ n ∈ found, ∃ keep, allHoldAt d b qs n = .ok keep) ∧
        kept = found.filter fun n => allHoldAt d b qs n = .ok true := by
  rw [h kept, except_bind_eq_ok]
  simp only [keepAll_eq_ok_iff hqs]

section
variable {find find' : Node → Except Error (List Node)}
  (hfind : ∀ n, SameOutcome (find' n) (find n >>= keepAll d b qs)) {ns : List Node}

include hfind

theorem gather_narrowed_ok_iff :
    (∃ out, gather find' [] ns = .ok out) ↔ ∃ out, gather find [] ns >>= keepAll d b qs = .ok out := by
  constructor
  · rintro ⟨out, hout⟩
    have heach : ∀ n ∈ ns, ∃ found, find n = .ok found ∧
        ∀ m ∈ found, ∃ keep, allHoldAt d b qs m = .ok keep := by
      intro n hn
      obtain ⟨kept, hkept⟩ := gather_each hout n hn
      obtain ⟨found, hfound, hholds, -⟩ := (eq_ok_iff_of_keepAll hqs (hfind n)).mp hkept
      exact ⟨found, hfound, hholds⟩
    obtain ⟨all, hall⟩ := gather_ok_iff.mpr fun n hn => (heach n hn).imp fun _ h => h.1
    refine ⟨_, except_bind_eq_ok.mpr ⟨all, hall, (keepAll_eq_ok_iff hqs).mpr ⟨fun m hm => ?_, rfl⟩⟩⟩
    obtain ⟨n, hn, found, hfound, hm⟩ := (mem_gather_nil hall).mp hm
    obtain ⟨found', hfound', hholds⟩ := heach n hn
    obtain rfl := Except.ok.inj (hfound.symm.trans hfound')
    exact hholds m hm
  · rintro ⟨out, hout⟩
    obtain ⟨all, hall, hkept⟩ := except_bind_eq_ok.mp hout
    obtain ⟨hholds, -⟩ := (keepAll_eq_ok_iff hqs).mp hkept
    refine gather_ok_iff.mpr fun n hn => ?_
    obtain ⟨found, hfound⟩ := gather_each hall n hn
    have hmem : ∀ m ∈ found, m ∈ all := fun m hm => (mem_gather_nil hall).mpr ⟨n, hn, found, hfound, hm⟩
    exact ⟨_, (eq_ok_iff_of_keepAll hqs (hfind n)).mpr ⟨found, hfound, fun m hm => hholds m (hmem m hm), rfl⟩⟩

theorem mem_gather_narrowed_iff {out out' : List Node} (hout : gather find' [] ns = .ok out)
    (hout' : gather find [] ns >>= keepAll d b qs = .ok out') (x : Node) : x ∈ out ↔ x ∈ out' := by
  obtain ⟨all, hall, hkept⟩ := except_bind_eq_ok.mp hout'
  obtain ⟨-, rfl⟩ := (keepAll_eq_ok_iff hqs).mp hkept
  rw [mem_gather_nil hout, List.mem_filter, mem_gather_nil hall]
  constructor
  · rintro ⟨n, hn, kept, hkept, hx⟩
    obtain ⟨found, hfound, -, rfl⟩ := (eq_ok_iff_of_keepAll hqs (hfind n)).mp hkept
    obtain ⟨hx, hholds⟩ := List.mem_filter.mp hx
    exact ⟨⟨n, hn, found, hfound, hx⟩, hholds⟩
  · rintro ⟨⟨n, hn, found, hfound, hx⟩, hholds⟩
    obtain ⟨kept, hkept⟩ := gather_each hout n hn
    obtain ⟨found', hfound', -, rfl⟩ := (eq_ok_iff_of_keepAll hqs (hfind n)).mp hkept
    obtain rfl := Except.ok.inj (hfound.symm.trans hfound')
    exact ⟨n, hn, _, hkept, List.mem_filter.mpr ⟨hx, hholds⟩⟩

/-- Keeping what is found from each node is keeping what is found from all of them. -/
theorem sameOutcome_gather_keepAll (hordered : ∀ n found, find n = .ok found → Ordered found) (ns : List Node) :
    SameOutcome (gather find' [] ns) (gather find [] ns >>= keepAll d b qs) := by
  have hordered' : ∀ n kept, find' n = .ok kept → Ordered kept := by
    intro n kept h
    obtain ⟨found, hfound, -, rfl⟩ := (eq_ok_iff_of_keepAll hqs (hfind n)).mp h
    exact List.Pairwise.sublist List.filter_sublist (hordered n found hfound)
  refine sameOutcome_of_ordered (fun out h => ordered_gather_nil hordered' h) (fun out h => ?_)
    (gather_narrowed_ok_iff hqs hfind) fun out out' => mem_gather_narrowed_iff hqs hfind
  obtain ⟨all, hall, hkept⟩ := except_bind_eq_ok.mp h
  exact List.Pairwise.sublist (keepAll_sublist hkept) (ordered_gather_nil hordered hall)

end

theorem sameOutcome_follow_narrow (ss : List Step) (s : Step) (ns : List Node) :
    SameOutcome (follow d b (ss ++ [s.narrow qs]) ns) (follow d b (ss ++ [s]) ns >>= keepAll d b qs) := by
  rw [follow_append, follow_append, bind_assoc]
  refine (SameOutcome.refl _).bind fun ms => ?_
  rw [follow_one, follow_one]
  exact sameOutcome_gather_keepAll hqs (s.sameOutcome_reach_narrow hqs) (fun _ _ => Step.ordered_reach) ms

theorem Expr.sameOutcome_path_narrow (o : Origin) (ss : List Step) (s : Step) (c : Context) :
    SameOutcome ((Expr.path o (ss ++ [s.narrow qs])).evaluate d b c)
      ((Expr.filter (.path o (ss ++ [s])) qs).evaluate d b c) := by
  rw [evaluate_path, evaluate_filter_path, bind_assoc]
  refine SameOutcome.map _ ?_
  exact (SameOutcome.refl _).bind fun start => sameOutcome_follow_narrow hqs ss s start

end

/-! ### Predicates that cannot fail -/

/-- A predicate that cannot fail: it is well typed and its prefixes are bound. -/
structure Expr.CannotFail (b : Bindings) (p : Expr) : Prop where
  wellTyped : p.wellTyped
  bound : Bound b p.prefixes

theorem keepAll_ok_of_cannotFail {ps : List Expr} (hps : ∀ p ∈ ps, p.CannotFail b) (ns : List Node) :
    ∃ kept, keepAll d b ps ns = .ok kept := by
  have hall : allWellTyped ps ∧ Bound b (prefixesOfAll ps) := by
    induction ps with
    | nil => exact ⟨rfl, by simp [prefixesOfAll, Bound]⟩
    | cons p ps ih =>
      obtain ⟨hp, hps⟩ := List.forall_mem_cons.mp hps
      exact ⟨Bool.and_eq_true_iff.mpr ⟨hp.wellTyped, (ih hps).1⟩, Bound.append.mpr ⟨hp.bound, (ih hps).2⟩⟩
  exact keepAll_ok ps ns hall.1 hall.2

/-- Predicates that hold for the same nodes and cannot fail keep the same nodes. -/
theorem keepAll_eq_of_allHoldAt_iff {ps qs : List Expr} (hps : ∀ p ∈ ps, p.PositionFree ∧ p.CannotFail b)
    (hqs : ∀ q ∈ qs, q.PositionFree ∧ q.CannotFail b)
    (h : ∀ n, allHoldAt d b ps n = .ok true ↔ allHoldAt d b qs n = .ok true) : keepAll d b ps = keepAll d b qs := by
  funext ns
  obtain ⟨kept, hkept⟩ := keepAll_ok_of_cannotFail (d := d) (fun p hp => (hps p hp).2) ns
  obtain ⟨kept', hkept'⟩ := keepAll_ok_of_cannotFail (d := d) (fun q hq => (hqs q hq).2) ns
  obtain ⟨-, rfl⟩ := (keepAll_eq_ok_iff fun p hp => (hps p hp).1).mp hkept
  obtain ⟨-, rfl⟩ := (keepAll_eq_ok_iff fun q hq => (hqs q hq).1).mp hkept'
  rw [hkept, hkept']
  simp only [h]

theorem Expr.holdsAt_and {p q : Expr} {n : Node} : (Expr.binary .and p q).holdsAt d b n = .ok true ↔
    p.holdsAt d b n = .ok true ∧ q.holdsAt d b n = .ok true := by
  rw [holdsAt, holdsAt, holdsAt, Expr.evaluate]
  cases p.evaluate d b ⟨n, 1, 1⟩ with
  | error e => simp [bind, Except.bind, Except.map]
  | ok l =>
    cases q.evaluate d b ⟨n, 1, 1⟩ with
    | error e => simp [bind, Except.bind, Except.map]
    | ok r => simp [bind, Except.bind, Except.map, Operator.apply, Value.toBoolean]

section
variable {p q : Expr} (hp : p.PositionFree) (hq : q.PositionFree) (hpt : p.CannotFail b) (hqt : q.CannotFail b)

include hp hq

theorem Expr.PositionFree.and : (Expr.binary .and p q).PositionFree where
  noNumber := nofun
  noneCounts := List.forall_mem_append.mpr ⟨hp.noneCounts, hq.noneCounts⟩

include hpt hqt

theorem keepAll_swap : keepAll d b [p, q] = keepAll d b [q, p] := by
  refine keepAll_eq_of_allHoldAt_iff (by simp [*]) (by simp [*]) fun n => ?_
  simp [allHoldAt_eq_true_iff, and_comm]

theorem keepAll_and : keepAll d b [p, q] = keepAll d b [.binary .and p q] := by
  have hand : (Expr.binary .and p q).CannotFail b := {
    wellTyped := by simp [Expr.wellTyped, hpt.wellTyped, hqt.wellTyped]
    bound := Bound.append.mpr ⟨hpt.bound, hqt.bound⟩ }
  refine keepAll_eq_of_allHoldAt_iff (by simp [*]) (by simp [hp.and hq, hand]) fun n => ?_
  simp [allHoldAt_eq_true_iff, Expr.holdsAt_and]

end

theorem Step.reach_narrow_congr {ps qs : List Expr} (h : keepAll d b ps = keepAll d b qs) (s : Step) :
    (s.narrow ps).reach d b = (s.narrow qs).reach d b := by
  funext n
  have hps := s.counted_narrow (d := d) (b := b) ps n
  have hqs := s.counted_narrow (d := d) (b := b) qs n
  obtain ⟨axis, test, predicates⟩ := s
  rw [narrow] at hps hqs ⊢
  rw [narrow, reach_eq, reach_eq, hps, hqs, h]

theorem Expr.evaluate_narrow_congr {ps qs : List Expr} (h : keepAll d b ps = keepAll d b qs) (o : Origin)
    (ss : List Step) (s : Step) (ts : List Step) (c : Context) :
    (Expr.path o (ss ++ s.narrow ps :: ts)).evaluate d b c = (Expr.path o (ss ++ s.narrow qs :: ts)).evaluate d b c := by
  have hfollow : follow d b (ss ++ s.narrow ps :: ts) = follow d b (ss ++ s.narrow qs :: ts) := by
    funext ns
    rw [follow_append, follow_append]
    refine bind_congr fun ms => ?_
    rw [follow, follow, s.reach_narrow_congr h]
  rw [evaluate_path, evaluate_path, hfollow]

theorem Expr.evaluate_filter_congr {ps qs : List Expr} (h : keepAll d b ps = keepAll d b qs) (base : Expr)
    (rs : List Expr) (c : Context) :
    (Expr.filter base (rs ++ ps)).evaluate d b c = (Expr.filter base (rs ++ qs)).evaluate d b c := by
  have hkeep : keepAll d b (rs ++ ps) = keepAll d b (rs ++ qs) := by
    funext ns
    rw [keepAll_append, keepAll_append, h]
  rw [Expr.evaluate, Expr.evaluate, hkeep]

end

/-- A predicate that does not ask for its position can stand at the last step of a location path or after the
    path in parentheses. Two such predicates that cannot fail can change places, at a step as well as at a filter,
    and can be joined by `and`. -/
theorem predicates_placed (d : Document) (b : Bindings) :
    (∀ p : Expr, p.PositionFree → ∀ o ss (s : Step) c,
      SameOutcome ((Expr.path o (ss ++ [s.narrow [p]])).evaluate d b c)
        ((Expr.filter (.path o (ss ++ [s])) [p]).evaluate d b c)) ∧
    ∀ p q : Expr, p.PositionFree → q.PositionFree → p.CannotFail b → q.CannotFail b →
      (∀ o ss (s : Step) ts c,
        (Expr.path o (ss ++ s.narrow [p, q] :: ts)).evaluate d b c =
          (Expr.path o (ss ++ s.narrow [q, p] :: ts)).evaluate d b c ∧
        (Expr.path o (ss ++ s.narrow [p, q] :: ts)).evaluate d b c =
          (Expr.path o (ss ++ s.narrow [.binary .and p q] :: ts)).evaluate d b c) ∧
      ∀ base ps c,
        (Expr.filter base (ps ++ [p, q])).evaluate d b c = (Expr.filter base (ps ++ [q, p])).evaluate d b c ∧
        (Expr.filter base (ps ++ [p, q])).evaluate d b c =
          (Expr.filter base (ps ++ [.binary .and p q])).evaluate d b c := by
  refine ⟨fun p hp o ss s c => ?_, fun p q hp hq hpt hqt => ?_⟩
  · exact Expr.sameOutcome_path_narrow (by simpa using hp) o ss s c
  · have hswap : keepAll d b [p, q] = keepAll d b [q, p] := keepAll_swap hp hq hpt hqt
    have hand : keepAll d b [p, q] = keepAll d b [.binary .and p q] := keepAll_and hp hq hpt hqt
    refine ⟨fun o ss s ts c => ⟨?_, ?_⟩, fun base ps c => ⟨?_, ?_⟩⟩
    · exact Expr.evaluate_narrow_congr hswap o ss s ts c
    · exact Expr.evaluate_narrow_congr hand o ss s ts c
    · exact Expr.evaluate_filter_congr hswap base ps c
    · exact Expr.evaluate_filter_congr hand base ps c

/-- `attribute::*[last()]` -/
def attributedExpr : Expr :=
  .path .context [⟨.attribute, .any, [.call ⟨none, "last"⟩ []]⟩]

/-- `not(child::b)` -/
def childlessExpr : Expr :=
  .call ⟨none, "not"⟩ [.path .context [⟨.child, .name ⟨none, "b"⟩, []⟩]]

/-- The step `ancestor-or-self::*`. -/
def upwardStep : Step :=
  ⟨.ancestorOrSelf, .any, []⟩

/-- In `<a><b/><b x="1"/></a>`, the second `b` is found from itself, and `a` from all three elements. -/
theorem predicates_placed_kin :
    attributedExpr.PositionFree ∧ childlessExpr.PositionFree ∧
      attributedExpr.CannotFail .empty ∧ childlessExpr.CannotFail .empty ∧
      (Expr.path .root ([⟨.descendant, .any, []⟩] ++ [upwardStep.narrow [attributedExpr]])).evaluate kinDocument .empty
        ⟨.root, 1, 1⟩ = .ok (.nodes [.ofPath [1, 0]]) ∧
      SameOutcome
        ((Expr.path .root ([⟨.descendant, .any, []⟩] ++ [upwardStep.narrow [attributedExpr]])).evaluate kinDocument .empty
          ⟨.root, 1, 1⟩)
        ((Expr.filter (.path .root ([⟨.descendant, .any, []⟩] ++ [upwardStep])) [attributedExpr]).evaluate kinDocument
          .empty ⟨.root, 1, 1⟩) ∧
      (Expr.path .root ([⟨.descendant, .any, []⟩] ++ [upwardStep.narrow [attributedExpr, childlessExpr]])).evaluate
          kinDocument .empty ⟨.root, 1, 1⟩ =
        (Expr.path .root ([⟨.descendant, .any, []⟩] ++ [upwardStep.narrow [childlessExpr, attributedExpr]])).evaluate
          kinDocument .empty ⟨.root, 1, 1⟩ := by
  have hp : attributedExpr.PositionFree := ⟨by decide, nofun⟩
  have hpt : attributedExpr.CannotFail .empty := ⟨by decide, nofun⟩
  have hqt : childlessExpr.CannotFail .empty := ⟨by decide, nofun⟩
  have hq : childlessExpr.PositionFree := ⟨by decide, by simp [NoneCounts, childlessExpr, Expr.outerCalls,
    outerCallsOfAll, Origin.outerCalls, QName.text]⟩
  obtain ⟨hone, htwo⟩ := predicates_placed kinDocument .empty
  obtain ⟨hsteps, -⟩ := htwo attributedExpr childlessExpr hp hq hpt hqt
  exact ⟨hp, hq, hpt, hqt, by decide +kernel, hone attributedExpr hp _ _ _ _, (hsteps _ _ _ [] _).1⟩

/-- A predicate that counts sees the parentheses: each element is the first of its ancestors and itself, but `a` is
    the first of them all. -/
example :
    (Expr.path .root [⟨.descendant, .any, []⟩, upwardStep.narrow [.number (.ofNat 1)]]).evaluate kinDocument .empty
        ⟨.root, 1, 1⟩ = .ok (.nodes [.ofPath [0], .ofPath [0, 0], .ofPath [1, 0]]) ∧
      (Expr.filter (.path .root [⟨.descendant, .any, []⟩, upwardStep]) [.number (.ofNat 1)]).evaluate kinDocument .empty
        ⟨.root, 1, 1⟩ = .ok (.nodes [.ofPath [0]]) := by
  decide +kernel

end XmlMapping.XPath
