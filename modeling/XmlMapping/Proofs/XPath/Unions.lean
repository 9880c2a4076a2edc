import XmlMapping.Proofs.XPath.Composition

/-! # Unions

A union has the nodes of both its operands, in document order and each once. Nothing else about the operands makes a
difference to it, so their order, their grouping and an operand that is there twice make none. Steps lead from a
union where they lead from one of the operands: they can be followed from the operands one by one and what they find
be united. -/

namespace XmlMapping.XPath

/-! ### Uniting node-sets -/

/-- The nodes of two node-sets together, in document order and each once. -/
structure Unites (ls rs us : List Node) : Prop where
  ordered : Ordered us
  mem : ∀ n, n ∈ us ↔ n ∈ ls ∨ n ∈ rs

section
variable {ls rs ms us us' : List Node}

theorem exists_unites (ls rs : List Node) : ∃ us, Unites ls rs us :=
  ⟨inDocumentOrder (ls ++ rs), ordered_inDocumentOrder _, fun _ => by rw [mem_inDocumentOrder, List.mem_append]⟩

theorem Unites.unique (h : Unites ls rs us) (h' : Unites ls rs us') : us = us' :=
  h.ordered.eq_of_mem_iff h'.ordered fun n => (h.mem n).trans (h'.mem n).symm

theorem Unites.symm (h : Unites ls rs us) : Unites rs ls us :=
  ⟨h.ordered, fun n => (h.mem n).trans or_comm⟩

theorem unites_self (h : Ordered ls) : Unites ls ls ls :=
  ⟨h, fun _ => or_self_iff.symm⟩

/-- It makes no difference which two of three node-sets are united first. -/
theorem unites_three : (∃ vs, Unites ls rs vs ∧ Unites vs ms us) ↔
    Ordered us ∧ ∀ n, n ∈ us ↔ n ∈ ls ∨ n ∈ rs ∨ n ∈ ms := by
  constructor
  · rintro ⟨vs, hvs, hus⟩
    refine ⟨hus.ordered, fun n => ?_⟩
    rw [hus.mem, hvs.mem, or_assoc]
  · rintro ⟨hordered, hmem⟩
    obtain ⟨vs, hvs⟩ := exists_unites ls rs
    refine ⟨vs, hvs, hordered, fun n => ?_⟩
    rw [hmem, hvs.mem, or_assoc]

end

variable {d : Document} {b : Bindings} {c : Context}

/-! ### Unions of expressions -/

theorem Expr.evaluate_union_eq_ok {l r : Expr} {v : Value} : (Expr.binary .union l r).evaluate d b c = .ok v ↔
    ∃ ls rs us, l.evaluate d b c = .ok (.nodes ls) ∧ r.evaluate d b c = .ok (.nodes rs) ∧ Unites ls rs us ∧
      v = .nodes us := by
  have hunites (ls rs : List Node) : Unites ls rs (mergeInOrder (inDocumentOrder ls) (inDocumentOrder rs)) := by
    refine ⟨ordered_mergeInOrder (ordered_inDocumentOrder ls) (ordered_inDocumentOrder rs), fun n => ?_⟩
    rw [mem_mergeInOrder, mem_inDocumentOrder, mem_inDocumentOrder]
  simp only [Expr.evaluate, except_bind_eq_ok]
  constructor
  · rintro ⟨_, hl, _, hr, h⟩
    obtain ⟨ls, rs, rfl, rfl, rfl⟩ := Value.union_eq_ok h
    exact ⟨ls, rs, _, hl, hr, hunites ls rs, rfl⟩
  · rintro ⟨ls, rs, us, hl, hr, hus, rfl⟩
    refine ⟨_, hl, _, hr, ?_⟩
    rw [hus.unique (hunites ls rs)]
    rfl

theorem Expr.sameOutcome_union_comm (l r : Expr) :
    SameOutcome ((Expr.binary .union l r).evaluate d b c) ((Expr.binary .union r l).evaluate d b c) := by
  have hturn {l r : Expr} {v : Value} (h : (Expr.binary .union l r).evaluate d b c = .ok v) :
      (Expr.binary .union r l).evaluate d b c = .ok v := by
    obtain ⟨ls, rs, us, hl, hr, hus, rfl⟩ := evaluate_union_eq_ok.mp h
    exact evaluate_union_eq_ok.mpr ⟨rs, ls, us, hr, hl, hus.symm, rfl⟩
  exact fun v => ⟨hturn, hturn⟩

theorem Expr.evaluate_union_union {l m r : Expr} {v : Value} :
    (Expr.binary .union (.binary .union l m) r).evaluate d b c = .ok v ↔
      ∃ ls ms rs us, l.evaluate d b c = .ok (.nodes ls) ∧ m.evaluate d b c = .ok (.nodes ms) ∧
        r.evaluate d b c = .ok (.nodes rs) ∧ (Ordered us ∧ ∀ n, n ∈ us ↔ n ∈ ls ∨ n ∈ ms ∨ n ∈ rs) ∧ v = .nodes us := by
  simp only [evaluate_union_eq_ok, ← unites_three]
  constructor
  · rintro ⟨vs, rs, us, ⟨ls, ms, _, hl, hm, hvs, h⟩, hr, hus, rfl⟩
    obtain rfl := Value.nodes.inj h
    exact ⟨ls, ms, rs, us, hl, hm, hr, ⟨vs, hvs, hus⟩, rfl⟩
  · rintro ⟨ls, ms, rs, us, hl, hm, hr, ⟨vs, hvs, hus⟩, rfl⟩
    exact ⟨vs, rs, us, ⟨ls, ms, vs, hl, hm, hvs, rfl⟩, hr, hus, rfl⟩

theorem Expr.sameOutcome_union_assoc (l m r : Expr) :
    SameOutcome ((Expr.binary .union (.binary .union l m) r).evaluate d b c)
      ((Expr.binary .union l (.binary .union m r)).evaluate d b c) := by
  -- The operands can be moved on by one place, and after three times they are where they were.
  have hturn {l m r : Expr} {v : Value} (h : (Expr.binary .union (.binary .union l m) r).evaluate d b c = .ok v) :
      (Expr.binary .union (.binary .union m r) l).evaluate d b c = .ok v := by
    obtain ⟨ls, ms, rs, us, hl, hm, hr, ⟨hordered, hmem⟩, rfl⟩ := evaluate_union_union.mp h
    refine evaluate_union_union.mpr ⟨ms, rs, ls, us, hm, hr, hl, ⟨hordered, fun n => ?_⟩, rfl⟩
    rw [hmem, or_left_comm, or_comm (a := n ∈ ls)]
  refine SameOutcome.trans (fun v => ⟨hturn, fun h => hturn (hturn h)⟩) ?_
  exact sameOutcome_union_comm (.binary .union m r) l

/-! ### Steps from a union -/

/-- Steps lead from two node-sets together where they lead from one of them. -/
theorem follow_unites {ss : List Step} {ls rs ms ns : List Node} (hms : Unites ls rs ms) :
    follow d b ss ms = .ok ns ↔
      ∃ fs gs, follow d b ss ls = .ok fs ∧ follow d b ss rs = .ok gs ∧ Unites fs gs ns := by
  have heach : (∃ out, follow d b ss ms = .ok out) ↔
      (∃ fs, follow d b ss ls = .ok fs) ∧ ∃ gs, follow d b ss rs = .ok gs := by
    refine follow_ok_iff.trans (Iff.trans ?_ (and_congr follow_ok_iff follow_ok_iff).symm)
    simp only [hms.mem, or_imp, forall_and]
  have hunites {fs gs out : List Node} (hfs : follow d b ss ls = .ok fs) (hgs : follow d b ss rs = .ok gs)
      (hout : follow d b ss ms = .ok out) : Unites fs gs out := by
    refine ⟨ordered_follow hms.ordered hout, fun n => ?_⟩
    simp only [mem_follow hout, mem_follow hfs, mem_follow hgs, hms.mem, or_and_right, exists_or]
  constructor
  · intro h
    obtain ⟨⟨fs, hfs⟩, gs, hgs⟩ := heach.mp ⟨ns, h⟩
    exact ⟨fs, gs, hfs, hgs, hunites hfs hgs h⟩
  · rintro ⟨fs, gs, hfs, hgs, hns⟩
    obtain ⟨out, hout⟩ := heach.mpr ⟨⟨fs, hfs⟩, gs, hgs⟩
    rw [hout, (hunites hfs hgs hout).unique hns]

theorem Expr.evaluate_from_eq_ok {e : Expr} {ss : List Step} {v : Value} :
    (Expr.path (.nodes e) ss).evaluate d b c = .ok v ↔
      ∃ ms ns, e.evaluate d b c = .ok (.nodes ms) ∧ follow d b ss ms = .ok ns ∧ v = .nodes ns := by
  simp only [evaluate_path_eq_ok, Origin.evaluate, except_bind_eq_ok]
  constructor
  · rintro ⟨_, ⟨_, he, ms, hms, h⟩, ns, hns, rfl⟩
    obtain rfl := Value.toNodes_eq_ok.mp hms
    obtain rfl := Except.ok.inj h
    rw [(ordered_evaluate he).inDocumentOrder_eq] at hns
    exact ⟨ms, ns, he, hns, rfl⟩
  · rintro ⟨ms, ns, he, hns, rfl⟩
    refine ⟨ms, ⟨_, he, ms, rfl, ?_⟩, ns, hns, rfl⟩
    rw [(ordered_evaluate he).inDocumentOrder_eq]
    rfl

theorem Expr.sameOutcome_union_steps (l r : Expr) (ss : List Step) :
    SameOutcome ((Expr.path (.nodes (.binary .union l r)) ss).evaluate d b c)
      ((Expr.binary .union (.path (.nodes l) ss) (.path (.nodes r) ss)).evaluate d b c) := by
  intro v
  simp only [evaluate_from_eq_ok, evaluate_union_eq_ok]
  constructor
  · rintro ⟨ms, ns, ⟨ls, rs, _, hl, hr, hms, h⟩, hns, rfl⟩
    obtain rfl := Value.nodes.inj h
    obtain ⟨fs, gs, hfs, hgs, hunites⟩ := (follow_unites hms).mp hns
    exact ⟨fs, gs, ns, ⟨ls, fs, hl, hfs, rfl⟩, ⟨rs, gs, hr, hgs, rfl⟩, hunites, rfl⟩
  · rintro ⟨fs, gs, ns, ⟨ls, _, hl, hfs, h⟩, ⟨rs, _, hr, hgs, h'⟩, hunites, rfl⟩
    obtain rfl := Value.nodes.inj h
    obtain rfl := Value.nodes.inj h'
    obtain ⟨ms, hms⟩ := exists_unites ls rs
    exact ⟨ms, ns, ⟨ls, rs, ms, hl, hr, hms, rfl⟩, (follow_unites hms).mpr ⟨fs, gs, hfs, hgs, hunites⟩, rfl⟩

/-- A union is the union of sets. It has the nodes of both its operands, in document order and each once; it is
    commutative, associative and idempotent; and the steps that go on from a union can go on from its operands
    instead. -/
theorem union_sets (d : Document) (b : Bindings) (c : Context) :
    (∀ l r ls rs, Expr.evaluate d b l c = .ok (.nodes ls) → Expr.evaluate d b r c = .ok (.nodes rs) →
      ∃ us, (Expr.binary .union l r).evaluate d b c = .ok (.nodes us) ∧ Unites ls rs us) ∧
    (∀ l r, SameOutcome ((Expr.binary .union l r).evaluate d b c) ((Expr.binary .union r l).evaluate d b c)) ∧
    (∀ l m r, SameOutcome ((Expr.binary .union (.binary .union l m) r).evaluate d b c)
      ((Expr.binary .union l (.binary .union m r)).evaluate d b c)) ∧
    (∀ l ls, Expr.evaluate d b l c = .ok (.nodes ls) →
      (Expr.binary .union l l).evaluate d b c = .ok (.nodes ls)) ∧
    ∀ l r ss, SameOutcome ((Expr.path (.nodes (.binary .union l r)) ss).evaluate d b c)
      ((Expr.binary .union (.path (.nodes l) ss) (.path (.nodes r) ss)).evaluate d b c) := by
  refine ⟨fun l r ls rs hl hr => ?_, Expr.sameOutcome_union_comm, Expr.sameOutcome_union_assoc, fun l ls hl => ?_,
    Expr.sameOutcome_union_steps⟩
  · obtain ⟨us, hus⟩ := exists_unites ls rs
    exact ⟨us, Expr.evaluate_union_eq_ok.mpr ⟨ls, rs, us, hl, hr, hus, rfl⟩, hus⟩
  · have hself := unites_self (Expr.ordered_evaluate hl)
    exact Expr.evaluate_union_eq_ok.mpr ⟨ls, ls, ls, hl, hl, hself, rfl⟩

/-- `//*/attribute::*` -/
def attributesExpr : Expr :=
  .path .root [.anyBelow, ⟨.child, .any, []⟩, ⟨.attribute, .any, []⟩]

/-- `//child::b` -/
def elementsExpr : Expr :=
  .path .root [.anyBelow, ⟨.child, .name ⟨none, "b"⟩, []⟩]

/-- In `<a><b/><b x="1"/></a>`, the attribute comes last though it stands first in the union, and `a` is found once
    though it is the nearest ancestor of both `b`. -/
theorem union_sets_kin :
    attributesExpr.evaluate kinDocument .empty ⟨.root, 1, 1⟩ = .ok (.nodes [⟨[1, 0], some 0⟩]) ∧
      elementsExpr.evaluate kinDocument .empty ⟨.root, 1, 1⟩ = .ok (.nodes [.ofPath [0, 0], .ofPath [1, 0]]) ∧
      (∃ us, (Expr.binary .union attributesExpr elementsExpr).evaluate kinDocument .empty ⟨.root, 1, 1⟩ =
          .ok (.nodes us) ∧ Unites [⟨[1, 0], some 0⟩] [.ofPath [0, 0], .ofPath [1, 0]] us) ∧
      (Expr.binary .union attributesExpr elementsExpr).evaluate kinDocument .empty ⟨.root, 1, 1⟩ =
        .ok (.nodes [.ofPath [0, 0], .ofPath [1, 0], ⟨[1, 0], some 0⟩]) ∧
      (Expr.binary .union elementsExpr elementsExpr).evaluate kinDocument .empty ⟨.root, 1, 1⟩ =
        .ok (.nodes [.ofPath [0, 0], .ofPath [1, 0]]) ∧
      (Expr.path (.nodes (.binary .union attributesExpr elementsExpr))
          [⟨.ancestor, .any, [.number (.ofNat 1)]⟩]).evaluate kinDocument .empty ⟨.root, 1, 1⟩ =
        .ok (.nodes [.ofPath [0], .ofPath [1, 0]]) ∧
      SameOutcome
        ((Expr.path (.nodes (.binary .union attributesExpr elementsExpr))
          [⟨.ancestor, .any, [.number (.ofNat 1)]⟩]).evaluate kinDocument .empty ⟨.root, 1, 1⟩)
        ((Expr.binary .union (.path (.nodes attributesExpr) [⟨.ancestor, .any, [.number (.ofNat 1)]⟩])
          (.path (.nodes elementsExpr) [⟨.ancestor, .any, [.number (.ofNat 1)]⟩])).evaluate kinDocument .empty
            ⟨.root, 1, 1⟩) := by
  have hl : attributesExpr.evaluate kinDocument .empty ⟨.root, 1, 1⟩ = .ok (.nodes [⟨[1, 0], some 0⟩]) := by
    decide +kernel
  have hr : elementsExpr.evaluate kinDocument .empty ⟨.root, 1, 1⟩ =
      .ok (.nodes [.ofPath [0, 0], .ofPath [1, 0]]) := by decide +kernel
  obtain ⟨hunion, -, -, hself, hsteps⟩ := union_sets kinDocument .empty ⟨.root, 1, 1⟩
  exact ⟨hl, hr, hunion _ _ _ _ hl hr, by decide +kernel, hself _ _ hr, by decide +kernel, hsteps _ _ _⟩

end XmlMapping.XPath
