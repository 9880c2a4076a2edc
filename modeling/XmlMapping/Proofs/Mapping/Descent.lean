import XmlMapping.Proofs.Mapping.Depth

/-! # Further down

A path may lead further down from every node: so does a relative path of steps to children and descendants. When
there is such a path on the way to each reference in the definitions, and no path on the way leads back up, every
mapping comes to an end at every node of the document. The induction is on the nodes below a node, since there is
none on the mapping. A mapping that comes back to a node by the reference that stands for it does not come to an end
there, however deep references are followed. -/

namespace XmlMapping

section
variable (d : Document) (b : Bindings) (path : String)

/-- From any node the path leads to nodes below it only. -/
def LeadsBelow : Prop :=
  ∀ n ns, d.Holds n → selectAt d b path n = .ok ns → ∀ m ∈ ns, m ∈ d.descendants n

/-- From any node the path leads to the node and to nodes below it only. -/
def LeadsWithin : Prop :=
  ∀ n ns, d.Holds n → selectAt d b path n = .ok ns → ∀ m ∈ ns, m ∈ n :: d.descendants n

/-- On the way to each reference there is a path that leads below, and no path that leads anywhere but down. -/
def Mapping.Guarded (m : Mapping) : Prop :=
  ∀ trail ∈ m.trails, (∃ path ∈ trail, LeadsBelow d b path) ∧ ∀ path ∈ trail, LeadsWithin d b path

/-- A kind of nodes such that what is below a node of the kind is of the kind. -/
def DownClosed (P : Node → Prop) : Prop :=
  ∀ n m, P n → m ∈ d.descendants n → P m

end

variable {d : Document} {b : Bindings} {path : String} {n m x : Node} {P : Node → Prop}

theorem DownClosed.within (h : DownClosed d P) (hn : P n) (hm : m ∈ n :: d.descendants n) : P m := by
  rcases List.mem_cons.mp hm with rfl | hm
  · exact hn
  · exact h n m hn hm

theorem downClosed_descendants (d : Document) (n : Node) : DownClosed d (· ∈ d.descendants n) :=
  fun _ _ => Document.mem_descendants_of_mem

theorem mem_descendants_of_within (hx : x ∈ n :: d.descendants n) (hm : m ∈ d.descendants x) :
    m ∈ d.descendants n := by
  rcases List.mem_cons.mp hx with rfl | hx
  · exact hm
  · exact Document.mem_descendants_of_mem hx hm

theorem downClosed_within (d : Document) (n : Node) : DownClosed d (· ∈ n :: d.descendants n) :=
  fun _ _ hx hm => List.mem_cons_of_mem n (mem_descendants_of_within hx hm)

/-! ### Steps down -/

namespace XPath

/-- The axes to the node itself and to what is below it. -/
def downwardAxes : List Axis :=
  [.self, .child, .descendant, .descendantOrSelf]

theorem Axis.within {axis : Axis} (h : axis ∈ downwardAxes) (hm : m ∈ axis.nodes d n) : m ∈ n :: d.descendants n := by
  simp only [downwardAxes, List.mem_cons, List.not_mem_nil, or_false] at h
  rcases h with rfl | rfl | rfl | rfl
  · exact List.mem_cons.mpr (Or.inl (List.mem_singleton.mp hm))
  · exact List.mem_cons_of_mem n (Document.mem_descendants_of_mem_children hm)
  · exact List.mem_cons_of_mem n hm
  · exact hm

theorem Axis.below {axis : Axis} (h : axis = .child ∨ axis = .descendant) (hm : m ∈ axis.nodes d n) :
    m ∈ d.descendants n := by
  rcases h with rfl | rfl
  · exact Document.mem_descendants_of_mem_children hm
  · exact hm

section
variable {steps : List Step} {ns out : List Node}

theorem follow_downClosed (hP : DownClosed d P) (hsteps : ∀ s ∈ steps, s.axis ∈ downwardAxes) (hns : ∀ n ∈ ns, P n)
    (h : follow d b steps ns = .ok out) : ∀ m ∈ out, P m := by
  induction steps generalizing ns with
  | nil =>
    obtain rfl := Except.ok.inj h
    exact hns
  | cons s ss ih =>
    obtain ⟨hs, hss⟩ := List.forall_mem_cons.mp hsteps
    simp only [follow, except_bind_eq_ok] at h
    obtain ⟨found, hfound, h⟩ := h
    refine ih hss (fun m hm => ?_) h
    obtain ⟨n, hn, reached, hreached, hm⟩ := (mem_gather_nil hfound).mp hm
    exact hP.within (hns n hn) (Axis.within hs (Step.mem_nodes_of_mem_reach hreached hm))

theorem follow_below (hsteps : ∀ s ∈ steps, s.axis ∈ downwardAxes)
    (hbelow : ∃ s ∈ steps, s.axis = .child ∨ s.axis = .descendant) (hns : ∀ n ∈ ns, n ∈ x :: d.descendants x)
    (h : follow d b steps ns = .ok out) : ∀ m ∈ out, m ∈ d.descendants x := by
  induction steps generalizing ns with
  | nil =>
    obtain ⟨s, hs, -⟩ := hbelow
    cases hs
  | cons s ss ih =>
    obtain ⟨hs, hss⟩ := List.forall_mem_cons.mp hsteps
    simp only [follow, except_bind_eq_ok] at h
    obtain ⟨found, hfound, h⟩ := h
    have hreach : ∀ m ∈ found, ∃ n ∈ ns, m ∈ s.axis.nodes d n := fun m hm => by
      obtain ⟨n, hn, reached, hreached, hm⟩ := (mem_gather_nil hfound).mp hm
      exact ⟨n, hn, Step.mem_nodes_of_mem_reach hreached hm⟩
    obtain ⟨s', hmem, hbelow⟩ := hbelow
    rcases List.mem_cons.mp hmem with rfl | hmem
    · refine follow_downClosed (downClosed_descendants d x) hss (fun m hm => ?_) h
      obtain ⟨n, hn, hm⟩ := hreach m hm
      exact mem_descendants_of_within (hns n hn) (Axis.below hbelow hm)
    · refine ih hss ⟨s', hmem, hbelow⟩ (fun m hm => ?_) h
      obtain ⟨n, hn, hm⟩ := hreach m hm
      exact (downClosed_within d x).within (hns n hn) (Axis.within hs hm)

end
end XPath

theorem follow_of_selectAt {steps : List XPath.Step} {ns : List Node}
    (hpath : XPath.compile path = .ok (.path .context steps)) (h : selectAt d b path n = .ok ns) :
    XPath.follow d b steps [n] = .ok ns := by
  obtain ⟨e, he, hselect⟩ := selectAt_eq_ok.mp h
  obtain rfl := Except.ok.inj (hpath.symm.trans he)
  obtain ⟨-, hv⟩ := XPath.Expr.evaluate_of_select hselect
  simp only [XPath.Expr.evaluate, except_bind_eq_ok] at hv
  obtain ⟨start, hstart, found, hfound, hv⟩ := hv
  obtain rfl := Except.ok.inj hstart
  cases hv
  exact hfound

/-- A relative path of steps down, one of them to children or descendants, leads below. -/
theorem leadsBelow_of_compile {steps : List XPath.Step} (hpath : XPath.compile path = .ok (.path .context steps))
    (hsteps : ∀ s ∈ steps, s.axis ∈ XPath.downwardAxes)
    (hbelow : ∃ s ∈ steps, s.axis = .child ∨ s.axis = .descendant) (d : Document) (b : Bindings) :
    LeadsBelow d b path := by
  intro n ns _ hns
  refine XPath.follow_below hsteps hbelow (fun m hm => ?_) (follow_of_selectAt hpath hns)
  rw [List.mem_singleton.mp hm]
  exact List.mem_cons_self

theorem leadsBelow_of_step {step : XPath.Step} (hpath : XPath.compile path = .ok (.path .context [step]))
    (haxis : step.axis = .child ∨ step.axis = .descendant) (d : Document) (b : Bindings) : LeadsBelow d b path := by
  refine leadsBelow_of_compile hpath (List.forall_mem_singleton.mpr ?_) ⟨step, List.mem_singleton_self step, haxis⟩ d b
  rcases haxis with h | h <;> rw [h] <;> decide

/-! ### Guarded references -/

section
variable {defs : Definitions} {trail : List String}

theorem LeadsBelow.within (h : LeadsBelow d b path) : LeadsWithin d b path :=
  fun n ns hn hns m hm => List.mem_cons_of_mem n (h n ns hn hns m hm)

theorem leadsTo_downClosed (hP : DownClosed d P) (h : ∀ path ∈ trail, LeadsWithin d b path) (hholds : d.Holds x)
    (hx : P x) : LeadsTo d b P trail x := by
  induction trail generalizing x with
  | nil => exact hx
  | cons path trail ih =>
    obtain ⟨hpath, htrail⟩ := List.forall_mem_cons.mp h
    intro ns hns m hm
    exact ih htrail (holds_of_mem_selectAt hholds hns m hm) (hP.within hx (hpath x ns hholds hns m hm))

/-- When one of several paths leads below and none leads back up, all of them together lead below. -/
theorem leadsTo_below (h : ∀ path ∈ trail, LeadsWithin d b path) (hbelow : ∃ path ∈ trail, LeadsBelow d b path)
    (hholds : d.Holds x) (hx : x ∈ n :: d.descendants n) : LeadsTo d b (· ∈ d.descendants n) trail x := by
  induction trail generalizing x with
  | nil =>
    obtain ⟨path, hmem, -⟩ := hbelow
    cases hmem
  | cons path trail ih =>
    obtain ⟨hpath, htrail⟩ := List.forall_mem_cons.mp h
    intro ns hns m hm
    have hheld := holds_of_mem_selectAt hholds hns m hm
    obtain ⟨path', hmem, hbelow⟩ := hbelow
    rcases List.mem_cons.mp hmem with rfl | hmem
    · exact leadsTo_downClosed (downClosed_descendants d n) htrail hheld
        (mem_descendants_of_within hx (hbelow x ns hholds hns m hm))
    · exact ih htrail ⟨path', hmem, hbelow⟩ hheld ((downClosed_within d n).within hx (hpath x ns hholds hns m hm))

theorem Mapping.Guarded.defersTo {m : Mapping} (h : m.Guarded d b) (hn : d.Holds n) :
    m.DefersTo d b (· ∈ d.descendants n) n := by
  intro trail htrail
  obtain ⟨hbelow, hwithin⟩ := h trail htrail
  exact leadsTo_below hwithin hbelow hn List.mem_cons_self

theorem Mapping.ends_apply (m : Mapping) {resolve : Reference → Node → Run Json}
    (hkept : ∀ reference n, P n → (resolve reference n).Ends) (hdefers : m.DefersTo d b P n) :
    (m.apply resolve d b n).Ends :=
  have hcarries : Run.Carries (fun _ r _ => r.Ends) _ d b P resolve resolve := Run.composes_ends.carries hkept
  hcarries.apply (.refl m) hdefers

/-- Each time a reference is applied there are fewer nodes below. -/
theorem ends_resolveWithin (h : ∀ x ∈ defs, x.2.Guarded d b) {depth : Nat} {reference : Reference} (hn : d.Holds n)
    (hdepth : (d.descendants n).length < depth) : (resolveWithin defs d b depth reference n).Ends := by
  induction depth generalizing reference n with
  | zero => exact absurd hdepth (Nat.not_lt_zero _)
  | succ depth ih =>
    cases hget : defs.get? reference with
    | none =>
      rw [resolveWithin_succ, follow_of_none hget]
      exact nofun
    | some m =>
      cases reference with
      | nodeTree =>
        rw [resolveWithin_nodeTree defs d b hdepth]
        exact Run.ends_done _
      | named name =>
        rw [resolveWithin_succ, follow_of_get? hget]
        have hguarded : m.Guarded d b := h (name, m) (Definitions.mem_of_lookup hget)
        refine m.ends_apply (fun reference x hx => ih (Document.holds_of_mem_descendants hx) ?_) (hguarded.defersTo hn)
        have := Document.length_descendants_lt hx
        omega

theorem ends_run (h : ∀ x ∈ defs, x.2.Guarded d b) (m : Mapping) (hn : d.Holds n) : (m.run defs d b n).Ends := by
  refine m.ends_apply (fun reference x hx => ends_resolveWithin h hx ?_) (m.defersTo_holds hn)
  calc (d.descendants x).length
      < d.size := d.length_descendants_lt_size x
    _ ≤ referenceDepth defs d := Nat.le_mul_of_pos_left _ (Nat.succ_pos _)

/-! ### References that come back -/

section
variable {m : Mapping} {reference : Reference} (hget : defs.get? reference = some m)
  (hback : ∀ resolve, (m.apply resolve d b n).Ends → (resolve reference n).Ends)
include hget hback

/-- Where a mapping comes back to the node by the reference that stands for it, no depth is enough. -/
theorem not_ends_resolveWithin (depth : Nat) : ¬(resolveWithin defs d b depth reference n).Ends := by
  induction depth with
  | zero => exact not_not_intro rfl
  | succ depth ih =>
    rw [resolveWithin_succ, follow_of_get? hget]
    exact fun hends => ih (hback _ hends)

theorem not_ends_applyWithin (depth : Nat) : ¬(m.applyWithin defs d b depth n).Ends :=
  fun hends => not_ends_resolveWithin hget hback depth (hback _ hends)

end

end

end XmlMapping
