import XmlMapping.Mapping.Deferral
import XmlMapping.Proofs.Mapping.Descent

/-! # References and what they stand for

A deferral runs its producer once, if it is asked for anything, and every answer is one of that product. So a
reference may be replaced by the mapping that it stands for, here and in the definitions, as often as one likes:
no result and no error changes. A mapping that refers to itself has no last replacement; so what it comes to before
and after is compared depth by depth, and either approximates the other. -/

namespace XmlMapping

/-! ### One run of the producer -/

namespace Deferral
variable {α β : Type}

theorem forceEach_cons {x y : Deferral α} {a : α} (h : x.force = (a, y)) (ask : α → β) (asks : List (α → β)) :
    x.forceEach (ask :: asks) = (ask a :: (y.forceEach asks).1, (y.forceEach asks).2) := by
  rw [forceEach, h]

theorem forceEach_of_product {x : Deferral α} {a : α} (h : x.product = some a) (asks : List (α → β)) :
    x.forceEach asks = (asks.map fun ask => ask a, x) := by
  have hforce : x.force = (a, x) := by rw [force, h]
  induction asks with
  | nil => rfl
  | cons ask asks ih => rw [forceEach_cons hforce, ih, List.map_cons]

/-- All answers are of the product of the first run, and there is no other run. -/
theorem forceEach_ofProducer (produce : Nat → α) (asks : List (α → β)) :
    (ofProducer produce).forceEach asks = (asks.map fun ask => ask (produce 0),
      if asks.isEmpty then ofProducer produce else ⟨produce, some (produce 0), 1⟩) := by
  cases asks with
  | nil => rfl
  | cons ask asks =>
    have hforce : (ofProducer produce).force = (produce 0, ⟨produce, some (produce 0), 1⟩) := rfl
    rw [forceEach_cons hforce, forceEach_of_product rfl]
    rfl

end Deferral

/-! ### Replacing references -/

section
variable {defs defs' : Definitions} {d : Document} {b : Bindings} {reference : Reference} {n : Node} {depth : Nat}
  {m m' : Mapping} {resolve' : Reference → Node → Run Json}

theorem carries_approximates (h : ∀ reference n, d.Holds n →
    (resolveWithin defs d b depth reference n).Approximates (resolve' reference n)) :
    Run.Carries (fun _ r r' => r.Approximates r') defs.get? d b d.Holds (resolveWithin defs d b depth) resolve' where
  toComposes := Run.composes_approximates
  kept := h
  replaced reference m n r hn hget hr := by
    refine (approximates_succ depth hn).trans ?_
    rw [resolveWithin_succ, follow_of_get? hget]
    exact hr (m.defersTo_holds hn)

theorem carries_approximated (h : ∀ reference n, d.Holds n →
    (resolve' reference n).Approximates (resolve defs d b reference n)) :
    Run.Carries (fun _ r r' => r'.Approximates r) defs.get? d b d.Holds (resolve defs d b) resolve' where
  toComposes := Run.composes_approximated
  kept := h
  replaced reference m n r hn hget hr := by
    refine (hr (m.defersTo_holds hn)).trans ?_
    rw [← follow_of_get? hget]
    exact (resolve_agrees hn).approximated

/-- No depth before the replacement makes another thing of a node than what is made of it after. -/
theorem Definitions.Unrolls.approximates (h : defs.Unrolls defs') (depth : Nat) (hn : d.Holds n) :
    (resolveWithin defs d b depth reference n).Approximates (resolve defs' d b reference n) := by
  induction depth generalizing reference n with
  | zero => exact Run.approximates_of_not_ends (not_not_intro rfl) _
  | succ depth ih =>
    -- One level of depth before is one reference followed after.
    have hfollow := (carries_approximates fun _ _ => ih).follow (h.get? reference) hn
    exact hfollow.trans (resolve_agrees hn).approximated

/-- No depth after the replacement makes another thing of a node than what is made of it before. -/
theorem Definitions.Unrolls.approximated (h : defs.Unrolls defs') (depth : Nat) (hn : d.Holds n) :
    (resolveWithin defs' d b depth reference n).Approximates (resolve defs d b reference n) := by
  induction depth generalizing reference n with
  | zero => exact Run.approximates_of_not_ends (not_not_intro rfl) _
  | succ depth ih =>
    have hfollow := (carries_approximated fun _ _ => ih).follow (h.get? reference) hn
    exact hfollow.trans (resolve_agrees hn).approximated

theorem Mapping.Unrolls.run_agrees (hm : m.Unrolls defs.get? m') (h : defs.Unrolls defs') (hn : d.Holds n) :
    (m.run defs d b n).Agrees (m'.run defs' d b n) :=
  have hbefore := carries_approximates (b := b) fun _ _ => h.approximates (referenceDepth defs d)
  have hafter := carries_approximated (b := b) fun _ _ => h.approximated (referenceDepth defs' d)
  Run.agrees_of_approximates (hbefore.apply hm (m.defersTo_holds hn)) (hafter.apply hm (m.defersTo_holds hn))

end

/-- All applications of a deferral are ones of the product of the first run of its producer, and it has no other run.
    A reference is at each node what the mapping is that it stands for; so references may be replaced, in a mapping
    and in the definitions, without changing a result or an error at any node. A run that fails for want of depth fails
    with every depth; and no run does where there is a path that leads below on the way to each reference in the
    definitions, and none that leads anywhere but down. -/
theorem deferred_transparent (defs : Definitions) (b : Bindings) :
    (∀ (produce : Nat → Document → Node → Run Json) (places : List (Document × Node)),
      (Deferral.ofProducer produce).forceEach (places.map fun x make => make x.1 x.2) =
        (places.map fun x => produce 0 x.1 x.2,
          if places.isEmpty then .ofProducer produce else ⟨produce, some (produce 0), 1⟩)) ∧
      (∀ reference m, defs.get? reference = some m → ∀ (d : Document) n, d.Holds n →
        ((Mapping.deferred reference).run defs d b n).Agrees (m.run defs d b n)) ∧
      (∀ defs' (m m' : Mapping), defs.Unrolls defs' → m.Unrolls defs.get? m' → ∀ (d : Document) n, d.Holds n →
        (m.run defs d b n).Agrees (m'.run defs' d b n)) ∧
      (∀ (m : Mapping) (d : Document) n, d.Holds n → ∀ depth,
        (m.applyWithin defs d b depth n).Approximates (m.run defs d b n)) ∧
      ∀ d, (∀ x ∈ defs, x.2.Guarded d b) → ∀ (m : Mapping) n, d.Holds n → (m.run defs d b n).Ends ∧
        ∀ depth, referenceDepth defs d ≤ depth → m.applyWithin defs d b depth n = m.run defs d b n := by
  refine ⟨fun produce places => ?_, fun reference m hget d n hn => ?_, fun defs' m m' hdefs hm d n hn => ?_,
    fun m d n hn depth => ?_, fun d hguarded m n hn => ⟨ends_run hguarded m hn, fun depth hdepth => ?_⟩⟩
  · rw [Deferral.forceEach_ofProducer, List.map_map, List.isEmpty_map]
    rfl
  · exact Mapping.Unrolls.run_agrees (.replaced hget (.refl m)) (.refl defs) hn
  · exact hm.run_agrees hdefs hn
  · exact Run.composes_approximates.apply (fun _ _ => approximates_resolve depth) m (m.defersTo_holds hn)
  · exact Run.composes_approximates.apply (fun _ _ => approximates_of_le hdepth) m (m.defersTo_holds hn)
      (ends_run hguarded m hn)

/-- Its title, and the outlines of its parts. -/
def outline : Mapping :=
  .object [.textAt "title" "@title", .here "parts" (.array "part" (.deferred (.named "outline")))]

/-- The same with the reference replaced by what it stands for. -/
def outlineOnce : Mapping :=
  .object [.textAt "title" "@title", .here "parts" (.array "part" outline)]

abbrev outlineDefinitions : Definitions := [("outline", outline)]

/-- `<part title="a"><part title="b"/></part>` -/
def outlineDocument : Document :=
  ⟨[.element ⟨⟨none, "part"⟩, [], [⟨⟨none, "title"⟩, "a"⟩]⟩
    [.element ⟨⟨none, "part"⟩, [], [⟨⟨none, "title"⟩, "b"⟩]⟩ []]]⟩

/-- What a mapping makes of the outer part in this document. -/
abbrev outlineRun (m : Mapping) : Run Json :=
  m.run outlineDefinitions outlineDocument .empty (.ofPath [0])

theorem unrolls_outline : outline.Unrolls outlineDefinitions.get? outlineOnce :=
  .object (.cons (.textAt "title" "@title") (.cons (.here "parts" (.array "part" (.replaced rfl (.refl outline)))) .nil))

theorem guarded_outline (d : Document) (b : Bindings) : outline.Guarded d b := by
  have hpath : XPath.compile "part" = .ok (.path .context [⟨.child, .name ⟨none, "part"⟩, []⟩]) := by
    with_unfolding_all rfl
  have hbelow : LeadsBelow d b "part" := leadsBelow_of_step hpath (Or.inl rfl) d b
  intro trail htrail
  obtain rfl := List.mem_singleton.mp htrail
  exact ⟨⟨"part", List.mem_singleton_self _, hbelow⟩, List.forall_mem_singleton.mpr hbelow.within⟩

/-- The outline refers to itself for the part in the part, and ends there. -/
theorem deferred_transparent_outline :
    outline.Guarded outlineDocument .empty ∧ (outlineRun outline).Ends ∧
      outlineRun outline = .done (.object [("title", .string "a"),
        ("parts", .array [.object [("title", .string "b"), ("parts", .array [])]])]) ∧
      (outlineRun (.deferred (.named "outline"))).Agrees (outlineRun outline) ∧
      outline.Unrolls outlineDefinitions.get? outlineOnce ∧ (outlineRun outline).Agrees (outlineRun outlineOnce) ∧
      ((Deferral.ofProducer fun _ d n => outline.run outlineDefinitions d .empty n).forceEach
        [fun make => make outlineDocument (.ofPath [0]), fun make => make outlineDocument .root]).2.runs = 1 := by
  obtain ⟨honce, hstands, hunrolls, -, hguarded⟩ := deferred_transparent outlineDefinitions .empty
  have hn : outlineDocument.Holds (.ofPath [0]) := rfl
  have hdefinitions : ∀ x ∈ outlineDefinitions, x.2.Guarded outlineDocument .empty :=
    List.forall_mem_singleton.mpr (guarded_outline outlineDocument .empty)
  refine ⟨guarded_outline _ _, (hguarded _ hdefinitions outline _ hn).1, ?_, hstands _ outline rfl _ _ hn,
    unrolls_outline, hunrolls _ _ _ (.refl _) unrolls_outline _ _ hn, ?_⟩
  · with_unfolding_all rfl
  · have hruns := honce (fun _ d n => outline.run outlineDefinitions d .empty n)
      [(outlineDocument, .ofPath [0]), (outlineDocument, .root)]
    exact congrArg (fun after => after.2.runs) hruns

/-- Up to the parent and down to its child elements, again and again. -/
def upAndDown : Mapping :=
  .array ".." (.array "child::*" (.deferred (.named "upAndDown")))

abbrev upAndDownDefinitions : Definitions := [("upAndDown", upAndDown)]

/-- `<a/>` -/
def loneElement : Document :=
  ⟨[.element ⟨⟨none, "a"⟩, [], []⟩ []]⟩

theorem leadsBelow_children (d : Document) (b : Bindings) : LeadsBelow d b "child::*" := by
  have hpath : XPath.compile "child::*" = .ok (.path .context [⟨.child, .any, []⟩]) := by
    with_unfolding_all rfl
  exact leadsBelow_of_step hpath (Or.inl rfl) d b

/-- The reference is in an array over the child elements, and in every document these are below. But the array around
    that one leads up, so that the element leads back to itself, and no depth is enough. -/
theorem upAndDown_unending :
    (∀ d b, LeadsBelow d b "child::*") ∧ loneElement.Holds (.ofPath [0]) ∧
      (∀ depth, ¬(upAndDown.applyWithin upAndDownDefinitions loneElement .empty depth (.ofPath [0])).Ends) ∧
      ¬(upAndDown.run upAndDownDefinitions loneElement .empty (.ofPath [0])).Ends := by
  have hup : selectAt loneElement .empty ".." (.ofPath [0]) = .ok [.root] := by with_unfolding_all rfl
  have hdown : selectAt loneElement .empty "child::*" .root = .ok [.ofPath [0]] := by with_unfolding_all rfl
  have hback (resolve : Reference → Node → Run Json)
      (h : (upAndDown.apply resolve loneElement .empty (.ofPath [0])).Ends) :
      (resolve (.named "upAndDown") (.ofPath [0])).Ends := ends_of_array hdown (ends_of_array hup h)
  have hnever : ∀ depth, ¬(upAndDown.applyWithin upAndDownDefinitions loneElement .empty depth (.ofPath [0])).Ends :=
    not_ends_applyWithin rfl hback
  exact ⟨leadsBelow_children, rfl, hnever, hnever (referenceDepth upAndDownDefinitions loneElement)⟩

end XmlMapping
