import XmlMapping.Proofs.Mapping.Paths

/-! # Runs that end

Where references are followed to a limited depth, a run may fail for want of depth. A run that does not is said to
end here, whether it comes to a value or to an error. One run approximates another that is the same if the first one
ends. Relations of this kind go through `bind`, and so through all that runs are made of. -/

namespace XmlMapping

/-! ### Relations between runs -/

namespace Run
variable {α β : Type}

/-- The run has depth enough: it comes upon no reference that is followed without end. -/
def Ends (r : Run α) : Prop :=
  r.result ≠ .error .unending

instance (r : Run α) : Decidable r.Ends :=
  match h : r.result with
  | .ok _ => .isTrue (by rw [Ends, h]; exact nofun)
  | .error e => decidable_of_iff (e ≠ .unending) (by rw [Ends, h, ne_eq, ne_eq, Except.error.injEq])

/-- The other run is this one if this one ends. -/
def Approximates (r r' : Run α) : Prop :=
  r.Ends → r' = r

/-- The runs come to the same value or the same error, and give the same warnings if they end. -/
def Agrees (r r' : Run α) : Prop :=
  r'.result = r.result ∧ r.Approximates r'

/-- A relation between runs that holds of runs that end and goes through `bind`. -/
structure Composes (Rel : (α : Type) → Run α → Run α → Prop) : Prop where
  refl : ∀ {α : Type} {r : Run α}, r.Ends → Rel α r r
  bind : ∀ {α β : Type} {r r' : Run α} {next next' : α → Run β}, Rel α r r' →
    (∀ a, r.result = .ok a → Rel β (next a) (next' a)) → Rel β (r.bind next) (r'.bind next')

variable {r r' r'' : Run α} {next next' : α → Run β}

theorem ends_done (a : α) : (done a).Ends :=
  nofun

theorem Approximates.refl (r : Run α) : r.Approximates r :=
  fun _ => rfl

theorem Approximates.ends (h : r.Approximates r') (hends : r.Ends) : r'.Ends := by
  rw [h hends]
  exact hends

theorem Approximates.trans (h : r.Approximates r') (h' : r'.Approximates r'') : r.Approximates r'' := by
  intro hends
  obtain rfl := h hends
  exact h' hends

theorem approximates_of_not_ends (h : ¬r.Ends) (r' : Run α) : r.Approximates r' :=
  fun hends => absurd hends h

theorem agrees_of_approximates (h : r.Approximates r') (h' : r'.Approximates r) : r.Agrees r' := by
  refine ⟨?_, h⟩
  by_cases hends : r.Ends
  · rw [h hends]
  · by_cases hends' : r'.Ends
    · rw [h' hends']
    · rw [not_not.mp hends, not_not.mp hends']

theorem Agrees.approximated (h : r.Agrees r') : r'.Approximates r := by
  intro hends
  refine (h.2 ?_).symm
  rw [Ends, ← h.1]
  exact hends

theorem ends_of_bind (h : (r.bind next).Ends) : r.Ends := by
  intro hr
  exact h (result_bind_error hr next)

theorem ends_next_of_bind {a : α} (h : (r.bind next).Ends) (ha : r.result = .ok a) : (next a).Ends := by
  intro hnext
  refine h ?_
  rw [result_bind, ha]
  exact hnext

theorem ends_of_map {f : α → β} (h : (r.map f).Ends) : r.Ends := by
  intro hr
  refine h ?_
  rw [result_map, hr]
  rfl

theorem Approximates.bind (hr : r.Approximates r')
    (hnext : ∀ a, r.result = .ok a → r'.result = .ok a → (next a).Approximates (next' a)) :
    (r.bind next).Approximates (r'.bind next') := by
  intro hends
  obtain rfl := hr (ends_of_bind hends)
  unfold Run.bind
  split
  · next a ha => rw [hnext a ha ha (ends_next_of_bind hends ha)]
  · rfl

theorem composes_approximates : Composes fun _ r r' => r.Approximates r' where
  refl _ := Approximates.refl _
  bind hr hnext := hr.bind fun a ha _ => hnext a ha

theorem composes_approximated : Composes fun _ r r' => r'.Approximates r where
  refl _ := Approximates.refl _
  bind hr hnext := hr.bind fun a _ ha => hnext a ha

theorem composes_ends : Composes fun _ r _ => r.Ends where
  refl hends := hends
  bind {_ _ r _ next _} hr hnext := by
    rw [Ends, result_bind]
    cases hresult : r.result with
    | ok a => exact hnext a hresult
    | error e => exact fun h => hr (hresult.trans (congrArg Except.error (Except.error.inj h)))

/-! ### Runs made of runs -/

namespace Composes
variable {Rel : (α : Type) → Run α → Run α → Prop} (h : Composes Rel) {f f' : α → Run β} {as : List α}
include h

theorem map (g : α → β) (hr : Rel α r r') : Rel β (r.map g) (r'.map g) := by
  have hmap : ∀ r : Run α, r.map g = r.bind fun a => done (g a) := fun r => by
    obtain ⟨warnings, _ | a⟩ := r
    · rfl
    · show _ = Run.mk (warnings ++ []) _
      rw [List.append_nil]
      rfl
  rw [hmap, hmap]
  exact h.bind hr fun a _ => h.refl (ends_done (g a))

theorem warn (w : Warning) (hr : Rel α r r') : Rel α (r.warn w) (r'.warn w) := by
  have hwarned : Rel Unit ⟨[w], .ok ()⟩ ⟨[w], .ok ()⟩ := h.refl nofun
  exact h.bind hwarned fun _ _ => hr

theorem each (hf : ∀ a ∈ as, Rel β (f a) (f' a)) : Rel (List β) (each f as) (each f' as) := by
  induction as with
  | nil => exact h.refl (ends_done [])
  | cons a as ih =>
    obtain ⟨ha, has⟩ := List.forall_mem_cons.mp hf
    exact h.bind ha fun b _ => h.map (b :: ·) (ih has)

end Composes
end Run

/-! ### Runs of mappings -/

section
variable {Rel : (α : Type) → Run α → Run α → Prop} (h : Run.Composes Rel)
  {d : Document} {b : Bindings} {path key : String} {n : Node} {make make' : Node → Run Json}
include h

theorem Run.Composes.selection {β : Type} {next next' : List Node → Run β}
    (hnext : ∀ ns, selectAt d b path n = .ok ns → Rel β (next ns) (next' ns)) :
    Rel β ((Run.ofExcept (selectAt d b path n)).bind next) ((Run.ofExcept (selectAt d b path n)).bind next') := by
  refine h.bind (h.refl ?_) hnext
  intro hresult
  rcases selectAt_cases d b path n with ⟨ns, hns⟩ | ⟨cause, hcause⟩
  · cases hns.symm.trans hresult
  · cases hcause.symm.trans hresult

theorem Run.Composes.itemsAt (hmake : ∀ ns, selectAt d b path n = .ok ns → ∀ m ∈ ns, Rel Json (make m) (make' m)) :
    Rel (List Json) (itemsAt d b path make n) (itemsAt d b path make' n) :=
  h.selection fun ns hns => h.each (hmake ns hns)

theorem Run.Composes.firstAt (hmake : ∀ ns, selectAt d b path n = .ok ns → ∀ m ∈ ns, Rel Json (make m) (make' m)) :
    Rel Json (firstAt d b key path make n) (firstAt d b key path make' n) := by
  refine h.selection fun ns hns => ?_
  have hmake := hmake ns hns
  rcases ns with _ | ⟨m, _ | ⟨m', ns⟩⟩
  · exact h.refl (r := Run.done Json.null) (Run.ends_done _)
  · exact hmake m List.mem_cons_self
  · exact h.warn _ (hmake m List.mem_cons_self)

end

/-- An array that comes to an end does so at the first node that its path leads to. -/
theorem ends_of_array {resolve : Reference → Node → Run Json} {d : Document} {b : Bindings} {path : String}
    {element : Mapping} {n m : Node} {ns : List Node} (hns : selectAt d b path n = .ok (m :: ns))
    (h : ((Mapping.array path element).apply resolve d b n).Ends) : (element.apply resolve d b m).Ends := by
  rw [Mapping.apply] at h
  have hitems : (itemsAt d b path (element.apply resolve d b) n).Ends := Run.ends_of_map h
  have heach : (Run.each (element.apply resolve d b) (m :: ns)).Ends := Run.ends_next_of_bind hitems hns
  exact Run.ends_of_bind heach

theorem Conversion.ends_run (input : String) (c : Conversion) : (c.run input).Ends := by
  cases c <;> exact nofun

end XmlMapping
