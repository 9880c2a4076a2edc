/-! # Results that may fail

When a step after another, or a result with its value changed, gives a value or an error; and when two results
differ at most in why they fail. -/

namespace XmlMapping

variable {ε α β : Type}

theorem except_bind_eq_ok {x : Except ε α} {f : α → Except ε β} {b : β} :
    (x >>= f) = .ok b ↔ ∃ a, x = .ok a ∧ f a = .ok b := by
  cases x <;> simp [bind, Except.bind]

theorem except_map_eq_ok {x : Except ε α} {f : α → β} {b : β} :
    x.map f = .ok b ↔ ∃ a, x = .ok a ∧ f a = b := by
  cases x <;> simp [Except.map]

theorem except_bind_eq_error {x : Except ε α} {f : α → Except ε β} {e : ε} :
    (x >>= f) = .error e ↔ x = .error e ∨ ∃ a, x = .ok a ∧ f a = .error e := by
  cases x <;> simp [bind, Except.bind]

theorem except_bind_congr {x : Except ε α} {f g : α → Except ε β} (h : ∀ a, x = .ok a → f a = g a) :
    (x >>= f) = x >>= g := by
  cases x with
  | error e => rfl
  | ok a => exact h a rfl

theorem except_map_eq_error {x : Except ε α} {f : α → β} {e : ε} : x.map f = .error e ↔ x = .error e := by
  cases x <;> simp [Except.map]

theorem except_mapError_eq_ok {ε' : Type} {x : Except ε α} {f : ε → ε'} {a : α} : x.mapError f = .ok a ↔ x = .ok a := by
  cases x <;> constructor <;> rintro ⟨⟩ <;> rfl

theorem except_mapError_eq_error {ε' : Type} {x : Except ε α} {f : ε → ε'} {e : ε'} :
    x.mapError f = .error e ↔ ∃ cause, x = .error cause ∧ f cause = e := by
  constructor
  · intro h
    cases x <;> cases h
    exact ⟨_, rfl, rfl⟩
  · rintro ⟨_, rfl, rfl⟩
    rfl

/-- A check that throws is passed when a value comes out. -/
theorem throw_or_eq_ok {γ : Type} {c : Prop} [Decidable c] {e : ε} {f : γ → Except ε β} {x : Except ε β} {b : β} :
    (if c then throw e >>= f else x) = .ok b ↔ ¬c ∧ x = .ok b := by
  split <;> simp_all [throw, throwThe, MonadExceptOf.throw, bind, Except.bind]

/-- A result is an error. -/
def Fails (x : Except ε α) : Prop :=
  ∃ e, x = .error e

theorem fails_iff {x : Except ε α} : Fails x ↔ ¬∃ a, x = .ok a := by
  cases x <;> simp [Fails]

/-- Two results are the same value, or both are errors. -/
def SameOutcome (x y : Except ε α) : Prop :=
  ∀ a, x = .ok a ↔ y = .ok a

namespace SameOutcome
variable {x y z : Except ε α}

theorem refl (x : Except ε α) : SameOutcome x x := fun _ => Iff.rfl

theorem symm (h : SameOutcome x y) : SameOutcome y x := fun a => (h a).symm

theorem trans (h : SameOutcome x y) (h' : SameOutcome y z) : SameOutcome x z := fun a => (h a).trans (h' a)

theorem bind {f g : α → Except ε β} (h : SameOutcome x y) (hfg : ∀ a, SameOutcome (f a) (g a)) :
    SameOutcome (x >>= f) (y >>= g) := fun b => by
  simp only [except_bind_eq_ok]
  exact exists_congr fun a => and_congr (h a) (hfg a b)

theorem map (f : α → β) (h : SameOutcome x y) : SameOutcome (x.map f) (y.map f) := fun b => by
  simp only [except_map_eq_ok]
  exact exists_congr fun a => and_congr_left' (h a)

end SameOutcome

end XmlMapping
