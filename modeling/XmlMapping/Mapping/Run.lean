import XmlMapping.Error

/-!
# Runs

What comes of running a mapping: a result or an error, and the warnings given on the way, in order. The
warnings given before an error stand.
-/

namespace XmlMapping

/-- Something to be warned of: a path leads to several nodes where one is wanted. -/
structure Warning where
  path : String
  count : Nat
  key : String
deriving DecidableEq

/-- The message of a warning. -/
def Warning.message (w : Warning) : String :=
  "'" ++ w.path ++ "' matched " ++ toString w.count ++ " nodes for key '" ++ w.key ++ "'; using the first"

/-- What comes of a run. -/
structure Run (α : Type) where
  warnings : List Warning
  result : Except Error α

namespace Run
variable {α β : Type}

/-- A run that only has a result. -/
def done (a : α) : Run α :=
  ⟨[], .ok a⟩

/-- A run that only has an error. -/
def fail (e : Error) : Run α :=
  ⟨[], .error e⟩

/-- A run without warnings. -/
def ofExcept (r : Except Error α) : Run α :=
  ⟨[], r⟩

/-- A run with a warning before it. -/
def warn (w : Warning) (r : Run α) : Run α :=
  ⟨w :: r.warnings, r.result⟩

/-- A run that goes on from the result of another. -/
def bind (r : Run α) (next : α → Run β) : Run β :=
  match r.result with
  | .ok a => ⟨r.warnings ++ (next a).warnings, (next a).result⟩
  | .error e => ⟨r.warnings, .error e⟩

/-- A run with its result changed. -/
def map (f : α → β) (r : Run α) : Run β :=
  ⟨r.warnings, r.result.map f⟩

/-- Runs for the items of a list, one after the other, up to the first error. -/
def each (f : α → Run β) : List α → Run (List β)
  | [] => done []
  | a :: as => (f a).bind fun b => (each f as).map (b :: ·)

theorem result_bind (r : Run α) (next : α → Run β) :
    (r.bind next).result = r.result.bind fun a => (next a).result := by
  unfold bind
  cases r.result <;> rfl

theorem result_map (f : α → β) (r : Run α) : (r.map f).result = r.result.map f :=
  rfl

end Run
end XmlMapping
