/-!
# Deferrals

A deferral has a producer that is run when the product is first asked for, and then keeps the product. A
producer may give another product each time it runs; only its first run is ever asked for.
-/

namespace XmlMapping

/-- A producer, by the number of the run, with the product that is kept and the number of runs so far. -/
structure Deferral (α : Type) where
  produce : Nat → α
  product : Option α
  runs : Nat

namespace Deferral
variable {α : Type}

/-- A deferral whose producer has not run. -/
def ofProducer (produce : Nat → α) : Deferral α :=
  ⟨produce, none, 0⟩

/-- The product, with the deferral that keeps it. -/
def force (x : Deferral α) : α × Deferral α :=
  match x.product with
  | some a => (a, x)
  | none =>
    let a := x.produce x.runs
    (a, { x with product := some a, runs := x.runs + 1 })

/-- What is asked of the product time after time, and the deferral after that. -/
def forceEach {β : Type} (x : Deferral α) : List (α → β) → List β × Deferral α
  | [] => ([], x)
  | ask :: asks =>
    let (a, y) := x.force
    let (answers, z) := y.forceEach asks
    (ask a :: answers, z)

end Deferral
end XmlMapping
