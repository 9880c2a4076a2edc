import XmlMapping.Mapping.Basic

/-!
# Declaring bindings

Bindings are declared one after the other. A binding for a key that is declared already takes the place
of the earlier one, so that keys keep the order of their first declarations.
-/

namespace XmlMapping

/-- Bindings with one more declared. -/
def declare (binding : Binding) : List Binding → List Binding
  | [] => [binding]
  | other :: others =>
    if other.key = binding.key then binding :: others else other :: declare binding others

/-- The bindings of a sequence of declarations. -/
def declareAll (declarations : List Binding) : List Binding :=
  declarations.foldl (fun bindings binding => declare binding bindings) []

/-- The mapping to an object by a sequence of declarations. -/
def Mapping.ofDeclarations (declarations : List Binding) : Mapping :=
  .object (declareAll declarations)

end XmlMapping
