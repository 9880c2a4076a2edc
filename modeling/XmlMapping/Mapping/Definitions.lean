import XmlMapping.Mapping.Ready

/-!
# Definitions and references

Mappings are defined by name, so that they can refer to each other and to themselves. A reference is
followed when it comes to be applied. A mapping that refers to itself without getting to another node
never comes to an end; so references are followed to a limited depth. Along a chain of references that
ends, no reference is applied to the same node twice, and the product of the numbers of references and
nodes is depth enough.
-/

namespace XmlMapping

/-- Mappings by their names. -/
abbrev Definitions := List (String × Mapping)

/-- The mapping that a reference stands for. -/
def Definitions.get? (defs : Definitions) : Reference → Option Mapping
  | .nodeTree => some .nodeTree
  | .named name => defs.lookup name

/-- The name in a reference, for a message. -/
def Reference.name : Reference → String
  | .nodeTree => "node tree"
  | .named name => name

section
variable (defs : Definitions) (d : Document) (b : Bindings)

/-- What a reference makes of a node, with references followed to a depth. -/
def resolveWithin : Nat → Reference → Node → Run Json
  | 0, _, _ => .fail .unending
  | depth + 1, reference, n =>
    match defs.get? reference with
    | some m => m.apply (resolveWithin depth) d b n
    | none => .fail (.undefined reference.name)

/-- What a mapping makes of a node, with references followed to a depth. -/
def Mapping.applyWithin (depth : Nat) (m : Mapping) (n : Node) : Run Json :=
  m.apply (resolveWithin defs d b depth) d b n

/-- The nodes of a document, attributes included. -/
def Document.size : Nat :=
  (Node.root :: d.descendants .root).foldl (fun count n => count + 1 + (d.attributes n).length) 0

/-- The depth to which references are followed in a document. -/
def referenceDepth : Nat :=
  (defs.length + 1) * d.size

/-- What references make of nodes. -/
def resolve : Reference → Node → Run Json :=
  resolveWithin defs d b (referenceDepth defs d)

/-- What a mapping makes of a node. -/
def Mapping.run (m : Mapping) (n : Node) : Run Json :=
  m.apply (resolve defs d b) d b n

end

end XmlMapping
