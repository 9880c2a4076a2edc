import XmlMapping.Conversion.Basic
import XmlMapping.Document.Navigation

/-!
# Conversions of nodes

What can be said of a node other than its text.
-/

namespace XmlMapping

/-- The name of a kind of nodes. -/
def NodeKind.name : NodeKind → String
  | .document => "root"
  | .element => "element"
  | .attribute => "attribute"
  | .text => "text"
  | .comment => "comment"
  | .instruction => "pi"

/-- The place of a node in writing: the numbers of the children to go through, each after a slash, and
    the number of an attribute after an at sign. -/
def Node.place (n : Node) : String :=
  String.join (n.path.reverse.map fun i => "/" ++ toString i) ++
    match n.attr with
    | some k => "/@" ++ toString k
    | none => ""

namespace NodeConversion

/-- The name of the node. -/
def nodeName : NodeConversion := fun d n =>
  .value (.string (d.nodeName n))

/-- The local part of the name of the node. -/
def localName : NodeConversion := fun d n =>
  .value (.string (d.localName n))

/-- The number of attributes. -/
def attributeCount : NodeConversion := fun d n =>
  .value (.integer (d.attributes n).length)

/-- The number of children. -/
def childCount : NodeConversion := fun d n =>
  .value (.integer (d.children n).length)

/-- The kind of the node. -/
def kind : NodeConversion := fun d n =>
  .value (match d.kind? n with | some k => .string k.name | none => .null)

/-- The place of the node. -/
def place : NodeConversion := fun _ n =>
  .value (.string n.place)

/-- The name of the parent; null for the document node. -/
def parentName : NodeConversion := fun d n =>
  .value (match n.parent? with | some p => .string (d.nodeName p) | none => .null)

/-- A conversion that takes no node. -/
def refuse (reason : String) : NodeConversion := fun _ _ =>
  .failure (.refused reason)

/-- A conversion that never comes to a JSON value. -/
def noJson : NodeConversion := fun _ _ =>
  .noJson

end NodeConversion
end XmlMapping
