import XmlMapping.Document.Node

/-!
# Displayed names

The name that is shown for a node has a prefix found among the namespace declarations in scope at its
element: the element's own, in their order, and then the inherited ones that are not declared again.
The first declaration of the namespace gives the prefix, and none when it is the default declaration.
-/

namespace XmlMapping

/-- The namespace that the prefix `xml` always stands for. -/
def xmlNamespace : String :=
  "http://www.w3.org/XML/1998/namespace"

/-- The declarations in scope at an element: those around it when it has none, and otherwise its own and
    then the first one around it for each prefix that it does not declare again. -/
def inScope (own around : List Declaration) : List Declaration :=
  if own.isEmpty then around
  else
    let inherited := around.filter fun d => !own.any (·.nsPrefix == d.nsPrefix)
    own ++ inherited.eraseDupsBy fun d e => d.nsPrefix == e.nsPrefix

/-- The declarations in scope after going down through children by their numbers, given those around the
    trees to start from. -/
def scopeBelow (ts : List Tree) (around : List Declaration) : List Nat → List Declaration
  | [] => around
  | i :: deeper =>
    match ts[i]? with
    | some (.element tag ts') => scopeBelow ts' (inScope tag.declarations around) deeper
    | _ => around

/-- The prefix that is shown for a namespace. -/
def shownPrefix (scope : List Declaration) (uri : String) : Option String :=
  if uri = xmlNamespace then some "xml" else (scope.find? (·.uri == uri)).bind (·.nsPrefix)

namespace Document
variable (d : Document)

/-- The namespace declarations in scope at a node; for an attribute, at its element. -/
def scope (n : Node) : List Declaration :=
  scopeBelow d.trees [] n.path.reverse

/-- The prefix that is shown for the name of a node. -/
def shownPrefix? (n : Node) : Option String := do
  let name ← d.name? n
  let uri ← name.namespaceUri
  shownPrefix (d.scope n) uri

/-- The name of a node with the prefix that is shown for it; empty for a node without a name. -/
def qualifiedName (n : Node) : String :=
  match d.name? n with
  | some name =>
    match d.shownPrefix? n with
    | some p => p ++ ":" ++ name.localPart
    | none => name.localPart
  | none => ""

/-- The local part of the name of a node; empty for a node without a name. -/
def localName (n : Node) : String :=
  match d.name? n with
  | some name => name.localPart
  | none => ""

/-- The namespace of the name of a node; empty for a node without one. -/
def namespaceUri (n : Node) : String :=
  match d.name? n with
  | some name => name.namespaceUri.getD ""
  | none => ""

/-- The name that stands for a node in a node tree: a qualified name, or a word for the kinds of nodes
    that have no name. -/
def nodeName (n : Node) : String :=
  match d.kind? n with
  | some .document => "#document"
  | some .text => "#text"
  | some .comment => "#comment"
  | _ => d.qualifiedName n

end Document
end XmlMapping
