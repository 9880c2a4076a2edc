/-!
# Documents

A document is a forest of elements, texts, comments and processing instructions. An element has a start
tag with its name, the namespaces it declares and its attributes. A name is a local part together with
the namespace it is in; the prefix that was written for it is not part of it.
-/

namespace XmlMapping

/-- A name with the namespace it is in, if any. -/
structure ExpandedName where
  namespaceUri : Option String
  localPart : String
deriving DecidableEq

/-- A namespace declared for a prefix, or as the default. -/
structure Declaration where
  nsPrefix : Option String
  uri : String
deriving DecidableEq

/-- An attribute; declarations of namespaces are none. -/
structure Attribute where
  name : ExpandedName
  value : String
deriving DecidableEq

/-- What the start tag of an element holds. -/
structure Tag where
  name : ExpandedName
  declarations : List Declaration
  attributes : List Attribute
deriving DecidableEq

/-- A node of a document with everything below it. -/
inductive Tree
  | element (tag : Tag) (children : List Tree)
  | text (content : String)
  | comment (content : String)
  | instruction (target content : String)

/-- A document, given by what stands at its top level. -/
structure Document where
  trees : List Tree

/-- The children of a tree. -/
def Tree.children : Tree → List Tree
  | .element _ ts => ts
  | .text _ => []
  | .comment _ => []
  | .instruction .. => []

/-- Whether a tree is an element. -/
def Tree.isElement : Tree → Bool
  | .element .. => true
  | _ => false

mutual

/-- The texts in a tree, in order. -/
def Tree.textWithin : Tree → String
  | .element _ ts => textWithinAll ts
  | .text s => s
  | .comment _ => ""
  | .instruction .. => ""

/-- The texts in several trees, in order. -/
def textWithinAll : List Tree → String
  | [] => ""
  | t :: ts => t.textWithin ++ textWithinAll ts

end

/-- The string value of a tree: the texts in an element, otherwise the content. -/
def Tree.stringValue : Tree → String
  | .element _ ts => textWithinAll ts
  | .text s => s
  | .comment s => s
  | .instruction _ s => s

end XmlMapping
