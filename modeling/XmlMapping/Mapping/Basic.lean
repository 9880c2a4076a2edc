import XmlMapping.Mapping.Run
import XmlMapping.XPath.Evaluation

/-!
# Mappings

A mapping says which JSON value to make of a node. It converts the node or its text, makes an object
with a member for each of several bindings, or makes an array with an item for each node that a path
leads to. A mapping may also refer to one that is defined elsewhere; this is how a mapping comes to
refer to itself.

Paths are kept as they are written, so that a path that is no expression, or that has a prefix without a
binding, is an error of running the mapping and not of declaring it.
-/

namespace XmlMapping

/-- What a mapping may refer to: the mapping to a node tree, or a definition by its name. -/
inductive Reference
  | nodeTree
  | named (name : String)
deriving DecidableEq

mutual

/-- What to make of a node. -/
inductive Mapping
  | text (convert : TextConversion)
  | node (convert : NodeConversion)
  | object (bindings : List Binding)
  | array (path : String) (element : Mapping)
  | deferred (reference : Reference)

/-- What to make of a node under a key: the text of the first node that a path leads to, the value that a
    mapping makes of that node, or the value that a mapping makes of the node itself. -/
inductive Binding
  | textAt (key path : String)
  | mappedAt (key path : String) (element : Mapping)
  | here (key : String) (element : Mapping)

end

/-- The key of a binding. -/
def Binding.key : Binding → String
  | .textAt key _ => key
  | .mappedAt key _ _ => key
  | .here key _ => key

/-! ### Running -/

/-- The nodes that a path leads to, in document order. -/
def selectAt (d : Document) (b : Bindings) (path : String) (n : Node) : Except Error (List Node) :=
  (XPath.compile path >>= fun e => e.select d b n).mapError (.path path)

/-- A conversion as a run, given the text that an error shows. -/
def Conversion.run (input : String) : Conversion → Run Json
  | .value v => .done v
  | .failure cause => .fail (.conversion input cause)
  | .noJson => .fail (.json .malformed)

/-- The value made of the first of several nodes: null if there is none, with a warning if there are
    several. -/
def firstOf (key path : String) (make : Node → Run Json) : List Node → Run Json
  | [] => .done .null
  | [n] => make n
  | n :: m :: ns => .warn ⟨path, (n :: m :: ns).length, key⟩ (make n)

/-- The items made of the nodes that a path leads to. -/
def itemsAt (d : Document) (b : Bindings) (path : String) (make : Node → Run Json) (n : Node) : Run (List Json) :=
  (Run.ofExcept (selectAt d b path n)).bind (Run.each make)

/-- The value made of the first node that a path leads to. -/
def firstAt (d : Document) (b : Bindings) (key path : String) (make : Node → Run Json) (n : Node) : Run Json :=
  (Run.ofExcept (selectAt d b path n)).bind (firstOf key path make)

section
variable (resolve : Reference → Node → Run Json) (d : Document) (b : Bindings)

mutual

/-- The value that a mapping makes of a node, given what references come to. -/
def Mapping.apply : Mapping → Node → Run Json
  | .text convert, n => (convert (d.stringValue n)).run (d.stringValue n)
  | .node convert, n => (convert d n).run (d.stringValue n)
  | .object bindings, n => (membersOf bindings n).map .object
  | .array path element, n => (itemsAt d b path element.apply n).map .array
  | .deferred reference, n => resolve reference n

/-- The value that a binding makes of a node. -/
def Binding.apply : Binding → Node → Run Json
  | .textAt key path, n => firstAt d b key path (fun m => .done (.string (d.stringValue m))) n
  | .mappedAt key path element, n => firstAt d b key path element.apply n
  | .here _ element, n => element.apply n

/-- The members that bindings make of a node, in order. -/
def membersOf : List Binding → Node → Run (List (String × Json))
  | [], _ => .done []
  | binding :: bindings, n =>
    (binding.apply n).bind fun v => (membersOf bindings n).map ((binding.key, v) :: ·)

end

end

end XmlMapping
