import XmlMapping.Conversion.Node
import XmlMapping.Conversion.Text
import XmlMapping.Mapping.Object

/-!
# Ready-made mappings

The mappings that are needed most: texts, names, numbers, truth values and dates, and the tree of nodes
below a node.
-/

namespace XmlMapping.Mapping

/-- The text of the node. -/
def plainText : Mapping :=
  .text .text

/-- The text of the node without white space at its ends. -/
def trimmedText : Mapping :=
  .text (.trimmed .text)

/-- The name of the node. -/
def nodeName : Mapping :=
  .node .nodeName

/-- The local part of the name of the node. -/
def localName : Mapping :=
  .node .localName

/-- A whole number of 64 bits. -/
def integer : Mapping :=
  .text (.trimmed (.integerIn (.signed 64)))

/-- A number. -/
def number : Mapping :=
  .text (.trimmed .number)

/-- A truth value. -/
def boolean : Mapping :=
  .text (.trimmed .boolean)

/-- A date, by a pattern. -/
def day (pattern : String) : Except Error Mapping :=
  match Date.formatOf pattern with
  | .ok format => .ok (.text (.trimmed (.day format)))
  | .error flaw => .error (.pattern pattern flaw)

/-- A date and time, by a pattern. -/
def dayAndTime (pattern : String) : Except Error Mapping :=
  match Date.formatOf pattern with
  | .ok format => .ok (.text (.trimmed (.dayAndTime format)))
  | .error flaw => .error (.pattern pattern flaw)

/-- The key of the name in a node tree. -/
def nameKey : String := "nodeType"

/-- The key of the children in a node tree. -/
def childrenKey : String := "children"

/-- The node with its name and the node trees of its children. -/
def nodeTree : Mapping :=
  .ofDeclarations [.here nameKey nodeName, .here childrenKey (.array "node()" (.deferred .nodeTree))]

end XmlMapping.Mapping
