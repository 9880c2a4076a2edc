import XmlMapping.Document.Naming
import XmlMapping.Markup.Reference

/-!
# Reading documents

A document is read from its text in one pass. Open elements are kept on a stack, the innermost first, each
with what was read before it; an element gets its namespaces when its start tag ends. Document type
declarations are always refused, and so is a document with more nodes than a limit allows, the document
node counted.
-/

namespace XmlMapping.Markup

open Text

/-! ### Start tags -/

/-- The namespace of declarations of namespaces. -/
def xmlnsNamespace : String :=
  "http://www.w3.org/2000/xmlns/"

/-- What has been read of a start tag. -/
structure OpenTag where
  name : WrittenName
  declarations : List Declaration
  attributes : List (WrittenName × String)

/-- Whether a start tag declares a prefix. -/
def OpenTag.declares (tag : OpenTag) (p : String) : Bool :=
  tag.declarations.any (·.nsPrefix == some p)

/-- A start tag with one more declaration. -/
def OpenTag.declare (tag : OpenTag) (nsPrefix : Option String) (uri : String) : OpenTag :=
  { tag with declarations := tag.declarations ++ [⟨nsPrefix, uri⟩] }

/-- A start tag with one more attribute, which may be a declaration. The prefix `xml` and its namespace
    belong together, and the namespace of declarations cannot be declared. -/
def OpenTag.add (tag : OpenTag) (name : WrittenName) (written : List Char) : Except Error OpenTag := do
  let value := String.ofList (attributeText (← pieces written))
  let label := String.ofList name.localPart
  if name.nsPrefix = "xmlns".toList then
    if value = xmlnsNamespace then throw .xmlnsNamespaceTaken
    if label = "xml" && value ≠ xmlNamespace then throw .xmlPrefixTaken
    if label ≠ "xml" && value = xmlNamespace then throw .xmlNamespaceTaken
    if tag.declares label then throw .repeatedDeclaration
    return if value = xmlNamespace then tag else tag.declare (some label) value
  else if name.localPart = "xmlns".toList then
    if value = xmlNamespace then throw .xmlNamespaceTaken
    if value = xmlnsNamespace then throw .xmlnsNamespaceTaken
    return tag.declare none value
  else
    return { tag with attributes := tag.attributes ++ [(name, value)] }

/-- The namespace declared for a written prefix, the default one for an empty prefix. -/
def declared? (scope : List Declaration) (p : List Char) : Option String :=
  let key := if p.isEmpty then none else some (String.ofList p)
  (scope.find? (·.nsPrefix == key)).map (·.uri)

/-- The name of an element. -/
def elementName (scope : List Declaration) (name : WrittenName) : Except Error ExpandedName :=
  match declared? scope name.nsPrefix with
  | some uri => .ok ⟨some uri, String.ofList name.localPart⟩
  | none => if name.nsPrefix.isEmpty then .ok ⟨none, String.ofList name.localPart⟩ else .error .undeclaredPrefix

/-- The name of an attribute; without a prefix it is in no namespace. -/
def attributeName (scope : List Declaration) (name : WrittenName) : Except Error ExpandedName :=
  if name.nsPrefix.isEmpty then .ok ⟨none, String.ofList name.localPart⟩
  else if name.nsPrefix = "xml".toList then .ok ⟨some xmlNamespace, String.ofList name.localPart⟩
  else
    match declared? scope name.nsPrefix with
    | some uri => .ok ⟨some uri, String.ofList name.localPart⟩
    | none => .error .undeclaredPrefix

/-- Attributes with their names in namespaces, after those already there; no name occurs twice. -/
def namedAttributes (scope : List Declaration) (before : List Attribute) :
    List (WrittenName × String) → Except Error (List Attribute)
  | [] => .ok before
  | (name, value) :: more => do
    let expanded ← attributeName scope name
    if before.any (·.name == expanded) then throw .repeatedAttribute
    namedAttributes scope (before ++ [⟨expanded, value⟩]) more

/-- The tag that a start tag makes, given the declarations around it. -/
def OpenTag.finish (tag : OpenTag) (around : List Declaration) : Except Error Tag := do
  let scope := inScope tag.declarations around
  let attributes ← namedAttributes scope [] tag.attributes
  let name ← elementName scope tag.name
  return ⟨name, tag.declarations, attributes⟩

/-- How a start tag ends: its element is open, or empty, or the text ends first. -/
inductive TagEnd
  | opens
  | isEmpty
  | missing
deriving DecidableEq

/-- Reads a start tag after its name. -/
def tagRest (tag : OpenTag) (s : List Char) : Except Error ((OpenTag × TagEnd) × List Char) :=
  match s with
  | [] => .ok ((tag, .missing), [])
  | c :: u =>
    match skipBlanks (c :: u) with
    | [] => .error .endOfText
    | '/' :: t => (expectChar '>' t).map fun rest => ((tag, .isEmpty), rest)
    | '>' :: t => .ok ((tag, .opens), t)
    | t =>
      if !isBlank c then .error .quoteOrBlankExpected
      else
        match writtenAttribute tagValue t with
        | .error e => .error e
        | .ok ((name, value), rest) =>
          match tag.add name value with
          | .error e => .error e
          | .ok tag' => if rest.length ≤ u.length then tagRest tag' rest else .error .malformedName
termination_by s.length

/-- Reads a start tag after its opening. -/
def startTag (s : List Char) : Except Error ((OpenTag × TagEnd) × List Char) := do
  let (name, rest) ← writtenName s
  if name.nsPrefix = "xmlns".toList then throw .xmlnsElement
  tagRest ⟨name, [], []⟩ rest

/-! ### Open elements -/

/-- An open element: its name as it is written, its tag, the declarations in scope in it, and what was read
    before it in the element around, last first. -/
structure Frame where
  written : WrittenName
  tag : Tag
  scope : List Declaration
  before : List Tree

/-- What has been read of a document: the open elements, the innermost first, what was read in it so far,
    last first, and the number of nodes. -/
structure Progress where
  frames : List Frame
  here : List Tree
  count : Nat

namespace Progress

/-- The start of every document, with its document node counted. -/
def start : Progress :=
  ⟨[], [], 1⟩

/-- The declarations in scope at this point. -/
def scope (p : Progress) : List Declaration :=
  match p.frames with
  | [] => []
  | f :: _ => f.scope

/-- Counts one more node. -/
def counted (p : Progress) (limit : Nat) : Except Error Progress :=
  if limit ≤ p.count then .error .tooManyNodes else .ok { p with count := p.count + 1 }

/-- Adds a node. -/
def add (p : Progress) (limit : Nat) (t : Tree) : Except Error Progress :=
  (p.counted limit).map fun p => { p with here := t :: p.here }

/-- Adds text, which joins a text right before it. -/
def addText (p : Progress) (limit : Nat) (content : List Char) : Except Error Progress :=
  match p.here with
  | .text before :: here => .ok { p with here := .text (before ++ String.ofList content) :: here }
  | _ => p.add limit (.text (String.ofList content))

/-- Adds what a start tag begins. -/
def addElement (p : Progress) (limit : Nat) (tag : OpenTag) (tagEnd : TagEnd) : Except Error Progress := do
  match tagEnd with
  | .missing => return p
  | .isEmpty => p.add limit (.element (← tag.finish p.scope) [])
  | .opens =>
    let finished ← tag.finish p.scope
    let q ← p.counted limit
    let frame : Frame := ⟨tag.name, finished, inScope tag.declarations p.scope, q.here⟩
    return { q with frames := frame :: q.frames, here := [] }

/-- Ends the innermost open element. -/
def close (p : Progress) (name : WrittenName) : Except Error Progress :=
  match p.frames with
  | [] => .error .mismatchedEndTag
  | f :: frames =>
    if f.written = name then
      .ok { p with frames := frames, here := .element f.tag p.here.reverse :: f.before }
    else .error .mismatchedEndTag

end Progress

/-! ### Content -/

/-- Reads one part of the content of an element and adds it. -/
def contentPart (limit : Nat) (p : Progress) (s : List Char) : Except Error (Progress × List Char) :=
  match s with
  | '<' :: '!' :: t =>
    if startsWith "--" t then do
      let (text, rest) ← comment (t.drop 2)
      return (← p.add limit (.comment (String.ofList text)), rest)
    else if startsWith "[CDATA[" t then do
      let (text, rest) ← textBefore "]]>" (t.drop 7)
      return (← p.addText limit (contentText (text.map .plain)), rest)
    else .error .misplacedText
  | '<' :: '?' :: t => processing t
  | '<' :: '/' :: t => do
    let (name, rest) ← writtenName t
    let rest ← expectChar '>' (skipBlanks rest)
    return (← p.close name, rest)
  | ['<'] => .error .misplacedText
  | '<' :: t => do
    let ((tag, tagEnd), rest) ← startTag t
    return (← p.addElement limit tag tagEnd, rest)
  | _ => do
    let (text, rest) ← textUntil (startsWith "<") s
    if (splitAt? "]]>".toList text).isSome then throw .sectionEndInText
    return (← p.addText limit (contentText (← pieces text)), rest)
where
  /-- Reads a processing instruction and adds it. -/
  processing (t : List Char) : Except Error (Progress × List Char) := do
    if startsWith "xml " t then throw .misplacedDeclaration
    let ((target, content), rest) ← instruction t
    return (← p.add limit (.instruction (String.ofList target) (String.ofList content)), rest)

/-- Reads the content of the open elements, up to the end of the outermost one or of the text. -/
def content (limit : Nat) (p : Progress) (s : List Char) : Except Error (Progress × List Char) :=
  if p.frames.isEmpty || s.isEmpty then .ok (p, s)
  else
    match contentPart limit p s with
    | .error e => .error e
    | .ok (q, rest) => if rest.length < s.length then content limit q rest else .error .misplacedText
termination_by s.length

/-! ### Documents -/

/-- Reads comments and processing instructions outside the document element, with blanks between. -/
def outside (limit : Nat) (p : Progress) (s : List Char) : Except Error (Progress × List Char) :=
  let t := skipBlanks s
  if startsWith "<!--" t || startsWith "<?" t then
    match contentPart limit p t with
    | .error e => .error e
    | .ok (q, rest) => if rest.length < s.length then outside limit q rest else .error .misplacedText
  else .ok (p, t)
termination_by s.length

/-- Reads the document element, if one begins here. -/
def documentElement (limit : Nat) (p : Progress) (s : List Char) : Except Error (Progress × List Char) :=
  match s with
  | '<' :: t => do
    if startsWith "!DOCTYPE" t then throw .documentType
    let ((tag, tagEnd), rest) ← startTag t
    let p ← p.addElement limit tag tagEnd
    content limit p rest
  | _ => .ok (p, s)

/-- The nodes that are counted when no limit is given. -/
def unlimited : Nat :=
  0xffffffff

/-- The document of a text that has at most `limit` nodes. -/
def parse (limit : Nat) (text : String) : Except Error Document := do
  let s := text.toList
  let s := if s.head? == some '\uFEFF' then s.drop 1 else s
  let s ← if startsWith "<?xml " s then declaration (s.drop 5) else pure s
  let (p, s) ← outside limit .start s
  let (p, s) ← documentElement limit p s
  let (p, s) ← outside limit p s
  if !s.isEmpty then throw .misplacedText
  if p.frames.isEmpty then
    if p.here.any Tree.isElement then return ⟨p.here.reverse⟩ else throw .noElement
  else throw .unclosedElement

end XmlMapping.Markup
