import XmlMapping.Number.Decimal

/-!
# JSON values

What a mapping makes of a document. The members of an object keep the order in which they were put in.
Whole numbers are apart from numbers of floating point. A value is written on one line without blanks,
or with every item and member on a line of its own.
-/

namespace XmlMapping

/-- A JSON value. -/
inductive Json
  | null
  | boolean (value : Bool)
  | integer (value : Int)
  | number (value : Number)
  | string (value : String)
  | array (items : List Json)
  | object (members : List (String × Json))

namespace Json

/-- The value of a number: null for what is no finite number, since JSON has no word for it. -/
def ofNumber : Number → Json
  | .nan => .null
  | .infinite _ => .null
  | .finite s u h => .number (.finite s u h)

/-! ### Writing -/

/-- How a value is laid out. The depth counts the brackets around it. -/
inductive Layout
  | compact
  | indented (depth : Nat)

/-- The layout between the brackets of a value. -/
def Layout.inner : Layout → Layout
  | .compact => .compact
  | .indented depth => .indented (depth + 1)

/-- What starts a new line. -/
def Layout.line : Layout → String
  | .compact => ""
  | .indented depth => "\n" ++ String.ofList (List.replicate (2 * depth) ' ')

/-- What stands between a key and its value. -/
def Layout.colon : Layout → String
  | .compact => ":"
  | .indented _ => ": "

/-- A character as it stands in a string. Only quotes, backslashes and controls are escaped. -/
def escape (c : Char) : List Char :=
  match c with
  | '"' => ['\\', '"']
  | '\\' => ['\\', '\\']
  | '\n' => ['\\', 'n']
  | '\r' => ['\\', 'r']
  | '\t' => ['\\', 't']
  | '\x08' => ['\\', 'b']
  | '\x0c' => ['\\', 'f']
  | c =>
    if c.toNat < 0x10 then ['\\', 'u', '0', '0', '0'] ++ Nat.toDigits 16 c.toNat
    else if c.toNat < 0x20 then ['\\', 'u', '0', '0'] ++ Nat.toDigits 16 c.toNat
    else [c]

/-- A text as a string. -/
def quoted (text : String) : String :=
  String.ofList (['"'] ++ text.toList.flatMap escape ++ ['"'])

/-- Written items between brackets, with commas between them. -/
def bracketed (layout : Layout) (opening closing : String) : List String → String
  | [] => opening ++ closing
  | items => opening ++ ",".intercalate (items.map (layout.inner.line ++ ·)) ++ layout.line ++ closing

mutual

/-- A value as it is written in a layout. -/
def render (layout : Layout) : Json → String
  | .null => "null"
  | .boolean b => if b then "true" else "false"
  | .integer i => toString i
  | .number n => n.text
  | .string s => quoted s
  | .array items => bracketed layout "[" "]" (renderItems layout.inner items)
  | .object members => bracketed layout "\x7b" "\x7d" (renderMembers layout.inner members)

/-- The items of an array as they are written. -/
def renderItems (layout : Layout) : List Json → List String
  | [] => []
  | v :: vs => v.render layout :: renderItems layout vs

/-- The members of an object as they are written. -/
def renderMembers (layout : Layout) : List (String × Json) → List String
  | [] => []
  | (key, v) :: rest => (quoted key ++ layout.colon ++ v.render layout) :: renderMembers layout rest

end

/-- A value on one line, without blanks. -/
def compact (v : Json) : String :=
  v.render .compact

/-- A value with every item and member on a line of its own. -/
def pretty (v : Json) : String :=
  v.render (.indented 0)

end Json
end XmlMapping
