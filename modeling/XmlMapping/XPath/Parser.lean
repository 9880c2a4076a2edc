import XmlMapping.Number.Decimal
import XmlMapping.Text.Blank
import XmlMapping.Text.Name
import XmlMapping.Text.Search
import XmlMapping.XPath.Expr

/-!
# Reading expressions

A reader takes a text and gives a value with the text after it. Operators are read level by level, from
the loosest to the tightest, and a level reads its operands with the next one. An expression inside
brackets or parentheses starts after the opening one, so it is read from a shorter text; the readers of
the levels are therefore given the reader of inner expressions, and `expression` ties the knot on the
length of the text.
-/

namespace XmlMapping.XPath

open Text

/-- What a reader gives that may find nothing to read. -/
abbrev Reader (α : Type) := List Char → Option (α × List Char)

/-- What reading an expression gives: a value and the text after it, or else the text that begins where
    a name was expected. -/
abbrev Reading (α : Type) := Except (List Char) (α × List Char)

/-! ### Words and repetition -/

/-- Reads one given character. -/
def symbol (c : Char) : Reader Unit
  | [] => none
  | d :: s => if c = d then some ((), s) else none

/-- Reads with blanks allowed before and after. -/
def padded {α : Type} (read : Reader α) : Reader α := fun s =>
  (read (skipBlanks s)).map fun (a, rest) => (a, skipBlanks rest)

/-- Reads as often as something is read. -/
def many {α : Type} (read : Reader α) (s : List Char) : List α × List Char :=
  match read s with
  | none => ([], s)
  | some (a, rest) =>
    if rest.length < s.length then
      let (as, rest') := many read rest
      (a :: as, rest')
    else ([], s)
termination_by s.length

/-! ### Literals, numbers and names -/

/-- Reads a text between two quotes of the given kind. -/
def quotedBy (quote : Char) : Reader String
  | [] => none
  | c :: s =>
    if c = quote then
      match s.dropWhile (· != quote) with
      | [] => none
      | _ :: rest => some (String.ofList (s.takeWhile (· != quote)), rest)
    else none

/-- Reads a literal in single or double quotes. -/
def literal : Reader Expr := fun s =>
  (quotedBy '\'' s <|> quotedBy '"' s).map fun (text, rest) => (.literal text, rest)

/-- Reads the longest run of digits, which may be empty. -/
def digits (s : List Char) : List Char × List Char :=
  (s.takeWhile Char.isDigit, s.dropWhile Char.isDigit)

/-- Reads an unsigned number: digits with or without a point among, before or after them. Digits after
    digits and a point count only when the text goes on after them. -/
def number : Reader Expr := fun s =>
  let (whole, rest) := digits s
  match rest with
  | '.' :: more =>
    let (fraction, rest') := digits more
    if whole.isEmpty then
      if fraction.isEmpty then none else some (.number (.ofNumeral false [] fraction), rest')
    else
      let counted := if rest'.isEmpty then [] else fraction
      some (.number (.ofNumeral false whole counted), rest')
  | _ => if whole.isEmpty then none else some (.number (.ofNumeral false whole []), rest)

/-- Reads a name with or without a prefix. -/
def qName : Reader QName := fun s => do
  let (first, rest) ← name? s
  match rest with
  | ':' :: more =>
    match name? more with
    | some (localPart, rest') => some (⟨some (String.ofList first), String.ofList localPart⟩, rest')
    | none => some (⟨none, String.ofList first⟩, rest)
  | _ => some (⟨none, String.ofList first⟩, rest)

/-! ### Steps -/

/-- Reads a node test by kind, such as `text()`. -/
def kindTest : Reader NodeTest := fun s => do
  let (kind, rest) ← KindTest.all.findSome? fun k => (after? k.name.toList s).map (k, ·)
  let ((), rest) ← padded (symbol '(') rest
  let ((), rest) ← symbol ')' rest
  some (.kind kind, rest)

/-- Reads a node test for every name in the namespace of a prefix. -/
def anyInTest : Reader NodeTest := fun s => do
  let (label, rest) ← name? s
  let rest ← after? [':', '*'] rest
  some (.anyIn (String.ofList label), rest)

/-- Reads a node test. -/
def nodeTest : Reader NodeTest := fun s =>
  ((symbol '*' s).map fun ((), rest) => (.any, rest)) <|> kindTest s <|> anyInTest s <|>
    (qName s).map fun (q, rest) => (.name q, rest)

/-- Reads the name of an axis and the two colons after it. -/
def axis : Reader Axis := fun s =>
  Axis.all.findSome? fun a => (after? (a.name.toList ++ [':', ':']) s).map (a, ·)

/-- Reads the axis and the node test of a step, which may be abbreviated. -/
def stepHead (s : List Char) : Reading (Axis × NodeTest) :=
  let abbreviated : Reader (Axis × NodeTest) := fun s =>
    match s with
    | '.' :: '.' :: rest => some ((.parent, .kind .node), rest)
    | '.' :: rest => some ((.self, .kind .node), rest)
    | '@' :: rest => (nodeTest rest).map fun (test, rest') => ((.attribute, test), rest')
    | _ => none
  match abbreviated s with
  | some head => .ok head
  | none =>
    let (direction, rest) := (axis s).getD (.child, s)
    match nodeTest rest with
    | some (test, rest') => .ok ((direction, test), rest')
    | none => .error rest

section Nested
variable (inner : Reader Expr)

/-- Reads a predicate: an expression in square brackets. -/
def predicate : Reader Expr := fun s => do
  let ((), rest) ← padded (symbol '[') s
  let (condition, rest) ← inner rest
  let ((), rest) ← padded (symbol ']') rest
  some (condition, rest)

/-- Reads a step with its predicates. -/
def step (s : List Char) : Reading Step :=
  (stepHead s).map fun ((direction, test), rest) =>
    let (predicates, rest') := many (predicate inner) rest
    (⟨direction, test, predicates⟩, rest')

/-- Reads one or two slashes; whether there are two. -/
def slashes : Reader Bool
  | '/' :: '/' :: rest => some (true, rest)
  | '/' :: rest => some (false, rest)
  | _ => none

/-- The steps that a step stands for, given whether two slashes come before it. -/
def expandSlashes (double : Bool) (s : Step) : List Step :=
  if double then [.anyBelow, s] else [s]

/-- Reads steps, each with slashes before it. -/
def furtherSteps (s : List Char) : List Step × List Char :=
  let one : Reader (List Step) := fun s => do
    let (double, rest) ← slashes s
    let (next, rest) ← (step inner rest).toOption
    some (expandSlashes double next, rest)
  let (steps, rest) := many one s
  (steps.flatten, rest)

/-- Reads a location path that starts from the context node or the document node. A slash alone stands
    for the document node. -/
def locationPath (s : List Char) : Reading Expr :=
  match slashes s with
  | some (double, rest) =>
    match step inner rest with
    | .ok (first, rest') =>
      let (more, rest'') := furtherSteps inner rest'
      .ok (.path .root (expandSlashes double first ++ more), rest'')
    | .error expected =>
      if double then .error expected else .ok (.path .root [], rest)
  | none =>
    (step inner s).map fun (first, rest) =>
      let (more, rest') := furtherSteps inner rest
      (.path .context (first :: more), rest')

/-! ### Operands -/

/-- Reads the arguments of a call, separated by commas. -/
def arguments (s : List Char) : List Expr × List Char :=
  match inner s with
  | none => ([], s)
  | some (first, rest) =>
    let next : Reader Expr := fun s => do
      let ((), rest) ← padded (symbol ',') s
      inner rest
    let (more, rest') := many next rest
    (first :: more, rest')

/-- Whether a name followed by parentheses is a node test by kind and not a call. -/
def namesKind (q : QName) : Bool :=
  q.nsPrefix.isNone && KindTest.all.any (·.name == q.localPart)

/-- Reads a call of a function. -/
def call : Reader Expr := fun s => do
  let (function, rest) ← qName s
  if namesKind function then none
  else
    let ((), rest) ← padded (symbol '(') rest
    let (args, rest) := arguments inner rest
    let ((), rest) ← padded (symbol ')') rest
    some (.call function args, rest)

/-- Reads an expression in parentheses. -/
def group : Reader Expr := fun s => do
  let ((), rest) ← symbol '(' s
  let (e, rest) ← inner rest
  let ((), rest) ← padded (symbol ')') rest
  some (e, rest)

/-- Reads a number, a literal, a call or an expression in parentheses. -/
def primary : Reader Expr :=
  padded fun s => number s <|> literal s <|> call inner s <|> group inner s

/-- Reads a primary expression with its predicates. -/
def filtered : Reader Expr := fun s => do
  let (base, rest) ← primary inner s
  let (predicates, rest) := many (predicate inner) rest
  some (if predicates.isEmpty then base else .filter base predicates, rest)

/-- Reads a primary expression with the steps that go on from it, or else a location path. The primary
    expression goes first, so that `count(x)` is no step named `count`. -/
def operand (s : List Char) : Reading Expr :=
  match filtered inner s with
  | some (base, rest) =>
    let (steps, rest') := furtherSteps inner rest
    .ok (if steps.isEmpty then base else .path (.nodes base) steps, rest')
  | none => (locationPath inner (skipBlanks s)).map fun (path, rest) => (path, skipBlanks rest)

end Nested

/-! ### Operators -/

/-- Reads an operator. One that is spelled with letters must not run on into a longer name. -/
def operator (op : Operator) : Reader Operator := fun s => do
  let word := op.symbol.toList
  let rest ← after? word s
  if word.all isNameStart && rest.head?.any isNameChar then none else some (op, rest)

/-- Reads operands with operators of one level between them; such operators associate to the left. -/
def chain (ops : List Operator) (read : List Char → Reading Expr) (s : List Char) : Reading Expr :=
  let next : Reader (Operator × Expr) := fun s => do
    let (op, rest) ← padded (fun s => ops.findSome? (operator · s)) s
    let (right, rest) ← (read rest).toOption
    some ((op, right), rest)
  (read s).map fun (first, rest) =>
    let (more, rest') := many next rest
    (more.foldl (fun left (op, right) => .binary op left right) first, rest')

/-- Reads any number of minus signs and what they negate. -/
def signed (read : List Char → Reading Expr) (s : List Char) : Reading Expr :=
  let (signs, rest) := many (padded (symbol '-')) s
  (read rest).map fun (e, rest') => (signs.foldr (fun _ e => .negate e) e, rest')

/-- The binary operators looser than the unary minus, from the loosest level to the tightest; within a
    level a longer symbol stands before the symbols it begins with. -/
def levels : List (List Operator) :=
  [[.or], [.and], [.comparison .notEqual, .comparison .equal],
    [.comparison .lessOrEqual, .comparison .greaterOrEqual, .comparison .less, .comparison .greater],
    [.arithmetic .plus, .arithmetic .minus],
    [.arithmetic .times, .arithmetic .div, .arithmetic .mod]]

/-- Reads with the given levels of operators around what binds tighter. -/
def layered (read : List Char → Reading Expr) : List (List Operator) → List Char → Reading Expr
  | [] => read
  | ops :: tighter => chain ops (layered read tighter)

/-- Reads an expression at the front of a text. -/
def expression (s : List Char) : Reading Expr :=
  let inner : Reader Expr := fun rest =>
    if rest.length < s.length then (expression rest).toOption else none
  layered (signed (chain [.union] (operand inner))) levels s
termination_by s.length

/-! ### Whole texts -/

/-- Why a text is no expression: something is left over after one, or a name was expected. -/
inductive ParseFailure
  | unexpected (rest : List Char)
  | nameExpected (rest : List Char)
deriving DecidableEq

/-- The expression that a text holds, white space around it aside. -/
def Expr.parse (text : String) : Except ParseFailure Expr :=
  match expression (trim text.toList) with
  | .ok (e, []) => .ok e
  | .ok (_, rest) => .error (.unexpected rest)
  | .error rest => .error (.nameExpected rest)

end XmlMapping.XPath
