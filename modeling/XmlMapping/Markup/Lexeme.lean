import XmlMapping.Markup.Character
import XmlMapping.Markup.Error
import XmlMapping.Text.Blank
import XmlMapping.Text.Search

/-!
# Lexemes of markup

The small parts of markup, each read from the front of a text and given with the text after it.
-/

namespace XmlMapping.Markup

open Text

/-- A name as it is written; the prefix is empty when there is none. -/
structure WrittenName where
  nsPrefix : List Char
  localPart : List Char
deriving DecidableEq

/-- Whether a text begins with a word. -/
def startsWith (word : String) (s : List Char) : Bool :=
  (after? word.toList s).isSome

/-- Reads a word. -/
def expectWord (word : String) (s : List Char) : Except Error (List Char) :=
  match after? word.toList s with
  | some rest => .ok rest
  | none => .error .wordExpected

/-- Reads one given character. -/
def expectChar (c : Char) : List Char → Except Error (List Char)
  | [] => .error .endOfText
  | d :: s => if c = d then .ok s else .error .characterExpected

/-- Reads up to where the rest of the text is told to stop it. -/
def textUntil (stop : List Char → Bool) : List Char → Except Error (List Char × List Char)
  | [] => .ok ([], [])
  | c :: s =>
    if !isXmlChar c then .error .forbiddenCharacter
    else if stop (c :: s) then .ok ([], c :: s)
    else (textUntil stop s).map fun (t, rest) => (c :: t, rest)

/-- Reads up to a word and the word itself. -/
def textBefore (word : String) (s : List Char) : Except Error (List Char × List Char) := do
  let (t, rest) ← textUntil (startsWith word) s
  let rest ← expectWord word rest
  return (t, rest)

/-- Reads a name that may hold colons. -/
def plainName : List Char → Except Error (List Char × List Char)
  | [] => .error .malformedName
  | c :: s =>
    if isNameStart c then .ok (c :: s.takeWhile isNameChar, s.dropWhile isNameChar)
    else .error .malformedName

/-- Whether a part of a name is empty or starts as a name does. -/
def startsAsName : List Char → Bool
  | [] => true
  | c :: _ => isNameStart c

/-- Reads a name with at most one colon. What stands before the colon may be empty. -/
def writtenName (s : List Char) : Except Error (WrittenName × List Char) :=
  let run := s.takeWhile isNameChar
  let rest := s.dropWhile isNameChar
  let first := run.takeWhile (· != ':')
  match run.dropWhile (· != ':') with
  | [] =>
    if first.isEmpty || !startsAsName first then .error .malformedName else .ok (⟨[], first⟩, rest)
  | _ :: second =>
    if second.contains ':' || second.isEmpty || !startsAsName first || !startsAsName second then
      .error .malformedName
    else .ok (⟨first, second⟩, rest)

/-- Reads the quoted value of an attribute, as it is written. -/
def quotedValue : List Char → Except Error (List Char × List Char)
  | [] => .error .endOfText
  | quote :: s =>
    if quote = '"' ∨ quote = '\'' then do
      let ends (t : List Char) : Bool := t.head?.any fun c => c == quote || c == '<'
      let (value, rest) ← textUntil ends s
      let rest ← expectChar quote rest
      return (value, rest)
    else .error .quoteOrBlankExpected

/-- Reads the quoted value of an attribute in a start tag, as it is written. When neither its quote nor a
    `<` comes any more the text ends early, whatever characters it has left. -/
def tagValue (s : List Char) : Except Error (List Char × List Char) :=
  match s with
  | [] => .error .endOfText
  | quote :: rest =>
    if (quote == '"' || quote == '\'') && !rest.any (fun c => c == quote || c == '<') then .error .endOfText
    else quotedValue s

/-- Reads an attribute: a name, an equals sign with blanks around it, and a value. -/
def writtenAttribute (readValue : List Char → Except Error (List Char × List Char)) (s : List Char) :
    Except Error ((WrittenName × List Char) × List Char) := do
  let (name, rest) ← writtenName s
  let rest ← expectChar '=' (skipBlanks rest)
  let (value, rest) ← readValue (skipBlanks rest)
  return ((name, value), rest)

/-- Reads the rest of a comment after its opening. -/
def comment (s : List Char) : Except Error (List Char × List Char) := do
  let (t, rest) ← textBefore "-->" s
  if (splitAt? ['-', '-'] t).isSome || t.getLast? == some '-' then throw .malformedComment
  return (t, rest)

/-- Reads the rest of a processing instruction after its opening: a target and a content. -/
def instruction (s : List Char) : Except Error ((List Char × List Char) × List Char) := do
  let (target, rest) ← plainName s
  let (content, rest) ← textBefore "?>" (skipBlanks rest)
  return ((target, content), rest)

/-- Reads the rest of the declaration after its opening word. -/
def declaration (s : List Char) : Except Error (List Char) := do
  let rest ← gap s
  let _ ← expectWord "version" rest
  let (_, rest) ← writtenAttribute quotedValue rest
  let rest ← gap rest
  let rest ←
    if startsWith "encoding" rest then do
      let (_, rest) ← writtenAttribute quotedValue rest
      gap rest
    else pure rest
  let rest ←
    if startsWith "standalone" rest then do
      let (_, rest) ← writtenAttribute quotedValue rest
      pure rest
    else pure rest
  expectWord "?>" (skipBlanks rest)
where
  /-- Blanks, which may be missing before the end. -/
  gap (s : List Char) : Except Error (List Char) :=
    match s with
    | [] => .ok []
    | c :: _ =>
      if isBlank c then .ok (skipBlanks s)
      else if startsWith "?>" s then .ok s
      else .error .quoteOrBlankExpected

end XmlMapping.Markup
