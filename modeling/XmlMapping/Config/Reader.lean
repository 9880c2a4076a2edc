import XmlMapping.Config.Basic
import XmlMapping.Json.Lexeme

/-!
# Reading configurations

A configuration is written as a JSON object with the members `namespaces` and `nodesLimit`, or as an
array of the two in this order. Each may be missing, the limit may be null, other members are passed
over, and neither may be given twice. Among the namespaces the last one for a prefix counts.
-/

namespace XmlMapping.Config

open Text Json

/-- The members that a configuration has so far, in the course of reading it. -/
structure Draft where
  namespaces : Option Bindings
  nodesLimit : Option (Option Nat)

/-- The draft without a member. -/
def Draft.empty : Draft :=
  ⟨none, none⟩

/-- The configuration of a draft. -/
def Draft.config (d : Draft) : Config :=
  ⟨d.namespaces.getD .empty, d.nodesLimit.getD none⟩

/-- The first number that is too large for a limit. -/
def limitBound : Nat := 0x100000000

/-- Reads the namespaces: an object whose members are strings. -/
def namespacesValue (s : List Char) : Except Fault (Bindings × List Char) :=
  let member (b : Bindings) (p : String) (s : List Char) : Except Fault (Bindings × List Char) := do
    let rest ← mark ':' s
    let (uri, rest) ← askedString rest
    return (b.bind p uri, rest)
  match skipBlanks s with
  | '\x7b' :: rest => foldMembers true member true .empty rest
  | rest => .error (misfit rest)

/-- Reads the limit: a number or null. -/
def limitValue (s : List Char) : Except Fault (Option Nat × List Char) :=
  match skipBlanks s with
  | 'n' :: rest => (word ['u', 'l', 'l'] rest).map (none, ·)
  | rest => (askedNat limitBound rest).map fun (n, rest') => (some n, rest')

/-- Reads a member of a configuration from after its key. -/
def member (d : Draft) (key : String) (s : List Char) : Except Fault (Draft × List Char) :=
  if key = "namespaces" then
    if d.namespaces.isSome then .error .unfit
    else do
      let rest ← mark ':' s
      let (b, rest) ← namespacesValue rest
      return ({ d with namespaces := some b }, rest)
  else if key = "nodesLimit" then
    if d.nodesLimit.isSome then .error .unfit
    else do
      let rest ← mark ':' s
      let (n, rest) ← limitValue rest
      return ({ d with nodesLimit := some n }, rest)
  else do
    let rest ← mark ':' s
    let rest ← skipValue rest
    return (d, rest)

/-- Reads a configuration that is written as an array, after its opening bracket. -/
def listed (s : List Char) : Except Fault (Draft × List Char) := do
  let (more, rest) ← nextItem true s
  if !more then return (.empty, rest)
  let (b, rest) ← namespacesValue rest
  let (more, rest) ← nextItem false rest
  if !more then return (⟨some b, none⟩, rest)
  let (n, rest) ← limitValue rest
  let rest ← mark ']' rest
  return (⟨some b, some n⟩, rest)

/-- Reads a configuration at the front of a text. -/
def draft (s : List Char) : Except Fault (Draft × List Char) :=
  match skipBlanks s with
  | '\x7b' :: rest => foldMembers true member true .empty rest
  | '[' :: rest => listed rest
  | rest => .error (misfit rest)

/-- The configuration that a text holds, blanks around it aside. It may be invalid. -/
def read (text : String) : Except Fault Config := do
  let (d, rest) ← draft text.toList
  if !(skipBlanks rest).isEmpty then throw .malformed
  return d.config

end XmlMapping.Config
