import XmlMapping.Json.Basic
import XmlMapping.Markup.Reader
import XmlMapping.Text.Name
import XmlMapping.XPath.Bindings

/-!
# Configurations

A configuration binds prefixes to namespaces and may limit the number of nodes of a document. It is
valid when every prefix is a name, no namespace is empty and the limit is not zero; the first thing
wrong counts, prefixes in order and then the limit.
-/

namespace XmlMapping

/-- Bindings of prefixes and a limit on the number of nodes. -/
structure Config where
  namespaces : Bindings
  nodesLimit : Option Nat
deriving DecidableEq

namespace Config

/-- The configuration that binds and limits nothing. -/
def empty : Config :=
  ⟨.empty, none⟩

/-- A configuration with a prefix bound. -/
def bind (c : Config) (nsPrefix uri : String) : Config :=
  { c with namespaces := c.namespaces.bind nsPrefix uri }

/-- A configuration with several prefixes bound, one after the other. -/
def bindAll (c : Config) (namespaces : List (String × String)) : Config :=
  namespaces.foldl (fun c (p, uri) => c.bind p uri) c

/-- A configuration with a limit. -/
def limit (c : Config) (most : Nat) : Config :=
  { c with nodesLimit := some most }

/-- What can be wrong with a configuration. -/
inductive Flaw
  | malformedPrefix (nsPrefix : String)
  | emptyNamespace (nsPrefix : String)
  | zeroLimit
deriving DecidableEq

/-- What a message says of a flaw. -/
def Flaw.message : Flaw → String
  | .malformedPrefix p => "Invalid namespace prefix '" ++ p ++ "'"
  | .emptyNamespace p => "Namespace prefix '" ++ p ++ "' is bound to an empty URI"
  | .zeroLimit => "nodesLimit must be greater than zero"

/-- What is wrong with the binding of a prefix. -/
def flawOfBinding? : String × String → Option Flaw
  | (p, uri) =>
    if !Text.isName p.toList then some (.malformedPrefix p)
    else if uri.isEmpty then some (.emptyNamespace p)
    else none

/-- The first flaw of a configuration. -/
def flaw? (c : Config) : Option Flaw :=
  match c.namespaces.entries.findSome? flawOfBinding? with
  | some flaw => some flaw
  | none => if c.nodesLimit = some 0 then some .zeroLimit else none

/-- Fails with the first flaw of a configuration. -/
def validate (c : Config) : Except Flaw Unit :=
  match c.flaw? with
  | some flaw => .error flaw
  | none => .ok ()

/-- The number of nodes that a document may have. -/
def mostNodes (c : Config) : Nat :=
  c.nodesLimit.getD Markup.unlimited

/-- A configuration as a JSON object. What is not set is left out. -/
def toJson (c : Config) : Json :=
  let namespaces :=
    if c.namespaces.entries.isEmpty then []
    else [("namespaces", Json.object (c.namespaces.entries.map fun (p, uri) => (p, .string uri)))]
  let nodesLimit :=
    match c.nodesLimit with
    | some n => [("nodesLimit", Json.integer n)]
    | none => []
  .object (namespaces ++ nodesLimit)

end Config
end XmlMapping
