import XmlMapping.Document.Naming

/-!
# Bindings of namespace prefixes

The prefixes of an expression stand for namespaces through bindings that are given with it, whatever
prefixes the document uses. A prefix is bound once; a later binding replaces an earlier one. Bindings are
listed in the order of their prefixes. The prefix `xml` has its namespace without being bound.
-/

namespace XmlMapping

/-- Bindings of prefixes to namespaces, in the order of the prefixes. -/
structure Bindings where
  entries : List (String × String)
deriving DecidableEq

namespace Bindings

/-- No bindings. -/
def empty : Bindings := ⟨[]⟩

/-- Entries with one more, in order; an entry for the same prefix is replaced. -/
def insertEntry (p uri : String) : List (String × String) → List (String × String)
  | [] => [(p, uri)]
  | (q, other) :: rest =>
    if p = q then (p, uri) :: rest
    else if p < q then (p, uri) :: (q, other) :: rest
    else (q, other) :: insertEntry p uri rest

/-- The bindings with a prefix bound to a namespace. -/
def bind (b : Bindings) (p uri : String) : Bindings :=
  ⟨insertEntry p uri b.entries⟩

/-- The bindings of a list, made one after the other. -/
def ofList (entries : List (String × String)) : Bindings :=
  entries.foldl (fun b (p, uri) => b.bind p uri) empty

/-- The namespace that a prefix stands for. -/
def uri? (b : Bindings) (p : String) : Option String :=
  match b.entries.lookup p with
  | some uri => some uri
  | none => if p = "xml" then some xmlNamespace else none

/-- The number of bindings. -/
def size (b : Bindings) : Nat :=
  b.entries.length

end Bindings
end XmlMapping
