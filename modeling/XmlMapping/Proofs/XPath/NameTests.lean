import XmlMapping.Proofs.Markup.Naming
import XmlMapping.Proofs.XPath.Composition

/-! # Name tests

A step by a name leads to the nodes of that name along its axis: it compares the local part and the
namespace, which is none without a prefix. The empty namespace, which an empty declaration gives, is not
the same as none here, but the function `namespace-uri` shows both as the empty text. So an element that is
put back into no namespace is found by a prefix for the empty namespace and not by its name alone. -/

namespace XmlMapping.XPath
variable {d : Document} {b : Bindings} {axis : Axis} {test : NodeTest} {m n : Node}

/-! ### Steps by a node test -/

/-- Whether a step by a node test along an axis leads from one node to another. -/
def NodeTest.Selects (d : Document) (b : Bindings) (axis : Axis) (test : NodeTest) (m n : Node) : Prop :=
  ∃ found, (Expr.path .context [⟨axis, test, []⟩]).select d b m = .ok found ∧ n ∈ found

theorem NodeTest.selects_iff : test.Selects d b axis m n ↔
    n ∈ axis.nodes d m ∧ ∃ uri, test.namespaceUri? b = .ok uri ∧ test.admits d axis.principal uri n := by
  simp only [Selects, Expr.select_step, filter, except_map_eq_ok]
  constructor
  · rintro ⟨_, ⟨_, ⟨uri, huri, rfl⟩, rfl⟩, hn⟩
    obtain ⟨hn, hadmits⟩ := List.mem_filter.mp (Axis.mem_arranged.mp hn)
    exact ⟨hn, uri, huri, hadmits⟩
  · rintro ⟨hn, uri, huri, hadmits⟩
    exact ⟨_, ⟨_, ⟨uri, huri, rfl⟩, rfl⟩, Axis.mem_arranged.mpr (List.mem_filter.mpr ⟨hn, hadmits⟩)⟩

/-! ### Names -/

theorem NodeTest.admits_name {principal : NodeKind} {uri : Option String} {q : QName} :
    (NodeTest.name q).admits d principal uri n ↔
      d.kind? n = some principal ∧ d.name? n = some ⟨uri, q.localPart⟩ := by
  rw [admits, Document.kind?, Document.name?]
  cases d.content? n <;> simp

/-- Along an axis that reaches a node, the test by its local part asks for its namespace alone. -/
theorem NodeTest.selects_name_iff (hkind : d.kind? n = some axis.principal) (hn : n ∈ axis.nodes d m)
    {x : ExpandedName} (hx : d.name? n = some x) (nsPrefix : Option String) :
    NodeTest.Selects d b axis (.name ⟨nsPrefix, d.localName n⟩) m n ↔
      (NodeTest.name ⟨nsPrefix, d.localName n⟩).namespaceUri? b = .ok x.namespaceUri := by
  have hlocal : d.localName n = x.localPart := by rw [Document.localName, hx]
  obtain ⟨uri, localPart⟩ := x
  simp [selects_iff, hn, admits_name, hkind, hx, hlocal]

theorem namespaceUri?_unprefixed {label : String} {uri : Option String} :
    (NodeTest.name ⟨none, label⟩).namespaceUri? b = .ok uri ↔ uri = none := by
  simp [NodeTest.namespaceUri?, NodeTest.nsPrefix?, eq_comm]

theorem namespaceUri?_prefixed {p label : String} {uri : Option String} :
    (NodeTest.name ⟨some p, label⟩).namespaceUri? b = .ok uri ↔ ∃ u, b.uri? p = some u ∧ uri = some u := by
  rw [NodeTest.namespaceUri?]
  simp only [NodeTest.nsPrefix?, resolve]
  cases b.uri? p <;> simp [Except.map, eq_comm]

theorem kind?_of_principal (hkind : d.kind? n = some axis.principal) :
    d.kind? n = some .element ∨ d.kind? n = some .attribute := by
  rw [hkind]
  cases axis <;> simp [Axis.principal]

end XmlMapping.XPath

namespace XmlMapping
variable {d : Document} {n : Node} {x : ExpandedName}

/-! ### The empty namespace -/

/-- The name of a node was read in the empty namespace, which a declaration gives that names none. -/
def Document.InEmptyNamespace (d : Document) (n : Node) : Prop :=
  ∃ x, d.name? n = some x ∧ x.namespaceUri = some ""

namespace Document.Named
variable (h : d.Named n x)

include h

theorem inEmptyNamespace_iff : d.InEmptyNamespace n ↔ x.namespaceUri = some "" := by
  simp only [InEmptyNamespace, h.name, Option.some.injEq, exists_eq_left']

theorem namespaceUri_eq_none_iff : x.namespaceUri = none ↔ d.namespaceUri n = "" ∧ ¬d.InEmptyNamespace n := by
  rw [h.inEmptyNamespace_iff, h.namespaceUri_eq]
  cases x.namespaceUri <;> simp

theorem namespaceUri_eq_some_iff {u : String} :
    x.namespaceUri = some u ↔ u = d.namespaceUri n ∧ (d.namespaceUri n ≠ "" ∨ d.InEmptyNamespace n) := by
  rw [h.inEmptyNamespace_iff, h.namespaceUri_eq]
  rcases x.namespaceUri with _ | v
  · simp
  · simp only [Option.getD_some, Option.some.injEq, ne_eq, eq_comm (a := v), em', and_true]

/-- Only a declaration of the empty namespace puts a name into it. -/
theorem exists_of_inEmptyNamespace (hempty : d.InEmptyNamespace n) : ∃ e ∈ d.scope n, e.uri = "" :=
  (h.named "" (h.inEmptyNamespace_iff.mp hempty)).resolve_left (by decide)

/-- An element in no namespace is in the empty one where that is the default namespace. -/
theorem inEmptyNamespace_of_bound (hattr : n.attr = none) (huri : d.namespaceUri n = "")
    (hbound : d.boundUri? none n = some "") : d.InEmptyNamespace n := by
  by_contra hempty
  have hnone := h.unnamed hattr (h.namespaceUri_eq_none_iff.mpr ⟨huri, hempty⟩)
  rw [hbound] at hnone
  cases hnone

end Document.Named

namespace XPath
variable {b : Bindings} {axis : Axis} {m : Node}

/-- Along an axis that reaches an element or attribute of a document that is read, its local part alone
    selects it when its namespace is shown as empty, and with a prefix when that is bound to its namespace and
    this is not empty; unless its name was read in the empty namespace, when it is the other way round. Such
    are the elements in no namespace whose default namespace is declared to be none, and otherwise an empty
    declaration is in scope at least. -/
theorem nameTest_selects {limit : Nat} {text : String} (hd : Markup.parse limit text = .ok d) (b : Bindings)
    (hkind : d.kind? n = some axis.principal) (hn : n ∈ axis.nodes d m) :
    (NodeTest.Selects d b axis (.name ⟨none, d.localName n⟩) m n ↔
        d.namespaceUri n = "" ∧ ¬d.InEmptyNamespace n) ∧
      (∀ p, NodeTest.Selects d b axis (.name ⟨some p, d.localName n⟩) m n ↔
        b.uri? p = some (d.namespaceUri n) ∧ (d.namespaceUri n ≠ "" ∨ d.InEmptyNamespace n)) ∧
      (n.attr = none → d.namespaceUri n = "" → d.boundUri? none n = some "" → d.InEmptyNamespace n) ∧
      (d.InEmptyNamespace n → ∃ e ∈ d.scope n, e.uri = "") := by
  obtain ⟨x, hx⟩ := Document.exists_named (Markup.allFit_parse hd) (kind?_of_principal hkind)
  refine ⟨?_, fun p => ?_, hx.inEmptyNamespace_of_bound, hx.exists_of_inEmptyNamespace⟩
  · rw [NodeTest.selects_name_iff hkind hn hx.name, namespaceUri?_unprefixed, hx.namespaceUri_eq_none_iff]
  · rw [NodeTest.selects_name_iff hkind hn hx.name, namespaceUri?_prefixed]
    simp only [hx.namespaceUri_eq_some_iff]
    constructor
    · rintro ⟨_, hu, rfl, hempty⟩
      exact ⟨hu, hempty⟩
    · rintro ⟨hu, hempty⟩
      exact ⟨_, hu, rfl, hempty⟩

/-- A document with an element that is put back into no namespace. -/
def putBack : Document :=
  ⟨[.element ⟨⟨some "u", "a"⟩, [⟨none, "u"⟩], []⟩ [.element ⟨⟨some "", "b"⟩, [⟨none, ""⟩], []⟩ []]]⟩

/-- There the element is not found by its name alone, but by a prefix that is bound to the empty namespace. -/
theorem nameTest_selects_putBack :
    Markup.parse 10 "<a xmlns=\"u\"><b xmlns=\"\"/></a>" = .ok putBack ∧
      putBack.kind? (.ofPath [0, 0]) = some Axis.child.principal ∧
      .ofPath [0, 0] ∈ Axis.child.nodes putBack (.ofPath [0]) ∧
      putBack.localName (.ofPath [0, 0]) = "b" ∧ putBack.namespaceUri (.ofPath [0, 0]) = "" ∧
      ¬NodeTest.Selects putBack (Bindings.empty.bind "p" "") .child (.name ⟨none, "b"⟩) (.ofPath [0]) (.ofPath [0, 0]) ∧
      NodeTest.Selects putBack (Bindings.empty.bind "p" "") .child (.name ⟨some "p", "b"⟩) (.ofPath [0])
        (.ofPath [0, 0]) := by
  have hd : Markup.parse 10 "<a xmlns=\"u\"><b xmlns=\"\"/></a>" = .ok putBack := by with_unfolding_all rfl
  have hn : .ofPath [0, 0] ∈ Axis.child.nodes putBack (.ofPath [0]) := by decide
  obtain ⟨hname, hprefixed, hempty, -⟩ := nameTest_selects hd (Bindings.empty.bind "p" "") rfl hn
  have hin := hempty rfl rfl rfl
  exact ⟨hd, rfl, hn, rfl, rfl, fun h => (hname.mp h).2 hin, (hprefixed "p").mpr ⟨rfl, Or.inr hin⟩⟩

end XPath
end XmlMapping
