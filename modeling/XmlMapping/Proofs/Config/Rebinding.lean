import Mathlib.Data.List.Induction
import XmlMapping.Proofs.CommandLine.Stages
import XmlMapping.XPath.Evaluation

/-! # Rebinding prefixes

Bindings change when a prefix is bound and when they are made anew from a list. After any changes a prefix
stands for the namespace of its last binding. The prefix `xml` is no exception: it has its own namespace as
long as it is not bound, but a binding replaces it like any other, and a configuration may hold one. -/

namespace XmlMapping

namespace Bindings
variable {b : Bindings} {p : String} {entries : List (String × String)}

/-! ### Changes -/

/-- A change of bindings: a prefix is bound, or they are replaced by those of a list. -/
inductive Change
  | bind (nsPrefix uri : String)
  | collect (entries : List (String × String))

/-- The bindings after a change. -/
def Change.apply (b : Bindings) : Change → Bindings
  | .bind p uri => b.bind p uri
  | .collect entries => .ofList entries

/-- What has been bound after a change, given what was bound before it, in the order in which it was bound. -/
def Change.record (entries : List (String × String)) : Change → List (String × String)
  | .bind p uri => entries ++ [(p, uri)]
  | .collect others => others

/-- The bindings after changes, one after the other, when there are none at first. -/
def after (changes : List Change) : Bindings :=
  changes.foldl Change.apply .empty

/-- What has been bound after changes. -/
def recorded (changes : List Change) : List (String × String) :=
  changes.foldl Change.record []

/-- The namespace that a prefix was bound to last. -/
def lastUri? (entries : List (String × String)) (p : String) : Option String :=
  entries.reverse.lookup p

theorem lastUri?_append_one (entries : List (String × String)) (q uri p : String) :
    lastUri? (entries ++ [(q, uri)]) p = if p = q then some uri else lastUri? entries p := by
  rw [lastUri?, List.reverse_append]
  exact lookup_cons p q uri entries.reverse

theorem lookup_ofList (entries : List (String × String)) (p : String) :
    (ofList entries).entries.lookup p = lastUri? entries p := by
  induction entries using List.reverseRecOn with
  | nil => rfl
  | append_singleton entries entry ih =>
    obtain ⟨q, uri⟩ := entry
    rw [lastUri?_append_one, ← ih, ofList, List.foldl_append]
    exact lookup_insertEntry q p uri (ofList entries).entries

/-- A change keeps that bindings hold what was bound last. -/
theorem Change.lookup_apply (change : Change) (h : ∀ p, b.entries.lookup p = lastUri? entries p) (p : String) :
    (change.apply b).entries.lookup p = lastUri? (change.record entries) p := by
  cases change with
  | bind q uri =>
    refine (lookup_insertEntry q p uri b.entries).trans ?_
    rw [h p, record, lastUri?_append_one]
  | collect others => exact lookup_ofList others p

theorem lookup_after (changes : List Change) (p : String) :
    (after changes).entries.lookup p = lastUri? (recorded changes) p := by
  induction changes using List.reverseRecOn generalizing p with
  | nil => rfl
  | append_singleton changes change ih =>
    rw [after, recorded, List.foldl_append, List.foldl_append]
    exact change.lookup_apply ih p

/-! ### What prefixes stand for -/

/-- What a prefix stands for, given the namespace that it was bound to last, if it was bound. -/
def meaning (p : String) : Option String → Except XPath.Error String
  | some uri => .ok uri
  | none => if p = "xml" then .ok xmlNamespace else .error (.unboundPrefix p)

theorem resolve_eq (b : Bindings) (p : String) : XPath.resolve b p = meaning p (b.entries.lookup p) := by
  rw [XPath.resolve, uri?]
  cases b.entries.lookup p with
  | some uri => rfl
  | none =>
    by_cases hp : p = "xml"
    · rw [meaning, if_pos hp, if_pos hp]
    · rw [meaning, if_neg hp, if_neg hp]

/-- The prefix `xml` has its own namespace unless it was bound to another one last. -/
theorem meaning_xml_iff {last : Option String} :
    meaning "xml" last = .ok xmlNamespace ↔ ∀ uri, last = some uri → uri = xmlNamespace := by
  cases last with
  | none => exact ⟨fun _ => nofun, fun _ => rfl⟩
  | some uri => simp [meaning]

end Bindings

open Bindings

/-- After any changes of bindings, and for any configuration with the bindings of a command line over it, a
    prefix stands for the namespace of its last binding; one that was never bound is reported as unbound, but
    for `xml`, which then has its own namespace. It has that one exactly when it was not bound to another one
    last. -/
theorem resolve_last (changes : List Change) (c : Config) (namespaces : List (String × String)) (p : String) :
    XPath.resolve (after changes) p = meaning p (lastUri? (recorded changes) p) ∧
      (XPath.resolve (after changes) "xml" = .ok xmlNamespace ↔
        ∀ uri, lastUri? (recorded changes) "xml" = some uri → uri = xmlNamespace) ∧
      ∀ setup, Setup.ofConfig (c.bindAll namespaces) = .ok setup →
        XPath.resolve setup.bindings p = meaning p ((lastUri? namespaces p).or (c.namespaces.entries.lookup p)) ∧
          (XPath.resolve setup.bindings "xml" = .ok xmlNamespace ↔
            ∀ uri, (lastUri? namespaces "xml").or (c.namespaces.entries.lookup "xml") = some uri →
              uri = xmlNamespace) := by
  have hafter (q : String) : XPath.resolve (after changes) q = meaning q (lastUri? (recorded changes) q) := by
    rw [resolve_eq, lookup_after]
  refine ⟨hafter p, by rw [hafter, meaning_xml_iff], fun setup hsetup => ?_⟩
  obtain ⟨-, rfl⟩ := Setup.ofConfig_eq_ok.mp hsetup
  have hbound (q : String) : XPath.resolve (c.bindAll namespaces).namespaces q =
      meaning q ((lastUri? namespaces q).or (c.namespaces.entries.lookup q)) := by
    rw [resolve_eq, c.lookup_bindAll, lastUri?]
  exact ⟨hbound p, by rw [hbound, meaning_xml_iff]⟩

/-- A configuration that binds `xml` to another namespace is valid, and the binding counts. -/
theorem resolve_last_xml :
    Setup.ofConfig (Config.empty.bindAll [("xml", "urn:x")]) =
        .ok ⟨⟨[("xml", "urn:x")]⟩, Markup.unlimited⟩ ∧
      XPath.resolve ⟨[("xml", "urn:x")]⟩ "xml" = .ok "urn:x" ∧
      XPath.resolve (after [.collect [("a", "urn:a")], .bind "xml" "urn:x"]) "xml" ≠ .ok xmlNamespace := by
  have hsetup : Setup.ofConfig (Config.empty.bindAll [("xml", "urn:x")]) =
      .ok ⟨⟨[("xml", "urn:x")]⟩, Markup.unlimited⟩ := by
    refine Setup.ofConfig_eq_ok.mpr ⟨⟨fun x hx => ?_, nofun⟩, rfl⟩
    obtain rfl : x = ("xml", "urn:x") := List.mem_singleton.mp hx
    exact ⟨by decide, by decide⟩
  obtain ⟨-, hxml, hconfig⟩ :=
    resolve_last [.collect [("a", "urn:a")], .bind "xml" "urn:x"] .empty [("xml", "urn:x")] "xml"
  refine ⟨hsetup, (hconfig _ hsetup).1, fun h => ?_⟩
  exact absurd (hxml.mp h "urn:x" rfl) (by decide)

end XmlMapping
