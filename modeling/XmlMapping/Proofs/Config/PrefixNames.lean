import XmlMapping.Proofs.Config.Merging
import XmlMapping.Proofs.XPath.Rereading
import XmlMapping.Proofs.XPath.WellFormed

/-! # Prefixes in configurations and in expressions

What a configuration may bind and what an expression may use as a prefix is said twice, by a test of the
characters and by the readers of steps, which try axes, kinds of nodes and calls before names. Both mean
the same texts: a prefix may be bound exactly when a name with it is read as such. -/

namespace XmlMapping
open Text XPath
variable {p l uri : String} {most : Option Nat}

/-- What a name with a prefix stands for as an expression: a step to the children of this name. -/
def prefixedStep (p l : String) : Expr :=
  .path .context [⟨.child, .name ⟨some p, l⟩, []⟩]

/-! ### What may be bound -/

theorem Config.validate_bind_iff (huri : uri ≠ "") (hmost : most ≠ some 0) :
    Config.validate ⟨Bindings.empty.bind p uri, most⟩ = .ok () ↔ isName p.toList := by
  rw [Config.validate_eq_ok]
  constructor
  · intro h
    exact (h.1 (p, uri) (List.mem_singleton_self _)).1
  · intro hp
    refine ⟨fun x hx => ?_, hmost⟩
    rw [List.mem_singleton.mp hx]
    exact ⟨hp, huri⟩

/-! ### What is read -/

theorem parse_prefixed (hp : isName p.toList) (hl : isName l.toList) :
    Expr.parse (p ++ ":" ++ l) = .ok (prefixedStep p l) := by
  have hnamed : QName.Named ⟨some p, l⟩ := by
    refine ⟨fun q hq => ?_, hl⟩
    rw [← Option.mem_some.mp hq]
    exact hp
  -- A name is a phrase whatever it is spelled like: what comes first among the readers is no part of the phrase.
  let c : Phrase := .relative (.child (.name ⟨_, hnamed⟩)) .nil .nil
  have hc : c.WellFormed := ⟨trivial, trivial⟩
  have htext : String.ofList c.text = p ++ ":" ++ l := by
    rw [← String.toList_inj, String.toList_ofList]
    show (p ++ ":" ++ l).toList ++ ([] ++ []) = _
    rw [List.append_nil, List.append_nil]
  rw [← htext]
  exact c.parse_eq hc

/-- A prefix that is used anywhere in an expression that was read is a name. -/
theorem isName_of_mem_prefixes {text : String} {e : Expr} (h : Expr.parse text = .ok e) (hp : p ∈ e.prefixes) :
    isName p.toList := by
  obtain ⟨place, hplace⟩ := Expr.mem_prefixes_iff.mp hp
  obtain ⟨x, hx, hx'⟩ := Option.bind_eq_some_iff.mp hplace
  have hprint : x.Printable := Part.Printable.at? (x := .expr e) (e.printable_of_parse h) hx
  cases x with
  | expr e | origin o | step s => cases hx'
  | test t =>
    cases t with
    | name q => exact hprint.1 p hx'
    | anyIn q =>
      obtain rfl := Option.some.inj hx'
      exact hprint
    | any | kind k => cases hx'

/-- A configuration that binds a prefix alone is valid if and only if the prefix, a colon and any name are read as
    the step to the children of that name; and if and only if the prefix is used in any text that holds an
    expression. -/
theorem validate_bind_iff_parse (p : String) (hl : isName l.toList) (huri : uri ≠ "") (hmost : most ≠ some 0) :
    (Config.validate ⟨Bindings.empty.bind p uri, most⟩ = .ok () ↔
        Expr.parse (p ++ ":" ++ l) = .ok (prefixedStep p l)) ∧
      (Config.validate ⟨Bindings.empty.bind p uri, most⟩ = .ok () ↔
        ∃ text e, Expr.parse text = .ok e ∧ p ∈ e.prefixes) := by
  have hself : p ∈ (prefixedStep p l).prefixes := List.mem_singleton_self p
  rw [Config.validate_bind_iff huri hmost]
  constructor
  · constructor
    · intro hp
      exact parse_prefixed hp hl
    · intro h
      exact isName_of_mem_prefixes h hself
  · constructor
    · intro hp
      exact ⟨_, _, parse_prefixed hp hl, hself⟩
    · intro h
      obtain ⟨text, e, hparse, hmem⟩ := h
      exact isName_of_mem_prefixes hparse hmem

/-- The name of an axis may be bound and used as a prefix; one with a blank before it may not. -/
theorem validate_bind_iff_parse_child :
    isName "div".toList ∧ "urn:u" ≠ "" ∧ some 7 ≠ some 0 ∧
      Expr.parse ("child" ++ ":" ++ "div") = .ok (prefixedStep "child" "div") ∧
      Expr.parse (" child" ++ ":" ++ "div") ≠ .ok (prefixedStep " child" "div") := by
  have hl : isName "div".toList := by decide
  have huri : "urn:u" ≠ "" := by decide
  have hmost : some 7 ≠ some 0 := by decide
  obtain ⟨hchild, -⟩ := validate_bind_iff_parse "child" hl huri hmost
  obtain ⟨hblank, -⟩ := validate_bind_iff_parse " child" hl huri hmost
  refine ⟨hl, huri, hmost, hchild.mp (by decide), fun h => ?_⟩
  exact absurd (hblank.mpr h) (by decide)

end XmlMapping
