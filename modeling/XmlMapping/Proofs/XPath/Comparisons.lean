import XmlMapping.XPath.Operation

/-! # Comparisons

A comparison of two values can be turned round: the values change places, and less becomes greater. A node-set is
looked at only through the string values of its nodes, so neither their order nor how often one is there makes a
difference; and as a comparison asks for some node, it goes on to hold when there are more of them. Against a boolean
alone it counts whether there is a node at all, and more nodes can make a comparison fail. -/

namespace XmlMapping

/-! ### Numbers -/

theorem Number.compare?_swap (x y : Number) : compare? y x = (compare? x y).map Ordering.swap := by
  have hcompare (i j : Int) : compare j i = (compare i j).swap := Std.OrientedCmp.eq_swap
  cases x with
  | nan => cases y <;> rfl
  | infinite s =>
    cases y with
    | nan => rfl
    | infinite t => exact congrArg some (hcompare _ _)
    | finite t v hv => cases s <;> rfl
  | finite s u hu =>
    cases y with
    | nan => rfl
    | infinite t => cases t <;> rfl
    | finite t v hv => exact congrArg some (hcompare _ _)

theorem Number.equals_comm (x y : Number) : x.equals y = y.equals x := by
  rw [equals, equals, compare?_swap y x]
  cases compare? y x with
  | none => rfl
  | some o => cases o <;> rfl

namespace XPath

variable {d : Document} {op : Comparison} {ns ms : List Node} {v : Value}

/-! ### Turning round -/

/-- The comparison that holds of two values when this one holds of them the other way round. -/
def Comparison.mirror : Comparison → Comparison
  | .equal => .equal
  | .notEqual => .notEqual
  | .less => .greater
  | .lessOrEqual => .greaterOrEqual
  | .greater => .less
  | .greaterOrEqual => .lessOrEqual

theorem equalSingles_comm (l r : Value) : equalSingles d l r = equalSingles d r l := by
  simp only [equalSingles, or_comm (a := r.type = _), Bool.beq_comm (a := r.toBoolean),
    Number.equals_comm (r.toNumber d), Bool.beq_comm (a := r.toText d)]

theorem Comparison.holdsOf_mirror (op : Comparison) (l r : Value) : op.mirror.holdsOf d r l = op.holdsOf d l r := by
  cases op with
  | equal => exact equalSingles_comm r l
  | notEqual => exact congrArg (!·) (equalSingles_comm r l)
  | less | lessOrEqual | greater | greaterOrEqual => rfl

theorem Comparison.holds_iff {l r : Value} :
    op.holds d l r ↔ ∃ x ∈ l.singles d r, ∃ y ∈ r.singles d l, op.holdsOf d x y := by
  simp only [holds, List.any_eq_true]

theorem Comparison.holds_mirror (op : Comparison) (l r : Value) : op.holds d l r = op.mirror.holds d r l := by
  rw [Bool.eq_iff_iff, holds_iff, holds_iff]
  simp only [holdsOf_mirror]
  constructor
  · rintro ⟨x, hx, y, hy, h⟩
    exact ⟨y, hy, x, hx, h⟩
  · rintro ⟨y, hy, x, hx, h⟩
    exact ⟨x, hx, y, hy, h⟩

/-! ### String values -/

/-- The nodes of two lists have the same string values. Those of a list and of the list in another order, or with
    some of its nodes repeated, are an instance. -/
def SameTexts (d : Document) (ns ms : List Node) : Prop :=
  ∀ s, (∃ n ∈ ns, d.stringValue n = s) ↔ ∃ m ∈ ms, d.stringValue m = s

theorem SameTexts.isEmpty_eq (h : SameTexts d ns ms) : ns.isEmpty = ms.isEmpty := by
  cases ns with
  | nil =>
    cases ms with
    | nil => rfl
    | cons m ms =>
      obtain ⟨n, hn, -⟩ := (h _).mpr ⟨m, List.mem_cons_self, rfl⟩
      cases hn
  | cons n ns =>
    cases ms with
    | nil =>
      obtain ⟨m, hm, -⟩ := (h _).mp ⟨n, List.mem_cons_self, rfl⟩
      cases hm
    | cons m ms => rfl

/-- What stands for a value does not depend on the nodes that it is compared with. -/
theorem Value.singles_nodes (v : Value) (ns ms : List Node) : v.singles d (.nodes ns) = v.singles d (.nodes ms) := by
  cases v <;> rfl

theorem Value.singles_nodes_boolean (hv : v.type = .boolean) :
    (Value.nodes ns).singles d v = [.boolean !ns.isEmpty] :=
  if_pos hv

theorem Value.mem_singles_nodes (hv : v.type ≠ .boolean) {x : Value} :
    x ∈ (Value.nodes ns).singles d v ↔ ∃ s, (∃ n ∈ ns, d.stringValue n = s) ∧ x = .string s := by
  rw [singles, if_neg hv, List.mem_map]
  constructor
  · rintro ⟨n, hn, rfl⟩
    exact ⟨_, ⟨n, hn, rfl⟩, rfl⟩
  · rintro ⟨_, ⟨n, hn, rfl⟩, rfl⟩
    exact ⟨n, hn, rfl⟩

/-- With further string values a comparison goes on to hold. -/
theorem Comparison.holds_nodes_mono (hv : v.type ≠ .boolean)
    (h : ∀ s, (∃ n ∈ ns, d.stringValue n = s) → ∃ m ∈ ms, d.stringValue m = s) :
    op.holds d (.nodes ns) v → op.holds d (.nodes ms) v := by
  rw [holds_iff, holds_iff, v.singles_nodes ns ms]
  rintro ⟨x, hx, hy⟩
  obtain ⟨s, hs, rfl⟩ := (Value.mem_singles_nodes hv).mp hx
  exact ⟨_, (Value.mem_singles_nodes hv).mpr ⟨s, h s hs, rfl⟩, hy⟩

theorem Comparison.holds_nodes_congr (h : SameTexts d ns ms) (v : Value) :
    op.holds d (.nodes ns) v = op.holds d (.nodes ms) v := by
  by_cases hv : v.type = .boolean
  · rw [holds, holds, v.singles_nodes ns ms, Value.singles_nodes_boolean hv,
      Value.singles_nodes_boolean hv, h.isEmpty_eq]
  · rw [Bool.eq_iff_iff]
    exact ⟨holds_nodes_mono hv fun s => (h s).mp, holds_nodes_mono hv fun s => (h s).mpr⟩

/-- A comparison can be turned round. Node-sets count by the string values of their nodes, on either side; and
    against anything but a boolean, a comparison that holds of some nodes holds of more nodes too. -/
theorem comparison_laws (d : Document) (op : Comparison) :
    (∀ l r, op.holds d l r = op.mirror.holds d r l) ∧
    (∀ ns ms, SameTexts d ns ms → ∀ v,
      op.holds d (.nodes ns) v = op.holds d (.nodes ms) v ∧ op.holds d v (.nodes ns) = op.holds d v (.nodes ms)) ∧
    ∀ ns ms, ns ⊆ ms → ∀ v : Value, v.type ≠ .boolean →
      (op.holds d (.nodes ns) v → op.holds d (.nodes ms) v) ∧ (op.holds d v (.nodes ns) → op.holds d v (.nodes ms)) := by
  refine ⟨op.holds_mirror, fun ns ms h v => ⟨Comparison.holds_nodes_congr h v, ?_⟩, fun ns ms h v hv => ?_⟩
  · rw [op.holds_mirror, op.holds_mirror, Comparison.holds_nodes_congr h v]
  · have hmore (s : String) : (∃ n ∈ ns, d.stringValue n = s) → ∃ m ∈ ms, d.stringValue m = s :=
      fun ⟨n, hn, hs⟩ => ⟨n, h hn, hs⟩
    refine ⟨Comparison.holds_nodes_mono hv hmore, ?_⟩
    rw [op.holds_mirror v, op.holds_mirror v]
    exact Comparison.holds_nodes_mono hv hmore

/-- `<a><b>1</b><b>2</b><b>1</b></a>` -/
def numberedDocument : Document :=
  ⟨[.element ⟨⟨none, "a"⟩, [], []⟩
    [.element ⟨⟨none, "b"⟩, [], []⟩ [.text "1"], .element ⟨⟨none, "b"⟩, [], []⟩ [.text "2"],
      .element ⟨⟨none, "b"⟩, [], []⟩ [.text "1"]]]⟩

/-- The first `b` can stand for the third; with the second, some `b` is greater than 1. -/
theorem comparison_laws_numbered :
    SameTexts numberedDocument [.ofPath [0, 0], .ofPath [1, 0]] [.ofPath [1, 0], .ofPath [2, 0], .ofPath [1, 0]] ∧
      [Node.ofPath [1, 0]] ⊆ [.ofPath [0, 0], .ofPath [1, 0]] ∧ (Value.number (.ofNat 1)).type ≠ .boolean ∧
      Comparison.greater.holds numberedDocument (.nodes [.ofPath [1, 0]]) (.number (.ofNat 1)) = true ∧
      Comparison.greater.holds numberedDocument (.nodes [.ofPath [0, 0], .ofPath [1, 0]]) (.number (.ofNat 1)) = true ∧
      Comparison.greater.holds numberedDocument (.nodes [.ofPath [0, 0], .ofPath [1, 0]]) (.number (.ofNat 1)) =
        Comparison.greater.holds numberedDocument (.nodes [.ofPath [1, 0], .ofPath [2, 0], .ofPath [1, 0]])
          (.number (.ofNat 1)) ∧
      Comparison.greater.holds numberedDocument (.nodes [.ofPath [0, 0], .ofPath [1, 0]]) (.number (.ofNat 1)) =
        Comparison.less.holds numberedDocument (.number (.ofNat 1)) (.nodes [.ofPath [0, 0], .ofPath [1, 0]]) := by
  have hsame : SameTexts numberedDocument [.ofPath [0, 0], .ofPath [1, 0]]
      [.ofPath [1, 0], .ofPath [2, 0], .ofPath [1, 0]] := by
    intro s
    have h : numberedDocument.stringValue (.ofPath [0, 0]) = numberedDocument.stringValue (.ofPath [2, 0]) := by
      decide
    simp [h, or_comm]
  have hsub : [Node.ofPath [1, 0]] ⊆ [.ofPath [0, 0], .ofPath [1, 0]] := by simp
  have hholds : Comparison.greater.holds numberedDocument (.nodes [.ofPath [1, 0]]) (.number (.ofNat 1)) = true := by
    decide +kernel
  obtain ⟨hmirror, htexts, hmore⟩ := comparison_laws numberedDocument .greater
  have hnumber : (Value.number (.ofNat 1)).type ≠ .boolean := by decide
  exact ⟨hsame, hsub, hnumber, hholds, (hmore _ _ hsub _ hnumber).1 hholds, (htexts _ _ hsame _).1, hmirror _ _⟩

/-- Against a boolean, one node more makes a difference the other way: `false()` equals an empty node-set only. -/
example :
    Comparison.equal.holds numberedDocument (.nodes []) (.boolean false) = true ∧
      Comparison.equal.holds numberedDocument (.nodes [.ofPath [0, 0]]) (.boolean false) = false := by
  decide

end XPath
end XmlMapping
