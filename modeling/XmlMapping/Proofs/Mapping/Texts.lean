import XmlMapping.Proofs.Document.Kin
import XmlMapping.Proofs.Mapping.Selections
import XmlMapping.Proofs.XPath.Composition
import XmlMapping.Proofs.XPath.Rereading

/-! # The texts below a node

The string value of an element or of the document node is made by going down the trees. The same text comes of
the texts among the descendants, put together in document order, and of the string values of the children without
the comments and processing instructions. So whoever looks at the string value sees the texts below and nothing
else. -/

namespace XmlMapping

namespace Document
variable (d : Document)

/-- The texts below a node, in document order. -/
def textsBelow (n : Node) : List Node :=
  (d.descendants n).filter fun m => d.kind? m == some .text

/-- What a child adds to the string value of its parent: nothing if it is a comment or a processing instruction. -/
def share (n : Node) : String :=
  match d.kind? n with
  | some .comment => ""
  | some .instruction => ""
  | _ => d.stringValue n

/-- The texts at paths, put together. -/
def textAt (paths : List Path) : String :=
  String.join (((paths.map Node.ofPath).filter fun m => d.kind? m == some .text).map d.stringValue)

theorem textAt_append (ps qs : List Path) : d.textAt (ps ++ qs) = d.textAt ps ++ d.textAt qs := by
  simp only [textAt, List.map_append, List.filter_append, String.join_append]

end Document

variable {d : Document} {n : Node} {p : Path} {t : Tree}

/-! ### Trees at their places -/

theorem kind?_of_treeAt? (h : treeAt? d.trees p = some t) : d.kind? (.ofPath p) = some (Content.tree t).kind := by
  rw [Document.kind?, Document.content?_of_treeAt? h]
  rfl

theorem stringValue_of_treeAt? (h : treeAt? d.trees p = some t) : d.stringValue (.ofPath p) = t.stringValue := by
  rw [Document.stringValue, Document.content?_of_treeAt? h]

/-- What a tree adds to the string value of its parent are the texts in it. -/
theorem share_of_treeAt? (h : treeAt? d.trees p = some t) : d.share (.ofPath p) = t.textWithin := by
  rw [Document.share, kind?_of_treeAt? h, stringValue_of_treeAt? h]
  cases t <;> rfl

theorem textAt_singleton (h : treeAt? d.trees p = some t) :
    d.textAt [p] = if (Content.tree t).kind = .text then t.stringValue else "" := by
  rw [Document.textAt, List.map_singleton, List.filter_singleton, kind?_of_treeAt? h]
  by_cases hkind : (Content.tree t).kind = .text
  · rw [hkind, if_pos rfl]
    show String.join [d.stringValue (.ofPath p)] = _
    rw [stringValue_of_treeAt? h, String.join_cons, String.join_nil, String.append_empty]
  · rw [if_neg hkind, beq_eq_false_iff_ne.mpr fun h => hkind (Option.some.inj h)]
    rfl

mutual

/-- The texts in a tree are those at its path and below, in document order. -/
theorem Tree.textWithin_eq {d : Document} {p : Path} : ∀ t : Tree, treeAt? d.trees p = some t →
    t.textWithin = d.textAt (p :: t.pathsBelow p)
  | .element tag ts, h => by
    have hwithin : textWithinAll ts = d.textAt (pathsWithin p 0 ts) := textWithinAll_eq ts fun j => by
      rw [treeAt?, childrenAt_of_treeAt? h, Nat.zero_add]
      rfl
    rw [← List.singleton_append, d.textAt_append, textAt_singleton h]
    exact hwithin.trans (String.empty_append).symm
  | .text s, h => (textAt_singleton h).symm
  | .comment s, h => (textAt_singleton h).symm
  | .instruction target s, h => (textAt_singleton h).symm

theorem textWithinAll_eq {d : Document} {p : Path} {i : Nat} : ∀ ts : List Tree,
    (∀ j, treeAt? d.trees ((i + j) :: p) = ts[j]?) → textWithinAll ts = d.textAt (pathsWithin p i ts)
  | [], _ => rfl
  | t :: ts, h => by
    have hfirst : t.textWithin = d.textAt ((i :: p) :: t.pathsBelow (i :: p)) := Tree.textWithin_eq t (h 0)
    have hrest : textWithinAll ts = d.textAt (pathsWithin p (i + 1) ts) := textWithinAll_eq ts fun j => by
      rw [Nat.add_right_comm]
      exact h (j + 1)
    rw [textWithinAll, pathsWithin, d.textAt_append, hfirst, hrest]

end

/-! ### The string value -/

theorem stringValue_eq (h : d.kind? n = some .document ∨ d.kind? n = some .element) :
    n.attr = none ∧ d.stringValue n = textWithinAll (childrenAt d.trees n.path) := by
  obtain ⟨p, _ | k⟩ := n
  · cases p with
    | nil => exact ⟨rfl, rfl⟩
    | cons i p =>
      cases ht : treeAt? d.trees (i :: p) with
      | none =>
        have hnone : d.kind? ⟨i :: p, none⟩ = none := by simp [Document.kind?, Document.content?, ht]
        rw [hnone] at h
        rcases h with h | h <;> cases h
      | some t =>
        have hkind : d.kind? ⟨i :: p, none⟩ = _ := kind?_of_treeAt? ht
        have hvalue : d.stringValue ⟨i :: p, none⟩ = _ := stringValue_of_treeAt? ht
        rw [hkind] at h
        rw [hvalue, childrenAt_of_treeAt? ht]
        cases t with
        | element tag ts => exact ⟨rfl, rfl⟩
        | text | comment | instruction => rcases h with h | h <;> cases h
  · -- What stands at the place of an attribute, if anything, is one.
    have hkind : ∀ kind, d.kind? ⟨p, some k⟩ = some kind → kind = .attribute := fun kind hkind => by
      obtain ⟨c, hc, rfl⟩ := Option.map_eq_some_iff.mp hkind
      rcases c with ts | t | a
      · simp only [Document.content?] at hc
        split at hc <;> simp at hc
      · cases (Document.content?_eq_tree hc).1
      · rfl
    rcases h with h | h <;> cases hkind _ h

theorem stringValue_eq_textsBelow (h : d.kind? n = some .document ∨ d.kind? n = some .element) :
    d.stringValue n = String.join ((d.textsBelow n).map d.stringValue) := by
  obtain ⟨hattr, hvalue⟩ := stringValue_eq h
  obtain ⟨p, rfl⟩ := Node.exists_ofPath hattr
  have hwithin := textWithinAll_eq (d := d) (p := p) (i := 0) (childrenAt d.trees p) fun j => by
    rw [treeAt?, Nat.zero_add]
  exact hvalue.trans hwithin

theorem textWithinAll_eq_join (ts : List Tree) : textWithinAll ts = String.join (ts.map Tree.textWithin) := by
  induction ts with
  | nil => rfl
  | cons t ts ih => rw [textWithinAll, ih, List.map_cons, String.join_cons]

theorem map_share_childrenOf (d : Document) (p : Path) :
    (d.childrenOf p).map d.share = (childrenAt d.trees p).map Tree.textWithin := by
  apply List.ext_getElem?
  intro i
  rw [List.getElem?_map, List.getElem?_map]
  cases ht : (childrenAt d.trees p)[i]? with
  | none =>
    have hlength : (d.childrenOf p).length ≤ i := by
      simpa [Document.childrenOf] using List.getElem?_eq_none_iff.mp ht
    rw [List.getElem?_eq_none_iff.mpr hlength]
    rfl
  | some t =>
    have htree : treeAt? d.trees (i :: p) = some t := ht
    have hholds : d.Holds (.ofPath (i :: p)) :=
      Document.holds_ofPath.mpr (Or.inr (Option.isSome_iff_exists.mpr ⟨t, htree⟩))
    rw [Document.getElem?_childrenOf.mpr ⟨hholds, rfl⟩]
    exact congrArg some (share_of_treeAt? htree)

theorem stringValue_eq_children (h : d.kind? n = some .document ∨ d.kind? n = some .element) :
    d.stringValue n = String.join ((d.children n).map d.share) := by
  obtain ⟨hattr, hvalue⟩ := stringValue_eq h
  obtain ⟨p, rfl⟩ := Node.exists_ofPath hattr
  have hchildren : d.children (.ofPath p) = d.childrenOf p := rfl
  rw [hvalue, textWithinAll_eq_join, hchildren, map_share_childrenOf]
  rfl

/-! ### The path to the texts -/

theorem compile_textsBelow :
    XPath.compile "descendant::text()" = .ok (.path .context [⟨.descendant, .kind .text, []⟩]) := by
  let c : XPath.Phrase := .relative (.full .descendant (.kind .text .none .none)) .nil .nil
  have hc : c.WellFormed := ⟨trivial, trivial⟩
  have hparse := c.parse_eq hc
  have htext : String.ofList c.text = "descendant::text()" := by decide
  rw [htext] at hparse
  rw [XPath.compile, hparse]
  rfl

theorem selectAt_textsBelow (d : Document) (b : Bindings) (n : Node) :
    selectAt d b "descendant::text()" n = .ok (d.textsBelow n) := by
  rw [selectAt_eq_ok]
  exact ⟨_, compile_textsBelow, XPath.Expr.select_step⟩

/-- The string value of an element or of the document node is made of the string values of the texts that
    `descendant::text()` selects, in document order, and of those of the children, where comments and processing
    instructions count as empty. This is what `string()`, a conversion of the text and a binding to the text of a
    path see of the node. -/
theorem stringValue_texts (h : d.kind? n = some .document ∨ d.kind? n = some .element) (b : Bindings)
    (resolve : Reference → Node → Run Json) :
    ∃ ns text, selectAt d b "descendant::text()" n = .ok ns ∧
      (∀ m, m ∈ ns ↔ m ∈ d.descendants n ∧ d.kind? m = some .text) ∧ Ordered ns ∧
      text = String.join (ns.map d.stringValue) ∧ d.stringValue n = text ∧
      text = String.join ((d.children n).map d.share) ∧
      (∀ i k, (XPath.Expr.call ⟨none, "string"⟩ []).evaluate d b ⟨n, i, k⟩ = .ok (.string text)) ∧
      (∀ convert, (Mapping.text convert).apply resolve d b n = (convert text).run text) ∧
      ∀ key path m others, selectAt d b path m = .ok (n :: others) →
        ((Binding.textAt key path).apply resolve d b m).result = .ok (.string text) := by
  have hselect := selectAt_textsBelow d b n
  refine ⟨d.textsBelow n, d.stringValue n, hselect, fun m => ?_, ordered_selectAt hselect,
    stringValue_eq_textsBelow h, rfl, stringValue_eq_children h, fun i k => rfl, fun convert => rfl,
    fun key path m others hothers => ?_⟩
  · rw [Document.textsBelow, List.mem_filter, beq_iff_eq]
  · rw [Binding.apply, firstAt, Run.result_bind, hothers]
    exact result_firstOf _ (n :: others)

/-- `<a k="v">x<!--c--><b>y<?p i?></b>z</a>` -/
def mixedDocument : Document :=
  ⟨[.element ⟨⟨none, "a"⟩, [], [⟨⟨none, "k"⟩, "v"⟩]⟩
    [.text "x", .comment "c", .element ⟨⟨none, "b"⟩, [], []⟩ [.text "y", .instruction "p" "i"], .text "z"]]⟩

/-- Neither the comment nor the processing instruction nor the attribute is seen. -/
theorem stringValue_texts_mixed :
    mixedDocument.kind? (.ofPath [0]) = some .element ∧ mixedDocument.stringValue (.ofPath [0]) = "xyz" ∧
      selectAt mixedDocument .empty "descendant::text()" (.ofPath [0]) =
        .ok [.ofPath [0, 0], .ofPath [0, 2, 0], .ofPath [3, 0]] ∧
      (XPath.Expr.call ⟨none, "string"⟩ []).evaluate mixedDocument .empty ⟨.ofPath [0], 1, 1⟩ = .ok (.string "xyz") ∧
      (Mapping.text .text).run [] mixedDocument .empty (.ofPath [0]) = .done (.string "xyz") := by
  have hkind : mixedDocument.kind? (.ofPath [0]) = some .element := rfl
  have hvalue : mixedDocument.stringValue (.ofPath [0]) = "xyz" := by decide
  have hselect := selectAt_textsBelow mixedDocument .empty (.ofPath [0])
  obtain ⟨ns, text, hns, -, -, -, htext, -, hstring, hconvert, -⟩ :=
    stringValue_texts (Or.inr hkind) .empty (resolve [] mixedDocument .empty)
  rw [hvalue] at htext
  subst htext
  exact ⟨hkind, hvalue, hselect, hstring 1 1, hconvert .text⟩

end XmlMapping
