import Mathlib.Data.List.TakeWhile
import XmlMapping.Markup.Reader
import XmlMapping.Proofs.Document.Scope
import XmlMapping.Proofs.Result
import XmlMapping.Proofs.Text.Scanning

/-! # Names in documents that are read

The reader takes the namespace of each name from the declarations in scope, so all names of a document that
it gives come from declarations. What is shown for a name is looked up again among the same declarations.
It stands for the namespace of the name, but in one case: the first declaration of the namespace is a
default one, and no prefix is not enough to say it. -/

namespace XmlMapping.Markup
open Text

variable {limit : Nat} {tag tag' : OpenTag} {scope around : List Declaration} {p q : Progress}

/-! ### Start tags -/

theorem OpenTag.declares_iff {label : String} :
    tag.declares label ↔ ∃ e ∈ tag.declarations, e.nsPrefix = some label := by
  rw [OpenTag.declares, List.any_eq_true]
  simp only [beq_iff_eq]

/-- A start tag with declarations that keep to the rules and without a second colon in its names. -/
structure OpenTag.Sound (tag : OpenTag) : Prop where
  regular : Regular tag.declarations
  noColon : ':' ∉ tag.name.localPart
  attributes : ∀ a ∈ tag.attributes, ':' ∉ a.1.localPart

theorem OpenTag.Sound.declare (h : tag.Sound) {nsPrefix : Option String} {uri : String}
    (hnew : ∀ e ∈ tag.declarations, e.nsPrefix = nsPrefix → e.nsPrefix = none)
    (hallowed : Declaration.Allowed ⟨nsPrefix, uri⟩) : (tag.declare nsPrefix uri).Sound :=
  ⟨h.regular.append_one hnew hallowed, h.noColon, h.attributes⟩

theorem OpenTag.Sound.add (h : tag.Sound) {name : WrittenName} {written : List Char} (hname : ':' ∉ name.localPart)
    (hadd : tag.add name written = .ok tag') : tag'.Sound := by
  simp only [OpenTag.add, except_bind_eq_ok] at hadd
  obtain ⟨ps, -, hadd⟩ := hadd
  split at hadd
  · simp only [throw_or_eq_ok] at hadd
    obtain ⟨-, hxml, -, hnew, hadd⟩ := hadd
    split at hadd <;> cases hadd
    · exact h
    · next hvalue =>
      have hlabel : String.ofList name.localPart ≠ "xml" := fun hlabel => by simp [hlabel, hvalue] at hxml
      refine h.declare (fun e he hsame => absurd (OpenTag.declares_iff.mpr ⟨e, he, hsame⟩) hnew)
        ⟨fun heq => hlabel (Option.some.inj heq), hvalue, ?_⟩
      rintro _ ⟨⟩
      rwa [String.toList_ofList]
  · split at hadd
    · simp only [throw_or_eq_ok] at hadd
      obtain ⟨hvalue, -, hadd⟩ := hadd
      cases hadd
      exact h.declare (fun e _ hsame => hsame) ⟨nofun, hvalue, nofun⟩
    · cases hadd
      exact ⟨h.regular, h.noColon, List.forall_mem_append.mpr ⟨h.attributes, List.forall_mem_singleton.mpr hname⟩⟩

theorem noColon_of_writtenName {s rest : List Char} {name : WrittenName} (h : writtenName s = .ok (name, rest)) :
    ':' ∉ name.localPart := by
  simp only [writtenName] at h
  split at h
  · split at h <;> cases h
    intro hmem
    simpa using List.mem_takeWhile_imp hmem
  · next hsecond =>
    split at h <;> cases h
    next hnot =>
    simp only [Bool.or_eq_true, not_or, List.contains_eq_mem, decide_eq_true_eq] at hnot
    exact hnot.1.1.1

theorem OpenTag.Sound.tagRest {s rest : List Char} {tagEnd : TagEnd} (h : tag.Sound)
    (hread : tagRest tag s = .ok ((tag', tagEnd), rest)) : tag'.Sound := by
  fun_induction Markup.tagRest tag s with
  | case1 =>
    cases hread
    exact h
  | case3 =>
    obtain ⟨_, -, heq⟩ := except_map_eq_ok.mp hread
    cases heq
    exact h
  | case4 =>
    cases hread
    exact h
  | case8 _ _ _ _ _ _ _ _ hadd _ _ _ _ hattr ih =>
    simp only [writtenAttribute, except_bind_eq_ok] at hattr
    obtain ⟨⟨name, _⟩, hname, _, -, _, -, heq⟩ := hattr
    cases heq
    exact ih (h.add (noColon_of_writtenName hname) hadd) hread
  | _ => cases hread

theorem sound_startTag {s rest : List Char} {tagEnd : TagEnd} (h : startTag s = .ok ((tag, tagEnd), rest)) :
    tag.Sound := by
  simp only [startTag, except_bind_eq_ok, throw_or_eq_ok] at h
  obtain ⟨⟨name, t⟩, hname, -, h⟩ := h
  exact OpenTag.Sound.tagRest ⟨regular_nil, noColon_of_writtenName hname, by simp⟩ h

/-! ### Namespaces of names -/

theorem exists_of_declared? {key : List Char} {uri : String} (h : declared? scope key = some uri) :
    ∃ e ∈ scope, e.uri = uri := by
  rw [declared?, Option.map_eq_some_iff] at h
  obtain ⟨e, he, huri⟩ := h
  exact ⟨e, List.mem_of_find?_eq_some he, huri⟩

theorem elementName_of_ok {name : WrittenName} {x : ExpandedName} (h : elementName scope name = .ok x) :
    x.localPart = String.ofList name.localPart ∧ (x.namespaceUri = none → declaredUri? scope none = none) ∧
      ∀ u, x.namespaceUri = some u → ∃ e ∈ scope, e.uri = u := by
  unfold elementName at h
  split at h
  · next uri huri =>
    cases h
    refine ⟨rfl, nofun, ?_⟩
    rintro _ ⟨⟩
    exact exists_of_declared? huri
  · next hnone =>
    split at h
    · next hempty =>
      cases h
      refine ⟨rfl, fun _ => ?_, nofun⟩
      simpa [declared?, declaredUri?, hempty] using hnone
    · cases h

theorem attributeName_of_ok {name : WrittenName} {x : ExpandedName} (h : attributeName scope name = .ok x) :
    x.localPart = String.ofList name.localPart ∧
      ∀ u, x.namespaceUri = some u → u = xmlNamespace ∨ ∃ e ∈ scope, e.uri = u := by
  unfold attributeName at h
  split at h
  · cases h
    exact ⟨rfl, nofun⟩
  · split at h
    · cases h
      refine ⟨rfl, ?_⟩
      rintro _ ⟨⟩
      exact Or.inl rfl
    · split at h
      · next uri huri =>
        cases h
        refine ⟨rfl, ?_⟩
        rintro _ ⟨⟩
        exact Or.inr (exists_of_declared? huri)
      · cases h

theorem mem_namedAttributes {before as : List Attribute} {written : List (WrittenName × String)}
    (h : namedAttributes scope before written = .ok as) :
    ∀ a ∈ as, a ∈ before ∨ ∃ w ∈ written, attributeName scope w.1 = .ok a.name := by
  induction written generalizing before with
  | nil =>
    cases h
    exact fun a ha => Or.inl ha
  | cons w written ih =>
    simp only [namedAttributes, except_bind_eq_ok, throw_or_eq_ok] at h
    obtain ⟨x, hx, -, h⟩ := h
    intro a ha
    rcases ih h a ha with hbefore | ⟨w', hw', hname⟩
    · rcases List.mem_append.mp hbefore with hbefore | hlast
      · exact Or.inl hbefore
      · obtain rfl := List.mem_singleton.mp hlast
        exact Or.inr ⟨w, List.mem_cons_self, hx⟩
    · exact Or.inr ⟨w', List.mem_cons_of_mem w hw', hname⟩

theorem OpenTag.declarations_finish {t : Tag} (h : tag.finish around = .ok t) :
    t.declarations = tag.declarations := by
  simp only [OpenTag.finish, except_bind_eq_ok] at h
  obtain ⟨_, -, _, -, h⟩ := h
  cases h
  rfl

/-- The names of a tag come from the declarations in scope in it. -/
theorem OpenTag.Sound.finish {t : Tag} (h : tag.Sound) (hfinish : tag.finish around = .ok t) : t.Fits around := by
  simp only [OpenTag.finish, except_bind_eq_ok] at hfinish
  obtain ⟨as, has, name, hname, hfinish⟩ := hfinish
  cases hfinish
  obtain ⟨hlocal, hnone, hsome⟩ := elementName_of_ok hname
  refine ⟨h.regular, hnone, hsome, ?_, fun a ha => ?_⟩
  · rw [hlocal, String.toList_ofList]
    exact h.noColon
  · rcases mem_namedAttributes has a ha with hin | ⟨w, hw, hattr⟩
    · cases hin
    · obtain ⟨hlocal, huri⟩ := attributeName_of_ok hattr
      rw [hlocal, String.toList_ofList]
      exact ⟨h.attributes w hw, huri⟩

/-! ### Progress -/

/-- Open elements with names that come from declarations, as does all that was read before them, and the
    declarations in scope in the innermost one. -/
inductive FramesFit : List Frame → List Declaration → Prop
  | nil : FramesFit [] []
  | cons {f : Frame} {frames : List Frame} {around : List Declaration} (hframes : FramesFit frames around)
      (hscope : f.scope = inScope f.tag.declarations around) (htag : f.tag.Fits around)
      (hbefore : AllFit around f.before) : FramesFit (f :: frames) f.scope

/-- All names read so far come from declarations. -/
structure Progress.Fits (p : Progress) : Prop where
  frames : FramesFit p.frames p.scope
  here : AllFit p.scope p.here

namespace Progress

theorem fits_start : start.Fits :=
  ⟨.nil, trivial⟩

theorem fits_of (hframes : FramesFit p.frames around) (hhere : AllFit around p.here) : p.Fits := by
  obtain ⟨frames, here, count⟩ := p
  have hscope : scope ⟨frames, here, count⟩ = around := by cases hframes <;> rfl
  subst hscope
  exact ⟨hframes, hhere⟩

section Steps

variable (h : p.Fits)

include h

theorem Fits.counted (hstep : p.counted limit = .ok q) : FramesFit q.frames p.scope ∧ AllFit p.scope q.here := by
  unfold Progress.counted at hstep
  split at hstep <;> cases hstep
  exact ⟨h.frames, h.here⟩

theorem Fits.add {t : Tree} (ht : t.Fits p.scope) (hstep : p.add limit t = .ok q) : q.Fits := by
  obtain ⟨p', hcount, rfl⟩ := except_map_eq_ok.mp hstep
  obtain ⟨hframes, hhere⟩ := h.counted hcount
  exact fits_of hframes ⟨ht, hhere⟩

theorem Fits.addText {text : List Char} (hstep : p.addText limit text = .ok q) : q.Fits := by
  unfold Progress.addText at hstep
  split at hstep
  · next hhere =>
    cases hstep
    have hall := h.here
    rw [hhere] at hall
    exact ⟨h.frames, by rw [Tree.Fits]; trivial, hall.2⟩
  · exact h.add (by rw [Tree.Fits]; trivial) hstep

/-- What is open in an element is what was open around it, and then the element itself. -/
theorem Fits.addElement {tagEnd : TagEnd} (htag : tag.Sound)
    (hstep : p.addElement limit tag tagEnd = .ok q) : q.Fits := by
  unfold Progress.addElement at hstep
  split at hstep
  · cases hstep
    exact h
  · obtain ⟨t, hfinish, hadd⟩ := except_bind_eq_ok.mp hstep
    refine h.add ?_ hadd
    rw [Tree.Fits]
    exact ⟨htag.finish hfinish, trivial⟩
  · simp only [except_bind_eq_ok] at hstep
    obtain ⟨t, hfinish, p', hcount, hstep⟩ := hstep
    cases hstep
    obtain ⟨hframes, hhere⟩ := h.counted hcount
    refine ⟨.cons hframes ?_ (htag.finish hfinish) hhere, trivial⟩
    rw [OpenTag.declarations_finish hfinish]

theorem Fits.close {name : WrittenName} (hstep : p.close name = .ok q) : q.Fits := by
  obtain ⟨frames, here, count⟩ := p
  unfold Progress.close at hstep
  split at hstep
  · cases hstep
  · next f frames' hframes =>
    split at hstep <;> cases hstep
    obtain rfl : frames = f :: frames' := hframes
    rcases h.frames with _ | ⟨hopen, hscope, htag, hbefore⟩
    have hhere : AllFit f.scope here := h.here
    refine fits_of hopen ⟨?_, hbefore⟩
    rw [Tree.Fits, ← hscope, allFit_iff]
    exact ⟨htag, fun t ht => allFit_iff.mp hhere t (List.mem_reverse.mp ht)⟩

theorem Fits.contentPart {s rest : List Char} (hread : contentPart limit p s = .ok (q, rest)) : q.Fits := by
  unfold Markup.contentPart at hread
  split at hread
  · split at hread
    · simp only [except_bind_eq_ok] at hread
      obtain ⟨_, -, p', hadd, hread⟩ := hread
      cases hread
      exact h.add (by rw [Tree.Fits]; trivial) hadd
    · split at hread
      · simp only [except_bind_eq_ok] at hread
        obtain ⟨_, -, p', hadd, hread⟩ := hread
        cases hread
        exact h.addText hadd
      · cases hread
  · simp only [contentPart.processing, except_bind_eq_ok, throw_or_eq_ok] at hread
    obtain ⟨-, _, -, p', hadd, hread⟩ := hread
    cases hread
    exact h.add (by rw [Tree.Fits]; trivial) hadd
  · simp only [except_bind_eq_ok] at hread
    obtain ⟨_, -, _, -, p', hclose, hread⟩ := hread
    cases hread
    exact h.close hclose
  · cases hread
  · simp only [except_bind_eq_ok] at hread
    obtain ⟨⟨⟨tag, tagEnd⟩, _⟩, htag, p', hadd, hread⟩ := hread
    cases hread
    exact h.addElement (sound_startTag htag) hadd
  · simp only [except_bind_eq_ok, throw_or_eq_ok] at hread
    obtain ⟨_, -, -, _, -, p', hadd, hread⟩ := hread
    cases hread
    exact h.addText hadd

theorem Fits.content {s rest : List Char} (hread : content limit p s = .ok (q, rest)) : q.Fits := by
  fun_induction Markup.content limit p s with
  | case1 =>
    cases hread
    exact h
  | case2 => cases hread
  | case3 _ _ _ _ _ hpart _ ih => exact ih (h.contentPart hpart) hread
  | case4 => cases hread

theorem Fits.outside {s rest : List Char} (hread : outside limit p s = .ok (q, rest)) : q.Fits := by
  fun_induction Markup.outside limit p s with
  | case1 => cases hread
  | case2 _ _ _ _ _ _ hpart _ ih => exact ih (h.contentPart hpart) hread
  | case3 => cases hread
  | case4 =>
    obtain ⟨rfl, -⟩ := Prod.mk.inj (Except.ok.inj hread)
    exact h

theorem Fits.documentElement {s rest : List Char} (hread : documentElement limit p s = .ok (q, rest)) : q.Fits := by
  unfold Markup.documentElement at hread
  split at hread
  · simp only [throw_or_eq_ok, except_bind_eq_ok] at hread
    obtain ⟨-, ⟨⟨tag, tagEnd⟩, t⟩, htag, p', hadd, hread⟩ := hread
    exact (h.addElement (sound_startTag htag) hadd).content hread
  · cases hread
    exact h

end Steps

end Progress

/-- A document is what is left when everything has been read and no element is open. -/
theorem exists_of_parse {text : String} {d : Document} (h : parse limit text = .ok d) :
    ∃ s p₁ s₁ p₂ s₂ p s₃, outside limit .start s = .ok (p₁, s₁) ∧ documentElement limit p₁ s₁ = .ok (p₂, s₂) ∧
      outside limit p₂ s₂ = .ok (p, s₃) ∧ p.frames = [] ∧ d = ⟨p.here.reverse⟩ := by
  simp only [parse] at h
  generalize (if text.toList.head? == some '\uFEFF' then text.toList.drop 1 else text.toList) = s at h
  split at h
  all_goals
    obtain ⟨t, -, h⟩ := except_bind_eq_ok.mp h
    simp only [except_bind_eq_ok, throw_or_eq_ok] at h
    obtain ⟨⟨p₁, s₁⟩, hbefore, ⟨p₂, s₂⟩, helement, ⟨p, s₃⟩, hafter, -, h⟩ := h
    split at h
    · next hframes =>
      split at h <;> cases h
      exact ⟨t, p₁, s₁, p₂, s₂, p, s₃, hbefore, helement, hafter, List.isEmpty_iff.mp hframes, rfl⟩
    · cases h

/-- All names of a document that is read come from declarations. -/
theorem allFit_parse {text : String} {d : Document} (h : parse limit text = .ok d) : AllFit [] d.trees := by
  obtain ⟨_, _, _, _, _, p, _, hbefore, helement, hafter, hframes, rfl⟩ := exists_of_parse h
  have hfits := ((Progress.fits_start.outside hbefore).documentElement helement).outside hafter
  have hscope : p.scope = [] := by rw [Progress.scope, hframes]
  have hhere := hfits.here
  rw [hscope, allFit_iff] at hhere
  exact allFit_iff.mpr fun t ht => hhere t (List.mem_reverse.mp ht)

end XmlMapping.Markup

namespace XmlMapping
variable {d : Document} {n : Node} {x : ExpandedName}

/-! ### What is shown -/

/-- The part of a name before its colon. -/
def prefixOf? (name : String) : Option String :=
  (Text.splitAt? [':'] name.toList).map fun (p, _) => String.ofList p

/-- The namespace that the name shown for a node stands for at its element: the prefix `xml` stands for its
    own, any other prefix for what it is bound to, and no prefix for the default namespace, or for none when
    the node is an attribute. -/
def Document.denotedUri? (d : Document) (n : Node) : Option String :=
  match prefixOf? (d.qualifiedName n) with
  | some p => if p = "xml" then some xmlNamespace else d.boundUri? (some p) n
  | none => if n.attr.isSome then none else d.boundUri? none n

/-- The first declaration in scope of the namespace of a node is a default one, and its name without a prefix
    stands for another: an attribute without one is in no namespace, and an element is in the default
    namespace, which a second default declaration on one tag does not change. -/
def Document.Misnamed (d : Document) (n : Node) : Prop :=
  ∃ e, (d.scope n).find? (·.uri == d.namespaceUri n) = some e ∧ e.nsPrefix = none ∧
    if n.attr.isSome then d.namespaceUri n ≠ "" else d.boundUri? none n ≠ some (d.namespaceUri n)

theorem Document.misnamed_iff {e : Declaration} (he : (d.scope n).find? (·.uri == d.namespaceUri n) = some e) :
    d.Misnamed n ↔ e.nsPrefix = none ∧
      if n.attr.isSome then d.namespaceUri n ≠ "" else d.boundUri? none n ≠ some (d.namespaceUri n) := by
  simp only [Misnamed, he, Option.some.injEq, exists_eq_left']

/-- The name of a node comes from the declarations in scope at it. -/
structure Document.Named (d : Document) (n : Node) (x : ExpandedName) : Prop where
  name : d.name? n = some x
  regular : Regular (d.scope n)
  noColon : ':' ∉ x.localPart.toList
  unnamed : n.attr = none → x.namespaceUri = none → d.boundUri? none n = none
  named : ∀ u, x.namespaceUri = some u → u = xmlNamespace ∨ ∃ e ∈ d.scope n, e.uri = u

theorem Document.exists_tag_of_kind? (h : d.kind? n = some .element ∨ d.kind? n = some .attribute) :
    ∃ tag ts, treeAt? d.trees n.path = some (.element tag ts) ∧
      (n.attr = none ∧ d.name? n = some tag.name ∨ n.attr.isSome ∧ ∃ a ∈ tag.attributes, d.name? n = some a.name) := by
  rw [name?]
  rcases hc : d.content? n with _ | (_ | (⟨tag, ts⟩ | _ | _ | _) | a)
  all_goals
    simp only [kind?, hc, Option.map_some, Option.map_none, Content.kind, Option.some.injEq, reduceCtorEq,
      or_self] at h
  · obtain ⟨hattr, htree⟩ := content?_eq_tree hc
    exact ⟨tag, ts, htree, Or.inl ⟨hattr, rfl⟩⟩
  · obtain ⟨hattr, tag, ts, htree, ha⟩ := content?_eq_attribute hc
    exact ⟨tag, ts, htree, Or.inr ⟨hattr, a, ha, rfl⟩⟩

theorem Document.exists_named (hd : AllFit [] d.trees)
    (h : d.kind? n = some .element ∨ d.kind? n = some .attribute) : ∃ x, d.Named n x := by
  obtain ⟨tag, ts, htree, hname⟩ := exists_tag_of_kind? h
  obtain ⟨around, hscope, haround, hfits⟩ :=
    hd.exists_scope regular_nil (q := n.path.reverse) (by rwa [List.reverse_reverse])
  have hin : d.scope n = inScope tag.declarations around := hscope
  have hregular := hin ▸ hfits.regular.inScope haround
  rcases hname with ⟨-, hname⟩ | ⟨hattr, a, ha, hname⟩
  · refine ⟨tag.name, hname, hregular, hfits.noColon, fun _ => ?_, fun u hu => Or.inr ?_⟩
    · rw [← declaredUri?_scope, hin]
      exact hfits.unnamed
    · rw [hin]
      exact hfits.named u hu
  · obtain ⟨hcolon, huri⟩ := hfits.attributes a ha
    refine ⟨a.name, hname, hregular, hcolon, fun hnone => ?_, hin ▸ huri⟩
    rw [hnone] at hattr
    cases hattr

theorem Regular.noColon_shownPrefix {scope : List Declaration} (h : Regular scope) {uri p : String}
    (hp : shownPrefix scope uri = some p) : ':' ∉ p.toList := by
  unfold shownPrefix at hp
  split at hp
  · cases hp
    decide
  · obtain ⟨e, he, hp⟩ := Option.bind_eq_some_iff.mp hp
    exact (h.allowed e (List.mem_of_find?_eq_some he)).noColon p hp

namespace Document.Named
variable (h : d.Named n x)

include h

theorem namespaceUri_eq : d.namespaceUri n = x.namespaceUri.getD "" := by
  rw [namespaceUri, h.name]

theorem shownPrefix?_eq : d.shownPrefix? n = x.namespaceUri.bind (shownPrefix (d.scope n)) := by
  rw [shownPrefix?, h.name]
  rfl

/-- The prefix that is shown can be told from the name that is shown. -/
theorem prefixOf?_qualifiedName : prefixOf? (d.qualifiedName n) = d.shownPrefix? n := by
  rw [qualifiedName, h.name]
  cases hp : d.shownPrefix? n with
  | none => simp [prefixOf?, Text.splitAt?_eq_none h.noColon]
  | some p =>
    rw [h.shownPrefix?_eq] at hp
    obtain ⟨uri, -, hp⟩ := Option.bind_eq_some_iff.mp hp
    simp [prefixOf?, Text.splitAt?_append (h.regular.noColon_shownPrefix hp)]

theorem denotedUri?_eq : d.denotedUri? n =
    match d.shownPrefix? n with
    | some p => if p = "xml" then some xmlNamespace else d.boundUri? (some p) n
    | none => if n.attr.isSome then none else d.boundUri? none n := by
  rw [denotedUri?, h.prefixOf?_qualifiedName]

/-- A name in no namespace is shown without a prefix, and there is no default namespace for an element. -/
theorem denotes_of_none (hns : x.namespaceUri = none) :
    (d.denotedUri? n).getD "" = d.namespaceUri n ∧ ¬d.Misnamed n := by
  rw [h.denotedUri?_eq, h.shownPrefix?_eq, h.namespaceUri_eq, hns]
  cases hattr : n.attr with
  | none =>
    have hbound := h.unnamed hattr hns
    refine ⟨by simp [hbound], ?_⟩
    rintro ⟨e, he, hprefix, -⟩
    rw [← declaredUri?_scope, declaredUri?_eq_none] at hbound
    exact hbound e (List.mem_of_find?_eq_some he) hprefix
  | some k =>
    refine ⟨rfl, ?_⟩
    rintro ⟨e, -, -, hother⟩
    rw [hattr, h.namespaceUri_eq, hns] at hother
    exact hother rfl

theorem denotes_of_xml (hns : x.namespaceUri = some xmlNamespace) :
    (d.denotedUri? n).getD "" = d.namespaceUri n ∧ ¬d.Misnamed n := by
  have huri : d.namespaceUri n = xmlNamespace := by rw [h.namespaceUri_eq, hns, Option.getD_some]
  have hshown : d.shownPrefix? n = some "xml" := by
    rw [h.shownPrefix?_eq, hns, Option.bind_some, shownPrefix, if_pos rfl]
  refine ⟨by rw [h.denotedUri?_eq, hshown, huri]; rfl, ?_⟩
  rintro ⟨e, he, -, -⟩
  have heu : e.uri = xmlNamespace := by simpa [huri] using List.find?_some he
  exact (h.regular.allowed e (List.mem_of_find?_eq_some he)).notXmlNamespace heu

/-- The prefix of the first declaration of a namespace stands for it, if that declaration has one. -/
theorem denotes_of_declared {u : String} (hns : x.namespaceUri = some u) (hxml : u ≠ xmlNamespace) :
    (d.denotedUri? n).getD "" = d.namespaceUri n ↔ ¬d.Misnamed n := by
  have huri : d.namespaceUri n = u := by rw [h.namespaceUri_eq, hns, Option.getD_some]
  obtain ⟨e₀, he₀, hu⟩ := (h.named u hns).resolve_left hxml
  obtain ⟨e, he⟩ : ∃ e, (d.scope n).find? (·.uri == u) = some e :=
    Option.isSome_iff_exists.mp (List.find?_isSome.mpr ⟨e₀, he₀, beq_iff_eq.mpr hu⟩)
  have hmem := List.mem_of_find?_eq_some he
  have heu : e.uri = u := by simpa using List.find?_some he
  have hshown : d.shownPrefix? n = e.nsPrefix := by
    rw [h.shownPrefix?_eq, hns, Option.bind_some, shownPrefix, if_neg hxml, he, Option.bind_some]
  rw [misnamed_iff (huri ▸ he), huri, h.denotedUri?_eq, hshown]
  cases hprefix : e.nsPrefix with
  | some p =>
    have hp : p ≠ "xml" := fun hp => (h.regular.allowed e hmem).notXml (hp ▸ hprefix)
    simp [hp, ← declaredUri?_scope, h.regular.declaredUri?_eq hmem hprefix, heu]
  | none =>
    have hbound : d.boundUri? none n ≠ none := by
      rw [← declaredUri?_scope, Ne, declaredUri?_eq_none]
      exact fun hall => hall e hmem hprefix
    obtain ⟨v, hv⟩ := Option.ne_none_iff_exists'.mp hbound
    cases n.attr with
    | none => simp [hv]
    | some k => simp [eq_comm]

end Document.Named

/-- The name that is shown for an element or an attribute of a document that is read stands for its namespace,
    unless the first declaration of that namespace is a default one that does not give it. -/
theorem qualifiedName_denotes {limit : Nat} {text : String} (hd : Markup.parse limit text = .ok d)
    (h : d.kind? n = some .element ∨ d.kind? n = some .attribute) :
    (d.denotedUri? n).getD "" = d.namespaceUri n ↔ ¬d.Misnamed n := by
  obtain ⟨x, hx⟩ := Document.exists_named (Markup.allFit_parse hd) h
  rcases hns : x.namespaceUri with _ | u
  · obtain ⟨heq, hnot⟩ := hx.denotes_of_none hns
    exact iff_of_true heq hnot
  · by_cases hxml : u = xmlNamespace
    · obtain ⟨heq, hnot⟩ := hx.denotes_of_xml (hxml ▸ hns)
      exact iff_of_true heq hnot
    · exact hx.denotes_of_declared hns hxml

/-- A document with one namespace that is both the default one and bound to a prefix. -/
def boundTwice : Document :=
  ⟨[.element ⟨⟨some "u", "a"⟩, [⟨none, "u"⟩, ⟨some "p", "u"⟩], [⟨⟨some "u", "x"⟩, "1"⟩]⟩ []]⟩

/-- There the element keeps its namespace without its prefix, and the attribute loses it. -/
theorem qualifiedName_denotes_boundTwice :
    Markup.parse 10 "<p:a xmlns=\"u\" xmlns:p=\"u\" p:x=\"1\"/>" = .ok boundTwice ∧
      boundTwice.kind? ⟨[0], none⟩ = some .element ∧ boundTwice.kind? ⟨[0], some 0⟩ = some .attribute ∧
      (boundTwice.denotedUri? ⟨[0], none⟩).getD "" = "u" ∧
      ¬(boundTwice.denotedUri? ⟨[0], some 0⟩).getD "" = "u" := by
  have hd : Markup.parse 10 "<p:a xmlns=\"u\" xmlns:p=\"u\" p:x=\"1\"/>" = .ok boundTwice := by with_unfolding_all rfl
  refine ⟨hd, rfl, rfl, (qualifiedName_denotes hd (Or.inl rfl)).mpr ?_, fun h => ?_⟩
  · rintro ⟨e, -, -, hother⟩
    exact hother rfl
  · exact (qualifiedName_denotes hd (Or.inr rfl)).mp h ⟨⟨none, "u"⟩, rfl, rfl, by decide⟩

end XmlMapping
