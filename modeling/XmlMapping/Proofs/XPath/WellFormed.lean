import XmlMapping.Proofs.XPath.Enclosing
import XmlMapping.Proofs.XPath.Unbound

/-!
# Everything that is read is well-formed

What the parser makes of any text is printable, and so each part of it is well-formed on its own: names are
names, what has to have steps or predicates has some, and no call could be a node test. The readers are gone
through one by one, with one lemma for each way to put a reader together from others.
-/

namespace XmlMapping

/-! ### Numbers without a sign -/

/-- Whether a number is neither NaN nor has a minus sign, which a zero may have as well. -/
inductive Number.Unsigned : Number → Prop
  | infinite : Unsigned (.infinite false)
  | finite (units : Nat) (fits : Representable units) : Unsigned (.finite false units fits)

theorem Number.unsigned_ofRatio (num den : Nat) : (ofRatio false num den).Unsigned := by
  unfold ofRatio
  split
  · exact .finite _ _
  · exact .infinite

theorem Number.unsigned_ofDecimal (value : Nat) (exponent : Int) : (ofDecimal false value exponent).Unsigned := by
  unfold ofDecimal zero
  split
  · exact unsigned_ofRatio 0 1
  split
  · exact .infinite
  split
  · exact unsigned_ofRatio 0 1
  split
  · exact unsigned_ofRatio _ 1
  · exact unsigned_ofRatio _ _

namespace XPath

open Text

variable {α β : Type} {P : α → Prop} {Q : β → Prop}

/-! ### Whatever a reader gives -/

/-- Whether all that a reader gives has a property. -/
def Gives (P : α → Prop) (read : Reader α) : Prop :=
  ∀ s a rest, read s = some (a, rest) → P a

namespace Gives
variable {f g : Reader α}

theorem pure {a : α} (ha : P a) : Gives P fun s => some (a, s) := by
  rintro s _ _ ⟨⟩
  exact ha

theorem none : Gives P fun _ => Option.none :=
  nofun

theorem bind {F : α × List Char → Option (β × List Char)} (hf : Gives P f)
    (hF : ∀ a, P a → Gives Q fun s => F (a, s)) : Gives Q fun s => f s >>= F := by
  intro s b rest h
  obtain ⟨⟨a, t⟩, ha, hb⟩ := Option.bind_eq_some_iff.mp h
  exact hF a (hf s a t ha) t b rest hb

theorem any : Gives (fun _ => True) f :=
  fun _ _ _ _ => trivial

theorem mono {P' : α → Prop} (hf : Gives P f) (h : ∀ a, P a → P' a) : Gives P' f := fun s a rest hread =>
  h a (hf s a rest hread)

/-- What is read first does not matter. -/
theorem after {F : α × List Char → Option (β × List Char)} (hF : ∀ a, Gives Q fun s => F (a, s)) :
    Gives Q fun s => f s >>= F :=
  any.bind fun a _ => hF a

theorem congr (h : ∀ s, f s = g s) (hg : Gives P g) : Gives P f :=
  funext h ▸ hg

/-- It is enough to have a reader for each single text. -/
theorem of_forall (h : ∀ s, ∃ g : Reader α, Gives P g ∧ f s = g s) : Gives P f := by
  intro s a rest hread
  obtain ⟨g, hg, hs⟩ := h s
  exact hg s a rest (hs ▸ hread)

theorem map (hf : Gives P f) (h : α → β) (hQ : ∀ a, P a → Q (h a)) :
    Gives Q fun s => (f s).map fun (a, rest) => (h a, rest) := by
  intro s b rest hread
  obtain ⟨⟨a, t⟩, ha, heq⟩ := Option.map_eq_some_iff.mp hread
  cases heq
  exact hQ a (hf s a _ ha)

theorem orElse (hf : Gives P f) (hg : Gives P g) : Gives P fun s => f s <|> g s := by
  intro s a rest h
  rcases Option.or_eq_some_iff.mp (Option.orElse_eq_or.symm.trans h) with h | ⟨-, h⟩
  · exact hf s a rest h
  · exact hg s a rest h

theorem padded (hf : Gives P f) : Gives P (padded f) := by
  intro s a rest h
  obtain ⟨⟨b, t⟩, hb, heq⟩ := Option.map_eq_some_iff.mp h
  cases heq
  exact hf _ a t hb

theorem many (hf : Gives P f) : Gives (fun as => ∀ a ∈ as, P a) fun s => some (many f s) := by
  intro s as rest h
  obtain rfl : (XPath.many f s).1 = as := congrArg Prod.fst (Option.some.inj h)
  clear h
  fun_induction XPath.many f s with
  | case1 | case3 => exact fun _ h => absurd h List.not_mem_nil
  | case2 s a rest hread hlt as rest' hmore ih =>
    rw [hmore] at ih
    exact List.forall_mem_cons.mpr ⟨hf s a rest hread, ih⟩

/-- What is read depends on whether another reader reads something first. -/
theorem elim {F : α × List Char → Option (β × List Char)} {g : Reader β} (hf : Gives P f)
    (hF : ∀ a, P a → Gives Q fun s => F (a, s)) (hg : Gives Q g) : Gives Q fun s => (f s).elim (g s) F := by
  intro s b rest h
  replace h : (f s).elim (g s) F = some (b, rest) := h
  rcases hx : f s with _ | ⟨a, t⟩ <;> rw [hx] at h
  · exact hg s b rest h
  · exact hF a (hf s a t hx) t b rest h

theorem ite {p : Prop} [Decidable p] (hf : p → Gives P f) (hg : ¬p → Gives P g) :
    Gives P fun s => if p then f s else g s := by
  by_cases hp : p
  · simpa only [if_pos hp] using hf hp
  · simpa only [if_neg hp] using hg hp

end Gives

/-! ### Literals, numbers and names -/

theorem gives_after? {a : α} (ha : P a) (word : List Char) : Gives P fun s => (after? word s).map (a, ·) := by
  intro s _ rest h
  obtain ⟨t, -, heq⟩ := Option.map_eq_some_iff.mp h
  cases heq
  exact ha

theorem gives_quotedBy (q : Char) : Gives (fun text => q ∉ text.toList) (quotedBy q) := fun _ _ _ h =>
  (exists_of_quotedBy h).1

theorem gives_literal : Gives Expr.Printable literal :=
  (Gives.orElse ((gives_quotedBy _).mono fun _ => Or.inl) ((gives_quotedBy _).mono fun _ => Or.inr)).map Expr.literal
    fun _ htext => htext

theorem all_of_digits {s w d : List Char} (h : digits s = (w, d)) : w.all Char.isDigit := by
  cases h
  exact List.all_takeWhile

/-- A number that is read is that of a numeral, although perhaps not of the one that stands in the text. -/
theorem gives_number : Gives Expr.Printable number := by
  intro s e rest h
  rcases digits_cases s with ⟨w, more, f, u, hd, hf⟩ | ⟨w, d, hd, hpoint⟩
  · rw [number_point hd hf] at h
    split at h <;> cases h
    next hsome =>
    by_cases hlost : w ≠ [] ∧ rest = []
    · rw [if_pos hlost]
      exact ⟨⟨w, none, ⟨all_of_digits hd, rfl⟩, Or.inl hlost.1⟩, rfl⟩
    · rw [if_neg hlost]
      exact ⟨⟨w, some f, ⟨all_of_digits hd, all_of_digits hf⟩, not_and_or.mp hsome⟩, rfl⟩
  · rw [number_whole hd hpoint] at h
    split at h <;> cases h
    next hw => exact ⟨⟨w, none, ⟨all_of_digits hd, rfl⟩, Or.inl hw⟩, rfl⟩

theorem gives_name? : Gives (fun w => isName w) name? := by
  intro s w rest h
  cases s with
  | nil => cases h
  | cons c s =>
    rw [name?] at h
    split at h
    · next hc =>
      cases h
      simp [isName, hc]
    · cases h

theorem gives_qName : Gives QName.Named qName := by
  refine Gives.congr qName_eq (gives_name?.bind fun first hfirst => ?_)
  refine Gives.orElse ?_ (Gives.pure ⟨nofun, by simpa using hfirst⟩)
  refine Gives.after fun _ => gives_name?.bind fun localPart hlocal => Gives.pure ⟨?_, by simpa using hlocal⟩
  rintro _ ⟨⟩
  simpa using hfirst

/-! ### Steps -/

theorem gives_nodeTest : Gives NodeTest.Named nodeTest := by
  refine Gives.orElse (Gives.any.map (fun _ => NodeTest.any) fun _ _ => trivial) ?_
  refine Gives.orElse ?_ (Gives.orElse ?_ (gives_qName.map NodeTest.name fun _ hq => hq))
  · exact Gives.after fun _ => Gives.after fun _ => Gives.after fun _ => Gives.pure trivial
  · refine Gives.congr anyInTest_eq (gives_name?.bind fun label hlabel => gives_after? ?_ _)
    simpa [NodeTest.Named] using hlabel

theorem gives_testOn (a : Axis) : Gives (fun head => head.2.Named) (testOn a) :=
  gives_nodeTest.map (fun test => (a, test)) fun _ htest => htest

theorem gives_stepHead : Gives (fun head => head.2.Named) (optional stepHead) := by
  refine Gives.congr optional_stepHead ?_
  refine Gives.orElse (gives_after? trivial _) (Gives.orElse (gives_after? trivial _) (Gives.orElse ?_ ?_))
  · exact Gives.after fun _ => gives_testOn .attribute
  · exact Gives.after gives_testOn

/-! ### Operands -/

section Nested

variable {inner : Reader Expr} (h : Gives Expr.Printable inner)

include h

theorem gives_predicate : Gives Expr.Printable (predicate inner) :=
  Gives.after fun _ => h.bind fun _ he => Gives.after fun _ => Gives.pure he

theorem gives_step : Gives Step.Printable (optional (step inner)) := by
  refine Gives.congr (optional_step inner) (gives_stepHead.bind fun head hhead => ?_)
  exact (gives_predicate h).many.bind fun _ hps => Gives.pure ⟨hhead, printableAll_iff.mpr hps⟩

omit h in
theorem expandSlashes_printable {s : Step} (hs : s.Printable) (double : Bool) :
    ∀ x ∈ expandSlashes double s, x.Printable := by
  have hbelow : Step.anyBelow.Printable := ⟨trivial, trivial⟩
  cases double with
  | false => simpa [expandSlashes] using hs
  | true => simpa [expandSlashes] using ⟨hbelow, hs⟩

theorem gives_furtherSteps :
    Gives (fun ss => ∀ s ∈ ss, s.Printable) fun s => some (furtherSteps inner s) := by
  have hnext : Gives (fun ss => ∀ s ∈ ss, s.Printable) (nextSteps inner) :=
    Gives.after fun double => (gives_step h).bind fun _ hs => Gives.pure (expandSlashes_printable hs double)
  refine Gives.congr (furtherSteps_eq inner) (hnext.many.bind fun steps hsteps => Gives.pure ?_)
  exact List.forall_mem_flatten.mpr hsteps

theorem gives_locationPath : Gives Expr.Printable (optional (locationPath inner)) := by
  refine Gives.congr (optional_locationPath inner) (Gives.any.elim (fun double _ => ?_) ?_)
  · refine (gives_step h).elim (fun first hfirst => ?_) ?_
    · refine (gives_furtherSteps h).bind fun more hmore => Gives.pure ?_
      exact printableSteps_iff.mpr (List.forall_mem_append.mpr ⟨expandSlashes_printable hfirst double, hmore⟩)
    · exact Gives.ite (fun _ => Gives.none) fun _ => Gives.pure trivial
  · refine (gives_step h).bind fun first hfirst => (gives_furtherSteps h).bind fun more hmore => Gives.pure ?_
    exact ⟨List.cons_ne_nil first more, hfirst, printableSteps_iff.mpr hmore⟩

theorem gives_arguments : Gives PrintableAll fun s => some (arguments inner s) := by
  have hnext : Gives Expr.Printable (nextArgument inner) := Gives.after fun _ => h
  refine Gives.congr (arguments_eq inner) (h.elim (fun first hfirst => ?_) (Gives.pure trivial))
  exact hnext.many.bind fun _ hmore => Gives.pure ⟨hfirst, printableAll_iff.mpr hmore⟩

omit h in
theorem namesKind_iff {q : QName} :
    namesKind q ↔ q.nsPrefix = none ∧ q.localPart ∈ ["text", "node", "comment", "processing-instruction"] := by
  have hnames : KindTest.all.map KindTest.name = ["processing-instruction", "comment", "text", "node"] := rfl
  have hany : KindTest.all.any (·.name == q.localPart) ↔ q.localPart ∈ KindTest.all.map KindTest.name := by simp
  rw [namesKind, Bool.and_eq_true, Option.isNone_iff_eq_none, hany, hnames]
  simp only [List.mem_cons, List.not_mem_nil, or_false]
  tauto

/-- What would be a node test by kind is read as no call. -/
theorem gives_call : Gives Expr.Printable (call inner) := by
  refine Gives.congr (call_eq inner) (gives_qName.bind fun q hq => ?_)
  refine Gives.ite (fun _ => Gives.none) fun hkind => Gives.after fun _ => ?_
  refine (gives_arguments h).bind fun as has => Gives.after fun _ => Gives.pure ?_
  exact ⟨hq, Bool.eq_false_of_not_eq_true hkind, has⟩

theorem gives_group : Gives Expr.Printable (group inner) :=
  Gives.after fun _ => h.bind fun _ he => Gives.after fun _ => Gives.pure he

theorem gives_primary : Gives Expr.Printable (primary inner) :=
  (gives_number.orElse (gives_literal.orElse ((gives_call h).orElse (gives_group h)))).padded

theorem gives_filtered : Gives Expr.Printable (filtered inner) := by
  refine Gives.congr (filtered_eq inner) ((gives_primary h).bind fun base hbase => ?_)
  refine (gives_predicate h).many.bind fun predicates hpredicates => Gives.pure ?_
  split
  · exact hbase
  · next hne => exact ⟨hbase, by simpa using hne, printableAll_iff.mpr hpredicates⟩

theorem gives_operand : Gives Expr.Printable (optional (operand inner)) := by
  refine Gives.congr (optional_operand inner) ((gives_filtered h).elim (fun base hbase => ?_) ?_)
  · refine (gives_furtherSteps h).bind fun steps hsteps => Gives.pure ?_
    split
    · exact hbase
    · next hne => exact ⟨hbase, by simpa using hne, printableSteps_iff.mpr hsteps⟩
  · exact (gives_locationPath h).padded

end Nested

/-! ### Operators -/

section Levels

variable {read : List Char → Reading Expr} (h : Gives Expr.Printable (optional read))

include h

theorem gives_chain (ops : List Operator) : Gives Expr.Printable (optional (chain ops read)) := by
  have hnext : Gives (fun next => next.2.Printable) (nextOperand ops read) :=
    Gives.after fun _ => Gives.bind h fun _ he => Gives.pure he
  refine Gives.congr (optional_chain ops read) (Gives.bind h fun first hfirst => ?_)
  refine hnext.many.bind fun more hmore => Gives.pure ?_
  exact List.foldlRecOn more _ hfirst fun left hleft next hmem => ⟨hleft, hmore next hmem⟩

theorem gives_signed : Gives Expr.Printable (optional (signed read)) := by
  refine Gives.congr (optional_signed read) (Gives.after fun signs => Gives.bind h fun e he => Gives.pure ?_)
  exact List.foldrRecOn signs _ he fun operand hoperand _ _ => hoperand

theorem gives_layered (table : List (List Operator)) : Gives Expr.Printable (optional (layered read table)) := by
  induction table with
  | nil => exact h
  | cons ops tighter ih => exact gives_chain ih ops

end Levels

theorem gives_within (n : Nat) : Gives Expr.Printable (within n) := by
  -- The reader of a text reads what is nested in it as a shorter text.
  induction n using Nat.strongRecOn with
  | ind n ih =>
    refine Gives.of_forall fun s => ?_
    by_cases hs : s.length < n
    · have hoperand := gives_operand (ih s.length hs)
      refine ⟨_, gives_layered (gives_signed (gives_chain hoperand [.union])) levels, ?_⟩
      rw [within, if_pos hs, expression_eq]
      rfl
    · exact ⟨_, Gives.none, if_neg hs⟩

theorem Expr.printable_of_parse {text : String} {e : Expr} (h : Expr.parse text = .ok e) : e.Printable := by
  unfold Expr.parse at h
  split at h <;> cases h
  next hread =>
  refine gives_within ((trim text.toList).length + 1) (trim text.toList) e [] ?_
  rw [within, if_pos (Nat.lt_succ_self _), hread]
  rfl

/-- The expressions that texts hold are the printable ones. In parentheses a number is read as it is
    printed, too. -/
theorem exists_parse_iff {e : Expr} : (∃ text, Expr.parse text = .ok e) ↔ e.Printable := by
  refine ⟨fun ⟨_, h⟩ => e.printable_of_parse h, fun he => ?_⟩
  obtain ⟨t, ht⟩ := e.exists_spelling he
  have hg : Grouped e.Spells ('(' :: t ++ [')']) := grouped_self ht
  have hskip := skipBlanks_of_begins hg.begins
  refine ⟨.ofList ('(' :: t ++ [')']), parse_of_expression ?_⟩
  rw [trim_padded (p := (· = '(' :: t ++ [')'])) (padded_self rfl) fun _ h => h ▸ ⟨hg.begins, hg.ends⟩]
  have hprimary := primary_group ((e.reads he).readsIn he _) hg hskip (Nat.le_refl _)
  exact expression_primary hprimary before_nil (hg.avoids_minus hskip)

/-! ### The parts of what is read -/

namespace Part

/-- Whether a part of an expression is well-formed, whatever its own parts are. A path has one origin: one that
    starts from nodes is not absolute and needs a step, as one from the context node does; only the document
    node is a path without any. -/
def WellFormed : Part → Prop
  | .expr (.literal text) => '\'' ∉ text.toList ∨ '"' ∉ text.toList
  | .expr (.number value) => value.Unsigned
  | .expr (.path .root _) => True
  | .expr (.path .context steps) => steps ≠ []
  | .expr (.path (.nodes _) steps) => steps ≠ []
  | .expr (.filter _ predicates) => predicates ≠ []
  | .expr (.call function _) => function.Named ∧
      (function.nsPrefix = none → function.localPart ∉ ["text", "node", "comment", "processing-instruction"])
  | .expr (.binary ..) => True
  | .expr (.negate _) => True
  | .origin _ => True
  | .step _ => True
  | .test t => t.Named

/-- Whether a part of an expression is printable with all that is in it. -/
def Printable : Part → Prop
  | .expr e => e.Printable
  | .origin (.nodes start) => start.Printable
  | .origin .context => True
  | .origin .root => True
  | .step s => s.Printable
  | .test t => t.Named

variable {x y : Part}

theorem forall_mem_map_expr {es : List Expr} : (∀ y ∈ es.map expr, y.Printable) ↔ PrintableAll es := by
  rw [List.forall_mem_map, printableAll_iff]
  rfl

theorem forall_mem_map_step {ss : List Step} : (∀ y ∈ ss.map step, y.Printable) ↔ PrintableSteps ss := by
  rw [List.forall_mem_map, printableSteps_iff]
  rfl

theorem Printable.parts (hx : x.Printable) : ∀ y ∈ x.parts, y.Printable := by
  cases x with
  | expr e =>
    cases e with
    | literal | number => exact List.forall_mem_nil _
    | path o ss =>
      cases o with
      | context => exact List.forall_mem_cons.mpr ⟨trivial, forall_mem_map_step.mpr hx.2⟩
      | root => exact List.forall_mem_cons.mpr ⟨trivial, forall_mem_map_step.mpr hx⟩
      | nodes start => exact List.forall_mem_cons.mpr ⟨hx.1, forall_mem_map_step.mpr hx.2.2⟩
    | filter base ps => exact List.forall_mem_cons.mpr ⟨hx.1, forall_mem_map_expr.mpr hx.2.2⟩
    | call function args => exact forall_mem_map_expr.mpr hx.2.2
    | binary op left right => exact List.forall_mem_cons.mpr ⟨hx.1, List.forall_mem_singleton.mpr hx.2⟩
    | negate operand => exact List.forall_mem_singleton.mpr hx
  | origin o =>
    cases o with
    | context | root => exact List.forall_mem_nil _
    | nodes start => exact List.forall_mem_singleton.mpr hx
  | step s =>
    obtain ⟨axis, t, ps⟩ := s
    exact List.forall_mem_cons.mpr ⟨hx.1, forall_mem_map_expr.mpr hx.2⟩
  | test t => exact List.forall_mem_nil _

theorem Printable.at? (hx : x.Printable) {place : List Nat} (h : x.at? place = some y) : y.Printable := by
  induction place generalizing x with
  | nil =>
    cases h
    exact hx
  | cons i place ih =>
    obtain ⟨z, hz, h⟩ := Option.bind_eq_some_iff.mp h
    exact ih (hx.parts z (List.mem_of_getElem? hz)) h

theorem Printable.wellFormed (hx : x.Printable) : x.WellFormed := by
  cases x with
  | expr e =>
    cases e with
    | literal text => exact hx
    | number value =>
      obtain ⟨m, rfl⟩ := hx
      exact Number.unsigned_ofDecimal _ _
    | path o ss =>
      cases o with
      | context => exact hx.1
      | root => trivial
      | nodes start => exact hx.2.1
    | filter base ps => exact hx.2.1
    | call function args =>
      refine ⟨hx.1, fun hbare hkind => ?_⟩
      exact Bool.false_ne_true (hx.2.1.symm.trans (namesKind_iff.mpr ⟨hbare, hkind⟩))
    | binary | negate => trivial
  | origin | step => trivial
  | test t => exact hx

end Part

/-- Everything that is read is well-formed: every part of the expression that a text holds is. -/
theorem parse_wellFormed {text : String} {e : Expr} (h : Expr.parse text = .ok e) {place : List Nat} {x : Part}
    (hx : (Part.expr e).at? place = some x) : x.WellFormed :=
  (Part.Printable.at? (x := .expr e) (e.printable_of_parse h) hx).wellFormed

/-- `(/)/child::p:b` -/
def belowRoot : Expr :=
  .path (.nodes (.path .root [])) [⟨.child, .name ⟨some "p", "b"⟩, []⟩]

theorem parse_wellFormed_belowRoot :
    Expr.parse (.ofList "(/)/child::p:b".toList) = .ok belowRoot ∧
      (Part.expr belowRoot).at? [1, 0] = some (.test (.name ⟨some "p", "b"⟩)) ∧
      (Part.test (.name ⟨some "p", "b"⟩)).WellFormed ∧ (Part.expr belowRoot).WellFormed := by
  have hnamed : QName.Named ⟨some "p", "b"⟩ := by
    refine ⟨?_, by decide⟩
    rintro _ ⟨⟩
    decide
  have hprint : belowRoot.Printable :=
    ⟨trivial, List.cons_ne_nil _ _, ⟨hnamed, trivial⟩, trivial⟩
  have hroot : Grouped (Expr.path .root []).Spells "(/)".toList := ⟨"/".toList, padded_self rfl, rfl⟩
  have hsteps : SpellsSteps true [⟨.child, .name ⟨some "p", "b"⟩, []⟩] "/child::p:b".toList :=
    ⟨[], "child::p:b".toList, [], blanks_nil, nofun, ⟨[], rfl, rfl⟩, rfl, rfl⟩
  have hparse : Expr.parse (.ofList "(/)/child::p:b".toList) = .ok belowRoot := by
    refine parse_other hprint (padded_self ⟨_, _, hroot, hsteps, rfl⟩) fun v h => ?_
    rw [belowRoot] at h
    cases h
  have htest : (Part.expr belowRoot).at? [1, 0] = some (.test (.name ⟨some "p", "b"⟩)) := rfl
  have hself : (Part.expr belowRoot).at? [] = some (.expr belowRoot) := rfl
  exact ⟨hparse, htest, parse_wellFormed hparse htest, parse_wellFormed hparse hself⟩

end XPath
end XmlMapping
