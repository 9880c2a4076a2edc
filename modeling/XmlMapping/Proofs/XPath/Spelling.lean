import XmlMapping.Proofs.Text.Scanning
import XmlMapping.XPath.Parser

/-!
# Printed expressions

The texts that an expression is printed as. Every axis is written out, every operand of an operator, of a
filter or of a path stands in parentheses, and blanks may stand next to operators, commas, brackets and the
parentheses of groups and calls. An expression is printable when its names are names, each of its literals
leaves out one kind of quotes and its numbers are those of numerals.
-/

namespace XmlMapping.XPath

open Text

/-! ### Numerals and names -/

/-- An unsigned decimal text: digits, or digits with a point among, before or after them. -/
structure Numeral where
  whole : List Char
  fraction : Option (List Char)
  digits : whole.all Char.isDigit ∧ (fraction.getD []).all Char.isDigit
  nonempty : whole ≠ [] ∨ fraction.getD [] ≠ []

/-- The text of a numeral. -/
def Numeral.text (m : Numeral) : List Char :=
  m.whole ++ match m.fraction with
    | some f => '.' :: f
    | none => []

/-- The number that a numeral denotes. -/
def Numeral.value (m : Numeral) : Number :=
  .ofNumeral false m.whole (m.fraction.getD [])

/-- The number of a numeral without the digits after its point, when there are digits before the point. -/
def Numeral.wholeValue (m : Numeral) : Number :=
  if m.whole.isEmpty then m.value else .ofNumeral false m.whole []

/-- Whether the parts of a name are names without a colon. -/
def QName.Named (q : QName) : Prop :=
  (∀ p ∈ q.nsPrefix, isName p.toList) ∧ isName q.localPart.toList

/-- Whether the names in a node test are names without a colon. -/
def NodeTest.Named : NodeTest → Prop
  | .name q => q.Named
  | .anyIn p => isName p.toList
  | .any => True
  | .kind _ => True

/-- The text of a node test. -/
def NodeTest.text : NodeTest → List Char
  | .name q => q.text.toList
  | .anyIn p => p.toList ++ [':', '*']
  | .any => ['*']
  | .kind k => k.name.toList ++ ['(', ')']

/-! ### Printable expressions -/

mutual

/-- Whether an expression can be printed so that it reads back. -/
def Expr.Printable : Expr → Prop
  | .literal text => '\'' ∉ text.toList ∨ '"' ∉ text.toList
  | .number value => ∃ m : Numeral, m.value = value
  | .path .context steps => steps ≠ [] ∧ PrintableSteps steps
  | .path .root steps => PrintableSteps steps
  | .path (.nodes start) steps => start.Printable ∧ steps ≠ [] ∧ PrintableSteps steps
  | .filter base predicates => base.Printable ∧ predicates ≠ [] ∧ PrintableAll predicates
  | .call function args => function.Named ∧ namesKind function = false ∧ PrintableAll args
  | .binary _ left right => left.Printable ∧ right.Printable
  | .negate operand => operand.Printable

/-- Whether several expressions are printable. -/
def PrintableAll : List Expr → Prop
  | [] => True
  | e :: es => e.Printable ∧ PrintableAll es

/-- Whether the steps of a path are printable. -/
def PrintableSteps : List Step → Prop
  | [] => True
  | s :: ss => s.Printable ∧ PrintableSteps ss

/-- Whether a step is printable. -/
def Step.Printable : Step → Prop
  | ⟨_, test, predicates⟩ => test.Named ∧ PrintableAll predicates

end

theorem printableAll_iff {es : List Expr} : PrintableAll es ↔ ∀ e ∈ es, e.Printable := by
  induction es with
  | nil => simp [PrintableAll]
  | cons e es ih => rw [PrintableAll, ih, List.forall_mem_cons]

theorem printableSteps_iff {ss : List Step} : PrintableSteps ss ↔ ∀ s ∈ ss, s.Printable := by
  induction ss with
  | nil => simp [PrintableSteps]
  | cons s ss ih => rw [PrintableSteps, ih, List.forall_mem_cons]

/-! ### Printed texts -/

/-- A text of the given kind with blanks around it. -/
def Padded (p : List Char → Prop) (s : List Char) : Prop :=
  ∃ b t b', Blanks b ∧ p t ∧ Blanks b' ∧ s = b ++ t ++ b'

/-- A text of the given kind in parentheses, with blanks inside them. -/
def Grouped (p : List Char → Prop) (s : List Char) : Prop :=
  ∃ g, Padded p g ∧ s = '(' :: g ++ [')']

/-- Whether a step has predicates. -/
def Step.hasPredicates : Step → Bool
  | ⟨_, _, predicates⟩ => !predicates.isEmpty

mutual

/-- Whether an expression is printed as a text, which has no blanks around it. -/
def Expr.Spells : Expr → List Char → Prop
  | .literal text, t => ∃ q, (q = '\'' ∨ q = '"') ∧ q ∉ text.toList ∧ t = q :: text.toList ++ [q]
  | .number value, t => ∃ m : Numeral, m.value = value ∧ t = m.text
  | .path .context steps, t => SpellsSteps false steps ('/' :: t)
  | .path .root steps, t => if steps = [] then t = ['/'] else SpellsSteps false steps t
  | .path (.nodes start) steps, t => ∃ g u, Grouped start.Spells g ∧ SpellsSteps true steps u ∧ t = g ++ u
  | .filter base predicates, t => ∃ g u, Grouped base.Spells g ∧ SpellsPredicates predicates u ∧ t = g ++ u
  | .call function args, t => ∃ b u, Blanks b ∧ t = function.text.toList ++ b ++ '(' :: u ++ [')'] ∧
      (args = [] ∧ Blanks u ∨ SpellsArgs args (',' :: u))
  | .binary op left right, t => ∃ g b b' g', Grouped left.Spells g ∧ Blanks b ∧ Blanks b' ∧
      Grouped right.Spells g' ∧ t = g ++ b ++ op.symbol.toList ++ b' ++ g'
  | .negate operand, t => ∃ b g, Blanks b ∧ Grouped operand.Spells g ∧ t = '-' :: b ++ g

/-- Whether arguments are printed as a text, each with a comma before it. -/
def SpellsArgs : List Expr → List Char → Prop
  | [], t => t = []
  | e :: es, t => ∃ g u, Padded e.Spells g ∧ SpellsArgs es u ∧ t = ',' :: g ++ u

/-- Whether predicates are printed as a text, each with blanks before it. -/
def SpellsPredicates : List Expr → List Char → Prop
  | [], t => t = []
  | p :: ps, t => ∃ b g u, Blanks b ∧ Padded p.Spells g ∧ SpellsPredicates ps u ∧ t = b ++ '[' :: g ++ ']' :: u

/-- Whether steps are printed as a text, each with a slash before it. Blanks may stand before the slash
    when a bracket or a parenthesis comes before them, which is given for the first step. -/
def SpellsSteps : Bool → List Step → List Char → Prop
  | _, [], t => t = []
  | gap, s :: ss, t => ∃ b u v, Blanks b ∧ (b ≠ [] → gap) ∧ s.Spells u ∧ SpellsSteps s.hasPredicates ss v ∧
      t = b ++ '/' :: u ++ v

/-- Whether a step is printed as a text. -/
def Step.Spells : Step → List Char → Prop
  | ⟨axis, test, predicates⟩, t => ∃ u, SpellsPredicates predicates u ∧
      t = axis.name.toList ++ ':' :: ':' :: test.text ++ u

end

/-! ### The ends of a printed text -/

variable {t u : List Char}

theorem isName_kind (k : KindTest) : isName k.name.toList := by
  cases k <;> decide

theorem isName_axis (a : Axis) : isName a.name.toList := by
  cases a <;> decide

theorem QName.toList_text (q : QName) :
    q.text.toList = match q.nsPrefix with
      | some p => p.toList ++ ':' :: q.localPart.toList
      | none => q.localPart.toList := by
  rcases q with ⟨_ | p, l⟩
  · rfl
  · simp [QName.text, String.toList_append]

theorem QName.Named.exists_head {q : QName} (hq : q.Named) : ∃ c v, q.text.toList = c :: v ∧ isNameStart c := by
  rcases q with ⟨_ | p, l⟩
  · obtain ⟨c, v, hl, hc, -⟩ := isName_eq_cons hq.2
    exact ⟨c, v, hl, hc⟩
  · obtain ⟨c, v, hp, hc, -⟩ := isName_eq_cons (hq.1 p rfl)
    refine ⟨c, v ++ ':' :: l.toList, ?_, hc⟩
    rw [QName.toList_text]
    simp [hp]

/-- Whether a text begins with a character that is no white space. -/
def Begins (t : List Char) : Prop :=
  ∃ c v, t = c :: v ∧ isWhiteSpace c = false

/-- Whether a text ends with a character that is no white space. -/
def Ends (t : List Char) : Prop :=
  ∃ v c, t = v ++ [c] ∧ isWhiteSpace c = false

theorem Begins.append (h : Begins t) : Begins (t ++ u) := by
  obtain ⟨c, v, rfl, hc⟩ := h
  exact ⟨c, v ++ u, rfl, hc⟩

theorem Ends.append (h : Ends t) : Ends (u ++ t) := by
  obtain ⟨v, c, rfl, hc⟩ := h
  exact ⟨u ++ v, c, (List.append_assoc ..).symm, hc⟩

theorem Ends.cons {c : Char} (h : Ends t) : Ends (c :: t) :=
  h.append (u := [c])

theorem Ends.append_or (h : Ends t) (hu : u = [] ∨ Ends u) : Ends (t ++ u) := by
  rcases hu with rfl | hu
  · rwa [List.append_nil]
  · exact hu.append

theorem ends_of_isNameChar (hne : t ≠ []) (ht : ∀ c ∈ t, isNameChar c) : Ends t := by
  refine ⟨t.dropLast, t.getLast hne, (List.dropLast_concat_getLast hne).symm, ?_⟩
  exact isWhiteSpace_of_isNameChar (ht _ (List.getLast_mem hne))

theorem ends_of_isName (h : isName t) : Ends t := by
  obtain ⟨c, v, rfl, -, hchars⟩ := isName_eq_cons h
  exact ends_of_isNameChar (List.cons_ne_nil c v) hchars

theorem begins_of_isName (h : isName t) : Begins t := by
  obtain ⟨c, v, rfl, hc, -⟩ := isName_eq_cons h
  exact ⟨c, v, rfl, isWhiteSpace_of_isNameChar (isNameChar_of_isNameStart hc)⟩

theorem ends_singleton {c : Char} (hc : isWhiteSpace c = false) : Ends [c] :=
  ⟨[], c, rfl, hc⟩

theorem Grouped.begins {p : List Char → Prop} (h : Grouped p t) : Begins t := by
  obtain ⟨g, -, rfl⟩ := h
  exact ⟨'(', g ++ [')'], rfl, by decide⟩

theorem Grouped.ends {p : List Char → Prop} (h : Grouped p t) : Ends t := by
  obtain ⟨g, -, rfl⟩ := h
  exact ⟨'(' :: g, ')', rfl, by decide⟩

theorem Numeral.exists_head (m : Numeral) : ∃ c v, m.text = c :: v ∧ (c.isDigit ∨ c = '.') := by
  obtain ⟨whole, fraction, ⟨hwhole, -⟩, hne⟩ := m
  cases whole with
  | cons c whole => exact ⟨c, _, rfl, Or.inl (List.all_eq_true.mp hwhole c List.mem_cons_self)⟩
  | nil =>
    cases fraction with
    | none => simp at hne
    | some f => exact ⟨'.', f, rfl, Or.inr rfl⟩

theorem Numeral.begins (m : Numeral) : Begins m.text := by
  obtain ⟨c, v, hm, hc | rfl⟩ := m.exists_head
  · exact ⟨c, v, hm, isWhiteSpace_of_isNameChar (isNameChar_of_isDigit hc)⟩
  · exact ⟨'.', v, hm, by decide⟩

theorem Numeral.ends (m : Numeral) : Ends m.text := by
  obtain ⟨whole, fraction, ⟨hwhole, hfraction⟩, hne⟩ := m
  have digits {w : List Char} (hw : w.all Char.isDigit) : ∀ c ∈ w, isNameChar c := fun c hc =>
    isNameChar_of_isDigit (List.all_eq_true.mp hw c hc)
  cases fraction with
  | none =>
    have hwhole' : whole ≠ [] := by simpa using hne
    simpa [Numeral.text] using ends_of_isNameChar hwhole' (digits hwhole)
  | some f =>
    have hpoint : ∀ c ∈ '.' :: f, isNameChar c := by
      rintro c (_ | ⟨_, hc⟩)
      · decide
      · exact digits hfraction c hc
    exact (ends_of_isNameChar (List.cons_ne_nil '.' f) hpoint).append

theorem QName.Named.ends {q : QName} (h : q.Named) : Ends q.text.toList := by
  rw [QName.toList_text]
  rcases q with ⟨_ | p, l⟩
  · exact ends_of_isName h.2
  · exact (ends_of_isName h.2).cons.append

theorem QName.Named.begins {q : QName} (h : q.Named) : Begins q.text.toList := by
  obtain ⟨c, v, hq, hc⟩ := h.exists_head
  exact ⟨c, v, hq, isWhiteSpace_of_isNameChar (isNameChar_of_isNameStart hc)⟩

theorem NodeTest.Named.ends {test : NodeTest} (h : test.Named) : Ends test.text := by
  cases test with
  | name q => exact QName.Named.ends h
  | anyIn p => exact ⟨p.toList ++ [':'], '*', by simp [NodeTest.text], by decide⟩
  | any => exact ends_singleton (by decide)
  | kind k => exact ⟨k.name.toList ++ ['('], ')', by simp [NodeTest.text], by decide⟩

theorem SpellsPredicates.ends {ps : List Expr} (h : SpellsPredicates ps t) : t = [] ∨ Ends t := by
  induction ps generalizing t with
  | nil => exact Or.inl h
  | cons p ps ih =>
    obtain ⟨b, g, u, -, -, hu, rfl⟩ := h
    have hbracket : Ends (']' :: u) := (ends_singleton (by decide)).append_or (ih hu)
    exact Or.inr hbracket.append

theorem Step.Spells.ends {s : Step} (hs : s.Printable) (h : s.Spells t) : Ends t := by
  obtain ⟨axis, test, predicates⟩ := s
  obtain ⟨u, hu, rfl⟩ := h
  have htest : Ends (test.text ++ u) := (NodeTest.Named.ends hs.1).append_or hu.ends
  rw [List.append_assoc]
  exact htest.cons.cons.append

theorem Step.Spells.begins {s : Step} (h : s.Spells t) : Begins t := by
  obtain ⟨axis, test, predicates⟩ := s
  obtain ⟨u, -, rfl⟩ := h
  rw [List.append_assoc]
  exact (begins_of_isName (isName_axis axis)).append

theorem SpellsSteps.ends {gap : Bool} {ss : List Step} (hss : PrintableSteps ss) (h : SpellsSteps gap ss t) :
    t = [] ∨ Ends t := by
  induction ss generalizing t gap with
  | nil => exact Or.inl h
  | cons s ss ih =>
    obtain ⟨b, u, v, -, -, hu, hv, rfl⟩ := h
    have hrest : Ends (u ++ v) := (hu.ends hss.1).append_or (ih hss.2 hv)
    refine Or.inr ?_
    rw [List.append_assoc]
    exact hrest.cons.append

/-- No blanks stand before the first slash of steps unless the text before them gives room for it. -/
theorem SpellsSteps.eq_cons {s : Step} {ss : List Step} (h : SpellsSteps false (s :: ss) t) :
    ∃ u v, s.Spells u ∧ SpellsSteps s.hasPredicates ss v ∧ t = '/' :: (u ++ v) := by
  obtain ⟨b, u, v, -, hgap, hu, hv, rfl⟩ := h
  cases b with
  | nil => exact ⟨u, v, hu, hv, rfl⟩
  | cons c b => exact absurd (hgap (List.cons_ne_nil c b)) Bool.false_ne_true

/-- A path from the context node begins with the name of an axis. -/
theorem SpellsSteps.exists_axis {s : List Char} {ss : List Step} (h : SpellsSteps false ss ('/' :: t))
    (hne : ss ≠ []) (hs : s = t ++ u) : ∃ (a : Axis) (v : List Char), s = a.name.toList ++ ':' :: ':' :: v := by
  cases ss with
  | nil => exact absurd rfl hne
  | cons x ss =>
    obtain ⟨w, v, hw, -, ht⟩ := h.eq_cons
    obtain rfl : t = w ++ v := (List.cons.inj ht).2
    obtain ⟨axis, test, predicates⟩ := x
    obtain ⟨p, -, rfl⟩ := hw
    exact ⟨axis, test.text ++ p ++ v ++ u, by simp [hs]⟩

theorem Expr.Spells.exists_slash {ss : List Step} (h : (Expr.path .root ss).Spells t) : ∃ v, t = '/' :: v := by
  cases ss with
  | nil => exact ⟨[], h⟩
  | cons x ss =>
    obtain ⟨u, v, -, -, ht⟩ := SpellsSteps.eq_cons (t := t) (by simpa [Expr.Spells] using h)
    exact ⟨u ++ v, ht⟩

theorem Expr.Spells.ends {e : Expr} (he : e.Printable) (h : e.Spells t) : Begins t ∧ Ends t := by
  cases e with
  | literal text =>
    obtain ⟨q, hq, -, rfl⟩ := h
    have hwhite : isWhiteSpace q = false := by rcases hq with rfl | rfl <;> decide
    exact ⟨⟨q, text.toList ++ [q], rfl, hwhite⟩, ⟨q :: text.toList, q, rfl, hwhite⟩⟩
  | number value =>
    obtain ⟨m, -, rfl⟩ := h
    exact ⟨m.begins, m.ends⟩
  | path origin steps =>
    cases origin with
    | context =>
      cases steps with
      | nil => exact absurd rfl he.1
      | cons s ss =>
        obtain ⟨u, v, hu, hv, ht⟩ := SpellsSteps.eq_cons h
        obtain ⟨-, rfl⟩ := List.cons.inj ht
        exact ⟨hu.begins.append, (hu.ends he.2.1).append_or (SpellsSteps.ends he.2.2 hv)⟩
    | root =>
      cases steps with
      | nil =>
        obtain rfl : t = ['/'] := h
        exact ⟨⟨'/', [], rfl, by decide⟩, ends_singleton (by decide)⟩
      | cons s ss =>
        obtain ⟨u, v, hu, hv, rfl⟩ := SpellsSteps.eq_cons (t := t) (by simpa [Expr.Spells] using h)
        have hrest : Ends (u ++ v) := (hu.ends he.1).append_or (SpellsSteps.ends he.2 hv)
        exact ⟨⟨'/', u ++ v, rfl, by decide⟩, hrest.cons⟩
    | nodes start =>
      obtain ⟨g, u, hg, hu, rfl⟩ := h
      exact ⟨hg.begins.append, hg.ends.append_or (SpellsSteps.ends he.2.2 hu)⟩
  | filter base predicates =>
    obtain ⟨g, u, hg, hu, rfl⟩ := h
    exact ⟨hg.begins.append, hg.ends.append_or hu.ends⟩
  | call function args =>
    obtain ⟨b, u, -, rfl, -⟩ := h
    exact ⟨he.1.begins.append.append.append, (ends_singleton (by decide)).append⟩
  | binary op left right =>
    obtain ⟨g, b, b', g', hg, -, -, hg', rfl⟩ := h
    exact ⟨hg.begins.append.append.append.append, hg'.ends.append⟩
  | negate operand =>
    obtain ⟨b, g, -, hg, rfl⟩ := h
    exact ⟨⟨'-', b ++ g, rfl, by decide⟩, hg.ends.append⟩

theorem trim_padded {p : List Char → Prop} {g : List Char} (hg : Padded p g)
    (hp : ∀ t, p t → Begins t ∧ Ends t) : p (trim g) := by
  obtain ⟨b, t, b', hb, ht, hb', rfl⟩ := hg
  obtain ⟨⟨c, v, hc, hwhite⟩, ⟨w, d, hd, hwhite'⟩⟩ := hp t ht
  have hne : t ≠ [] := by
    rw [hc]
    exact List.cons_ne_nil c v
  have hfirst : Stops isWhiteSpace t := by
    rw [hc, stops_cons]
    exact hwhite
  have hlast : Stops isWhiteSpace t.reverse := by
    rw [hd, List.reverse_append]
    exact stops_cons.mpr hwhite'
  rwa [trim_append hb hb' hne hfirst hlast]

/-! ### Every printable expression is printed -/

theorem padded_self {p : List Char → Prop} (h : p t) : Padded p t :=
  ⟨[], t, [], blanks_nil, h, blanks_nil, by simp⟩

theorem grouped_self {p : List Char → Prop} (h : p t) : Grouped p ('(' :: t ++ [')']) :=
  ⟨t, padded_self h, rfl⟩

theorem exists_quote {text : List Char} (h : '\'' ∉ text ∨ '"' ∉ text) : ∃ q, (q = '\'' ∨ q = '"') ∧ q ∉ text := by
  rcases h with h | h
  · exact ⟨'\'', Or.inl rfl, h⟩
  · exact ⟨'"', Or.inr rfl, h⟩

mutual

theorem Expr.exists_spelling : ∀ e : Expr, e.Printable → ∃ t, e.Spells t
  | .literal text, h => by
    obtain ⟨q, hq, hnot⟩ := exists_quote h
    exact ⟨_, q, hq, hnot, rfl⟩
  | .number value, h => by
    obtain ⟨m, hm⟩ := h
    exact ⟨m.text, m, hm, rfl⟩
  | .path .context steps, h => by
    obtain ⟨t, ht⟩ := steps_exists_spelling steps h.2 false
    cases steps with
    | nil => exact absurd rfl h.1
    | cons s ss =>
      obtain ⟨u, v, -, -, rfl⟩ := SpellsSteps.eq_cons ht
      exact ⟨u ++ v, ht⟩
  | .path .root steps, h => by
    obtain ⟨t, ht⟩ := steps_exists_spelling steps h false
    cases steps with
    | nil => exact ⟨['/'], rfl⟩
    | cons s ss => exact ⟨t, by simpa [Expr.Spells] using ht⟩
  | .path (.nodes start) steps, h => by
    obtain ⟨g, hg⟩ := start.exists_spelling h.1
    obtain ⟨u, hu⟩ := steps_exists_spelling steps h.2.2 true
    exact ⟨_, _, u, grouped_self hg, hu, rfl⟩
  | .filter base predicates, h => by
    obtain ⟨g, hg⟩ := base.exists_spelling h.1
    obtain ⟨u, hu⟩ := predicates_exists_spelling predicates h.2.2
    exact ⟨_, _, u, grouped_self hg, hu, rfl⟩
  | .call function args, h => by
    obtain ⟨t, ht⟩ := args_exists_spelling args h.2.2
    cases args with
    | nil => exact ⟨_, [], [], blanks_nil, rfl, Or.inl ⟨rfl, blanks_nil⟩⟩
    | cons a as =>
      obtain ⟨g, u, hg, hu, rfl⟩ := ht
      exact ⟨_, [], g ++ u, blanks_nil, rfl, Or.inr ⟨g, u, hg, hu, rfl⟩⟩
  | .binary op left right, h => by
    obtain ⟨g, hg⟩ := left.exists_spelling h.1
    obtain ⟨g', hg'⟩ := right.exists_spelling h.2
    exact ⟨_, _, [], [], _, grouped_self hg, blanks_nil, blanks_nil, grouped_self hg', rfl⟩
  | .negate operand, h => by
    obtain ⟨g, hg⟩ := operand.exists_spelling h
    exact ⟨_, [], _, blanks_nil, grouped_self hg, rfl⟩

theorem args_exists_spelling : ∀ es : List Expr, PrintableAll es → ∃ t, SpellsArgs es t
  | [], _ => ⟨[], rfl⟩
  | e :: es, h => by
    obtain ⟨g, hg⟩ := e.exists_spelling h.1
    obtain ⟨u, hu⟩ := args_exists_spelling es h.2
    exact ⟨_, g, u, padded_self hg, hu, rfl⟩

theorem predicates_exists_spelling : ∀ ps : List Expr, PrintableAll ps → ∃ t, SpellsPredicates ps t
  | [], _ => ⟨[], rfl⟩
  | p :: ps, h => by
    obtain ⟨g, hg⟩ := p.exists_spelling h.1
    obtain ⟨u, hu⟩ := predicates_exists_spelling ps h.2
    exact ⟨_, [], g, u, blanks_nil, padded_self hg, hu, rfl⟩

theorem steps_exists_spelling : ∀ ss : List Step, PrintableSteps ss → ∀ gap, ∃ t, SpellsSteps gap ss t
  | [], _, _ => ⟨[], rfl⟩
  | s :: ss, h, _ => by
    obtain ⟨u, hu⟩ := s.exists_spelling h.1
    obtain ⟨v, hv⟩ := steps_exists_spelling ss h.2 s.hasPredicates
    exact ⟨_, [], u, v, blanks_nil, fun h => absurd rfl h, hu, hv, rfl⟩

theorem Step.exists_spelling : ∀ s : Step, s.Printable → ∃ t, s.Spells t
  | ⟨_, _, predicates⟩, h => by
    obtain ⟨u, hu⟩ := predicates_exists_spelling predicates h.2
    exact ⟨_, u, hu, rfl⟩

end

end XmlMapping.XPath
