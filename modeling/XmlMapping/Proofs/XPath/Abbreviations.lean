import XmlMapping.Proofs.XPath.Rereading

/-!
# Abbreviated steps

A step may be abbreviated: without the child axis, with a sign for the attribute axis, as one or two points, and
two slashes stand for a whole step. Writing any choice of the abbreviations of a text in full does not change the
expression that the text holds.
-/

namespace XmlMapping.XPath

open Text

/-! ### Long forms -/

/-- The node test for any node. -/
def anyNode : WrittenTest :=
  .kind .node .none .none

/-- The axis and the node test of a step in full. -/
def Head.long : Head → Head
  | .full a t => .full a t
  | .child t => .full .child t
  | .ofAttribute t => .full .attribute t
  | .self => .full .self anyNode
  | .parent => .full .parent anyNode

/-- The step that two slashes have between them, in full. -/
def belowHead : Head :=
  .full .descendantOrSelf anyNode

/-- Whether the axis and the node test of a step are the given ones or their long form. -/
def Head.Lengthens (h h' : Head) : Prop :=
  h' = h ∨ h' = h.long

variable {p p' : Primary} {c c' d d' : Phrase} {as as' : MoreArguments} {ps ps' : Predicates} {ss ss' : MoreSteps}
  {h h' : Head} {e : Expr}

mutual

/-- Whether a primary expression is another one with some abbreviations in it written in full. -/
inductive Primary.Lengthens : Primary → Primary → Prop
  | same (p : Primary) : Primary.Lengthens p p
  | call {c c' : Phrase} {as as' : MoreArguments} (f : Callable) (gap before after : Gap)
      (hc : Phrase.Lengthens c c') (has : MoreArguments.Lengthens as as') :
      Primary.Lengthens (.call f gap before c after as) (.call f gap before c' after as')
  | group {c c' : Phrase} (before after : Gap) (hc : Phrase.Lengthens c c') :
      Primary.Lengthens (.group before c after) (.group before c' after)

/-- Whether a phrase is another one with some abbreviations in it written in full. What stands after an operator
    that is spelled with letters keeps apart from it. -/
inductive Phrase.Lengthens : Phrase → Phrase → Prop
  | primary {p p' : Primary} {ps ps' : Predicates} {ss ss' : MoreSteps} (hp : Primary.Lengthens p p')
      (hps : Predicates.Lengthens ps ps') (hss : MoreSteps.Lengthens ss ss') :
      Phrase.Lengthens (.primary p ps ss) (.primary p' ps' ss')
  | root : Phrase.Lengthens .root .root
  | rooted {h h' : Head} {ps ps' : Predicates} {ss ss' : MoreSteps} (double : Bool) (hh : h.Lengthens h')
      (hps : Predicates.Lengthens ps ps') (hss : MoreSteps.Lengthens ss ss') :
      Phrase.Lengthens (.rooted double h ps ss) (.rooted double h' ps' ss')
  | twoSlashes {h h' : Head} {ps ps' : Predicates} {ss ss' : MoreSteps} (hh : h.Lengthens h')
      (hps : Predicates.Lengthens ps ps') (hss : MoreSteps.Lengthens ss ss') :
      Phrase.Lengthens (.rooted true h ps ss) (.rooted false belowHead .nil (.cons .none false h' ps' ss'))
  | relative {h h' : Head} {ps ps' : Predicates} {ss ss' : MoreSteps} (hh : h.Lengthens h')
      (hps : Predicates.Lengthens ps ps') (hss : MoreSteps.Lengthens ss ss') :
      Phrase.Lengthens (.relative h ps ss) (.relative h' ps' ss')
  | negate {c c' : Phrase} (gap : Gap) (hc : Phrase.Lengthens c c') :
      Phrase.Lengthens (.negate gap c) (.negate gap c')
  | binary {c c' d d' : Phrase} (op : Operator) (before after : Gap) (hc : Phrase.Lengthens c c')
      (hd : Phrase.Lengthens d d') (hword : op.IsWord → Stops isNameChar (after.1 ++ d'.text)) :
      Phrase.Lengthens (.binary op c before after d) (.binary op c' before after d')

/-- Whether further arguments are other ones with some abbreviations in them written in full. -/
inductive MoreArguments.Lengthens : MoreArguments → MoreArguments → Prop
  | nil : MoreArguments.Lengthens .nil .nil
  | cons {c c' : Phrase} {as as' : MoreArguments} (before after : Gap) (hc : Phrase.Lengthens c c')
      (has : MoreArguments.Lengthens as as') :
      MoreArguments.Lengthens (.cons before c after as) (.cons before c' after as')

/-- Whether predicates are other ones with some abbreviations in them written in full. -/
inductive Predicates.Lengthens : Predicates → Predicates → Prop
  | nil : Predicates.Lengthens .nil .nil
  | cons {c c' : Phrase} {ps ps' : Predicates} (gap before after : Gap) (hc : Phrase.Lengthens c c')
      (hps : Predicates.Lengthens ps ps') :
      Predicates.Lengthens (.cons gap before c after ps) (.cons gap before c' after ps')

/-- Whether further steps are other ones with some abbreviations in them written in full. -/
inductive MoreSteps.Lengthens : MoreSteps → MoreSteps → Prop
  | nil : MoreSteps.Lengthens .nil .nil
  | cons {h h' : Head} {ps ps' : Predicates} {ss ss' : MoreSteps} (gap : Gap) (double : Bool) (hh : h.Lengthens h')
      (hps : Predicates.Lengthens ps ps') (hss : MoreSteps.Lengthens ss ss') :
      MoreSteps.Lengthens (.cons gap double h ps ss) (.cons gap double h' ps' ss')
  | twoSlashes {h h' : Head} {ps ps' : Predicates} {ss ss' : MoreSteps} (gap : Gap) (hh : h.Lengthens h')
      (hps : Predicates.Lengthens ps ps') (hss : MoreSteps.Lengthens ss ss') :
      MoreSteps.Lengthens (.cons gap true h ps ss) (.cons gap false belowHead .nil (.cons .none false h' ps' ss'))

end

/-! ### What long forms keep -/

theorem Head.Lengthens.meaning (hh : h.Lengthens h') : h'.meaning = h.meaning ∧ h'.ending = h.ending := by
  rcases hh with rfl | rfl
  · exact ⟨rfl, rfl⟩
  · cases h <;> exact ⟨rfl, rfl⟩

theorem Head.Lengthens.step (hh : h.Lengthens h') (predicates : List Expr) :
    h'.step predicates = h.step predicates := by
  rw [Head.step, Head.step, hh.meaning.1]

/-- Two slashes stand for the step between them. -/
theorem step_belowHead : belowHead.step [] = .anyBelow := rfl

/-- Two primary expressions that are written well and mean the same. -/
structure Primary.Same (p p' : Primary) : Prop where
  wellFormed : p.WellFormed → p'.WellFormed
  expr : ∀ last, p'.expr last = p.expr last

/-- Two phrases that are written well, mean the same and fit the same places. -/
structure Phrase.Same (c c' : Phrase) : Prop where
  wellFormed : c.WellFormed → c'.WellFormed
  expr : ∀ last, c'.expr last = c.expr last
  level : c'.level = c.level
  ending : c'.ending = c.ending

/-- Further arguments that are written well and mean the same. -/
structure MoreArguments.Same (as as' : MoreArguments) : Prop where
  wellFormed : as.WellFormed → as'.WellFormed
  exprs : as'.exprs = as.exprs

/-- Predicates that are written well, mean the same and end alike. -/
structure Predicates.Same (ps ps' : Predicates) : Prop where
  wellFormed : ps.WellFormed → ps'.WellFormed
  exprs : ps'.exprs = ps.exprs
  isNil : ps'.isNil = ps.isNil
  endingAfter : ∀ ending : Ending, ps'.endingAfter ending = ps.endingAfter ending

/-- Further steps that are written well, mean the same and end alike. -/
structure MoreSteps.Same (ss ss' : MoreSteps) : Prop where
  wellFormed : ∀ room, ss.WellFormed room → ss'.WellFormed room
  steps : ss'.steps = ss.steps
  isNil : ss'.isNil = ss.isNil
  endingAfter : ∀ ending : Ending, ss'.endingAfter ending = ss.endingAfter ending

mutual

theorem Primary.Lengthens.same_meaning {p p' : Primary} (h : p.Lengthens p') : p.Same p' := by
  match h with
  | .same p => exact ⟨id, fun _ => rfl⟩
  | .call f gap before after hc has =>
    have sc := hc.same_meaning
    have sas := has.same_meaning
    refine ⟨fun hw => ⟨sc.wellFormed hw.1, sas.wellFormed hw.2⟩, fun _ => ?_⟩
    simp only [Primary.expr, sc.expr, sas.exprs]
  | .group before after hc =>
    have sc := hc.same_meaning
    exact ⟨sc.wellFormed, fun _ => by simp only [Primary.expr, sc.expr]⟩

theorem Phrase.Lengthens.same_meaning {c c' : Phrase} (h : c.Lengthens c') : c.Same c' := by
  match h with
  | .primary hp hps hss =>
    have sp := hp.same_meaning
    have sps := hps.same_meaning
    have sss := hss.same_meaning
    refine ⟨fun hw => ⟨sp.wellFormed hw.1, sps.wellFormed hw.2.1, sss.wellFormed _ hw.2.2⟩, fun _ => ?_, rfl,
      sss.endingAfter _⟩
    simp only [Phrase.expr, sp.expr, sps.exprs, sps.isNil, sss.steps, sss.isNil]
  | .root => exact ⟨id, fun _ => rfl, rfl, rfl⟩
  | .rooted double hh hps hss =>
    have sps := hps.same_meaning
    have sss := hss.same_meaning
    refine ⟨fun hw => ⟨sps.wellFormed hw.1, sps.isNil ▸ sss.wellFormed _ hw.2⟩, fun _ => ?_, rfl, ?_⟩
    · simp only [Phrase.expr, sps.exprs, hh.step, sss.steps]
    · simp only [Phrase.ending, sss.endingAfter, sps.endingAfter, hh.meaning.2]
  | .twoSlashes hh hps hss =>
    have sps := hps.same_meaning
    have sss := hss.same_meaning
    refine ⟨fun hw => ⟨trivial, fun hne => absurd rfl hne, sps.wellFormed hw.1, sps.isNil ▸ sss.wellFormed _ hw.2⟩,
      fun _ => ?_, rfl, ?_⟩
    · simp only [Phrase.expr, MoreSteps.steps, Predicates.exprs, step_belowHead, sps.exprs, hh.step, sss.steps]
      rfl
    · simp only [Phrase.ending, MoreSteps.endingAfter, sss.endingAfter, sps.endingAfter, hh.meaning.2]
  | .relative hh hps hss =>
    have sps := hps.same_meaning
    have sss := hss.same_meaning
    refine ⟨fun hw => ⟨sps.wellFormed hw.1, sps.isNil ▸ sss.wellFormed _ hw.2⟩, fun _ => ?_, rfl, ?_⟩
    · simp only [Phrase.expr, sps.exprs, hh.step, sss.steps]
    · simp only [Phrase.ending, sss.endingAfter, sps.endingAfter, hh.meaning.2]
  | .negate gap hc =>
    have sc := hc.same_meaning
    refine ⟨fun hw => ⟨sc.level ▸ hw.1, sc.wellFormed hw.2⟩, fun _ => ?_, rfl, sc.ending⟩
    simp only [Phrase.expr, sc.expr]
  | .binary op before after hc hd hword =>
    have sc := hc.same_meaning
    have sd := hd.same_meaning
    refine ⟨fun hw => ?_, fun _ => by simp only [Phrase.expr, sc.expr, sd.expr], rfl, sd.ending⟩
    obtain ⟨hlevel, hlevel', hclear, -, hleft, hright⟩ := hw
    exact ⟨sc.level ▸ hlevel, sd.level ▸ hlevel', sc.ending ▸ hclear, hword, sc.wellFormed hleft, sd.wellFormed hright⟩

theorem MoreArguments.Lengthens.same_meaning {as as' : MoreArguments} (h : as.Lengthens as') : as.Same as' := by
  match h with
  | .nil => exact ⟨id, rfl⟩
  | .cons before after hc has =>
    have sc := hc.same_meaning
    have sas := has.same_meaning
    exact ⟨fun hw => ⟨sc.wellFormed hw.1, sas.wellFormed hw.2⟩, by simp only [MoreArguments.exprs, sc.expr, sas.exprs]⟩

theorem Predicates.Lengthens.same_meaning {ps ps' : Predicates} (h : ps.Lengthens ps') : ps.Same ps' := by
  match h with
  | .nil => exact ⟨id, rfl, rfl, fun _ => rfl⟩
  | .cons gap before after hc hps =>
    have sc := hc.same_meaning
    have sps := hps.same_meaning
    refine ⟨fun hw => ⟨sc.wellFormed hw.1, sps.wellFormed hw.2⟩, ?_, rfl, fun _ => rfl⟩
    simp only [Predicates.exprs, sc.expr, sps.exprs]

theorem MoreSteps.Lengthens.same_meaning {ss ss' : MoreSteps} (h : ss.Lengthens ss') : ss.Same ss' := by
  match h with
  | .nil => exact ⟨fun _ => id, rfl, rfl, fun _ => rfl⟩
  | .cons gap double hh hps hss =>
    have sps := hps.same_meaning
    have sss := hss.same_meaning
    refine ⟨fun room hw => ⟨hw.1, sps.wellFormed hw.2.1, sps.isNil ▸ sss.wellFormed _ hw.2.2⟩, ?_, rfl, fun _ => ?_⟩
    · simp only [MoreSteps.steps, sps.exprs, hh.step, sss.steps]
    · simp only [MoreSteps.endingAfter, sss.endingAfter, sps.endingAfter, hh.meaning.2]
  | .twoSlashes gap hh hps hss =>
    have sps := hps.same_meaning
    have sss := hss.same_meaning
    refine ⟨fun room hw => ⟨hw.1, trivial, fun hne => absurd rfl hne, sps.wellFormed hw.2.1,
      sps.isNil ▸ sss.wellFormed _ hw.2.2⟩, ?_, rfl, fun _ => ?_⟩
    · simp only [MoreSteps.steps, Predicates.exprs, step_belowHead, sps.exprs, hh.step, sss.steps]
      rfl
    · simp only [MoreSteps.endingAfter, sss.endingAfter, sps.endingAfter, hh.meaning.2]

end

/-- A text that holds an expression is the text of a phrase, and when any choice of the abbreviations in it is
    written in full, the text that this gives holds the same expression. What would run together with an operator
    that is spelled with letters is not written in full. -/
theorem parse_lengthened {text : String} (h : Expr.parse text = .ok e) :
    (∃ c : Phrase, c.WellFormed ∧ c.text = trim text.toList) ∧
      ∀ c c' : Phrase, c.WellFormed → c.text = trim text.toList → c.Lengthens c' →
        ∀ text' : String, trim text'.toList = c'.text → Expr.parse text' = .ok e := by
  obtain ⟨c, hc, htext, -⟩ := parse_eq_ok_iff.mp h
  refine ⟨⟨c, hc, htext⟩, fun c c' hc htext hlong text' htext' => ?_⟩
  have hsame := hlong.same_meaning
  have hread : Expr.parse text = .ok (c.expr true) := parse_eq_ok_iff.mpr ⟨c, hc, htext, rfl⟩
  rw [h] at hread
  obtain rfl := Except.ok.inj hread
  exact parse_eq_ok_iff.mpr ⟨c', hsame.wellFormed hc, htext'.symm, hsame.expr true⟩

/-- A name without a prefix as a node test. -/
def nameTest (label : String) (h : isName label.toList) : WrittenTest :=
  .name ⟨⟨none, label⟩, nofun, h⟩

/-- `a` and `b` -/
def testA : WrittenTest := nameTest "a" (by decide)
def testB : WrittenTest := nameTest "b" (by decide)

/-- `//a[@b]/..` -/
def aboveA : Phrase :=
  .rooted true (.child testA) (.cons .none .none (.relative (.ofAttribute testB) .nil .nil) .none .nil)
    (.cons .none false .parent .nil .nil)

/-- `/descendant-or-self::node()/child::a[attribute::b]/parent::node()` -/
def aboveAInFull : Phrase :=
  .rooted false belowHead .nil
    (.cons .none false (.full .child testA)
      (.cons .none .none (.relative (.full .attribute testB) .nil .nil) .none .nil)
      (.cons .none false (.full .parent anyNode) .nil .nil))

theorem aboveA_lengthens : aboveA.Lengthens aboveAInFull :=
  .twoSlashes (Or.inr rfl) (.cons _ _ _ (.relative (Or.inr rfl) .nil .nil) .nil) (.cons _ _ (Or.inr rfl) .nil .nil)

theorem parse_lengthened_aboveA :
    Expr.parse "//a[@b]/.." = .ok (aboveA.expr true) ∧
      Expr.parse "/descendant-or-self::node()/child::a[attribute::b]/parent::node()" = .ok (aboveA.expr true) := by
  have hc : aboveA.WellFormed := by
    simp [aboveA, Phrase.WellFormed, Predicates.WellFormed, MoreSteps.WellFormed, Gap.none]
  have htext : aboveA.text = trim "//a[@b]/..".toList := by decide
  have hread : Expr.parse "//a[@b]/.." = .ok (aboveA.expr true) := parse_eq_ok_iff.mpr ⟨aboveA, hc, htext, rfl⟩
  exact ⟨hread, (parse_lengthened hread).2 aboveA aboveAInFull hc htext aboveA_lengthens _ (by decide)⟩

/-! ### Operators that are spelled with letters -/

/-- A predicate that is not closed is none. -/
theorem predicate_unclosed {inner : Reader Expr} {e : Expr} {s u r : List Char} (hs : skipBlanks s = '[' :: u)
    (hread : inner (skipBlanks u) = some (e, r)) (hclose : Avoids ']' r) : predicate inner s = none := by
  simp [predicate, padded_symbol hs, hread, padded_symbol_none hclose]

/-- A step is read without a predicate that is not closed. -/
theorem expression_unclosed (h : Head) {u : List Char}
    (hnone : predicate (within (h.text ++ '[' :: u).length) ('[' :: u) = none) :
    expression (h.text ++ '[' :: u) = .ok (.path .context [h.step []], '[' :: u) := by
  have hbracket : Before stepClosers ('[' :: u) := before_cons (by decide) (by decide)
  have hnext : Before stepFollowers ('[' :: u) := hbracket.mono (by decide)
  have hclear : h.ending.Clear ('[' :: u) := Ending.clear_of_before hbracket
  generalize hinner : within (h.text ++ '[' :: u).length = inner at hnone
  have hstep : step inner (h.text ++ '[' :: u) = .ok (h.step [], '[' :: u) := by
    rw [step, stepHead_written h hnext hclear]
    simp only [Except.map, many_none hnone, Head.step]
  obtain ⟨x, v, htext, hx, hslash⟩ := h.opens
  have hskip : skipBlanks (h.text ++ '[' :: u) = h.text ++ '[' :: u :=
    Begins.skipBlanks_append ⟨x, v, htext, isWhiteSpace_of_opensOperand hx⟩
  have hfurther : furtherSteps inner ('[' :: u) = ([], '[' :: u) := furtherSteps_none (slashes_none (by simp))
  have hfirst : slashes (h.text ++ '[' :: u) = none := slashes_none (by simp [htext, hslash])
  have hpath : locationPath inner (skipBlanks (h.text ++ '[' :: u)) = .ok (.path .context [h.step []], '[' :: u) := by
    rw [hskip, locationPath, hfirst]
    simp only [hstep, hfurther, Except.map]
  have hoperand := operand_location (primary_head h hskip hnext hclear) hpath
  rw [skipBlanks_cons (by decide)] at hoperand
  have hminus : Avoids '-' (h.text ++ '[' :: u) := by
    rw [htext] at hskip ⊢
    exact avoids_of_skipBlanks hskip (ne_of_opensOperand hx (by decide))
  rw [expression_eq, hinner]
  exact layered_ok (signed_ok (chain_ok hoperand (halts_stepClosers _ hbracket)) hminus) fun ops _ =>
    halts_stepClosers ops hbracket

/-- `1` -/
def onePhrase : Phrase :=
  .primary (.number ⟨['1'], none, by decide, by decide⟩) .nil .nil

/-- `a[1 or@b]`, given how the step for `@b` begins -/
def oneOr (h : Head) : Phrase :=
  .relative (.child testA) (.cons .none .none (.binary .or onePhrase .blank .none (.relative h .nil .nil)) .none .nil) .nil

theorem oneOr_wellFormed : (oneOr (.ofAttribute testB)).WellFormed := by
  have hone : onePhrase.WellFormed := ⟨trivial, trivial, trivial⟩
  have hor : (Phrase.binary .or onePhrase .blank .none (.relative (.ofAttribute testB) .nil .nil)).WellFormed :=
    ⟨by decide, by decide, trivial, fun _ => stops_cons.mpr (by decide), hone, trivial, trivial⟩
  exact ⟨⟨hor, trivial⟩, trivial⟩

/-- A predicate is not closed where a name stands that is longer than an operator. -/
theorem predicate_orattribute {n : Nat} (hn : "1 orattribute::b]".toList.length < n) :
    predicate (within n) ('[' :: "1 orattribute::b]".toList) = none := by
  have hhalts : HaltsFrom 0 " orattribute::b]".toList := fun op _ => by
    have hall : ∀ op ∈ allLevels.flatten, operator op "orattribute::b]".toList = none := by decide
    obtain ⟨ops, hops, hop⟩ := exists_level op
    exact hall op (List.mem_flatten_of_mem hops hop)
  obtain ⟨r, hread, hremains⟩ := expression_before (c := onePhrase) (s := "1 orattribute::b]".toList)
    (r := " orattribute::b]".toList) ⟨trivial, trivial, trivial⟩ (by decide)
    (before_gap .blank (by decide) (by decide)) trivial hhalts
  have hinner : within n "1 orattribute::b]".toList = some (onePhrase.expr false, r) := by
    rw [within, if_pos hn, hread]
    rfl
  exact predicate_unclosed (skipBlanks_cons (by decide)) hinner
    (avoids_of_skipBlanks hremains.skipBlanks_eq (by decide))

/-- An abbreviation that stands directly after an operator spelled with letters cannot be written in full in its
    place: the operator would run on into the name of the axis. -/
theorem parse_oneOr :
    (oneOr (.ofAttribute testB)).text = "a[1 or@b]".toList ∧
      (oneOr (Head.ofAttribute testB).long).text = "a[1 orattribute::b]".toList ∧
      Expr.parse "a[1 or@b]" = .ok ((oneOr (.ofAttribute testB)).expr true) ∧
      ∀ e, Expr.parse "a[1 orattribute::b]" ≠ .ok e := by
  have htext : (oneOr (.ofAttribute testB)).text = "a[1 or@b]".toList := by decide
  refine ⟨htext, by decide, ?_, fun e he => ?_⟩
  · exact parse_eq_ok_iff.mpr ⟨_, oneOr_wellFormed, htext.trans (by decide), rfl⟩
  · have hread := expression_unclosed (.child testA) (predicate_orattribute (by decide))
    have htrim : trim "a[1 orattribute::b]".toList = (Head.child testA).text ++ '[' :: "1 orattribute::b]".toList := by
      decide
    rw [Expr.parse, htrim, hread] at he
    cases he

end XmlMapping.XPath
