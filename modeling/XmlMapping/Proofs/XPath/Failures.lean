import XmlMapping.Proofs.XPath.Rereading
import XmlMapping.XPath.Error

/-!
# Where parsing fails

What a text that is no expression is reported with. Either an expression has been read from its front, and the
rest is reported: then the text before the rest is an expression on its own. Or nothing has been read: then the
place is reported where a name is missing.
-/

namespace XmlMapping.XPath

open Text

variable {inner : Reader Expr} {n : Nat} {r s t u : List Char} {c : Phrase} {read : List Char → Reading Expr}

/-! ### Where a name is missing -/

/-- The text after two slashes that a text begins with, or else the whole text. -/
def afterSlashes : List Char → List Char
  | '/' :: '/' :: rest => rest
  | s => s

/-- The text after the name of an axis with its colons that a text begins with, or else the whole text. -/
def afterAxis (s : List Char) : List Char :=
  (Axis.all.findSome? fun a => after? (a.name.toList ++ [':', ':']) s).getD s

/-- Where a name is sought in a text: after all minus signs and blanks at its front, two slashes, and an axis, as
    far as they are there. -/
def nameSought (t : List Char) : List Char :=
  afterAxis (afterSlashes (t.dropWhile fun c => isBlank c || c == '-'))

theorem afterSlashes_suffix (s : List Char) : afterSlashes s <:+ s := by
  unfold afterSlashes
  split
  · exact ⟨['/', '/'], rfl⟩
  · exact List.suffix_rfl

theorem afterAxis_eq (s : List Char) : afterAxis s = ((axis s).map (·.2)).getD s := by
  rw [afterAxis, axis, List.map_findSome?]
  simp only [Function.comp_def, Option.map_map, Option.map_id']

theorem afterAxis_suffix (s : List Char) : afterAxis s <:+ s := by
  rw [afterAxis_eq]
  cases h : axis s with
  | none => exact List.suffix_rfl
  | some found =>
    obtain ⟨a, rest⟩ := found
    exact ⟨a.name.toList ++ [':', ':'], by simp [axis_recognized h]⟩

theorem nameSought_suffix (t : List Char) : nameSought t <:+ t :=
  ((afterAxis_suffix _).trans (afterSlashes_suffix _)).trans (List.dropWhile_suffix _)

theorem stepHead_failed (h : stepHead s = .error t) :
    t = afterAxis s ∧ Stops (fun c => isNameStart c || c == '*') t := by
  obtain ⟨rfl, hnone⟩ := stepHead_eq_error h
  refine ⟨?_, stops_of_nodeTest_none hnone⟩
  rw [afterAxis_eq]
  cases axis s <;> rfl

theorem locationPath_failed (h : locationPath inner s = .error t) :
    stepHead (afterSlashes s) = .error t := by
  rw [locationPath] at h
  split at h
  · next double rest hslash =>
    obtain rfl := slashes_recognized hslash
    split at h
    · cases h
    · next expected hstep =>
      cases double with
      | false => cases h
      | true =>
        cases h
        exact except_map_eq_error.mp hstep
  · next hslash =>
    have hsame : afterSlashes s = s := by
      unfold afterSlashes
      split
      · cases hslash
      · rfl
    rw [hsame]
    exact except_map_eq_error.mp (except_map_eq_error.mp h)

theorem operand_failed (h : operand inner s = .error t) : stepHead (afterSlashes (skipBlanks s)) = .error t := by
  rw [operand] at h
  split at h
  · cases h
  · exact locationPath_failed (except_map_eq_error.mp h)

theorem layered_failed {table : List (List Operator)} (h : layered read table s = .error t) : read s = .error t := by
  induction table with
  | nil => exact h
  | cons ops tighter ih => exact ih (except_map_eq_error.mp h)

theorem dropWhile_gap {p : Char → Bool} (hp : ∀ c, isBlank c → p c) (b : Gap) :
    (b.1 ++ s).dropWhile p = s.dropWhile p :=
  List.dropWhile_append_of_pos fun c hc => hp c (b.2 c hc)

/-- No minus sign comes next where none is read. -/
theorem avoids_minus_of_many (h : many (padded (symbol '-')) s = ([], r)) : Avoids '-' s := by
  intro c hc hminus
  obtain ⟨v, hs⟩ : ∃ v, skipBlanks s = '-' :: v := by
    cases hskip : skipBlanks s with
    | nil => rw [hskip] at hc; cases hc
    | cons d v =>
      rw [hskip] at hc
      obtain rfl := Option.some.inj hc
      exact ⟨v, by rw [hminus]⟩
  have hshort : (skipBlanks v).length < s.length := by
    have hs := length_le_of_skipBlanks hs
    have hv := length_skipBlanks_le (s := v)
    rw [List.length_cons] at hs
    omega
  rw [many_some (padded_symbol hs) hshort] at h
  cases h

/-- Minus signs are read with all blanks around them. -/
theorem skipBlanks_many_minus (s : List Char) :
    skipBlanks (many (padded (symbol '-')) s).2 = s.dropWhile fun c => isBlank c || c == '-' := by
  have hblank (c : Char) (hc : isBlank c) : (isBlank c || c == '-') = true := by rw [hc]; rfl
  generalize hread : many (padded (symbol '-')) s = found
  obtain ⟨signs, rest⟩ := found
  induction signs generalizing s with
  | nil =>
    obtain rfl := many_eq_nil hread
    obtain ⟨b, hb⟩ := exists_gap rest
    have hstops : Stops (fun c => isBlank c || c == '-') (skipBlanks rest) := fun c hc => by
      have hfirst : Stops isBlank (skipBlanks rest) := stops_dropWhile
      have hminus : c ≠ '-' := avoids_minus_of_many hread c hc
      exact Bool.or_eq_false_iff.mpr ⟨hfirst c hc, beq_eq_false_iff_ne.mpr hminus⟩
    rw [hb, dropWhile_gap hblank b, hstops.dropWhile, ← hb]
  | cons sign signs ih =>
    obtain ⟨s', hminus, hmore⟩ := many_eq_cons hread
    obtain ⟨b, b', rfl⟩ := padded_symbol_recognized hminus
    rw [ih s' hmore, dropWhile_gap hblank b, List.dropWhile_cons_of_pos (by decide), dropWhile_gap hblank b']

theorem signed_failed (h : signed read s = .error t) :
    ∃ u, read u = .error t ∧ skipBlanks u = s.dropWhile fun c => isBlank c || c == '-' :=
  ⟨_, except_map_eq_error.mp h, skipBlanks_many_minus s⟩

/-- Where nothing can be read a name is missing. -/
theorem expression_failed (h : expression s = .error t) :
    t = nameSought s ∧ Stops (fun c => isNameStart c || c == '*') t := by
  rw [expression_eq] at h
  obtain ⟨u, hu, hskip⟩ := signed_failed (layered_failed h)
  have hhead := operand_failed (except_map_eq_error.mp hu)
  rw [hskip] at hhead
  exact stepHead_failed hhead

/-! ### What has been read before the rest -/

/-- The digits that a phrase may lose at the end of a text are those of a numeral at its end. -/
theorem Phrase.expr_eq_iff (c : Phrase) :
    c.expr true = c.expr false ↔ ∀ m ∈ c.lastNumeral?, m.wholeValue = m.value := by
  induction c using Phrase.operators_induction with
  | operand c hc =>
    cases c with
    | primary p ps ss =>
      cases p with
      | number m =>
        cases ps with
        | nil =>
          cases ss with
          | nil => simp [expr, lastNumeral?, Primary.expr, Predicates.exprs, MoreSteps.steps, continuedBy, filteredBy,
              Predicates.isNil, MoreSteps.isNil]
          | cons => simp [expr, lastNumeral?, MoreSteps.isNil]
        | cons => simp [expr, lastNumeral?, Predicates.isNil]
      | _ => simp [expr, lastNumeral?, Primary.expr]
    | negate gap operand => exact absurd hc (Nat.ne_of_lt minusLevel_lt_atomLevel)
    | binary op left before after right => exact absurd hc (Nat.ne_of_lt (Nat.lt_succ_of_le op.level_le))
    | _ => simp [expr, lastNumeral?]
  | negate gap c ih => rw [expr, expr, Expr.negate.injEq, ih, lastNumeral?]
  | binary op left before after right _ ih => simp [expr, lastNumeral?, ih]

/-- A text that is no expression is reported in one of two ways. What is unexpected is a rest of the trimmed text
    in front of which an expression has been read; the text before the rest is that expression on its own, too,
    unless it ends with a numeral that loses digits which matter. Or nothing has been read, and the text is
    reported that begins where a name is sought. -/
theorem parse_failed {text : String} {f : ParseFailure} (h : Expr.parse text = .error f) :
    (∃ (before rest : List Char) (c : Phrase), f = .unexpected rest ∧ rest ≠ [] ∧
        trim text.toList = before ++ rest ∧ c.WellFormed ∧ c.text = trim before ∧
        expression (trim text.toList) = .ok (c.expr false, rest) ∧
        Expr.parse (.ofList before) = .ok (c.expr true) ∧
        (Expr.parse (.ofList before) = .ok (c.expr false) ↔ ∀ m ∈ c.lastNumeral?, m.wholeValue = m.value)) ∨
      f = .nameExpected (nameSought (trim text.toList)) ∧ nameSought (trim text.toList) <:+ trim text.toList ∧
        Stops (fun c => isNameStart c || c == '*') (nameSought (trim text.toList)) ∧
        f.message = "Parsing Error: Error \x7b input: " ++
          String.ofList (quoted (nameSought (trim text.toList))) ++ ", code: TakeWhile1 \x7d" := by
  unfold Expr.parse at h
  split at h
  · cases h
  · next e rest hne hread =>
    cases h
    obtain ⟨c, b, hc, htext, rfl⟩ := expression_trim_recognized hread
    have hrest : rest ≠ [] := fun hnil => hne hnil
    have hmore : (b.1 ++ rest).isEmpty = false := by simp [hrest]
    have hparse := c.parse_gap hc b
    refine Or.inl ⟨c.text ++ b.1, rest, c, rfl, hrest, by rw [htext, List.append_assoc], hc, (c.trim_gap hc b).symm,
      by rw [hread, hmore], hparse, ?_⟩
    rw [hparse, Except.ok.injEq]
    exact c.expr_eq_iff
  · next rest hread =>
    cases h
    obtain ⟨rfl, hstops⟩ := expression_failed hread
    exact Or.inr ⟨rfl, nameSought_suffix _, hstops, rfl⟩

/-- `1.5` -/
def halfPhrase : Phrase :=
  .primary (.number oneAndHalf) .nil .nil

theorem halfPhrase_wellFormed : halfPhrase.WellFormed :=
  ⟨trivial, trivial, trivial⟩

theorem expression_halfPhrase : ∃ r, expression "1.5 )".toList = .ok (halfPhrase.expr false, r) := by
  have hclose : Before [')', ']', ','] (Gap.blank.1 ++ [')']) := before_gap .blank (by decide) (by decide)
  obtain ⟨r, hread, -⟩ := expression_before (s := "1.5 )".toList) halfPhrase_wellFormed (by decide)
    (hclose.mono (by decide)) trivial (haltsFrom_closers hclose)
  exact ⟨r, hread⟩

/-- The text before the rest is another expression where it ends with a numeral that loses digits, and a name is
    sought after the signs, the slashes and the axis. -/
theorem parse_failed_oneAndHalf :
    Expr.parse "1.5 )" = .error (.unexpected [')']) ∧
      (∃ c : Phrase, expression "1.5 )".toList = .ok (c.expr false, [')']) ∧
        Expr.parse (.ofList "1.5 ".toList) = .ok (c.expr true) ∧
        Expr.parse (.ofList "1.5 ".toList) ≠ .ok (c.expr false)) ∧
      Expr.parse "- - //child::1" = .error (.nameExpected ['1']) ∧
      nameSought (trim "- - //child::1".toList) = ['1'] := by
  have hunexpected : Expr.parse "1.5 )" = .error (.unexpected [')']) := by with_unfolding_all rfl
  have hname : Expr.parse "- - //child::1" = .error (.nameExpected ['1']) := by with_unfolding_all rfl
  refine ⟨hunexpected, ?_, hname, ?_⟩
  · obtain ⟨before, rest, c, hf, -, htext, hc, hbefore, hread, hparse, -⟩ | ⟨hf, -⟩ := parse_failed hunexpected
    · obtain rfl := ParseFailure.unexpected.inj hf
      obtain rfl : before = "1.5 ".toList := List.append_cancel_right htext.symm
      refine ⟨c, hread, hparse, fun h => ?_⟩
      rw [hparse] at h
      have htrue : c.expr true = halfPhrase.expr true :=
        c.expr_unique hc halfPhrase_wellFormed (hbefore.trans (by decide))
      have hfalse : c.expr false = halfPhrase.expr false := by
        obtain ⟨r, hhalf⟩ := expression_halfPhrase
        have htrim : trim "1.5 )".toList = "1.5 )".toList := by decide
        rw [htrim, hhalf] at hread
        exact (congrArg Prod.fst (Except.ok.inj hread)).symm
      rw [htrue, hfalse] at h
      exact absurd (Expr.number.inj (Except.ok.inj h)) (by decide +kernel)
    · cases hf
  · obtain ⟨_, _, _, hf, -⟩ | ⟨hf, -⟩ := parse_failed hname
    · cases hf
    · exact (ParseFailure.nameExpected.inj hf).symm

end XmlMapping.XPath
