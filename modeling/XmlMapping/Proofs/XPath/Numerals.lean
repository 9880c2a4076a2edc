import XmlMapping.Proofs.XPath.Rereading
import XmlMapping.Proofs.XPath.WellFormed

/-!
# Numerals in expressions and in values

A text of digits and points is read as a number exactly if it denotes one as a value: both are so for the numerals
only. As a value it is the number of the numeral; as an expression it loses the digits after the point when there are
digits before the point, too.
-/

namespace XmlMapping.XPath

open Text

variable {text : String} {t w f : List Char} {c : Phrase} {v : Number} {last : Bool}

/-! ### Texts of numerals -/

/-- Digits, at least one. -/
def Digits (s : List Char) : Prop :=
  s ≠ [] ∧ s.all Char.isDigit

/-- The four kinds of texts that denote a number without a sign. -/
inductive IsNumeral : List Char → Prop
  | whole {w : List Char} (hw : Digits w) : IsNumeral w
  | pointed {w : List Char} (hw : Digits w) : IsNumeral (w ++ ['.'])
  | mixed {w f : List Char} (hw : Digits w) (hf : Digits f) : IsNumeral (w ++ '.' :: f)
  | fraction {f : List Char} (hf : Digits f) : IsNumeral ('.' :: f)

theorem isNumeral_iff : IsNumeral t ↔ ∃ m : Numeral, m.text = t := by
  constructor
  · intro h
    cases h with
    | whole hw => exact ⟨⟨t, none, ⟨hw.2, rfl⟩, Or.inl hw.1⟩, List.append_nil t⟩
    | pointed hw => exact ⟨⟨_, some [], ⟨hw.2, rfl⟩, Or.inl hw.1⟩, rfl⟩
    | mixed hw hf => exact ⟨⟨_, some _, ⟨hw.2, hf.2⟩, Or.inl hw.1⟩, rfl⟩
    | fraction hf => exact ⟨⟨[], some _, ⟨rfl, hf.2⟩, Or.inr hf.1⟩, rfl⟩
  · rintro ⟨⟨w, fraction, ⟨hw, hf⟩, hne⟩, rfl⟩
    cases fraction with
    | none =>
      have hw' : Digits w := ⟨by simpa using hne, hw⟩
      rw [Numeral.text, List.append_nil]
      exact .whole hw'
    | some f =>
      by_cases hwhole : w = []
      · subst hwhole
        exact .fraction ⟨by simpa using hne, hf⟩
      · by_cases hfraction : f = []
        · subst hfraction
          exact .pointed ⟨hwhole, hw⟩
        · exact .mixed ⟨hwhole, hw⟩ ⟨hfraction, hf⟩

/-! ### Numbers of values -/

theorem Numeral.digits_text (m : Numeral) :
    XPath.digits m.text = (m.whole, match m.fraction with | some f => '.' :: f | none => []) := by
  refine digits_append m.digits.1 ?_
  cases m.fraction with
  | none => exact stops_nil
  | some f => exact stops_cons.mpr (by decide)

theorem Numeral.text_ne_minus (m : Numeral) (r : List Char) : m.text ≠ '-' :: r := by
  intro h
  obtain ⟨c, u, hc, hdigit⟩ := m.exists_head
  obtain ⟨rfl, -⟩ := List.cons.inj (hc.symm.trans h)
  rcases hdigit with hdigit | hdigit <;> exact absurd hdigit (by decide)

theorem Numeral.value_ne_nan (m : Numeral) : m.value ≠ .nan := by
  intro h
  have hunsigned : m.value.Unsigned := Number.unsigned_ofDecimal _ _
  rw [h] at hunsigned
  cases hunsigned

section Unsigned
variable (hminus : ∀ r, trim text.toList ≠ '-' :: r)
include hminus

theorem numberOf_whole (hd : digits (trim text.toList) = (w, [])) :
    numberOf text = if w = [] then .nan else .ofNumeral false w [] := by
  simp only [numberOf, hd, List.isEmpty_iff]

theorem numberOf_point (hd : digits (trim text.toList) = (w, '.' :: f)) :
    numberOf text = if f.all Char.isDigit ∧ (w ≠ [] ∨ f ≠ []) then .ofNumeral false w f else .nan := by
  simp only [numberOf, hd]
  cases w <;> cases f <;> simp

end Unsigned

theorem numberOf_numeral {m : Numeral} (h : m.text = trim text.toList) : numberOf text = m.value := by
  have hd := m.digits_text
  have hminus := m.text_ne_minus
  rw [h] at hd hminus
  obtain ⟨w, fraction, ⟨hw, hf⟩, hne⟩ := m
  cases fraction with
  | none =>
    have hwhole : w ≠ [] := by simpa using hne
    rw [numberOf_whole hminus hd, if_neg hwhole]
    rfl
  | some f =>
    rw [numberOf_point hminus hd, if_pos ⟨hf, hne⟩]
    rfl

/-! ### Numbers of expressions -/

theorem continuedBy_eq_number {e : Expr} {ps : List Expr} {ss : List Step}
    (h : continuedBy (filteredBy e ps) ss = .number v) : ps = [] ∧ ss = [] ∧ e = .number v := by
  cases ss with
  | cons => cases h
  | nil =>
    cases ps with
    | cons => cases h
    | nil => exact ⟨rfl, rfl, h⟩

/-- An expression that is a number has neither predicates nor steps. -/
theorem Phrase.exists_of_number (h : c.expr last = .number v) :
    ∃ p : Primary, c = .primary p .nil .nil ∧ p.expr last = .number v := by
  cases c with
  | primary p ps ss =>
    rw [expr] at h
    obtain ⟨hps, hss, hp⟩ := continuedBy_eq_number h
    cases ps with
    | cons => cases hps
    | nil =>
      cases ss with
      | cons gap double => cases double <;> cases hss
      | nil => exact ⟨p, rfl, hp⟩
  | _ => simp [expr] at h

section Plain
variable (hchars : ∀ c ∈ trim text.toList, c.isDigit ∨ c = '.')
include hchars

theorem exists_of_numberOf (h : numberOf text ≠ .nan) : ∃ m : Numeral, m.text = trim text.toList := by
  have hminus : ∀ r, trim text.toList ≠ '-' :: r := by
    intro r hr
    rcases hchars '-' (by simp [hr]) with hc | hc <;> exact absurd hc (by decide)
  rcases digits_cases (trim text.toList) with ⟨w, f, -, -, hd, -⟩ | ⟨w, rest, hd, hpoint⟩
  · obtain ⟨htext, hw⟩ := digits_recognized hd
    rw [numberOf_point hminus hd] at h
    obtain ⟨hf, hne⟩ := Classical.byContradiction fun hnot => h (if_neg hnot)
    exact ⟨⟨w, some f, ⟨hw, hf⟩, hne⟩, htext.symm⟩
  · obtain ⟨htext, hw⟩ := digits_recognized hd
    -- What comes after the digits begins with neither a digit nor a point.
    have hrest : rest = [] := by
      have hdigit : Stops Char.isDigit rest := (Prod.mk.inj hd).2 ▸ stops_dropWhile
      cases rest with
      | nil => rfl
      | cons c rest =>
        rcases hchars c (by simp [htext]) with hc | hc
        · exact absurd hc (by simp [stops_cons.mp hdigit])
        · exact absurd hc (by simpa using stops_cons.mp hpoint)
    subst hrest
    rw [numberOf_whole hminus hd] at h
    have hne : w ≠ [] := fun hnil => h (if_pos hnil)
    exact ⟨⟨w, none, ⟨hw, rfl⟩, Or.inl hne⟩, htext.symm⟩

theorem exists_of_parse_number (h : Expr.parse text = .ok (.number v)) : ∃ m : Numeral, m.text = trim text.toList := by
  obtain ⟨c, -, htext, hexpr⟩ := parse_eq_ok_iff.mp h
  obtain ⟨p, rfl, hp⟩ := Phrase.exists_of_number hexpr
  simp only [Phrase.text, Predicates.text, MoreSteps.text, List.append_nil] at htext
  cases p with
  | number m => exact ⟨m, htext⟩
  | group before content after =>
    rw [← htext] at hchars
    rcases hchars '(' List.mem_cons_self with hc | hc <;> exact absurd hc (by decide)
  | _ => simp [Primary.expr] at hp

end Plain

theorem parse_of_numeral {m : Numeral} (h : m.text = trim text.toList) :
    Expr.parse text = .ok (.number m.wholeValue) := by
  rw [Expr.parse, ← h, expression_number m (skipBlanks_of_begins m.begins) before_nil, m.valueBefore_nil]
  rfl

theorem Numeral.wholeValue_eq {m : Numeral} (h : m.whole = [] ∨ m.fraction.getD [] = []) : m.wholeValue = m.value := by
  unfold wholeValue value
  split
  · rfl
  · next hwhole =>
    have hwhole' : m.whole ≠ [] := fun hnil => hwhole (List.isEmpty_iff.mpr hnil)
    rw [h.resolve_left hwhole']

/-- Of the texts of digits and points, those that are read as a number and those that a value is a number for are the
    numerals. The number is the same unless there are digits on both sides of the point: then the expression is the
    number without those after it. -/
theorem parse_number_iff {text : String} (hchars : ∀ c ∈ trim text.toList, c.isDigit ∨ c = '.') :
    ((∃ v, Expr.parse text = .ok (.number v)) ↔ numberOf text ≠ .nan) ∧
      (numberOf text ≠ .nan ↔ IsNumeral (trim text.toList)) ∧
      ∀ m : Numeral, m.text = trim text.toList →
        numberOf text = m.value ∧ Expr.parse text = .ok (.number m.wholeValue) ∧
          (m.whole = [] ∨ m.fraction.getD [] = [] → m.wholeValue = m.value) := by
  have hvalue : numberOf text ≠ .nan ↔ IsNumeral (trim text.toList) := by
    rw [isNumeral_iff]
    refine ⟨exists_of_numberOf hchars, ?_⟩
    rintro ⟨m, hm⟩
    rw [numberOf_numeral hm]
    exact m.value_ne_nan
  have hread : (∃ v, Expr.parse text = .ok (.number v)) ↔ IsNumeral (trim text.toList) := by
    rw [isNumeral_iff]
    constructor
    · rintro ⟨v, hv⟩
      exact exists_of_parse_number hchars hv
    · rintro ⟨m, hm⟩
      exact ⟨m.wholeValue, parse_of_numeral hm⟩
  exact ⟨hread.trans hvalue.symm, hvalue, fun m hm => ⟨numberOf_numeral hm, parse_of_numeral hm, m.wholeValue_eq⟩⟩

theorem parse_number_iff_oneAndHalf :
    (∀ c ∈ trim " 1.5\t".toList, c.isDigit ∨ c = '.') ∧ IsNumeral (trim " 1.5\t".toList) ∧
      numberOf " 1.5\t" = oneAndHalf.value ∧ Expr.parse " 1.5\t" = .ok (.number oneAndHalf.wholeValue) ∧
      Expr.parse " 1.5\t" ≠ .ok (.number (numberOf " 1.5\t")) := by
  have htext : oneAndHalf.text = trim " 1.5\t".toList := by decide
  have hchars : ∀ c ∈ trim " 1.5\t".toList, c.isDigit ∨ c = '.' := by
    rw [← htext]
    simp [oneAndHalf, Numeral.text]
  obtain ⟨hiff, hnumeral, hvalues⟩ := parse_number_iff hchars
  obtain ⟨hvalue, hparse, -⟩ := hvalues oneAndHalf htext
  refine ⟨hchars, hnumeral.mp (hiff.mp ⟨_, hparse⟩), hvalue, hparse, ?_⟩
  rw [hvalue, hparse]
  intro h
  have hlost : oneAndHalf.wholeValue ≠ oneAndHalf.value := by decide +kernel
  exact hlost (Expr.number.inj (Except.ok.inj h))

end XmlMapping.XPath
