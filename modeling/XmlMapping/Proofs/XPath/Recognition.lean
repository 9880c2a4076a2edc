import Mathlib.Data.Option.Basic
import XmlMapping.Proofs.XPath.Sequences
import XmlMapping.Proofs.XPath.Written

/-!
# What is read is written

Whatever a reader takes from a text is the text of a phrase, and what it gives is the expression of that
phrase. The readers are gone through one by one, for any reader of inner expressions of which this is known.
-/

namespace XmlMapping.XPath

open Text

variable {inner : Reader Expr} {b r s t w rest : List Char} {e : Expr}

/-! ### Blanks -/

/-- Blanks after one another. -/
def Gap.append (b b' : Gap) : Gap :=
  ⟨b.1 ++ b'.1, fun c hc => (List.mem_append.mp hc).elim (b.2 c) (b'.2 c)⟩

/-- No blanks. -/
def Gap.none : Gap :=
  ⟨[], blanks_nil⟩

/-- One blank. -/
def Gap.blank : Gap :=
  ⟨[' '], by simp [Blanks, isBlank]⟩

theorem exists_gap (s : List Char) : ∃ b : Gap, s = b.1 ++ skipBlanks s :=
  ⟨⟨s.takeWhile isBlank, List.all_eq_true.mp List.all_takeWhile⟩, List.takeWhile_append_dropWhile.symm⟩

theorem padded_recognized {α : Type} {read : Reader α} {a : α} (h : padded read s = some (a, rest)) :
    ∃ (b b' : Gap) (u : List Char), s = b.1 ++ u ∧ read u = some (a, b'.1 ++ rest) := by
  obtain ⟨⟨a', r⟩, hread, heq⟩ := Option.map_eq_some_iff.mp h
  cases heq
  obtain ⟨b, hb⟩ := exists_gap s
  obtain ⟨b', hb'⟩ := exists_gap r
  exact ⟨b, b', skipBlanks s, hb, hb' ▸ hread⟩

theorem symbol_recognized {c : Char} (h : symbol c s = some ((), rest)) : s = c :: rest := by
  cases s with
  | nil => cases h
  | cons d s =>
    rw [symbol] at h
    split at h
    · next hc => cases h; rw [hc]
    · cases h

theorem padded_symbol_recognized {c : Char} (h : padded (symbol c) s = some ((), rest)) :
    ∃ b b' : Gap, s = b.1 ++ c :: (b'.1 ++ rest) := by
  obtain ⟨b, b', u, rfl, hu⟩ := padded_recognized h
  exact ⟨b, b', by rw [symbol_recognized hu]⟩

theorem many_eq_nil {α : Type} {read : Reader α} (h : many read s = ([], rest)) : rest = s := by
  rw [many] at h
  split at h
  · cases h; rfl
  · split at h <;> cases h; rfl

/-- Something has been read first, and the others after it. -/
theorem many_eq_cons {α : Type} {read : Reader α} {a : α} {as : List α} (h : many read s = (a :: as, rest)) :
    ∃ s', read s = some (a, s') ∧ many read s' = (as, rest) := by
  rw [many] at h
  split at h
  · cases h
  · next s' hread =>
    split at h <;> cases h
    exact ⟨s', hread, rfl⟩

theorem isEmpty_append (s t : List Char) : (s ++ t).isEmpty = (s.isEmpty && t.isEmpty) := by
  cases s <;> rfl

/-! ### Literals, numbers and names -/

theorem digits_recognized {d : List Char} (h : digits s = (w, d)) : s = w ++ d ∧ w.all Char.isDigit := by
  cases h
  exact ⟨List.takeWhile_append_dropWhile.symm, List.all_takeWhile⟩

theorem number_recognized (h : number s = some (e, rest)) :
    ∃ m : Numeral, s = m.text ++ rest ∧ e = .number (m.valueBefore rest) := by
  rcases digits_cases s with ⟨w, more, f, u, hd, hf⟩ | ⟨w, d, hd, hpoint⟩
  · rw [number_point hd hf] at h
    split at h <;> cases h
    next hsome =>
    obtain ⟨rfl, hw⟩ := digits_recognized hd
    obtain ⟨rfl, hall⟩ := digits_recognized hf
    refine ⟨⟨w, some f, ⟨hw, hall⟩, Classical.not_and_iff_not_or_not.mp hsome⟩, by simp [Numeral.text], ?_⟩
    cases rest <;> cases w <;> simp [Numeral.valueBefore, Numeral.wholeValue, Numeral.value]
  · rw [number_whole hd hpoint] at h
    split at h <;> cases h
    next hne =>
    obtain ⟨rfl, hw⟩ := digits_recognized hd
    refine ⟨⟨w, none, ⟨hw, rfl⟩, Or.inl hne⟩, by simp [Numeral.text], ?_⟩
    cases rest <;> simp [Numeral.valueBefore, Numeral.wholeValue, Numeral.value, hne]

theorem literal_recognized (h : literal s = some (e, rest)) :
    ∃ q : Quoted, s = q.quote :: (q.text.toList ++ q.quote :: rest) ∧ e = .literal q.text := by
  obtain ⟨⟨text, r⟩, hread, heq⟩ := Option.map_eq_some_iff.mp h
  cases heq
  rcases (Option.orElse_eq_some ..).mp hread with hread | ⟨-, hread⟩
  · obtain ⟨hnot, hs⟩ := exists_of_quotedBy hread
    exact ⟨⟨'\'', text, Or.inl rfl, hnot⟩, hs, rfl⟩
  · obtain ⟨hnot, hs⟩ := exists_of_quotedBy hread
    exact ⟨⟨'"', text, Or.inr rfl, hnot⟩, hs, rfl⟩

theorem name?_recognized (h : name? s = some (w, rest)) : isName w ∧ s = w ++ rest ∧ Stops isNameChar rest := by
  cases s with
  | nil => cases h
  | cons c s =>
    rw [name?] at h
    split at h <;> cases h
    next hc =>
    refine ⟨?_, ?_, stops_dropWhile⟩
    · rw [isName, hc, List.all_takeWhile]
      rfl
    · rw [List.cons_append, List.takeWhile_append_dropWhile]

theorem qName_recognized {q : QName} (h : qName s = some (q, rest)) :
    q.Named ∧ s = q.text.toList ++ rest ∧ Stops isNameChar rest := by
  rw [qName_eq] at h
  obtain ⟨⟨first, more⟩, hfirst, hsecond⟩ := Option.bind_eq_some_iff.mp h
  obtain ⟨hname, hs, hstops⟩ := name?_recognized hfirst
  have hname' : isName (String.ofList first).toList := by rwa [String.toList_ofList]
  rcases (Option.orElse_eq_some ..).mp hsecond with hlocal | ⟨-, halone⟩
  · obtain ⟨⟨⟨⟩, more'⟩, hcolon, hlocal⟩ := Option.bind_eq_some_iff.mp hlocal
    obtain ⟨⟨localPart, rest'⟩, hlocal, heq⟩ := Option.bind_eq_some_iff.mp hlocal
    cases heq
    obtain ⟨hlocal, hmore, hstops'⟩ := name?_recognized hlocal
    refine ⟨⟨?_, by rwa [String.toList_ofList]⟩, ?_, hstops'⟩
    · rintro _ ⟨⟩
      exact hname'
    · simp [QName.toList_text, hs, symbol_recognized hcolon, hmore]
  · cases halone
    exact ⟨⟨nofun, hname'⟩, by simp [QName.toList_text, hs], hstops⟩

/-! ### Steps -/

/-- Whether a reader has stopped after such an end because nothing could be read on: no character of a name
    after a name, and no step after the slash of the document node. -/
def Ending.Left : Ending → List Char → Prop
  | .closed, _ => True
  | .name, r => Stops isNameChar r
  | .slash, r => ∃ t, stepHead r = .error t

theorem kindTest_recognized {test : NodeTest} (h : kindTest s = some (test, rest)) :
    ∃ (k : KindTest) (gap inside : Gap), test = .kind k ∧ s = (WrittenTest.kind k gap inside).text ++ rest := by
  obtain ⟨⟨k, r⟩, hfind, h⟩ := Option.bind_eq_some_iff.mp h
  obtain ⟨⟨⟨⟩, r'⟩, hopen, h⟩ := Option.bind_eq_some_iff.mp h
  obtain ⟨⟨⟨⟩, r''⟩, hclose, h⟩ := Option.bind_eq_some_iff.mp h
  cases h
  obtain ⟨k', -, hk⟩ := List.exists_of_findSome?_eq_some hfind
  obtain ⟨r₁, hafter, heq⟩ := Option.map_eq_some_iff.mp hk
  cases heq
  obtain ⟨gap, inside, rfl⟩ := padded_symbol_recognized hopen
  obtain rfl := symbol_recognized hclose
  exact ⟨k, gap, inside, rfl, by simp [eq_of_after? hafter, WrittenTest.text]⟩

theorem anyInTest_recognized {test : NodeTest} (h : anyInTest s = some (test, rest)) :
    ∃ p : {p : String // isName p.toList}, test = .anyIn p.1 ∧ s = (WrittenTest.anyIn p).text ++ rest := by
  rw [anyInTest_eq] at h
  obtain ⟨⟨label, r⟩, hlabel, h⟩ := Option.bind_eq_some_iff.mp h
  obtain ⟨r', hafter, heq⟩ := Option.map_eq_some_iff.mp h
  cases heq
  obtain ⟨hname, rfl, -⟩ := name?_recognized hlabel
  exact ⟨⟨.ofList label, by rwa [String.toList_ofList]⟩, rfl, by simp [eq_of_after? hafter, WrittenTest.text]⟩

theorem nodeTest_recognized {test : NodeTest} (h : nodeTest s = some (test, rest)) :
    ∃ t : WrittenTest, t.test = test ∧ s = t.text ++ rest ∧ t.ending.Left rest := by
  rcases (Option.orElse_eq_some ..).mp h with h | ⟨-, h⟩
  · obtain ⟨⟨⟨⟩, r⟩, hstar, heq⟩ := Option.map_eq_some_iff.mp h
    cases heq
    exact ⟨.any, rfl, symbol_recognized hstar, trivial⟩
  rcases (Option.orElse_eq_some ..).mp h with h | ⟨-, h⟩
  · obtain ⟨k, gap, inside, rfl, hs⟩ := kindTest_recognized h
    exact ⟨.kind k gap inside, rfl, hs, trivial⟩
  rcases (Option.orElse_eq_some ..).mp h with h | ⟨-, h⟩
  · obtain ⟨p, rfl, hs⟩ := anyInTest_recognized h
    exact ⟨.anyIn p, rfl, hs, trivial⟩
  · obtain ⟨⟨q, r⟩, hq, heq⟩ := Option.map_eq_some_iff.mp h
    cases heq
    obtain ⟨hnamed, hs, hstops⟩ := qName_recognized hq
    exact ⟨.name ⟨q, hnamed⟩, rfl, hs, hstops⟩

theorem axis_recognized {a : Axis} (h : axis s = some (a, rest)) : s = a.name.toList ++ ':' :: ':' :: rest := by
  obtain ⟨a', -, ha⟩ := List.exists_of_findSome?_eq_some h
  obtain ⟨r, hafter, heq⟩ := Option.map_eq_some_iff.mp ha
  cases heq
  simpa using eq_of_after? hafter

theorem testOn_recognized {a : Axis} {head : Axis × NodeTest} (h : testOn a s = some (head, rest)) :
    ∃ t : WrittenTest, head = (a, t.test) ∧ s = t.text ++ rest ∧ t.ending.Left rest := by
  obtain ⟨⟨test, r⟩, htest, heq⟩ := Option.map_eq_some_iff.mp h
  cases heq
  obtain ⟨t, rfl, hs, hleft⟩ := nodeTest_recognized htest
  exact ⟨t, rfl, hs, hleft⟩

theorem optional_eq_some {α : Type} {read : List Char → Reading α} {a : α} :
    optional read s = some (a, rest) ↔ read s = .ok (a, rest) := by
  rw [optional]
  cases read s <;> simp [Except.toOption]

theorem stepHead_recognized {head : Axis × NodeTest} (h : stepHead s = .ok (head, rest)) :
    ∃ hd : Head, hd.meaning = head ∧ s = hd.text ++ rest ∧ hd.ending.Left rest := by
  rw [← optional_eq_some, optional_stepHead] at h
  rcases (Option.orElse_eq_some ..).mp h with h | ⟨-, h⟩
  · obtain ⟨r, hafter, heq⟩ := Option.map_eq_some_iff.mp h
    cases heq
    exact ⟨.parent, rfl, eq_of_after? hafter, trivial⟩
  rcases (Option.orElse_eq_some ..).mp h with h | ⟨-, h⟩
  · obtain ⟨r, hafter, heq⟩ := Option.map_eq_some_iff.mp h
    cases heq
    exact ⟨.self, rfl, eq_of_after? hafter, trivial⟩
  rcases (Option.orElse_eq_some ..).mp h with h | ⟨-, h⟩
  · obtain ⟨⟨⟨⟩, r⟩, hat, h⟩ := Option.bind_eq_some_iff.mp h
    obtain rfl := symbol_recognized hat
    obtain ⟨t, rfl, rfl, hleft⟩ := testOn_recognized h
    exact ⟨.ofAttribute t, rfl, rfl, hleft⟩
  · obtain ⟨⟨a, r⟩, haxis, h⟩ := Option.bind_eq_some_iff.mp h
    obtain ⟨t, rfl, rfl, hleft⟩ := testOn_recognized h
    rcases (Option.orElse_eq_some ..).mp haxis with haxis | ⟨-, haxis⟩
    · exact ⟨.full a t, rfl, by simp [axis_recognized haxis, Head.text], hleft⟩
    · cases haxis
      exact ⟨.child t, rfl, rfl, hleft⟩

/-! ### Phrases in front of a text -/

/-- Whether a text is a phrase of a level or a tighter one, with blanks on both sides and a rest after it, that
    stands for an expression. -/
def Writes (j : Nat) (s : List Char) (e : Expr) (rest : List Char) : Prop :=
  ∃ (b : Gap) (c : Phrase) (b' : Gap), c.WellFormed ∧ j ≤ c.level ∧ c.ending.Left (b'.1 ++ rest) ∧
    s = b.1 ++ (c.text ++ (b'.1 ++ rest)) ∧ e = c.expr (b'.1 ++ rest).isEmpty

theorem Writes.mono {i j : Nat} (h : Writes j s e rest) (hij : i ≤ j) : Writes i s e rest := by
  obtain ⟨b, c, b', hc, hlevel, h⟩ := h
  exact ⟨b, c, b', hc, Nat.le_trans hij hlevel, h⟩

/-- Whether all that a reader gives is written where it is read. -/
def Recognizes (inner : Reader Expr) : Prop :=
  ∀ s e rest, inner s = some (e, rest) → Writes 0 s e rest

/-- Between brackets an expression is never at the end of the text. -/
theorem Recognizes.before_cons {x : Char} (hinner : Recognizes inner) (h : inner s = some (e, r))
    (hr : r = b ++ x :: rest) (hb : Blanks b) :
    ∃ (before : Gap) (c : Phrase) (after : Gap), c.WellFormed ∧ e = c.expr false ∧
      s = before.1 ++ (c.text ++ (after.1 ++ x :: rest)) := by
  obtain ⟨before, c, b', hc, -, -, rfl, rfl⟩ := hinner s e r h
  subst hr
  refine ⟨before, c, b'.append ⟨b, hb⟩, hc, ?_, by simp [Gap.append]⟩
  congr 1
  simp

section Nested

variable (hinner : Recognizes inner)

include hinner

theorem predicate_recognized (h : predicate inner s = some (e, rest)) :
    ∃ (gap before : Gap) (c : Phrase) (after b' : Gap), c.WellFormed ∧ e = c.expr false ∧
      s = gap.1 ++ '[' :: (before.1 ++ (c.text ++ (after.1 ++ ']' :: (b'.1 ++ rest)))) := by
  obtain ⟨⟨⟨⟩, r⟩, hopen, h⟩ := Option.bind_eq_some_iff.mp h
  obtain ⟨⟨e', r'⟩, hread, h⟩ := Option.bind_eq_some_iff.mp h
  obtain ⟨⟨⟨⟩, r''⟩, hclose, h⟩ := Option.bind_eq_some_iff.mp h
  cases h
  obtain ⟨gap, b₁, rfl⟩ := padded_symbol_recognized hopen
  obtain ⟨b₂, b', hr'⟩ := padded_symbol_recognized hclose
  obtain ⟨before, c, after, hc, he, rfl⟩ := hinner.before_cons hread hr' b₂.2
  exact ⟨gap, b₁.append before, c, after, b', hc, he, by simp [Gap.append]⟩

/-- Predicates take the blanks that have been skipped before them, and leave those after the last bracket. -/
theorem many_predicate_recognized {es : List Expr} (b : Gap) (h : many (predicate inner) s = (es, rest)) :
    ∃ (ps : Predicates) (b' : Gap), ps.WellFormed ∧ ps.exprs = es ∧ b.1 ++ s = ps.text ++ (b'.1 ++ rest) ∧
      (ps.isNil → b' = b) ∧
      ∀ ending : Ending, ending.Left (b.1 ++ s) → (ps.endingAfter ending).Left (b'.1 ++ rest) := by
  induction es generalizing s b with
  | nil =>
    obtain rfl := many_eq_nil h
    exact ⟨.nil, b, trivial, rfl, rfl, fun _ => rfl, fun _ h => h⟩
  | cons e es ih =>
    obtain ⟨s', hread, hmore⟩ := many_eq_cons h
    obtain ⟨gap, before, c, after, b₁, hc, rfl, rfl⟩ := predicate_recognized hinner hread
    obtain ⟨ps, b', hps, rfl, htext, -, hleft⟩ := ih b₁ hmore
    refine ⟨.cons (b.append gap) before c after ps, b', ⟨hc, hps⟩, rfl, ?_, nofun, fun _ _ => ?_⟩
    · simp [Predicates.text, Gap.append, htext]
    · have hclosed := hleft .closed trivial
      cases ps <;> exact trivial

theorem step_recognized {x : Step} (h : step inner s = .ok (x, rest)) :
    ∃ (hd : Head) (ps : Predicates) (b' : Gap), ps.WellFormed ∧ hd.step ps.exprs = x ∧
      s = hd.text ++ (ps.text ++ (b'.1 ++ rest)) ∧ (b'.1 ≠ [] → !ps.isNil) ∧
      (ps.endingAfter hd.ending).Left (b'.1 ++ rest) := by
  rw [← optional_eq_some, optional_step] at h
  obtain ⟨⟨head, r⟩, hhead, h⟩ := Option.bind_eq_some_iff.mp h
  obtain ⟨⟨predicates, r'⟩, hmany, h⟩ := Option.bind_eq_some_iff.mp h
  cases h
  obtain ⟨hd, rfl, rfl, hleft⟩ := stepHead_recognized (optional_eq_some.mp hhead)
  obtain ⟨ps, b', hps, rfl, htext, hnil, hleft'⟩ := many_predicate_recognized hinner .none (Option.some.inj hmany)
  refine ⟨hd, ps, b', hps, rfl, congrArg (hd.text ++ ·) htext, fun hb' => ?_, hleft' hd.ending hleft⟩
  cases hps : ps.isNil with
  | false => rfl
  | true => exact absurd (congrArg Subtype.val (hnil hps)) hb'

omit hinner in
theorem slashes_recognized {double : Bool} (h : slashes s = some (double, rest)) :
    s = slashText double ++ rest := by
  unfold slashes at h
  split at h <;> cases h <;> rfl

/-- Further steps take the blanks that have been skipped before them, if there can be any, and leave those after
    the last bracket. -/
theorem many_nextSteps_recognized {xs : List (List Step)} (b : Gap) {room : Bool} (hroom : b.1 ≠ [] → room)
    (h : many (nextSteps inner) s = (xs, rest)) :
    ∃ (ss : MoreSteps) (b' : Gap), ss.WellFormed room ∧ ss.steps = xs.flatten ∧
      b.1 ++ s = ss.text ++ (b'.1 ++ rest) ∧
      ∀ ending : Ending, ending.Left (b.1 ++ s) → (ss.endingAfter ending).Left (b'.1 ++ rest) := by
  induction xs generalizing s b room with
  | nil =>
    obtain rfl := many_eq_nil h
    exact ⟨.nil, b, trivial, rfl, rfl, fun _ h => h⟩
  | cons x xs ih =>
    obtain ⟨s', hread, hmore⟩ := many_eq_cons h
    obtain ⟨⟨double, r⟩, hslash, hread⟩ := Option.bind_eq_some_iff.mp hread
    obtain ⟨⟨next, r'⟩, hstep, hread⟩ := Option.bind_eq_some_iff.mp hread
    cases hread
    obtain rfl := slashes_recognized hslash
    obtain ⟨hd, ps, b₁, hps, rfl, rfl, hroom₁, hleft₁⟩ := step_recognized hinner (optional_eq_some.mp hstep)
    obtain ⟨ss, b', hss, hsteps, htext, hleft⟩ := ih b₁ hroom₁ hmore
    refine ⟨.cons b double hd ps ss, b', ⟨hroom, hps, hss⟩, ?_, ?_, fun _ _ => hleft _ hleft₁⟩
    · rw [MoreSteps.steps, hsteps, List.flatten_cons]
    · simp [MoreSteps.text, htext]

theorem furtherSteps_recognized {xs : List Step} (b : Gap) (room : Bool) (hroom : b.1 ≠ [] → room)
    (h : furtherSteps inner s = (xs, rest)) :
    ∃ (ss : MoreSteps) (b' : Gap), ss.WellFormed room ∧ ss.steps = xs ∧ b.1 ++ s = ss.text ++ (b'.1 ++ rest) ∧
      ∀ ending : Ending, ending.Left (b.1 ++ s) → (ss.endingAfter ending).Left (b'.1 ++ rest) := by
  have hsome := furtherSteps_eq inner s
  rw [h] at hsome
  obtain ⟨⟨steps, r⟩, hmany, heq⟩ := Option.bind_eq_some_iff.mp hsome.symm
  cases heq
  exact many_nextSteps_recognized hinner b hroom (Option.some.inj hmany)

theorem locationPath_recognized (h : locationPath inner s = .ok (e, rest)) :
    ∃ (c : Phrase) (b' : Gap), c.WellFormed ∧ c.level = atomLevel ∧ c.ending.Left (b'.1 ++ rest) ∧
      s = c.text ++ (b'.1 ++ rest) ∧ ∀ last, e = c.expr last := by
  rw [locationPath] at h
  split at h
  · next double r hslash =>
    obtain rfl := slashes_recognized hslash
    split at h
    · next first r' hstep =>
      cases h
      obtain ⟨hd, ps, b₁, hps, rfl, rfl, hroom, hleft⟩ := step_recognized hinner hstep
      obtain ⟨ss, b', hss, hsteps, htext, hleft'⟩ := furtherSteps_recognized hinner b₁ _ hroom rfl
      refine ⟨.rooted double hd ps ss, b', ⟨hps, hss⟩, rfl, hleft' _ hleft, by simp [Phrase.text, htext], fun _ => ?_⟩
      rw [Phrase.expr, hsteps]
    · next expected hstep =>
      split at h <;> cases h
      next hsingle =>
      obtain rfl : double = false := by simpa using hsingle
      exact ⟨.root, .none, trivial, rfl, ⟨expected, except_map_eq_error.mp hstep⟩, rfl, fun _ => rfl⟩
  · obtain ⟨⟨first, r⟩, hstep, heq⟩ := except_map_eq_ok.mp h
    cases heq
    obtain ⟨hd, ps, b₁, hps, rfl, rfl, hroom, hleft⟩ := step_recognized hinner hstep
    obtain ⟨ss, b', hss, hsteps, htext, hleft'⟩ := furtherSteps_recognized hinner b₁ _ hroom rfl
    refine ⟨.relative hd ps ss, b', ⟨hps, hss⟩, rfl, hleft' _ hleft, by simp [Phrase.text, htext], fun _ => ?_⟩
    rw [Phrase.expr, hsteps]

/-! ### Operands -/

omit hinner in
theorem MoreArguments.exists_next (as : MoreArguments) (u : List Char) : ∃ x v, as.text ++ ')' :: u = x :: v := by
  cases as <;> exact ⟨_, _, rfl⟩

theorem many_nextArgument_recognized {es : List Expr} {u : List Char} (b : Gap)
    (h : many (nextArgument inner) s = (es, rest)) (hrest : rest = b.1 ++ ')' :: u) :
    ∃ (gap : Gap) (as : MoreArguments), as.WellFormed ∧ as.exprs = es ∧ s = gap.1 ++ (as.text ++ ')' :: u) := by
  induction es generalizing s with
  | nil =>
    obtain rfl := many_eq_nil h
    exact ⟨b, .nil, trivial, rfl, hrest⟩
  | cons e es ih =>
    obtain ⟨s', hread, hmore⟩ := many_eq_cons h
    obtain ⟨gap', as, has, rfl, hs'⟩ := ih hmore
    obtain ⟨⟨⟨⟩, r⟩, hcomma, hread⟩ := Option.bind_eq_some_iff.mp hread
    obtain ⟨gap, b₁, hs⟩ := padded_symbol_recognized hcomma
    obtain ⟨x, v, hx⟩ := as.exists_next u
    obtain ⟨before, c, after, hc, rfl, hr⟩ := hinner.before_cons hread (hx ▸ hs') gap'.2
    refine ⟨gap, .cons (b₁.append before) c after as, ⟨hc, has⟩, rfl, ?_⟩
    simp [MoreArguments.text, Gap.append, hs, hr, hx]

theorem arguments_recognized {es : List Expr} {u : List Char} (b : Gap) (h : arguments inner s = (es, rest))
    (hrest : rest = b.1 ++ ')' :: u) :
    es = [] ∧ rest = s ∨ ∃ (before : Gap) (first : Phrase) (after : Gap) (more : MoreArguments), first.WellFormed ∧
      more.WellFormed ∧ es = first.expr false :: more.exprs ∧
        s = before.1 ++ (first.text ++ (after.1 ++ (more.text ++ ')' :: u))) := by
  cases hfirst : inner s with
  | none =>
    rw [arguments_none hfirst] at h
    exact Or.inl ⟨(Prod.mk.inj h).1.symm, (Prod.mk.inj h).2.symm⟩
  | some read =>
    rw [arguments_some hfirst] at h
    obtain ⟨rfl, hend⟩ := Prod.mk.inj h
    obtain ⟨gap, more, hmore, hexprs, hr⟩ :=
      many_nextArgument_recognized hinner b (s := read.2) rfl (hend.trans hrest)
    obtain ⟨x, v, hx⟩ := more.exists_next u
    obtain ⟨before, first, after, hc, he, hs⟩ := hinner.before_cons hfirst (hx ▸ hr) gap.2
    exact Or.inr ⟨before, first, after, more, hc, hmore, by rw [he, hexprs], by rw [hs, hx]⟩

theorem call_recognized (h : call inner s = some (e, rest)) :
    ∃ (p : Primary) (b' : Gap), p.WellFormed ∧ s = p.text ++ (b'.1 ++ rest) ∧ ∀ last, e = p.expr last := by
  rw [call_eq] at h
  obtain ⟨⟨q, r⟩, hq, hcall⟩ := Option.bind_eq_some_iff.mp h
  dsimp only at hcall
  split at hcall
  · cases hcall
  next hkind =>
  obtain ⟨⟨⟨⟩, r₁⟩, hopen, hcall⟩ := Option.bind_eq_some_iff.mp hcall
  obtain ⟨⟨as, r₂⟩, hargs, hcall⟩ := Option.bind_eq_some_iff.mp hcall
  obtain ⟨⟨⟨⟩, r₃⟩, hclose, heq⟩ := Option.bind_eq_some_iff.mp hcall
  cases heq
  obtain ⟨hnamed, hs, -⟩ := qName_recognized hq
  have hf : q.Named ∧ namesKind q = false := ⟨hnamed, by simpa using hkind⟩
  obtain ⟨gap, b₁, hr⟩ := padded_symbol_recognized hopen
  obtain ⟨b₂, b', hr₂⟩ := padded_symbol_recognized hclose
  rcases arguments_recognized hinner b₂ (Option.some.inj hargs) hr₂ with
    ⟨rfl, hr₁⟩ | ⟨before, first, after, more, hfirst, hmore, rfl, hr₁⟩
  · refine ⟨.callEmpty ⟨q, hf⟩ gap (b₁.append b₂), b', trivial, ?_, fun _ => rfl⟩
    have hr₁ : r₁ = b₂.1 ++ ')' :: (b'.1 ++ r₃) := hr₁.symm.trans hr₂
    simp [Primary.text, Gap.append, hs, hr, hr₁]
  · have hr₁ : r₁ = _ := hr₁
    refine ⟨.call ⟨q, hf⟩ gap (b₁.append before) first after more, b', ⟨hfirst, hmore⟩, ?_, fun _ => rfl⟩
    simp [Primary.text, Gap.append, hs, hr, hr₁]

theorem group_recognized (h : group inner s = some (e, rest)) :
    ∃ (p : Primary) (b' : Gap), p.WellFormed ∧ s = p.text ++ (b'.1 ++ rest) ∧ ∀ last, e = p.expr last := by
  obtain ⟨⟨⟨⟩, r⟩, hopen, h⟩ := Option.bind_eq_some_iff.mp h
  obtain ⟨⟨content, r'⟩, hread, h⟩ := Option.bind_eq_some_iff.mp h
  obtain ⟨⟨⟨⟩, r''⟩, hclose, heq⟩ := Option.bind_eq_some_iff.mp h
  cases heq
  obtain ⟨b₁, b', hr'⟩ := padded_symbol_recognized hclose
  obtain ⟨before, c, after, hc, rfl, rfl⟩ := hinner.before_cons hread hr' b₁.2
  exact ⟨.group before c after, b', hc, by simp [Primary.text, symbol_recognized hopen], fun _ => rfl⟩

theorem primary_recognized (h : primary inner s = some (e, rest)) :
    ∃ (b : Gap) (p : Primary) (b' : Gap), p.WellFormed ∧ s = b.1 ++ (p.text ++ (b'.1 ++ rest)) ∧
      e = p.expr (b'.1 ++ rest).isEmpty := by
  obtain ⟨b, b', u, rfl, hread⟩ := padded_recognized h
  rcases (Option.orElse_eq_some ..).mp hread with hread | ⟨-, hread⟩
  · obtain ⟨m, rfl, rfl⟩ := number_recognized hread
    exact ⟨b, .number m, b', trivial, rfl, rfl⟩
  rcases (Option.orElse_eq_some ..).mp hread with hread | ⟨-, hread⟩
  · obtain ⟨q, rfl, rfl⟩ := literal_recognized hread
    exact ⟨b, .literal q, b', trivial, by simp [Primary.text], rfl⟩
  rcases (Option.orElse_eq_some ..).mp hread with hread | ⟨-, hread⟩
  · obtain ⟨p, b₁, hp, rfl, he⟩ := call_recognized hinner hread
    exact ⟨b, p, b₁.append b', hp, by simp [Gap.append], he _⟩
  · obtain ⟨p, b₁, hp, rfl, he⟩ := group_recognized hinner hread
    exact ⟨b, p, b₁.append b', hp, by simp [Gap.append], he _⟩

theorem filtered_recognized (h : filtered inner s = some (e, rest)) :
    ∃ (b : Gap) (p : Primary) (ps : Predicates) (b' : Gap), p.WellFormed ∧ ps.WellFormed ∧
      s = b.1 ++ (p.text ++ (ps.text ++ (b'.1 ++ rest))) ∧
      e = filteredBy (p.expr (ps.isNil && (b'.1 ++ rest).isEmpty)) ps.exprs := by
  rw [filtered_eq] at h
  obtain ⟨⟨base, r₁⟩, hprimary, h⟩ := Option.bind_eq_some_iff.mp h
  obtain ⟨⟨es, r₂⟩, hmany, heq⟩ := Option.bind_eq_some_iff.mp h
  cases heq
  obtain ⟨b, p, b₁, hp, rfl, rfl⟩ := primary_recognized hinner hprimary
  obtain ⟨ps, b', hps, rfl, htext, -, -⟩ := many_predicate_recognized hinner b₁ (Option.some.inj hmany)
  refine ⟨b, p, ps, b', hp, hps, by rw [htext], ?_⟩
  rw [htext, isEmpty_append, ps.text_isEmpty, filteredBy]

/-- A primary expression with its predicates and further steps, or a location path. -/
theorem operand_recognized (h : operand inner s = .ok (e, rest)) : Writes atomLevel s e rest := by
  rw [operand] at h
  split at h
  · next base r hfiltered =>
    cases h
    obtain ⟨b, p, ps, b₁, hp, hps, rfl, rfl⟩ := filtered_recognized hinner hfiltered
    obtain ⟨ss, b', hss, hsteps, htext, hleft⟩ :=
      furtherSteps_recognized hinner b₁ true (fun _ => rfl) rfl
    refine ⟨b, .primary p ps ss, b', ⟨hp, hps, hss⟩, Nat.le_refl _, hleft .closed trivial, ?_, ?_⟩
    · simp [Phrase.text, htext]
    · rw [Phrase.expr, continuedBy, hsteps, htext, isEmpty_append, ss.text_isEmpty, Bool.and_assoc]
  · obtain ⟨⟨path, r⟩, hpath, heq⟩ := except_map_eq_ok.mp h
    cases heq
    obtain ⟨b, hb⟩ := exists_gap s
    obtain ⟨b₂, hb₂⟩ := exists_gap r
    obtain ⟨c, b₁, hc, hlevel, hleft, hs, he⟩ := locationPath_recognized hinner hpath
    rw [hb₂] at hleft hs
    refine ⟨b, c, b₁.append b₂, hc, Nat.le_of_eq hlevel.symm, ?_, ?_, he _⟩
    · rwa [Gap.append, List.append_assoc]
    · rw [hb, hs]
      simp [Gap.append]

end Nested

/-! ### Operators -/

theorem stops_of_append {p : Char → Bool} (h : Stops p (s ++ t)) : Stops p s := by
  cases s with
  | nil => exact stops_nil
  | cons c s => exact h

/-- A node test is read wherever a name or a star begins. -/
theorem stops_of_nodeTest_none (h : nodeTest s = none) : Stops (fun c => isNameStart c || c == '*') s := by
  cases s with
  | nil => exact stops_nil
  | cons c s =>
    refine stops_cons.mpr (Bool.eq_false_iff.mpr fun hc => ?_)
    rcases Bool.or_eq_true_iff.mp hc with hc | hc
    · have hname : name? (c :: s) = some (c :: s.takeWhile isNameChar, s.dropWhile isNameChar) := if_pos hc
      obtain ⟨-, h⟩ := (Option.orElse_eq_none ..).mp h
      obtain ⟨-, h⟩ := (Option.orElse_eq_none ..).mp h
      obtain ⟨-, h⟩ := (Option.orElse_eq_none ..).mp h
      rw [Option.map_eq_none_iff, qName_eq, hname] at h
      exact absurd ((Option.orElse_eq_none ..).mp h).2 nofun
    · obtain rfl := beq_iff_eq.mp hc
      cases h

theorem stepHead_eq_error (h : stepHead s = .error t) :
    t = ((axis s).getD (.child, s)).2 ∧ nodeTest t = none := by
  unfold stepHead at h
  dsimp only at h
  split at h
  · cases h
  · split at h <;> cases h
    next hnone => exact ⟨rfl, hnone⟩

theorem operator_recognized {op o : Operator} (h : operator op s = some (o, rest)) :
    o = op ∧ s = op.symbol.toList ++ rest ∧ (op.IsWord → Stops isNameChar rest) := by
  obtain ⟨r, hafter, h⟩ := Option.bind_eq_some_iff.mp h
  split at h <;> cases h
  next hword =>
  refine ⟨rfl, eq_of_after? hafter, fun hall => ?_⟩
  cases rest with
  | nil => exact stops_nil
  | cons c rest =>
    rw [stops_cons]
    simpa [show op.symbol.toList.all isNameStart = true from hall] using hword

/-- The symbols of operators are no names of axes. -/
theorem axis_operator {op : Operator} {u : List Char} (hword : op.IsWord → Stops isNameChar u) :
    axis (op.symbol.toList ++ u) = none := by
  have hall : ∀ op ∈ allLevels.flatten,
      op.symbol.toList.all isNameStart ∧ op.symbol.toList ∉ Axis.all.map (·.name.toList) ∨
        op.symbol.toList.head?.any isNameStart = false := by decide
  rw [Option.eq_none_iff_forall_ne_some]
  rintro ⟨a, r⟩ haxis
  have heq := axis_recognized haxis
  obtain ⟨c, v, ha, hc, hchars⟩ := isName_eq_cons (isName_axis a)
  obtain ⟨ops, hops, hop⟩ := exists_level op
  rcases hall op (List.mem_flatten_of_mem hops hop) with ⟨hletters, hnot⟩ | hstart
  · -- The longest run of name characters is the operator on one side and the axis on the other.
    have hsymbol : ∀ c ∈ op.symbol.toList, isNameChar c := fun c hc =>
      isNameChar_of_isNameStart (List.all_eq_true.mp hletters c hc)
    have hrun : op.symbol.toList = a.name.toList := by
      rw [← takeWhile_append_stops hsymbol (hword hletters), heq,
        takeWhile_append_stops hchars (stops_cons.mpr (by decide))]
    exact hnot (hrun ▸ List.mem_map_of_mem (by cases a <;> decide))
  · obtain ⟨d, w, hsymbol, -, -⟩ := exists_symbol op
    rw [hsymbol] at hstart heq
    rw [ha] at heq
    obtain rfl : d = c := (List.cons.inj heq).1
    rw [List.head?_cons, Option.any_some, hc] at hstart
    cases hstart

/-- What has been read before an operator does not run on into it. -/
theorem Ending.Left.clear {ending : Ending} {op : Operator} {u : List Char} {b : Gap}
    (h : ending.Left (b.1 ++ (op.symbol.toList ++ u))) (hword : op.IsWord → Stops isNameChar u) :
    ending.Clear (b.1 ++ op.symbol.toList) := by
  cases ending with
  | closed => trivial
  | name =>
    rw [← List.append_assoc] at h
    exact stops_of_append h
  | slash =>
    obtain ⟨b, hb⟩ := b
    cases b with
    | cons c b =>
      refine stops_cons.mpr ?_
      rcases isBlank_cases (hb c List.mem_cons_self) with rfl | rfl | rfl | rfl <;> decide
    | nil =>
      obtain ⟨t, ht⟩ := h
      obtain ⟨rfl, hnone⟩ := stepHead_eq_error ht
      rw [List.nil_append, axis_operator hword] at hnone
      exact stops_of_append (stops_of_nodeTest_none hnone)

/-- A left operand, an operator and a right operand. -/
theorem Writes.binary {op : Operator} {left right : Expr} {b : Gap} {u : List Char}
    (hleft : Writes op.level s left (b.1 ++ (op.symbol.toList ++ u))) (hword : op.IsWord → Stops isNameChar u)
    (hright : Writes (op.level + 1) u right rest) : Writes op.level s (.binary op left right) rest := by
  obtain ⟨b₀, l, b₁, hl, hlevel, hclear, rfl, rfl⟩ := hleft
  obtain ⟨b₂, r, b₃, hr, hlevel', hend, rfl, rfl⟩ := hright
  have hnext : b₁.1 ++ (b.1 ++ (op.symbol.toList ++ (b₂.1 ++ (r.text ++ (b₃.1 ++ rest))))) =
      (b₁.append b).1 ++ (op.symbol.toList ++ (b₂.1 ++ (r.text ++ (b₃.1 ++ rest)))) :=
    (List.append_assoc ..).symm
  rw [hnext] at hclear ⊢
  have happly : (Phrase.binary op l (b₁.append b) b₂ r).WellFormed := by
    refine ⟨hlevel, hlevel', hclear.clear hword, fun hop => ?_, hl, hr⟩
    have hstops := hword hop
    rw [← List.append_assoc] at hstops
    exact stops_of_append hstops
  refine ⟨b₀, .binary op l (b₁.append b) b₂ r, b₃, happly, Nat.le_refl _, hend, by simp [Phrase.text], ?_⟩
  have hmore : ((b₁.append b).1 ++ (op.symbol.toList ++ (b₂.1 ++ (r.text ++ (b₃.1 ++ rest))))).isEmpty = false := by
    obtain ⟨c, v, hsymbol, -, -⟩ := exists_symbol op
    simp [hsymbol]
  rw [hmore, Phrase.expr]

section Levels

variable {read : List Char → Reading Expr} {ops : List Operator} {j : Nat}

/-- Whether all that a level of readers gives is written by phrases of a level or tighter ones. -/
def RecognizesFrom (j : Nat) (read : List Char → Reading Expr) : Prop :=
  ∀ s e rest, read s = .ok (e, rest) → Writes j s e rest

theorem Writes.skip {b : Gap} (h : Writes j s e rest) : Writes j (b.1 ++ s) e rest := by
  obtain ⟨b₀, c, b', hc, hlevel, hleft, rfl, he⟩ := h
  exact ⟨b.append b₀, c, b', hc, hlevel, hleft, by simp [Gap.append], he⟩

theorem nextOperand_recognized {op : Operator} (hread : RecognizesFrom j read)
    (h : nextOperand ops read s = some ((op, e), rest)) :
    op ∈ ops ∧ ∃ (b : Gap) (u : List Char), s = b.1 ++ (op.symbol.toList ++ u) ∧
      (op.IsWord → Stops isNameChar u) ∧ Writes j u e rest := by
  obtain ⟨⟨o, r⟩, hop, h⟩ := Option.bind_eq_some_iff.mp h
  obtain ⟨⟨right, r'⟩, hright, heq⟩ := Option.bind_eq_some_iff.mp h
  cases heq
  obtain ⟨b, b', u, rfl, hfind⟩ := padded_recognized hop
  obtain ⟨op', hmem, hop'⟩ := List.exists_of_findSome?_eq_some hfind
  obtain ⟨rfl, rfl, hword⟩ := operator_recognized hop'
  exact ⟨hmem, b, _, rfl, hword, (hread _ _ _ (optional_eq_some.mp hright)).skip⟩

/-- The operators of a level are applied from left to right to what the tighter level reads. -/
theorem recognizesFrom_chain {o : Operator} (hops : ops ∈ allLevels) (ho : o ∈ ops)
    (hread : RecognizesFrom (o.level + 1) read) : RecognizesFrom o.level (chain ops read) := by
  have hcontinued (more : List (Operator × Expr)) (s r : List Char) (left : Expr) (rest : List Char)
      (hleft : Writes o.level s left r) (hmany : many (nextOperand ops read) r = (more, rest)) :
      Writes o.level s (more.foldl (fun left next => .binary next.1 left next.2) left) rest := by
    induction more generalizing r left with
    | nil =>
      obtain rfl := many_eq_nil hmany
      exact hleft
    | cons next more ih =>
      obtain ⟨r', hnext, hmore⟩ := many_eq_cons hmany
      obtain ⟨hmem, b, u, rfl, hword, hright⟩ := nextOperand_recognized hread hnext
      have hlevel := (mem_level_iff hops ho).mp hmem
      rw [← hlevel] at hleft hright
      exact ih r' _ (hlevel ▸ hleft.binary hword hright) hmore
  intro s e rest h
  obtain ⟨⟨first, r⟩, hfirst, -⟩ := except_map_eq_ok.mp h
  rw [chain_eq hfirst] at h
  cases h
  exact hcontinued _ s r first _ ((hread s first r hfirst).mono (Nat.le_succ o.level)) rfl

theorem recognizesFrom_signed (hread : RecognizesFrom (minusLevel + 1) read) :
    RecognizesFrom minusLevel (signed read) := by
  have hsigns (signs : List Unit) (s r : List Char) (e : Expr) (rest : List Char)
      (hmany : many (padded (symbol '-')) s = (signs, r)) (hr : Writes minusLevel r e rest) :
      Writes minusLevel s (signs.foldr (fun _ e => .negate e) e) rest := by
    induction signs generalizing s with
    | nil =>
      obtain rfl := many_eq_nil hmany
      exact hr
    | cons sign signs ih =>
      obtain ⟨s', hminus, hmore⟩ := many_eq_cons hmany
      obtain ⟨b, b', rfl⟩ := padded_symbol_recognized hminus
      obtain ⟨b₁, c, b₂, hc, hlevel, hleft, rfl, he⟩ := ih s' hmore
      refine ⟨b, .negate (b'.append b₁) c, b₂, ⟨hlevel, hc⟩, Nat.le_refl _, hleft, ?_, ?_⟩
      · simp [Phrase.text, Gap.append]
      · rw [List.foldr_cons, he, Phrase.expr]
  intro s e rest h
  obtain ⟨⟨operand, r⟩, hoperand, heq⟩ := except_map_eq_ok.mp h
  cases heq
  exact hsigns _ s _ operand _ rfl ((hread _ _ _ hoperand).mono (Nat.le_succ minusLevel))

theorem recognizesFrom_levels {n : Nat} (hinner : Recognizes (within n)) :
    RecognizesFrom 0 (layered (signed (chain [.union] (operand (within n)))) levels) :=
  levels_induction (motive := RecognizesFrom) (fun _ _ _ => operand_recognized hinner) recognizesFrom_chain
    recognizesFrom_signed

end Levels

theorem recognizes_within (n : Nat) : Recognizes (within n) := by
  -- The reader of a text reads what is nested in it as a shorter text.
  induction n using Nat.strongRecOn with
  | ind n ih =>
    intro s e rest h
    rw [within] at h
    split at h
    · next hs =>
      rw [← optional, optional_eq_some, expression_eq] at h
      exact recognizesFrom_levels (ih s.length hs) s e rest h
    · cases h

/-- What is read of a text is the text of a phrase, and the expression of the phrase comes out. -/
theorem expression_recognized (h : expression s = .ok (e, rest)) : Writes 0 s e rest := by
  rw [expression_eq] at h
  exact recognizesFrom_levels (recognizes_within s.length) s e rest h

end XmlMapping.XPath
