import XmlMapping.Proofs.XPath.Recognition

/-!
# What is written is read

Every well-formed phrase is read as its expression, wherever it stands before an operator or what closes an
expression. Together with the recognition of all that is read this makes the texts of well-formed phrases, with
white space around them, exactly those that hold an expression.
-/

namespace XmlMapping.XPath

open Text

variable {inner : Reader Expr} {n : Nat} {r s t u w : List Char} {e : Expr} {c : Phrase} {x : Char}

/-! ### What comes after a phrase -/

/-- What can come after an expression, blanks aside: what closes it and what begins an operator. -/
def followers : List Char :=
  closers ++ ['o', 'a', '!', '=', '<', '>', '+', '-', '*', 'd', 'm', '|']

/-- What can come after the words of a step. -/
def stepFollowers : List Char :=
  '[' :: '/' :: followers

theorem Ending.Clear.append {ending : Ending} (h : ending.Clear s) (hs : s ≠ []) : ending.Clear (s ++ t) := by
  cases ending with
  | closed => trivial
  | name => exact h.append_of_ne_nil hs
  | slash => exact h.append_of_ne_nil hs

/-- No phrase runs on into a bracket, a parenthesis, a comma, a slash or a blank. -/
theorem Ending.clear_of_before {ending : Ending} (h : Before stepClosers r) : ending.Clear r := by
  cases ending with
  | closed => trivial
  | name => exact h.stops (by decide)
  | slash => exact h.stops (by decide)

theorem skipBlanks_gap (b : Gap) (hx : isBlank x = false) : skipBlanks (b.1 ++ x :: r) = x :: r := by
  rw [skipBlanks_append b.2, skipBlanks_cons hx]

theorem Phrase.skipBlanks_gap (hc : c.WellFormed) (b : Gap) : skipBlanks (b.1 ++ (c.text ++ r)) = c.text ++ r := by
  rw [skipBlanks_append b.2, (c.begins hc).skipBlanks_append]

theorem before_gap {cs : List Char} (b : Gap) (hx : isBlank x = false) (h : x ∈ cs) : Before cs (b.1 ++ x :: r) :=
  before_append b.2 (before_cons hx h)

/-! ### Node tests and axes -/

theorem text_kind (k : KindTest) (gap inside : Gap) :
    (WrittenTest.kind k gap inside).text ++ r = k.name.toList ++ (gap.1 ++ '(' :: (inside.1 ++ ')' :: r)) := by
  simp [WrittenTest.text]

theorem kindTest_written (k : KindTest) (gap inside : Gap) :
    kindTest ((WrittenTest.kind k gap inside).text ++ r) = some (.kind k, r) := by
  have hfind (u : List Char) :
      KindTest.all.findSome? (fun k' => (after? k'.name.toList (k.name.toList ++ u)).map (k', ·)) = some (k, u) := by
    cases k <;> rfl
  have hopen : padded (symbol '(') (gap.1 ++ '(' :: (inside.1 ++ ')' :: r)) = some ((), ')' :: r) := by
    rw [padded_symbol (skipBlanks_gap gap (by decide)), skipBlanks_gap inside (by decide)]
  rw [text_kind, kindTest, hfind]
  simp [hopen]

theorem nodeTest_written (w : WrittenTest) (hr : Before stepFollowers r) (hclear : w.ending.Clear r) :
    nodeTest (w.text ++ r) = some (w.test, r) := by
  cases w with
  | name q => exact nodeTest_name q.2 hclear (hr.stops (by decide)) (hr.avoids (by decide))
  | anyIn p =>
    obtain ⟨x, v, hp, hx, hchars⟩ := isName_eq_cons p.2
    have hstar : symbol '*' (p.1.toList ++ ':' :: '*' :: r) = none := by
      rw [hp]
      exact symbol_star_none hx
    have htext : (WrittenTest.anyIn p).text ++ r = p.1.toList ++ ':' :: '*' :: r := by simp [WrittenTest.text]
    rw [htext, nodeTest, hstar, kindTest_colon hchars, anyInTest_append p.2]
    rfl
  | any => rfl
  | kind k gap inside =>
    have hkind := kindTest_written (r := r) k gap inside
    obtain ⟨x, v, hk, hx, -⟩ := isName_eq_cons (isName_kind k)
    have hstar : symbol '*' ((WrittenTest.kind k gap inside).text ++ r) = none := by
      rw [WrittenTest.text, hk]
      exact symbol_star_none hx
    rw [nodeTest, hstar, hkind]
    rfl

/-- A run of name characters is no axis unless two colons follow it. -/
theorem axis_none_of_run (hw : ∀ c ∈ w, isNameChar c) (hr : Stops isNameChar r) (hcolons : ∀ u, r ≠ ':' :: ':' :: u) :
    axis (w ++ r) = none := by
  rw [Option.eq_none_iff_forall_ne_some]
  rintro ⟨a, u⟩ haxis
  have heq := axis_recognized haxis
  obtain ⟨-, -, -, -, ha⟩ := isName_eq_cons (isName_axis a)
  have hstop : Stops isNameChar (':' :: ':' :: u) := stops_cons.mpr (by decide)
  refine hcolons u ?_
  rw [← dropWhile_append_stops hw hr, heq, dropWhile_append_stops ha hstop]

/-- A node test is no axis, also when its name is that of one. -/
theorem axis_written (w : WrittenTest) (hr : Before stepFollowers r) (hclear : w.ending.Clear r) :
    axis (w.text ++ r) = none := by
  cases w with
  | name q =>
    obtain ⟨⟨_ | p, l⟩, hq⟩ := q
    · obtain ⟨-, -, -, -, hl⟩ := isName_eq_cons hq.2
      rw [WrittenTest.text, QName.toList_text]
      exact axis_none hl hclear (hr.stops (by decide))
    · obtain ⟨-, -, -, -, hp⟩ := isName_eq_cons (hq.1 p rfl)
      obtain ⟨x, v, hl, hx, -⟩ := isName_eq_cons hq.2
      rw [WrittenTest.text, QName.toList_text, List.append_assoc]
      refine axis_none_of_run hp (stops_cons.mpr (by decide)) fun u hu => ?_
      have hcolon : x = ':' := by
        simp only at hl
        rw [hl] at hu
        exact (List.cons.inj (List.cons.inj hu).2).1
      exact ne_of_isNameStart hx (by decide) hcolon
  | anyIn p =>
    obtain ⟨-, -, -, -, hp⟩ := isName_eq_cons p.2
    rw [WrittenTest.text, List.append_assoc]
    exact axis_none_of_run hp (stops_cons.mpr (by decide)) (by simp)
  | any => exact axis_none_of_run (w := []) (by simp) (stops_cons.mpr (by decide)) (by simp)
  | kind k gap inside =>
    obtain ⟨-, -, -, -, hk⟩ := isName_eq_cons (isName_kind k)
    have hopen : Before ['('] (gap.1 ++ '(' :: (inside.1 ++ ')' :: r)) := before_gap gap (by decide) List.mem_cons_self
    rw [text_kind]
    exact axis_none hk (hopen.stops (by decide)) (hopen.stops (by decide))

theorem stepHead_test {a : Axis} {test : NodeTest} {x : Char} {v : List Char} (hx : x ≠ '.') (hx' : x ≠ '@')
    (haxis : (axis (x :: v)).getD (.child, x :: v) = (a, t)) (htest : nodeTest t = some (test, r)) :
    stepHead (x :: v) = .ok ((a, test), r) := by
  simp [stepHead, hx, hx', haxis, htest]

theorem stepHead_written (h : Head) (hr : Before stepFollowers r) (hclear : h.ending.Clear r) :
    stepHead (h.text ++ r) = .ok (h.meaning, r) := by
  cases h with
  | full a w =>
    have hform : (Head.full a w).text ++ r = a.name.toList ++ ':' :: ':' :: (w.text ++ r) := by simp [Head.text]
    have haxis := axis_append (r := w.text ++ r) a
    obtain ⟨x, v, ha, hx, -⟩ := isName_eq_cons (isName_axis a)
    rw [hform]
    rw [ha, List.cons_append] at haxis ⊢
    exact stepHead_test (ne_of_isNameStart hx (by decide)) (ne_of_isNameStart hx (by decide)) (by rw [haxis]; rfl)
      (nodeTest_written w hr hclear)
  | child w =>
    have haxis := axis_written w hr hclear
    have htest := nodeTest_written w hr hclear
    obtain ⟨x, v, hw, hx⟩ := w.exists_head
    have hother : x ≠ '.' ∧ x ≠ '@' := by
      rcases hx with hx | rfl
      · exact ⟨ne_of_isNameStart hx (by decide), ne_of_isNameStart hx (by decide)⟩
      · decide
    rw [Head.text]
    rw [hw, List.cons_append] at haxis htest ⊢
    exact stepHead_test hother.1 hother.2 (by rw [haxis]; rfl) htest
  | ofAttribute w =>
    have htest := nodeTest_written w hr hclear
    simp [Head.text, stepHead, htest, Head.meaning]
  | self =>
    have hpoint : Stops (· == '.') r := hr.stops (by decide)
    cases r with
    | nil => rfl
    | cons y r =>
      have hy : y ≠ '.' := by simpa using hpoint
      simp [Head.text, stepHead, hy, Head.meaning]
  | parent => rfl

/-! ### Predicates and steps -/

/-- Whether a reader of inner expressions reads phrases in texts shorter than a bound before what closes them. -/
def Rereads (inner : Reader Expr) (n : Nat) : Prop :=
  ∀ (c : Phrase) (s r : List Char), c.WellFormed → skipBlanks s = c.text ++ r → Before closers r → r ≠ [] →
    s.length < n → ∃ r', inner s = some (c.expr false, r') ∧ Remains r r'

/-- Between brackets an inner expression is read up to the closing one. -/
theorem Rereads.up_to (hinner : Rereads inner n) (hc : c.WellFormed) (after : Gap) (hx : x ∈ closers)
    (hs : skipBlanks s = c.text ++ (after.1 ++ x :: r)) (hlen : s.length < n) :
    ∃ r', inner s = some (c.expr false, r') ∧ skipBlanks r' = x :: r ∧ r'.length ≤ s.length := by
  have hall : ∀ y ∈ closers, isBlank y = false := by simp [closers, isBlank]
  obtain ⟨r', hread, hremains⟩ := hinner c s _ hc hs (before_gap after (hall x hx) hx) (by simp) hlen
  refine ⟨r', hread, hremains.skipBlanks_eq.trans (XPath.skipBlanks_gap after (hall x hx)), ?_⟩
  have hs := length_le_of_skipBlanks hs
  have hr' := hremains.length_le
  rw [List.length_append] at hs
  omega

section Nested

variable (hinner : Rereads inner n)

include hinner

theorem predicate_written (hc : c.WellFormed) (before after : Gap)
    (hs : skipBlanks s = '[' :: (before.1 ++ (c.text ++ (after.1 ++ ']' :: r)))) (hlen : s.length ≤ n) :
    predicate inner s = some (c.expr false, skipBlanks r) := by
  have hopen := padded_symbol hs
  rw [c.skipBlanks_gap hc before] at hopen
  have hshort : (c.text ++ (after.1 ++ ']' :: r)).length < n := by
    have := length_le_of_skipBlanks hs
    simp only [List.length_cons, List.length_append] at this ⊢
    omega
  obtain ⟨r', hread, hclose, -⟩ :=
    hinner.up_to hc after (by decide) (c.begins hc).skipBlanks_append hshort
  simp [predicate, hopen, hread, padded_symbol hclose]

theorem many_predicate_written : ∀ (ps : Predicates) {s r : List Char}, ps.WellFormed →
    skipBlanks s = skipBlanks (ps.text ++ r) → Avoids '[' r → s.length ≤ n →
      many (predicate inner) s = (ps.exprs, if ps.isNil then s else skipBlanks r)
  | .nil, s, r, _, hs, hr, _ => many_none (predicate_none (by rwa [Avoids, hs]))
  | .cons gap before c after more, s, r, ⟨hc, hmore⟩, hs, hr, hlen => by
    have hopen : skipBlanks s = '[' :: (before.1 ++ (c.text ++ (after.1 ++ ']' :: (more.text ++ r)))) := by
      rw [hs]
      simp [Predicates.text, skipBlanks_gap gap (x := '[') (by decide)]
    have hfirst := predicate_written hinner hc before after hopen hlen
    have hshort : (skipBlanks (more.text ++ r)).length < s.length := by
      have hs := length_le_of_skipBlanks hopen
      have hmore := length_skipBlanks_le (s := more.text ++ r)
      simp only [List.length_append, List.length_cons] at hs hmore
      omega
    have hrest := many_predicate_written more hmore skipBlanks_skipBlanks hr
      (Nat.le_trans (Nat.le_of_lt hshort) hlen)
    rw [many_some hfirst hshort, hrest]
    cases more <;> rfl

omit hinner in
theorem before_predicates_written (ps : Predicates) (hr : Before ('/' :: followers) r) :
    Before stepFollowers (ps.text ++ r) := by
  cases ps with
  | nil => exact hr.mono (by decide)
  | cons gap before c after more =>
    rw [Predicates.text, List.append_assoc]
    exact before_gap gap (by decide) (by decide)

omit hinner in
theorem before_steps_written (ss : MoreSteps) (hr : Before followers r) : Before ('/' :: followers) (ss.text ++ r) := by
  cases ss with
  | nil => exact hr.mono (by decide)
  | cons gap double head predicates more =>
    have hslash (u : List Char) : Before ('/' :: followers) (gap.1 ++ (slashText double ++ u)) := by
      cases double <;> exact before_gap gap (by decide) List.mem_cons_self
    rw [MoreSteps.text, List.append_assoc, List.append_assoc]
    exact hslash _

omit hinner in
theorem Predicates.clear_before (ps : Predicates) {ending : Ending} (h : (ps.endingAfter ending).Clear r) :
    ending.Clear (ps.text ++ r) := by
  cases ps with
  | nil => exact h
  | cons gap before c after more =>
    rw [Predicates.text, List.append_assoc]
    exact Ending.clear_of_before (before_gap gap (by decide) (by decide))

omit hinner in
theorem MoreSteps.clear_before (ss : MoreSteps) {ending : Ending} (h : (ss.endingAfter ending).Clear r) :
    ending.Clear (ss.text ++ r) := by
  cases ss with
  | nil => exact h
  | cons gap double head predicates more =>
    have hslash (u : List Char) : Before stepClosers (gap.1 ++ (slashText double ++ u)) := by
      cases double <;> exact before_gap gap (by decide) (by decide)
    rw [MoreSteps.text, List.append_assoc, List.append_assoc]
    exact Ending.clear_of_before (hslash _)

theorem step_written (hd : Head) {ps : Predicates} (hps : ps.WellFormed) (hr : Before ('/' :: followers) r)
    (hclear : (ps.endingAfter hd.ending).Clear r) (hlen : (hd.text ++ (ps.text ++ r)).length ≤ n) :
    step inner (hd.text ++ (ps.text ++ r)) = .ok (hd.step ps.exprs, if ps.isNil then r else skipBlanks r) := by
  have hhead := stepHead_written hd (before_predicates_written ps hr) (ps.clear_before hclear)
  have hshort : (ps.text ++ r).length ≤ n := by
    simp only [List.length_append] at hlen ⊢
    omega
  have hmany := many_predicate_written hinner ps hps rfl (hr.avoids (by decide)) hshort
  rw [step, hhead]
  simp only [Except.map, hmany, Head.step]
  cases ps <;> rfl

omit hinner in
theorem slashes_written (double : Bool) (hd : Head) :
    slashes (slashText double ++ (hd.text ++ r)) = some (double, hd.text ++ r) := by
  obtain ⟨x, v, htext, -, hx⟩ := hd.opens
  rw [htext]
  cases double with
  | false => exact slashes_one fun y hy => by obtain rfl := Option.some.inj hy; exact hx
  | true => rfl

omit hinner in
theorem furtherSteps_some {x : Step} {double : Bool} (h : slashes s = some (double, t))
    (hstep : step inner t = .ok (x, r)) (hlen : r.length < s.length) :
    furtherSteps inner s = (expandSlashes double x ++ (furtherSteps inner r).1, (furtherSteps inner r).2) := by
  rw [furtherSteps, many_some (a := expandSlashes double x) (r := r) (by simp [h, hstep, Except.toOption]) hlen]
  rfl

omit hinner in
/-- The rest after predicates, which take the blanks after them. -/
theorem length_rest_le (ps : Predicates) (u : List Char) :
    (if ps.isNil then u else skipBlanks u).length ≤ u.length := by
  split
  · exact Nat.le_refl _
  · exact length_skipBlanks_le

theorem furtherSteps_written : ∀ (ss : MoreSteps) (room : Bool) (ending : Ending) {s r : List Char},
    ss.WellFormed room → (s = skipBlanks (ss.text ++ r) ∨ room = false ∧ s = ss.text ++ r) → Before followers r →
      (ss.endingAfter ending).Clear r → s.length ≤ n →
        ∃ r', furtherSteps inner s = (ss.steps, r') ∧ Remains r r'
  | .nil, _, _, s, r, _, hs, hr, _, _ => by
    have hs' : Remains r s := by
      rcases hs with rfl | ⟨-, rfl⟩
      · exact Or.inr rfl
      · exact Or.inl rfl
    have hslash : ∀ c ∈ s.head?, c ≠ '/' := fun c hc => by
      have hstop : Stops (· == '/') s := (hr.remains hs').stops (by decide)
      simpa using hstop c hc
    exact ⟨s, furtherSteps_none (slashes_none hslash), hs'⟩
  | .cons gap double hd ps more, room, _, s, r, ⟨hroom, hps, hmore⟩, hs, hr, hclear, hlen => by
    -- Blanks in front of the slash come after something that has taken them already.
    have hs' : s = slashText double ++ (hd.text ++ (ps.text ++ (more.text ++ r))) := by
      have hskip (u : List Char) : skipBlanks (gap.1 ++ (slashText double ++ u)) = slashText double ++ u := by
        cases double <;> exact skipBlanks_gap gap (by decide)
      rcases hs with rfl | ⟨rfl, rfl⟩
      · simp [MoreSteps.text, hskip]
      · have hnone : gap.1 = [] := Decidable.byContradiction fun h => Bool.false_ne_true (hroom h)
        simp [MoreSteps.text, hnone]
    have hslash : slashes s = some (double, hd.text ++ (ps.text ++ (more.text ++ r))) := by
      rw [hs']
      exact slashes_written double hd
    have hslen : (slashText double).length ≠ 0 := by cases double <;> decide
    have hshort : (hd.text ++ (ps.text ++ (more.text ++ r))).length < s.length := by
      simp only [hs', List.length_append]
      omega
    have hstep := step_written hinner hd hps (before_steps_written more hr) (more.clear_before hclear)
      (Nat.le_trans (Nat.le_of_lt hshort) hlen)
    have hle : (if ps.isNil then more.text ++ r else skipBlanks (more.text ++ r)).length < s.length := by
      have hrest := length_rest_le ps (more.text ++ r)
      simp only [List.length_append] at hshort hrest
      omega
    obtain ⟨r', hfurther, hremains⟩ := furtherSteps_written more (!ps.isNil) (ps.endingAfter hd.ending) hmore
      (by cases ps <;> simp [Predicates.isNil]) hr hclear (Nat.le_trans (Nat.le_of_lt hle) hlen)
    exact ⟨r', by rw [furtherSteps_some hslash hstep hle, hfurther, MoreSteps.steps], hremains⟩

/-- The first step of a path and the steps after it. -/
theorem firstSteps_written (hd : Head) {ps : Predicates} {more : MoreSteps} (hps : ps.WellFormed)
    (hmore : more.WellFormed (!ps.isNil)) (hr : Before followers r)
    (hclear : (more.endingAfter (ps.endingAfter hd.ending)).Clear r)
    (hlen : (hd.text ++ (ps.text ++ (more.text ++ r))).length ≤ n) :
    ∃ t, step inner (hd.text ++ (ps.text ++ (more.text ++ r))) = .ok (hd.step ps.exprs, t) ∧
      ∃ r', furtherSteps inner t = (more.steps, r') ∧ Remains r r' := by
  have hstep := step_written hinner hd hps (before_steps_written more hr) (more.clear_before hclear) hlen
  have hle : (if ps.isNil then more.text ++ r else skipBlanks (more.text ++ r)).length ≤ n := by
    have hrest := length_rest_le ps (more.text ++ r)
    simp only [List.length_append] at hlen hrest
    omega
  exact ⟨_, hstep, furtherSteps_written hinner more _ _ hmore (by cases ps <;> simp [Predicates.isNil]) hr hclear hle⟩

/-! ### Primary expressions -/

omit hinner in
theorem MoreArguments.exists_closer (as : MoreArguments) (r : List Char) :
    ∃ x v, as.text ++ ')' :: r = x :: v ∧ x ∈ closers := by
  cases as with
  | nil => exact ⟨')', r, rfl, by decide⟩
  | cons => exact ⟨',', _, rfl, by decide⟩

/-- An argument is read up to the comma or the parenthesis after it. -/
theorem argument_written (hc : c.WellFormed) (after : Gap) (as : MoreArguments)
    (hs : skipBlanks s = c.text ++ (after.1 ++ (as.text ++ ')' :: r))) (hlen : s.length < n) :
    ∃ r', inner s = some (c.expr false, r') ∧ skipBlanks r' = as.text ++ ')' :: r ∧ r'.length ≤ s.length := by
  obtain ⟨x, v, hx, hmem⟩ := as.exists_closer r
  rw [hx] at hs ⊢
  exact hinner.up_to hc after hmem hs hlen

theorem many_nextArgument_written : ∀ (as : MoreArguments) {s r : List Char}, as.WellFormed →
    skipBlanks s = as.text ++ ')' :: r → s.length ≤ n →
      ∃ r', many (nextArgument inner) s = (as.exprs, r') ∧ skipBlanks r' = ')' :: r
  | .nil, s, r, _, hs, _ => by
    have hcomma : padded (symbol ',') s = none := padded_none (symbol_none (by simp [hs, MoreArguments.text]))
    exact ⟨s, many_none (by simp [nextArgument, hcomma]), hs⟩
  | .cons before c after more, s, r, ⟨hc, hmore⟩, hs, hlen => by
    have hs' : skipBlanks s = ',' :: (before.1 ++ (c.text ++ (after.1 ++ (more.text ++ ')' :: r)))) := by
      simpa [MoreArguments.text] using hs
    have hcomma := padded_symbol hs'
    rw [c.skipBlanks_gap hc before] at hcomma
    have hshort : (c.text ++ (after.1 ++ (more.text ++ ')' :: r))).length < s.length := by
      have := length_le_of_skipBlanks hs'
      rw [List.length_cons, List.length_append] at this
      omega
    obtain ⟨r₁, hread, hend, hle⟩ := argument_written hinner hc after more (c.begins hc).skipBlanks_append
      (Nat.lt_of_lt_of_le hshort hlen)
    have hfirst : nextArgument inner s = some (c.expr false, r₁) := by simp [nextArgument, hcomma, hread]
    have hless : r₁.length < s.length := Nat.lt_of_le_of_lt hle hshort
    obtain ⟨r', hrest, hclose⟩ :=
      many_nextArgument_written more hmore hend (Nat.le_trans (Nat.le_of_lt hless) hlen)
    exact ⟨r', by rw [many_some hfirst hless, hrest, MoreArguments.exprs], hclose⟩

omit hinner in
/-- A name and the parentheses after it are a call of what is read between them. -/
theorem call_of_arguments (f : Callable) (gap : Gap) {as : List Expr}
    (hargs : arguments inner (skipBlanks u) = (as, t)) (hclose : skipBlanks t = ')' :: r) :
    call inner (f.1.text.toList ++ (gap.1 ++ '(' :: u)) = some (.call f.1 as, skipBlanks r) := by
  have hbefore : Before ['('] (gap.1 ++ '(' :: u) := before_gap gap (by decide) List.mem_cons_self
  have hname := qName_append f.2.1 (hbefore.stops (by decide)) (hbefore.stops (by decide))
  have hopen : padded (symbol '(') (gap.1 ++ '(' :: u) = some ((), skipBlanks u) :=
    padded_symbol (skipBlanks_gap gap (by decide))
  simp [call, hname, f.2.2, hopen, hargs, padded_symbol hclose]

omit hinner in
theorem primary_of_call (f : Callable) (gap : Gap) (hs : skipBlanks s = f.1.text.toList ++ (gap.1 ++ '(' :: u))
    (h : call inner (f.1.text.toList ++ (gap.1 ++ '(' :: u)) = some (e, r)) :
    primary inner s = some (e, skipBlanks r) := by
  obtain ⟨c, v, htext, hc⟩ := f.2.1.exists_head
  apply padded_some
  rw [hs]
  rw [htext, List.cons_append] at h ⊢
  obtain ⟨hnumber, hliteral⟩ := number_literal_none hc (s := v ++ (gap.1 ++ '(' :: u))
  rw [hnumber, hliteral, h]
  rfl

theorem primary_written (hclose : ∀ r, inner (')' :: r) = none) (p : Primary) (hp : p.WellFormed)
    (hs : skipBlanks s = p.text ++ r) (hr : Before stepFollowers r) (hlen : s.length ≤ n) :
    primary inner s = some (p.expr r.isEmpty, skipBlanks r) := by
  have hle := length_le_of_skipBlanks hs
  cases p with
  | number m => exact primary_number hs (hr.stops (by decide)) (hr.stops (by decide))
  | literal q => exact primary_literal q.isQuote q.closed (by simpa [Primary.text] using hs)
  | callEmpty f gap inside =>
    have hs' : skipBlanks s = f.1.text.toList ++ (gap.1 ++ '(' :: (inside.1 ++ ')' :: r)) := by
      simpa [Primary.text] using hs
    have hnone : arguments inner (skipBlanks (inside.1 ++ ')' :: r)) = ([], ')' :: r) := by
      rw [skipBlanks_gap inside (by decide), arguments_none (hclose r)]
    have hcall := call_of_arguments f gap hnone (skipBlanks_cons (by decide))
    rw [primary_of_call f gap hs' hcall, skipBlanks_skipBlanks]
    rfl
  | call f gap before first after more =>
    obtain ⟨hfirst, hmore⟩ := hp
    have hs' : skipBlanks s = f.1.text.toList ++
        (gap.1 ++ '(' :: (before.1 ++ (first.text ++ (after.1 ++ (more.text ++ ')' :: r))))) := by
      simpa [Primary.text] using hs
    have hshort : (first.text ++ (after.1 ++ (more.text ++ ')' :: r))).length < n := by
      have := length_le_of_skipBlanks hs'
      simp only [List.length_append, List.length_cons] at this ⊢
      omega
    obtain ⟨r₁, hread, hend, hle₁⟩ :=
      argument_written hinner hfirst after more (first.begins hfirst).skipBlanks_append hshort
    obtain ⟨r₂, hrest, hlast⟩ :=
      many_nextArgument_written hinner more hmore hend (Nat.le_trans hle₁ (Nat.le_of_lt hshort))
    have hargs : arguments inner (skipBlanks (before.1 ++ (first.text ++ (after.1 ++ (more.text ++ ')' :: r))))) =
        (first.expr false :: more.exprs, r₂) := by
      rw [first.skipBlanks_gap hfirst, arguments_some hread, hrest]
    rw [primary_of_call f gap hs' (call_of_arguments f gap hargs hlast), skipBlanks_skipBlanks]
    rfl
  | group before content after =>
    have hs' : skipBlanks s = '(' :: (before.1 ++ (content.text ++ (after.1 ++ ')' :: r))) := by
      simpa [Primary.text] using hs
    have hshort : (before.1 ++ (content.text ++ (after.1 ++ ')' :: r))).length < n := by
      have := length_le_of_skipBlanks hs'
      rw [List.length_cons] at this
      omega
    obtain ⟨r₁, hread, hend, -⟩ := hinner.up_to hp after (by decide) (content.skipBlanks_gap hp before) hshort
    have hgroup : group inner ('(' :: (before.1 ++ (content.text ++ (after.1 ++ ')' :: r)))) =
        some (content.expr false, skipBlanks r) := by
      simp [group, hread, padded_symbol hend]
    rw [primary_of_group hs' hgroup, skipBlanks_skipBlanks]
    rfl

/-! ### Operands -/

omit hinner in
theorem group_none {v : List Char} (hx : x ≠ '(') : group inner (x :: v) = none := by
  simp [group, symbol, hx.symm]

omit hinner in
theorem primary_symbol {v : List Char} (hs : skipBlanks s = x :: v) (hx : x ∈ ['/', '*', '@', '.'])
    (hnumber : number (x :: v) = none) : primary inner s = none := by
  have hall : ∀ y ∈ ['/', '*', '@', '.'], y ≠ '\'' ∧ y ≠ '"' ∧ isNameStart y = false ∧ y ≠ '(' := by
    simp only [List.forall_mem_cons, List.not_mem_nil, false_implies, implies_true, and_true]
    decide
  obtain ⟨hquote, hquote', hstart, hparen⟩ := hall x hx
  have hliteral : literal (x :: v) = none := literal_none fun y hy => by
    obtain rfl := Option.some.inj hy
    exact ⟨hquote, hquote'⟩
  have hcall : call inner (x :: v) = none := call_none (stops_cons.mpr hstart)
  apply padded_none
  rw [hs, hnumber, hliteral, hcall, group_none hparen]
  rfl

omit hinner in
theorem number_symbol {v : List Char} (hx : x ∈ ['/', '*', '@']) : number (x :: v) = none := by
  have hall : ∀ y ∈ ['/', '*', '@'], y.isDigit = false ∧ y ≠ '.' := by simp
  exact number_none fun y hy => by obtain rfl := Option.some.inj hy; exact hall x hx

omit hinner in
theorem number_point_alone {v : List Char} (hv : Stops Char.isDigit v) : number ('.' :: v) = none := by
  have hwhole : digits ('.' :: v) = ([], '.' :: v) := digits_append (t := []) rfl (stops_cons.mpr (by decide))
  rw [number_point hwhole (digits_append (t := []) rfl hv), if_pos ⟨rfl, rfl⟩]

omit hinner in
/-- The name of a kind of nodes is not called, also where a parenthesis follows it. -/
theorem primary_kind (k : KindTest) (hs : skipBlanks s = k.name.toList ++ u) (hu : Before ['('] u) :
    primary inner s = none := by
  have hkind : namesKind ⟨none, k.name⟩ := by cases k <;> decide
  have hname := qName_append (q := ⟨none, k.name⟩) ⟨nofun, isName_kind k⟩ (hu.stops (by decide)) (hu.stops (by decide))
  rw [QName.toList_text] at hname
  have hcall : call inner (k.name.toList ++ u) = none := by simp [call, hname, hkind]
  obtain ⟨c, v, hk, hc, -⟩ := isName_eq_cons (isName_kind k)
  rw [hk, List.cons_append] at hs hcall
  obtain ⟨hnumber, hliteral⟩ := number_literal_none hc (s := v ++ u)
  apply padded_none
  rw [hs, hnumber, hliteral, hcall, group_none (ne_of_isNameStart hc (by decide))]
  rfl

omit hinner in
theorem primary_test (w : WrittenTest) (hs : skipBlanks s = w.text ++ r) (hr : Before stepFollowers r)
    (hclear : w.ending.Clear r) : primary inner s = none := by
  cases w with
  | name q =>
    have hname := qName_append q.2 hclear (hr.stops (by decide))
    obtain ⟨c, v, htext, hc⟩ := q.2.exists_head
    rw [WrittenTest.text] at hs
    rw [htext, List.cons_append] at hs hname
    exact primary_name hs hc hname (hr.avoids (by decide))
  | anyIn p =>
    have hname : qName (p.1.toList ++ ':' :: '*' :: r) = some (⟨none, p.1⟩, ':' :: '*' :: r) := by
      have hstar : name? ('*' :: r) = none := name?_of_stops (stops_cons.mpr (by decide))
      rw [qName, name?_append p.2 (stops_cons.mpr (by decide))]
      simp [hstar]
    have hopen : Avoids '(' (':' :: '*' :: r) := avoids_of_skipBlanks (skipBlanks_cons (by decide)) (by decide)
    obtain ⟨c, v, htext, hc, -⟩ := isName_eq_cons p.2
    rw [WrittenTest.text, List.append_assoc, htext, List.cons_append] at hs
    rw [htext, List.cons_append] at hname
    exact primary_name hs hc hname hopen
  | any => exact primary_symbol hs (by decide) (number_symbol (by decide))
  | kind k gap inside =>
    rw [text_kind] at hs
    exact primary_kind k hs (before_gap gap (by decide) List.mem_cons_self)

omit hinner in
/-- What begins a step is no primary expression. -/
theorem primary_head (hd : Head) (hs : skipBlanks s = hd.text ++ r) (hr : Before stepFollowers r)
    (hclear : hd.ending.Clear r) : primary inner s = none := by
  cases hd with
  | full a w => exact primary_axis (r := w.text ++ r) (by simpa [Head.text] using hs)
  | child w => exact primary_test w hs hr hclear
  | ofAttribute w => exact primary_symbol hs (by decide) (number_symbol (by decide))
  | self => exact primary_symbol hs (by decide) (number_point_alone (hr.stops (by decide)))
  | parent => exact primary_symbol hs (by decide) (number_point_alone (stops_cons.mpr (by decide)))

omit hinner in
theorem axis_stops (h : Stops isNameStart s) : axis s = none := by
  rw [Option.eq_none_iff_forall_ne_some]
  rintro ⟨a, u⟩ haxis
  obtain ⟨c, v, ha, hc, -⟩ := isName_eq_cons (isName_axis a)
  rw [axis_recognized haxis, ha, List.cons_append, stops_cons, hc] at h
  cases h

omit hinner in
/-- No step begins where neither a name nor a sign does that can begin one. -/
theorem stepHead_stops (h : Stops (fun c => isNameStart c || c == '*') s)
    (h' : Stops (fun c => c == '.' || c == '@') s) : stepHead s = .error s := by
  have hstart : Stops isNameStart s := h.mono fun c hc => by rw [hc]; rfl
  cases hstep : stepHead s with
  | ok read =>
    obtain ⟨head, rest⟩ := read
    obtain ⟨hd, -, rfl, -⟩ := stepHead_recognized hstep
    obtain ⟨x, v, htext, hx⟩ := hd.exists_head
    rw [htext, List.cons_append, stops_cons] at h h' hstart
    have hsign : x ∈ ['*', '@', '.'] := hx.resolve_left (by simp [hstart])
    have hall : ∀ y ∈ ['*', '@', '.'], (y == '*') = true ∨ (y == '.' || y == '@') = true := by simp
    rcases hall x hsign with hstar | hother
    · rw [hstar, Bool.or_true] at h
      cases h
    · rw [hother] at h'
      cases h'
  | error t =>
    obtain ⟨rfl, -⟩ := stepHead_eq_error hstep
    rw [axis_stops hstart]
    rfl

omit hinner in
theorem step_stops (h : stepHead s = .error t) : step inner s = .error t := by
  rw [step, h]
  rfl

omit hinner in
theorem head_ne_slash {cs : List Char} (hr : Before cs r) (hcs : (blankChars ++ cs).all (· != '/')) :
    ∀ c ∈ r.head?, c ≠ '/' := fun c hc => by
  have hstop : Stops (· == '/') r := hr.stops hcs
  simpa using hstop c hc

theorem locationPath_rooted (double : Bool) (hd : Head) {ps : Predicates} {more : MoreSteps} (hps : ps.WellFormed)
    (hmore : more.WellFormed (!ps.isNil)) (hr : Before followers r)
    (hclear : (more.endingAfter (ps.endingAfter hd.ending)).Clear r)
    (hlen : ((Phrase.rooted double hd ps more).text ++ r).length ≤ n) :
    ∃ r', locationPath inner ((Phrase.rooted double hd ps more).text ++ r) =
      .ok ((Phrase.rooted double hd ps more).expr r.isEmpty, r') ∧ Remains r r' := by
  have htext : (Phrase.rooted double hd ps more).text ++ r =
      slashText double ++ (hd.text ++ (ps.text ++ (more.text ++ r))) := by simp [Phrase.text]
  rw [htext] at hlen ⊢
  obtain ⟨t, hstep, r', hfurther, hremains⟩ := firstSteps_written hinner hd hps hmore hr hclear (by
    rw [List.length_append] at hlen
    omega)
  refine ⟨r', ?_, hremains⟩
  rw [locationPath, slashes_written double hd]
  simp [hstep, hfurther, Phrase.expr]

theorem locationPath_relative (hd : Head) {ps : Predicates} {more : MoreSteps} (hps : ps.WellFormed)
    (hmore : more.WellFormed (!ps.isNil)) (hr : Before followers r)
    (hclear : (more.endingAfter (ps.endingAfter hd.ending)).Clear r)
    (hlen : ((Phrase.relative hd ps more).text ++ r).length ≤ n) :
    ∃ r', locationPath inner ((Phrase.relative hd ps more).text ++ r) =
      .ok ((Phrase.relative hd ps more).expr r.isEmpty, r') ∧ Remains r r' := by
  have htext : (Phrase.relative hd ps more).text ++ r = hd.text ++ (ps.text ++ (more.text ++ r)) := by
    simp [Phrase.text]
  rw [htext] at hlen ⊢
  obtain ⟨t, hstep, r', hfurther, hremains⟩ := firstSteps_written hinner hd hps hmore hr hclear hlen
  have hslash : ∀ c ∈ (hd.text ++ (ps.text ++ (more.text ++ r))).head?, c ≠ '/' := by
    obtain ⟨x, v, hx, -, hne⟩ := hd.opens
    rw [hx]
    rintro c ⟨⟩
    exact hne
  refine ⟨r', ?_, hremains⟩
  rw [locationPath, slashes_none hslash]
  simp [hstep, hfurther, Except.map, Phrase.expr]

/-- A phrase without operators outside of brackets is read as an operand. -/
theorem operand_written (hclose : ∀ r, inner (')' :: r) = none) (hc : c.WellFormed) (hlevel : c.level = atomLevel)
    (hs : skipBlanks s = c.text ++ r) (hr : Before followers r) (hclear : c.ending.Clear r) (hlen : s.length ≤ n) :
    ∃ r', operand inner s = .ok (c.expr r.isEmpty, r') ∧ Remains r r' := by
  have hlocation {e : Expr} (hprimary : primary inner s = none)
      (h : ∃ r', locationPath inner (c.text ++ r) = .ok (e, r') ∧ Remains r r') :
      ∃ r', operand inner s = .ok (e, r') ∧ Remains r r' := by
    obtain ⟨r', hpath, hremains⟩ := h
    rw [← hs] at hpath
    exact ⟨skipBlanks r', operand_location hprimary hpath, Or.inr hremains.skipBlanks_eq⟩
  have hlen' : (c.text ++ r).length ≤ n := Nat.le_trans (length_le_of_skipBlanks hs) hlen
  cases c with
  | primary p ps ss =>
    obtain ⟨hp, hps, hss⟩ := hc
    have hs' : skipBlanks s = p.text ++ (ps.text ++ (ss.text ++ r)) := by simpa [Phrase.text] using hs
    have hnext : Before stepFollowers (ps.text ++ (ss.text ++ r)) :=
      before_predicates_written ps (before_steps_written ss hr)
    have hprimary := primary_written hinner hclose p hp hs' hnext hlen
    have hshort : (skipBlanks (ps.text ++ (ss.text ++ r))).length ≤ n :=
      Nat.le_trans (length_skipBlanks_append_le hs') hlen
    have hmany := many_predicate_written hinner ps hps skipBlanks_skipBlanks
      ((before_steps_written ss hr).avoids (by decide)) hshort
    have hrest : (if ps.isNil then skipBlanks (ps.text ++ (ss.text ++ r)) else skipBlanks (ss.text ++ r)) =
        skipBlanks (ss.text ++ r) := by cases ps <;> rfl
    rw [hrest] at hmany
    have hfiltered : filtered inner s =
        some (filteredBy (p.expr (ps.text ++ (ss.text ++ r)).isEmpty) ps.exprs, skipBlanks (ss.text ++ r)) := by
      simp [filtered, hprimary, hmany, filteredBy]
    have hshort' : (skipBlanks (ss.text ++ r)).length ≤ n := by
      have := length_skipBlanks_le (s := ss.text ++ r)
      simp only [Phrase.text, List.length_append] at hlen' this
      omega
    obtain ⟨r', hfurther, hremains⟩ :=
      furtherSteps_written hinner ss true .closed hss (Or.inl rfl) hr hclear hshort'
    refine ⟨r', ?_, hremains⟩
    rw [operand, hfiltered]
    simp only [hfurther]
    rw [Phrase.expr, continuedBy, isEmpty_append, isEmpty_append, ps.text_isEmpty, ss.text_isEmpty, Bool.and_assoc]
  | root =>
    have hslash : skipBlanks s = '/' :: r := hs
    refine hlocation (primary_symbol hslash (by decide) (number_symbol (by decide))) ⟨r, ?_, Or.inl rfl⟩
    have hstep : step inner r = .error r := step_stops (stepHead_stops hclear (hr.stops (by decide)))
    rw [Phrase.text, List.singleton_append, locationPath, slashes_one (head_ne_slash hr (by decide))]
    simp [hstep, Phrase.expr]
  | rooted double hd ps more =>
    have hslash : skipBlanks s =
        '/' :: ((slashText double).tail ++ (hd.text ++ (ps.text ++ (more.text ++ r)))) := by
      rw [hs]
      cases double <;> simp [Phrase.text, slashText]
    exact hlocation (primary_symbol hslash (by decide) (number_symbol (by decide)))
      (locationPath_rooted hinner double hd hc.1 hc.2 hr hclear hlen')
  | relative hd ps more =>
    have hnext : Before stepFollowers (ps.text ++ (more.text ++ r)) :=
      before_predicates_written ps (before_steps_written more hr)
    have hhead : skipBlanks s = hd.text ++ (ps.text ++ (more.text ++ r)) := by simpa [Phrase.text] using hs
    exact hlocation (primary_head hd hhead hnext (ps.clear_before (more.clear_before hclear)))
      (locationPath_relative hinner hd hc.1 hc.2 hr hclear hlen')
  | negate gap operand => exact absurd hlevel (Nat.ne_of_lt minusLevel_lt_atomLevel)
  | binary op left before after right => exact absurd hlevel (Nat.ne_of_lt (Nat.lt_succ_of_le op.level_le))

end Nested

/-! ### Operators -/

/-- Phrases along their operators: what holds of operands without operators and is handed on by each of them holds
    of all phrases. -/
theorem Phrase.operators_induction {motive : Phrase → Prop} (operand : ∀ c : Phrase, c.level = atomLevel → motive c)
    (negate : ∀ (gap : Gap) (c : Phrase), motive c → motive (.negate gap c))
    (binary : ∀ (op : Operator) (left : Phrase) (before after : Gap) (right : Phrase), motive left → motive right →
      motive (.binary op left before after right)) : ∀ c, motive c
  | .primary .. => operand _ rfl
  | .root => operand _ rfl
  | .rooted .. => operand _ rfl
  | .relative .. => operand _ rfl
  | .negate gap c => negate gap c (c.operators_induction operand negate binary)
  | .binary op left before after right =>
    binary op left before after right (left.operators_induction operand negate binary)
      (right.operators_induction operand negate binary)

theorem haltsFrom_symbol {op : Operator} (b : Gap) : HaltsFrom (op.level + 1) (b.1 ++ (op.symbol.toList ++ u)) := by
  intro o ho
  obtain ⟨c, word, hop, -, -⟩ := exists_symbol op
  rw [skipBlanks_append b.2, skipBlanks_symbol]
  refine operator_none fun d hd => ?_
  have hne := head_symbol_ne ho
  rw [hop] at hd hne
  obtain rfl := Option.some.inj hd
  exact hne

theorem before_symbol (op : Operator) (b : Gap) : Before followers (b.1 ++ (op.symbol.toList ++ u)) := by
  have hall : ∀ op ∈ allLevels.flatten, op.symbol.toList.head?.all followers.contains := by decide
  obtain ⟨ops, hops, hop⟩ := exists_level op
  obtain ⟨c, word, hsymbol, hc, -⟩ := exists_symbol op
  have hmem := hall op (List.mem_flatten_of_mem hops hop)
  rw [hsymbol] at hmem ⊢
  exact before_gap b hc (List.contains_iff_mem.mp hmem)

/-- Whether a reader reads the phrases of a level and of tighter ones in texts that are not longer than a bound. -/
def RereadsFrom (n j : Nat) (read : List Char → Reading Expr) : Prop :=
  ∀ (c : Phrase) (s r : List Char), c.WellFormed → j ≤ c.level → skipBlanks s = c.text ++ r → Before followers r →
    c.ending.Clear r → HaltsFrom j r → s.length ≤ n → ∃ r', read s = .ok (c.expr r.isEmpty, r') ∧ Remains r r'

section Levels

variable {j : Nat} {read : List Char → Reading Expr} {ops : List Operator}

theorem rereadsFrom_operand (hinner : Rereads inner n) (hclose : ∀ r, inner (')' :: r) = none) :
    RereadsFrom n atomLevel (operand inner) := fun c _ _ hc hlevel hs hr hclear _ hlen =>
  operand_written hinner hclose hc (Nat.le_antisymm c.level_le hlevel) hs hr hclear hlen

/-- A phrase that is tighter than the minus sign does not begin with one. -/
theorem Phrase.avoids_minus (hc : c.WellFormed) (hlevel : minusLevel < c.level) (hs : skipBlanks s = c.text ++ r) :
    Avoids '-' s := by
  obtain ⟨x, v, htext, hx | ⟨-, hle⟩⟩ := c.opens hc
  · rw [htext, List.cons_append] at hs
    exact avoids_of_skipBlanks hs (ne_of_opensOperand hx (by decide))
  · exact absurd hlevel (Nat.not_lt_of_le hle)

/-- Minus signs are read before what they negate. -/
theorem rereadsFrom_signed (h : RereadsFrom n (minusLevel + 1) read) : RereadsFrom n minusLevel (signed read) := by
  intro c s r hc hlevel hs hr hclear hhalts hlen
  have hdirect {c : Phrase} {s : List Char} (hc : c.WellFormed) (hlt : minusLevel < c.level)
      (hs : skipBlanks s = c.text ++ r) (hclear : c.ending.Clear r) (hlen : s.length ≤ n) :
      ∃ r', signed read s = .ok (c.expr r.isEmpty, r') ∧ Remains r r' := by
    obtain ⟨r', hread, hremains⟩ := h c s r hc hlt hs hr hclear (hhalts.mono (Nat.le_succ _)) hlen
    exact ⟨r', signed_ok hread (c.avoids_minus hc hlt hs), hremains⟩
  induction c using Phrase.operators_induction generalizing s with
  | operand c hatom => exact hdirect hc (hatom ▸ minusLevel_lt_atomLevel) hs hclear hlen
  | negate gap c ih =>
    obtain ⟨hle, hc⟩ := hc
    have hs' : skipBlanks s = '-' :: (gap.1 ++ (c.text ++ r)) := by simpa [Phrase.text] using hs
    have hshort : (c.text ++ r).length ≤ n := by
      have := length_le_of_skipBlanks hs'
      simp only [List.length_cons, List.length_append] at this ⊢
      omega
    obtain ⟨r', hread, hremains⟩ := ih (c.text ++ r) hc hle (c.begins hc).skipBlanks_append hclear hshort
    rw [← c.skipBlanks_gap hc gap] at hread
    exact ⟨r', signed_minus hs' hread, hremains⟩
  | binary op left before after right =>
    exact hdirect hc (Nat.lt_of_le_of_ne hlevel op.level_ne_minus.symm) hs hclear hlen

theorem Phrase.text_ne_nil (c : Phrase) : c.text ≠ [] := by
  obtain ⟨v, x, htext, -⟩ := c.ends
  simp [htext]

/-- No phrase makes a longer symbol of an operator before it. -/
theorem Phrase.stops_equal (hc : c.WellFormed) (b : Gap) : Stops (· == '=') (b.1 ++ (c.text ++ r)) := by
  obtain ⟨x, v, htext, hx⟩ := c.opens hc
  have hequal : x ≠ '=' := by
    rcases hx with hx | ⟨rfl, -⟩
    · exact ne_of_opensOperand hx (by decide)
    · decide
  have hbefore : Before [x] (b.1 ++ (c.text ++ r)) := by
    rw [Before, c.skipBlanks_gap hc b, htext]
    simp
  refine fun y hy => ?_
  rcases hbefore.head y hy with hblank | hmem
  · rcases isBlank_cases hblank with rfl | rfl | rfl | rfl <;> decide
  · rw [List.mem_singleton.mp hmem]
    exact beq_eq_false_iff_ne.mpr hequal

theorem length_lt_of_symbol {op : Operator} {b : Gap} {r' : List Char}
    (h : Remains (b.1 ++ (op.symbol.toList ++ u)) r') : u.length < r'.length := by
  have hlen := length_symbol_append (u := u) op
  rcases h with rfl | rfl
  · rw [List.length_append]
    omega
  · rwa [skipBlanks_append b.2, skipBlanks_symbol]

/-- The level of some operators applies them from left to right to what the tighter level reads. -/
theorem chain_written {o : Operator} (hops : ops ∈ allLevels) (ho : o ∈ ops) (h : RereadsFrom n (o.level + 1) read)
    (hc : c.WellFormed) (hle : o.level ≤ c.level) (hs : skipBlanks s = c.text ++ r) (hr : Before followers r)
    (hclear : c.ending.Clear r) (hhalts : HaltsFrom (o.level + 1) r) (hlen : s.length ≤ n) :
    ∃ r', chain ops read s = .ok (continued ops read (c.expr r.isEmpty) r') ∧ Remains r r' := by
  have hdirect {c : Phrase} {r : List Char} (hc : c.WellFormed) (hlt : o.level < c.level)
      (hs : skipBlanks s = c.text ++ r) (hr : Before followers r) (hclear : c.ending.Clear r)
      (hhalts : HaltsFrom (o.level + 1) r) :
      ∃ r', chain ops read s = .ok (continued ops read (c.expr r.isEmpty) r') ∧ Remains r r' := by
    obtain ⟨r', hread, hremains⟩ := h c s r hc hlt hs hr hclear hhalts hlen
    exact ⟨r', chain_eq hread, hremains⟩
  induction c using Phrase.operators_induction generalizing r with
  | operand c hatom => exact hdirect hc (hatom ▸ Nat.lt_succ_of_le o.level_le) hs hr hclear hhalts
  | negate gap c => exact hdirect hc (Nat.lt_of_le_of_ne hle o.level_ne_minus) hs hr hclear hhalts
  | binary op left before after right ihl =>
    rcases Nat.lt_or_eq_of_le hle with hlt | heq
    · exact hdirect hc hlt hs hr hclear hhalts
    · obtain ⟨hl, hlt, hclear', hword, hleft, hright⟩ := hc
      have hlevel : op.level = o.level := heq.symm
      have hs' : skipBlanks s = left.text ++ (before.1 ++ (op.symbol.toList ++ (after.1 ++ (right.text ++ r)))) := by
        simpa [Phrase.text] using hs
      have hnext : Stops (· == '=') (after.1 ++ (right.text ++ r)) := right.stops_equal hright after
      have hword' : op.IsWord → Stops isNameChar (after.1 ++ (right.text ++ r)) := fun hop => by
        rw [← List.append_assoc]
        exact (hword hop).append_of_ne_nil (by simp [right.text_ne_nil])
      have hclear'' : left.ending.Clear (before.1 ++ (op.symbol.toList ++ (after.1 ++ (right.text ++ r)))) := by
        obtain ⟨y, word, hsymbol, -, -⟩ := exists_symbol op
        rw [← List.append_assoc]
        exact hclear'.append (by simp [hsymbol])
      obtain ⟨r₁, hchain, hremains₁⟩ := ihl hleft (hlevel ▸ hl) hs' (before_symbol op before) hclear''
        (hlevel ▸ haltsFrom_symbol before)
      have hown : ops.findSome? (operator · (skipBlanks r₁)) = some (op, after.1 ++ (right.text ++ r)) := by
        rw [hremains₁.skipBlanks_eq, skipBlanks_append before.2, skipBlanks_symbol]
        exact findSome?_operator hops ((mem_level_iff hops ho).mpr hlevel) hword' hnext
      have hshort : (right.text ++ r).length ≤ n := by
        have := length_le_of_skipBlanks hs'
        simp only [List.length_append] at this ⊢
        omega
      obtain ⟨r', hread, hremains⟩ := h right (right.text ++ r) r hright (hlevel ▸ hlt)
        (right.begins hright).skipBlanks_append hr hclear hhalts hshort
      rw [← right.skipBlanks_gap hright after] at hread
      have hless : r'.length < r₁.length := by
        have hr' := hremains.length_le
        have hr₁ := length_lt_of_symbol hremains₁
        simp only [List.length_append] at hr₁
        omega
      refine ⟨r', ?_, hremains⟩
      rw [hchain, continued_operator hown hread hless]
      have hmore : (before.1 ++ (op.symbol.toList ++ (after.1 ++ (right.text ++ r)))).isEmpty = false := by
        simp [right.text_ne_nil]
      rw [hmore, Phrase.expr]

theorem rereadsFrom_chain {o : Operator} (hops : ops ∈ allLevels) (ho : o ∈ ops)
    (h : RereadsFrom n (o.level + 1) read) : RereadsFrom n o.level (chain ops read) := by
  intro c s r hc hle hs hr hclear hhalts hlen
  obtain ⟨r', hchain, hremains⟩ :=
    chain_written hops ho h hc hle hs hr hclear (hhalts.mono (Nat.le_succ _)) hlen
  have hlast : Halts ops r' := by
    have hhalt := hhalts.halts fun op hop => Nat.le_of_eq ((mem_level_iff hops ho).mp hop).symm
    rwa [Halts, skipBlanks_skipBlanks, ← hremains.skipBlanks_eq] at hhalt
  exact ⟨r', by rw [hchain, continued_halts hlast], hremains⟩

theorem rereadsFrom_levels (hinner : Rereads (within n) n) :
    RereadsFrom n 0 (layered (signed (chain [.union] (operand (within n)))) levels) :=
  levels_induction (motive := RereadsFrom n) (rereadsFrom_operand hinner fun _ => within_close) rereadsFrom_chain
    rereadsFrom_signed

end Levels

/-! ### Whole texts -/

theorem expression_of_rereads (hinner : Rereads (within s.length) s.length) (hc : c.WellFormed)
    (hs : skipBlanks s = c.text ++ r) (hr : Before followers r) (hclear : c.ending.Clear r) (hhalts : HaltsFrom 0 r) :
    ∃ r', expression s = .ok (c.expr r.isEmpty, r') ∧ Remains r r' := by
  rw [expression_eq]
  exact rereadsFrom_levels hinner c s r hc (Nat.zero_le _) hs hr hclear hhalts (Nat.le_refl _)

theorem rereads_within (n : Nat) : Rereads (within n) n := by
  -- The reader of a text reads what is nested in it as a shorter text.
  induction n using Nat.strongRecOn with
  | ind n ih =>
    intro c s r hc hs hr hne hlen
    obtain ⟨r', hread, hremains⟩ := expression_of_rereads (ih s.length hlen) hc hs (hr.mono (by decide))
      (Ending.clear_of_before (hr.mono (by decide))) (haltsFrom_closers hr)
    have hlast : r.isEmpty = false := by simpa using hne
    refine ⟨r', ?_, hremains⟩
    rw [within, if_pos hlen, hread, hlast]
    rfl

/-- A phrase is read where no operator comes after it that could be read on. -/
theorem expression_before (hc : c.WellFormed) (hs : skipBlanks s = c.text ++ r) (hr : Before followers r)
    (hclear : c.ending.Clear r) (hhalts : HaltsFrom 0 r) :
    ∃ r', expression s = .ok (c.expr r.isEmpty, r') ∧ Remains r r' :=
  expression_of_rereads (rereads_within s.length) hc hs hr hclear hhalts

theorem expression_written (hc : c.WellFormed) : expression c.text = .ok (c.expr true, []) := by
  obtain ⟨r', hread, hremains⟩ := expression_before hc (s := c.text) (r := [])
    (by rw [← (c.begins hc).skipBlanks_append, List.append_nil]) before_nil (Ending.clear_of_before before_nil)
    (haltsFrom_closers before_nil)
  obtain rfl : r' = [] := by rcases hremains with rfl | rfl <;> rfl
  exact hread

theorem stops_reverse_trim (s : List Char) : Stops isWhiteSpace (trim s).reverse := by
  rw [trim, List.reverse_reverse]
  exact stops_dropWhile

theorem stops_trim (s : List Char) : Stops isWhiteSpace (trim s) := by
  -- What is cut off at the end is put back.
  have hsplit : trim s ++ ((s.dropWhile isWhiteSpace).reverse.takeWhile isWhiteSpace).reverse =
      s.dropWhile isWhiteSpace := by
    rw [trim, ← List.reverse_append, List.takeWhile_append_dropWhile, List.reverse_reverse]
  have hstops : Stops isWhiteSpace (s.dropWhile isWhiteSpace) := stops_dropWhile
  rw [← hsplit] at hstops
  exact stops_of_append hstops

theorem Gap.eq_nil (b : Gap) (h : Stops isWhiteSpace (b.1 ++ s)) : b.1 = [] := by
  obtain ⟨b, hb⟩ := b
  cases b with
  | nil => rfl
  | cons c b =>
    have hc : isWhiteSpace c := isWhiteSpace_of_isBlank (hb c List.mem_cons_self)
    rw [List.cons_append, stops_cons, hc] at h
    cases h

theorem Gap.eq_nil_of_reverse (b : Gap) (h : Stops isWhiteSpace (s ++ b.1).reverse) : b.1 = [] := by
  rw [List.reverse_append] at h
  have hnone := Gap.eq_nil ⟨b.1.reverse, fun c hc => b.2 c (List.mem_reverse.mp hc)⟩ h
  simpa using hnone

/-- What is read of a trimmed text is written at its very front. -/
theorem expression_trim_recognized (h : expression (trim s) = .ok (e, r)) :
    ∃ (c : Phrase) (b : Gap), c.WellFormed ∧ trim s = c.text ++ (b.1 ++ r) ∧ e = c.expr (b.1 ++ r).isEmpty := by
  obtain ⟨b, c, b', hc, -, -, hs, he⟩ := expression_recognized h
  have hstops := stops_trim s
  rw [hs] at hstops
  rw [b.eq_nil hstops, List.nil_append] at hs
  exact ⟨c, b', hc, hs, he⟩

/-- A text holds an expression if and only if it is the text of a well-formed phrase, white space around it aside,
    and it is the expression of each such phrase. -/
theorem parse_eq_ok_iff {text : String} :
    Expr.parse text = .ok e ↔ ∃ c : Phrase, c.WellFormed ∧ c.text = trim text.toList ∧ c.expr true = e := by
  constructor
  · intro h
    unfold Expr.parse at h
    split at h <;> cases h
    next hread =>
    obtain ⟨c, b, hc, hs, rfl⟩ := expression_trim_recognized hread
    have hend := stops_reverse_trim text.toList
    rw [List.append_nil] at hs
    rw [hs] at hend
    have hb := b.eq_nil_of_reverse hend
    rw [hb, List.append_nil] at hs
    exact ⟨c, hc, hs.symm, by rw [hb]; rfl⟩
  · rintro ⟨c, hc, htext, rfl⟩
    rw [Expr.parse, ← htext, expression_written hc]

/-- Blanks after a phrase are no part of the text it is parsed from. -/
theorem Phrase.trim_gap (hc : c.WellFormed) (b : Gap) : trim (c.text ++ b.1) = c.text :=
  trim_padded (p := (· = c.text)) ⟨[], c.text, b.1, blanks_nil, rfl, b.2, rfl⟩ fun _ ht => ht ▸ ⟨c.begins hc, c.ends⟩

theorem Phrase.parse_gap (hc : c.WellFormed) (b : Gap) :
    Expr.parse (.ofList (c.text ++ b.1)) = .ok (c.expr true) :=
  parse_eq_ok_iff.mpr ⟨c, hc, by rw [String.toList_ofList, c.trim_gap hc], rfl⟩

theorem Phrase.parse_eq (hc : c.WellFormed) : Expr.parse (.ofList c.text) = .ok (c.expr true) := by
  simpa [Gap.none] using c.parse_gap hc .none

/-- Phrases with one text are one expression. -/
theorem Phrase.expr_unique {d : Phrase} (hc : c.WellFormed) (hd : d.WellFormed) (h : c.text = d.text) :
    c.expr true = d.expr true := by
  have hread := c.parse_eq hc
  rw [h, d.parse_eq hd] at hread
  exact (Except.ok.inj hread).symm

end XmlMapping.XPath
