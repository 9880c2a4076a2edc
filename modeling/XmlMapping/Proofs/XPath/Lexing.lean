import XmlMapping.Proofs.XPath.Spelling

/-!
# Reading words

What each reader of a word gives on a text that begins with the word, and that it gives nothing on a text
that begins with something else. What comes after a word is known by the first character that is no blank.
-/

namespace XmlMapping.XPath

open Text

variable {b r s t u : List Char}

/-! ### What comes next -/

/-- Whether a text, blanks aside, is empty or goes on with one of the given characters. -/
def Before (cs : List Char) (r : List Char) : Prop :=
  ∀ c ∈ (skipBlanks r).head?, c ∈ cs

theorem Before.mono {cs ds : List Char} (h : Before cs r) (hsub : cs ⊆ ds) : Before ds r := fun c hc =>
  hsub (h c hc)

theorem Before.skip {cs : List Char} (h : Before cs r) : Before cs (skipBlanks r) := by
  rwa [Before, skipBlanks_skipBlanks]

theorem Before.head {cs : List Char} (h : Before cs r) : ∀ c ∈ r.head?, isBlank c ∨ c ∈ cs := by
  cases r with
  | nil => simp
  | cons c r =>
    intro d hd
    obtain rfl := Option.some.inj hd
    cases hc : isBlank c with
    | true => exact Or.inl rfl
    | false =>
      refine Or.inr (h c ?_)
      rw [skipBlanks_cons hc]
      rfl

theorem Before.stops {cs : List Char} {p : Char → Bool} (h : Before cs r) (hp : (blankChars ++ cs).all (!p ·)) :
    Stops p r := fun c hc => by
  have hmem : c ∈ blankChars ++ cs := List.mem_append.mpr ((h.head c hc).imp mem_blankChars id)
  simpa using List.all_eq_true.mp hp c hmem

/-- Whether a text, blanks aside, does not go on with a character. -/
def Avoids (c : Char) (r : List Char) : Prop :=
  ∀ d ∈ (skipBlanks r).head?, d ≠ c

theorem Before.avoids {cs : List Char} {c : Char} (h : Before cs r) (hc : c ∉ cs) : Avoids c r := by
  rintro d hd rfl
  exact hc (h d hd)

theorem avoids_of_skipBlanks {c d : Char} (hs : skipBlanks s = d :: r) (h : d ≠ c) : Avoids c s := by
  intro d' hd
  rw [hs] at hd
  obtain rfl := Option.some.inj hd
  exact h

theorem avoids_skipBlanks {c : Char} : Avoids c (skipBlanks s) ↔ Avoids c s := by
  rw [Avoids, skipBlanks_skipBlanks, Avoids]

theorem before_append {cs : List Char} (hb : Blanks b) (h : Before cs r) : Before cs (b ++ r) := by
  rwa [Before, skipBlanks_append hb]

theorem before_cons {cs : List Char} {c : Char} (hc : isBlank c = false) (h : c ∈ cs) : Before cs (c :: r) := by
  rw [Before, skipBlanks_cons hc]
  simpa using h

/-- What ends an expression. -/
def closers : List Char :=
  [')', ']', ',']

/-- What ends the words of a step. -/
def stepClosers : List Char :=
  '[' :: '/' :: closers

/-! ### Symbols and repetition -/

@[simp] theorem symbol_cons (c : Char) : symbol c (c :: s) = some ((), s) := by
  simp [symbol]

theorem symbol_none {c : Char} (h : ∀ d ∈ s.head?, d ≠ c) : symbol c s = none := by
  cases s with
  | nil => rfl
  | cons d s =>
    have hd : d ≠ c := h d rfl
    rw [symbol, if_neg (Ne.symm hd)]

variable {α : Type} {read : Reader α} {a : α}

theorem padded_some (h : read (skipBlanks s) = some (a, r)) : padded read s = some (a, skipBlanks r) := by
  rw [padded, h]
  rfl

theorem padded_none (h : read (skipBlanks s) = none) : padded read s = none := by
  rw [padded, h]
  rfl

theorem padded_symbol_none {c : Char} (h : Avoids c s) : padded (symbol c) s = none :=
  padded_none (symbol_none h)

theorem padded_symbol {c : Char} (h : skipBlanks s = c :: r) : padded (symbol c) s = some ((), skipBlanks r) := by
  apply padded_some
  rw [h, symbol_cons]

theorem many_none (h : read s = none) : many read s = ([], s) := by
  rw [many, h]

theorem many_some (h : read s = some (a, r)) (hlen : r.length < s.length) :
    many read s = (a :: (many read r).1, (many read r).2) := by
  rw [many, h]
  exact if_pos hlen

/-! ### Literals and numbers -/

theorem quotedBy_append {q : Char} {text : String} (h : q ∉ text.toList) :
    quotedBy q (q :: text.toList ++ q :: r) = some (text, r) := by
  have hall : ∀ c ∈ text.toList, (c != q) = true := fun c hc => by
    rw [bne_iff_ne]
    rintro rfl
    exact h hc
  have hq : Stops (· != q) (q :: r) := by simp
  rw [List.cons_append, quotedBy, if_pos rfl, takeWhile_append_stops hall hq, dropWhile_append_stops hall hq,
    String.ofList_toList]

theorem quotedBy_none {q : Char} (h : ∀ c ∈ s.head?, c ≠ q) : quotedBy q s = none := by
  cases s with
  | nil => rfl
  | cons c s => exact if_neg (h c rfl)

theorem literal_append {q : Char} {text : String} (hq : q = '\'' ∨ q = '"') (h : q ∉ text.toList) :
    literal (q :: text.toList ++ q :: r) = some (.literal text, r) := by
  rcases hq with rfl | rfl
  · rw [literal, quotedBy_append h]
    rfl
  · rw [literal, quotedBy_none (by simp), quotedBy_append h]
    rfl

theorem literal_none (h : ∀ c ∈ s.head?, c ≠ '\'' ∧ c ≠ '"') : literal s = none := by
  rw [literal, quotedBy_none fun c hc => (h c hc).1, quotedBy_none fun c hc => (h c hc).2]
  rfl

theorem digits_append (ht : t.all Char.isDigit) (hr : Stops Char.isDigit r) : digits (t ++ r) = (t, r) := by
  have ht' : ∀ c ∈ t, c.isDigit := List.all_eq_true.mp ht
  rw [digits, takeWhile_append_stops ht' hr, dropWhile_append_stops ht' hr]

/-- The number that a numeral is read as, given the text that comes after it. -/
def Numeral.valueBefore (m : Numeral) (r : List Char) : Number :=
  if r.isEmpty then m.wholeValue else m.value

theorem Numeral.valueBefore_nil (m : Numeral) : m.valueBefore [] = m.wholeValue :=
  if_pos rfl

theorem Numeral.valueBefore_of_ne_nil (m : Numeral) (h : r ≠ []) : m.valueBefore r = m.value :=
  if_neg (by simpa using h)

theorem number_text (m : Numeral) (hr : Stops Char.isDigit r) (hpoint : Stops (· == '.') r) :
    number (m.text ++ r) = some (.number (m.valueBefore r), r) := by
  obtain ⟨whole, fraction, ⟨hwhole, hfraction⟩, hne⟩ := m
  cases fraction with
  | none =>
    have hwhole' : whole ≠ [] := by simpa using hne
    simp only [Numeral.text, List.append_nil, number, digits_append hwhole hr]
    cases r with
    | nil => simp [Numeral.valueBefore, Numeral.wholeValue, hwhole']
    | cons c r =>
      have hc : c ≠ '.' := by simpa using hpoint
      simp [Numeral.valueBefore, Numeral.value, hwhole', hc]
  | some f =>
    have hf : digits (f ++ r) = (f, r) := digits_append hfraction hr
    have hstop : Stops Char.isDigit ('.' :: (f ++ r)) := stops_cons.mpr (by decide)
    simp only [Numeral.text, List.append_assoc, List.cons_append, number, digits_append hwhole hstop, hf]
    -- With digits before the point those after it count only when `r` is not empty.
    cases whole with
    | nil =>
      have hne' : f ≠ [] := by simpa using hne
      simp [Numeral.valueBefore, Numeral.wholeValue, Numeral.value, hne']
    | cons c whole => cases r <;> simp [Numeral.valueBefore, Numeral.wholeValue, Numeral.value]

theorem number_none (h : ∀ c ∈ s.head?, c.isDigit = false ∧ c ≠ '.') : number s = none := by
  have hs : Stops Char.isDigit s := fun c hc => (h c hc).1
  have hdigits : digits s = ([], s) := digits_append (t := []) rfl hs
  rw [number, hdigits]
  cases s with
  | nil => rfl
  | cons c s =>
    have hc : c ≠ '.' := (h c rfl).2
    simp [hc]

/-! ### Names -/

theorem ne_of_isNameStart {c d : Char} (hc : isNameStart c) (hd : isNameStart d = false) : c ≠ d := by
  rintro rfl
  rw [hc] at hd
  cases hd

theorem qName_append {q : QName} (hq : q.Named) (hr : Stops isNameChar r) (hcolon : Stops (· == ':') r) :
    qName (q.text.toList ++ r) = some (q, r) := by
  rcases q with ⟨_ | p, l⟩
  · have hl : name? (l.toList ++ r) = some (l.toList, r) := name?_append hq.2 hr
    rw [QName.toList_text, qName, hl]
    cases r with
    | nil => simp
    | cons c r =>
      have hc : c ≠ ':' := by simpa using hcolon
      simp [hc]
  · have hl : name? (l.toList ++ r) = some (l.toList, r) := name?_append hq.2 hr
    have hstop : Stops isNameChar (':' :: (l.toList ++ r)) := stops_cons.mpr (by decide)
    have hp : name? (p.toList ++ ':' :: (l.toList ++ r)) = some (p.toList, ':' :: (l.toList ++ r)) :=
      name?_append (hq.1 p rfl) hstop
    rw [QName.toList_text, List.append_assoc, List.cons_append, qName, hp]
    simp [hl]

theorem qName_none (h : Stops isNameStart s) : qName s = none := by
  rw [qName, name?_of_stops h]
  rfl

/-! ### Node tests and axes -/

theorem kindTest_append (k : KindTest) : kindTest (k.name.toList ++ '(' :: ')' :: r) = some (.kind k, r) := by
  cases k <;> rfl

/-- A name is no node test by kind unless a parenthesis follows it, also when it begins with the name of a
    kind. -/
theorem kindTest_none {w : List Char} (hw : ∀ c ∈ w, isNameChar c) (hr : Stops isNameChar r)
    (hopen : Avoids '(' r) : kindTest (w ++ r) = none := by
  rw [kindTest]
  cases hfind : KindTest.all.findSome? fun k => (after? k.name.toList (w ++ r)).map (k, ·) with
  | none => rfl
  | some found =>
    obtain ⟨k, rest⟩ := found
    obtain ⟨k', -, hk⟩ := List.exists_of_findSome?_eq_some hfind
    obtain ⟨rest', hafter, h⟩ := Option.map_eq_some_iff.mp hk
    obtain ⟨rfl, rfl⟩ := Prod.mk.inj h
    obtain ⟨-, -, -, -, hkind⟩ := isName_eq_cons (isName_kind k')
    -- What the kind leaves of the name, or what comes after the whole name, is no parenthesis.
    obtain ⟨v, rfl, rfl⟩ := after?_run hkind hr hafter
    have hsymbol : symbol '(' (skipBlanks (v ++ r)) = none := by
      cases v with
      | nil => exact symbol_none hopen
      | cons c v =>
        have hc : isNameChar c := hw c (by simp)
        have hblank : isBlank c = false := isBlank_of_isWhiteSpace (isWhiteSpace_of_isNameChar hc)
        rw [List.cons_append, skipBlanks_cons hblank]
        refine symbol_none fun d hd => ?_
        obtain rfl := Option.some.inj hd
        rintro rfl
        exact absurd hc (by decide)
    simp [padded_none hsymbol]

theorem before_stepClosers_stops (h : Before stepClosers r) :
    Stops isNameChar r ∧ Stops (· == ':') r ∧ Avoids '(' r :=
  ⟨h.stops (by decide), h.stops (by decide), h.avoids (by decide)⟩

theorem anyInTest_append {p : String} (hp : isName p.toList) :
    anyInTest (p.toList ++ ':' :: '*' :: r) = some (.anyIn p, r) := by
  have hstop : Stops isNameChar (':' :: '*' :: r) := stops_cons.mpr (by decide)
  rw [anyInTest, name?_append hp hstop]
  simp [after?]

theorem anyInTest_none {q : QName} (hq : q.Named) (hr : Stops isNameChar r) (hcolon : Stops (· == ':') r) :
    anyInTest (q.text.toList ++ r) = none := by
  rcases q with ⟨_ | p, l⟩
  · rw [QName.toList_text, anyInTest, name?_append hq.2 hr]
    cases r with
    | nil => rfl
    | cons c r =>
      have hc : ':' ≠ c := fun h => by simp [← h] at hcolon
      simp [after?, hc]
  · obtain ⟨c, v, hl, hc, -⟩ := isName_eq_cons hq.2
    have hstop : Stops isNameChar (':' :: (l.toList ++ r)) := stops_cons.mpr (by decide)
    have hstar : '*' ≠ c := (ne_of_isNameStart hc (by decide)).symm
    rw [QName.toList_text, List.append_assoc, List.cons_append, anyInTest, name?_append (hq.1 p rfl) hstop]
    simp only at hl
    simp [after?, hl, hstar]

theorem kindTest_colon {w : List Char} (hw : ∀ c ∈ w, isNameChar c) : kindTest (w ++ ':' :: r) = none := by
  have hblank : skipBlanks (':' :: r) = ':' :: r := skipBlanks_cons (by decide)
  refine kindTest_none hw (stops_cons.mpr (by decide)) fun c hc => ?_
  rw [hblank] at hc
  obtain rfl := Option.some.inj hc
  decide

theorem kindTest_name {q : QName} (hq : q.Named) (hr : Stops isNameChar r)
    (hopen : Avoids '(' r) : kindTest (q.text.toList ++ r) = none := by
  rcases q with ⟨_ | p, l⟩
  · obtain ⟨-, -, -, -, hl⟩ := isName_eq_cons hq.2
    exact kindTest_none hl hr hopen
  · obtain ⟨-, -, -, -, hp⟩ := isName_eq_cons (hq.1 p rfl)
    rw [QName.toList_text, List.append_assoc]
    exact kindTest_colon hp

theorem symbol_star_none {c : Char} (hc : isNameStart c) : symbol '*' (c :: s) = none := by
  refine symbol_none fun d hd => ?_
  obtain rfl := Option.some.inj hd
  exact ne_of_isNameStart hc (by decide)

theorem nodeTest_name {q : QName} (hq : q.Named) (hr : Stops isNameChar r) (hcolon : Stops (· == ':') r)
    (hopen : Avoids '(' r) : nodeTest (q.text.toList ++ r) = some (.name q, r) := by
  obtain ⟨c, v, htext, hc⟩ := hq.exists_head
  have hstar : symbol '*' (q.text.toList ++ r) = none := by
    rw [htext]
    exact symbol_star_none hc
  rw [nodeTest, hstar, kindTest_name hq hr hopen, anyInTest_none hq hr hcolon, qName_append hq hr hcolon]
  rfl

theorem nodeTest_append {test : NodeTest} (h : test.Named) (hr : Before stepClosers r) :
    nodeTest (test.text ++ r) = some (test, r) := by
  obtain ⟨hname, hcolon, hopen⟩ := before_stepClosers_stops hr
  cases test with
  | any => rfl
  | kind k =>
    obtain ⟨c, v, hk, hc, -⟩ := isName_eq_cons (isName_kind k)
    have hstar : symbol '*' (k.name.toList ++ '(' :: ')' :: r) = none := by
      rw [hk]
      exact symbol_star_none hc
    have htext : (NodeTest.kind k).text ++ r = k.name.toList ++ '(' :: ')' :: r := by simp [NodeTest.text]
    rw [htext, nodeTest, hstar, kindTest_append]
    rfl
  | anyIn p =>
    obtain ⟨c, v, hp, hc, hchars⟩ := isName_eq_cons h
    have hstar : symbol '*' (p.toList ++ ':' :: '*' :: r) = none := by
      rw [hp]
      exact symbol_star_none hc
    have htext : (NodeTest.anyIn p).text ++ r = p.toList ++ ':' :: '*' :: r := by simp [NodeTest.text]
    rw [htext, nodeTest, hstar, kindTest_colon hchars, anyInTest_append h]
    rfl
  | name q => exact nodeTest_name h hname hcolon hopen

theorem axis_append (a : Axis) : axis (a.name.toList ++ ':' :: ':' :: r) = some (a, r) := by
  cases a <;> rfl

theorem stepHead_append {a : Axis} {test : NodeTest} (h : test.Named) (hr : Before stepClosers r) :
    stepHead (a.name.toList ++ ':' :: ':' :: test.text ++ r) = .ok ((a, test), r) := by
  have hform : a.name.toList ++ ':' :: ':' :: test.text ++ r = a.name.toList ++ ':' :: ':' :: (test.text ++ r) := by
    simp
  obtain ⟨c, v, ha, hc, -⟩ := isName_eq_cons (isName_axis a)
  have hdot : c ≠ '.' := ne_of_isNameStart hc (by decide)
  have hat : c ≠ '@' := ne_of_isNameStart hc (by decide)
  have haxis := axis_append (r := test.text ++ r) a
  have htest := nodeTest_append h hr
  rw [hform]
  rw [ha, List.cons_append] at haxis ⊢
  simp [stepHead, hdot, hat, haxis, htest]

/-- A name is no axis unless two colons follow it. -/
theorem axis_none {w : List Char} (hw : ∀ c ∈ w, isNameChar c) (hr : Stops isNameChar r)
    (hcolon : Stops (· == ':') r) : axis (w ++ r) = none := by
  rw [axis, List.findSome?_eq_none_iff]
  intro a _
  rw [Option.map_eq_none_iff, Option.eq_none_iff_forall_ne_some]
  intro rest hafter
  -- The longest run of name characters is the name on one side and the axis on the other.
  have heq : w ++ r = a.name.toList ++ ':' :: ':' :: rest := by simpa using eq_of_after? hafter
  obtain ⟨-, -, -, -, ha⟩ := isName_eq_cons (isName_axis a)
  have hstop : Stops isNameChar (':' :: ':' :: rest) := stops_cons.mpr (by decide)
  have hrest : r = ':' :: ':' :: rest := by
    rw [← dropWhile_append_stops hw hr, heq, dropWhile_append_stops ha hstop]
  rw [hrest] at hcolon
  exact absurd (stops_cons.mp hcolon) (by decide)

/-- A name alone stands for a step along the child axis. -/
theorem stepHead_name {label : String} (h : isName label.toList) (hr : Stops isNameChar r)
    (hcolon : Stops (· == ':') r) (hopen : Avoids '(' r) :
    stepHead (label.toList ++ r) = .ok ((.child, .name ⟨none, label⟩), r) := by
  have hnamed : QName.Named ⟨none, label⟩ := ⟨nofun, h⟩
  have htest := nodeTest_name hnamed hr hcolon hopen
  rw [QName.toList_text] at htest
  obtain ⟨c, v, hlabel, hc, hchars⟩ := isName_eq_cons h
  have haxis := axis_none hchars hr hcolon
  have hdot : c ≠ '.' := ne_of_isNameStart hc (by decide)
  have hat : c ≠ '@' := ne_of_isNameStart hc (by decide)
  simp only [hlabel, List.cons_append] at htest haxis ⊢
  simp [stepHead, hdot, hat, haxis, htest]

theorem after?_none {word : List Char} (hword : isName word) (hs : Stops isNameChar s) :
    after? (word ++ t) s = none := by
  obtain ⟨c, v, rfl, hc, -⟩ := isName_eq_cons hword
  cases s with
  | nil => rfl
  | cons d s =>
    refine if_neg ?_
    rintro rfl
    rw [stops_cons, isNameChar_of_isNameStart hc] at hs
    cases hs

/-- No step begins where an expression ends. -/
theorem stepHead_error (h : Before closers s) : stepHead s = .error s := by
  have hname : Stops isNameChar s := h.stops (by decide)
  have hstart : Stops isNameStart s := hname.mono fun c => isNameChar_of_isNameStart
  have hother : Stops (fun c => c == '.' || c == '@' || c == '*') s := h.stops (by decide)
  have hsymbol : ∀ c ∈ s.head?, c ≠ '.' ∧ c ≠ '@' ∧ c ≠ '*' := fun c hc => by
    simpa [and_assoc] using hother c hc
  have haxis : axis s = none := by
    rw [axis, List.findSome?_eq_none_iff]
    intro a _
    rw [after?_none (isName_axis a) hname]
    rfl
  have hkind : kindTest s = none := by
    have hfind : (KindTest.all.findSome? fun k => (after? k.name.toList s).map (k, ·)) = none := by
      rw [List.findSome?_eq_none_iff]
      intro k _
      rw [← List.append_nil k.name.toList, after?_none (isName_kind k) hname]
      rfl
    rw [kindTest, hfind]
    rfl
  have htest : nodeTest s = none := by
    rw [nodeTest, symbol_none fun c hc => (hsymbol c hc).2.2, hkind, anyInTest, name?_of_stops hstart,
      qName_none hstart]
    rfl
  cases s with
  | nil => simp [stepHead, haxis, htest]
  | cons c s =>
    obtain ⟨hdot, hat, -⟩ := hsymbol c rfl
    simp [stepHead, hdot, hat, haxis, htest]

end XmlMapping.XPath
