import XmlMapping.Proofs.XPath.Operands

/-!
# Parsing undoes printing

Every printable expression is read back from each of its printed texts, wherever the text stands and whatever
ends it, with one exception: a number at the very end of the whole text loses the digits after its point.
-/

namespace XmlMapping.XPath

open Text

variable {b g r s t u : List Char} {e : Expr} {n : Nat}

/-! ### The levels around an operand -/

/-- The reader of expressions, for texts shorter than a bound. -/
def within (n : Nat) : Reader Expr := fun s =>
  if s.length < n then (expression s).toOption else none

theorem expression_eq (s : List Char) :
    expression s = layered (signed (chain [.union] (operand (within s.length)))) levels s := by
  rw [expression]
  rfl

theorem halts_levels (h : Before closers r) : ∀ ops ∈ levels, Halts ops r := fun ops _ =>
  halts_closers ops h

theorem expression_operand (h : operand (within s.length) s = .ok (e, r)) (hr : Before closers r)
    (hminus : Avoids '-' s) : expression s = .ok (e, r) := by
  rw [expression_eq]
  exact layered_ok (signed_ok (chain_ok h (halts_closers _ hr)) hminus) (halts_levels hr)

theorem expression_negate (hs : skipBlanks s = '-' :: u)
    (h : operand (within s.length) (skipBlanks u) = .ok (e, r)) (hr : Before closers r)
    (hminus : Avoids '-' u) : expression s = .ok (.negate e, r) := by
  rw [expression_eq]
  exact layered_ok (signed_negate hs (chain_ok h (halts_closers [.union] hr)) hminus) (halts_levels hr)

/-- No expression stands where a parenthesis closes. -/
theorem expression_close : ∃ t, expression (')' :: r) = .error t := by
  have hminus : Avoids '-' (')' :: r) := avoids_of_skipBlanks (skipBlanks_cons (by decide)) (by decide)
  refine ⟨')' :: r, ?_⟩
  rw [expression_eq]
  exact layered_error (signed_error (chain_error operand_close) hminus)

theorem within_close : within n (')' :: r) = none := by
  obtain ⟨t, ht⟩ := expression_close (r := r)
  rw [within, ht]
  exact ite_self none

theorem expression_binary {op : Operator} {left right : Expr}
    (hleft : operand (within s.length) s = .ok (left, op.symbol.toList ++ u))
    (hright : operand (within s.length) (skipBlanks u) = .ok (right, r))
    (hu : Before ['('] u) (hminus : Avoids '-' s) (hlen : r.length ≤ u.length)
    (hr : Before closers r) : expression s = .ok (.binary op left right, r) := by
  have hminus' : Avoids '-' (skipBlanks u) := hu.skip.avoids (by decide)
  obtain ⟨ops, hops, hop⟩ := exists_level op
  have hown := findSome?_operator hops hop (fun _ => hu.stops (by decide)) (hu.stops (by decide))
  obtain ⟨hpair, -, hunion⟩ := List.pairwise_append.mp pairwise_halts
  rw [expression_eq]
  -- The union binds tighter than the minus sign, so its level is read inside of `signed`.
  rcases List.mem_append.mp hops with hlevel | hlast
  · have hleft' := signed_ok (chain_ok hleft (hunion ops hlevel [.union] List.mem_cons_self op hop u)) hminus
    have hright' := signed_ok (chain_ok hright (halts_closers [.union] hr)) hminus'
    exact layered_binary hpair hlevel hop hown hleft' hright' hlen (halts_levels hr)
  · obtain rfl := List.mem_singleton.mp hlast
    have hshort : r.length < (op.symbol.toList ++ u).length := Nat.lt_of_le_of_lt hlen (length_symbol_append op)
    rw [← skipBlanks_symbol] at hown
    have hunion := chain_binary hleft hown hright hshort (halts_closers _ hr)
    exact layered_ok (signed_ok hunion hminus) (halts_levels hr)

/-! ### Expressions -/

/-- Whether an expression is read back from its printed texts wherever they stand, a number only before
    something else. -/
def Reads (e : Expr) : Prop :=
  ∀ s t r, e.Spells t → skipBlanks s = t ++ r → Before closers r → (r = [] → ∀ v, e ≠ .number v) →
    ∃ r', expression s = .ok (e, r') ∧ Remains r r'

theorem Reads.readsIn (h : Reads e) (he : e.Printable) (n : Nat) : ReadsIn (within n) n e := by
  rintro g r ⟨b, t, b', hb, ht, hb', rfl⟩ hr hne hlen
  obtain ⟨c, v, rfl, hc⟩ := (ht.ends he).1
  have hblank : isBlank c = false := isBlank_of_isWhiteSpace hc
  have hs : skipBlanks (b ++ (c :: v) ++ b' ++ r) = (c :: v) ++ (b' ++ r) := by
    simp only [List.append_assoc, skipBlanks_append hb, List.cons_append, skipBlanks_cons hblank]
  obtain ⟨r', hr', hremains⟩ := h _ _ _ ht hs (before_append hb' hr) fun h => by simp [hne] at h
  refine ⟨r', ?_, ?_, ?_⟩
  · rw [within, if_pos hlen, hr']
    rfl
  · rw [hremains.skipBlanks_eq, skipBlanks_append hb']
  · have := hremains.length_le
    simp only [List.length_append] at this ⊢
    omega

theorem expression_primary (h : primary (within s.length) s = some (e, skipBlanks r)) (hr : Before closers r)
    (hminus : Avoids '-' s) : expression s = .ok (e, skipBlanks r) := by
  have hbracket : Avoids '[' (skipBlanks r) := hr.skip.avoids (by decide)
  exact expression_operand (operand_primary h hbracket hr.skip.head_ne_slash) hr.skip hminus

theorem reads_literal (text : String) : Reads (.literal text) := by
  rintro s t r ⟨q, hq, hnot, rfl⟩ hs hr -
  refine ⟨skipBlanks r, expression_primary (primary_literal hq hnot (by simpa using hs)) hr ?_, Or.inr rfl⟩
  refine avoids_of_skipBlanks (by simpa using hs) ?_
  rcases hq with rfl | rfl <;> decide

/-- A number is read as its numeral says unless the text ends with it. -/
theorem expression_number (m : Numeral) (hs : skipBlanks s = m.text ++ r) (hr : Before closers r) :
    expression s = .ok (.number (m.valueBefore r), skipBlanks r) := by
  obtain ⟨c, v, hm, hc⟩ := m.exists_head
  rw [hm, List.cons_append] at hs
  have hprimary : primary (within s.length) s = some (.number (m.valueBefore r), skipBlanks r) :=
    primary_number (by rw [hs, hm]; rfl) (hr.stops (by decide)) (hr.stops (by decide))
  refine expression_primary hprimary hr (avoids_of_skipBlanks hs ?_)
  rintro rfl
  rcases hc with hc | hc <;> exact absurd hc (by decide)

theorem reads_number (value : Number) : Reads (.number value) := by
  rintro s t r ⟨m, rfl, rfl⟩ hs hr hne
  refine ⟨skipBlanks r, ?_, Or.inr rfl⟩
  rw [expression_number m hs hr, m.valueBefore_of_ne_nil fun h => hne h m.value rfl]

theorem PrintableAll.readsIn {es : List Expr} (h : PrintableAll es) (hes : ∀ e ∈ es, Reads e) (n : Nat) :
    ∀ e ∈ es, ReadsIn (within n) n e := fun e he =>
  (hes e he).readsIn (printableAll_iff.mp h e he) n

/-- Whether the predicates of a step are read back. -/
def Step.Reads : Step → Prop
  | ⟨_, _, predicates⟩ => ∀ p ∈ predicates, XPath.Reads p

theorem PrintableSteps.readsIn {ss : List Step} (h : PrintableSteps ss) (hss : ∀ x ∈ ss, x.Reads) (n : Nat) :
    ∀ x ∈ ss, x.ReadsIn (within n) n := by
  rintro ⟨direction, test, predicates⟩ hx
  exact (printableSteps_iff.mp h _ hx).2.readsIn (hss _ hx) n

theorem reads_call {q : QName} {as : List Expr} (hq : q.Named) (hkind : namesKind q = false)
    (hprint : PrintableAll as) (has : ∀ a ∈ as, Reads a) : Reads (.call q as) := by
  rintro s t r ⟨b, u, hb, rfl, hu⟩ hs hr -
  have hs' : skipBlanks s = q.text.toList ++ (b ++ '(' :: (u ++ ')' :: r)) := by simpa using hs
  have hprimary := primary_call hq hkind (hprint.readsIn has s.length) hprint (fun r => within_close) hb hu hs'
    (Nat.le_refl _)
  obtain ⟨c, v, htext, hc⟩ := hq.exists_head
  rw [htext, List.cons_append] at hs'
  have hminus : Avoids '-' s := avoids_of_skipBlanks hs' (ne_of_isNameStart hc (by decide))
  exact ⟨skipBlanks r, expression_primary hprimary hr hminus, Or.inr rfl⟩

theorem Grouped.avoids_minus {p : List Char → Prop} (hg : Grouped p g) (hs : skipBlanks s = g ++ t) :
    Avoids '-' s := by
  obtain ⟨g, -, rfl⟩ := hg
  exact avoids_of_skipBlanks hs (by decide)

theorem reads_filter {ps : List Expr} (he : e.Printable) (hread : Reads e) (hne : ps ≠ [])
    (hprint : PrintableAll ps) (hps : ∀ p ∈ ps, Reads p) : Reads (.filter e ps) := by
  rintro s t r ⟨g, u, hg, hu, rfl⟩ hs hr -
  rw [List.append_assoc] at hs
  have hminus := hg.avoids_minus hs
  have hprimary : primary (within s.length) s = some (e, skipBlanks (u ++ r)) :=
    primary_group (hread.readsIn he s.length) hg hs (Nat.le_refl _)
  have hbracket : Avoids '[' r := hr.avoids (by decide)
  have hlen : (skipBlanks (u ++ r)).length ≤ s.length := length_skipBlanks_append_le hs
  have hmany := many_predicate (hprint.readsIn hps s.length) hprint hu skipBlanks_skipBlanks hbracket hlen
  have hnone : ps.isEmpty = false := by simpa using hne
  rw [hnone] at hmany
  have hoperand := operand_filter hprimary hmany hne hr.skip.head_ne_slash
  exact ⟨skipBlanks r, expression_operand hoperand hr.skip hminus, Or.inr rfl⟩

theorem reads_nodes {ss : List Step} (he : e.Printable) (hread : Reads e) (hne : ss ≠ [])
    (hprint : PrintableSteps ss) (hss : ∀ x ∈ ss, x.Reads) : Reads (.path (.nodes e) ss) := by
  rintro s t r ⟨g, u, hg, hu, rfl⟩ hs hr -
  rw [List.append_assoc] at hs
  have hminus := hg.avoids_minus hs
  have hprimary : primary (within s.length) s = some (e, skipBlanks (u ++ r)) :=
    primary_group (hread.readsIn he s.length) hg hs (Nat.le_refl _)
  have hbracket : Avoids '[' (skipBlanks (u ++ r)) :=
    (before_steps hu hr).skip.avoids (by decide)
  have hlen : (skipBlanks (u ++ r)).length ≤ s.length := length_skipBlanks_append_le hs
  obtain ⟨r', hmore, hremains⟩ :=
    furtherSteps_append (hprint.readsIn hss s.length) hprint hu (Or.inl rfl) hr hlen
  have hoperand := operand_nodes hprimary hbracket hmore hne
  exact ⟨r', expression_operand hoperand (hr.remains hremains) hminus, hremains⟩

theorem reads_context {ss : List Step} (hne : ss ≠ []) (hprint : PrintableSteps ss) (hss : ∀ x ∈ ss, x.Reads) :
    Reads (.path .context ss) := by
  intro s t r ht hs hr _
  have hlen : (t ++ r).length ≤ s.length := length_le_of_skipBlanks hs
  obtain ⟨r', hpath, hremains⟩ := locationPath_context hne (hprint.readsIn hss s.length) hprint ht hr hlen
  rw [← hs] at hpath
  obtain ⟨a, v, hs'⟩ := ht.exists_axis hne hs
  obtain ⟨c, w, ha, hc, -⟩ := isName_eq_cons (isName_axis a)
  have hminus : Avoids '-' s := by
    rw [ha, List.cons_append] at hs'
    exact avoids_of_skipBlanks hs' (ne_of_isNameStart hc (by decide))
  have hoperand := operand_location (primary_axis hs') hpath
  exact ⟨skipBlanks r', expression_operand hoperand (hr.remains hremains).skip hminus, Or.inr hremains.skipBlanks_eq⟩

theorem reads_root {ss : List Step} (hprint : PrintableSteps ss) (hss : ∀ x ∈ ss, x.Reads) :
    Reads (.path .root ss) := by
  intro s t r ht hs hr _
  have hlen : (t ++ r).length ≤ s.length := length_le_of_skipBlanks hs
  obtain ⟨r', hpath, hremains⟩ := locationPath_root (hprint.readsIn hss s.length) hprint ht hr hlen
  obtain ⟨v, rfl⟩ := Expr.Spells.exists_slash ht
  rw [← hs] at hpath
  exact ⟨skipBlanks r', expression_operand (operand_location (primary_none (Or.inl rfl) hs) hpath)
    (hr.remains hremains).skip (avoids_of_skipBlanks hs (by decide)), Or.inr hremains.skipBlanks_eq⟩

theorem reads_binary {op : Operator} {left right : Expr} (hl : left.Printable) (hr : right.Printable)
    (hleft : Reads left) (hright : Reads right) : Reads (.binary op left right) := by
  rintro s t r ⟨g, b, b', g', hg, hb, hb', hg', rfl⟩ hs hend -
  have hs' : skipBlanks s = g ++ (b ++ (op.symbol.toList ++ (b' ++ (g' ++ r)))) := by simpa using hs
  have hlen := length_le_of_skipBlanks hs'
  have hskip : skipBlanks (b ++ (op.symbol.toList ++ (b' ++ (g' ++ r)))) =
      op.symbol.toList ++ (b' ++ (g' ++ r)) := by
    rw [skipBlanks_append hb, skipBlanks_symbol]
  have hskip' : skipBlanks (b' ++ (g' ++ r)) = g' ++ r := by rw [skipBlanks_append hb', hg'.skipBlanks_append]
  have hfirst : operand (within s.length) s = .ok (left, op.symbol.toList ++ (b' ++ (g' ++ r))) := by
    rw [← hskip]
    obtain ⟨c, word, hsymbol, -, hother⟩ := exists_symbol op
    have havoids {d : Char} (hd : d ∈ stepClosers) :
        Avoids d (b ++ (op.symbol.toList ++ (b' ++ (g' ++ r)))) := by
      refine avoids_of_skipBlanks (hskip.trans (by rw [hsymbol]; rfl)) ?_
      rintro rfl
      exact hother (List.mem_cons_of_mem '(' hd)
    exact operand_group (hleft.readsIn hl s.length) hg hs' (Nat.le_refl _) (havoids (by decide))
      (havoids (by decide))
  have hsecond : operand (within s.length) (g' ++ r) = .ok (right, skipBlanks r) := by
    have hshort : (g' ++ r).length ≤ s.length := by
      simp only [List.length_append] at hlen ⊢
      omega
    exact operand_group (hright.readsIn hr s.length) hg' hg'.skipBlanks_append hshort (hend.avoids (by decide))
      (hend.avoids (by decide))
  rw [← hskip'] at hsecond
  refine ⟨skipBlanks r, expression_binary hfirst hsecond (before_append hb' hg'.before) (hg.avoids_minus hs') ?_
    hend.skip, Or.inr rfl⟩
  have := length_skipBlanks_le (s := r)
  simp only [List.length_append]
  omega

theorem reads_negate (he : e.Printable) (hread : Reads e) : Reads (.negate e) := by
  rintro s t r ⟨b, g, hb, hg, rfl⟩ hs hr -
  have hs' : skipBlanks s = '-' :: (b ++ (g ++ r)) := by simpa using hs
  have hskip : skipBlanks (b ++ (g ++ r)) = g ++ r := by rw [skipBlanks_append hb, hg.skipBlanks_append]
  have hoperand : operand (within s.length) (g ++ r) = .ok (e, skipBlanks r) := by
    have hshort : (g ++ r).length ≤ s.length := by
      have := length_le_of_skipBlanks hs'
      simp only [List.length_append, List.length_cons] at this ⊢
      omega
    exact operand_group (hread.readsIn he s.length) hg hg.skipBlanks_append hshort (hr.avoids (by decide))
      (hr.avoids (by decide))
  rw [← hskip] at hoperand
  exact ⟨skipBlanks r, expression_negate hs' hoperand hr.skip (hg.avoids_minus hskip), Or.inr rfl⟩

mutual

/-- Every printable expression is read back from its printed texts. -/
theorem Expr.reads : ∀ e : Expr, e.Printable → Reads e
  | .literal text, _ => reads_literal text
  | .number value, _ => reads_number value
  | .path .context steps, h => reads_context h.1 h.2 (stepsRead steps h.2)
  | .path .root steps, h => reads_root h (stepsRead steps h)
  | .path (.nodes start) steps, h => reads_nodes h.1 (start.reads h.1) h.2.1 h.2.2 (stepsRead steps h.2.2)
  | .filter base predicates, h => reads_filter h.1 (base.reads h.1) h.2.1 h.2.2 (allRead predicates h.2.2)
  | .call _ args, h => reads_call h.1 h.2.1 h.2.2 (allRead args h.2.2)
  | .binary _ left right, h => reads_binary h.1 h.2 (left.reads h.1) (right.reads h.2)
  | .negate operand, h => reads_negate h (operand.reads h)

theorem allRead : ∀ es : List Expr, PrintableAll es → ∀ e ∈ es, Reads e
  | [], _ => fun _ he => absurd he List.not_mem_nil
  | e :: es, h => List.forall_mem_cons.mpr ⟨e.reads h.1, allRead es h.2⟩

theorem stepsRead : ∀ ss : List Step, PrintableSteps ss → ∀ x ∈ ss, x.Reads
  | [], _ => fun _ hx => absurd hx List.not_mem_nil
  | x :: ss, h => List.forall_mem_cons.mpr ⟨x.reads h.1, stepsRead ss h.2⟩

theorem Step.reads : ∀ x : Step, x.Printable → x.Reads
  | ⟨_, _, predicates⟩, h => allRead predicates h.2

end

/-! ### Whole texts -/

theorem parse_of_expression (h : expression (trim g) = .ok (e, [])) : Expr.parse (.ofList g) = .ok e := by
  rw [Expr.parse, String.toList_ofList, h]

theorem before_nil {cs : List Char} : Before cs [] := by
  simp [Before, skipBlanks]

theorem skipBlanks_of_begins (h : Begins t) : skipBlanks t = t ++ [] := by
  obtain ⟨c, v, rfl, hc⟩ := h
  rw [skipBlanks_cons (isBlank_of_isWhiteSpace hc), List.append_nil]

/-- A text that ends with a numeral is read without the digits after its point. -/
theorem parse_numeral {m : Numeral} (hg : Padded (· = m.text) g) :
    Expr.parse (.ofList g) = .ok (.number m.wholeValue) := by
  have htrim : trim g = m.text := trim_padded hg fun t ht => ht ▸ ⟨m.begins, m.ends⟩
  apply parse_of_expression
  rw [htrim, expression_number m (skipBlanks_of_begins m.begins) before_nil, m.valueBefore_nil]
  rfl

theorem parse_other (he : e.Printable) (hg : Padded e.Spells g) (hne : ∀ v, e ≠ .number v) :
    Expr.parse (.ofList g) = .ok e := by
  have hspells : e.Spells (trim g) := trim_padded hg fun t ht => ht.ends he
  obtain ⟨r', hr', hremains⟩ := e.reads he (trim g) (trim g) [] hspells (skipBlanks_of_begins (hspells.ends he).1)
    before_nil fun _ => hne
  obtain rfl : r' = [] := by rcases hremains with rfl | rfl <;> rfl
  exact parse_of_expression hr'

theorem Numeral.value_eq {m m' : Numeral} (h : m.text = m'.text) : m.value = m'.value := by
  -- Before a parenthesis a numeral is read with all its digits.
  have hread (m : Numeral) : number (m.text ++ [')']) = some (.number m.value, [')']) := by
    rw [number_text m (stops_cons.mpr (by decide)) (stops_cons.mpr (by decide)),
      m.valueBefore_of_ne_nil (List.cons_ne_nil ')' [])]
  have hm := hread m
  rw [h, hread m'] at hm
  exact (Expr.number.inj (Prod.mk.inj (Option.some.inj hm)).1).symm

/-- Parsing undoes printing, except that a number which is the whole text, white space aside, is read
    without the digits after its point: a printable expression has a printed text, and it is read back from
    each one unless these digits are lost and change the number. -/
theorem parse_printed {e : Expr} (he : e.Printable) :
    (∃ g, Padded e.Spells g) ∧
      ∀ g, Padded e.Spells g →
        (Expr.parse (.ofList g) = .ok e ↔ ∀ m : Numeral, Padded (· = m.text) g → m.wholeValue = m.value) ∧
          ∀ m : Numeral, Padded (· = m.text) g → Expr.parse (.ofList g) = .ok (.number m.wholeValue) := by
  obtain ⟨t, ht⟩ := e.exists_spelling he
  refine ⟨⟨t, padded_self ht⟩, fun g hg => ⟨⟨fun h m hm => ?_, fun h => ?_⟩, fun m hm => parse_numeral hm⟩⟩
  · have hspells : e.Spells (trim g) := trim_padded hg fun t ht => ht.ends he
    have htrim : trim g = m.text := trim_padded hm fun t ht => ht ▸ ⟨m.begins, m.ends⟩
    rw [parse_numeral hm] at h
    obtain rfl := Except.ok.inj h
    obtain ⟨m', hvalue, htext⟩ := hspells
    rw [← hvalue, m.value_eq (htrim.symm.trans htext)]
  · by_cases hne : ∃ v, e = .number v
    · obtain ⟨v, rfl⟩ := hne
      obtain ⟨b, t, b', hb, ⟨m, rfl, rfl⟩, hb', hg⟩ := hg
      have hm : Padded (· = m.text) g := ⟨b, m.text, b', hb, rfl, hb', hg⟩
      rw [parse_numeral hm, h m hm]
    · exact parse_other he hg fun v hv => hne ⟨v, hv⟩

/-- `1.5` -/
def oneAndHalf : Numeral :=
  ⟨['1'], some ['5'], by decide, by decide⟩

/-- `-( 1.5)` -/
def minusOneAndHalf : List Char :=
  ['-', '(', ' ', '1', '.', '5', ')']

theorem parse_printed_oneAndHalf :
    Expr.parse (.ofList oneAndHalf.text) = .ok (.number oneAndHalf.wholeValue) ∧
      Expr.parse (.ofList oneAndHalf.text) ≠ .ok (.number oneAndHalf.value) ∧
      Expr.parse (.ofList minusOneAndHalf) = .ok (.negate (.number oneAndHalf.value)) := by
  have hnumber : (Expr.number oneAndHalf.value).Printable := ⟨oneAndHalf, rfl⟩
  have hself : Padded (· = oneAndHalf.text) oneAndHalf.text := padded_self rfl
  have hspells : Padded (Expr.number oneAndHalf.value).Spells oneAndHalf.text := padded_self ⟨oneAndHalf, rfl, rfl⟩
  obtain ⟨hiff, hread⟩ := (parse_printed hnumber).2 oneAndHalf.text hspells
  have hblank : Blanks [' '] := by simp [Blanks, isBlank]
  have hgroup : Grouped (Expr.number oneAndHalf.value).Spells ['(', ' ', '1', '.', '5', ')'] :=
    ⟨[' ', '1', '.', '5'], ⟨[' '], oneAndHalf.text, [], hblank, ⟨oneAndHalf, rfl, rfl⟩, blanks_nil, rfl⟩, rfl⟩
  have hspells' : Padded (Expr.negate (.number oneAndHalf.value)).Spells minusOneAndHalf :=
    padded_self ⟨[], _, blanks_nil, hgroup, rfl⟩
  refine ⟨hread oneAndHalf hself, fun h => ?_, ?_⟩
  · exact absurd (hiff.mp h oneAndHalf hself) (by decide +kernel)
  · refine ((parse_printed (e := .negate (.number oneAndHalf.value)) hnumber).2 minusOneAndHalf hspells').1.mpr ?_
    intro m hm
    obtain ⟨c, v, htext, hc⟩ := m.exists_head
    have htrim : trim minusOneAndHalf = m.text := trim_padded hm fun t ht => ht ▸ ⟨m.begins, m.ends⟩
    have hminus : trim minusOneAndHalf = minusOneAndHalf := by decide
    rw [← htrim, hminus] at htext
    obtain rfl : '-' = c := (List.cons.inj htext).1
    rcases hc with hc | hc <;> exact absurd hc (by decide)

end XmlMapping.XPath
