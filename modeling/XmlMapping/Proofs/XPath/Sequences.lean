import XmlMapping.Proofs.XPath.Enclosing
import XmlMapping.Proofs.XPath.Precedence

/-!
# Reading sequences

A sequence of operands and operators is read as the tree that applies the operators as their levels say. The
readers of the levels are gone through from the tightest to the loosest: each reads the trees of its level and
of all tighter ones.
-/

namespace XmlMapping.XPath

open Text

variable {n j : Nat} {b r s t u w : List Char} {a : Atom} {op : Operator} {e : Expr} {last : Bool}
  {read : List Char → Reading Expr} {ops : List Operator}

/-! ### What comes after an operand -/

/-- Whether a text can come after an operand: nothing, or an operator with one blank on each side. -/
def Follows (r : List Char) : Prop :=
  r = [] ∨ ∃ (op : Operator) (u : List Char), r = ' ' :: op.symbol.toList ++ ' ' :: u

theorem follows_operator : Follows (' ' :: op.symbol.toList ++ ' ' :: u) :=
  Or.inr ⟨op, u, rfl⟩

theorem skipBlanks_operator : skipBlanks (' ' :: op.symbol.toList ++ ' ' :: u) = op.symbol.toList ++ ' ' :: u :=
  skipBlanks_symbol op

theorem Follows.stops {p : Char → Bool} (h : Follows r) (hblank : p ' ' = false) : Stops p r := by
  rcases h with rfl | ⟨op, u, rfl⟩
  · exact stops_nil
  · exact stops_cons.mpr hblank

theorem Follows.avoids {c : Char} (h : Follows r) (hc : c ∈ ['(', '[', '/']) : Avoids c r := by
  rcases h with rfl | ⟨op, u, rfl⟩
  · have hnil : Before [] [] := before_nil
    exact hnil.avoids List.not_mem_nil
  · obtain ⟨d, word, hop, -, hd⟩ := exists_symbol op
    refine avoids_of_skipBlanks (d := d) (r := word ++ ' ' :: u) (by rw [skipBlanks_operator, hop]; rfl) ?_
    rintro rfl
    have hsub : ['(', '[', '/'] ⊆ '(' :: stepClosers := by decide
    exact hd (hsub hc)

/-- Whether no operator of a level or of a tighter one comes next. -/
def HaltsFrom (j : Nat) (r : List Char) : Prop :=
  ∀ op : Operator, j ≤ op.level → operator op (skipBlanks r) = none

theorem HaltsFrom.mono {i : Nat} (h : HaltsFrom i r) (hle : i ≤ j) : HaltsFrom j r := fun op hop =>
  h op (Nat.le_trans hle hop)

theorem HaltsFrom.halts (h : HaltsFrom j r) (hops : ∀ op ∈ ops, j ≤ op.level) : Halts ops (skipBlanks r) := by
  rw [Halts, skipBlanks_skipBlanks, List.findSome?_eq_none_iff]
  exact fun op hop => h op (hops op hop)

theorem haltsFrom_closers (h : Before closers r) : HaltsFrom j r := fun op _ =>
  List.findSome?_eq_none_iff.mp (halts_closers [op] h) op List.mem_cons_self

theorem head_symbol_ne {o : Operator} (h : op.level < o.level) : o.symbol.toList.head? ≠ op.symbol.toList.head? := by
  have hall : ∀ op ∈ allLevels.flatten, ∀ o ∈ allLevels.flatten, op.level < o.level →
      o.symbol.toList.head? ≠ op.symbol.toList.head? := by decide
  obtain ⟨ops, hops, hop⟩ := exists_level op
  obtain ⟨os, hos, ho⟩ := exists_level o
  exact hall op (List.mem_flatten_of_mem hops hop) o (List.mem_flatten_of_mem hos ho) h

/-- No tighter operator is read where an operator stands. -/
theorem haltsFrom_operator : HaltsFrom (op.level + 1) (' ' :: op.symbol.toList ++ ' ' :: u) := by
  intro o ho
  obtain ⟨c, word, hop, -, -⟩ := exists_symbol op
  rw [skipBlanks_operator]
  refine operator_none fun d hd => ?_
  have hne := head_symbol_ne ho
  rw [hop] at hd hne
  obtain rfl := Option.some.inj hd
  exact hne

/-! ### The expression of a tree -/

/-- The expression that an atom is, given whether the text ends with it: the digits after the point of a
    number do not count then. -/
def Atom.expr (last : Bool) : Atom → Expr
  | .name label => .path .context [⟨.child, .name ⟨none, label⟩, []⟩]
  | .number m => .number (if last then m.wholeValue else m.value)
  | .literal _ text => .literal text
  | .group _ value => value

namespace OpTree

/-- The expression that a tree stands for, given whether the text ends with it. -/
def expr (last : Bool) : OpTree → Expr
  | .atom a => a.expr last
  | .negate t => .negate (t.expr last)
  | .binary op l r => .binary op (l.expr false) (r.expr last)

/-- Whether the tokens of a tree are written as a text, all atoms being what they are said to be. -/
def Spells (t : OpTree) (w : List Char) : Prop :=
  SpellsTokens t.tokens w ∧ ∀ a, .atom a ∈ t.tokens → a.WellFormed

theorem Spells.atom (h : (OpTree.atom a).Spells w) : a.WellFormed ∧ w = a.text := by
  obtain ⟨⟨u, hu, rfl⟩, hatoms⟩ := h
  obtain rfl : u = [] := hu
  exact ⟨hatoms a List.mem_cons_self, List.append_nil _⟩

theorem Spells.negate {t : OpTree} (h : t.negate.Spells w) : ∃ b u, Blanks b ∧ t.Spells u ∧ w = '-' :: b ++ u := by
  obtain ⟨⟨b, u, hb, hu, rfl⟩, hatoms⟩ := h
  exact ⟨b, u, hb, ⟨hu, fun a ha => hatoms a (List.mem_cons_of_mem _ ha)⟩, rfl⟩

theorem Spells.binary {l r : OpTree} (h : (OpTree.binary op l r).Spells w) :
    ∃ u v, l.Spells u ∧ r.Spells v ∧ w = u ++ (' ' :: op.symbol.toList ++ ' ' :: v) := by
  obtain ⟨htokens, hatoms⟩ := h
  obtain ⟨u, w', hu, ⟨v, hv, rfl⟩, rfl⟩ := spellsTokens_append htokens
  exact ⟨u, v, ⟨hu, fun a ha => hatoms a (List.mem_append_left _ ha)⟩,
    ⟨hv, fun a ha => hatoms a (List.mem_append_right _ (List.mem_cons_of_mem _ ha))⟩, rfl⟩

end OpTree

/-! ### Atoms -/

theorem Atom.WellFormed.begins (h : a.WellFormed) : ∃ c v, a.text = c :: v ∧ isWhiteSpace c = false ∧ c ≠ '-' := by
  cases a with
  | name label =>
    obtain ⟨c, v, hlabel, hc, -⟩ := isName_eq_cons h
    exact ⟨c, v, hlabel, isWhiteSpace_of_isNameChar (isNameChar_of_isNameStart hc), ne_of_isNameStart hc (by decide)⟩
  | number m =>
    obtain ⟨c, v, hm, hc⟩ := m.exists_head
    refine ⟨c, v, hm, ?_, ?_⟩
    · rcases hc with hc | rfl
      · exact isWhiteSpace_of_isNameChar (isNameChar_of_isDigit hc)
      · decide
    · rintro rfl
      rcases hc with hc | hc <;> exact absurd hc (by decide)
  | literal quote text =>
    obtain ⟨rfl | rfl, -⟩ := h
    · exact ⟨_, _, rfl, by decide, by decide⟩
    · exact ⟨_, _, rfl, by decide, by decide⟩
  | group inside value => exact ⟨'(', inside ++ [')'], rfl, by decide, by decide⟩

theorem Atom.WellFormed.ends (h : a.WellFormed) : Ends a.text := by
  cases a with
  | name label => exact ends_of_isName h
  | number m => exact m.ends
  | literal quote text => exact ⟨quote :: text.toList, quote, rfl, by obtain ⟨rfl | rfl, -⟩ := h <;> decide⟩
  | group inside value => exact ⟨'(' :: inside, ')', rfl, by decide⟩

theorem locationPath_name {inner : Reader Expr} {label : String} (h : isName label.toList) (hr : Follows r) :
    locationPath inner (label.toList ++ r) = .ok (.path .context [⟨.child, .name ⟨none, label⟩, []⟩], r) := by
  have hhead := stepHead_name h (hr.stops (by decide)) (hr.stops (by decide))
    (hr.avoids (by decide))
  have hstep : step inner (label.toList ++ r) = .ok (⟨.child, .name ⟨none, label⟩, []⟩, r) := by
    rw [step, hhead]
    simp [Except.map, many_none (predicate_none (hr.avoids (by decide)))]
  have hslash : ∀ c ∈ r.head?, c ≠ '/' := fun c hc => by
    have hstop : Stops (· == '/') r := hr.stops (by decide)
    simpa using hstop c hc
  have hfirst : ∀ c ∈ (label.toList ++ r).head?, c ≠ '/' := by
    obtain ⟨c, v, hlabel, hc, -⟩ := isName_eq_cons h
    rw [hlabel]
    rintro d ⟨⟩
    exact ne_of_isNameStart hc (by decide)
  rw [locationPath, slashes_none hfirst]
  simp [hstep, Except.map, furtherSteps_none (slashes_none hslash)]

theorem operand_name {inner : Reader Expr} {label : String} (h : isName label.toList) (hr : Follows r) :
    operand inner (label.toList ++ r) = .ok (.path .context [⟨.child, .name ⟨none, label⟩, []⟩], skipBlanks r) := by
  have hnamed : QName.Named ⟨none, label⟩ := ⟨nofun, h⟩
  have hname := qName_append hnamed (hr.stops (by decide)) (hr.stops (by decide))
  have hpath : locationPath inner (label.toList ++ r) = _ := locationPath_name h hr
  obtain ⟨c, v, hlabel, hc, -⟩ := isName_eq_cons h
  rw [QName.toList_text] at hname
  simp only [hlabel, List.cons_append] at hname hpath ⊢
  have hskip : skipBlanks (c :: (v ++ r)) = c :: (v ++ r) :=
    skipBlanks_cons (isBlank_of_isWhiteSpace (isWhiteSpace_of_isNameChar (isNameChar_of_isNameStart hc)))
  refine operand_location (primary_name hskip hc hname (hr.avoids (by decide))) ?_
  rw [hskip]
  exact hpath

/-- What stands in parentheses is an expression with them, which is read alike wherever they stand. -/
theorem exists_primary_enclosed {inside : List Char} (h : expression inside = .ok (e, [])) :
    ∃ e', Expr.parse (.ofList ('(' :: inside ++ [')'])) = .ok e' ∧
      ∀ n r, ('(' :: inside ++ ')' :: r).length ≤ n →
        primary (within n) ('(' :: inside ++ ')' :: r) = some (e', skipBlanks r) := by
  obtain ⟨e', hread⟩ := expression_enclosed h
  have hprimary (n : Nat) (r : List Char) (hlen : ('(' :: inside ++ ')' :: r).length ≤ n) :
      primary (within n) ('(' :: inside ++ ')' :: r) = some (e', skipBlanks r) := by
    have hshort : (inside ++ ')' :: r).length < n := hlen
    have hinner : within n (inside ++ ')' :: r) = some (e', ')' :: r) := by
      rw [within, if_pos hshort, hread r]
      rfl
    have hclose : padded (symbol ')') (')' :: r) = some ((), skipBlanks r) :=
      padded_symbol (skipBlanks_cons (by decide))
    rw [← skipBlanks_skipBlanks (s := r)]
    refine primary_of_group (skipBlanks_cons (by decide)) ?_
    simp [group, symbol, hinner, hclose]
  have hminus : Avoids '-' ('(' :: inside ++ [')']) := avoids_of_skipBlanks (skipBlanks_cons (by decide)) (by decide)
  have htrim : trim ('(' :: inside ++ [')']) = '(' :: inside ++ [')'] :=
    trim_padded (p := (· = _)) (padded_self rfl) fun v hv => by
      rw [hv]
      exact ⟨⟨'(', inside ++ [')'], rfl, by decide⟩, ⟨'(' :: inside, ')', rfl, by decide⟩⟩
  refine ⟨e', parse_of_expression ?_, hprimary⟩
  rw [htrim]
  exact expression_primary (hprimary _ [] (Nat.le_refl _)) before_nil hminus

theorem primary_wellFormed {inside : List Char} {value : Expr} (h : (Atom.group inside value).WellFormed)
    (hlen : ((Atom.group inside value).text ++ r).length ≤ n) :
    primary (within n) ((Atom.group inside value).text ++ r) = some (value, skipBlanks r) := by
  obtain ⟨⟨e, halone⟩, hvalue⟩ := h
  obtain ⟨e', hparse, hprimary⟩ := exists_primary_enclosed halone
  rw [hvalue] at hparse
  obtain rfl := Except.ok.inj hparse
  have hform : (Atom.group inside value).text ++ r = '(' :: inside ++ ')' :: r := by simp [Atom.text]
  rw [hform] at hlen ⊢
  exact hprimary n r hlen

/-- An atom is read as the expression that it is. -/
theorem operand_atom (h : a.WellFormed) (hr : Follows r) (hlen : (a.text ++ r).length ≤ n) :
    operand (within n) (a.text ++ r) = .ok (a.expr r.isEmpty, skipBlanks r) := by
  have hprimary (e : Expr) (h : primary (within n) (a.text ++ r) = some (e, skipBlanks r)) :
      operand (within n) (a.text ++ r) = .ok (e, skipBlanks r) :=
    operand_primary h (avoids_skipBlanks.mpr (hr.avoids (by decide))) (hr.avoids (by decide))
  obtain ⟨c, v, htext, hc, -⟩ := h.begins
  have hskip : skipBlanks (a.text ++ r) = a.text ++ r := by
    rw [htext]
    exact skipBlanks_cons (isBlank_of_isWhiteSpace hc)
  cases a with
  | name label => exact operand_name h hr
  | number m => exact hprimary _ (primary_number hskip (hr.stops (by decide)) (hr.stops (by decide)))
  | literal quote text => exact hprimary _ (primary_literal h.1 h.2 (by simpa [Atom.text] using hskip))
  | group inside value => exact hprimary _ (primary_wellFormed h hlen)

/-! ### Trees -/

namespace OpTree

theorem Spells.begins {t : OpTree} (ht : t.Binds) (h : t.Spells w) :
    ∃ c v, w = c :: v ∧ isWhiteSpace c = false ∧ (minusLevel < t.level → c ≠ '-') := by
  induction t generalizing w with
  | atom a =>
    obtain ⟨ha, rfl⟩ := h.atom
    obtain ⟨c, v, htext, hc, hminus⟩ := ha.begins
    exact ⟨c, v, htext, hc, fun _ => hminus⟩
  | negate t =>
    obtain ⟨b, u, -, -, rfl⟩ := h.negate
    exact ⟨'-', b ++ u, rfl, by decide, fun hlt => absurd hlt (Nat.lt_irrefl _)⟩
  | binary op l r ihl =>
    obtain ⟨hl, -, hbl, -⟩ := ht
    obtain ⟨u, v, hu, -, rfl⟩ := h.binary
    obtain ⟨c, v', rfl, hc, hminus⟩ := ihl hbl hu
    exact ⟨c, _, rfl, hc, fun hlt => hminus (Nat.lt_of_lt_of_le hlt hl)⟩

theorem Spells.ends {t : OpTree} (h : t.Spells w) : Ends w := by
  induction t generalizing w with
  | atom a =>
    obtain ⟨ha, rfl⟩ := h.atom
    exact ha.ends
  | negate t ih =>
    obtain ⟨b, u, -, hu, rfl⟩ := h.negate
    exact (ih hu).append
  | binary op l r _ ihr =>
    obtain ⟨u, v, -, hv, rfl⟩ := h.binary
    exact (ihr hv).cons.append.append

theorem Spells.skipBlanks_eq {t : OpTree} (ht : t.Binds) (h : t.Spells w) : skipBlanks (w ++ r) = w ++ r := by
  obtain ⟨c, v, rfl, hc, -⟩ := h.begins ht
  exact skipBlanks_cons (isBlank_of_isWhiteSpace hc)

end OpTree

/-! ### Levels -/

/-- Whether a reader reads the trees of a level and of tighter ones from texts that are not longer than a
    bound. -/
def ReadsFrom (n j : Nat) (read : List Char → Reading Expr) : Prop :=
  ∀ (t : OpTree) (w r : List Char), t.Binds → j ≤ t.level → t.Spells w → Follows r → HaltsFrom j r →
    (w ++ r).length ≤ n → read (w ++ r) = .ok (t.expr r.isEmpty, skipBlanks r)

theorem readsFrom_operand : ReadsFrom n atomLevel (operand (within n)) := by
  intro t w r _ hlevel hw hr _ hlen
  cases t with
  | atom a =>
    obtain ⟨ha, rfl⟩ := hw.atom
    exact operand_atom ha hr hlen
  | negate t => exact absurd hlevel (Nat.not_le_of_lt minusLevel_lt_atomLevel)
  | binary op l r => exact absurd (Nat.le_trans hlevel op.level_le) (by decide)

/-- Minus signs are read before what they negate. -/
theorem readsFrom_signed (h : ReadsFrom n (minusLevel + 1) read) : ReadsFrom n minusLevel (signed read) := by
  intro t w r ht hlevel hw hr hhalts hlen
  have hdirect (t : OpTree) (w : List Char) (ht : t.Binds) (hlt : minusLevel < t.level) (hw : t.Spells w)
      (hlen : (w ++ r).length ≤ n) : signed read (w ++ r) = .ok (t.expr r.isEmpty, skipBlanks r) := by
    refine signed_ok (h t w r ht hlt hw hr (hhalts.mono (Nat.le_succ _)) hlen) ?_
    obtain ⟨c, v, rfl, hc, hminus⟩ := hw.begins ht
    exact avoids_of_skipBlanks (skipBlanks_cons (isBlank_of_isWhiteSpace hc)) (hminus hlt)
  induction t generalizing w with
  | atom a => exact hdirect _ w ht minusLevel_lt_atomLevel hw hlen
  | negate t ih =>
    obtain ⟨hle, hbinds⟩ := ht
    obtain ⟨b, u, hb, hu, rfl⟩ := hw.negate
    have hskip : skipBlanks (b ++ (u ++ r)) = u ++ r := by rw [skipBlanks_append hb, hu.skipBlanks_eq hbinds]
    have hshort : (u ++ r).length ≤ n := by
      simp only [List.length_append, List.length_cons] at hlen ⊢
      omega
    have hread := ih u hbinds hle hu hshort
    rw [← hskip] at hread
    simp only [List.cons_append, List.append_assoc]
    exact signed_minus (skipBlanks_cons (by decide)) hread
  | binary op l r' =>
    exact hdirect _ w ht (Nat.lt_of_le_of_ne hlevel op.level_ne_minus.symm) hw hlen

theorem mem_level_iff {o : Operator} (hops : ops ∈ allLevels) (ho : o ∈ ops) : op ∈ ops ↔ op.level = o.level := by
  have hall : ∀ ops ∈ allLevels, ∀ o ∈ ops, ∀ op ∈ allLevels.flatten, op ∈ ops ↔ op.level = o.level := by decide
  obtain ⟨os, hos, hop⟩ := exists_level op
  exact hall ops hops o ho op (List.mem_flatten_of_mem hos hop)

/-- The level of some operators applies them from left to right to what the tighter level reads. -/
theorem chain_tree {o : Operator} (hops : ops ∈ allLevels) (ho : o ∈ ops) (h : ReadsFrom n (o.level + 1) read)
    {t : OpTree} (ht : t.Binds) (hle : o.level ≤ t.level) (hw : t.Spells w) (hr : Follows r)
    (hhalts : HaltsFrom (o.level + 1) r) (hlen : (w ++ r).length ≤ n) :
    chain ops read (w ++ r) = .ok (continued ops read (t.expr r.isEmpty) (skipBlanks r)) := by
  induction t generalizing w r with
  | atom a => exact chain_eq (h _ w r ht (Nat.lt_succ_of_le o.level_le) hw hr hhalts hlen)
  | negate t => exact chain_eq (h _ w r ht (Nat.lt_of_le_of_ne hle o.level_ne_minus) hw hr hhalts hlen)
  | binary op left right ihl =>
    rcases Nat.lt_or_eq_of_le hle with hlt | heq
    · exact chain_eq (h _ w r ht hlt hw hr hhalts hlen)
    · obtain ⟨hl, hlt, hbl, hbr⟩ := ht
      obtain ⟨u, v, hu, hv, rfl⟩ := hw.binary
      have hlevel : op.level = o.level := heq.symm
      have hform : u ++ (' ' :: op.symbol.toList ++ ' ' :: v) ++ r =
          u ++ (' ' :: op.symbol.toList ++ ' ' :: (v ++ r)) := by simp
      rw [hform] at hlen ⊢
      have hhalts' : HaltsFrom (o.level + 1) (' ' :: op.symbol.toList ++ ' ' :: (v ++ r)) :=
        hlevel ▸ haltsFrom_operator
      have hleft := ihl hbl (hlevel ▸ hl) hu follows_operator hhalts' hlen
      rw [hleft, skipBlanks_operator]
      have hown : ops.findSome? (operator · (skipBlanks (op.symbol.toList ++ ' ' :: (v ++ r)))) =
          some (op, ' ' :: (v ++ r)) := by
        rw [skipBlanks_symbol]
        exact findSome?_operator hops ((mem_level_iff hops ho).mpr hlevel) (fun _ => stops_cons.mpr (by decide))
          (stops_cons.mpr (by decide))
      have hshort : (v ++ r).length ≤ n := by
        simp only [List.length_append, List.length_cons] at hlen ⊢
        omega
      have hright : read (skipBlanks (' ' :: (v ++ r))) = .ok (right.expr r.isEmpty, skipBlanks r) := by
        rw [skipBlanks_blank, hv.skipBlanks_eq hbr]
        exact h _ v r hbr (hlevel ▸ hlt) hv hr hhalts hshort
      have hless : (skipBlanks r).length < (op.symbol.toList ++ ' ' :: (v ++ r)).length := by
        have := length_skipBlanks_le (s := r)
        simp only [List.length_append, List.length_cons]
        omega
      rw [continued_operator hown hright hless]
      rfl

theorem readsFrom_chain {o : Operator} (hops : ops ∈ allLevels) (ho : o ∈ ops) (h : ReadsFrom n (o.level + 1) read) :
    ReadsFrom n o.level (chain ops read) := by
  intro t w r ht hle hw hr hhalts hlen
  have hlast : Halts ops (skipBlanks r) :=
    hhalts.halts fun op hop => Nat.le_of_eq ((mem_level_iff hops ho).mp hop).symm
  rw [chain_tree hops ho h ht hle hw hr (hhalts.mono (Nat.le_succ _)) hlen, continued_halts hlast]

/-- The readers of the levels, from the tightest to the loosest: what holds of the reader of operands and is handed
    on by the level of some operators and by the minus signs holds of the reader of expressions. -/
theorem levels_induction {motive : Nat → (List Char → Reading Expr) → Prop} {atoms : List Char → Reading Expr}
    (hatoms : motive atomLevel atoms)
    (hchain : ∀ {ops o read}, ops ∈ allLevels → o ∈ ops → motive (o.level + 1) read → motive o.level (chain ops read))
    (hsigned : ∀ {read}, motive (minusLevel + 1) read → motive minusLevel (signed read)) :
    motive 0 (layered (signed (chain [.union] atoms)) levels) := by
  have hunion : motive (minusLevel + 1) (chain [.union] atoms) := hchain (o := .union) (by decide) (by decide) hatoms
  simp only [levels, layered]
  refine hchain (o := .or) (by decide) (by decide) ?_
  refine hchain (o := .and) (by decide) (by decide) ?_
  refine hchain (o := .comparison .equal) (by decide) (by decide) ?_
  refine hchain (o := .comparison .less) (by decide) (by decide) ?_
  refine hchain (o := .arithmetic .plus) (by decide) (by decide) ?_
  exact hchain (o := .arithmetic .times) (by decide) (by decide) (hsigned hunion)

theorem readsFrom_levels (n : Nat) :
    ReadsFrom n 0 (layered (signed (chain [.union] (operand (within n)))) levels) :=
  levels_induction (motive := ReadsFrom n) readsFrom_operand readsFrom_chain readsFrom_signed

/-! ### Whole texts -/

namespace OpTree
variable {t : OpTree}

theorem expression_eq (ht : t.Binds) (hw : t.Spells w) : expression w = .ok (t.expr true, []) := by
  have hread := readsFrom_levels w.length t w [] ht (Nat.zero_le _) hw (Or.inl rfl) (haltsFrom_closers before_nil)
    (Nat.le_of_eq (by rw [List.append_nil]))
  rw [List.append_nil] at hread
  rw [XPath.expression_eq]
  exact hread

theorem parse_eq (ht : t.Binds) (hw : t.Spells w) : Expr.parse (.ofList w) = .ok (t.expr true) := by
  have htrim : trim w = w := trim_padded (p := (· = w)) (padded_self rfl) fun v hv => by
    obtain ⟨c, u, hc, hwhite, -⟩ := hw.begins ht
    rw [hv]
    exact ⟨⟨c, u, hc, hwhite⟩, hw.ends⟩
  exact parse_of_expression (htrim.symm ▸ expression_eq ht hw)

/-- The last atom of a tree. -/
def lastAtom : OpTree → Atom
  | .atom a => a
  | .negate t => t.lastAtom
  | .binary _ _ r => r.lastAtom

theorem getLast?_tokens (t : OpTree) : t.tokens.getLast? = some (.atom t.lastAtom) := by
  induction t with
  | atom a => rfl
  | negate t ih => rw [tokens, List.getLast?_cons, ih]; rfl
  | binary op l r _ ih => rw [tokens, List.getLast?_append, List.getLast?_cons, ih]; rfl

theorem expr_eq_iff_lastAtom (t : OpTree) :
    t.expr true = t.expr false ↔ t.lastAtom.expr true = t.lastAtom.expr false := by
  induction t with
  | atom a => rfl
  | negate t ih => rw [expr, expr, Expr.negate.injEq, ih, lastAtom]
  | binary op l r _ ih => simp [expr, ih, lastAtom]

/-- The text loses digits of its last number if there is one and these digits make a difference. -/
theorem expr_eq_iff (t : OpTree) :
    t.expr true = t.expr false ↔ ∀ m, t.tokens.getLast? = some (.atom (.number m)) → m.wholeValue = m.value := by
  rw [expr_eq_iff_lastAtom, getLast?_tokens]
  cases t.lastAtom with
  | number m => simp [Atom.expr]
  | _ => simp [Atom.expr]

end OpTree

/-- There is one way to apply the operators of a sequence as their levels say, and every text that the sequence
    is written as is parsed as the expression that this gives, except that a number at its very end is read
    without the digits after its point. The expression is the right one unless these digits change the number. -/
theorem parse_sequence {ts : List Token} (hts : Sequence ts) (hatoms : ∀ a, .atom a ∈ ts → a.WellFormed)
    (hw : SpellsTokens ts w) :
    ∃ t : OpTree, t.Binds ∧ t.tokens = ts ∧ (∀ t' : OpTree, t'.Binds → t'.tokens = ts → t' = t) ∧
      Expr.parse (.ofList w) = .ok (t.expr true) ∧
      (Expr.parse (.ofList w) = .ok (t.expr false) ↔
        ∀ m, ts.getLast? = some (.atom (.number m)) → m.wholeValue = m.value) := by
  obtain ⟨t, ht, rfl⟩ := hts.exists_tree
  have hparse := t.parse_eq ht ⟨hw, hatoms⟩
  refine ⟨t, ht, rfl, fun t' ht' htokens => OpTree.eq_of_tokens ht' ht htokens, hparse, ?_⟩
  rw [hparse, Except.ok.injEq]
  exact t.expr_eq_iff

/-- `-or | mod * (1.5) + 1.5` -/
def mixedTree : OpTree :=
  .binary (.arithmetic .plus)
    (.binary (.arithmetic .times) (.negate (.binary .union (.atom (.name "or")) (.atom (.name "mod"))))
      (.atom (.group oneAndHalf.text (.number oneAndHalf.value))))
    (.atom (.number oneAndHalf))

theorem wellFormed_oneAndHalf : (Atom.group oneAndHalf.text (.number oneAndHalf.value)).WellFormed := by
  refine ⟨⟨_, expression_number oneAndHalf (r := []) (by rfl) before_nil⟩, ?_⟩
  with_unfolding_all rfl

theorem parse_sequence_mixed :
    Expr.parse "-or | mod * (1.5) + 1.5" = .ok (mixedTree.expr true) ∧
      Expr.parse "-or | mod * (1.5) + 1.5" ≠ .ok (mixedTree.expr false) := by
  have hts : Sequence mixedTree.tokens :=
    .snoc (.arithmetic .plus) 0 (.number oneAndHalf)
      (.snoc (.arithmetic .times) 0 (.group oneAndHalf.text (.number oneAndHalf.value))
        (.snoc .union 0 (.name "mod") (.one 1 (.name "or")) fun _ => rfl) nofun) nofun
  have hatoms : ∀ a, .atom a ∈ mixedTree.tokens → a.WellFormed := by
    intro a ha
    have hcases : a = .name "or" ∨ a = .name "mod" ∨ a = .group oneAndHalf.text (.number oneAndHalf.value) ∨
        a = .number oneAndHalf := by simpa [mixedTree, OpTree.tokens] using ha
    rcases hcases with rfl | rfl | rfl | rfl
    · exact (by decide : isName "or".toList)
    · exact (by decide : isName "mod".toList)
    · exact wellFormed_oneAndHalf
    · trivial
  have htext : spelling mixedTree.tokens = "-or | mod * (1.5) + 1.5".toList := by decide
  have hw : SpellsTokens mixedTree.tokens "-or | mod * (1.5) + 1.5".toList :=
    htext ▸ spellsTokens_spelling mixedTree.tokens
  obtain ⟨t, -, -, hunique, hparse, hiff⟩ := parse_sequence hts hatoms hw
  obtain rfl := hunique mixedTree (by decide) rfl
  rw [String.ofList_toList] at hparse hiff
  refine ⟨hparse, fun h => ?_⟩
  exact absurd (hiff.mp h oneAndHalf rfl) (by decide +kernel)

end XmlMapping.XPath
