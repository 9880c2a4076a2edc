import XmlMapping.Proofs.XPath.Layers

/-!
# Reading operands

What the readers of predicates, steps, arguments and operands give on printed texts, for any reader of inner
expressions that reads back what is printed between brackets or parentheses.
-/

namespace XmlMapping.XPath

open Text

variable {inner : Reader Expr} {n : Nat} {b g r s t u : List Char} {e : Expr}

/-- Whether a text is another one with the blanks at its front or without them. -/
def Remains (r r' : List Char) : Prop :=
  r' = r ∨ r' = skipBlanks r

theorem Remains.skipBlanks_eq (h : Remains r s) : skipBlanks s = skipBlanks r := by
  rcases h with rfl | rfl
  · rfl
  · exact skipBlanks_skipBlanks

theorem Before.remains {cs : List Char} (hr : Before cs r) (h : Remains r s) : Before cs s := by
  rwa [Before, h.skipBlanks_eq]

theorem Remains.length_le (h : Remains r s) : s.length ≤ r.length := by
  rcases h with rfl | rfl
  · exact Nat.le_refl _
  · exact length_skipBlanks_le

/-- Whether a reader of inner expressions reads an expression back from texts shorter than a bound in which
    something that ends an expression comes after it. -/
def ReadsIn (inner : Reader Expr) (n : Nat) (e : Expr) : Prop :=
  ∀ g r, Padded e.Spells g → Before closers r → r ≠ [] → (g ++ r).length < n →
    ∃ r', inner (g ++ r) = some (e, r') ∧ skipBlanks r' = skipBlanks r ∧ r'.length ≤ (g ++ r).length

/-- Blanks in front of an inner expression may be skipped before it is read. -/
theorem ReadsIn.skipped (h : ReadsIn inner n e) (he : e.Printable) (hg : Padded e.Spells g) (hr : Before closers r)
    (hne : r ≠ []) (hlen : (g ++ r).length < n) :
    ∃ r', inner (skipBlanks (g ++ r)) = some (e, r') ∧ skipBlanks r' = skipBlanks r ∧
      r'.length ≤ (g ++ r).length := by
  obtain ⟨b, t, b', hb, ht, hb', rfl⟩ := hg
  obtain ⟨c, v, rfl, hc⟩ := (ht.ends he).1
  have hblank : isBlank c = false := isBlank_of_isWhiteSpace hc
  have hskip : skipBlanks (b ++ (c :: v) ++ b' ++ r) = [] ++ (c :: v) ++ b' ++ r := by
    simp only [List.append_assoc, skipBlanks_append hb, List.cons_append, skipBlanks_cons hblank, List.nil_append]
  have hle : ([] ++ (c :: v) ++ b' ++ r).length ≤ (b ++ (c :: v) ++ b' ++ r).length := length_le_of_skipBlanks hskip
  obtain ⟨r', hr', hend, hlen'⟩ :=
    h _ r ⟨[], c :: v, b', blanks_nil, ht, hb', rfl⟩ hr hne (Nat.lt_of_le_of_lt hle hlen)
  rw [hskip]
  exact ⟨r', hr', hend, Nat.le_trans hlen' hle⟩

/-! ### Predicates -/

theorem predicate_none (h : Avoids '[' s) : predicate inner s = none := by
  rw [predicate, padded_symbol_none h]
  rfl

theorem predicate_append {p : Expr} (hp : ReadsIn inner n p) (hprint : p.Printable) (hg : Padded p.Spells g)
    (hs : skipBlanks s = '[' :: g ++ ']' :: r) (hlen : s.length ≤ n) :
    predicate inner s = some (p, skipBlanks r) := by
  have hshort : (g ++ ']' :: r).length < n := by
    have := length_le_of_skipBlanks hs
    rw [List.cons_append, List.length_cons] at this
    omega
  obtain ⟨r', hr', hend, -⟩ :=
    hp.skipped hprint hg (before_cons (by decide) (by decide)) (List.cons_ne_nil ']' r) hshort
  have hopen : padded (symbol '[') s = some ((), skipBlanks (g ++ ']' :: r)) := padded_symbol hs
  have hclose : padded (symbol ']') r' = some ((), skipBlanks r) :=
    padded_symbol (hend.trans (skipBlanks_cons (by decide)))
  simp [predicate, hopen, hr', hclose]

theorem many_predicate {ps : List Expr} (hps : ∀ p ∈ ps, ReadsIn inner n p) (hprint : PrintableAll ps)
    (ht : SpellsPredicates ps t) (hs : skipBlanks s = skipBlanks (t ++ r)) (hr : Avoids '[' r) (hlen : s.length ≤ n) :
    many (predicate inner) s = (ps, if ps.isEmpty then s else skipBlanks r) := by
  induction ps generalizing s t with
  | nil =>
    obtain rfl : t = [] := ht
    refine many_none (predicate_none ?_)
    rwa [Avoids, hs]
  | cons p ps ih =>
    obtain ⟨b, g, u, hb, hg, hu, rfl⟩ := ht
    have hopen : skipBlanks s = '[' :: g ++ ']' :: (u ++ r) := by
      rw [hs]
      simp [skipBlanks_append hb, skipBlanks_cons (c := '[') (by decide)]
    have hfirst : predicate inner s = some (p, skipBlanks (u ++ r)) :=
      predicate_append (hps p List.mem_cons_self) hprint.1 hg hopen hlen
    have hshort : (skipBlanks (u ++ r)).length < s.length := by
      have hs := length_le_of_skipBlanks hopen
      have hu := length_skipBlanks_le (s := u ++ r)
      simp only [List.length_append, List.length_cons] at hs hu
      omega
    -- The closing bracket takes the blanks after it, so the next predicate is read from a text without them.
    have hrest := ih (fun q hq => hps q (List.mem_cons_of_mem p hq)) hprint.2 hu skipBlanks_skipBlanks
      (Nat.le_trans (Nat.le_of_lt hshort) hlen)
    rw [many_some hfirst hshort, hrest]
    cases ps with
    | nil =>
      obtain rfl : u = [] := hu
      rfl
    | cons q ps => rfl

/-! ### Steps -/

theorem before_predicates {ps : List Expr} (h : SpellsPredicates ps t) (hr : Before ('/' :: closers) r) :
    Before stepClosers (t ++ r) := by
  cases ps with
  | nil =>
    obtain rfl : t = [] := h
    exact hr.mono (by decide)
  | cons p ps =>
    obtain ⟨b, g, u, hb, -, -, rfl⟩ := h
    simp only [List.append_assoc, List.cons_append]
    exact before_append hb (before_cons (by decide) (by decide))

theorem before_steps {gap : Bool} {ss : List Step} (h : SpellsSteps gap ss t) (hr : Before closers r) :
    Before ('/' :: closers) (t ++ r) := by
  cases ss with
  | nil =>
    obtain rfl : t = [] := h
    exact hr.mono (by decide)
  | cons s ss =>
    obtain ⟨b, u, v, hb, -, -, -, rfl⟩ := h
    simp only [List.append_assoc, List.cons_append]
    exact before_append hb (before_cons (by decide) (by decide))

/-- Whether a reader of inner expressions reads back the predicates of a step. -/
def Step.ReadsIn (inner : Reader Expr) (n : Nat) : Step → Prop
  | ⟨_, _, predicates⟩ => ∀ p ∈ predicates, XPath.ReadsIn inner n p

theorem step_append {x : Step} (hx : x.ReadsIn inner n) (hprint : x.Printable) (ht : x.Spells t)
    (hr : Before ('/' :: closers) r) (hlen : (t ++ r).length ≤ n) :
    ∃ rest, step inner (t ++ r) = .ok (x, rest) ∧ rest.length ≤ r.length ∧
      (rest = skipBlanks r ∨ x.hasPredicates = false ∧ rest = r) := by
  obtain ⟨direction, test, predicates⟩ := x
  obtain ⟨u, hu, rfl⟩ := ht
  have hhead : stepHead (direction.name.toList ++ ':' :: ':' :: test.text ++ (u ++ r)) =
      .ok ((direction, test), u ++ r) := stepHead_append hprint.1 (before_predicates hu hr)
  have hshort : (u ++ r).length ≤ n := by
    simp only [List.length_append, List.length_cons] at hlen ⊢
    omega
  have hmany := many_predicate hx hprint.2 hu rfl (hr.avoids (by decide)) hshort
  have hstep : step inner (direction.name.toList ++ ':' :: ':' :: test.text ++ u ++ r) =
      .ok (⟨direction, test, predicates⟩, if predicates.isEmpty then u ++ r else skipBlanks r) := by
    rw [step, List.append_assoc, hhead]
    simp only [Except.map, hmany]
  cases predicates with
  | nil =>
    obtain rfl : u = [] := hu
    exact ⟨r, hstep, Nat.le_refl _, Or.inr ⟨rfl, rfl⟩⟩
  | cons p ps => exact ⟨skipBlanks r, hstep, length_skipBlanks_le, Or.inl rfl⟩

theorem slashes_none (h : ∀ c ∈ s.head?, c ≠ '/') : slashes s = none := by
  cases s with
  | nil => rfl
  | cons c s =>
    have hc : c ≠ '/' := h c rfl
    simp [slashes, hc]

theorem Before.head_ne_slash (h : Before closers s) : ∀ c ∈ s.head?, c ≠ '/' := fun c hc => by
  have hslash : Stops (· == '/') s := h.stops (by decide)
  simpa using hslash c hc

theorem slashes_one (h : ∀ c ∈ s.head?, c ≠ '/') : slashes ('/' :: s) = some (false, s) := by
  cases s with
  | nil => rfl
  | cons c s =>
    have hc : c ≠ '/' := h c rfl
    simp [slashes, hc]

theorem Step.Spells.head_ne {x : Step} (h : x.Spells t) : ∀ c ∈ (t ++ r).head?, c ≠ '/' := by
  obtain ⟨direction, test, predicates⟩ := x
  obtain ⟨u, -, rfl⟩ := h
  obtain ⟨d, v, hd, hstart, -⟩ := isName_eq_cons (isName_axis direction)
  intro c hc
  rw [hd] at hc
  obtain rfl := Option.some.inj hc
  exact ne_of_isNameStart hstart (by decide)

theorem furtherSteps_none (h : slashes s = none) : furtherSteps inner s = ([], s) := by
  rw [furtherSteps, many_none (by simp [h])]
  rfl

theorem furtherSteps_cons {x : Step} (h : slashes s = some (false, t)) (hstep : step inner t = .ok (x, r))
    (hlen : r.length < s.length) :
    furtherSteps inner s = (x :: (furtherSteps inner r).1, (furtherSteps inner r).2) := by
  rw [furtherSteps, many_some (a := [x]) (r := r) (by simp [h, hstep, Except.toOption, expandSlashes]) hlen]
  rfl

/-- Printed steps are read back one by one, and what comes after them is left with its blanks or without. -/
theorem furtherSteps_append {gap : Bool} {ss : List Step} (hss : ∀ x ∈ ss, x.ReadsIn inner n)
    (hprint : PrintableSteps ss) (ht : SpellsSteps gap ss t)
    (hs : s = skipBlanks (t ++ r) ∨ gap = false ∧ s = t ++ r) (hr : Before closers r) (hlen : s.length ≤ n) :
    ∃ r', furtherSteps inner s = (ss, r') ∧ Remains r r' := by
  induction ss generalizing s t gap with
  | nil =>
    obtain rfl : t = [] := ht
    have hs' : Remains r s := by
      rcases hs with rfl | ⟨-, rfl⟩
      · exact Or.inr rfl
      · exact Or.inl rfl
    exact ⟨s, furtherSteps_none (slashes_none (hr.remains hs').head_ne_slash), hs'⟩
  | cons x ss ih =>
    obtain ⟨b, u, v, hb, hgap, hu, hv, rfl⟩ := ht
    -- Blanks in front of the slash come after a bracket or a parenthesis, which has taken them already.
    have hs' : s = '/' :: (u ++ (v ++ r)) := by
      rcases hs with rfl | ⟨rfl, rfl⟩
      · simp [skipBlanks_append hb, skipBlanks_cons (c := '/') (by decide)]
      · cases b with
        | nil => simp
        | cons c b => exact absurd (hgap (List.cons_ne_nil c b)) Bool.false_ne_true
    have hslash : slashes s = some (false, u ++ (v ++ r)) := by
      rw [hs']
      exact slashes_one hu.head_ne
    have hshort : (u ++ (v ++ r)).length ≤ n := by
      rw [hs', List.length_cons] at hlen
      omega
    obtain ⟨rest, hstep, hle, hrest⟩ :=
      step_append (hss x List.mem_cons_self) hprint.1 hu (before_steps hv hr) hshort
    have hless : rest.length < s.length := by
      rw [hs', List.length_cons, List.length_append]
      omega
    obtain ⟨r', hmore, hr'⟩ := ih (fun y hy => hss y (List.mem_cons_of_mem x hy)) hprint.2 hv hrest
      (Nat.le_trans (Nat.le_of_lt hless) hlen)
    refine ⟨r', ?_, hr'⟩
    rw [furtherSteps_cons hslash hstep hless, hmore]

/-- The first step of a path and the steps after it. -/
theorem firstSteps_append {x : Step} {ss : List Step} (hss : ∀ y ∈ x :: ss, y.ReadsIn inner n)
    (hprint : PrintableSteps (x :: ss)) (hu : x.Spells u) (ht : SpellsSteps x.hasPredicates ss t)
    (hr : Before closers r) (hlen : (u ++ (t ++ r)).length ≤ n) :
    ∃ rest, step inner (u ++ (t ++ r)) = .ok (x, rest) ∧
      ∃ r', furtherSteps inner rest = (ss, r') ∧ Remains r r' := by
  obtain ⟨rest, hstep, hle, hrest⟩ := step_append (hss x List.mem_cons_self) hprint.1 hu (before_steps ht hr) hlen
  have hshort : rest.length ≤ n := by
    rw [List.length_append] at hlen
    omega
  exact ⟨rest, hstep,
    furtherSteps_append (fun y hy => hss y (List.mem_cons_of_mem x hy)) hprint.2 ht hrest hr hshort⟩

theorem locationPath_context {ss : List Step} (hne : ss ≠ []) (hss : ∀ x ∈ ss, x.ReadsIn inner n)
    (hprint : PrintableSteps ss) (ht : SpellsSteps false ss ('/' :: t)) (hr : Before closers r)
    (hlen : (t ++ r).length ≤ n) :
    ∃ r', locationPath inner (t ++ r) = .ok (.path .context ss, r') ∧ Remains r r' := by
  cases ss with
  | nil => exact absurd rfl hne
  | cons x ss =>
    obtain ⟨u, v, hu, hv, h⟩ := ht.eq_cons
    obtain ⟨-, rfl⟩ := List.cons.inj h
    rw [List.append_assoc] at hlen ⊢
    obtain ⟨rest, hstep, r', hmore, hr'⟩ := firstSteps_append hss hprint hu hv hr hlen
    refine ⟨r', ?_, hr'⟩
    rw [locationPath, slashes_none hu.head_ne]
    simp [hstep, hmore, Except.map]

theorem locationPath_root {ss : List Step} (hss : ∀ x ∈ ss, x.ReadsIn inner n)
    (hprint : PrintableSteps ss) (ht : (Expr.path .root ss).Spells t) (hr : Before closers r)
    (hlen : (t ++ r).length ≤ n) :
    ∃ r', locationPath inner (t ++ r) = .ok (.path .root ss, r') ∧ Remains r r' := by
  cases ss with
  | nil =>
    obtain rfl : t = ['/'] := ht
    have hnone : step inner r = .error r := by
      rw [step, stepHead_error hr]
      rfl
    refine ⟨r, ?_, Or.inl rfl⟩
    rw [locationPath, List.singleton_append, slashes_one hr.head_ne_slash]
    simp [hnone]
  | cons x ss =>
    obtain ⟨u, v, hu, hv, rfl⟩ := SpellsSteps.eq_cons (t := t) (by simpa [Expr.Spells] using ht)
    rw [List.cons_append, List.append_assoc] at hlen ⊢
    obtain ⟨rest, hstep, r', hmore, hr'⟩ := firstSteps_append hss hprint hu hv hr (Nat.le_of_succ_le hlen)
    refine ⟨r', ?_, hr'⟩
    rw [locationPath, slashes_one hu.head_ne]
    simp [hstep, hmore, expandSlashes]

/-! ### Arguments and groups -/

/-- Reads a comma and the argument after it. -/
def nextArgument (inner : Reader Expr) : Reader Expr := fun s => do
  let ((), rest) ← padded (symbol ',') s
  inner rest

theorem arguments_none (h : inner s = none) : arguments inner s = ([], s) := by
  rw [arguments, h]

theorem arguments_some (h : inner s = some (e, r)) :
    arguments inner s = (e :: (many (nextArgument inner) r).1, (many (nextArgument inner) r).2) := by
  rw [arguments, h]
  rfl

theorem before_args {as : List Expr} (h : SpellsArgs as t) : skipBlanks (t ++ ')' :: r) = t ++ ')' :: r ∧
    Before closers (t ++ ')' :: r) := by
  cases as with
  | nil =>
    obtain rfl : t = [] := h
    exact ⟨skipBlanks_cons (by decide), before_cons (by decide) (by decide)⟩
  | cons a as =>
    obtain ⟨g, u, -, -, rfl⟩ := h
    exact ⟨skipBlanks_cons (by decide), before_cons (by decide) (by decide)⟩

theorem many_nextArgument {as : List Expr} (has : ∀ a ∈ as, ReadsIn inner n a) (hprint : PrintableAll as)
    (ht : SpellsArgs as t) (hs : skipBlanks s = t ++ ')' :: r) (hlen : s.length ≤ n) :
    ∃ r', many (nextArgument inner) s = (as, r') ∧ skipBlanks r' = ')' :: r := by
  induction as generalizing s t with
  | nil =>
    obtain rfl : t = [] := ht
    have hcomma : padded (symbol ',') s = none := padded_none (symbol_none (by simp [hs]))
    exact ⟨s, many_none (by simp [nextArgument, hcomma]), hs⟩
  | cons a as ih =>
    obtain ⟨g, u, hg, hu, rfl⟩ := ht
    obtain ⟨hskip, hbefore⟩ := before_args (r := r) hu
    have hcomma : padded (symbol ',') s = some ((), skipBlanks (g ++ (u ++ ')' :: r))) :=
      padded_symbol (by simpa using hs)
    have hle := length_le_of_skipBlanks hs
    have hshort : (g ++ (u ++ ')' :: r)).length < n := by
      simp only [List.length_append, List.length_cons] at hle ⊢
      omega
    obtain ⟨r', hr', hend, hlen'⟩ := (has a List.mem_cons_self).skipped hprint.1 hg hbefore (by simp) hshort
    have hfirst : nextArgument inner s = some (a, r') := by simp [nextArgument, hcomma, hr']
    have hless : r'.length < s.length := by
      simp only [List.length_append, List.length_cons] at hle hlen'
      omega
    obtain ⟨r'', hmore, hclose⟩ := ih (fun x hx => has x (List.mem_cons_of_mem a hx)) hprint.2 hu
      (hend.trans hskip) (Nat.le_trans (Nat.le_of_lt hless) hlen)
    exact ⟨r'', by rw [many_some hfirst hless, hmore], hclose⟩

/-- An opening parenthesis after the name of a function is followed by its arguments or closed at once. -/
theorem arguments_append {as : List Expr} (has : ∀ a ∈ as, ReadsIn inner n a) (hprint : PrintableAll as)
    (hnone : ∀ r, inner (')' :: r) = none) (hu : as = [] ∧ Blanks u ∨ SpellsArgs as (',' :: u))
    (hlen : (u ++ ')' :: r).length < n) :
    ∃ r', arguments inner (skipBlanks (u ++ ')' :: r)) = (as, r') ∧ skipBlanks r' = ')' :: r := by
  cases as with
  | nil =>
    rcases hu with ⟨-, hu⟩ | hu
    · have hskip : skipBlanks (u ++ ')' :: r) = ')' :: r := by
        rw [skipBlanks_append hu, skipBlanks_cons (by decide)]
      rw [hskip]
      exact ⟨')' :: r, arguments_none (hnone r), skipBlanks_cons (by decide)⟩
    · exact absurd hu (List.cons_ne_nil ',' u)
  | cons a as =>
    rcases hu with ⟨h, -⟩ | ⟨g, v, hg, hv, hu⟩
    · exact absurd h (List.cons_ne_nil a as)
    · obtain rfl : u = g ++ v := (List.cons.inj hu).2
      obtain ⟨hskip, hbefore⟩ := before_args (r := r) hv
      rw [List.append_assoc] at hlen ⊢
      obtain ⟨r', hr', hend, hlen'⟩ := (has a List.mem_cons_self).skipped hprint.1 hg hbefore (by simp) hlen
      obtain ⟨r'', hmore, hclose⟩ := many_nextArgument (fun x hx => has x (List.mem_cons_of_mem a hx)) hprint.2 hv
        (hend.trans hskip) (Nat.le_trans hlen' (Nat.le_of_lt hlen))
      exact ⟨r'', by rw [arguments_some hr', hmore], hclose⟩

theorem call_append {q : QName} {as : List Expr} (hq : q.Named) (hkind : namesKind q = false)
    (has : ∀ a ∈ as, ReadsIn inner n a) (hprint : PrintableAll as) (hnone : ∀ r, inner (')' :: r) = none)
    (hb : Blanks b) (hu : as = [] ∧ Blanks u ∨ SpellsArgs as (',' :: u))
    (hlen : (u ++ ')' :: r).length < n) :
    call inner (q.text.toList ++ (b ++ '(' :: (u ++ ')' :: r))) = some (.call q as, skipBlanks r) := by
  have hbefore : Before ['('] (b ++ '(' :: (u ++ ')' :: r)) :=
    before_append hb (before_cons (by decide) List.mem_cons_self)
  have hname : qName (q.text.toList ++ (b ++ '(' :: (u ++ ')' :: r))) = some (q, b ++ '(' :: (u ++ ')' :: r)) :=
    qName_append hq (hbefore.stops (by decide)) (hbefore.stops (by decide))
  have hopen : padded (symbol '(') (b ++ '(' :: (u ++ ')' :: r)) = some ((), skipBlanks (u ++ ')' :: r)) := by
    apply padded_symbol
    rw [skipBlanks_append hb, skipBlanks_cons (by decide)]
  obtain ⟨r', hargs, hclose⟩ := arguments_append has hprint hnone hu hlen
  have hlast : padded (symbol ')') r' = some ((), skipBlanks r) := padded_symbol hclose
  simp [call, hname, hkind, hopen, hargs, hlast]

theorem call_none (h : Stops isNameStart s) : call inner s = none := by
  rw [call, qName_none h]
  rfl

theorem group_append (he : ReadsIn inner n e) (hg : Padded e.Spells g) (hlen : (g ++ ')' :: r).length < n) :
    group inner ('(' :: (g ++ ')' :: r)) = some (e, skipBlanks r) := by
  obtain ⟨r', hr', hend, -⟩ :=
    he g (')' :: r) hg (before_cons (by decide) (by decide)) (List.cons_ne_nil ')' r) hlen
  have hclose : padded (symbol ')') r' = some ((), skipBlanks r) :=
    padded_symbol (hend.trans (skipBlanks_cons (by decide)))
  simp [group, hr', hclose]

/-! ### Operands -/

theorem primary_number {m : Numeral} (hs : skipBlanks s = m.text ++ r) (hdigit : Stops Char.isDigit r)
    (hpoint : Stops (· == '.') r) : primary inner s = some (.number (m.valueBefore r), skipBlanks r) := by
  apply padded_some
  rw [hs, number_text m hdigit hpoint]
  rfl

theorem primary_literal {q : Char} {text : String} (hq : q = '\'' ∨ q = '"') (h : q ∉ text.toList)
    (hs : skipBlanks s = q :: text.toList ++ q :: r) :
    primary inner s = some (.literal text, skipBlanks r) := by
  have hnumber : number (q :: text.toList ++ q :: r) = none := by
    refine number_none fun c hc => ?_
    obtain rfl := Option.some.inj hc
    rcases hq with rfl | rfl <;> decide
  apply padded_some
  rw [hs, hnumber, literal_append hq h]
  rfl

/-- What begins a name begins neither a number nor a literal. -/
theorem number_literal_none {c : Char} (hc : isNameStart c) : number (c :: s) = none ∧ literal (c :: s) = none := by
  refine ⟨number_none fun d hd => ?_, literal_none fun d hd => ?_⟩
  · obtain rfl := Option.some.inj hd
    refine ⟨?_, ne_of_isNameStart hc (by decide)⟩
    cases h : c.isDigit with
    | false => rfl
    | true => rw [isNameStart_of_isDigit h] at hc; cases hc
  · obtain rfl := Option.some.inj hd
    exact ⟨ne_of_isNameStart hc (by decide), ne_of_isNameStart hc (by decide)⟩

theorem primary_call {q : QName} {as : List Expr} (hq : q.Named) (hkind : namesKind q = false)
    (has : ∀ a ∈ as, ReadsIn inner n a) (hprint : PrintableAll as) (hnone : ∀ r, inner (')' :: r) = none)
    (hb : Blanks b) (hu : as = [] ∧ Blanks u ∨ SpellsArgs as (',' :: u))
    (hs : skipBlanks s = q.text.toList ++ (b ++ '(' :: (u ++ ')' :: r))) (hlen : s.length ≤ n) :
    primary inner s = some (.call q as, skipBlanks r) := by
  obtain ⟨c, v, htext, hc⟩ := hq.exists_head
  have hshort : (u ++ ')' :: r).length < n := by
    have := length_le_of_skipBlanks hs
    simp only [List.length_append, List.length_cons] at this ⊢
    omega
  have hcall := call_append hq hkind has hprint hnone hb hu hshort
  rw [← skipBlanks_skipBlanks]
  apply padded_some
  rw [hs]
  rw [htext, List.cons_append] at hcall ⊢
  obtain ⟨hnumber, hliteral⟩ := number_literal_none hc (s := v ++ (b ++ '(' :: (u ++ ')' :: r)))
  rw [hnumber, hliteral, hcall]
  rfl

/-- What is read in parentheses is a primary expression. -/
theorem primary_of_group (hs : skipBlanks s = '(' :: u) (h : group inner ('(' :: u) = some (e, r)) :
    primary inner s = some (e, skipBlanks r) := by
  have hnumber : number ('(' :: u) = none := number_none (by simp)
  have hliteral : literal ('(' :: u) = none := literal_none (by simp)
  have hcall : call inner ('(' :: u) = none := call_none (stops_cons.mpr (by decide))
  apply padded_some
  rw [hs, hnumber, hliteral, hcall, h]
  rfl

theorem primary_group (he : ReadsIn inner n e) (hg : Grouped e.Spells g) (hs : skipBlanks s = g ++ r)
    (hlen : s.length ≤ n) : primary inner s = some (e, skipBlanks r) := by
  obtain ⟨g, hg, rfl⟩ := hg
  have hs' : skipBlanks s = '(' :: (g ++ ')' :: r) := by simpa using hs
  have hshort : (g ++ ')' :: r).length < n := by
    have := length_le_of_skipBlanks hs'
    rw [List.length_cons] at this
    omega
  rw [← skipBlanks_skipBlanks]
  exact primary_of_group hs' (group_append he hg hshort)

/-- A name is no primary expression unless a parenthesis follows it. -/
theorem primary_name {q : QName} {c : Char} {v : List Char} (hs : skipBlanks s = c :: v) (hc : isNameStart c)
    (hname : qName (c :: v) = some (q, r)) (hopen : Avoids '(' r) : primary inner s = none := by
  have hcall : call inner (c :: v) = none := by
    rw [call, hname]
    simp [padded_symbol_none hopen]
  have hgroup : group inner (c :: v) = none := by
    have hparen : symbol '(' (c :: v) = none := symbol_none fun d hd => by
      obtain rfl := Option.some.inj hd
      exact ne_of_isNameStart hc (by decide)
    simp [group, hparen]
  obtain ⟨hnumber, hliteral⟩ := number_literal_none hc (s := v)
  apply padded_none
  rw [hs, hnumber, hliteral, hcall, hgroup]
  rfl

/-- An axis is no primary expression: the name ends at the colons, where a call would need its parenthesis. -/
theorem primary_axis {a : Axis} (hs : skipBlanks s = a.name.toList ++ ':' :: ':' :: r) :
    primary inner s = none := by
  obtain ⟨c, v, ha, hc, -⟩ := isName_eq_cons (isName_axis a)
  have hstop : Stops isNameChar (':' :: ':' :: r) := stops_cons.mpr (by decide)
  have hname : qName (a.name.toList ++ ':' :: ':' :: r) = some (⟨none, a.name⟩, ':' :: ':' :: r) := by
    have hcolon : name? (':' :: r) = none := name?_of_stops (stops_cons.mpr (by decide))
    rw [qName, name?_append (isName_axis a) hstop]
    simp [hcolon]
  have hopen : Avoids '(' (':' :: ':' :: r) := avoids_of_skipBlanks (skipBlanks_cons (by decide)) (by decide)
  rw [ha, List.cons_append] at hs hname
  exact primary_name hs hc hname hopen

/-- A slash and a closing parenthesis begin no primary expression. -/
theorem primary_none {c : Char} (hc : c = '/' ∨ c = ')') (hs : skipBlanks s = c :: r) : primary inner s = none := by
  have hnumber : number (c :: r) = none := number_none (by rcases hc with rfl | rfl <;> simp)
  have hliteral : literal (c :: r) = none := literal_none (by rcases hc with rfl | rfl <;> simp)
  have hcall : call inner (c :: r) = none := call_none (by rw [stops_cons]; rcases hc with rfl | rfl <;> decide)
  have hgroup : group inner (c :: r) = none := by rcases hc with rfl | rfl <;> simp [group, symbol]
  apply padded_none
  rw [hs, hnumber, hliteral, hcall, hgroup]
  rfl

theorem operand_primary (h : primary inner s = some (e, r)) (hbracket : Avoids '[' r)
    (hslash : ∀ c ∈ r.head?, c ≠ '/') : operand inner s = .ok (e, r) := by
  simp [operand, filtered, h, many_none (predicate_none hbracket), furtherSteps_none (slashes_none hslash)]

theorem Grouped.skipBlanks_append {p : List Char → Prop} (hg : Grouped p g) : skipBlanks (g ++ r) = g ++ r := by
  obtain ⟨g, -, rfl⟩ := hg
  exact skipBlanks_cons (by decide)

theorem Grouped.before {p : List Char → Prop} (hg : Grouped p g) : Before ['('] (g ++ r) := by
  obtain ⟨g, -, rfl⟩ := hg
  exact before_cons (by decide) List.mem_cons_self

theorem operand_group (he : ReadsIn inner n e) (hg : Grouped e.Spells g) (hs : skipBlanks s = g ++ t)
    (hlen : s.length ≤ n) (hbracket : Avoids '[' t) (hslash : Avoids '/' t) :
    operand inner s = .ok (e, skipBlanks t) :=
  operand_primary (primary_group he hg hs hlen) (avoids_skipBlanks.mpr hbracket) hslash

theorem operand_filter {ps : List Expr} (h : primary inner s = some (e, t))
    (hps : many (predicate inner) t = (ps, r)) (hne : ps ≠ []) (hslash : ∀ c ∈ r.head?, c ≠ '/') :
    operand inner s = .ok (.filter e ps, r) := by
  simp [operand, filtered, h, hps, hne, furtherSteps_none (slashes_none hslash)]

theorem operand_nodes {ss : List Step} (h : primary inner s = some (e, t))
    (hbracket : Avoids '[' t) (hss : furtherSteps inner t = (ss, r)) (hne : ss ≠ []) :
    operand inner s = .ok (.path (.nodes e) ss, r) := by
  simp [operand, filtered, h, many_none (predicate_none hbracket), hss, hne]

theorem operand_location (h : primary inner s = none) (hpath : locationPath inner (skipBlanks s) = .ok (e, r)) :
    operand inner s = .ok (e, skipBlanks r) := by
  simp [operand, filtered, h, hpath, Except.map]

/-- No operand stands where a parenthesis closes. -/
theorem operand_close : operand inner (')' :: r) = .error (')' :: r) := by
  have hbefore : Before closers (')' :: r) := before_cons (by decide) (by decide)
  have hskip : skipBlanks (')' :: r) = ')' :: r := skipBlanks_cons (by decide)
  have hpath : locationPath inner (')' :: r) = .error (')' :: r) := by
    rw [locationPath, slashes_none hbefore.head_ne_slash]
    simp [step, stepHead_error hbefore, Except.map]
  simp [operand, filtered, primary_none (Or.inr rfl) hskip, hskip, hpath, Except.map]

end XmlMapping.XPath
