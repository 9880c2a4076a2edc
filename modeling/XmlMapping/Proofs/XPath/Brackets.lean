import XmlMapping.Proofs.XPath.Lexing

/-!
# Readers inside of brackets

Readers that get on in the same way with a text that closes all its brackets and quotes and with the same
text before a closing parenthesis. They never look past the bracket that closes one from before the text.
-/

namespace XmlMapping.XPath

open Text

variable {α β : Type} {P Q : Prop} {i j k m : Nat} {c : Char} {r s t rest : List Char} {a : α}

/-! ### Texts that close their brackets -/

/-- The parentheses, the brackets and the quotes. -/
def marks : List Char :=
  ['(', ')', '[', ']', '\'', '"']

/-- Whether a text closes as many brackets and parentheses as are given and all that it opens itself. They do
    not count between quotes. -/
inductive Closes : Nat → List Char → Prop
  | nil : Closes 0 []
  | plain {k : Nat} {c : Char} {s : List Char} (hc : c ∉ marks) (h : Closes k s) : Closes k (c :: s)
  | opens {k : Nat} {c : Char} {s : List Char} (hc : c = '(' ∨ c = '[') (h : Closes (k + 1) s) : Closes k (c :: s)
  | closes {k : Nat} {c : Char} {s : List Char} (hc : c = ')' ∨ c = ']') (h : Closes k s) : Closes (k + 1) (c :: s)
  | quoted {k : Nat} {q : Char} {t s : List Char} (hq : q = '\'' ∨ q = '"') (ht : q ∉ t) (h : Closes k s) :
      Closes k (q :: (t ++ q :: s))

theorem closes_plain (hc : c ∉ marks) : Closes k (c :: s) ↔ Closes k s := by
  refine ⟨fun h => ?_, .plain hc⟩
  cases h with
  | plain _ h => exact h
  | opens h _ => rcases h with rfl | rfl <;> exact absurd (by decide) hc
  | closes h _ => rcases h with rfl | rfl <;> exact absurd (by decide) hc
  | quoted h _ _ => rcases h with rfl | rfl <;> exact absurd (by decide) hc

theorem closes_open (hc : c = '(' ∨ c = '[') : Closes k (c :: s) ↔ Closes (k + 1) s := by
  refine ⟨fun h => ?_, .opens hc⟩
  cases h with
  | plain h _ => rcases hc with rfl | rfl <;> exact absurd (by decide) h
  | opens _ h => exact h
  | closes h _ => rcases hc with rfl | rfl <;> exact absurd h (by decide)
  | quoted h _ _ => rcases hc with rfl | rfl <;> exact absurd h (by decide)

theorem closes_close (hc : c = ')' ∨ c = ']') : Closes (k + 1) (c :: s) ↔ Closes k s := by
  refine ⟨fun h => ?_, .closes hc⟩
  cases h with
  | plain h _ => rcases hc with rfl | rfl <;> exact absurd (by decide) h
  | opens h _ => rcases hc with rfl | rfl <;> exact absurd h (by decide)
  | closes _ h => exact h
  | quoted h _ _ => rcases hc with rfl | rfl <;> exact absurd h (by decide)

theorem closes_append (ht : ∀ c ∈ t, c ∉ marks) : Closes k (t ++ s) ↔ Closes k s := by
  induction t with
  | nil => rfl
  | cons c t ih =>
    obtain ⟨hc, ht⟩ := List.forall_mem_cons.mp ht
    rw [List.cons_append, closes_plain hc, ih ht]

/-- A quote that begins a text is closed in it. -/
theorem Closes.exists_quoted {q : Char} (hq : q = '\'' ∨ q = '"') (h : Closes k (q :: s)) :
    ∃ t u, s = t ++ q :: u ∧ q ∉ t ∧ Closes k u := by
  cases h with
  | plain h _ => rcases hq with rfl | rfl <;> exact absurd (by decide) h
  | opens h _ => rcases hq with rfl | rfl <;> exact absurd h (by decide)
  | closes h _ => rcases hq with rfl | rfl <;> exact absurd h (by decide)
  | quoted _ ht h => exact ⟨_, _, rfl, ht, h⟩

theorem closes_quoted {q : Char} (hq : q = '\'' ∨ q = '"') (ht : q ∉ t) :
    Closes k (q :: (t ++ q :: s)) ↔ Closes k s := by
  refine ⟨fun h => ?_, .quoted hq ht⟩
  obtain ⟨t', s', heq, ht', h⟩ := h.exists_quoted hq
  have hsplit := splitAt?_append (s := s) ht
  rw [heq, splitAt?_append ht'] at hsplit
  cases hsplit
  exact h

theorem not_mem_marks {p : Char → Bool} (hp : marks.all (!p ·)) (hc : p c) : c ∉ marks := fun h => by
  simpa [hc] using List.all_eq_true.mp hp c h

theorem closes_dropWhile {p : Char → Bool} (hp : marks.all (!p ·)) : Closes k (s.dropWhile p) ↔ Closes k s := by
  have hfront : ∀ c ∈ s.takeWhile p, c ∉ marks := fun c hc =>
    not_mem_marks hp (List.all_eq_true.mp List.all_takeWhile c hc)
  rw [← closes_append hfront, List.takeWhile_append_dropWhile]

theorem closes_skipBlanks : Closes k (skipBlanks s) ↔ Closes k s :=
  closes_dropWhile (by decide)

theorem dropWhile_append_close {p : Char → Bool} (hp : p ')' = false) :
    (s ++ ')' :: r).dropWhile p = s.dropWhile p ++ ')' :: r := by
  induction s with
  | nil => simp [hp]
  | cons c s ih =>
    cases hc : p c <;> simp [hc, ih]

theorem takeWhile_append_close {p : Char → Bool} (hp : p ')' = false) :
    (s ++ ')' :: r).takeWhile p = s.takeWhile p := by
  induction s with
  | nil => simp [hp]
  | cons c s ih =>
    cases hc : p c <;> simp [hc, ih]

theorem skipBlanks_append_close : skipBlanks (s ++ ')' :: r) = skipBlanks s ++ ')' :: r :=
  dropWhile_append_close (by decide)

/-! ### Readers that stay inside -/

/-- Whether a reader, which takes a text from closing `i` more brackets to closing `j` more, gets on with such
    a text in the same way as other readers do with the text before a closing parenthesis and any text after
    it. What is read is the same one if so required, and does not depend on the text after the parenthesis in
    any case. -/
structure Inside (P : Prop) (i j : Nat) (read : Reader α) (read' : List Char → Reader α) : Prop where
  closes_iff : ∀ {m s a rest}, read s = some (a, rest) → (Closes (i + m) s ↔ Closes (j + m) rest)
  of_none : ∀ {m s}, Closes (i + m) s → read s = none → ∀ r, read' r (s ++ ')' :: r) = none
  of_some : ∀ {m s a rest}, Closes (i + m) s → read s = some (a, rest) →
    ∃ a', (P → a' = a) ∧ ∀ r, read' r (s ++ ')' :: r) = some (a', rest ++ ')' :: r)

namespace Inside
variable {f g : Reader α} {f' g' : List Char → Reader α}

theorem pure {a a' : α} (ha : P → a' = a) : Inside P i i (fun s => some (a, s)) (fun _ s => some (a', s)) where
  closes_iff h := by
    cases h
    rfl
  of_none _ h := by cases h
  of_some _ h := by
    cases h
    exact ⟨a', ha, fun r => rfl⟩

theorem bind {F : α × List Char → Option (β × List Char)} {F' : List Char → α × List Char → Option (β × List Char)}
    (hf : Inside P i j f f')
    (hF : ∀ a a', (P → a' = a) → Inside Q j k (fun s => F (a, s)) (fun r s => F' r (a', s))) :
    Inside Q i k (fun s => f s >>= F) (fun r s => f' r s >>= F' r) where
  closes_iff h := by
    obtain ⟨⟨a, t⟩, ha, hb⟩ := Option.bind_eq_some_iff.mp h
    exact (hf.closes_iff ha).trans ((hF a a fun _ => rfl).closes_iff hb)
  of_none {m s} hs h r := by
    rcases ha : f s with _ | ⟨a, t⟩
    · rw [hf.of_none hs ha r]
      rfl
    · obtain ⟨a', hsame, hread⟩ := hf.of_some hs ha
      rw [ha] at h
      rw [hread r]
      exact (hF a a' hsame).of_none ((hf.closes_iff ha).mp hs) h r
  of_some {m s b rest} hs h := by
    obtain ⟨⟨a, t⟩, ha, hb⟩ := Option.bind_eq_some_iff.mp h
    obtain ⟨a', hsame, hread⟩ := hf.of_some hs ha
    obtain ⟨b', hsame', hread'⟩ := (hF a a' hsame).of_some ((hf.closes_iff ha).mp hs) hb
    refine ⟨b', hsame', fun r => ?_⟩
    rw [hread r]
    exact hread' r

theorem bind_same {F : α × List Char → Option (β × List Char)} {F' : List Char → α × List Char → Option (β × List Char)}
    (hf : Inside True i j f f') (hF : ∀ a, Inside Q j k (fun s => F (a, s)) (fun r s => F' r (a, s))) :
    Inside Q i k (fun s => f s >>= F) (fun r s => f' r s >>= F' r) := by
  refine hf.bind fun a a' ha => ?_
  obtain rfl := ha trivial
  exact hF a'

theorem congr (hf : ∀ s, f s = g s) (hf' : ∀ r s, f' r s = g' r s) (hg : Inside P i j g g') : Inside P i j f f' := by
  obtain rfl : f = g := funext hf
  obtain rfl : f' = g' := funext fun r => funext (hf' r)
  exact hg

/-- It is enough to have readers for each single text. -/
theorem of_forall (h : ∀ s, ∃ (g : Reader α) (g' : List Char → Reader α), Inside P i j g g' ∧ f s = g s ∧
    ∀ r, f' r (s ++ ')' :: r) = g' r (s ++ ')' :: r)) : Inside P i j f f' where
  closes_iff {m s a rest} hread := by
    obtain ⟨g, g', hg, hs, -⟩ := h s
    exact hg.closes_iff (hs ▸ hread)
  of_none {m s} hcloses hread r := by
    obtain ⟨g, g', hg, hs, hs'⟩ := h s
    rw [hs' r]
    exact hg.of_none hcloses (hs ▸ hread) r
  of_some {m s a rest} hcloses hread := by
    obtain ⟨g, g', hg, hs, hs'⟩ := h s
    obtain ⟨a', ha, hread'⟩ := hg.of_some hcloses (hs ▸ hread)
    refine ⟨a', ha, fun r => ?_⟩
    rw [hs' r]
    exact hread' r

theorem map (h : α → β) (hf : Inside P i j f f') :
    Inside P i j (fun s => (f s).map fun (a, rest) => (h a, rest))
      (fun r s => (f' r s).map fun (a, rest) => (h a, rest)) := by
  have hmap (x : Option (α × List Char)) :
      (x.map fun (a, rest) => (h a, rest)) = x >>= fun (a, rest) => some (h a, rest) := by cases x <;> rfl
  simp only [hmap]
  exact hf.bind fun a a' ha => Inside.pure fun hs => congrArg h (ha hs)

theorem orElse (hf : Inside P i j f f') (hg : Inside P i j g g') :
    Inside P i j (fun s => f s <|> g s) (fun r s => f' r s <|> g' r s) where
  closes_iff {m s a rest} h := by
    rcases ha : f s with _ | x
    · rw [ha] at h
      exact hg.closes_iff h
    · rw [ha] at h
      exact hf.closes_iff (ha.trans h)
  of_none {m s} hs h r := by
    rcases ha : f s with _ | x
    · rw [ha] at h
      rw [hf.of_none hs ha r]
      exact hg.of_none hs h r
    · rw [ha] at h
      cases h
  of_some {m s a rest} hs h := by
    rcases ha : f s with _ | x
    · rw [ha] at h
      obtain ⟨a', hsame, hread⟩ := hg.of_some hs h
      refine ⟨a', hsame, fun r => ?_⟩
      rw [hf.of_none hs ha r]
      exact hread r
    · rw [ha] at h
      obtain ⟨a', hsame, hread⟩ := hf.of_some hs (ha.trans h)
      refine ⟨a', hsame, fun r => ?_⟩
      rw [hread r]
      rfl

theorem padded (hf : Inside P i j f f') : Inside P i j (padded f) (fun r => padded (f' r)) where
  closes_iff h := by
    obtain ⟨⟨a, t⟩, ha, hb⟩ := Option.map_eq_some_iff.mp h
    cases hb
    rw [← closes_skipBlanks, hf.closes_iff ha, closes_skipBlanks]
  of_none hs h r := by
    apply padded_none
    rw [skipBlanks_append_close]
    exact hf.of_none (closes_skipBlanks.mpr hs) (Option.map_eq_none_iff.mp h) r
  of_some {m s a rest} hs h := by
    obtain ⟨⟨b, t⟩, hb, heq⟩ := Option.map_eq_some_iff.mp h
    cases heq
    obtain ⟨a', hsame, hread⟩ := hf.of_some (closes_skipBlanks.mpr hs) hb
    refine ⟨a', hsame, fun r => ?_⟩
    rw [← skipBlanks_append_close]
    apply padded_some
    rw [skipBlanks_append_close]
    exact hread r

theorem many_append (hf : Inside P i i f f') (s : List Char) :
    (Closes (i + m) s ↔ Closes (i + m) (many f s).2) ∧
      (Closes (i + m) s → ∃ as, (P → as = (many f s).1) ∧
        ∀ r, many (f' r) (s ++ ')' :: r) = (as, (many f s).2 ++ ')' :: r)) := by
  fun_induction many f s with
  | case1 s hnone => exact ⟨Iff.rfl, fun hs => ⟨[], fun _ => rfl, fun r => many_none (hf.of_none hs hnone r)⟩⟩
  | case2 s a rest hread hlt as rest' hmore ih =>
    rw [hmore] at ih
    obtain ⟨hiff, hmany⟩ := ih
    refine ⟨(hf.closes_iff hread).trans hiff, fun hs => ?_⟩
    obtain ⟨a', ha, hread'⟩ := hf.of_some hs hread
    obtain ⟨as', has, hmany'⟩ := hmany ((hf.closes_iff hread).mp hs)
    refine ⟨a' :: as', fun h => by rw [ha h, has h], fun r => ?_⟩
    rw [many_some (hread' r) (by simpa using hlt), hmany' r]
  | case3 s a rest hread hnot =>
    refine ⟨Iff.rfl, fun hs => ⟨[], fun _ => rfl, fun r => ?_⟩⟩
    obtain ⟨a', -, hread'⟩ := hf.of_some hs hread
    rw [many, hread' r]
    exact if_neg (by simpa using hnot)

theorem many (hf : Inside P i i f f') :
    Inside P i i (fun s => some (many f s)) (fun r s => some (many (f' r) s)) where
  closes_iff {m s as rest} h := by
    have hiff := (hf.many_append (m := m) s).1
    rwa [Option.some.inj h] at hiff
  of_none _ h := by cases h
  of_some {m s as rest} hs h := by
    obtain ⟨as', hsame, hread⟩ := (hf.many_append s).2 hs
    rw [Option.some.inj h] at hsame hread
    exact ⟨as', hsame, fun r => congrArg some (hread r)⟩

theorem lift (hf : Inside P 0 0 f f') : Inside P i i f f' where
  closes_iff {m s a rest} h := by
    have hiff := hf.closes_iff (m := i + m) h
    rwa [Nat.zero_add] at hiff
  of_none hs h := hf.of_none (by rwa [Nat.zero_add]) h
  of_some hs h := hf.of_some (by rwa [Nat.zero_add]) h

/-- What is read depends on whether another reader reads something first. -/
theorem elim {F : α × List Char → Option (β × List Char)} {F' : List Char → α × List Char → Option (β × List Char)}
    {g : Reader β} {g' : List Char → Reader β} (hf : Inside P i j f f')
    (hF : ∀ a a', (P → a' = a) → Inside Q j k (fun s => F (a, s)) (fun r s => F' r (a', s)))
    (hg : Inside Q i k g g') :
    Inside Q i k (fun s => (f s).elim (g s) F) (fun r s => (f' r s).elim (g' r s) (F' r)) where
  closes_iff {m s b rest} h := by
    rcases hx : f s with _ | ⟨a, t⟩ <;> rw [hx] at h
    · exact hg.closes_iff h
    · exact (hf.closes_iff hx).trans ((hF a a fun _ => rfl).closes_iff h)
  of_none {m s} hs h r := by
    rcases hx : f s with _ | ⟨a, t⟩ <;> rw [hx] at h
    · rw [hf.of_none hs hx r]
      exact hg.of_none hs h r
    · obtain ⟨a', hsame, hread⟩ := hf.of_some hs hx
      rw [hread r]
      exact (hF a a' hsame).of_none ((hf.closes_iff hx).mp hs) h r
  of_some {m s b rest} hs h := by
    rcases hx : f s with _ | ⟨a, t⟩ <;> rw [hx] at h
    · obtain ⟨b', hsame, hread⟩ := hg.of_some hs h
      refine ⟨b', hsame, fun r => ?_⟩
      rw [hf.of_none hs hx r]
      exact hread r
    · obtain ⟨a', hsame, hread⟩ := hf.of_some hs hx
      obtain ⟨b', hsame', hread'⟩ := (hF a a' hsame).of_some ((hf.closes_iff hx).mp hs) h
      refine ⟨b', hsame', fun r => ?_⟩
      rw [hread r]
      exact hread' r

theorem ite {p : Prop} [Decidable p] (hf : Inside P i j f f') (hg : Inside P i j g g') :
    Inside P i j (fun s => if p then f s else g s) (fun r s => if p then f' r s else g' r s) := by
  by_cases hp : p
  · simpa only [if_pos hp] using hf
  · simpa only [if_neg hp] using hg

end Inside

/-! ### Words -/

theorem after?_append_close {word : List Char} (hword : ')' ∉ word) :
    after? word (s ++ ')' :: r) = (after? word s).map (· ++ ')' :: r) := by
  induction word generalizing s with
  | nil => rfl
  | cons c word ih =>
    rw [List.mem_cons, not_or] at hword
    cases s with
    | nil => exact if_neg (Ne.symm hword.1)
    | cons d s =>
      rw [List.cons_append, after?, after?]
      split
      · exact ih hword.2
      · rfl

theorem inside_after? {word : List Char} (hword : ∀ c ∈ word, c ∉ marks) (a : α) :
    Inside P i i (fun s => (after? word s).map (a, ·)) (fun _ s => (after? word s).map (a, ·)) where
  closes_iff h := by
    obtain ⟨t, hafter, heq⟩ := Option.map_eq_some_iff.mp h
    cases heq
    rw [eq_of_after? hafter, closes_append hword]
  of_none _ h r := by
    rw [after?_append_close fun hc => hword _ hc (by decide), Option.map_eq_none_iff.mp h]
    rfl
  of_some _ h := by
    obtain ⟨t, hafter, heq⟩ := Option.map_eq_some_iff.mp h
    cases heq
    refine ⟨a, fun _ => rfl, fun r => ?_⟩
    rw [after?_append_close fun hc => hword _ hc (by decide), hafter]
    rfl

theorem inside_none : Inside P i j (fun _ => (none : Option (α × List Char))) (fun _ _ => none) where
  closes_iff h := by cases h
  of_none _ _ _ := rfl
  of_some _ h := by cases h

/-- Readers of which the first that reads something counts. -/
theorem inside_findSome? {γ : Type} {l : List γ} {f : γ → Reader α}
    (h : ∀ x ∈ l, Inside P i j (f x) (fun _ => f x)) :
    Inside P i j (fun s => l.findSome? (f · s)) (fun _ s => l.findSome? (f · s)) := by
  induction l with
  | nil => exact inside_none
  | cons x l ih =>
    have hcons (s : List Char) : (x :: l).findSome? (f · s) = (f x s <|> l.findSome? (f · s)) := by
      rw [List.findSome?_cons]
      cases f x s <;> rfl
    simp only [hcons]
    exact (h x List.mem_cons_self).orElse (ih fun y hy => h y (List.mem_cons_of_mem x hy))

theorem inside_symbol_of (hstep : ∀ m s, Closes (i + m) (c :: s) ↔ Closes (j + m) s)
    (hend : ∀ m, Closes (i + m) [] → c ≠ ')') : Inside P i j (symbol c) (fun _ => symbol c) where
  closes_iff {m s a rest} h := by
    cases s with
    | nil => cases h
    | cons d s =>
      rw [symbol] at h
      split at h
      · next hcd =>
        cases h
        rw [← hcd]
        exact hstep m _
      · cases h
  of_none {m s} hs h r := by
    cases s with
    | nil => exact if_neg (hend m hs)
    | cons d s =>
      rw [symbol] at h
      split at h
      · cases h
      · next hcd => exact if_neg hcd
  of_some {m s a rest} hs h := by
    cases s with
    | nil => cases h
    | cons d s =>
      rw [symbol] at h
      split at h
      · next hcd =>
        cases h
        exact ⟨(), fun _ => rfl, fun r => if_pos hcd⟩
      · cases h

theorem inside_symbol (hc : c ∉ marks) : Inside P i i (symbol c) (fun _ => symbol c) :=
  inside_symbol_of (fun _ _ => closes_plain hc) fun _ _ h => hc (h ▸ by decide)

theorem inside_open (hc : c = '(' ∨ c = '[') : Inside P i (i + 1) (symbol c) (fun _ => symbol c) := by
  refine inside_symbol_of (fun m s => ?_) fun _ _ => ?_
  · rw [closes_open hc, Nat.add_right_comm]
  · rcases hc with rfl | rfl <;> decide

theorem inside_close (hc : c = ')' ∨ c = ']') : Inside P (i + 1) i (symbol c) (fun _ => symbol c) := by
  refine inside_symbol_of (fun m s => ?_) fun m h => ?_
  · rw [Nat.add_right_comm, closes_close hc]
  · rw [Nat.add_right_comm] at h
    cases h

end XmlMapping.XPath
