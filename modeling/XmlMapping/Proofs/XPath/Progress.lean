import XmlMapping.Proofs.XPath.Recognition

/-!
# Readers make progress

What a reader leaves of a text is a suffix of it. Every reader of the grammar takes at least one character when it
reads something, but for that of further steps, which leaves the whole text if and only if it reads no step. The
readers are gone through one by one, with one lemma for each way to put a reader together from others.
-/

namespace XmlMapping.XPath

open Text

variable {α β : Type} {i j k : Nat} {inner : Reader Expr} {read : List Char → Reading Expr} {s rest : List Char}

/-! ### How much a reader takes -/

/-- Whether a reader leaves a suffix of a text, and takes so many characters or more, whenever it reads. -/
def Takes (k : Nat) (read : Reader α) : Prop :=
  ∀ s a rest, read s = some (a, rest) → rest <:+ s ∧ rest.length + k ≤ s.length

namespace Takes
variable {f g : Reader α} {F : α × List Char → Option (β × List Char)}

theorem of_append (h : ∀ s a rest, f s = some (a, rest) → ∃ t, s = t ++ rest ∧ k ≤ t.length) : Takes k f := by
  intro s a rest hread
  obtain ⟨t, rfl, ht⟩ := h s a rest hread
  refine ⟨List.suffix_append t rest, ?_⟩
  rw [List.length_append, Nat.add_comm]
  exact Nat.add_le_add_right ht _

theorem mono (hf : Takes k f) (h : j ≤ k) : Takes j f := fun s a rest hread =>
  ⟨(hf s a rest hread).1, Nat.le_trans (Nat.add_le_add_left h _) (hf s a rest hread).2⟩

theorem suffix (hf : Takes k f) : Takes 0 f :=
  hf.mono (Nat.zero_le k)

theorem pure {a : α} : Takes 0 fun s => some (a, s) := by
  rintro s _ _ ⟨⟩
  exact ⟨List.suffix_rfl, Nat.le_refl _⟩

theorem none : Takes k fun _ => (Option.none : Option (α × List Char)) :=
  nofun

/-- Two readers one after the other take what both take. -/
theorem bind (hf : Takes i f) (hF : ∀ a, Takes j fun s => F (a, s)) :
    Takes (i + j) fun s => f s >>= F := by
  intro s b rest h
  obtain ⟨⟨a, t⟩, ha, hb⟩ := Option.bind_eq_some_iff.mp h
  obtain ⟨hfirst, hlen⟩ := hf s a t ha
  obtain ⟨hsecond, hlen'⟩ := hF a t b rest hb
  exact ⟨hsecond.trans hfirst, by omega⟩

/-- It is enough that the first reader takes something. -/
theorem before (hf : Takes k f) (hF : ∀ a, Takes 0 fun s => F (a, s)) : Takes k fun s => f s >>= F :=
  hf.bind hF

/-- It is enough that the second reader takes something. -/
theorem after (hf : Takes 0 f) (hF : ∀ a, Takes k fun s => F (a, s)) : Takes k fun s => f s >>= F :=
  (hf.bind hF).mono (Nat.le_add_left k 0)

theorem congr (h : ∀ s, f s = g s) (hg : Takes k g) : Takes k f :=
  funext h ▸ hg

/-- It is enough to have a reader for each single text. -/
theorem of_forall (h : ∀ s, ∃ g : Reader α, Takes k g ∧ f s = g s) : Takes k f := by
  intro s a rest hread
  obtain ⟨g, hg, hs⟩ := h s
  exact hg s a rest (hs ▸ hread)

theorem map (hf : Takes k f) (h : α → β) : Takes k fun s => (f s).map fun (a, rest) => (h a, rest) := by
  intro s b rest hread
  obtain ⟨⟨a, t⟩, ha, heq⟩ := Option.map_eq_some_iff.mp hread
  cases heq
  exact hf s a _ ha

theorem orElse (hf : Takes k f) (hg : Takes k g) : Takes k fun s => f s <|> g s := by
  intro s a rest h
  rcases (Option.orElse_eq_some ..).mp h with h | ⟨-, h⟩
  · exact hf s a rest h
  · exact hg s a rest h

theorem findSome? {ι : Type} {readers : ι → Reader α} {is : List ι} (h : ∀ i ∈ is, Takes k (readers i)) :
    Takes k fun s => is.findSome? (readers · s) := by
  intro s a rest hread
  obtain ⟨i, hi, hread⟩ := List.exists_of_findSome?_eq_some hread
  exact h i hi s a rest hread

theorem padded (hf : Takes k f) : Takes k (padded f) := by
  intro s a rest h
  obtain ⟨⟨b, t⟩, hb, heq⟩ := Option.map_eq_some_iff.mp h
  cases heq
  obtain ⟨hsuffix, hlen⟩ := hf _ a t hb
  have hs := length_skipBlanks_le (s := s)
  have ht := length_skipBlanks_le (s := t)
  exact ⟨((List.dropWhile_suffix _).trans hsuffix).trans (List.dropWhile_suffix _), by omega⟩

theorem many (hf : Takes k f) : Takes 0 fun s => some (many f s) := by
  intro s as rest h
  replace h : XPath.many f s = (as, rest) := Option.some.inj h
  induction as generalizing s with
  | nil =>
    obtain rfl := many_eq_nil h
    exact ⟨List.suffix_rfl, Nat.le_refl _⟩
  | cons a as ih =>
    obtain ⟨t, hread, hmore⟩ := many_eq_cons h
    obtain ⟨hfirst, hlen⟩ := hf s a t hread
    obtain ⟨hsecond, hlen'⟩ := ih t hmore
    exact ⟨hsecond.trans hfirst, by omega⟩

/-- What is read depends on whether another reader reads something first. -/
theorem elim {g : Reader β} (hf : Takes k f) (hF : ∀ a, Takes 0 fun s => F (a, s)) (hg : Takes k g) :
    Takes k fun s => (f s).elim (g s) F := by
  intro s b rest h
  replace h : (f s).elim (g s) F = some (b, rest) := h
  rcases hx : f s with _ | ⟨a, t⟩ <;> rw [hx] at h
  · exact hg s b rest h
  · exact hf.before hF s b rest (Option.bind_eq_some_iff.mpr ⟨(a, t), hx, h⟩)

theorem ite {p : Prop} [Decidable p] (hf : p → Takes k f) (hg : ¬p → Takes k g) :
    Takes k fun s => if p then f s else g s := by
  by_cases hp : p
  · simpa only [if_pos hp] using hf hp
  · simpa only [if_neg hp] using hg hp

/-- What takes something each time takes nothing of a text if and only if it is read no time. -/
theorem many_rest_eq_iff (hf : Takes 1 f) {as : List α} (h : XPath.many f s = (as, rest)) : rest = s ↔ as = [] := by
  cases as with
  | nil => simp [many_eq_nil h]
  | cons a as =>
    obtain ⟨t, hread, hmore⟩ := many_eq_cons h
    obtain ⟨-, hlen⟩ := hf s a t hread
    obtain ⟨-, hlen'⟩ := hf.many t as rest (congrArg some hmore)
    have hne : rest ≠ s := by
      rintro rfl
      omega
    simp [hne]

end Takes

/-! ### Marks and separators -/

/-- Reads something between an opening and a closing mark. -/
def delimited (opening closing : Reader Unit) (read : Reader α) : Reader α := fun s =>
  opening s >>= fun ((), rest) => read rest >>= fun (a, rest) => closing rest >>= fun ((), rest) => some (a, rest)

/-- Reads something after a mark. -/
def preceded (opening : Reader Unit) (read : Reader α) : Reader α := fun s =>
  opening s >>= fun ((), rest) => read rest

/-- Reads any number of things with separators between them. -/
def separated (separator : Reader Unit) (read : Reader α) : Reader (List α) := fun s =>
  (read s).elim (some ([], s)) fun (first, rest) =>
    some (many (preceded separator read) rest) >>= fun (more, rest') => some (first :: more, rest')

theorem call_delimited (inner : Reader Expr) (s : List Char) : call inner s =
    qName s >>= fun (q, rest) => if namesKind q then none else
      delimited (padded (symbol '(')) (padded (symbol ')')) (separated (padded (symbol ',')) inner) rest >>=
        fun (args, rest) => some (.call q args, rest) := by
  simp only [call_eq, arguments_eq, delimited, separated, Option.bind_eq_bind, Option.bind_assoc]
  rfl

theorem takes_delimited {opening closing : Reader Unit} {f : Reader α} (ho : Takes 1 opening) (hc : Takes 1 closing)
    (hf : Takes k f) : Takes 1 (delimited opening closing f) :=
  ho.before fun _ => hf.suffix.before fun _ => hc.suffix.before fun _ => Takes.pure

theorem takes_preceded {opening : Reader Unit} {f : Reader α} (ho : Takes 1 opening) (hf : Takes k f) :
    Takes 1 (preceded opening f) :=
  ho.before fun _ => hf.suffix

theorem takes_separated {separator : Reader Unit} {f : Reader α} (hs : Takes 1 separator) (hf : Takes k f) :
    Takes 0 (separated separator f) :=
  hf.suffix.elim (fun _ => (takes_preceded hs hf).many.before fun _ => Takes.pure) Takes.pure

/-! ### Words -/

theorem length_pos_of_isName {w : List Char} (hw : isName w) : 1 ≤ w.length := by
  obtain ⟨c, v, rfl, -, -⟩ := isName_eq_cons hw
  exact Nat.succ_pos _

theorem takes_symbol (c : Char) : Takes 1 (symbol c) :=
  .of_append fun _ _ _ h => ⟨[c], symbol_recognized h, Nat.le_refl 1⟩

theorem takes_after? {a : α} (word : List Char) : Takes word.length fun s => (after? word s).map (a, ·) := by
  refine .of_append fun s _ rest h => ⟨word, ?_, Nat.le_refl _⟩
  obtain ⟨t, ht, heq⟩ := Option.map_eq_some_iff.mp h
  cases heq
  exact eq_of_after? ht

theorem takes_number : Takes 1 number := by
  refine .of_append fun s _ rest h => ?_
  obtain ⟨m, hs, -⟩ := number_recognized h
  obtain ⟨c, v, hm, -⟩ := m.exists_head
  exact ⟨m.text, hs, hm ▸ Nat.succ_pos _⟩

theorem takes_literal : Takes 1 literal := by
  refine .of_append fun s _ rest h => ?_
  obtain ⟨q, hs, -⟩ := literal_recognized h
  exact ⟨q.quote :: (q.text.toList ++ [q.quote]), by simpa using hs, Nat.succ_pos _⟩

theorem takes_name? : Takes 1 name? := by
  refine .of_append fun s w rest h => ?_
  obtain ⟨hw, hs, -⟩ := name?_recognized h
  exact ⟨w, hs, length_pos_of_isName hw⟩

theorem takes_qName : Takes 1 qName := by
  refine .of_append fun s q rest h => ?_
  obtain ⟨hq, hs, -⟩ := qName_recognized h
  obtain ⟨c, v, htext, -⟩ := hq.exists_head
  exact ⟨q.text.toList, hs, htext ▸ Nat.succ_pos _⟩

theorem takes_slashes : Takes 1 slashes := by
  refine .of_append fun s double rest h => ⟨slashText double, slashes_recognized h, ?_⟩
  cases double <;> exact Nat.succ_pos _

theorem takes_operator (op : Operator) : Takes 1 (operator op) := by
  refine .of_append fun s _ rest h => ?_
  obtain ⟨-, hs, -⟩ := operator_recognized h
  obtain ⟨c, word, hop, -, -⟩ := exists_symbol op
  exact ⟨op.symbol.toList, hs, hop ▸ Nat.succ_pos _⟩

/-! ### Steps -/

theorem takes_nodeTest : Takes 1 nodeTest := by
  refine Takes.orElse ((takes_symbol '*').map fun _ => NodeTest.any) (Takes.orElse ?_ (Takes.orElse ?_ ?_))
  · have hkind : Takes 1 fun s => KindTest.all.findSome? fun k => (after? k.name.toList s).map (k, ·) :=
      .findSome? fun k _ => (takes_after? k.name.toList).mono (length_pos_of_isName (isName_kind k))
    refine hkind.before fun _ => ?_
    refine (takes_symbol '(').padded.suffix.before fun _ => ?_
    exact (takes_symbol ')').suffix.before fun _ => Takes.pure
  · exact Takes.congr anyInTest_eq (takes_name?.before fun _ => (takes_after? [':', '*']).suffix)
  · exact takes_qName.map NodeTest.name

theorem takes_axis : Takes 1 axis := by
  refine .findSome? fun a _ => (takes_after? (a.name.toList ++ [':', ':'])).mono ?_
  rw [List.length_append]
  exact Nat.le_add_left 1 _

theorem takes_testOn (a : Axis) : Takes 1 (testOn a) :=
  takes_nodeTest.map fun test => (a, test)

theorem takes_stepHead : Takes 1 (optional stepHead) := by
  refine Takes.congr optional_stepHead ?_
  refine Takes.orElse ((takes_after? ['.', '.']).mono (Nat.le_succ 1)) (Takes.orElse (takes_after? ['.']) ?_)
  refine Takes.orElse ?_ ?_
  · exact takes_preceded (takes_symbol '@') (takes_testOn .attribute)
  · exact (takes_axis.suffix.orElse Takes.pure).after takes_testOn

/-! ### Operands -/

section Nested

variable (h : Takes 1 inner)

include h

theorem takes_predicate : Takes 1 (predicate inner) :=
  takes_delimited (takes_symbol '[').padded (takes_symbol ']').padded h

theorem takes_step : Takes 1 (optional (step inner)) := by
  refine Takes.congr (optional_step inner) (takes_stepHead.before fun _ => ?_)
  exact (takes_predicate h).many.before fun _ => Takes.pure

theorem takes_nextSteps : Takes 1 (nextSteps inner) :=
  takes_slashes.before fun _ => (takes_step h).suffix.before fun _ => Takes.pure

theorem takes_furtherSteps : Takes 0 fun s => some (furtherSteps inner s) := by
  refine Takes.congr (furtherSteps_eq inner) ?_
  exact (takes_nextSteps h).many.before fun _ => Takes.pure

theorem takes_locationPath : Takes 1 (optional (locationPath inner)) := by
  refine Takes.congr (optional_locationPath inner) (takes_slashes.elim (fun double => ?_) ?_)
  · refine (takes_step h).suffix.elim (fun _ => ?_) ?_
    · exact (takes_furtherSteps h).before fun _ => Takes.pure
    · exact Takes.ite (fun _ => Takes.none) fun _ => Takes.pure
  · exact (takes_step h).before fun _ => (takes_furtherSteps h).before fun _ => Takes.pure

theorem takes_nextArgument : Takes 1 (nextArgument inner) :=
  takes_preceded (takes_symbol ',').padded h

theorem takes_call : Takes 1 (call inner) := by
  refine Takes.congr (call_delimited inner) (takes_qName.before fun _ => Takes.ite (fun _ => Takes.none) fun _ => ?_)
  have hargs := takes_separated (takes_symbol ',').padded h
  exact (takes_delimited (takes_symbol '(').padded (takes_symbol ')').padded hargs).suffix.before fun _ => Takes.pure

theorem takes_group : Takes 1 (group inner) :=
  takes_delimited (takes_symbol '(') (takes_symbol ')').padded h

theorem takes_primary : Takes 1 (primary inner) :=
  (takes_number.orElse (takes_literal.orElse ((takes_call h).orElse (takes_group h)))).padded

theorem takes_filtered : Takes 1 (filtered inner) := by
  refine Takes.congr (filtered_eq inner) ((takes_primary h).before fun _ => ?_)
  exact (takes_predicate h).many.before fun _ => Takes.pure

theorem takes_operand : Takes 1 (optional (operand inner)) := by
  refine Takes.congr (optional_operand inner) ((takes_filtered h).elim (fun _ => ?_) (takes_locationPath h).padded)
  exact (takes_furtherSteps h).before fun _ => Takes.pure

omit h in
theorem nextSteps_ne_nil {steps : List Step} (hread : nextSteps inner s = some (steps, rest)) : steps ≠ [] := by
  obtain ⟨⟨double, t⟩, -, hread⟩ := Option.bind_eq_some_iff.mp hread
  obtain ⟨⟨next, t'⟩, -, heq⟩ := Option.bind_eq_some_iff.mp hread
  cases heq
  cases double <;> exact List.cons_ne_nil _ _

/-- Further steps take nothing of a text if and only if there are none. -/
theorem furtherSteps_rest_eq_iff {steps : List Step} (hread : furtherSteps inner s = (steps, rest)) :
    rest = s ↔ steps = [] := by
  have hbind := (furtherSteps_eq inner s).symm.trans (congrArg some hread)
  obtain ⟨⟨xs, t⟩, hmany, heq⟩ := Option.bind_eq_some_iff.mp hbind
  cases heq
  replace hmany : many (nextSteps inner) s = (xs, rest) := Option.some.inj hmany
  rw [(takes_nextSteps h).many_rest_eq_iff hmany, List.flatten_eq_nil_iff]
  cases xs with
  | nil => simp
  | cons x xs =>
    obtain ⟨s', hfirst, -⟩ := many_eq_cons hmany
    have hx : x ≠ [] := nextSteps_ne_nil hfirst
    simp [hx]

end Nested

/-! ### Operators -/

section Levels

variable (h : Takes 1 (optional read))

theorem takes_operators (ops : List Operator) : Takes 1 (padded fun s => ops.findSome? (operator · s)) :=
  (Takes.findSome? fun op _ => takes_operator op).padded

include h

theorem takes_nextOperand (ops : List Operator) : Takes 1 (nextOperand ops read) :=
  (takes_operators ops).before fun _ => h.suffix.before fun _ => Takes.pure

theorem takes_chain (ops : List Operator) : Takes 1 (optional (chain ops read)) := by
  refine Takes.congr (optional_chain ops read) (h.before fun _ => ?_)
  exact (takes_nextOperand h ops).many.before fun _ => Takes.pure

theorem takes_signed : Takes 1 (optional (signed read)) := by
  refine Takes.congr (optional_signed read) ?_
  exact (takes_symbol '-').padded.many.after fun _ => h.before fun _ => Takes.pure

theorem takes_layered (table : List (List Operator)) : Takes 1 (optional (layered read table)) := by
  induction table with
  | nil => exact h
  | cons ops tighter ih => exact takes_chain ih ops

end Levels

/-! ### Expressions -/

theorem takes_within (n : Nat) : Takes 1 (within n) := by
  -- The reader of a text reads what is nested in it as a shorter text.
  induction n using Nat.strongRecOn with
  | ind n ih =>
    refine Takes.of_forall fun s => ?_
    by_cases hs : s.length < n
    · have hoperand := takes_operand (ih s.length hs)
      refine ⟨_, takes_layered (takes_signed (takes_chain hoperand [.union])) levels, ?_⟩
      rw [within, if_pos hs, expression_eq]
      rfl
    · exact ⟨_, Takes.none, if_neg hs⟩

end XmlMapping.XPath
