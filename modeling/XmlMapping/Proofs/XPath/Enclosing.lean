import XmlMapping.Proofs.XPath.Brackets
import XmlMapping.Proofs.XPath.Reading

/-!
# Expressions in parentheses

A text that is an expression is one in parentheses as well, whatever comes after them: no reader looks past
the parenthesis that closes the one before the expression. Only a number can be another one there, for at the
very end of a text the digits after its point do not count.
-/

namespace XmlMapping.XPath

open Text

variable {P : Prop} {i k m : Nat} {r s rest : List Char}

/-! ### Literals, numbers and names -/

theorem exists_of_quotedBy {q : Char} {text : String} (h : quotedBy q s = some (text, rest)) :
    q ∉ text.toList ∧ s = q :: (text.toList ++ q :: rest) := by
  cases s with
  | nil => cases h
  | cons c s =>
    rw [quotedBy] at h
    split at h
    · next hc =>
      split at h
      · cases h
      · next d u hrest =>
        cases h
        obtain rfl : d = q := by
          have hhead := List.head_dropWhile_not (p := (· != q)) (l := s) (by simp [hrest])
          simpa [hrest] using hhead
        rw [String.toList_ofList, hc, ← hrest, List.takeWhile_append_dropWhile]
        refine ⟨fun hmem => ?_, rfl⟩
        simpa using List.all_eq_true.mp List.all_takeWhile _ hmem
    · cases h

theorem inside_quotedBy {q : Char} (hq : q = '\'' ∨ q = '"') : Inside P i i (quotedBy q) (fun _ => quotedBy q) where
  closes_iff h := by
    obtain ⟨hnot, rfl⟩ := exists_of_quotedBy h
    exact closes_quoted hq hnot
  of_none {m s} hs h r := by
    refine quotedBy_none fun c hc => ?_
    rintro rfl
    cases s with
    | nil =>
      obtain rfl := Option.some.inj hc
      rcases hq with hq | hq <;> exact absurd hq (by decide)
    | cons d s =>
      -- The quote would be closed and something read.
      obtain rfl := Option.some.inj hc
      obtain ⟨t, u, rfl, ht, -⟩ := hs.exists_quoted hq
      have hread : quotedBy d (d :: (String.ofList t).toList ++ d :: u) = some (.ofList t, u) :=
        quotedBy_append (by rwa [String.toList_ofList])
      rw [String.toList_ofList] at hread
      rw [List.cons_append, h] at hread
      cases hread
  of_some {m s text rest} _ h := by
    obtain ⟨hnot, rfl⟩ := exists_of_quotedBy h
    refine ⟨text, fun _ => rfl, fun r => ?_⟩
    have hread := quotedBy_append (r := rest ++ ')' :: r) hnot
    simpa using hread

theorem inside_literal : Inside P i i literal (fun _ => literal) :=
  ((inside_quotedBy (Or.inl rfl)).orElse (inside_quotedBy (Or.inr rfl))).map Expr.literal

theorem closes_digits {w d : List Char} (h : digits s = (w, d)) : Closes k s ↔ Closes k d := by
  cases h
  exact (closes_dropWhile (by decide)).symm

theorem digits_append_close {w d : List Char} (h : digits s = (w, d)) (r : List Char) :
    digits (s ++ ')' :: r) = (w, d ++ ')' :: r) := by
  cases h
  rw [digits, takeWhile_append_close (by decide), dropWhile_append_close (by decide)]

theorem number_whole {w d : List Char} (hd : digits s = (w, d)) (hpoint : Stops (· == '.') d) :
    number s = if w = [] then none else some (.number (.ofNumeral false w []), d) := by
  cases d with
  | nil => simp [number, hd]
  | cons c d =>
    have hc : c ≠ '.' := by simpa using hpoint
    simp [number, hd, hc]

theorem number_point {w f more u : List Char} (hd : digits s = (w, '.' :: more)) (hf : digits more = (f, u)) :
    number s = if w = [] ∧ f = [] then none
      else some (.number (.ofNumeral false w (if w ≠ [] ∧ u = [] then [] else f)), u) := by
  cases w with
  | nil => simp [number, hd, hf]
  | cons c w => simp [number, hd, hf]

theorem digits_cases (s : List Char) :
    (∃ w more f u, digits s = (w, '.' :: more) ∧ digits more = (f, u)) ∨
      ∃ w d, digits s = (w, d) ∧ Stops (· == '.') d := by
  rcases hd : digits s with ⟨w, _ | ⟨c, d⟩⟩
  · exact Or.inr ⟨w, [], rfl, stops_nil⟩
  · by_cases hc : c = '.'
    · exact Or.inl ⟨w, d, _, _, by rw [hc], rfl⟩
    · exact Or.inr ⟨w, c :: d, rfl, stops_cons.mpr (by simpa using hc)⟩

theorem stops_append_close {p : Char → Bool} (hp : p ')' = false) (hs : Stops p s) : Stops p (s ++ ')' :: r) := by
  cases s with
  | nil => exact stops_cons.mpr hp
  | cons c s => exact hs.append_of_ne_nil (List.cons_ne_nil c s)

/-- A number is read without a look at what comes after it, but for its value. -/
theorem inside_number : Inside False i i number (fun _ => number) := by
  constructor
  · intro m s a rest h
    rcases digits_cases s with ⟨w, more, f, u, hd, hf⟩ | ⟨w, d, hd, hpoint⟩
    · rw [number_point hd hf] at h
      split at h <;> cases h
      rw [closes_digits hd, closes_plain (by decide), closes_digits hf]
    · rw [number_whole hd hpoint] at h
      split at h <;> cases h
      exact closes_digits hd
  · intro m s _ h r
    rcases digits_cases s with ⟨w, more, f, u, hd, hf⟩ | ⟨w, d, hd, hpoint⟩
    · rw [number_point hd hf] at h
      rw [number_point (digits_append_close hd r) (digits_append_close hf r)]
      split at h
      · next hnone => exact if_pos hnone
      · cases h
    · rw [number_whole hd hpoint] at h
      rw [number_whole (digits_append_close hd r) (stops_append_close (by decide) hpoint)]
      split at h
      · next hnone => exact if_pos hnone
      · cases h
  · intro m s a rest _ h
    rcases digits_cases s with ⟨w, more, f, u, hd, hf⟩ | ⟨w, d, hd, hpoint⟩
    · rw [number_point hd hf] at h
      split at h <;> cases h
      next hsome =>
      refine ⟨.number (.ofNumeral false w f), nofun, fun r => ?_⟩
      rw [number_point (digits_append_close hd r) (digits_append_close hf r), if_neg hsome]
      simp
    · rw [number_whole hd hpoint] at h
      split at h <;> cases h
      next hsome =>
      refine ⟨_, fun _ => rfl, fun r => ?_⟩
      rw [number_whole (digits_append_close hd r) (stops_append_close (by decide) hpoint), if_neg hsome]

theorem inside_name? : Inside P i i name? (fun _ => name?) where
  closes_iff {m s w rest} h := by
    cases s with
    | nil => cases h
    | cons c s =>
      rw [name?] at h
      split at h
      · next hc =>
        cases h
        rw [closes_dropWhile (by decide), closes_plain (not_mem_marks (by decide) hc)]
      · cases h
  of_none {m s} _ h r := by
    cases s with
    | nil => exact name?_of_stops (stops_cons.mpr (by decide))
    | cons c s =>
      rw [name?] at h
      split at h
      · cases h
      · next hc => exact if_neg hc
  of_some {m s w rest} _ h := by
    cases s with
    | nil => cases h
    | cons c s =>
      rw [name?] at h
      split at h
      · next hc =>
        cases h
        refine ⟨_, fun _ => rfl, fun r => ?_⟩
        rw [List.cons_append, name?, if_pos hc, takeWhile_append_close (by decide),
          dropWhile_append_close (by decide)]
      · cases h

theorem qName_eq (s : List Char) : qName s = name? s >>= fun (first, rest) =>
    ((symbol ':' rest >>= fun ((), more) => name? more >>= fun (localPart, rest') =>
      some (⟨some (.ofList first), .ofList localPart⟩, rest')) <|> some (⟨none, .ofList first⟩, rest)) := by
  rw [qName]
  congr 1
  funext read
  obtain ⟨first, rest⟩ := read
  rcases rest with _ | ⟨c, more⟩
  · rfl
  · by_cases hc : c = ':'
    · subst hc
      cases hname : name? more <;> simp [hname]
    · simp [hc, Ne.symm hc, symbol]

theorem inside_qName : Inside P i i qName (fun _ => qName) := by
  refine Inside.congr qName_eq (fun _ => qName_eq) ?_
  refine Inside.bind_same (j := i) inside_name? fun first => ?_
  refine Inside.orElse ?_ (Inside.pure fun _ => rfl)
  refine Inside.bind_same (j := i) (inside_symbol (by decide)) fun _ => ?_
  refine Inside.bind_same (j := i) inside_name? fun _ => ?_
  exact Inside.pure fun _ => rfl

/-! ### Steps -/

theorem not_mem_marks_of_isName {w : List Char} (hw : isName w) : ∀ c ∈ w, c ∉ marks := by
  obtain ⟨-, -, -, -, hchars⟩ := isName_eq_cons hw
  exact fun c hc => not_mem_marks (by decide) (hchars c hc)

theorem inside_kindTest : Inside P i i kindTest (fun _ => kindTest) := by
  unfold kindTest
  refine Inside.bind_same (j := i) (inside_findSome? fun k _ => ?_) fun _ => ?_
  · exact inside_after? (not_mem_marks_of_isName (isName_kind k)) k
  · refine Inside.bind_same (inside_open (Or.inl rfl)).padded fun _ => ?_
    refine Inside.bind_same (inside_close (Or.inl rfl)) fun _ => ?_
    exact Inside.pure fun _ => rfl

theorem anyInTest_eq (s : List Char) : anyInTest s = name? s >>= fun (label, rest) =>
    (after? [':', '*'] rest).map (NodeTest.anyIn (.ofList label), ·) := by
  rw [anyInTest]
  congr 1
  funext read
  obtain ⟨label, rest⟩ := read
  cases h : after? [':', '*'] rest <;> simp [h]

theorem inside_anyInTest : Inside P i i anyInTest (fun _ => anyInTest) := by
  refine Inside.congr anyInTest_eq (fun _ => anyInTest_eq) ?_
  refine Inside.bind_same (j := i) inside_name? fun label => ?_
  exact inside_after? (by simp [marks]) (NodeTest.anyIn (.ofList label))

theorem inside_nodeTest : Inside P i i nodeTest (fun _ => nodeTest) := by
  refine Inside.orElse ((inside_symbol (by decide)).map fun _ => NodeTest.any) ?_
  refine Inside.orElse inside_kindTest (Inside.orElse inside_anyInTest ?_)
  exact inside_qName.map NodeTest.name

theorem inside_axis : Inside P i i axis (fun _ => axis) := by
  refine inside_findSome? fun a _ => inside_after? (fun c hc => ?_) a
  rcases List.mem_append.mp hc with hc | hc
  · exact not_mem_marks_of_isName (isName_axis a) c hc
  · exact not_mem_marks (p := (· == ':')) (by decide) (by simpa using hc)

theorem inside_slashes : Inside P i i slashes (fun _ => slashes) := by
  have hform (s : List Char) :
      slashes s = ((after? ['/', '/'] s).map (true, ·) <|> (after? ['/'] s).map (false, ·)) := by
    rcases s with _ | ⟨c, _ | ⟨d, s⟩⟩
    · rfl
    · by_cases hc : c = '/'
      · subst hc
        rfl
      · simp [slashes, after?, hc, Ne.symm hc]
    · by_cases hc : c = '/'
      · subst hc
        by_cases hd : d = '/'
        · subst hd
          rfl
        · simp [slashes, after?, hd, Ne.symm hd]
      · simp [slashes, after?, hc, Ne.symm hc]
  refine Inside.congr hform (fun _ => hform) ?_
  exact (inside_after? (by simp [marks]) true).orElse (inside_after? (by simp [marks]) false)

/-- A reader that may say what it expected, without that. -/
def optional (read : List Char → Reading α) : Reader α := fun s =>
  (read s).toOption

/-- Reads a node test for an axis. -/
def testOn (a : Axis) : Reader (Axis × NodeTest) := fun s =>
  (nodeTest s).map fun (test, rest) => ((a, test), rest)

theorem optional_stepHead (s : List Char) : optional stepHead s =
    ((after? ['.', '.'] s).map ((Axis.parent, NodeTest.kind .node), ·) <|>
      (after? ['.'] s).map ((Axis.self, NodeTest.kind .node), ·) <|>
      (symbol '@' s >>= fun ((), rest) => testOn .attribute rest) <|>
      ((axis s <|> some (.child, s)) >>= fun (a, rest) => testOn a rest)) := by
  rcases haxis : (axis s).getD (.child, s) with ⟨a, rest⟩
  have hwritten : ((axis s <|> some (.child, s)) >>= fun (a, rest) => testOn a rest) = testOn a rest := by
    cases h : axis s <;> simp [h] at haxis ⊢ <;> simp [haxis]
  rw [hwritten]
  simp only [optional, stepHead, haxis]
  rcases s with _ | ⟨c, s⟩
  · cases h : nodeTest rest <;> simp [after?, symbol, testOn, h, Except.toOption]
  · by_cases hdot : c = '.'
    · subst hdot
      rcases s with _ | ⟨d, s⟩
      · rfl
      · by_cases hd : d = '.'
        · subst hd
          rfl
        · simp [after?, hd, Ne.symm hd, Except.toOption]
    · by_cases hat : c = '@'
      · subst hat
        cases h : nodeTest s <;> cases h' : nodeTest rest <;> simp [after?, symbol, testOn, h, h', Except.toOption]
      · cases h : nodeTest rest <;>
          simp [after?, symbol, testOn, hdot, hat, Ne.symm hdot, Ne.symm hat, h, Except.toOption]

theorem inside_testOn (a : Axis) : Inside P i i (testOn a) (fun _ => testOn a) :=
  inside_nodeTest.map fun test => (a, test)

theorem inside_stepHead : Inside P i i (optional stepHead) (fun _ => optional stepHead) := by
  refine Inside.congr optional_stepHead (fun _ => optional_stepHead) ?_
  refine Inside.orElse (inside_after? (by simp [marks]) _) (Inside.orElse (inside_after? (by simp [marks]) _) ?_)
  refine Inside.orElse ?_ ?_
  · exact Inside.bind_same (j := i) (inside_symbol (by decide)) fun _ => inside_testOn .attribute
  · refine Inside.bind_same (j := i) (inside_axis.orElse (Inside.pure fun _ => rfl)) fun a => ?_
    exact inside_testOn a

/-! ### Operands -/

section Nested

variable {inner : Reader Expr} {inner' : List Char → Reader Expr} (h : Inside False 0 0 inner inner')

include h

theorem inside_predicate : Inside False i i (predicate inner) (fun r => predicate (inner' r)) := by
  refine Inside.bind_same (j := i + 1) (inside_open (Or.inr rfl)).padded fun _ => ?_
  refine Inside.bind h.lift fun _ _ _ => ?_
  refine Inside.bind_same (j := i) (inside_close (Or.inr rfl)).padded fun _ => ?_
  exact Inside.pure nofun

omit h in
theorem optional_step (inner : Reader Expr) (s : List Char) : optional (step inner) s =
    optional stepHead s >>= fun (head, rest) => some (many (predicate inner) rest) >>= fun (predicates, rest') =>
      some (⟨head.1, head.2, predicates⟩, rest') := by
  rw [optional, optional, step]
  cases stepHead s <;> rfl

theorem inside_step : Inside False i i (optional (step inner)) (fun r => optional (step (inner' r))) := by
  refine Inside.congr (optional_step inner) (fun r => optional_step (inner' r)) ?_
  refine Inside.bind (P := False) (j := i) inside_stepHead fun _ _ _ => ?_
  refine Inside.bind (inside_predicate h).many fun _ _ _ => ?_
  exact Inside.pure nofun

/-- Reads slashes and the step after them. -/
def nextSteps (inner : Reader Expr) : Reader (List Step) := fun s =>
  slashes s >>= fun (double, rest) => optional (step inner) rest >>= fun (next, rest) =>
    some (expandSlashes double next, rest)

omit h in
theorem furtherSteps_eq (inner : Reader Expr) (s : List Char) :
    some (furtherSteps inner s) =
      some (many (nextSteps inner) s) >>= fun (steps, rest) => some (steps.flatten, rest) :=
  rfl

theorem inside_furtherSteps :
    Inside False i i (fun s => some (furtherSteps inner s)) (fun r s => some (furtherSteps (inner' r) s)) := by
  refine Inside.congr (furtherSteps_eq inner) (fun r => furtherSteps_eq (inner' r)) ?_
  refine Inside.bind (Inside.many (P := False) ?_) fun _ _ _ => Inside.pure False.elim
  refine Inside.bind_same (j := i) inside_slashes fun _ => ?_
  exact Inside.bind (inside_step h) fun _ _ _ => Inside.pure False.elim

omit h in
theorem optional_locationPath (inner : Reader Expr) (s : List Char) : optional (locationPath inner) s =
    (slashes s).elim
      (optional (step inner) s >>= fun (first, rest) => some (furtherSteps inner rest) >>= fun (more, rest') =>
        some (.path .context (first :: more), rest'))
      fun (double, rest) => (optional (step inner) rest).elim
        (if double then none else some (.path .root [], rest))
        fun (first, rest') => some (furtherSteps inner rest') >>= fun (more, rest'') =>
          some (.path .root (expandSlashes double first ++ more), rest'') := by
  rw [optional, locationPath]
  rcases slashes s with _ | ⟨double, rest⟩
  · simp only [optional]
    cases step inner s <;> rfl
  · simp only [optional]
    cases h : step inner rest <;> cases double <;> simp [h] <;> rfl

theorem inside_locationPath :
    Inside False i i (optional (locationPath inner)) (fun r => optional (locationPath (inner' r))) := by
  refine Inside.congr (optional_locationPath inner) (fun r => optional_locationPath (inner' r)) ?_
  refine Inside.elim (P := True) (j := i) inside_slashes (fun double double' hdouble => ?_) ?_
  · obtain rfl := hdouble trivial
    refine Inside.elim (inside_step h) (fun _ _ _ => ?_) ?_
    · exact Inside.bind (inside_furtherSteps h) fun _ _ _ => Inside.pure False.elim
    · cases double' with
      | true => exact inside_none
      | false => exact Inside.pure False.elim
  · refine Inside.bind (inside_step h) fun _ _ _ => ?_
    exact Inside.bind (inside_furtherSteps h) fun _ _ _ => Inside.pure False.elim

theorem inside_nextArgument : Inside False i i (nextArgument inner) (fun r => nextArgument (inner' r)) :=
  Inside.bind_same (inside_symbol (by decide)).padded fun _ => h.lift

omit h in
theorem arguments_eq (inner : Reader Expr) (s : List Char) : some (arguments inner s) =
    (inner s).elim (some ([], s)) fun (first, rest) =>
      some (many (nextArgument inner) rest) >>= fun (more, rest') => some (first :: more, rest') := by
  rw [arguments]
  cases inner s <;> rfl

theorem inside_arguments :
    Inside False i i (fun s => some (arguments inner s)) (fun r s => some (arguments (inner' r) s)) := by
  refine Inside.congr (arguments_eq inner) (fun r => arguments_eq (inner' r)) ?_
  refine Inside.elim h.lift (fun _ _ _ => ?_) (Inside.pure False.elim)
  exact Inside.bind (inside_nextArgument h).many fun _ _ _ => Inside.pure False.elim

omit h in
theorem call_eq (inner : Reader Expr) (s : List Char) : call inner s =
    qName s >>= fun (q, rest) => if namesKind q then none else
      padded (symbol '(') rest >>= fun ((), rest) => some (arguments inner rest) >>= fun (args, rest) =>
        padded (symbol ')') rest >>= fun ((), rest) => some (.call q args, rest) :=
  rfl

theorem inside_call : Inside False i i (call inner) (fun r => call (inner' r)) := by
  refine Inside.congr (call_eq inner) (fun r => call_eq (inner' r)) ?_
  refine Inside.bind_same (j := i) inside_qName fun _ => ?_
  refine Inside.ite inside_none ?_
  refine Inside.bind_same (j := i + 1) (inside_open (Or.inl rfl)).padded fun _ => ?_
  refine Inside.bind (inside_arguments h) fun _ _ _ => ?_
  refine Inside.bind_same (j := i) (inside_close (Or.inl rfl)).padded fun _ => ?_
  exact Inside.pure False.elim

theorem inside_group : Inside False i i (group inner) (fun r => group (inner' r)) := by
  refine Inside.bind_same (j := i + 1) (inside_open (Or.inl rfl)) fun _ => ?_
  refine Inside.bind h.lift fun _ _ _ => ?_
  refine Inside.bind_same (j := i) (inside_close (Or.inl rfl)).padded fun _ => ?_
  exact Inside.pure nofun

theorem inside_primary : Inside False i i (primary inner) (fun r => primary (inner' r)) :=
  (inside_number.orElse (inside_literal.orElse ((inside_call h).orElse (inside_group h)))).padded

omit h in
theorem filtered_eq (inner : Reader Expr) (s : List Char) : filtered inner s =
    primary inner s >>= fun (base, rest) => some (many (predicate inner) rest) >>= fun (predicates, rest) =>
      some (if predicates.isEmpty then base else .filter base predicates, rest) :=
  rfl

theorem inside_filtered : Inside False i i (filtered inner) (fun r => filtered (inner' r)) := by
  refine Inside.congr (filtered_eq inner) (fun r => filtered_eq (inner' r)) ?_
  refine Inside.bind (inside_primary h) fun _ _ _ => ?_
  exact Inside.bind (inside_predicate h).many fun _ _ _ => Inside.pure False.elim

omit h in
theorem optional_operand (inner : Reader Expr) (s : List Char) : optional (operand inner) s =
    (filtered inner s).elim (padded (optional (locationPath inner)) s) fun (base, rest) =>
      some (furtherSteps inner rest) >>= fun (steps, rest') =>
        some (if steps.isEmpty then base else .path (.nodes base) steps, rest') := by
  rw [optional, operand]
  rcases filtered inner s with _ | ⟨base, rest⟩
  · simp only [optional, padded]
    cases locationPath inner (skipBlanks s) <;> rfl
  · rfl

theorem inside_operand : Inside False i i (optional (operand inner)) (fun r => optional (operand (inner' r))) := by
  refine Inside.congr (optional_operand inner) (fun r => optional_operand (inner' r)) ?_
  refine Inside.elim (inside_filtered h) (fun _ _ _ => ?_) (inside_locationPath h).padded
  exact Inside.bind (inside_furtherSteps h) fun _ _ _ => Inside.pure False.elim

end Nested

/-! ### Operators -/

section Levels

variable {read : List Char → Reading Expr} {read' : List Char → List Char → Reading Expr}

theorem not_mem_marks_of_symbol (op : Operator) : ∀ c ∈ op.symbol.toList, c ∉ marks := by
  have hall : ∀ op ∈ allLevels.flatten, op.symbol.toList.all (!marks.contains ·) := by decide
  obtain ⟨ops, hops, hop⟩ := exists_level op
  intro c hc
  simpa using List.all_eq_true.mp (hall op (List.mem_flatten_of_mem hops hop)) c hc

/-- Ends an operator where no longer name begins. -/
def operatorEnd (op : Operator) : Reader Operator := fun s =>
  if op.symbol.toList.all isNameStart && s.head?.any isNameChar then none else some (op, s)

theorem operatorEnd_append_close (op : Operator) (s r : List Char) :
    operatorEnd op (s ++ ')' :: r) = (operatorEnd op s).map fun (o, rest) => (o, rest ++ ')' :: r) := by
  have hhead : (s ++ ')' :: r).head?.any isNameChar = s.head?.any isNameChar := by
    cases s with
    | nil => exact (by decide : isNameChar ')' = false)
    | cons c s => rfl
  rw [operatorEnd, operatorEnd, hhead]
  split <;> rfl

theorem inside_operatorEnd (op : Operator) : Inside P i i (operatorEnd op) (fun _ => operatorEnd op) := by
  constructor
  · intro m s o rest h
    rw [operatorEnd] at h
    split at h <;> cases h
    rfl
  · intro m s _ h r
    rw [operatorEnd_append_close, h]
    rfl
  · intro m s o rest _ h
    exact ⟨o, fun _ => rfl, fun r => by rw [operatorEnd_append_close, h]; rfl⟩

theorem inside_operator (op : Operator) : Inside P i i (operator op) (fun _ => operator op) := by
  have hform (s : List Char) : operator op s =
      (after? op.symbol.toList s).map ((), ·) >>= fun ((), rest) => operatorEnd op rest := by
    rw [operator]
    cases after? op.symbol.toList s <;> rfl
  refine Inside.congr hform (fun _ => hform) ?_
  exact Inside.bind_same (inside_after? (not_mem_marks_of_symbol op) ()) fun _ => inside_operatorEnd op

theorem inside_nextOperand (ops : List Operator)
    (h : Inside False i i (optional read) (fun r => optional (read' r))) :
    Inside False i i (nextOperand ops read) (fun r => nextOperand ops (read' r)) := by
  refine Inside.bind_same (j := i) (inside_findSome? fun op _ => inside_operator op).padded fun _ => ?_
  exact Inside.bind h fun _ _ _ => Inside.pure False.elim

theorem optional_chain (ops : List Operator) (read : List Char → Reading Expr) (s : List Char) :
    optional (chain ops read) s = optional read s >>= fun (first, rest) =>
      some (many (nextOperand ops read) rest) >>= fun (more, rest') =>
        some (more.foldl (fun left next => .binary next.1 left next.2) first, rest') := by
  rw [optional, optional, chain]
  cases read s <;> rfl

theorem inside_chain (ops : List Operator) (h : Inside False i i (optional read) (fun r => optional (read' r))) :
    Inside False i i (optional (chain ops read)) (fun r => optional (chain ops (read' r))) := by
  refine Inside.congr (optional_chain ops read) (fun r => optional_chain ops (read' r)) ?_
  refine Inside.bind h fun _ _ _ => ?_
  exact Inside.bind (inside_nextOperand ops h).many fun _ _ _ => Inside.pure False.elim

theorem optional_signed (read : List Char → Reading Expr) (s : List Char) :
    optional (signed read) s = some (many (padded (symbol '-')) s) >>= fun (signs, rest) =>
      optional read rest >>= fun (e, rest') => some (signs.foldr (fun _ e => .negate e) e, rest') := by
  rw [optional, signed]
  simp only [optional]
  cases h : read (many (padded (symbol '-')) s).2 <;> simp [h] <;> rfl

theorem inside_signed (h : Inside False i i (optional read) (fun r => optional (read' r))) :
    Inside False i i (optional (signed read)) (fun r => optional (signed (read' r))) := by
  refine Inside.congr (optional_signed read) (fun r => optional_signed (read' r)) ?_
  refine Inside.bind_same (j := i) (inside_symbol (by decide)).padded.many fun _ => ?_
  exact Inside.bind h fun _ _ _ => Inside.pure False.elim

theorem inside_layered (table : List (List Operator))
    (h : Inside False i i (optional read) (fun r => optional (read' r))) :
    Inside False i i (optional (layered read table)) (fun r => optional (layered (read' r) table)) := by
  induction table with
  | nil => exact h
  | cons ops tighter ih => exact inside_chain ops ih

end Levels

/-- An expression is read inside of parentheses if and only if it is read alone. -/
theorem inside_within (n : Nat) : Inside False 0 0 (within n) (fun r => within (n + (r.length + 1))) := by
  -- The reader of a text reads what is nested in it as a shorter text.
  induction n using Nat.strongRecOn with
  | ind n ih =>
    refine Inside.of_forall fun s => ?_
    have hlen (r : List Char) : (s ++ ')' :: r).length = s.length + (r.length + 1) := by simp
    by_cases hs : s.length < n
    · refine ⟨_, _, inside_layered levels (inside_signed (inside_chain [.union] (inside_operand (ih s.length hs)))),
        ?_, fun r => ?_⟩
      · rw [within, if_pos hs, expression_eq]
        rfl
      · rw [within, hlen, if_pos (Nat.add_lt_add_right hs _), expression_eq, hlen]
        rfl
    · refine ⟨_, _, inside_none, if_neg hs, fun r => ?_⟩
      rw [within, hlen, if_neg (mt Nat.lt_of_add_lt_add_right hs)]

/-- A text that is an expression is one in parentheses too, whatever comes after them. -/
theorem expression_enclosed {inside : List Char} {e : Expr} (h : expression inside = .ok (e, [])) :
    ∃ e', ∀ r, expression (inside ++ ')' :: r) = .ok (e', ')' :: r) := by
  have hwithin : within (inside.length + 1) inside = some (e, []) := by
    rw [within, if_pos (Nat.lt_succ_self _), h]
    rfl
  have hinside := inside_within (inside.length + 1)
  have hcloses : Closes 0 inside := (hinside.closes_iff (m := 0) hwithin).mpr .nil
  obtain ⟨e', -, hread⟩ := hinside.of_some (m := 0) hcloses hwithin
  refine ⟨e', fun r => ?_⟩
  have hr := hread r
  rw [within] at hr
  split at hr
  · cases hx : expression (inside ++ ')' :: r) with
    | ok x =>
      rw [hx] at hr
      exact congrArg Except.ok (Option.some.inj hr)
    | error _ =>
      rw [hx] at hr
      cases hr
  · cases hr

end XmlMapping.XPath
