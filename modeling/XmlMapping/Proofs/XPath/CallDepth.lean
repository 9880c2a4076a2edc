import XmlMapping.Proofs.XPath.Watching

/-!
# How deep calls nest

The readers of the grammar are written down once more as what each of them calls. A call is given a shorter text, or
the same text with a reader that is further inside of the grammar. So the calls nest to a depth that is proportional
to the length of the text at most, the equations of the grammar have one solution, and no repetition is stopped
because something takes nothing.
-/

namespace XmlMapping.XPath

open Text

/-! ### What calls what -/

/-- Reads an expression inside of another one. -/
def nested : Reader Expr :=
  optional expression

/-- The readers of the grammar. A level of operators is given with the tighter ones. -/
inductive Nonterminal
  | expression
  | level (table : List (List Operator))
  | unary
  | union
  | path
  | filter
  | primary
  | call
  | predicate
  | furtherSteps
  | locationPath
  | step
  | number
  | literal
  | name
  | qName
  | nodeTest
  | axis

namespace Nonterminal

/-- What a reader of the grammar reads. -/
@[reducible] def Value : Nonterminal → Type
  | furtherSteps => List Step
  | step => Step
  | name => List Char
  | qName => QName
  | nodeTest => NodeTest
  | axis => Axis
  | _ => Expr

/-- The readers of the grammar, given the one that reads expressions inside of others. -/
def readWith (inner : Reader Expr) : (n : Nonterminal) → Reader n.Value
  | expression => nested
  | level table => optional (layered (signed (chain [.union] (operand inner))) table)
  | unary => optional (signed (chain [.union] (operand inner)))
  | union => optional (chain [.union] (operand inner))
  | path => optional (operand inner)
  | filter => filtered inner
  | primary => XPath.primary inner
  | call => XPath.call inner
  | predicate => XPath.predicate inner
  | furtherSteps => fun s => some (XPath.furtherSteps inner s)
  | locationPath => optional (XPath.locationPath inner)
  | step => optional (XPath.step inner)
  | number => XPath.number
  | literal => XPath.literal
  | name => name?
  | qName => XPath.qName
  | nodeTest => XPath.nodeTest
  | axis => XPath.axis

/-- The readers of the grammar. -/
def read (n : Nonterminal) : Reader n.Value :=
  n.readWith nested

/-- How a reader of the grammar reads by calls of others. -/
def body (call : (n : Nonterminal) → Watched n.Value) : (n : Nonterminal) → Watched n.Value
  | expression => call (level levels)
  | level [] => call unary
  | level (ops :: tighter) => .joined ops (call (level tighter))
  | unary => do
    match ← (Watched.plain (padded (symbol '-'))).attempt with
    | some () =>
      let operand ← call unary
      return .negate operand
    | none => call union
  | union => .joined [.union] (call path)
  | path => do
    match ← (call filter).attempt with
    | some base =>
      let steps ← call furtherSteps
      return if steps.isEmpty then base else .path (.nodes base) steps
    | none => (call locationPath).padded
  | filter => do
    let base ← call primary
    let predicates ← (call predicate).many
    return if predicates.isEmpty then base else .filter base predicates
  | primary =>
    let group := Watched.delimited (symbol '(') (padded (symbol ')')) (call expression)
    ((call number).orElse ((call literal).orElse ((call Nonterminal.call).orElse group))).padded
  | Nonterminal.call => do
    let function ← call qName
    if namesKind function then Watched.fail
    else
      let args ← Watched.delimited (padded (symbol '(')) (padded (symbol ')'))
        (.separated (padded (symbol ',')) (call expression))
      return .call function args
  | predicate => .delimited (padded (symbol '[')) (padded (symbol ']')) (call expression)
  | furtherSteps => do
    let steps ← Watched.many do
      let double ← Watched.plain slashes
      let next ← call step
      return expandSlashes double next
    return steps.flatten
  | locationPath => do
    match ← (Watched.plain slashes).attempt with
    | some double =>
      match ← (call step).attempt with
      | some first =>
        let more ← call furtherSteps
        return .path .root (expandSlashes double first ++ more)
      | none =>
        if double then Watched.fail
        else
          let more ← call furtherSteps
          return .path .root more
    | none =>
      let first ← call step
      let more ← call furtherSteps
      return .path .context (first :: more)
  | step => do
    let head ← Watched.stepHead (call axis) (call nodeTest)
    let predicates ← (call predicate).many
    return ⟨head.1, head.2, predicates⟩
  | number => .plain XPath.number
  | literal => .plain XPath.literal
  | name => .plain name?
  | qName => .plain XPath.qName
  | nodeTest => .plain XPath.nodeTest
  | axis => .plain XPath.axis

/-- Reads with calls that nest to a limited depth. -/
def watched : Nat → (n : Nonterminal) → Watched n.Value
  | 0, _ => fun _ => .error .tooDeep
  | d + 1, n => n.body (watched d)

/-- How far outside of the grammar a reader is. With the same text it calls only readers that are further inside. -/
def rank : Nonterminal → Nat
  | number | literal | name | qName | nodeTest | axis | predicate | furtherSteps => 0
  | step | call => 1
  | locationPath | primary => 2
  | filter => 3
  | path => 4
  | union => 5
  | unary => 6
  | level table => 7 + table.length
  | expression => 14

/-- How deep the calls of a reader may nest on a text. -/
def depth (n : Nonterminal) (s : List Char) : Nat :=
  15 * s.length + n.rank + 1

end Nonterminal

/-! ### Readers given those that they call -/

/-- Whether a reader of expressions inside of others takes something, and reads all expressions of texts with fewer
    characters. -/
structure Fits (inner : Reader Expr) (n : Nat) : Prop where
  takes : Takes 1 inner
  agrees : ∀ s, s.length < n → inner s = nested s

theorem Fits.mono {inner : Reader Expr} (h : Fits inner n) (hm : m ≤ n) : Fits inner m :=
  ⟨h.takes, fun s hs => h.agrees s (Nat.lt_of_lt_of_le hs hm)⟩

theorem fits_within (n : Nat) : Fits (within n) n :=
  ⟨takes_within n, fun _ hs => if_pos hs⟩

theorem takes_nested : Takes 1 nested := by
  refine Takes.of_forall fun s => ⟨_, takes_within (s.length + 1), ?_⟩
  exact ((fits_within (s.length + 1)).agrees s (Nat.lt_succ_self _)).symm

theorem fits_nested (n : Nat) : Fits nested n :=
  ⟨takes_nested, fun _ _ => rfl⟩

/-- A minus sign negates what is read after it. -/
theorem optional_signed_eq (read : List Char → Reading Expr) (s : List Char) : optional (signed read) s =
    (padded (symbol '-') s).elim (optional read s) fun ((), rest) =>
      optional (signed read) rest >>= fun (e, rest') => some (.negate e, rest') := by
  cases h : padded (symbol '-') s with
  | none =>
    rw [optional_signed, many_none h]
    simp only [Option.elim_none, Option.bind_eq_bind, Option.bind_some, List.foldr_nil]
    cases optional read s <;> rfl
  | some found =>
    obtain ⟨⟨⟩, rest⟩ := found
    rw [optional_signed, many_some h ((takes_symbol '-').padded s () rest h).2]
    simp only [Option.elim_some, optional_signed, Option.bind_eq_bind, Option.bind_some, List.foldr_cons]
    cases optional read (many (padded (symbol '-')) rest).2 <;> rfl

theorem slashes_of_slash (h : slashes s = some (false, rest)) : slashes rest = none := by
  unfold slashes at h
  split at h <;> cases h
  next hnot =>
  refine slashes_none ?_
  rintro c hc rfl
  cases rest with
  | nil => cases hc
  | cons d rest =>
    obtain rfl := Option.some.inj hc
    exact hnot rest rfl

/-- After a slash alone there are no further steps, so that it does not matter whether they are looked for. -/
theorem optional_locationPath_eq (inner : Reader Expr) (s : List Char) : optional (locationPath inner) s =
    (slashes s).elim
      (optional (step inner) s >>= fun (first, rest) => some (furtherSteps inner rest) >>= fun (more, rest') =>
        some (.path .context (first :: more), rest'))
      fun (double, rest) => (optional (step inner) rest).elim
        (if double then none else
          some (furtherSteps inner rest) >>= fun (more, rest') => some (.path .root more, rest'))
        fun (first, rest') => some (furtherSteps inner rest') >>= fun (more, rest'') =>
          some (.path .root (expandSlashes double first ++ more), rest'') := by
  rw [optional_locationPath]
  rcases h : slashes s with _ | ⟨_ | _, rest⟩
  · rfl
  · dsimp only [Option.elim_some]
    rw [furtherSteps_none (slashes_of_slash h)]
    rfl
  · rfl

namespace Nonterminal

/-- Whether the readers that a reader may call on a text of some length are not stopped: those further inside of the
    grammar on the same text, and those that are called on shorter ones. -/
structure Serves (call : (n : Nonterminal) → Watched n.Value) (inner : Reader Expr) (n : Nonterminal) (k : Nat) :
    Prop where
  fits : Fits inner k
  same : ∀ m : Nonterminal, m.rank < n.rank → (call m).Runs (m.readWith inner) (k + 1)
  shorter : ∀ m : Nonterminal, m.rank < n.rank + 15 → (call m).Runs (m.readWith inner) k

namespace Serves
variable {call : (n : Nonterminal) → Watched n.Value} {inner : Reader Expr} {n : Nonterminal} {k : Nat}

theorem inside (h : Serves call inner n k) : (call expression).Runs inner k := fun s hs => by
  rw [h.fits.agrees s hs]
  exact h.shorter expression (Nat.lt_add_left n.rank (Nat.lt_succ_self 14)) s hs

theorem predicates (h : Serves call inner n k) :
    (call predicate).many.Runs (fun s => some (many (XPath.predicate inner) s)) k := by
  have hpredicate : (call predicate).Runs (XPath.predicate inner) k := h.shorter predicate (Nat.succ_pos _)
  exact hpredicate.many (takes_predicate h.fits.takes)

theorem runs_level (table : List (List Operator)) (h : Serves call inner (level table) k) :
    (body call (level table)).Runs (readWith inner (level table)) (k + 1) := by
  cases table with
  | nil => exact h.same unary (Nat.lt_succ_self 6)
  | cons ops tighter =>
    have htighter := h.same (level tighter) (Nat.lt_succ_self _)
    exact htighter.joined ops (takes_layered (takes_signed (takes_chain (takes_operand h.fits.takes) _)) tighter)

theorem runs_unary (h : Serves call inner unary k) : (body call unary).Runs (readWith inner unary) (k + 1) := by
  refine Watched.Runs.congr (optional_signed_eq _) ?_
  refine Watched.Runs.attempt 1 .plain (takes_symbol '-').padded (fun _ => ?_) (h.same union (Nat.lt_succ_self 5))
  refine Watched.Runs.bind 0 (h.shorter unary (Nat.lt_add_of_pos_right (Nat.succ_pos 14))) ?_ fun _ => .pure
  exact (takes_signed (takes_chain (takes_operand h.fits.takes) _)).suffix

theorem runs_path (h : Serves call inner path k) : (body call path).Runs (readWith inner path) (k + 1) := by
  refine Watched.Runs.congr (optional_operand inner) ?_
  have hfilter := h.same filter (Nat.lt_succ_self 3)
  refine Watched.Runs.attempt 1 hfilter (takes_filtered h.fits.takes) (fun base => ?_) ?_
  · exact Watched.Runs.bind 0 (h.shorter furtherSteps (by decide)) (takes_furtherSteps h.fits.takes) fun _ => .pure
  · exact (h.same locationPath (by decide)).padded

theorem runs_filter (h : Serves call inner filter k) : (body call filter).Runs (readWith inner filter) (k + 1) := by
  refine Watched.Runs.congr (filtered_eq inner) ?_
  refine Watched.Runs.bind 1 (h.same primary (by decide)) (takes_primary h.fits.takes) fun base => ?_
  exact Watched.Runs.bind 0 h.predicates (takes_predicate h.fits.takes).many fun _ => .pure

theorem runs_primary (h : Serves call inner primary k) :
    (body call primary).Runs (readWith inner primary) (k + 1) := by
  have hnumber : (call number).Runs XPath.number (k + 1) := h.same number (by decide)
  have hliteral : (call literal).Runs XPath.literal (k + 1) := h.same literal (by decide)
  have hcall : (call Nonterminal.call).Runs (XPath.call inner) (k + 1) := h.same Nonterminal.call (by decide)
  have hgroup : ((call expression).delimited (symbol '(') (padded (symbol ')'))).Runs (group inner) (k + 1) :=
    h.inside.delimited (takes_symbol '(') (takes_symbol ')').padded h.fits.takes
  exact (hnumber.orElse (hliteral.orElse (hcall.orElse hgroup))).padded

theorem runs_call (h : Serves call inner Nonterminal.call k) :
    (body call Nonterminal.call).Runs (readWith inner Nonterminal.call) (k + 1) := by
  have hopen := (takes_symbol '(').padded
  have hclose := (takes_symbol ')').padded
  have hargs := takes_separated (takes_symbol ',').padded h.fits.takes
  refine Watched.Runs.congr (call_delimited inner) ?_
  refine Watched.Runs.bind 1 (h.same qName (by decide)) takes_qName fun q => ?_
  refine Watched.Runs.ite (fun _ => .fail) fun _ => ?_
  refine Watched.Runs.bind 0 ?_ (takes_delimited hopen hclose hargs).suffix fun _ => .pure
  have hinside := h.inside.separated (takes_symbol ',').padded h.fits.takes
  exact (hinside.delimited hopen hclose hargs).mono (Nat.le_succ k)

theorem runs_predicate (h : Serves call inner predicate k) :
    (body call predicate).Runs (readWith inner predicate) (k + 1) :=
  h.inside.delimited (takes_symbol '[').padded (takes_symbol ']').padded h.fits.takes

theorem runs_furtherSteps (h : Serves call inner furtherSteps k) :
    (body call furtherSteps).Runs (readWith inner furtherSteps) (k + 1) := by
  have hnext := takes_nextSteps h.fits.takes
  refine Watched.Runs.congr (furtherSteps_eq inner) ?_
  refine Watched.Runs.bind 0 (Watched.Runs.many (f := nextSteps inner) ?_ hnext) hnext.many fun _ => .pure
  refine Watched.Runs.bind 1 .plain takes_slashes fun double => ?_
  exact Watched.Runs.bind 0 (h.shorter step (by decide)) (takes_step h.fits.takes).suffix fun _ => .pure

theorem runs_locationPath (h : Serves call inner locationPath k) :
    (body call locationPath).Runs (readWith inner locationPath) (k + 1) := by
  have hmore := h.shorter furtherSteps (by decide)
  have htakes := takes_furtherSteps h.fits.takes
  refine Watched.Runs.congr (optional_locationPath_eq inner) ?_
  refine Watched.Runs.attempt 1 .plain takes_slashes (fun double => ?_) ?_
  · refine Watched.Runs.attempt 0 (h.shorter step (by decide)) (takes_step h.fits.takes).suffix (fun first => ?_) ?_
    · exact Watched.Runs.bind 0 hmore htakes fun _ => .pure
    · exact Watched.Runs.ite (fun _ => .fail) fun _ => Watched.Runs.bind 0 hmore htakes fun _ => .pure
  · refine Watched.Runs.bind 1 (h.same step (by decide)) (takes_step h.fits.takes) fun first => ?_
    exact Watched.Runs.bind 0 hmore htakes fun _ => .pure

theorem runs_step (h : Serves call inner step k) : (body call step).Runs (readWith inner step) (k + 1) := by
  refine Watched.Runs.congr (optional_step inner) ?_
  have hhead := Watched.Runs.stepHead (h.same axis (by decide)) (h.same nodeTest (by decide))
  refine Watched.Runs.bind 1 hhead takes_stepHead fun _ => ?_
  exact Watched.Runs.bind 0 h.predicates (takes_predicate h.fits.takes).many fun _ => .pure

theorem runs (hn : n ≠ expression) (h : Serves call inner n k) : (body call n).Runs (n.readWith inner) (k + 1) := by
  cases n with
  | expression => exact absurd rfl hn
  | level table => exact runs_level table h
  | unary => exact runs_unary h
  | union => exact (h.same path (by decide)).joined [.union] (takes_operand h.fits.takes)
  | path => exact runs_path h
  | filter => exact runs_filter h
  | primary => exact runs_primary h
  | call => exact runs_call h
  | predicate => exact runs_predicate h
  | furtherSteps => exact runs_furtherSteps h
  | locationPath => exact runs_locationPath h
  | step => exact runs_step h
  | number | literal | name | qName | nodeTest | axis => exact .plain

end Serves

/-! ### The depth that is enough -/

section
variable {inner : Reader Expr} {d : Nat} {n : Nonterminal} {s : List Char}

/-- Readers that call one another are not stopped from some depth on, and come to what the readers of the grammar
    read, whatever they do at depth zero. -/
theorem calls_eq (calls : Nat → (n : Nonterminal) → Watched n.Value)
    (hcalls : ∀ d n, calls (d + 1) n = n.body (calls d)) (hd : n.depth s ≤ d) (hinner : Fits inner s.length) :
    calls d n s = .ok (n.readWith inner s) := by
  induction d generalizing n s inner with
  | zero => exact absurd hd (Nat.not_succ_le_zero _)
  | succ d ih =>
    have hserves {inner : Reader Expr} (hinner : Fits inner s.length) : Serves (calls d) inner n s.length := by
      -- A call on the same text is of a smaller rank; one on a shorter text has fifteen less to go.
      refine ⟨hinner, fun m hm r hr => ih ?_ (hinner.mono (Nat.le_of_lt_succ hr)), fun m hm r hr => ih ?_ ?_⟩
      · unfold depth at hd ⊢
        omega
      · unfold depth at hd ⊢
        omega
      · exact hinner.mono (Nat.le_of_lt hr)
    rw [hcalls]
    by_cases hn : n = expression
    · -- The bound on the texts inside of the expression does not matter: any reader that fits comes to the same.
      subst hn
      have hlevels := (hserves (fits_within s.length)).same (level levels) (by decide) s (Nat.lt_succ_self _)
      have hread : nested s = readWith (within s.length) (level levels) s := by
        rw [nested, optional, expression_eq]
        rfl
      exact hlevels.trans (congrArg Except.ok hread.symm)
    · exact (hserves hinner).runs hn s (Nat.lt_succ_self _)

theorem watched_eq (hd : n.depth s ≤ d) (hinner : Fits inner s.length) : n.watched d s = .ok (n.readWith inner s) :=
  calls_eq watched (fun _ _ => rfl) hd hinner

theorem readWith_eq (hinner : Fits inner s.length) : n.readWith inner s = n.read s := by
  have hwatched := watched_eq (Nat.le_refl (n.depth s)) hinner
  rw [watched_eq (Nat.le_refl (n.depth s)) (fits_nested s.length)] at hwatched
  exact (Except.ok.inj hwatched).symm

theorem read_expression (s : List Char) : expression.read s = (level levels).read s := by
  have hrank : (level levels).rank + 1 ≤ expression.rank + 1 := by decide
  have hdepth : (level levels).depth s ≤ expression.depth s := Nat.add_le_add_left hrank (15 * s.length)
  have hcall (d : Nat) : expression.watched (d + 1) s = (level levels).watched d s := rfl
  have hexpression := watched_eq (n := expression) (Nat.le_succ (expression.depth s)) (fits_nested s.length)
  rw [hcall, watched_eq hdepth (fits_nested s.length)] at hexpression
  exact (Except.ok.inj hexpression).symm

/-- The equations of the grammar have one solution, in which no reader is stopped. -/
theorem solution_iff (call : (n : Nonterminal) → Watched n.Value) :
    (∀ n s, call n s = n.body call s) ↔ ∀ n s, call n s = .ok (n.read s) := by
  constructor
  · intro hcall n s
    have hcalls : ∀ (d : Nat) (n : Nonterminal), call n = n.body call := fun _ n => funext (hcall n)
    exact calls_eq (fun _ => call) hcalls (Nat.le_refl (n.depth s)) (fits_nested s.length)
  · intro hcall n s
    by_cases hn : n = expression
    · subst hn
      have hlevels := hcall (level levels) s
      rw [← read_expression] at hlevels
      exact (hcall expression s).trans hlevels.symm
    · have hserves : Serves call nested n s.length :=
        ⟨fits_nested _, fun m _ r _ => hcall m r, fun m _ r _ => hcall m r⟩
      exact (hcall n s).trans (hserves.runs hn s (Nat.lt_succ_self _)).symm

end

theorem takes_read {n : Nonterminal} (hn : n ≠ furtherSteps) : Takes 1 n.read := by
  have hoperand := takes_operand takes_nested
  have hsigned := takes_signed (takes_chain hoperand [.union])
  cases n with
  | expression => exact takes_nested
  | level table => exact takes_layered hsigned table
  | unary => exact hsigned
  | union => exact takes_chain hoperand [.union]
  | path => exact hoperand
  | filter => exact takes_filtered takes_nested
  | primary => exact takes_primary takes_nested
  | call => exact takes_call takes_nested
  | predicate => exact takes_predicate takes_nested
  | furtherSteps => exact absurd rfl hn
  | locationPath => exact takes_locationPath takes_nested
  | step => exact takes_step takes_nested
  | number => exact takes_number
  | literal => exact takes_literal
  | name => exact takes_name?
  | qName => exact takes_qName
  | nodeTest => exact takes_nodeTest
  | axis => exact takes_axis

end Nonterminal

/-- Every reader of the grammar makes progress: what it leaves of a text is a proper suffix, but for further steps,
    which leave a suffix, and the whole text exactly if there are none. What is repeated, an operator with its operand,
    a predicate, slashes with a step, a comma with an argument or a minus sign, takes something of the text each time.
    So no reader is stopped, neither by a repetition of what takes nothing nor for want of depth, if the depth is
    proportional to the length of the text; the equations by which the readers call one another have one solution; and
    the bound on the length of the texts inside of an expression plays no part. -/
theorem grammar_progress :
    (∀ n : Nonterminal, n ≠ .furtherSteps → Takes 1 n.read) ∧
      (∀ s steps rest, Nonterminal.furtherSteps.read s = some (steps, rest) →
        rest <:+ s ∧ (rest = s ↔ steps = [])) ∧
      (Takes 1 (predicate nested) ∧ Takes 1 (nextSteps nested) ∧ Takes 1 (nextArgument nested) ∧
        Takes 1 (padded (symbol '-')) ∧ Takes 1 (nextOperand [.union] (operand nested)) ∧
        ∀ ops table, Takes 1 (nextOperand ops (layered (signed (chain [.union] (operand nested))) table))) ∧
      (∀ (n : Nonterminal) s d, n.depth s ≤ d → n.watched d s = .ok (n.read s)) ∧
      (∀ call : (n : Nonterminal) → Watched n.Value,
        (∀ n s, call n s = n.body call s) ↔ ∀ n s, call n s = .ok (n.read s)) ∧
      ∀ (n : Nonterminal) s k, s.length ≤ k → n.readWith (within k) s = n.read s := by
  have hoperand : Takes 1 (optional (operand nested)) := takes_operand takes_nested
  refine ⟨fun n hn => n.takes_read hn, fun s steps rest h => ?_, ⟨takes_predicate takes_nested,
    takes_nextSteps takes_nested, takes_nextArgument takes_nested, (takes_symbol '-').padded,
    takes_nextOperand hoperand [.union], fun ops table => ?_⟩, fun n s d hd => ?_, Nonterminal.solution_iff,
    fun n s k hk => ?_⟩
  · exact ⟨(takes_furtherSteps takes_nested s steps rest h).1,
      furtherSteps_rest_eq_iff takes_nested (Option.some.inj h)⟩
  · exact takes_nextOperand (takes_layered (takes_signed (takes_chain hoperand [.union])) table) ops
  · exact Nonterminal.watched_eq hd (fits_nested s.length)
  · exact Nonterminal.readWith_eq ((fits_within k).mono hk)

end XmlMapping.XPath
