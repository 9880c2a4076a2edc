import XmlMapping.Proofs.XPath.Layers
import XmlMapping.Proofs.XPath.Precedence

/-!
# Written expressions

Trees for the texts of expressions. Besides what an expression means such a tree keeps how it is written: the
blanks between its words, the quotes of literals, the parentheses of groups and the abbreviations of steps. A
tree is well-formed when its operators are applied as their levels say and no word runs on into the next one.
-/

namespace XmlMapping.XPath

open Text

/-! ### Words -/

/-- Blanks between words. -/
abbrev Gap := {b : List Char // Blanks b}

/-- A text in quotes that do not occur in it. -/
structure Quoted where
  quote : Char
  text : String
  isQuote : quote = '\'' ∨ quote = '"'
  closed : quote ∉ text.toList

/-- A name that can be called as a function. -/
abbrev Callable := {q : QName // q.Named ∧ namesKind q = false}

/-- A node test as it is written. One by kind may have blanks on both sides of its first parenthesis. -/
inductive WrittenTest
  | name (q : {q : QName // q.Named})
  | anyIn (label : {p : String // isName p.toList})
  | any
  | kind (k : KindTest) (gap inside : Gap)

/-- The node test that is written. -/
def WrittenTest.test : WrittenTest → NodeTest
  | .name q => .name q.1
  | .anyIn p => .anyIn p.1
  | .any => .any
  | .kind k _ _ => .kind k

/-- The text of a node test. -/
def WrittenTest.text : WrittenTest → List Char
  | .name q => q.1.text.toList
  | .anyIn p => p.1.toList ++ [':', '*']
  | .any => ['*']
  | .kind k gap inside => k.name.toList ++ (gap.1 ++ '(' :: (inside.1 ++ [')']))

/-- The axis and the node test of a step as they are written: in full, without the child axis, with a sign for
    the attribute axis, or as one or two points. -/
inductive Head
  | full (a : Axis) (test : WrittenTest)
  | child (test : WrittenTest)
  | ofAttribute (test : WrittenTest)
  | self
  | parent

/-- The axis and the node test that are written. -/
def Head.meaning : Head → Axis × NodeTest
  | .full a t => (a, t.test)
  | .child t => (.child, t.test)
  | .ofAttribute t => (.attribute, t.test)
  | .self => (.self, .kind .node)
  | .parent => (.parent, .kind .node)

/-- The text of the axis and the node test of a step. -/
def Head.text : Head → List Char
  | .full a t => a.name.toList ++ ':' :: ':' :: t.text
  | .child t => t.text
  | .ofAttribute t => '@' :: t.text
  | .self => ['.']
  | .parent => ['.', '.']

/-- A step with the given predicates. -/
def Head.step (h : Head) (predicates : List Expr) : Step :=
  ⟨h.meaning.1, h.meaning.2, predicates⟩

/-- The text of one or two slashes. -/
def slashText (double : Bool) : List Char :=
  if double then ['/', '/'] else ['/']

/-! ### Phrases -/

mutual

/-- A number, a literal, a call or a group in parentheses, as it is written. -/
inductive Primary
  | number (m : Numeral)
  | literal (q : Quoted)
  | callEmpty (f : Callable) (gap inside : Gap)
  | call (f : Callable) (gap before : Gap) (first : Phrase) (after : Gap) (more : MoreArguments)
  | group (before : Gap) (content : Phrase) (after : Gap)

/-- An expression as it is written, without blanks around it. -/
inductive Phrase
  | primary (p : Primary) (predicates : Predicates) (steps : MoreSteps)
  | root
  | rooted (double : Bool) (head : Head) (predicates : Predicates) (more : MoreSteps)
  | relative (head : Head) (predicates : Predicates) (more : MoreSteps)
  | negate (gap : Gap) (operand : Phrase)
  | binary (op : Operator) (left : Phrase) (before after : Gap) (right : Phrase)

/-- Further arguments, each with a comma before it. -/
inductive MoreArguments
  | nil
  | cons (before : Gap) (argument : Phrase) (after : Gap) (more : MoreArguments)

/-- Predicates, each with blanks before its bracket. -/
inductive Predicates
  | nil
  | cons (gap before : Gap) (condition : Phrase) (after : Gap) (more : Predicates)

/-- Further steps, each with blanks and slashes before it. -/
inductive MoreSteps
  | nil
  | cons (gap : Gap) (double : Bool) (head : Head) (predicates : Predicates) (more : MoreSteps)

end

mutual

/-- The text of a primary expression. -/
def Primary.text : Primary → List Char
  | .number m => m.text
  | .literal q => q.quote :: (q.text.toList ++ [q.quote])
  | .callEmpty f gap inside => f.1.text.toList ++ (gap.1 ++ '(' :: (inside.1 ++ [')']))
  | .call f gap before first after more =>
    f.1.text.toList ++ (gap.1 ++ '(' :: (before.1 ++ (first.text ++ (after.1 ++ (more.text ++ [')'])))))
  | .group before content after => '(' :: (before.1 ++ (content.text ++ (after.1 ++ [')'])))

/-- The text of a phrase. -/
def Phrase.text : Phrase → List Char
  | .primary p predicates steps => p.text ++ (predicates.text ++ steps.text)
  | .root => ['/']
  | .rooted double head predicates more => slashText double ++ (head.text ++ (predicates.text ++ more.text))
  | .relative head predicates more => head.text ++ (predicates.text ++ more.text)
  | .negate gap operand => '-' :: (gap.1 ++ operand.text)
  | .binary op left before after right =>
    left.text ++ (before.1 ++ (op.symbol.toList ++ (after.1 ++ right.text)))

/-- The text of further arguments. -/
def MoreArguments.text : MoreArguments → List Char
  | .nil => []
  | .cons before argument after more => ',' :: (before.1 ++ (argument.text ++ (after.1 ++ more.text)))

/-- The text of predicates. -/
def Predicates.text : Predicates → List Char
  | .nil => []
  | .cons gap before condition after more =>
    gap.1 ++ '[' :: (before.1 ++ (condition.text ++ (after.1 ++ ']' :: more.text)))

/-- The text of further steps. -/
def MoreSteps.text : MoreSteps → List Char
  | .nil => []
  | .cons gap double head predicates more =>
    gap.1 ++ (slashText double ++ (head.text ++ (predicates.text ++ more.text)))

end

/-- Whether there are no predicates. -/
def Predicates.isNil : Predicates → Bool
  | .nil => true
  | .cons .. => false

/-- Whether there are no further steps. -/
def MoreSteps.isNil : MoreSteps → Bool
  | .nil => true
  | .cons .. => false

/-- An expression with predicates, if there are any. -/
def filteredBy (base : Expr) (predicates : List Expr) : Expr :=
  if predicates.isEmpty then base else .filter base predicates

/-- An expression with the steps that go on from it, if there are any. -/
def continuedBy (base : Expr) (steps : List Step) : Expr :=
  if steps.isEmpty then base else .path (.nodes base) steps

mutual

/-- The expression that is written, given whether the text ends with it: at the very end of a text the digits
    after the point of a number do not count. -/
def Primary.expr (last : Bool) : Primary → Expr
  | .number m => .number (if last then m.wholeValue else m.value)
  | .literal q => .literal q.text
  | .callEmpty f _ _ => .call f.1 []
  | .call f _ _ first _ more => .call f.1 (first.expr false :: more.exprs)
  | .group _ content _ => content.expr false

/-- The expression that is written, given whether the text ends with it. -/
def Phrase.expr (last : Bool) : Phrase → Expr
  | .primary p predicates steps =>
    continuedBy (filteredBy (p.expr (predicates.isNil && steps.isNil && last)) predicates.exprs) steps.steps
  | .root => .path .root []
  | .rooted double head predicates more =>
    .path .root (expandSlashes double (head.step predicates.exprs) ++ more.steps)
  | .relative head predicates more => .path .context (head.step predicates.exprs :: more.steps)
  | .negate _ operand => .negate (operand.expr last)
  | .binary op left _ _ right => .binary op (left.expr false) (right.expr last)

/-- The further arguments that are written. -/
def MoreArguments.exprs : MoreArguments → List Expr
  | .nil => []
  | .cons _ argument _ more => argument.expr false :: more.exprs

/-- The predicates that are written. -/
def Predicates.exprs : Predicates → List Expr
  | .nil => []
  | .cons _ _ condition _ more => condition.expr false :: more.exprs

/-- The further steps that are written. -/
def MoreSteps.steps : MoreSteps → List Step
  | .nil => []
  | .cons _ double head predicates more => expandSlashes double (head.step predicates.exprs) ++ more.steps

end

/-! ### Well-formed phrases -/

/-- What ends a phrase: something closed, a name, or the slash of the document node. -/
inductive Ending
  | closed
  | name
  | slash

/-- Whether a phrase with such an end does not run on into a text: a name ends where no character of a name
    follows, and a slash alone where no step begins. -/
def Ending.Clear : Ending → List Char → Prop
  | .closed, _ => True
  | .name, r => Stops isNameChar r
  | .slash, r => Stops (fun c => isNameStart c || c == '*') r

/-- What ends a node test. -/
def WrittenTest.ending : WrittenTest → Ending
  | .name _ => .name
  | .anyIn _ => .closed
  | .any => .closed
  | .kind .. => .closed

/-- What ends the axis and the node test of a step. -/
def Head.ending : Head → Ending
  | .full _ t => t.ending
  | .child t => t.ending
  | .ofAttribute t => t.ending
  | .self => .closed
  | .parent => .closed

/-- What ends predicates that come after something. -/
def Predicates.endingAfter (e : Ending) : Predicates → Ending
  | .nil => e
  | .cons .. => .closed

/-- What ends further steps that come after something. -/
def MoreSteps.endingAfter (e : Ending) : MoreSteps → Ending
  | .nil => e
  | .cons _ _ head predicates more => more.endingAfter (predicates.endingAfter head.ending)

/-- What ends a phrase. -/
def Phrase.ending : Phrase → Ending
  | .primary _ _ steps => steps.endingAfter .closed
  | .root => .slash
  | .rooted _ head predicates more => more.endingAfter (predicates.endingAfter head.ending)
  | .relative head predicates more => more.endingAfter (predicates.endingAfter head.ending)
  | .negate _ operand => operand.ending
  | .binary _ _ _ _ right => right.ending

/-- The level of what a phrase applies last. -/
def Phrase.level : Phrase → Nat
  | .primary .. => atomLevel
  | .root => atomLevel
  | .rooted .. => atomLevel
  | .relative .. => atomLevel
  | .negate .. => minusLevel
  | .binary op .. => op.level

mutual

/-- Whether the parts of a primary expression are well-formed. -/
def Primary.WellFormed : Primary → Prop
  | .number _ => True
  | .literal _ => True
  | .callEmpty .. => True
  | .call _ _ _ first _ more => first.WellFormed ∧ more.WellFormed
  | .group _ content _ => content.WellFormed

/-- Whether the operators of a phrase are applied as their levels say, the parts around an operator do not run
    on into it nor it into them, and blanks stand before a slash only after a bracket or a parenthesis or an
    expression that is no path. -/
def Phrase.WellFormed : Phrase → Prop
  | .primary p predicates steps => p.WellFormed ∧ predicates.WellFormed ∧ steps.WellFormed true
  | .root => True
  | .rooted _ _ predicates more => predicates.WellFormed ∧ more.WellFormed (!predicates.isNil)
  | .relative _ predicates more => predicates.WellFormed ∧ more.WellFormed (!predicates.isNil)
  | .negate _ operand => minusLevel ≤ operand.level ∧ operand.WellFormed
  | .binary op left before after right =>
    op.level ≤ left.level ∧ op.level < right.level ∧ left.ending.Clear (before.1 ++ op.symbol.toList) ∧
      (op.IsWord → Stops isNameChar (after.1 ++ right.text)) ∧ left.WellFormed ∧ right.WellFormed

/-- Whether further arguments are well-formed. -/
def MoreArguments.WellFormed : MoreArguments → Prop
  | .nil => True
  | .cons _ argument _ more => argument.WellFormed ∧ more.WellFormed

/-- Whether predicates are well-formed. -/
def Predicates.WellFormed : Predicates → Prop
  | .nil => True
  | .cons _ _ condition _ more => condition.WellFormed ∧ more.WellFormed

/-- Whether further steps are well-formed, given whether blanks may stand before the first slash. -/
def MoreSteps.WellFormed (room : Bool) : MoreSteps → Prop
  | .nil => True
  | .cons gap _ _ predicates more =>
    (gap.1 ≠ [] → room) ∧ predicates.WellFormed ∧ more.WellFormed (!predicates.isNil)

end

/-! ### The ends of a phrase -/

variable {c : Phrase} {x : Char} {r s t u v : List Char}

/-- Whether a character can begin an operand. -/
def opensOperand (x : Char) : Bool :=
  isNameStart x || x.isDigit || ['\'', '"', '(', '/', '@', '*', '.'].contains x

theorem opensOperand_of_isNameStart (h : isNameStart x) : opensOperand x := by
  simp [opensOperand, h]

theorem opensOperand_of_mem (h : x ∈ ['\'', '"', '(', '/', '@', '*', '.']) : opensOperand x := by
  simp only [opensOperand, Bool.or_eq_true, List.contains_iff_mem]
  exact Or.inr h

theorem isWhiteSpace_of_opensOperand (h : opensOperand x) : isWhiteSpace x = false := by
  simp only [opensOperand, Bool.or_eq_true, List.contains_iff_mem] at h
  rcases h with (h | h) | h
  · exact isWhiteSpace_of_isNameChar (isNameChar_of_isNameStart h)
  · exact isWhiteSpace_of_isNameChar (isNameChar_of_isDigit h)
  · have hall : ∀ y ∈ ['\'', '"', '(', '/', '@', '*', '.'], isWhiteSpace y = false := by
      simp [isWhiteSpace]
    exact hall x h

theorem ne_of_opensOperand {y : Char} (h : opensOperand x) (hy : opensOperand y = false) : x ≠ y := by
  rintro rfl
  rw [h] at hy
  cases hy

theorem WrittenTest.exists_head (w : WrittenTest) : ∃ x v, w.text = x :: v ∧ (isNameStart x ∨ x = '*') := by
  cases w with
  | name q =>
    obtain ⟨x, v, hq, hx⟩ := q.2.exists_head
    exact ⟨x, v, hq, Or.inl hx⟩
  | anyIn p =>
    obtain ⟨x, v, hp, hx, -⟩ := isName_eq_cons p.2
    exact ⟨x, v ++ [':', '*'], by rw [text, hp]; rfl, Or.inl hx⟩
  | any => exact ⟨'*', [], rfl, Or.inr rfl⟩
  | kind k gap inside =>
    obtain ⟨x, v, hk, hx, -⟩ := isName_eq_cons (isName_kind k)
    exact ⟨x, _, by rw [text, hk]; rfl, Or.inl hx⟩

/-- A step begins with a name, a star, a point or the sign for the attribute axis. -/
theorem Head.exists_head (h : Head) : ∃ x v, h.text = x :: v ∧ (isNameStart x ∨ x ∈ ['*', '@', '.']) := by
  have htest (w : WrittenTest) : ∃ x v, w.text = x :: v ∧ (isNameStart x ∨ x ∈ ['*', '@', '.']) := by
    obtain ⟨x, v, hw, hx⟩ := w.exists_head
    exact ⟨x, v, hw, hx.imp_right fun h => by simp [h]⟩
  cases h with
  | full a w =>
    obtain ⟨x, v, ha, hx, -⟩ := isName_eq_cons (isName_axis a)
    exact ⟨x, _, by rw [text, ha]; rfl, Or.inl hx⟩
  | child w => exact htest w
  | ofAttribute w => exact ⟨'@', w.text, rfl, Or.inr (by decide)⟩
  | self => exact ⟨'.', [], rfl, Or.inr (by decide)⟩
  | parent => exact ⟨'.', ['.'], rfl, Or.inr (by decide)⟩

theorem Head.opens {h : Head} : ∃ x v, h.text = x :: v ∧ opensOperand x ∧ x ≠ '/' := by
  obtain ⟨x, v, htext, hx | hx⟩ := h.exists_head
  · exact ⟨x, v, htext, opensOperand_of_isNameStart hx, ne_of_isNameStart hx (by decide)⟩
  · have hsub : ['*', '@', '.'] ⊆ ['\'', '"', '(', '/', '@', '*', '.'] := by decide
    refine ⟨x, v, htext, opensOperand_of_mem (hsub hx), ?_⟩
    rintro rfl
    exact absurd hx (by decide)

theorem Primary.opens (p : Primary) : ∃ x v, p.text = x :: v ∧ opensOperand x := by
  have hname (f : Callable) (u : List Char) : ∃ x v, f.1.text.toList ++ u = x :: v ∧ opensOperand x := by
    obtain ⟨x, v, hf, hx⟩ := f.2.1.exists_head
    exact ⟨x, v ++ u, by rw [hf]; rfl, opensOperand_of_isNameStart hx⟩
  cases p with
  | number m =>
    obtain ⟨x, v, hm, hx | rfl⟩ := m.exists_head
    · exact ⟨x, v, hm, by simp [opensOperand, hx]⟩
    · exact ⟨'.', v, hm, opensOperand_of_mem (by decide)⟩
  | literal q =>
    refine ⟨q.quote, _, rfl, opensOperand_of_mem ?_⟩
    rcases q.isQuote with h | h <;> rw [h] <;> decide
  | callEmpty f gap inside => exact hname f _
  | call f gap before first after more => exact hname f _
  | group before content after => exact ⟨'(', _, rfl, opensOperand_of_mem (by decide)⟩

/-- A phrase begins with what begins an operand, or with a minus sign, which no tighter phrase does. -/
theorem Phrase.opens : ∀ c : Phrase, c.WellFormed →
    ∃ x v, c.text = x :: v ∧ (opensOperand x ∨ x = '-' ∧ c.level ≤ minusLevel)
  | .primary p predicates steps, _ => by
    obtain ⟨x, v, hp, hx⟩ := p.opens
    exact ⟨x, _, by rw [text, hp]; rfl, Or.inl hx⟩
  | .root, _ => ⟨'/', [], rfl, Or.inl (opensOperand_of_mem (by decide))⟩
  | .rooted double head predicates more, _ => by
    refine ⟨'/', (slashText double).tail ++ (head.text ++ (predicates.text ++ more.text)), ?_,
      Or.inl (opensOperand_of_mem (by decide))⟩
    cases double <;> rfl
  | .relative head predicates more, _ => by
    obtain ⟨x, v, hhead, hx, -⟩ := head.opens
    exact ⟨x, _, by rw [text, hhead]; rfl, Or.inl hx⟩
  | .negate gap operand, _ => ⟨'-', _, rfl, Or.inr ⟨rfl, Nat.le_refl _⟩⟩
  | .binary op left before after right, h => by
    obtain ⟨hl, -, -, -, hleft, -⟩ := h
    obtain ⟨x, v, htext, hx⟩ := left.opens hleft
    exact ⟨x, _, by rw [text, htext]; rfl, hx.imp_right fun hx => ⟨hx.1, Nat.le_trans hl hx.2⟩⟩

theorem Phrase.begins (hc : c.WellFormed) : Begins c.text := by
  obtain ⟨x, v, htext, hx⟩ := c.opens hc
  refine ⟨x, v, htext, ?_⟩
  rcases hx with hx | ⟨rfl, -⟩
  · exact isWhiteSpace_of_opensOperand hx
  · decide

theorem Begins.skipBlanks_append (h : Begins t) : skipBlanks (t ++ r) = t ++ r := by
  obtain ⟨x, v, rfl, hx⟩ := h
  exact skipBlanks_cons (isBlank_of_isWhiteSpace hx)

theorem ends_close (hx : isWhiteSpace x = false) : Ends (u ++ [x]) :=
  ⟨u, x, rfl, hx⟩

theorem WrittenTest.ends (w : WrittenTest) : Ends w.text := by
  cases w with
  | name q => exact q.2.ends
  | anyIn p => exact ⟨p.1.toList ++ [':'], '*', by simp [text], by decide⟩
  | any => exact ends_singleton (by decide)
  | kind k gap inside => exact (ends_close (by decide)).cons.append.append

theorem Head.ends (h : Head) : Ends h.text := by
  cases h with
  | full a w => exact w.ends.cons.cons.append
  | child w => exact w.ends
  | ofAttribute w => exact w.ends.cons
  | self => exact ends_singleton (by decide)
  | parent => exact ⟨['.'], '.', rfl, by decide⟩

theorem Primary.ends (p : Primary) : Ends p.text := by
  cases p with
  | number m => exact m.ends
  | literal q =>
    have hquote : isWhiteSpace q.quote = false := by rcases q.isQuote with h | h <;> rw [h] <;> decide
    exact (ends_close hquote).cons
  | callEmpty f gap inside => exact (ends_close (by decide)).cons.append.append
  | call f gap before first after more =>
    exact (ends_close (by decide)).append.append.append.cons.append.append
  | group before content after => exact (ends_close (by decide)).append.append.cons

theorem Predicates.ends : ∀ ps : Predicates, ps.text = [] ∨ Ends ps.text
  | .nil => Or.inl rfl
  | .cons _ _ _ _ more => by
    have hbracket : Ends (']' :: more.text) := (ends_singleton (by decide)).append_or more.ends
    exact Or.inr hbracket.append.append.append.cons.append

theorem MoreSteps.ends : ∀ ss : MoreSteps, ss.text = [] ∨ Ends ss.text
  | .nil => Or.inl rfl
  | .cons _ _ head predicates more => by
    have hstep : Ends (head.text ++ (predicates.text ++ more.text)) := by
      rw [← List.append_assoc]
      exact (head.ends.append_or predicates.ends).append_or more.ends
    exact Or.inr hstep.append.append

theorem Phrase.ends : ∀ c : Phrase, Ends c.text
  | .primary p predicates steps => by
    rw [text, ← List.append_assoc]
    exact (p.ends.append_or predicates.ends).append_or steps.ends
  | .root => ends_singleton (by decide)
  | .rooted _ head predicates more => by
    rw [text, ← List.append_assoc head.text]
    exact ((head.ends.append_or predicates.ends).append_or more.ends).append
  | .relative head predicates more => by
    rw [text, ← List.append_assoc]
    exact (head.ends.append_or predicates.ends).append_or more.ends
  | .negate _ operand => operand.ends.append.cons
  | .binary _ _ _ _ right => right.ends.append.append.append.append

/-! ### Small facts -/

theorem Predicates.text_isEmpty (ps : Predicates) : ps.text.isEmpty = ps.isNil := by
  cases ps with
  | nil => rfl
  | cons gap before condition after more => simp [text, isNil]

theorem MoreSteps.text_isEmpty (ss : MoreSteps) : ss.text.isEmpty = ss.isNil := by
  cases ss with
  | nil => rfl
  | cons gap double head predicates more => cases double <;> simp [text, isNil, slashText]

theorem Phrase.level_le (c : Phrase) : c.level ≤ atomLevel := by
  cases c with
  | negate gap operand => exact Nat.le_of_lt minusLevel_lt_atomLevel
  | binary op left before after right => exact Nat.le_succ_of_le op.level_le
  | _ => exact Nat.le_refl _

/-- The numeral that a phrase ends with, outside of any brackets. -/
def Phrase.lastNumeral? : Phrase → Option Numeral
  | .primary (.number m) .nil .nil => some m
  | .negate _ operand => operand.lastNumeral?
  | .binary _ _ _ _ right => right.lastNumeral?
  | _ => none

end XmlMapping.XPath
