import XmlMapping.Proofs.XPath.Progress

/-!
# Watched readers

A watched reader is put together as the readers are, but it may be stopped: when something that is repeated takes
nothing of the text, and when there is no depth left to call another reader. A watched reader runs as a reader if it
comes to the same on all texts of some length without being stopped, and that goes through all that readers are put
together from. To run on a text, what comes after a reader that takes something need only run on shorter ones.
-/

namespace XmlMapping.XPath

open Text

/-! ### Watched readers -/

/-- Why a watched reader is stopped: something that is repeated takes nothing of the text, or calls nest too deep. -/
inductive Interruption
  | idle
  | tooDeep
deriving DecidableEq

/-- A reader that is watched. It reads something, reads nothing or is stopped. -/
def Watched (α : Type) :=
  List Char → Except Interruption (Option (α × List Char))

namespace Watched

variable {α β : Type}

instance : Monad Watched where
  pure a := fun s => .ok (some (a, s))
  bind p next := fun s =>
    match p s with
    | .ok (some (a, rest)) => next a rest
    | .ok none => .ok none
    | .error why => .error why

variable {p : Watched α} {next : α → Watched β} {a : α} {s rest : List Char}

theorem bind_some (h : p s = .ok (some (a, rest))) : (p >>= next) s = next a rest := by
  show (match p s with
    | .ok (some (a, rest)) => next a rest
    | .ok none => .ok none
    | .error why => .error why) = _
  rw [h]

theorem bind_none (h : p s = .ok none) : (p >>= next) s = .ok none := by
  show (match p s with
    | .ok (some (a, rest)) => next a rest
    | .ok none => .ok none
    | .error why => .error why) = _
  rw [h]

/-- Reads nothing. -/
def fail : Watched α := fun _ =>
  .ok none

/-- A reader that calls none of those that are watched. -/
def plain (read : Reader α) : Watched α := fun s =>
  .ok (read s)

/-- Reads something if that is possible. -/
def attempt (p : Watched α) : Watched (Option α) := fun s =>
  match p s with
  | .ok (some (a, rest)) => .ok (some (some a, rest))
  | .ok none => .ok (some (none, s))
  | .error why => .error why

theorem attempt_some (h : p s = .ok (some (a, rest))) : p.attempt s = .ok (some (some a, rest)) := by
  rw [attempt, h]

theorem attempt_none (h : p s = .ok none) : p.attempt s = .ok (some (none, s)) := by
  rw [attempt, h]

/-- Reads with the second reader if the first one reads nothing. -/
def orElse (p q : Watched α) : Watched α := fun s =>
  match p s with
  | .ok none => q s
  | read => read

theorem orElse_some {q : Watched α} (h : p s = .ok (some (a, rest))) : p.orElse q s = .ok (some (a, rest)) := by
  rw [orElse, h]

theorem orElse_none {q : Watched α} (h : p s = .ok none) : p.orElse q s = q s := by
  rw [orElse, h]

/-- Reads with blanks allowed before and after. -/
def padded (p : Watched α) : Watched α := fun s =>
  (p (skipBlanks s)).map (Option.map fun (a, rest) => (a, skipBlanks rest))

/-- Reads as often as something is read, and is stopped if nothing is taken then. -/
def manyFrom (p : Watched α) (s : List Char) : Except Interruption (Option (List α × List Char)) :=
  match p s with
  | .ok (some (a, rest)) =>
    if rest.length < s.length then
      (manyFrom p rest).map (Option.map fun (as, rest') => (a :: as, rest'))
    else .error .idle
  | .ok none => .ok (some ([], s))
  | .error why => .error why
termination_by s.length

@[inherit_doc manyFrom]
def many (p : Watched α) : Watched (List α) :=
  p.manyFrom

/-- Reads something between an opening and a closing mark. -/
def delimited (opening closing : Reader Unit) (p : Watched α) : Watched α := do
  plain opening
  let a ← p
  plain closing
  return a

/-- Reads something after a mark. -/
def preceded (opening : Reader Unit) (p : Watched α) : Watched α := do
  plain opening
  p

/-- Reads any number of things with separators between them. -/
def separated (separator : Reader Unit) (p : Watched α) : Watched (List α) := do
  match ← p.attempt with
  | some first =>
    let more ← many (p.preceded separator)
    return first :: more
  | none => return []

/-- Reads a node test for an axis. -/
def testOn (test : Watched NodeTest) (direction : Axis) : Watched (Axis × NodeTest) := do
  let test ← test
  return (direction, test)

/-- Reads the axis and the node test of a step, which may be abbreviated. -/
def stepHead (axis : Watched Axis) (test : Watched NodeTest) : Watched (Axis × NodeTest) :=
  (plain fun s => (after? ['.', '.'] s).map ((.parent, .kind .node), ·)).orElse <|
    (plain fun s => (after? ['.'] s).map ((.self, .kind .node), ·)).orElse <|
      ((test.testOn .attribute).preceded (symbol '@')).orElse <|
        axis.orElse (pure .child) >>= test.testOn

/-- Reads operands with operators between them; such operators associate to the left. -/
def joined (ops : List Operator) (operand : Watched Expr) : Watched Expr := do
  let first ← operand
  let more ← many do
    let op ← plain (XPath.padded fun s => ops.findSome? (operator · s))
    let right ← operand
    return (op, right)
  return more.foldl (fun left next => .binary next.1 left next.2) first

end Watched

/-! ### Running without being stopped -/

variable {α β : Type} {n m : Nat} {s rest : List Char}

/-- Whether a watched reader comes to what a reader gives on all texts with fewer characters. -/
def Watched.Runs (p : Watched α) (f : Reader α) (n : Nat) : Prop :=
  ∀ s, s.length < n → p s = .ok (f s)

namespace Watched.Runs
variable {k : Nat} {p p' : Watched α} {q : α → Watched β} {f g : Reader α}
  {F : α × List Char → Option (β × List Char)}

theorem plain : (Watched.plain f).Runs f n :=
  fun _ _ => rfl

theorem pure {a : α} : (Pure.pure a : Watched α).Runs (fun s => some (a, s)) n :=
  fun _ _ => rfl

theorem fail : (Watched.fail : Watched α).Runs (fun _ => none) n :=
  fun _ _ => rfl

theorem mono (h : p.Runs f n) (hm : m ≤ n) : p.Runs f m := fun s hs =>
  h s (Nat.lt_of_lt_of_le hs hm)

theorem congr (hf : ∀ s, f s = g s) (h : p.Runs g n) : p.Runs f n :=
  funext hf ▸ h

theorem eq_none (hp : p.Runs f n) (hs : s.length < n) (h : f s = none) : p s = .ok none :=
  h ▸ hp s hs

theorem eq_some {a : α} (hp : p.Runs f n) (hs : s.length < n) (h : f s = some (a, rest)) :
    p s = .ok (some (a, rest)) :=
  h ▸ hp s hs

/-- What comes after a reader that takes so many characters runs on texts with fewer ones. -/
theorem bind (k : Nat) (hp : p.Runs f (n + k)) (hf : Takes k f) (hq : ∀ a, (q a).Runs (fun s => F (a, s)) n) :
    (p >>= q).Runs (fun s => f s >>= F) (n + k) := by
  intro s hs
  dsimp only
  cases h : f s with
  | none => exact bind_none (hp.eq_none hs h)
  | some read =>
    obtain ⟨a, rest⟩ := read
    obtain ⟨-, hlen⟩ := hf s a rest h
    rw [bind_some (hp.eq_some hs h)]
    exact hq a rest (by omega)

/-- What is read depends on whether another reader reads something first. -/
theorem attempt (k : Nat) {q : Option α → Watched β} {g : Reader β} (hp : p.Runs f (n + k)) (hf : Takes k f)
    (hq : ∀ a, (q (some a)).Runs (fun s => F (a, s)) n) (hnone : (q none).Runs g (n + k)) :
    (p.attempt >>= q).Runs (fun s => (f s).elim (g s) F) (n + k) := by
  intro s hs
  dsimp only
  cases h : f s with
  | none =>
    rw [bind_some (attempt_none (hp.eq_none hs h))]
    exact hnone s hs
  | some read =>
    obtain ⟨a, rest⟩ := read
    obtain ⟨-, hlen⟩ := hf s a rest h
    rw [bind_some (attempt_some (hp.eq_some hs h))]
    exact hq a rest (by omega)

theorem orElse (hp : p.Runs f n) (hp' : p'.Runs g n) : (p.orElse p').Runs (fun s => f s <|> g s) n := by
  intro s hs
  dsimp only
  cases h : f s with
  | none =>
    rw [orElse_none (hp.eq_none hs h)]
    exact hp' s hs
  | some read => exact orElse_some (hp.eq_some hs h)

theorem ite {c : Prop} [Decidable c] (hp : c → p.Runs f n) (hp' : ¬c → p'.Runs g n) :
    (if c then p else p').Runs (fun s => if c then f s else g s) n := by
  by_cases hc : c
  · simpa only [if_pos hc] using hp hc
  · simpa only [if_neg hc] using hp' hc

theorem padded (hp : p.Runs f n) : p.padded.Runs (XPath.padded f) n := by
  intro s hs
  rw [Watched.padded, hp _ (Nat.lt_of_le_of_lt length_skipBlanks_le hs)]
  rfl

/-- What takes something each time is repeated without being stopped. -/
theorem many (hp : p.Runs f n) (hf : Takes 1 f) : p.many.Runs (fun s => some (XPath.many f s)) n := by
  intro s hs
  rw [Watched.many]
  dsimp only
  fun_induction XPath.many f s with
  | case1 s hnone => rw [manyFrom, hp.eq_none hs hnone]
  | case2 s a rest hread hlt as rest' hmore ih =>
    rw [manyFrom, hp.eq_some hs hread]
    dsimp only
    rw [if_pos hlt, ih (Nat.lt_trans hlt hs), hmore]
    rfl
  | case3 s a rest hread hlt => exact absurd (hf s a rest hread).2 hlt

/-- What is read between two marks is read from a shorter text. -/
theorem delimited {opening closing : Reader Unit} (ho : Takes 1 opening) (hc : Takes 1 closing) (hp : p.Runs f n)
    (hf : Takes k f) : (p.delimited opening closing).Runs (XPath.delimited opening closing f) (n + 1) := by
  refine bind 1 plain ho fun _ => bind 0 hp hf.suffix fun _ => ?_
  exact bind 0 plain hc.suffix fun _ => pure

theorem preceded {opening : Reader Unit} (ho : Takes 1 opening) (hp : p.Runs f n) :
    (p.preceded opening).Runs (XPath.preceded opening f) n :=
  bind 0 plain ho.suffix fun _ => hp

theorem separated {separator : Reader Unit} (hs : Takes 1 separator) (hp : p.Runs f n) (hf : Takes k f) :
    (p.separated separator).Runs (XPath.separated separator f) n := by
  have hnext := takes_preceded hs hf
  refine attempt 0 hp hf.suffix (fun _ => ?_) pure
  exact bind 0 ((hp.preceded hs).many hnext) hnext.many fun _ => pure

theorem joined {read : List Char → Reading Expr} {operand : Watched Expr} (ops : List Operator)
    (hp : operand.Runs (optional read) n) (hf : Takes 1 (optional read)) :
    (operand.joined ops).Runs (optional (chain ops read)) n := by
  have hnext : Takes 1 (nextOperand ops read) := takes_nextOperand hf ops
  refine congr (optional_chain ops read) (bind 0 hp hf.suffix fun _ => ?_)
  refine bind 0 (many (f := nextOperand ops read) ?_ hnext) hnext.many fun _ => pure
  -- The right operand stands after an operator, but its level runs on texts that are as long, too.
  exact bind 0 plain (takes_operators ops).suffix fun _ => bind 0 hp hf.suffix fun _ => pure

theorem testOn {test : Watched NodeTest} (hp : test.Runs nodeTest n) (a : Axis) :
    (test.testOn a).Runs (XPath.testOn a) n := by
  have hform (s : List Char) : XPath.testOn a s = nodeTest s >>= fun read => some ((a, read.1), read.2) := by
    rw [XPath.testOn]
    cases nodeTest s <;> rfl
  exact congr hform (bind 0 hp takes_nodeTest.suffix fun _ => pure)

theorem stepHead {direction : Watched Axis} {test : Watched NodeTest} (hd : direction.Runs axis n)
    (ht : test.Runs nodeTest n) : (Watched.stepHead direction test).Runs (optional XPath.stepHead) n := by
  refine congr optional_stepHead (orElse plain (orElse plain (orElse ?_ ?_)))
  · exact (ht.testOn .attribute).preceded (takes_symbol '@')
  · exact bind 0 (orElse hd pure) (takes_axis.suffix.orElse Takes.pure) ht.testOn

end Watched.Runs

end XmlMapping.XPath
