import XmlMapping.Proofs.Result
import XmlMapping.Proofs.XPath.Lexing

/-!
# Reading operators

What the levels of operators read around operands that are already known: a level passes on what the
tighter one reads when no operator of its own comes next, and the level of an operator joins the operands
on both sides of it. No level takes the operator of a looser one, for its symbols begin with other
characters.
-/

namespace XmlMapping.XPath

open Text

variable {r s t u : List Char} {e left right : Expr} {op : Operator} {ops : List Operator}
  {table : List (List Operator)} {read : List Char → Reading Expr}

/-! ### Operators -/

/-- The levels of all binary operators, from the loosest to the tightest. -/
def allLevels : List (List Operator) :=
  levels ++ [[.union]]

/-- Whether an operator is spelled with letters. -/
def Operator.IsWord (op : Operator) : Prop :=
  op.symbol.toList.all isNameStart

/-- Whether no operator of a level comes next. -/
def Halts (ops : List Operator) (r : List Char) : Prop :=
  ops.findSome? (operator · (skipBlanks r)) = none

theorem exists_symbol (op : Operator) :
    ∃ c word, op.symbol.toList = c :: word ∧ isBlank c = false ∧ c ∉ '(' :: stepClosers := by
  rcases op with _ | _ | relation | operation | _
  · exact ⟨_, _, rfl, by decide⟩
  · exact ⟨_, _, rfl, by decide⟩
  · cases relation <;> exact ⟨_, _, rfl, by decide⟩
  · cases operation <;> exact ⟨_, _, rfl, by decide⟩
  · exact ⟨_, _, rfl, by decide⟩

theorem skipBlanks_symbol (op : Operator) : skipBlanks (op.symbol.toList ++ u) = op.symbol.toList ++ u := by
  obtain ⟨c, word, hop, hc, -⟩ := exists_symbol op
  rw [hop]
  exact skipBlanks_cons hc

theorem length_symbol_append (op : Operator) : u.length < (op.symbol.toList ++ u).length := by
  obtain ⟨c, word, hop, -, -⟩ := exists_symbol op
  simp only [hop, List.length_append, List.length_cons]
  omega

theorem exists_level (op : Operator) : ∃ ops ∈ allLevels, op ∈ ops := by
  rcases op with _ | _ | relation | operation | _
  · exact ⟨[.or], by decide, by decide⟩
  · exact ⟨[.and], by decide, by decide⟩
  · cases relation <;> decide
  · cases operation <;> decide
  · exact ⟨[.union], by decide, by decide⟩

theorem operator_none (h : ∀ c ∈ s.head?, op.symbol.toList.head? ≠ some c) : operator op s = none := by
  obtain ⟨c, word, hop, -, -⟩ := exists_symbol op
  have hafter : after? op.symbol.toList s = none := by
    rw [hop] at h ⊢
    cases s with
    | nil => rfl
    | cons d s =>
      refine if_neg ?_
      rintro rfl
      exact h c rfl rfl
  rw [operator, hafter]
  rfl

/-- No operator begins with what ends the words of a step. -/
theorem halts_stepClosers (ops : List Operator) (h : Before stepClosers r) : Halts ops r := by
  rw [Halts, List.findSome?_eq_none_iff]
  intro op _
  obtain ⟨c, word, hop, -, hc⟩ := exists_symbol op
  refine operator_none fun d hd => ?_
  rw [hop]
  rintro ⟨⟩
  exact hc (h.mono (by decide) c hd)

theorem halts_closers (ops : List Operator) (h : Before closers r) : Halts ops r :=
  halts_stepClosers ops (h.mono (by decide))

theorem operator_stops (hword : op.IsWord → Stops isNameChar r) :
    operator op (op.symbol.toList ++ r) = some (op, r) := by
  have hmore : ¬(op.symbol.toList.all isNameStart && r.head?.any isNameChar) := by
    rw [Bool.and_eq_true]
    rintro ⟨hall, hnext⟩
    have hstop := hword hall
    cases r with
    | nil => cases hnext
    | cons c r =>
      rw [stops_cons] at hstop
      simp [hstop] at hnext
  rw [operator]
  simp only [after?_append]
  exact if_neg hmore

theorem after?_append_append : ∀ w : List Char, after? (w ++ t) (w ++ s) = after? t s
  | [] => rfl
  | c :: w => by
    rw [List.cons_append, List.cons_append, after?, if_pos rfl]
    exact after?_append_append w

/-- A symbol is read as its operator. Only one that is spelled with letters depends on the character after it. -/
theorem findSome?_operator (hops : ops ∈ allLevels) (hop : op ∈ ops)
    (hword : op.IsWord → Stops isNameChar r) (hequal : Stops (· == '=') r) :
    ops.findSome? (operator · (op.symbol.toList ++ r)) = some (op, r) := by
  -- Those that are tried before it begin with another character or go on with an equals sign.
  have hall : ∀ ops ∈ allLevels, ∀ op ∈ ops, ops = ops.takeWhile (· != op) ++ op :: (ops.dropWhile (· != op)).tail ∧
      ∀ o ∈ ops.takeWhile (· != op), o.symbol.toList.head? ≠ op.symbol.toList.head? ∨
        o.symbol.toList = op.symbol.toList ++ ['='] := by decide
  obtain ⟨hsplit, hbefore⟩ := hall ops hops op hop
  refine List.findSome?_eq_some_iff.mpr ⟨_, op, _, hsplit, operator_stops hword, fun o ho => ?_⟩
  rcases hbefore o ho with hhead | hlonger
  · refine operator_none fun c hc => ?_
    obtain ⟨d, word, hsymbol, -, -⟩ := exists_symbol op
    rw [hsymbol] at hc hhead
    obtain rfl := Option.some.inj hc
    exact hhead
  · have hnone : after? ['='] r = none := by
      cases r with
      | nil => rfl
      | cons c r =>
        have hc : '=' ≠ c := fun h => by simp [← h] at hequal
        exact if_neg hc
    rw [operator, hlonger, after?_append_append, hnone]
    rfl

/-- A tighter level leaves the operators of a looser one alone. -/
theorem pairwise_halts :
    allLevels.Pairwise fun ops tighter => ∀ op ∈ ops, ∀ r, Halts tighter (op.symbol.toList ++ r) := by
  have hheads : allLevels.Pairwise fun ops tighter =>
      ∀ op ∈ ops, ∀ o ∈ tighter, o.symbol.toList.head? ≠ op.symbol.toList.head? := by decide
  refine hheads.imp fun h op hop r => ?_
  rw [Halts, List.findSome?_eq_none_iff, skipBlanks_symbol]
  intro o ho
  obtain ⟨c, word, hsymbol, -, -⟩ := exists_symbol op
  refine operator_none fun d hd => ?_
  rw [hsymbol] at hd
  obtain rfl := Option.some.inj hd
  have := h op hop o ho
  rwa [hsymbol] at this

/-! ### Levels -/

/-- Reads an operator of a level and its right operand. -/
def nextOperand (ops : List Operator) (read : List Char → Reading Expr) : Reader (Operator × Expr) := fun s => do
  let (op, rest) ← padded (fun s => ops.findSome? (operator · s)) s
  let (right, rest) ← (read rest).toOption
  some ((op, right), rest)

/-- What the level of some operators makes of a left operand and the text after it. -/
def continued (ops : List Operator) (read : List Char → Reading Expr) (e : Expr) (r : List Char) : Expr × List Char :=
  ((many (nextOperand ops read) r).1.foldl (fun left next => .binary next.1 left next.2) e,
    (many (nextOperand ops read) r).2)

theorem chain_eq (h : read s = .ok (e, r)) : chain ops read s = .ok (continued ops read e r) := by
  rw [chain, h]
  rfl

theorem continued_halts (hr : Halts ops r) : continued ops read e r = (e, r) := by
  have hnext : padded (fun s => ops.findSome? (operator · s)) r = none := padded_none hr
  rw [continued, many_none (by simp [nextOperand, hnext])]
  rfl

/-- An operator of the level is applied to its left operand before the next one is read. -/
theorem continued_operator (hop : ops.findSome? (operator · (skipBlanks t)) = some (op, u))
    (hright : read (skipBlanks u) = .ok (right, r)) (hlen : r.length < t.length) :
    continued ops read left t = continued ops read (.binary op left right) r := by
  have hnext : padded (fun s => ops.findSome? (operator · s)) t = some (op, skipBlanks u) := padded_some hop
  rw [continued, many_some (a := (op, right)) (r := r) (by simp [nextOperand, hnext, hright, Except.toOption]) hlen]
  rfl

theorem chain_ok (h : read s = .ok (e, r)) (hr : Halts ops r) : chain ops read s = .ok (e, r) := by
  rw [chain_eq h, continued_halts hr]

theorem chain_error (h : read s = .error t) : chain ops read s = .error t := by
  rw [chain, h]
  rfl

theorem chain_binary (hleft : read s = .ok (left, t))
    (hop : ops.findSome? (operator · (skipBlanks t)) = some (op, u))
    (hright : read (skipBlanks u) = .ok (right, r)) (hlen : r.length < t.length) (hr : Halts ops r) :
    chain ops read s = .ok (.binary op left right, r) := by
  rw [chain_eq hleft, continued_operator hop hright hlen, continued_halts hr]

theorem layered_ok (h : read s = .ok (e, r)) (hr : ∀ ops ∈ table, Halts ops r) :
    layered read table s = .ok (e, r) := by
  induction table with
  | nil => exact h
  | cons ops tighter ih =>
    exact chain_ok (ih fun ops' h' => hr ops' (List.mem_cons_of_mem ops h')) (hr ops List.mem_cons_self)

theorem layered_error (h : read s = .error t) : layered read table s = .error t := by
  induction table with
  | nil => exact h
  | cons ops tighter ih => exact chain_error ih

/-- The level of an operator joins the operands that the tighter levels read on both sides of it. -/
theorem layered_binary
    (hpair : table.Pairwise fun ops tighter => ∀ op ∈ ops, ∀ r, Halts tighter (op.symbol.toList ++ r))
    (hops : ops ∈ table) (hop : op ∈ ops)
    (hown : ops.findSome? (operator · (op.symbol.toList ++ u)) = some (op, u))
    (hleft : read s = .ok (left, op.symbol.toList ++ u)) (hright : read (skipBlanks u) = .ok (right, r))
    (hlen : r.length ≤ u.length) (hr : ∀ ops ∈ table, Halts ops r) :
    layered read table s = .ok (.binary op left right, r) := by
  induction table with
  | nil => cases hops
  | cons first tighter ih =>
    obtain ⟨hfirst, hpair⟩ := List.pairwise_cons.mp hpair
    have hr' : ∀ ops ∈ tighter, Halts ops r := fun ops' h' => hr ops' (List.mem_cons_of_mem first h')
    -- At its own level the tighter ones stop before the operator; further out nothing is left to take.
    rcases List.mem_cons.mp hops with rfl | hops
    · have hleft' : layered read tighter s = .ok (left, op.symbol.toList ++ u) :=
        layered_ok hleft fun ops' h' => hfirst ops' h' op hop u
      have hright' : layered read tighter (skipBlanks u) = .ok (right, r) := layered_ok hright hr'
      have hshort : r.length < (op.symbol.toList ++ u).length := Nat.lt_of_le_of_lt hlen (length_symbol_append op)
      refine chain_binary hleft' ?_ hright' hshort (hr ops List.mem_cons_self)
      rw [skipBlanks_symbol]
      exact hown
    · exact chain_ok (ih hpair hops hr') (hr first List.mem_cons_self)

theorem signed_ok (h : read s = .ok (e, r)) (hminus : Avoids '-' s) :
    signed read s = .ok (e, r) := by
  rw [signed, many_none (padded_symbol_none hminus)]
  simp [h, Except.map]

theorem signed_error (h : read s = .error t) (hminus : Avoids '-' s) :
    signed read s = .error t := by
  rw [signed, many_none (padded_symbol_none hminus)]
  simp [h, Except.map]

/-- A minus sign negates what the text after it is read as. -/
theorem signed_minus (hs : skipBlanks s = '-' :: u) (h : signed read (skipBlanks u) = .ok (e, r)) :
    signed read s = .ok (.negate e, r) := by
  have hfirst : padded (symbol '-') s = some ((), skipBlanks u) := padded_symbol hs
  have hlen : (skipBlanks u).length < s.length := by
    have hu := length_skipBlanks_le (s := u)
    have hs := length_le_of_skipBlanks hs
    rw [List.length_cons] at hs
    omega
  obtain ⟨⟨e', r'⟩, hread, heq⟩ := except_map_eq_ok.mp h
  cases heq
  rw [signed, many_some hfirst hlen]
  simp [hread, Except.map]

theorem signed_negate (hs : skipBlanks s = '-' :: u) (h : read (skipBlanks u) = .ok (e, r))
    (hminus : Avoids '-' u) : signed read s = .ok (.negate e, r) :=
  signed_minus hs (signed_ok h (avoids_skipBlanks.mpr hminus))

end XmlMapping.XPath
