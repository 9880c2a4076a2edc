import XmlMapping.Proofs.XPath.Spelling

/-!
# Sequences of operands

Operands with binary operators between them, as they are written without parentheses around the operators.
An operand is an atom with any number of minus signs before it, but none right after a union. The operators
are applied as their levels say, and those of one level from left to right: for each sequence there is a tree
of this kind that has it as its reading from left to right.
-/

namespace XmlMapping.XPath

open Text

/-! ### Sequences -/

/-- An operand without operators outside of parentheses: a name, a number, a literal in the given quotes, or
    a text in parentheses with the expression that it is. -/
inductive Atom
  | name (label : String)
  | number (m : Numeral)
  | literal (quote : Char) (text : String)
  | group (inside : List Char) (value : Expr)

/-- What sequences consist of. -/
inductive Token
  | minus
  | atom (a : Atom)
  | operator (op : Operator)

/-- Whether tokens are a sequence of operands with operators between them. -/
inductive Sequence : List Token → Prop
  | one (n : Nat) (a : Atom) : Sequence (List.replicate n .minus ++ [.atom a])
  | snoc {ts : List Token} (op : Operator) (n : Nat) (a : Atom) (h : Sequence ts) (hunion : op = .union → n = 0) :
      Sequence (ts ++ .operator op :: (List.replicate n .minus ++ [.atom a]))

/-- The text of an atom. -/
def Atom.text : Atom → List Char
  | .name label => label.toList
  | .number m => m.text
  | .literal quote text => quote :: text.toList ++ [quote]
  | .group inside _ => '(' :: inside ++ [')']

/-- Whether an atom is what it is said to be. What stands in parentheses is an expression of its own, and its
    value is what it is read as with the parentheses. -/
def Atom.WellFormed : Atom → Prop
  | .name label => isName label.toList
  | .number _ => True
  | .literal quote text => (quote = '\'' ∨ quote = '"') ∧ quote ∉ text.toList
  | .group inside value => (∃ e, expression inside = .ok (e, [])) ∧
      Expr.parse (.ofList ('(' :: inside ++ [')'])) = .ok value

/-- Whether tokens are written as a text: an operator with one blank on each side, and any blanks after a
    minus sign. -/
def SpellsTokens : List Token → List Char → Prop
  | [], t => t = []
  | .minus :: ts, t => ∃ b u, Blanks b ∧ SpellsTokens ts u ∧ t = '-' :: b ++ u
  | .atom a :: ts, t => ∃ u, SpellsTokens ts u ∧ t = a.text ++ u
  | .operator op :: ts, t => ∃ u, SpellsTokens ts u ∧ t = ' ' :: op.symbol.toList ++ ' ' :: u

/-- The text of tokens without blanks after the minus signs. -/
def spelling : List Token → List Char
  | [] => []
  | .minus :: ts => '-' :: spelling ts
  | .atom a :: ts => a.text ++ spelling ts
  | .operator op :: ts => ' ' :: op.symbol.toList ++ ' ' :: spelling ts

theorem spellsTokens_spelling (ts : List Token) : SpellsTokens ts (spelling ts) := by
  induction ts with
  | nil => rfl
  | cons x ts ih =>
    cases x with
    | minus => exact ⟨[], spelling ts, blanks_nil, ih, rfl⟩
    | atom a => exact ⟨spelling ts, ih, rfl⟩
    | operator op => exact ⟨spelling ts, ih, rfl⟩

theorem spellsTokens_append {ts us : List Token} {t : List Char} (h : SpellsTokens (ts ++ us) t) :
    ∃ v w, SpellsTokens ts v ∧ SpellsTokens us w ∧ t = v ++ w := by
  induction ts generalizing t with
  | nil => exact ⟨[], t, rfl, h, rfl⟩
  | cons x ts ih =>
    cases x with
    | minus =>
      obtain ⟨b, u, hb, hu, rfl⟩ := h
      obtain ⟨v, w, hv, hw, rfl⟩ := ih hu
      exact ⟨_, w, ⟨b, v, hb, hv, rfl⟩, hw, by simp⟩
    | atom a =>
      obtain ⟨u, hu, rfl⟩ := h
      obtain ⟨v, w, hv, hw, rfl⟩ := ih hu
      exact ⟨_, w, ⟨v, hv, rfl⟩, hw, by simp⟩
    | operator op =>
      obtain ⟨u, hu, rfl⟩ := h
      obtain ⟨v, w, hv, hw, rfl⟩ := ih hu
      exact ⟨_, w, ⟨v, hv, rfl⟩, hw, by simp⟩

/-! ### How tightly operators bind -/

/-- The level of a binary operator: a higher one binds tighter. -/
def Operator.level : Operator → Nat
  | .or => 0
  | .and => 1
  | .comparison .equal => 2
  | .comparison .notEqual => 2
  | .comparison .less => 3
  | .comparison .lessOrEqual => 3
  | .comparison .greater => 3
  | .comparison .greaterOrEqual => 3
  | .arithmetic .plus => 4
  | .arithmetic .minus => 4
  | .arithmetic .times => 5
  | .arithmetic .div => 5
  | .arithmetic .mod => 5
  | .union => 7

/-- The level of the unary minus. -/
def minusLevel : Nat :=
  6

/-- The level of atoms. -/
def atomLevel : Nat :=
  8

theorem minusLevel_lt_atomLevel : minusLevel < atomLevel := by
  decide

theorem Operator.level_le (op : Operator) : op.level ≤ 7 := by
  rcases op with _ | _ | relation | operation | _
  · decide
  · decide
  · cases relation <;> decide
  · cases operation <;> decide
  · decide

theorem Operator.level_lt_minus {op : Operator} (h : op ≠ .union) : op.level < minusLevel := by
  rcases op with _ | _ | relation | operation | _
  · decide
  · decide
  · cases relation <;> decide
  · cases operation <;> decide
  · exact absurd rfl h

theorem Operator.level_ne_minus (op : Operator) : op.level ≠ minusLevel := by
  by_cases h : op = .union
  · rw [h]
    decide
  · exact Nat.ne_of_lt (level_lt_minus h)

/-- How the operators of a sequence are applied. -/
inductive OpTree
  | atom (a : Atom)
  | negate (operand : OpTree)
  | binary (op : Operator) (left right : OpTree)

namespace OpTree

/-- The level of what is applied last. -/
def level : OpTree → Nat
  | .atom _ => atomLevel
  | .negate _ => minusLevel
  | .binary op _ _ => op.level

/-- Whether tighter operators are applied before looser ones, and those of one level from left to right. -/
def Binds : OpTree → Prop
  | .atom _ => True
  | .negate t => minusLevel ≤ t.level ∧ t.Binds
  | .binary op l r => op.level ≤ l.level ∧ op.level < r.level ∧ l.Binds ∧ r.Binds

instance decidableBinds : (t : OpTree) → Decidable t.Binds
  | .atom _ => inferInstanceAs (Decidable True)
  | .negate t =>
    have := decidableBinds t
    inferInstanceAs (Decidable (minusLevel ≤ t.level ∧ t.Binds))
  | .binary op l r =>
    have := decidableBinds l
    have := decidableBinds r
    inferInstanceAs (Decidable (op.level ≤ l.level ∧ op.level < r.level ∧ l.Binds ∧ r.Binds))

/-- The tokens from left to right. -/
def tokens : OpTree → List Token
  | .atom a => [.atom a]
  | .negate t => .minus :: t.tokens
  | .binary op l r => l.tokens ++ .operator op :: r.tokens

variable {t : OpTree} {op : Operator}

theorem level_le (t : OpTree) : t.level ≤ atomLevel := by
  cases t with
  | atom a => exact Nat.le_refl _
  | negate t => exact Nat.le_of_lt minusLevel_lt_atomLevel
  | binary op l r => exact Nat.le_succ_of_le op.level_le

/-- An atom with minus signs before it. -/
def signed (a : Atom) : Nat → OpTree
  | 0 => .atom a
  | n + 1 => .negate (signed a n)

theorem minusLevel_le_signed (a : Atom) (n : Nat) : minusLevel ≤ (signed a n).level := by
  cases n with
  | zero => exact Nat.le_of_lt minusLevel_lt_atomLevel
  | succ n => exact Nat.le_refl _

theorem binds_signed (a : Atom) (n : Nat) : (signed a n).Binds := by
  induction n with
  | zero => trivial
  | succ n ih => exact ⟨minusLevel_le_signed a n, ih⟩

theorem tokens_signed (a : Atom) (n : Nat) : (signed a n).tokens = List.replicate n .minus ++ [.atom a] := by
  induction n with
  | zero => rfl
  | succ n ih => rw [signed, tokens, ih, List.replicate_succ, List.cons_append]

/-- An operator binds the operand after it looser than what the operand consists of. -/
theorem level_lt_signed (a : Atom) {n : Nat} (h : op = .union → n = 0) : op.level < (signed a n).level := by
  by_cases hop : op = .union
  · rw [h hop]
    exact Nat.lt_succ_of_le op.level_le
  · exact Nat.lt_of_lt_of_le (Operator.level_lt_minus hop) (minusLevel_le_signed a n)

/-- One more operator with its right operand is applied below the operators on the right that are looser. -/
theorem exists_extended (ht : t.Binds) (op : Operator) (n : Nat) (a : Atom) (hunion : op = .union → n = 0) :
    ∃ t' : OpTree, t'.Binds ∧ t'.tokens = t.tokens ++ .operator op :: (signed a n).tokens ∧
      t'.level = min t.level op.level := by
  have happly (t : OpTree) (ht : t.Binds) (hle : op.level ≤ t.level) :
      ∃ t' : OpTree, t'.Binds ∧ t'.tokens = t.tokens ++ .operator op :: (signed a n).tokens ∧
        t'.level = min t.level op.level :=
    ⟨.binary op t (signed a n), ⟨hle, level_lt_signed a hunion, ht, binds_signed a n⟩, rfl,
      (Nat.min_eq_right hle).symm⟩
  induction t with
  | atom b => exact happly _ ht (Nat.le_succ_of_le op.level_le)
  | negate t ih =>
    obtain ⟨hle, ht'⟩ := ht
    by_cases hop : op = .union
    · obtain ⟨t', hbinds, htokens, hlevel⟩ := ih ht'
      have hminus : minusLevel ≤ t'.level := by
        rw [hlevel, hop]
        exact Nat.le_min.mpr ⟨hle, by decide⟩
      refine ⟨.negate t', ⟨hminus, hbinds⟩, ?_, ?_⟩
      · rw [tokens, htokens]
        rfl
      · rw [hop]
        rfl
    · exact happly _ ⟨hle, ht'⟩ (Nat.le_of_lt (Operator.level_lt_minus hop))
  | binary op' l r _ ih =>
    obtain ⟨hl, hr, hbl, hbr⟩ := ht
    by_cases hle : op.level ≤ op'.level
    · exact happly _ ⟨hl, hr, hbl, hbr⟩ hle
    · have hlt : op'.level < op.level := Nat.lt_of_not_le hle
      obtain ⟨r', hbinds, htokens, hlevel⟩ := ih hbr
      refine ⟨.binary op' l r', ⟨hl, ?_, hbl, hbinds⟩, ?_, (Nat.min_eq_left (Nat.le_of_lt hlt)).symm⟩
      · rw [hlevel]
        exact Nat.lt_min.mpr ⟨hr, hlt⟩
      · rw [tokens, htokens, tokens, List.append_assoc, List.cons_append]

theorem mem_tokens {l r : OpTree} : .operator op ∈ (binary op l r).tokens :=
  List.mem_append_right _ List.mem_cons_self

/-- No operator of a tree is looser than what is applied last. -/
theorem level_le_of_mem (ht : t.Binds) (h : .operator op ∈ t.tokens) : t.level ≤ op.level := by
  induction t with
  | atom a => simp [tokens] at h
  | negate t ih =>
    obtain ⟨hle, ht⟩ := ht
    rcases List.mem_cons.mp h with h | h
    · cases h
    · exact Nat.le_trans hle (ih ht h)
  | binary op' l r ihl ihr =>
    obtain ⟨hl, hr, hbl, hbr⟩ := ht
    rcases List.mem_append.mp h with h | h
    · exact Nat.le_trans hl (ihl hbl h)
    · rcases List.mem_cons.mp h with h | h
      · cases h
        exact Nat.le_refl _
      · exact Nat.le_trans (Nat.le_of_lt hr) (ihr hbr h)

/-- A tree that begins with a minus sign is not tighter than it. -/
theorem level_le_minus {ts : List Token} (ht : t.Binds) (h : t.tokens = .minus :: ts) : t.level ≤ minusLevel := by
  induction t generalizing ts with
  | atom a => cases h
  | negate t => exact Nat.le_refl _
  | binary op l r ihl =>
    obtain ⟨hl, -, hbl, -⟩ := ht
    rcases List.append_eq_cons_iff.mp h with ⟨-, h⟩ | ⟨us, h, -⟩
    · cases h
    · exact Nat.le_trans hl (ihl hbl h)

/-- In a tree that applies an operator last there is no other one where it could be split alike. -/
theorem binary_tokens {op' : Operator} {l r l' r' : OpTree} (ht : (binary op l r).Binds)
    (ht' : (binary op' l' r').Binds) (h : (binary op l r).tokens = (binary op' l' r').tokens) :
    l.tokens = l'.tokens ∧ op = op' ∧ r.tokens = r'.tokens := by
  -- The one on the right would be tighter than the one on the left and not tighter.
  have hsplit {op op' : Operator} {l r l' r' : OpTree} {ts : List Token} (ht : (binary op l r).Binds)
      (ht' : (binary op' l' r').Binds) (hl : l'.tokens = l.tokens ++ .operator op :: ts)
      (hr : r.tokens = ts ++ .operator op' :: r'.tokens) : False := by
    obtain ⟨-, hlt, -, hbr⟩ := ht
    obtain ⟨hle, -, hbl, -⟩ := ht'
    have hright : r.level ≤ op'.level := level_le_of_mem hbr (by simp [hr])
    have hleft : l'.level ≤ op.level := level_le_of_mem hbl (by simp [hl])
    omega
  rcases List.append_eq_append_iff.mp h with ⟨us, hl, hr⟩ | ⟨us, hl, hr⟩
  · rcases us with _ | ⟨x, us⟩
    · obtain ⟨hop, hr⟩ := List.cons.inj hr
      exact ⟨by simpa using hl.symm, Token.operator.inj hop, hr⟩
    · obtain ⟨rfl, htail⟩ := List.cons.inj hr
      exact (hsplit ht ht' hl htail).elim
  · rcases us with _ | ⟨x, us⟩
    · obtain ⟨hop, hr⟩ := List.cons.inj hr
      exact ⟨by simpa using hl, (Token.operator.inj hop).symm, hr.symm⟩
    · obtain ⟨rfl, htail⟩ := List.cons.inj hr
      exact (hsplit ht' ht hl htail).elim

/-- A minus sign before a tree is no part of a left operand. -/
theorem negate_tokens_ne {l r : OpTree} (ht : t.negate.Binds) (ht' : (binary op l r).Binds) :
    t.negate.tokens ≠ (binary op l r).tokens := by
  intro h
  have hminus := level_le_minus ht' h.symm
  have hop : minusLevel ≤ op.level := level_le_of_mem ht (h ▸ mem_tokens)
  exact op.level_ne_minus (Nat.le_antisymm hminus hop)

/-- There is only one way to apply the operators of a sequence. -/
theorem eq_of_tokens {t' : OpTree} (ht : t.Binds) (ht' : t'.Binds) (h : t.tokens = t'.tokens) : t = t' := by
  induction t generalizing t' with
  | atom a =>
    cases t' with
    | atom b =>
      obtain rfl : a = b := by simpa [tokens] using h
      rfl
    | negate t' => cases h
    | binary op l r =>
      have hmem : .operator op ∈ (atom a).tokens := h ▸ mem_tokens
      simp [tokens] at hmem
  | negate t ih =>
    cases t' with
    | atom b => cases h
    | negate t' => rw [ih ht.2 ht'.2 (List.cons.inj h).2]
    | binary op l r => exact absurd h (negate_tokens_ne ht ht')
  | binary op l r ihl ihr =>
    cases t' with
    | atom b =>
      have hmem : .operator op ∈ (atom b).tokens := h ▸ mem_tokens
      simp [tokens] at hmem
    | negate t' => exact absurd h.symm (negate_tokens_ne ht' ht)
    | binary op' l' r' =>
      obtain ⟨hl, rfl, hr⟩ := binary_tokens ht ht' h
      obtain ⟨-, -, hbl, hbr⟩ := ht
      obtain ⟨-, -, hbl', hbr'⟩ := ht'
      rw [ihl hbl hbl' hl, ihr hbr hbr' hr]

end OpTree

theorem Sequence.exists_tree {ts : List Token} (h : Sequence ts) : ∃ t : OpTree, t.Binds ∧ t.tokens = ts := by
  induction h with
  | one n a => exact ⟨.signed a n, OpTree.binds_signed a n, OpTree.tokens_signed a n⟩
  | snoc op n a _ hunion ih =>
    obtain ⟨t, ht, rfl⟩ := ih
    obtain ⟨t', hbinds, htokens, -⟩ := OpTree.exists_extended ht op n a hunion
    exact ⟨t', hbinds, by rw [htokens, OpTree.tokens_signed]⟩

end XmlMapping.XPath
