import XmlMapping.Text.Blank
import XmlMapping.Text.Name
import XmlMapping.Text.Search

/-!
# Scanning

Reading from the front of a text that is put together from parts: a longest run ends where its part ends
when the next part does not go on with it. Which characters are digits, blanks and parts of names is
settled here once, so that no later proof opens a class of characters.
-/

namespace XmlMapping.Text

/-! ### Runs -/

/-- Whether a text does not begin with a character of a class. -/
def Stops (p : Char → Bool) (s : List Char) : Prop :=
  ∀ c ∈ s.head?, p c = false

variable {p q : Char → Bool} {c : Char} {s t : List Char}

@[simp] theorem stops_nil : Stops p [] := by
  simp [Stops]

@[simp] theorem stops_cons : Stops p (c :: s) ↔ p c = false := by
  simp [Stops]

theorem Stops.mono (hs : Stops p s) (h : ∀ c, q c → p c) : Stops q s := fun c hc => by
  cases hq : q c with
  | false => rfl
  | true => exact absurd (h c hq) (by simp [hs c hc])

theorem Stops.append_of_ne_nil (hs : Stops p s) (h : s ≠ []) : Stops p (s ++ t) := by
  cases s with
  | nil => exact absurd rfl h
  | cons c s => exact hs

theorem Stops.takeWhile (hs : Stops p s) : s.takeWhile p = [] := by
  cases s with
  | nil => rfl
  | cons c s => rw [List.takeWhile_cons_of_neg (by simpa using hs)]

theorem Stops.dropWhile (hs : Stops p s) : s.dropWhile p = s := by
  cases s with
  | nil => rfl
  | cons c s => rw [List.dropWhile_cons_of_neg (by simpa using hs)]

theorem takeWhile_append_stops (ht : ∀ c ∈ t, p c) (hs : Stops p s) : (t ++ s).takeWhile p = t := by
  rw [List.takeWhile_append_of_pos ht, hs.takeWhile, List.append_nil]

theorem dropWhile_append_stops (ht : ∀ c ∈ t, p c) (hs : Stops p s) : (t ++ s).dropWhile p = s := by
  rw [List.dropWhile_append_of_pos ht, hs.dropWhile]

theorem stops_dropWhile : Stops p (s.dropWhile p) := by
  induction s with
  | nil => exact stops_nil
  | cons c s ih =>
    rw [List.dropWhile_cons]
    split
    · exact ih
    · next h => simpa using h

/-! ### Classes of characters -/

theorem forall_code (codes : List Nat) {motive : Char → Prop} (h : ∀ n ∈ codes, motive (Char.ofNat n))
    (hc : c.toNat ∈ codes) : motive c := by
  rw [← Char.ofNat_toNat c]
  exact h _ hc

theorem isNameChar_of_isNameStart (h : isNameStart c) : isNameChar c := by
  simp only [isNameStart, isNameChar, isAlphanumeric, Bool.or_eq_true] at *
  rcases h with h | h
  · exact Or.inl (Or.inl (Or.inl (Or.inl h)))
  · exact Or.inl (Or.inl (Or.inr h))

theorem mem_range_of_isDigit (h : c.isDigit) : c.toNat ∈ List.range' 48 10 := by
  simp only [Char.isDigit, ge_iff_le, Bool.and_eq_true, decide_eq_true_eq, UInt32.le_iff_toNat_le] at h
  simp only [List.mem_range'_1]
  exact ⟨h.1, Nat.lt_succ_of_le h.2⟩

theorem isNameStart_of_isDigit (h : c.isDigit) : isNameStart c = false :=
  forall_code (List.range' 48 10) (motive := fun c => isNameStart c = false) (by decide) (mem_range_of_isDigit h)

theorem isNameChar_of_isWhiteSpace (h : isWhiteSpace c) : isNameChar c = false := by
  refine forall_code
    (List.range' 9 5 ++ [0x20, 0x85, 0xA0, 0x1680] ++ List.range' 0x2000 11 ++
      [0x2028, 0x2029, 0x202F, 0x205F, 0x3000])
    (motive := fun c => isNameChar c = false) (by decide +kernel) ?_
  simp only [isWhiteSpace, Bool.or_eq_true, Bool.and_eq_true, decide_eq_true_eq, beq_iff_eq] at h
  simp only [List.mem_append, List.mem_range'_1, List.mem_cons, List.not_mem_nil, or_false]
  omega

theorem isWhiteSpace_of_isNameChar (h : isNameChar c) : isWhiteSpace c = false := by
  cases hc : isWhiteSpace c with
  | false => rfl
  | true => rw [isNameChar_of_isWhiteSpace hc] at h; cases h

theorem isNameChar_of_isDigit (h : c.isDigit) : isNameChar c :=
  forall_code (List.range' 48 10) (motive := fun c => isNameChar c) (by decide) (mem_range_of_isDigit h)

theorem isBlank_cases (h : isBlank c) : c = ' ' ∨ c = '\t' ∨ c = '\n' ∨ c = '\r' := by
  simpa [isBlank, or_assoc] using h

theorem isWhiteSpace_of_isBlank (h : isBlank c) : isWhiteSpace c := by
  rcases isBlank_cases h with rfl | rfl | rfl | rfl <;> decide

theorem isBlank_of_isWhiteSpace (h : isWhiteSpace c = false) : isBlank c = false := by
  cases hc : isBlank c with
  | false => rfl
  | true => rw [isWhiteSpace_of_isBlank hc] at h; cases h

/-! ### Blanks -/

/-- The characters that are blank. -/
def blankChars : List Char :=
  [' ', '\t', '\n', '\r']

theorem mem_blankChars (h : isBlank c) : c ∈ blankChars := by
  rcases isBlank_cases h with rfl | rfl | rfl | rfl <;> decide

/-- Whether a text consists of blanks. -/
def Blanks (s : List Char) : Prop :=
  ∀ c ∈ s, isBlank c

variable {b b' r u w word : List Char}

@[simp] theorem blanks_nil : Blanks [] := by
  simp [Blanks]

theorem skipBlanks_append (hb : Blanks b) : skipBlanks (b ++ s) = skipBlanks s :=
  List.dropWhile_append_of_pos hb

theorem skipBlanks_of_stops (hs : Stops isBlank s) : skipBlanks s = s :=
  hs.dropWhile

theorem skipBlanks_cons (hc : isBlank c = false) : skipBlanks (c :: s) = c :: s :=
  skipBlanks_of_stops (stops_cons.mpr hc)

theorem skipBlanks_blank : skipBlanks (' ' :: s) = skipBlanks s := rfl

theorem length_skipBlanks_le : (skipBlanks s).length ≤ s.length :=
  (List.dropWhile_sublist isBlank).length_le

theorem length_le_of_skipBlanks (h : skipBlanks s = t) : t.length ≤ s.length :=
  h ▸ length_skipBlanks_le

theorem length_skipBlanks_append_le (h : skipBlanks s = t ++ u) : (skipBlanks u).length ≤ s.length := by
  have hs := length_le_of_skipBlanks h
  have hu := length_skipBlanks_le (s := u)
  rw [List.length_append] at hs
  omega

@[simp] theorem skipBlanks_skipBlanks : skipBlanks (skipBlanks s) = skipBlanks s :=
  skipBlanks_of_stops stops_dropWhile

/-- White space around a text goes, white space inside it stays. -/
theorem trim_append (hb : Blanks b) (hb' : Blanks b') (ht : t ≠ []) (hs : Stops isWhiteSpace t)
    (hs' : Stops isWhiteSpace t.reverse) : trim (b ++ t ++ b') = t := by
  have white : ∀ {u : List Char}, Blanks u → ∀ c ∈ u, isWhiteSpace c := fun hu c hc =>
    isWhiteSpace_of_isBlank (hu c hc)
  have hfront : (b ++ t ++ b').dropWhile isWhiteSpace = t ++ b' := by
    rw [List.append_assoc, dropWhile_append_stops (white hb) (hs.append_of_ne_nil ht)]
  have hback : (b'.reverse ++ t.reverse).dropWhile isWhiteSpace = t.reverse :=
    dropWhile_append_stops (fun c hc => white hb' c (List.mem_reverse.mp hc)) hs'
  rw [trim, hfront, List.reverse_append, hback, List.reverse_reverse]

/-! ### Words -/

@[simp] theorem after?_append : ∀ word : List Char, after? word (word ++ s) = some s
  | [] => rfl
  | c :: word => by
    rw [List.cons_append, after?, if_pos rfl]
    exact after?_append word

theorem eq_of_after? : ∀ {word s : List Char}, after? word s = some r → s = word ++ r
  | [], _, h => Option.some.inj h
  | _ :: _, [], h => by cases h
  | c :: word, d :: s, h => by
    rw [after?] at h
    split at h
    · next hcd => rw [hcd, eq_of_after? h, List.cons_append]
    · cases h

/-- A word of name characters that a text begins with lies within the first run of such characters. -/
theorem after?_run (hword : ∀ c ∈ word, isNameChar c) (hs : Stops isNameChar s)
    (h : after? word (w ++ s) = some r) : ∃ v, w = word ++ v ∧ r = v ++ s := by
  rcases List.append_eq_append_iff.mp (eq_of_after? h) with ⟨v, hv, hs'⟩ | h
  · cases v with
    | nil => exact ⟨[], by simpa using hv.symm, by simpa using hs'.symm⟩
    | cons c v =>
      subst hs'
      have hc : isNameChar c = false := by simpa using hs
      rw [hword c (by simp [hv])] at hc
      cases hc
  · exact h

theorem splitAt?_append (hc : c ∉ t) : splitAt? [c] (t ++ c :: s) = some (t, s) := by
  induction t with
  | nil => simp [splitAt?, after?]
  | cons d t ih =>
    rw [List.mem_cons, not_or] at hc
    simp [splitAt?, after?, hc.1, ih hc.2]

theorem splitAt?_eq_none (hc : c ∉ s) : splitAt? [c] s = none := by
  induction s with
  | nil => rfl
  | cons d s ih =>
    rw [List.mem_cons, not_or] at hc
    simp [splitAt?, after?, hc.1, ih hc.2]

/-! ### Names -/

theorem isName_eq_cons (h : isName w) : ∃ c v, w = c :: v ∧ isNameStart c ∧ ∀ d ∈ w, isNameChar d := by
  cases w with
  | nil => cases h
  | cons c v =>
    simp only [isName, Bool.and_eq_true, List.all_eq_true] at h
    refine ⟨c, v, rfl, h.1, ?_⟩
    intro d hd
    rcases List.mem_cons.mp hd with rfl | hd
    · exact isNameChar_of_isNameStart h.1
    · exact h.2 d hd

theorem name?_append (h : isName w) (hs : Stops isNameChar s) : name? (w ++ s) = some (w, s) := by
  obtain ⟨c, v, rfl, hc, hv⟩ := isName_eq_cons h
  have hv' : ∀ d ∈ v, isNameChar d := fun d hd => hv d (List.mem_cons_of_mem c hd)
  rw [List.cons_append, name?, if_pos hc, takeWhile_append_stops hv' hs, dropWhile_append_stops hv' hs]

theorem name?_of_stops (hs : Stops isNameStart s) : name? s = none := by
  cases s with
  | nil => rfl
  | cons c s =>
    rw [name?, if_neg]
    simpa using hs

end XmlMapping.Text
