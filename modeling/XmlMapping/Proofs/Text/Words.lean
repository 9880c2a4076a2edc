import XmlMapping.Proofs.Text.Scanning

/-!
# Words and white space

The words of a text, for any class of characters that stand between words. A text is collapsed when the characters of
the class at its ends go and each run of them in between becomes one space. What is left are the words with single
spaces between them, so a collapsed text has the words of the text, has no two spaces in a row and stays as it is. Two
classes collapse a text alike exactly if they have the same of its characters.
-/

namespace XmlMapping.Text

variable {p q : Char → Bool} {c : Char} {s t w : List Char} {ws : List (List Char)}

/-- A text without the characters of a class at its end. -/
def stripEnd (p : Char → Bool) (s : List Char) : List Char :=
  (s.reverse.dropWhile p).reverse

/-- A text with one space for each longest run of characters of a class. -/
def squeeze (p : Char → Bool) : List Char → List Char
  | [] => []
  | c :: s =>
    if p c then
      if s.head?.any p then squeeze p s else ' ' :: squeeze p s
    else c :: squeeze p s

/-- A text without the characters of a class at its ends and with one space for each run of them in between. -/
def collapse (p : Char → Bool) (s : List Char) : List Char :=
  squeeze p (stripEnd p (s.dropWhile p))

/-- The words of a text: its longest parts without characters of a class. -/
def wordsOf (p : Char → Bool) (s : List Char) : List (List Char) :=
  (s.splitOnP p).filter (!·.isEmpty)

/-- Words with a space between any two of them. -/
def joined (ws : List (List Char)) : List Char :=
  (ws.intersperse [' ']).flatten

/-! ### Splitting into words -/

/-- The first part of a text that is split is empty when the text does not begin with a character of a word. -/
theorem first_eq_nil_iff (h : s.splitOnP p = w :: ws) : w = [] ↔ s.head?.all p := by
  cases s with
  | nil =>
    rw [List.splitOnP_nil] at h
    cases h
    simp
  | cons c s =>
    obtain ⟨v, vs, hs⟩ := List.exists_cons_of_ne_nil (List.splitOnP_ne_nil p s)
    rw [List.splitOnP_cons_eq_if_modifyHead, hs] at h
    split at h <;> cases h <;> simp [*]

theorem splitOnP_congr (h : ∀ c ∈ s, p c = q c) : s.splitOnP p = s.splitOnP q := by
  induction s with
  | nil => rfl
  | cons c s ih =>
    rw [List.forall_mem_cons] at h
    rw [List.splitOnP_cons_eq_if_modifyHead, List.splitOnP_cons_eq_if_modifyHead, ih h.2, h.1]

theorem not_of_mem_splitOnP (hw : w ∈ s.splitOnP p) : ∀ c ∈ w, p c = false := by
  induction s generalizing w with
  | nil =>
    rw [List.splitOnP_nil, List.mem_singleton] at hw
    simp [hw]
  | cons d s ih =>
    obtain ⟨v, vs, hs⟩ := List.exists_cons_of_ne_nil (List.splitOnP_ne_nil p s)
    rw [hs] at ih
    rw [List.splitOnP_cons_eq_if_modifyHead, hs] at hw
    split at hw
    · rcases List.mem_cons.mp hw with rfl | hw
      · simp
      · exact ih hw
    · next hd =>
      rcases List.mem_cons.mp hw with rfl | hw
      · intro c hc
        rcases List.mem_cons.mp hc with rfl | hc
        · simpa using hd
        · exact ih List.mem_cons_self c hc
      · exact ih (List.mem_cons_of_mem v hw)

/-- A word is not empty and has no character of the class. -/
theorem mem_wordsOf (hw : w ∈ wordsOf p s) : w ≠ [] ∧ ∀ c ∈ w, p c = false := by
  rw [wordsOf, List.mem_filter] at hw
  exact ⟨by simpa using hw.2, not_of_mem_splitOnP hw.1⟩

theorem wordsOf_congr (h : ∀ c ∈ s, p c = q c) : wordsOf p s = wordsOf q s := by
  rw [wordsOf, splitOnP_congr h, wordsOf]

@[simp] theorem wordsOf_nil : wordsOf p [] = [] := by
  simp [wordsOf]

theorem wordsOf_append_cons (s t : List Char) (hc : p c) : wordsOf p (s ++ c :: t) = wordsOf p s ++ wordsOf p t := by
  rw [wordsOf, List.splitOnP_append_cons s t hc, List.filter_append, wordsOf, wordsOf]

theorem wordsOf_word (hw : w ≠ []) (h : ∀ c ∈ w, p c = false) : wordsOf p w = [w] := by
  simp [wordsOf, List.splitOnP_eq_singleton h, hw]

theorem wordsOf_dropWhile (p : Char → Bool) (s : List Char) : wordsOf p (s.dropWhile p) = wordsOf p s := by
  induction s with
  | nil => rfl
  | cons c s ih =>
    rw [List.dropWhile_cons]
    split
    · next hc => rw [ih, ← List.nil_append (c :: s), wordsOf_append_cons [] s hc, wordsOf_nil, List.nil_append]
    · rfl

/-- Collecting words from the end of a text gives its first part and then the other words. -/
theorem foldr_words (h : s.splitOnP p = w :: ws) :
    s.foldr (fun c rest => if p c then ([], if rest.1.isEmpty then rest.2 else rest.1 :: rest.2)
      else (c :: rest.1, rest.2)) ([], []) = (w, ws.filter (!·.isEmpty)) := by
  induction s generalizing w ws with
  | nil =>
    cases h
    rfl
  | cons c s ih =>
    obtain ⟨v, vs, hs⟩ := List.exists_cons_of_ne_nil (List.splitOnP_ne_nil p s)
    rw [List.splitOnP_cons_eq_if_modifyHead, hs] at h
    rw [List.foldr_cons, ih hs]
    split at h <;> cases h
    · cases v <;> simp [*]
    · simp [*]

theorem words_eq (s : List Char) : words s = wordsOf isWhiteSpace s := by
  obtain ⟨w, ws, hs⟩ := List.exists_cons_of_ne_nil (List.splitOnP_ne_nil isWhiteSpace s)
  simp only [words, foldr_words hs, wordsOf, hs]
  cases w <;> simp

/-! ### Joining words -/

theorem joined_cons (w : List Char) (ws : List (List Char)) :
    joined (w :: ws) = w ++ if ws = [] then [] else ' ' :: joined ws := by
  cases ws <;> simp [joined]

theorem joined_cons_cons (c : Char) (w : List Char) (ws : List (List Char)) :
    joined ((c :: w) :: ws) = c :: joined (w :: ws) := by
  rw [joined_cons, joined_cons, List.cons_append]

theorem joined_eq_nil_iff : joined (w :: ws) = [] ↔ w = [] ∧ ws = [] := by
  rw [joined_cons, List.append_eq_nil_iff]
  simp

/-- Words that are joined are split again. -/
theorem wordsOf_joined (hspace : p ' ') (h : ∀ w ∈ ws, w ≠ [] ∧ ∀ c ∈ w, p c = false) :
    wordsOf p (joined ws) = ws := by
  induction ws with
  | nil => rfl
  | cons w ws ih =>
    rw [List.forall_mem_cons] at h
    rw [joined_cons]
    split
    · next hnil => rw [List.append_nil, wordsOf_word h.1.1 h.1.2, hnil]
    · rw [wordsOf_append_cons w _ hspace, wordsOf_word h.1.1 h.1.2, ih h.2, List.singleton_append]

/-! ### Collapsing -/

theorem stripEnd_cons (p : Char → Bool) (c : Char) (s : List Char) :
    stripEnd p (c :: s) = if stripEnd p s = [] ∧ p c then [] else c :: stripEnd p s := by
  simp only [stripEnd, List.reverse_cons, List.dropWhile_append, List.isEmpty_iff, List.reverse_eq_nil_iff]
  by_cases hs : s.reverse.dropWhile p = []
  · cases hc : p c <;> simp [hs, hc]
  · simp [hs]

theorem head?_stripEnd (h : stripEnd p s ≠ []) : (stripEnd p s).head? = s.head? := by
  cases s with
  | nil => rfl
  | cons c s =>
    rw [stripEnd_cons] at h ⊢
    split
    · next hnil => exact absurd (if_pos hnil) h
    · rfl

/-- The first part of a text is kept, which is empty where the text begins with a run, and the words after it follow
    with single spaces. -/
theorem squeeze_stripEnd (h : s.splitOnP p = w :: ws) :
    squeeze p (stripEnd p s) = joined (w :: ws.filter (!·.isEmpty)) := by
  induction s generalizing w ws with
  | nil =>
    cases h
    rfl
  | cons c s ih =>
    obtain ⟨v, vs, hs⟩ := List.exists_cons_of_ne_nil (List.splitOnP_ne_nil p s)
    have hrest := ih hs
    have hfirst := first_eq_nil_iff hs
    rw [List.splitOnP_cons_eq_if_modifyHead, hs] at h
    rw [stripEnd_cons]
    split at h
    · next hc =>
      cases h
      by_cases hnil : stripEnd p s = []
      · -- Only the run is left, and there are no further words.
        rw [hnil] at hrest
        obtain ⟨rfl, hnone⟩ := joined_eq_nil_iff.mp hrest.symm
        simp [hnil, hc, squeeze, joined_cons, hnone]
      · rw [if_neg (by simp [hnil]), squeeze, if_pos hc, head?_stripEnd hnil, hrest]
        cases s with
        | nil => exact absurd rfl hnil
        | cons d s =>
          simp only [List.head?_cons, Option.any_some, Option.all_some] at hfirst ⊢
          by_cases hd : p d
          · simp [hd, hfirst.mpr hd]
          · simp [hd, mt hfirst.mp hd, joined_cons]
    · next hc =>
      cases h
      rw [if_neg (by simp [hc]), squeeze, if_neg hc, hrest, joined_cons_cons]

/-- Collapsing leaves the words with single spaces between them. -/
theorem collapse_eq (p : Char → Bool) (s : List Char) : collapse p s = joined (wordsOf p s) := by
  obtain ⟨w, ws, hs⟩ := List.exists_cons_of_ne_nil (List.splitOnP_ne_nil p (s.dropWhile p))
  rw [collapse, squeeze_stripEnd hs, ← wordsOf_dropWhile, wordsOf, hs]
  cases w with
  | nil =>
    have hnil : s.dropWhile p = [] := by
      have hstops : Stops p (s.dropWhile p) := stops_dropWhile
      have hfirst := (first_eq_nil_iff hs).mp rfl
      cases hrest : s.dropWhile p with
      | nil => rfl
      | cons c t => simp_all
    rw [hnil, List.splitOnP_nil] at hs
    cases hs
    rfl
  | cons c w => rfl

/-! ### What collapsing keeps -/

theorem wordsOf_collapse (hspace : q ' ') (h : ∀ c, q c → p c) : wordsOf q (collapse p s) = wordsOf p s := by
  rw [collapse_eq]
  refine wordsOf_joined hspace ?_
  intro w hw
  obtain ⟨hne, hnone⟩ := mem_wordsOf hw
  refine ⟨hne, fun c hc => ?_⟩
  cases hq : q c with
  | false => rfl
  | true => simpa [h c hq] using hnone c hc

theorem collapse_collapse (hspace : p ' ') : collapse p (collapse p s) = collapse p s := by
  rw [collapse_eq p (collapse p s), wordsOf_collapse hspace fun _ => id, collapse_eq]

theorem length_squeeze_le (p : Char → Bool) (s : List Char) : (squeeze p s).length ≤ s.length := by
  induction s with
  | nil => exact Nat.le_refl 0
  | cons c s ih =>
    rw [squeeze, List.length_cons]
    split
    · split
      · omega
      · exact Nat.succ_le_succ ih
    · exact Nat.succ_le_succ ih

theorem length_collapse_le (p : Char → Bool) (s : List Char) : (collapse p s).length ≤ s.length := by
  have hfront := (List.dropWhile_sublist (l := s) p).length_le
  have hend := (List.dropWhile_sublist (l := (s.dropWhile p).reverse) p).length_le
  have hsqueeze := length_squeeze_le p (stripEnd p (s.dropWhile p))
  rw [stripEnd, List.length_reverse] at hsqueeze
  rw [List.length_reverse] at hend
  rw [collapse, stripEnd]
  omega

/-- A collapsed text is the shortest one with its words. -/
theorem length_le_of_wordsOf (ht : collapse p t = t) (h : wordsOf p t = wordsOf p s) : t.length ≤ s.length := by
  rw [← ht, collapse_eq, h, ← collapse_eq]
  exact length_collapse_le p s

/-- No two spaces come one after the other in a collapsed text, and none comes first or last: the text would have
    the same words without it. -/
theorem not_spaced_of_collapse (hspace : p ' ') (ht : collapse p t = t) :
    ¬[' ', ' '] <:+: t ∧ t.head? ≠ some ' ' ∧ t.getLast? ≠ some ' ' := by
  have hshorter (s u : List Char) (htext : t = s ++ ' ' :: u) (hwords : wordsOf p (s ++ u) = wordsOf p s ++ wordsOf p u) :
      False := by
    have hle : t.length ≤ (s ++ u).length := by
      refine length_le_of_wordsOf ht ?_
      rw [htext, wordsOf_append_cons s u hspace, hwords]
    rw [htext, List.length_append, List.length_append, List.length_cons] at hle
    omega
  refine ⟨?_, ?_, ?_⟩
  · rintro ⟨s, u, hs⟩
    refine hshorter s (' ' :: u) (by simp [← hs]) ?_
    rw [wordsOf_append_cons s u hspace, ← List.nil_append (' ' :: u), wordsOf_append_cons [] u hspace, wordsOf_nil,
      List.nil_append]
  · intro hfirst
    obtain ⟨u, hu⟩ := List.head?_eq_some_iff.mp hfirst
    exact hshorter [] u hu (by simp)
  · intro hlast
    obtain ⟨s, hs⟩ := List.getLast?_eq_some_iff.mp hlast
    exact hshorter s [] hs (by simp)

/-! ### Two classes of white space -/

theorem flatten_splitOnP (p : Char → Bool) (s : List Char) : (s.splitOnP p).flatten = s.filter (!p ·) := by
  induction s with
  | nil => rfl
  | cons c s ih =>
    obtain ⟨v, vs, hs⟩ := List.exists_cons_of_ne_nil (List.splitOnP_ne_nil p s)
    rw [List.splitOnP_cons_eq_if_modifyHead]
    rw [hs] at ih ⊢
    split <;> simp_all

theorem flatten_wordsOf (p : Char → Bool) (s : List Char) : (wordsOf p s).flatten = s.filter (!p ·) := by
  rw [← flatten_splitOnP, wordsOf, List.flatten_filter_not_isEmpty]

/-- A class and a smaller one split a text into the same words exactly if they have the same characters of it. -/
theorem wordsOf_eq_iff (h : ∀ c, q c → p c) : wordsOf p s = wordsOf q s ↔ ∀ c ∈ s, p c → q c := by
  constructor
  · intro heq c hc hp
    have hfilter : s.filter (!p ·) = s.filter (!q ·) := by
      rw [← flatten_wordsOf, ← flatten_wordsOf, heq]
    cases hq : q c with
    | true => rfl
    | false =>
      have hmem : c ∈ s.filter (!q ·) := by simp [hc, hq]
      rw [← hfilter] at hmem
      simp [hp] at hmem
  · intro hall
    refine wordsOf_congr fun c hc => ?_
    exact Bool.eq_iff_iff.mpr ⟨hall c hc, h c⟩

theorem collapse_eq_iff (hspace : q ' ') (h : ∀ c, q c → p c) :
    collapse p s = collapse q s ↔ ∀ c ∈ s, p c → q c := by
  rw [← wordsOf_eq_iff h]
  constructor
  · intro heq
    rw [← wordsOf_collapse hspace h, heq, wordsOf_collapse hspace fun _ => id]
  · intro heq
    rw [collapse_eq, collapse_eq, heq]

end XmlMapping.Text
