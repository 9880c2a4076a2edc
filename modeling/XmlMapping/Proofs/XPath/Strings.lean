import XmlMapping.Proofs.Number.Integers
import XmlMapping.Proofs.Text.Occurrences
import XmlMapping.Proofs.Text.Words
import XmlMapping.XPath.Function

/-!
# Functions on strings

What the functions give that normalise white space in a text, look for a word in a text or take a part of it. Each is
described for all values that it can be called with, by what their texts and numbers are.
-/

namespace XmlMapping.XPath

open Text

/-! ### White space -/

theorem spaceNormalized_eq (s : String) : Function.spaceNormalized s = .ofList (collapse isWhiteSpace s.toList) := by
  rw [Function.spaceNormalized, words_eq, collapse_eq, joined]

/-- The text of the argument, or else of the context node, is collapsed by the property White_Space. This is what
    collapsing by the four blanks gives exactly if all its white space is blank; then the words are the same, too. -/
theorem normalizeSpace_collapses (d : Document) (c : Context) (arg : Option Value) :
    let s := ((arg.map (·.toText d)).getD (d.stringValue c.node)).toList
    ∃ t : String, Function.call d c "normalize-space" arg.toList = .ok (.string t) ∧
      t.toList = collapse isWhiteSpace s ∧
      (t.toList = collapse isBlank s ↔ ∀ x ∈ s, isWhiteSpace x → isBlank x) ∧
      wordsOf isBlank t.toList = wordsOf isWhiteSpace s ∧
      (wordsOf isBlank t.toList = wordsOf isBlank s ↔ ∀ x ∈ s, isWhiteSpace x → isBlank x) ∧
      (¬[' ', ' '] <:+: t.toList ∧ t.toList.head? ≠ some ' ' ∧ t.toList.getLast? ≠ some ' ') ∧
      Function.call d c "normalize-space" [.string t] = .ok (.string t) := by
  intro s
  have hblank (x : Char) (hx : isBlank x) : isWhiteSpace x := isWhiteSpace_of_isBlank hx
  have hcall (arg : Option Value) : Function.call d c "normalize-space" arg.toList =
      .ok (.string (Function.spaceNormalized ((arg.map (·.toText d)).getD (d.stringValue c.node)))) := by
    cases arg <;> rfl
  have hidem : collapse isWhiteSpace (collapse isWhiteSpace s) = collapse isWhiteSpace s := collapse_collapse rfl
  have hwords : wordsOf isBlank (collapse isWhiteSpace s) = wordsOf isWhiteSpace s := wordsOf_collapse rfl hblank
  refine ⟨.ofList (collapse isWhiteSpace s), ?_, ?_⟩
  · rw [hcall, spaceNormalized_eq]
  · rw [String.toList_ofList, hwords]
    refine ⟨rfl, collapse_eq_iff rfl hblank, rfl, wordsOf_eq_iff hblank, not_spaced_of_collapse rfl hidem, ?_⟩
    have hagain := hcall (some (.string (.ofList (collapse isWhiteSpace s))))
    rw [spaceNormalized_eq] at hagain
    simpa [Value.toText, hidem] using hagain

/-- A no-break space is white space, and no blank. -/
example : Function.spaceNormalized "a\u00a0b" = "a b" := by decide

/-! ### Looking for a word -/

section Search
variable {s word : String} {before after : List Char}

theorem textBefore_eq (h : splitAt? word.toList s.toList = some (before, after)) :
    Function.textBefore s word = .ofList before := by
  rw [Function.textBefore, h]

theorem textAfter_eq (h : splitAt? word.toList s.toList = some (before, after)) :
    Function.textAfter s word = .ofList after := by
  rw [Function.textAfter, h]

theorem textBefore_eq_empty (h : splitAt? word.toList s.toList = none) : Function.textBefore s word = "" := by
  rw [Function.textBefore, h]

theorem textAfter_eq_empty (h : splitAt? word.toList s.toList = none) : Function.textAfter s word = "" := by
  rw [Function.textAfter, h]

theorem not_infix_of_splitAt? (h : splitAt? word.toList s.toList = none) : ¬word.toList <:+: s.toList := by
  rw [← isSome_splitAt?_iff, h]
  exact Bool.false_ne_true

/-- A text begins with a word exactly if nothing stands before the first occurrence. -/
theorem prefix_iff_of_splitAt? (h : splitAt? word.toList s.toList = some (before, after)) :
    word.toList <+: s.toList ↔ before = [] := by
  obtain ⟨hs, hfirst⟩ := of_splitAt? h
  constructor
  · rintro ⟨rest, hrest⟩
    exact List.prefix_nil.mp (hfirst [] rest hrest.symm)
  · rintro rfl
    exact ⟨after, hs.symm⟩

end Search

/-- The four functions agree on one occurrence of the second text in the first one. It is found if there is any, in
    the characters or in the bytes, and is then the first; otherwise the parts before and after it are empty. -/
theorem search_splits (d : Document) (c : Context) (v w : Value) :
    let s := v.toText d
    let t := w.toText d
    ∃ (found begins : Bool) (before after : String),
      Function.call d c "contains" [v, w] = .ok (.boolean found) ∧
      Function.call d c "starts-with" [v, w] = .ok (.boolean begins) ∧
      Function.call d c "substring-before" [v, w] = .ok (.string before) ∧
      Function.call d c "substring-after" [v, w] = .ok (.string after) ∧
      (found ↔ s = before ++ t ++ after) ∧ (found ↔ t.toList <:+: s.toList) ∧
      (found → FirstSplit t s before after) ∧
      (¬found → before = "" ∧ after = "" ∧ ∀ i, ¬OccursAt t s i) ∧
      (begins ↔ found ∧ before = "") ∧ (begins ↔ t.toList <+: s.toList) := by
  intro s t
  refine ⟨(splitAt? t.toList s.toList).isSome, (after? t.toList s.toList).isSome, Function.textBefore s t,
    Function.textAfter s t, rfl, rfl, rfl, rfl, ?_⟩
  rw [isSome_after?_iff, isSome_splitAt?_iff]
  cases h : splitAt? t.toList s.toList with
  | none =>
    have hnone := not_infix_of_splitAt? h
    rw [textBefore_eq_empty h, textAfter_eq_empty h]
    refine ⟨?_, Iff.rfl, fun hfound => absurd hfound hnone, fun _ => ⟨rfl, rfl, ?_⟩, ?_, Iff.rfl⟩
    · refine iff_of_false hnone fun hs => hnone ?_
      rw [hs]
      exact ⟨[], [], by simp⟩
    · intro i hi
      exact hnone (infix_of_occursAt hi)
    · exact iff_of_false (fun hprefix => hnone hprefix.isInfix) fun hfound => hnone hfound.1
  | some parts =>
    obtain ⟨before, after⟩ := parts
    have hsplit : FirstSplit t s (.ofList before) (.ofList after) := firstSplit_of_splitAt? (by simpa using h)
    have hfound : t.toList <:+: s.toList := isSome_splitAt?_iff.mp (by rw [h]; rfl)
    rw [textBefore_eq h, textAfter_eq h]
    refine ⟨iff_of_true hfound hsplit.text, Iff.rfl, fun _ => hsplit, fun hnone => absurd hfound hnone, ?_, Iff.rfl⟩
    rw [prefix_iff_of_splitAt? h]
    simp [hfound]

/-! ### A part of a text -/

/-- The characters of a text at the positions from one on and before another one, counted from one. -/
def block (s : String) (first stop : Int) : String :=
  .ofList ((s.toList.take (stop - 1).toNat).drop (first - 1).toNat)

theorem filter_zipIdx (s : List Char) (start : Nat) (first stop : Int) :
    ((s.zipIdx start).filter fun p => decide (first ≤ p.2) && decide ((p.2 : Int) < stop)).map (·.1) =
      (s.take (stop - start).toNat).drop (first - start).toNat := by
  induction s generalizing start with
  | nil => simp
  | cons c s ih =>
    have hrest := ih (start + 1)
    rw [List.zipIdx_cons, List.filter_cons]
    rcases Int.lt_or_le start stop with hstop | hstop
    · have htake : (stop - start).toNat = (stop - (start + 1 : Nat)).toNat + 1 := by omega
      rw [htake, List.take_succ_cons]
      rcases Int.lt_or_le start first with hfirst | hfirst
      · have hdrop : (first - start).toNat = (first - (start + 1 : Nat)).toNat + 1 := by omega
        have hout : ¬(first ≤ (start : Int)) := Int.not_le.mpr hfirst
        rw [hdrop, List.drop_succ_cons]
        simpa [hout] using hrest
      · have hdrop : (first - start).toNat = 0 := by omega
        have hdrop' : (first - (start + 1 : Nat)).toNat = 0 := by omega
        rw [hdrop, List.drop_zero]
        rw [hdrop', List.drop_zero] at hrest
        simp [hfirst, hstop, hrest]
    · have htake : (stop - start).toNat = 0 := by omega
      have htake' : (stop - (start + 1 : Nat)).toNat = 0 := by omega
      have hout : ¬((start : Int) < stop) := Int.not_lt.mpr hstop
      rw [htake, List.take_zero, List.drop_nil]
      rw [htake', List.take_zero, List.drop_nil] at hrest
      simp only [hout, decide_false, Bool.and_false, Bool.false_eq_true, if_false, hrest]

section Part
variable {s : String} {start length : Number} {first stop : Int} {a n : Int}

theorem block_max : block s (max 1 first) stop = block s first stop := by
  have hdrop : (max 1 first - 1).toNat = (first - 1).toNat := by omega
  rw [block, block, hdrop]

/-- What is kept between two numbers is the block between the integers on whose side they are of each position. -/
theorem kept_eq {after : Number} (hfirst : ∀ i ≤ s.length, start.lessOrEqual (.ofNat i) ↔ first ≤ i)
    (hstop : ∀ i ≤ s.length, (Number.ofNat i).less after ↔ i < stop) :
    String.ofList (((s.toList.zipIdx 1).filter fun p =>
      start.lessOrEqual (.ofNat p.2) && (Number.ofNat p.2).less after).map (·.1)) = block s first stop := by
  have hkept : ∀ p ∈ s.toList.zipIdx 1, (start.lessOrEqual (.ofNat p.2) && (Number.ofNat p.2).less after) =
      (decide (first ≤ p.2) && decide ((p.2 : Int) < stop)) := by
    intro p hp
    have hle : p.2 ≤ s.length := by
      have hlt := List.snd_lt_add_of_mem_zipIdx hp
      rw [String.length_toList] at hlt
      omega
    rw [Bool.eq_iff_iff, Bool.and_eq_true, Bool.and_eq_true, decide_eq_true_iff, decide_eq_true_iff, hfirst _ hle,
      hstop _ hle]
  rw [List.filter_congr hkept, filter_zipIdx, block]
  rfl

theorem textFrom_to (hlen : s.length < 2 ^ 51) (ha : a.natAbs < 2 ^ 51) (hstart : start.equals (.ofInt a))
    (hlength : length.equals (.ofInt n)) : Function.textFrom s start (some length) = block s (max 1 a) (a + n) := by
  have hfirst := (Number.standsFor_of_equals hstart).round
  have hstop := hfirst.add (Number.standsFor_of_equals hlength).round ha
  rw [block_max]
  refine kept_eq (fun i hi => ?_) fun i hi => ?_
  · exact hfirst.lessOrEqual_ofNat (by omega) (by omega)
  · exact hstop.ofNat_less (by omega) (by omega)

theorem textFrom_on (hlen : s.length < 2 ^ 51) (hstart : start.equals (.ofInt a)) :
    Function.textFrom s start none = block s (max 1 a) (s.length + 1) := by
  have hfirst := (Number.standsFor_of_equals hstart).round
  rw [block_max]
  refine kept_eq (fun i hi => ?_) fun i hi => ?_
  · exact hfirst.lessOrEqual_ofNat (by omega) (by omega)
  · rw [Number.ofNat_eq (by omega)]
    exact iff_of_true rfl (by omega)

theorem block_append (n : Int) : block s 1 (1 + n) ++ block s (n + 1) (s.length + 1) = s := by
  have htake : (1 + n - 1).toNat = n.toNat := by omega
  have hdrop : (n + 1 - 1).toNat = n.toNat := by omega
  have hall : ((s.length : Int) + 1 - 1).toNat = s.toList.length := by
    rw [String.length_toList]
    omega
  rw [← String.toList_inj, String.toList_append, block, block, String.toList_ofList, String.toList_ofList, htake, hdrop, hall,
    List.take_length]
  exact List.take_append_drop n.toNat s.toList

end Part

/-- With integers as its numbers, or what has their values, a part of a text is a block of its characters. Only the
    start and the text must not be too large, and where a first part ends the second one goes on. -/
theorem substring_integers (d : Document) (c : Context) {v : Value} (hlen : (v.toText d).length < 2 ^ 51) :
    let s := v.toText d
    (∀ (x y : Value) (a n : Int), a.natAbs < 2 ^ 51 → (x.toNumber d).equals (.ofInt a) →
      (y.toNumber d).equals (.ofInt n) →
      Function.call d c "substring" [v, x, y] = .ok (.string (block s (max 1 a) (a + n)))) ∧
    (∀ (x : Value) (a : Int), (x.toNumber d).equals (.ofInt a) →
      Function.call d c "substring" [v, x] = .ok (.string (block s (max 1 a) (s.length + 1)))) ∧
    ∀ (x y z : Value) (k : Int), (x.toNumber d).equals (.ofInt 1) → (y.toNumber d).equals (.ofInt k) →
      (z.toNumber d).equals (.ofInt (k + 1)) →
      ∃ front back : String, Function.call d c "substring" [v, x, y] = .ok (.string front) ∧
        Function.call d c "substring" [v, z] = .ok (.string back) ∧ front ++ back = s := by
  intro s
  have hto (x y : Value) : Function.call d c "substring" [v, x, y] =
      .ok (.string (Function.textFrom s (x.toNumber d) (some (y.toNumber d)))) := rfl
  have hon (x : Value) : Function.call d c "substring" [v, x] =
      .ok (.string (Function.textFrom s (x.toNumber d) none)) := rfl
  refine ⟨?_, ?_, ?_⟩
  · intro x y a n ha hx hy
    rw [hto, textFrom_to hlen ha hx hy]
  · intro x a hx
    rw [hon, textFrom_on hlen hx]
  · intro x y z k hx hy hz
    refine ⟨block s (max 1 1) (1 + k), block s (max 1 (k + 1)) (s.length + 1), ?_, ?_, ?_⟩
    · rw [hto, textFrom_to hlen (by decide) hx hy]
    · rw [hon, textFrom_on hlen hz]
    · rw [block_max, block_max, block_append]

/-- A start before the text shortens the part. Its two parts at a place before it are nothing and the text. -/
theorem substring_integers_outside :
    let d : Document := ⟨[]⟩
    let c : Context := ⟨.root, 1, 1⟩
    let v : Value := .string "häßlich"
    (v.toText d).length < 2 ^ 51 ∧
      Function.call d c "substring" [v, .number (.ofInt (-1)), .string "4"] = .ok (.string "hä") ∧
      Function.call d c "substring" [v, .string " 6.0 "] = .ok (.string "ch") ∧
      ∃ front back : String,
        Function.call d c "substring" [v, .boolean true, .number (.ofInt (-2))] = .ok (.string front) ∧
        Function.call d c "substring" [v, .number (.ofInt (-1))] = .ok (.string back) ∧ front ++ back = "häßlich" := by
  intro d c v
  have hlen : (v.toText d).length < 2 ^ 51 := by decide
  have hvalues : (Value.toNumber d (.string "4")).equals (.ofInt 4) ∧
      (Value.toNumber d (.string " 6.0 ")).equals (.ofInt 6) ∧ (Value.toNumber d (.boolean true)).equals (.ofInt 1) ∧
      (Number.ofInt (-1)).equals (.ofInt (-1)) ∧ (Number.ofInt (-2)).equals (.ofInt (-2)) := by
    decide +kernel
  obtain ⟨hfour, hsix, hone, hbefore, hfurther⟩ := hvalues
  obtain ⟨hto, hon, hsplit⟩ := substring_integers d c hlen
  have hshort : block (v.toText d) (max 1 (-1)) (-1 + 4) = "hä" := by decide
  have hrest : block (v.toText d) (max 1 6) ((v.toText d).length + 1) = "ch" := by decide
  rw [← hshort, ← hrest]
  refine ⟨hlen, hto _ _ (-1) 4 ?_ hbefore hfour, hon _ 6 hsix, hsplit _ _ _ (-2) hone hfurther hbefore⟩
  decide

end XmlMapping.XPath
