import Mathlib.Data.List.Chain
import XmlMapping.Date.Pattern
import XmlMapping.Proofs.Result
import XmlMapping.Proofs.Text.Scanning

/-! # Patterns by segments

A letter pattern is put together from fields, written as runs of their letters, and literals, written in single
quotes with every quote inside them doubled. Such a pattern is always accepted, and its format has the items of
the fields in place. Of the literals it has all characters but some quotes: a doubled quote between other
characters ends the quoted text and begins another one. -/

namespace XmlMapping.Date

open Text

/-- A segment of a pattern: a field, given by its letter and how often it is repeated, or a literal text. -/
inductive Segment
  | field (letter : Char) (width : Nat)
  | literal (text : List Char)

/-- A text with every quote in it doubled. -/
def doubled (t : List Char) : List Char :=
  t.flatMap fun c => if c = '\'' then ['\'', '\''] else [c]

/-- Whether a text has nothing but quotes. -/
def onlyQuotes (t : List Char) : Bool :=
  t.all (· == '\'')

/-- A text without the first quote of each run of quotes between other characters, given whether another
    character comes right before the text. -/
def thinned (between : Bool) : List Char → List Char
  | [] => []
  | c :: t =>
    if c = '\'' then
      if between && !onlyQuotes t then thinned false t else c :: thinned false t
    else c :: thinned true t

namespace Segment

/-- Whether a segment can stand in a pattern: a field that has an item, or a text without a percent sign. -/
def Supported : Segment → Prop
  | .field letter width => 0 < width ∧ (fieldItem? letter width).isSome
  | .literal text => text ≠ [] ∧ '%' ∉ text

/-- Whether two segments can stand next to each other. -/
def Apart : Segment → Segment → Prop
  | .field letter _, .field letter' _ => letter ≠ letter'
  | .literal _, .literal _ => False
  | .field .., .literal _ => True
  | .literal _, .field .. => True

/-- A segment as it is written in a pattern. -/
def written : Segment → List Char
  | .field letter width => List.replicate width letter
  | .literal text => '\'' :: doubled text ++ ['\'']

/-- What a segment means in a format. -/
def meant : Segment → List Char
  | .field letter width => (fieldItem? letter width).getD []
  | .literal text => text

/-- What a format has for a segment. -/
def made : Segment → List Char
  | .field letter width => (fieldItem? letter width).getD []
  | .literal text => if onlyQuotes text then '\'' :: text else thinned false text

end Segment

variable {c : Char} {n : Nat} {s t u item : List Char} {segment : Segment} {segments : List Segment}

/-! ### Fields -/

theorem fieldItem?_eq_some (h : fieldItem? c n = some item) :
    c.isAlpha ∧ c ≠ '\'' ∧ c ≠ '%' ∧ ∃ u, item = '%' :: u := by
  unfold fieldItem? at h
  split at h <;> try split at h
  all_goals cases h
  all_goals exact ⟨by decide, by decide, by decide, _, rfl⟩

/-- A run of a letter that no more of it follow is a field. -/
theorem expand_field (hitem : fieldItem? c n = some item) (hn : 0 < n) (hs : Stops (· == c) s) :
    expand (List.replicate n c ++ s) = (expand s).map (item ++ ·) := by
  obtain ⟨halpha, hquote, -, -⟩ := fieldItem?_eq_some hitem
  obtain ⟨n, rfl⟩ := Nat.exists_eq_succ_of_ne_zero hn.ne'
  have hrun : ∀ d ∈ List.replicate n c, (d == c) = true := fun d hd => by
    rw [List.eq_of_mem_replicate hd, beq_self_eq_true]
  have hwidth : (c :: List.replicate n c).length = n + 1 := by simp
  rw [List.replicate_succ, List.cons_append, expand.eq_4 _ _ (by simp [hquote]) (by simp [hquote]), if_pos halpha,
    takeWhile_append_stops hrun hs, dropWhile_append_stops hrun hs]
  simp only [hwidth, hitem]

/-! ### Literals -/

theorem bne_of_not_mem (h : c ∉ t) : ∀ d ∈ t, (d != c) = true := fun d hd => by
  rw [bne_iff_ne]
  rintro rfl
  exact h hd

theorem expand_two_quotes : expand ('\'' :: '\'' :: s) = (expand s).map ('\'' :: ·) := by
  rw [expand]

theorem expand_quoted (ht : '\'' ∉ t) (hne : t ≠ []) :
    expand ('\'' :: t ++ '\'' :: s) = (expand s).map (t ++ ·) := by
  have hall := bne_of_not_mem ht
  have hstop : Stops (· != '\'') ('\'' :: s) := stops_cons.mpr (by decide)
  have hfirst : ∀ rest, t ++ '\'' :: s ≠ '\'' :: rest := by
    cases t with
    | nil => exact absurd rfl hne
    | cons c t =>
      rintro rest heq
      exact ht (by rw [(List.cons.inj heq).1]; exact List.mem_cons_self)
  rw [List.cons_append, expand.eq_3 _ hfirst, takeWhile_append_stops hall hstop, dropWhile_append_stops hall hstop]
  rfl

theorem doubled_quote (t : List Char) : doubled ('\'' :: t) = '\'' :: '\'' :: doubled t :=
  rfl

theorem doubled_cons (hc : c ≠ '\'') (t : List Char) : doubled (c :: t) = c :: doubled t := by
  simp [doubled, hc]

theorem onlyQuotes_quote (t : List Char) : onlyQuotes ('\'' :: t) = onlyQuotes t :=
  rfl

theorem onlyQuotes_cons (hc : c ≠ '\'') (t : List Char) : onlyQuotes (c :: t) = false := by
  simp [onlyQuotes, hc]

theorem thinned_cons {between : Bool} (hc : c ≠ '\'') (t : List Char) :
    thinned between (c :: t) = c :: thinned true t :=
  if_neg hc

theorem thinned_onlyQuotes {between : Bool} (h : onlyQuotes t) : thinned between t = t := by
  induction t generalizing between with
  | nil => rfl
  | cons c t ih =>
    by_cases hc : c = '\''
    · subst hc
      rw [onlyQuotes_quote] at h
      simp [thinned, h, ih h]
    · rw [onlyQuotes_cons hc] at h
      cases h

theorem made_quote (t : List Char) : (Segment.literal ('\'' :: t)).made = '\'' :: (Segment.literal t).made := by
  cases h : onlyQuotes t <;> simp [Segment.made, onlyQuotes_quote, thinned, h]

/-- A quote after another character ends the quoted text, and the next one opens the rest of the literal. -/
theorem thinned_quote (t : List Char) : thinned true ('\'' :: t) = (Segment.literal t).made := by
  cases h : onlyQuotes t
  · simp [thinned, Segment.made, h]
  · simp [thinned, Segment.made, h, thinned_onlyQuotes h]

/-- What is made of a literal is said twice: when its opening quote comes next, and when other characters
    stand between that quote and the rest of the literal. -/
theorem expand_opened (t : List Char) :
    expand ('\'' :: doubled t ++ '\'' :: s) = (expand s).map ((Segment.literal t).made ++ ·) ∧
      ∀ u, '\'' ∉ u → u ≠ [] →
        expand ('\'' :: u ++ (doubled t ++ '\'' :: s)) = (expand s).map (u ++ thinned true t ++ ·) := by
  have hmap {x : Except PatternFlaw (List Char)} (u v : List Char) :
      (x.map (v ++ ·)).map (u ++ ·) = x.map (u ++ v ++ ·) := by
    cases x <;> simp [Except.map]
  induction t with
  | nil =>
    refine ⟨expand_two_quotes, fun u hu hne => ?_⟩
    rw [show doubled [] ++ '\'' :: s = '\'' :: s from rfl, expand_quoted hu hne, thinned, List.append_nil]
  | cons c t ih =>
    obtain ⟨hopened, hinside⟩ := ih
    by_cases hc : c = '\''
    · subst hc
      refine ⟨?_, fun u hu hne => ?_⟩
      · have hquotes := expand_two_quotes (s := '\'' :: doubled t ++ '\'' :: s)
        rw [hopened] at hquotes
        rw [doubled_quote, made_quote]
        exact hquotes.trans (hmap ['\''] _)
      · -- The first of the two quotes ends the text that was begun.
        have hquoted := expand_quoted (s := '\'' :: (doubled t ++ '\'' :: s)) hu hne
        rw [doubled_quote, thinned_quote, ← hmap, ← hopened]
        exact hquoted
    · rw [doubled_cons hc]
      have hmade : (Segment.literal (c :: t)).made = [c] ++ thinned true t := by
        rw [Segment.made, onlyQuotes_cons hc, thinned_cons hc]
        rfl
      refine ⟨?_, fun u hu hne => ?_⟩
      · rw [hmade]
        exact hinside [c] (by simpa using Ne.symm hc) (List.cons_ne_nil c [])
      · have hnext := hinside (u ++ [c]) (by simpa [hu] using Ne.symm hc) (by simp)
        simpa [thinned_cons hc] using hnext

/-! ### Sequences of segments -/

theorem expand_segment (hsegment : segment.Supported)
    (hs : ∀ letter width, segment = .field letter width → Stops (· == letter) s) :
    expand (segment.written ++ s) = (expand s).map (segment.made ++ ·) := by
  cases segment with
  | field letter width =>
    obtain ⟨hwidth, hitem⟩ := hsegment
    obtain ⟨item, hitem⟩ := Option.isSome_iff_exists.mp hitem
    rw [Segment.written, Segment.made, hitem]
    exact expand_field hitem hwidth (hs letter width rfl)
  | literal text =>
    have hliteral := (expand_opened (s := s) text).1
    simpa [Segment.written] using hliteral

theorem Segment.Supported.ne_quote {letter : Char} {width : Nat} (h : (field letter width).Supported) :
    letter ≠ '\'' := by
  obtain ⟨-, hitem⟩ := h
  obtain ⟨item, hitem⟩ := Option.isSome_iff_exists.mp hitem
  exact (fieldItem?_eq_some hitem).2.1

/-- The run of a field ends where the next segment begins. -/
theorem stops_written {letter : Char} {width : Nat} (hfirst : (Segment.field letter width).Supported)
    (hsegment : segment.Supported) (hapart : (Segment.field letter width).Apart segment) :
    Stops (· == letter) (segment.written ++ s) := by
  cases segment with
  | field letter' width' =>
    obtain ⟨n, rfl⟩ := Nat.exists_eq_succ_of_ne_zero hsegment.1.ne'
    exact stops_cons.mpr (beq_eq_false_iff_ne.mpr (Ne.symm hapart))
  | literal text => exact stops_cons.mpr (beq_eq_false_iff_ne.mpr hfirst.ne_quote.symm)

theorem expand_written (hsegments : ∀ x ∈ segments, x.Supported) (hapart : segments.IsChain Segment.Apart) :
    expand (segments.flatMap Segment.written) = .ok (segments.flatMap Segment.made) := by
  induction segments with
  | nil => rw [List.flatMap_nil, expand]; rfl
  | cons segment segments ih =>
    obtain ⟨hsegment, hrest⟩ := List.forall_mem_cons.mp hsegments
    rw [List.flatMap_cons, expand_segment hsegment, ih hrest hapart.tail]
    · rfl
    · rintro letter width rfl
      cases segments with
      | nil => exact stops_nil
      | cons next segments =>
        obtain ⟨hnext, -⟩ := List.isChain_cons_cons.mp hapart
        exact stops_written hsegment (hrest next List.mem_cons_self) hnext

/-! ### Which literals are kept -/

/-- Whether the quotes of a text are only at its ends, around other characters. -/
def QuotesOutside (t : List Char) : Prop :=
  ∃ m core n, core ≠ [] ∧ '\'' ∉ core ∧ t = List.replicate m '\'' ++ core ++ List.replicate n '\''

theorem thinned_sublist (between : Bool) (t : List Char) : (thinned between t).Sublist t := by
  induction t generalizing between with
  | nil => exact .slnil
  | cons c t ih =>
    rw [thinned]
    split
    · split
      · exact (ih false).cons c
      · exact (ih false).cons_cons c
    · exact (ih true).cons_cons c

theorem onlyQuotes_iff : onlyQuotes t ↔ ∃ n, t = List.replicate n '\'' := by
  rw [onlyQuotes, List.all_eq_true]
  constructor
  · exact fun h => ⟨t.length, List.eq_replicate_iff.mpr ⟨rfl, fun c hc => by simpa using h c hc⟩⟩
  · rintro ⟨n, rfl⟩ c hc
    rw [List.eq_of_mem_replicate hc, beq_self_eq_true]

/-- After another character, nothing is lost if no other character comes after a quote. -/
theorem thinned_eq_iff : thinned true t = t ↔ ∃ core n, '\'' ∉ core ∧ t = core ++ List.replicate n '\'' := by
  induction t with
  | nil => exact ⟨fun _ => ⟨[], 0, List.not_mem_nil, rfl⟩, fun _ => rfl⟩
  | cons c t ih =>
    by_cases hc : c = '\''
    · subst hc
      cases hall : onlyQuotes t with
      | true =>
        have hquotes : onlyQuotes ('\'' :: t) := hall
        obtain ⟨n, hn⟩ := onlyQuotes_iff.mp hquotes
        exact ⟨fun _ => ⟨[], n, List.not_mem_nil, hn⟩, fun _ => thinned_onlyQuotes hquotes⟩
      | false =>
        constructor
        · intro h
          have hlen := (thinned_sublist false t).length_le
          simp only [thinned, hall, Bool.not_false, Bool.and_self, if_true] at h
          rw [h, List.length_cons] at hlen
          omega
        · rintro ⟨core, n, hcore, h⟩
          cases core with
          | nil =>
            have hquotes : onlyQuotes ('\'' :: t) := onlyQuotes_iff.mpr ⟨n, h⟩
            rw [onlyQuotes_quote, hall] at hquotes
            cases hquotes
          | cons d core =>
            obtain ⟨rfl, -⟩ := List.cons.inj h
            exact absurd List.mem_cons_self hcore
    · rw [thinned_cons hc, List.cons.injEq, and_iff_right rfl, ih]
      constructor
      · rintro ⟨core, n, hcore, rfl⟩
        exact ⟨c :: core, n, by simpa [Ne.symm hc] using hcore, rfl⟩
      · rintro ⟨core, n, hcore, h⟩
        cases core with
        | nil =>
          have hquotes : onlyQuotes (c :: t) := onlyQuotes_iff.mpr ⟨n, h⟩
          rw [onlyQuotes_cons hc] at hquotes
          cases hquotes
        | cons d core => exact ⟨core, n, fun hmem => hcore (List.mem_cons_of_mem d hmem), (List.cons.inj h).2⟩

theorem made_literal_eq_iff : (Segment.literal t).made = t ↔ QuotesOutside t := by
  induction t with
  | nil =>
    refine ⟨nofun, ?_⟩
    rintro ⟨m, core, n, hne, -, h⟩
    exact absurd (List.append_eq_nil_iff.mp (List.append_eq_nil_iff.mp h.symm).1).2 hne
  | cons c t ih =>
    by_cases hc : c = '\''
    · subst hc
      rw [made_quote, List.cons.injEq, and_iff_right rfl, ih]
      constructor
      · rintro ⟨m, core, n, hne, hcore, rfl⟩
        exact ⟨m + 1, core, n, hne, hcore, rfl⟩
      · rintro ⟨m, core, n, hne, hcore, h⟩
        cases m with
        | zero =>
          obtain ⟨d, core, rfl⟩ := List.exists_cons_of_ne_nil hne
          obtain ⟨rfl, -⟩ := List.cons.inj h
          exact absurd List.mem_cons_self hcore
        | succ m => exact ⟨m, core, n, hne, hcore, (List.cons.inj h).2⟩
    · rw [Segment.made, onlyQuotes_cons hc, thinned_cons hc]
      show c :: thinned true t = c :: t ↔ _
      rw [List.cons.injEq, and_iff_right rfl, thinned_eq_iff]
      constructor
      · rintro ⟨core, n, hcore, rfl⟩
        exact ⟨0, c :: core, n, List.cons_ne_nil _ _, by simpa [Ne.symm hc] using hcore, rfl⟩
      · rintro ⟨m, core, n, hne, hcore, h⟩
        obtain ⟨d, core, rfl⟩ := List.exists_cons_of_ne_nil hne
        cases m with
        | zero => exact ⟨core, n, fun hmem => hcore (List.mem_cons_of_mem d hmem), (List.cons.inj h).2⟩
        | succ m => exact absurd (List.cons.inj h).1 hc

/-! ### Which patterns mean what they say -/

theorem percent_not_mem_made (ht : '%' ∉ t) : '%' ∉ (Segment.literal t).made := by
  rw [Segment.made]
  split
  · simpa using ht
  · exact fun hmem => ht ((thinned_sublist false t).subset hmem)

theorem Segment.Supported.made_field {letter : Char} {width : Nat} (h : (field letter width).Supported) :
    ∃ u, (field letter width).made = '%' :: u ∧ (field letter width).meant = '%' :: u := by
  obtain ⟨-, hitem⟩ := h
  obtain ⟨item, hitem⟩ := Option.isSome_iff_exists.mp hitem
  obtain ⟨-, -, -, u, rfl⟩ := fieldItem?_eq_some hitem
  exact ⟨u, by simp [made, hitem], by simp [meant, hitem]⟩

/-- The percent sign of the field after a literal tells where the literal ends. -/
theorem stops_after_literal (hsegments : ∀ x ∈ segments, x.Supported)
    (hapart : (Segment.literal t :: segments).IsChain Segment.Apart) :
    Stops (· != '%') (segments.flatMap Segment.made) ∧ Stops (· != '%') (segments.flatMap Segment.meant) := by
  cases segments with
  | nil => exact ⟨stops_nil, stops_nil⟩
  | cons segment segments =>
    obtain ⟨hfirst, -⟩ := List.isChain_cons_cons.mp hapart
    cases segment with
    | field letter width =>
      obtain ⟨u, hmade, hmeant⟩ := (hsegments _ List.mem_cons_self).made_field
      rw [List.flatMap_cons, List.flatMap_cons, hmade, hmeant]
      exact ⟨stops_cons.mpr (by decide), stops_cons.mpr (by decide)⟩
    | literal text => exact hfirst.elim

theorem flatMap_made_eq_iff (hsegments : ∀ x ∈ segments, x.Supported) (hapart : segments.IsChain Segment.Apart) :
    segments.flatMap Segment.made = segments.flatMap Segment.meant ↔
      ∀ t, .literal t ∈ segments → QuotesOutside t := by
  induction segments with
  | nil => exact ⟨fun _ _ => nofun, fun _ => rfl⟩
  | cons segment segments ih =>
    obtain ⟨hsegment, hrest⟩ := List.forall_mem_cons.mp hsegments
    have hrest := ih hrest hapart.tail
    rw [List.flatMap_cons, List.flatMap_cons]
    cases segment with
    | field letter width =>
      obtain ⟨u, hmade, hmeant⟩ := hsegment.made_field
      rw [hmade, hmeant, List.append_cancel_left_eq, hrest]
      simp
    | literal text =>
      obtain ⟨-, hpercent⟩ := hsegment
      obtain ⟨hmade, hmeant⟩ := stops_after_literal (List.forall_mem_cons.mp hsegments).2 hapart
      have hliteral : (Segment.literal text).made ++ segments.flatMap Segment.made =
          text ++ segments.flatMap Segment.meant ↔
            (Segment.literal text).made = text ∧
              segments.flatMap Segment.made = segments.flatMap Segment.meant := by
        refine ⟨fun h => ?_, fun ⟨h, h'⟩ => by rw [h, h']⟩
        have htext : (Segment.literal text).made = text := by
          rw [← takeWhile_append_stops (bne_of_not_mem (percent_not_mem_made hpercent)) hmade, h,
            takeWhile_append_stops (bne_of_not_mem hpercent) hmeant]
        rw [htext] at h
        exact ⟨htext, List.append_cancel_left h⟩
      rw [Segment.meant, hliteral, made_literal_eq_iff, hrest]
      simp

theorem percent_not_mem_written (hsegment : segment.Supported) : '%' ∉ segment.written := by
  cases segment with
  | field letter width =>
    obtain ⟨item, hitem⟩ := Option.isSome_iff_exists.mp hsegment.2
    intro hmem
    exact (fieldItem?_eq_some hitem).2.2.1 (List.eq_of_mem_replicate hmem).symm
  | literal text =>
    simp only [Segment.written, doubled, List.mem_append, List.mem_cons, List.mem_flatMap, List.not_mem_nil,
      or_false]
    rintro ((h | ⟨c, hc, h⟩) | h)
    · cases h
    · split at h
      · simp at h
      · obtain rfl := List.mem_singleton.mp h
        exact hsegment.2 hc
    · cases h

/-- A pattern written segment by segment is accepted, and its format has what is made of its segments one after
    the other. It is the one that the segments mean exactly when the quotes of each literal are only at its ends
    and around other characters. -/
theorem formatOf_written (hsegments : ∀ x ∈ segments, x.Supported) (hapart : segments.IsChain Segment.Apart) :
    formatOf (.ofList (segments.flatMap Segment.written)) = .ok (.ofList (segments.flatMap Segment.made)) ∧
      (formatOf (.ofList (segments.flatMap Segment.written)) = .ok (.ofList (segments.flatMap Segment.meant)) ↔
        ∀ t, .literal t ∈ segments → QuotesOutside t) := by
  have hpercent : (segments.flatMap Segment.written).contains '%' = false := by
    rw [List.contains_eq_mem, decide_eq_false_iff_not, List.mem_flatMap]
    rintro ⟨x, hx, hmem⟩
    exact percent_not_mem_written (hsegments x hx) hmem
  have hformat : formatOf (.ofList (segments.flatMap Segment.written)) =
      .ok (.ofList (segments.flatMap Segment.made)) := by
    rw [formatOf, String.toList_ofList, hpercent, expand_written hsegments hapart]
    rfl
  refine ⟨hformat, ?_⟩
  rw [hformat, Except.ok.injEq, String.ofList_inj, flatMap_made_eq_iff hsegments hapart]

/-- `h'o''clock'` -/
def oClock : List Segment :=
  [.field 'h' 1, .literal "o'clock".toList]

theorem formatOf_written_oClock :
    formatOf (.ofList "h'o''clock'".toList) = .ok (.ofList "%Ioclock".toList) ∧
      formatOf (.ofList "h'o''clock'".toList) ≠ .ok (.ofList "%Io'clock".toList) := by
  have hsupported : ∀ x ∈ oClock, x.Supported := by
    refine List.forall_mem_cons.mpr ⟨⟨by decide, by decide⟩, List.forall_mem_singleton.mpr ⟨by decide, by decide⟩⟩
  have hapart : oClock.IsChain Segment.Apart :=
    List.isChain_cons_cons.mpr ⟨trivial, List.isChain_singleton _⟩
  obtain ⟨hmade, hiff⟩ := formatOf_written hsupported hapart
  refine ⟨hmade, fun h => ?_⟩
  have hquotes := made_literal_eq_iff.mpr (hiff.mp h _ (List.mem_cons_of_mem _ List.mem_cons_self))
  exact absurd hquotes (by decide)

end XmlMapping.Date
