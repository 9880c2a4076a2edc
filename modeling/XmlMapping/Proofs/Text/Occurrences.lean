import XmlMapping.Proofs.Text.Scanning

/-!
# Occurrences of words

Where a word occurs in a text. Splitting at a word finds its first occurrence, and it finds one exactly if the word
occurs at all. The same occurrence comes first when only the bytes of both texts are compared: the bytes of a
character are never found across characters, so every occurrence begins and ends between two characters.
-/

namespace XmlMapping.Text

variable {s t u v word before rest : List Char} {i : Nat}

/-! ### Occurrences by characters -/

theorem isSome_after?_iff : (after? word s).isSome ↔ word <+: s := by
  constructor
  · intro h
    obtain ⟨r, hr⟩ := Option.isSome_iff_exists.mp h
    exact ⟨r, (eq_of_after? hr).symm⟩
  · rintro ⟨r, rfl⟩
    rw [after?_append]
    rfl

/-- A text that is split is put together from its parts, and the word occurs nowhere before. -/
theorem of_splitAt? (h : splitAt? word s = some (before, rest)) :
    s = before ++ word ++ rest ∧ ∀ u v, s = u ++ word ++ v → before <+: u := by
  induction s generalizing before with
  | nil =>
    rw [splitAt?] at h
    split at h
    · next hempty =>
      cases h
      exact ⟨by simpa using hempty, fun u v _ => List.nil_prefix⟩
    · cases h
  | cons c s ih =>
    rw [splitAt?] at h
    split at h
    · next r hr =>
      cases h
      exact ⟨eq_of_after? hr, fun u v _ => List.nil_prefix⟩
    · next hnone =>
      obtain ⟨⟨b, r⟩, hsplit, hparts⟩ := Option.map_eq_some_iff.mp h
      cases hparts
      obtain ⟨hs, hfirst⟩ := ih hsplit
      refine ⟨by rw [hs]; rfl, fun u v huv => ?_⟩
      cases u with
      | nil =>
        rw [List.nil_append] at huv
        rw [huv, after?_append] at hnone
        cases hnone
      | cons d u =>
        obtain ⟨rfl, hs'⟩ := List.cons.inj huv
        exact List.cons_prefix_cons.mpr ⟨rfl, hfirst u v hs'⟩

theorem isSome_splitAt? (h : word <:+: s) : (splitAt? word s).isSome := by
  induction s with
  | nil =>
    rw [List.infix_nil.mp h]
    rfl
  | cons c s ih =>
    rw [splitAt?]
    split
    · rfl
    · next hnone =>
      rw [Option.isSome_map]
      rcases List.infix_cons_iff.mp h with hprefix | hinfix
      · rw [← isSome_after?_iff, hnone] at hprefix
        cases hprefix
      · exact ih hinfix

theorem isSome_splitAt?_iff : (splitAt? word s).isSome ↔ word <:+: s := by
  refine ⟨fun h => ?_, isSome_splitAt?⟩
  obtain ⟨⟨before, rest⟩, hsplit⟩ := Option.isSome_iff_exists.mp h
  exact ⟨before, rest, (of_splitAt? hsplit).1.symm⟩

/-! ### Occurrences by bytes -/

/-- Whether the bytes of a word stand in a text from a number of bytes on. -/
def OccursAt (word s : String) (i : Nat) : Prop :=
  i + word.utf8ByteSize ≤ s.utf8ByteSize ∧ s.toByteArray.extract i (i + word.utf8ByteSize) = word.toByteArray

theorem occursAt_append (u word v : String) : OccursAt word (u ++ word ++ v) u.utf8ByteSize := by
  constructor
  · simp only [String.utf8ByteSize_append]
    omega
  · rw [String.append_assoc, String.toByteArray_append, String.toByteArray_append, ← Nat.add_zero u.utf8ByteSize,
      Nat.add_assoc, Nat.zero_add, ByteArray.extract_append_size_add' String.size_toByteArray.symm,
      ByteArray.extract_append_eq_left String.size_toByteArray.symm]

/-- Bytes of a word that stand in a text are characters of it: they begin and end between two characters. -/
theorem OccursAt.exists_append {word s : String} (h : OccursAt word s i) (hne : word ≠ "") :
    ∃ u v : String, s = u ++ word ++ v ∧ u.utf8ByteSize = i := by
  obtain ⟨hle, hbytes⟩ := h
  have hvalid : (s.toByteArray.extract i (i + word.utf8ByteSize)).IsValidUTF8 := hbytes ▸ word.isValidUTF8
  have hsize : word.utf8ByteSize ≠ 0 := by simpa using hne
  have hbounds := (String.Pos.Raw.isValidUTF8_extract_iff (s := s) ⟨i⟩ ⟨i + word.utf8ByteSize⟩
    (by simp [String.Pos.Raw.le_iff]) (by simpa [String.Pos.Raw.le_iff] using hle)).mp hvalid
  rcases hbounds with hsame | ⟨hfirst, hlast⟩
  · have hi := congrArg String.Pos.Raw.byteIdx hsame
    simp only at hi
    omega
  · refine ⟨.ofByteArray _ hfirst.isValidUTF8_extract_zero, .ofByteArray _ hlast.isValidUTF8_extract_utf8ByteSize, ?_, ?_⟩
    · apply String.toByteArray_inj.mp
      have hwhole : s.toByteArray = s.toByteArray.extract 0 i ++ s.toByteArray.extract i (i + word.utf8ByteSize) ++
          s.toByteArray.extract (i + word.utf8ByteSize) s.utf8ByteSize := by
        rw [← ByteArray.extract_eq_extract_append_extract i (Nat.zero_le i) (Nat.le_add_right i _),
          ← ByteArray.extract_eq_extract_append_extract _ (Nat.zero_le _) hle, ← String.size_toByteArray,
          ByteArray.extract_zero_size]
      rw [String.toByteArray_append, String.toByteArray_append, ← hbytes]
      exact hwhole
    · rw [String.utf8ByteSize_ofByteArray, ByteArray.size_extract, String.size_toByteArray]
      show min i s.utf8ByteSize - 0 = i
      omega

theorem infix_of_occursAt {word s : String} (h : OccursAt word s i) : word.toList <:+: s.toList := by
  by_cases hne : word = ""
  · rw [hne]
    exact List.nil_infix
  · obtain ⟨u, v, rfl, -⟩ := h.exists_append hne
    exact ⟨u.toList, v.toList, by simp⟩

/-- Searching for bytes finds the occurrence that splitting at a word finds. -/
theorem occursAt_splitAt? {word s before rest : String}
    (h : splitAt? word.toList s.toList = some (before.toList, rest.toList)) :
    OccursAt word s before.utf8ByteSize ∧ ∀ i, OccursAt word s i → before.utf8ByteSize ≤ i := by
  obtain ⟨hs, hfirst⟩ := of_splitAt? h
  constructor
  · have htext : s = before ++ word ++ rest := String.toList_inj.mp (by simpa using hs)
    rw [htext]
    exact occursAt_append before word rest
  · intro i hi
    by_cases hne : word = ""
    · have hnone := hfirst [] s.toList (by simp [hne])
      have hbefore : before = "" := by simpa using hnone
      rw [hbefore]
      exact Nat.zero_le i
    · obtain ⟨u, v, htext, rfl⟩ := hi.exists_append hne
      obtain ⟨x, hx⟩ := hfirst u.toList v.toList (by simp [htext])
      have hu : u = before ++ .ofList x := String.toList_inj.mp (by simp [hx])
      rw [hu, String.utf8ByteSize_append]
      exact Nat.le_add_right _ _

/-! ### The first occurrence -/

/-- Two texts are what stands before and after the first occurrence of a word. It comes before all others, whether
    characters or bytes are counted, and its bytes begin and end between two characters. -/
structure FirstSplit (word s before after : String) : Prop where
  text : s = before ++ word ++ after
  first : ∀ u v, s = u ++ word ++ v → before.toList <+: u.toList
  occurs : OccursAt word s before.utf8ByteSize
  least : ∀ i, OccursAt word s i → before.utf8ByteSize ≤ i
  start_valid : String.Pos.Raw.IsValid s ⟨before.utf8ByteSize⟩
  stop_valid : String.Pos.Raw.IsValid s ⟨before.utf8ByteSize + word.utf8ByteSize⟩

theorem firstSplit_of_splitAt? {word s before after : String}
    (h : splitAt? word.toList s.toList = some (before.toList, after.toList)) : FirstSplit word s before after := by
  obtain ⟨hs, hfirst⟩ := of_splitAt? h
  obtain ⟨hoccurs, hleast⟩ := occursAt_splitAt? h
  have htext : s = before ++ word ++ after := String.toList_inj.mp (by simpa using hs)
  refine ⟨htext, fun u v huv => hfirst u.toList v.toList (by simp [huv]), hoccurs, hleast, ?_, ?_⟩
  · rw [htext, String.append_assoc]
    exact String.Pos.Raw.isValid_iff_exists_append.mpr ⟨before, word ++ after, rfl, rfl⟩
  · rw [htext]
    refine String.Pos.Raw.isValid_iff_exists_append.mpr ⟨before ++ word, after, rfl, ?_⟩
    rw [← String.utf8ByteSize_append]
    rfl

end XmlMapping.Text
