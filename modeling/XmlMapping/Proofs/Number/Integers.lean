import XmlMapping.Proofs.Number.Whole

/-!
# Numbers between integers

Rounding never leads across a representable magnitude. So a sum, a floor and the rounding of a number to a whole one
stay on the side of an integer on which they are exactly, as long as the integer is not too large. A number that has
the value of an integer, as far as there is such a number, is therefore treated like that integer by all of them.
-/

namespace XmlMapping.Number

variable {k n u v : Nat} {a b i j : Int} {s t : Bool} {x y : Number}

/-! ### Rounding keeps the order -/

theorem nearest_le_of_dvd {den : Nat} (hden : 0 < den) (hdvd : den ∣ k) (h : n ≤ k) : nearest n den ≤ k / den := by
  rcases Nat.lt_or_eq_of_le h with hlt | rfl
  · obtain ⟨q, rfl⟩ := hdvd
    rw [Nat.mul_div_cancel_left q hden]
    exact Nat.le_trans (nearest_le n den) (Nat.div_lt_of_lt_mul hlt)
  · exact Nat.le_of_eq (nearest_of_dvd hden hdvd)

theorem log2_le_log2 (h : k ≤ n) : k.log2 ≤ n.log2 := by
  by_cases hk : k = 0
  · rw [hk, Nat.log2_zero]
    exact Nat.zero_le _
  · exact (Nat.le_log2 (by omega)).mpr (Nat.le_trans (Nat.log2_self_le hk) h)

/-- The distance between the numbers around a magnitude divides the numbers that are not smaller. -/
theorem step_dvd (h : Representable k) (hlog : u.log2 ≤ k.log2) : Nat.pow 2 (u.log2 - 52) ∣ k :=
  Nat.dvd_trans (Nat.pow_dvd_pow 2 (Nat.sub_le_sub_right hlog 52)) h.2

theorem roundUnits_le (h : Representable k) (hle : u ≤ k) : roundUnits u 1 ≤ k := by
  have hpos : 0 < Nat.pow 2 (u.log2 - 52) := Nat.two_pow_pos _
  have hdvd := step_dvd h (log2_le_log2 hle)
  rw [roundUnits, Nat.div_one, Nat.one_mul]
  calc nearest u (Nat.pow 2 (u.log2 - 52)) * Nat.pow 2 (u.log2 - 52)
      ≤ k / Nat.pow 2 (u.log2 - 52) * Nat.pow 2 (u.log2 - 52) :=
        Nat.mul_le_mul_right _ (nearest_le_of_dvd hpos hdvd hle)
    _ = k := Nat.div_mul_cancel hdvd

theorem le_roundUnits (h : Representable k) (hle : k ≤ u) : k ≤ roundUnits u 1 := by
  -- Between both magnitudes there is a multiple of the distance: the smaller one, or else a power of two.
  obtain ⟨v, hkv, hvu, hdvd⟩ : ∃ v, k ≤ v ∧ v ≤ u ∧ Nat.pow 2 (u.log2 - 52) ∣ v := by
    rcases Nat.lt_or_ge k.log2 u.log2 with hlog | hlog
    · have hu : u ≠ 0 := by
        rintro rfl
        rw [Nat.log2_zero] at hlog
        exact absurd hlog (Nat.not_lt_zero _)
      have hk : k < 2 ^ (k.log2 + 1) := Nat.lt_log2_self
      have hpow : 2 ^ (k.log2 + 1) ≤ 2 ^ u.log2 := Nat.pow_le_pow_right (by omega) hlog
      refine ⟨2 ^ u.log2, by omega, Nat.log2_self_le hu, Nat.pow_dvd_pow 2 (Nat.sub_le _ _)⟩
    · exact ⟨k, Nat.le_refl k, hle, step_dvd h hlog⟩
  rw [roundUnits, Nat.div_one, Nat.one_mul]
  calc k ≤ v := hkv
    _ = v / Nat.pow 2 (u.log2 - 52) * Nat.pow 2 (u.log2 - 52) := (Nat.div_mul_cancel hdvd).symm
    _ ≤ u / Nat.pow 2 (u.log2 - 52) * Nat.pow 2 (u.log2 - 52) := Nat.mul_le_mul_right _ (Nat.div_le_div_right hvu)
    _ ≤ nearest u (Nat.pow 2 (u.log2 - 52)) * Nat.pow 2 (u.log2 - 52) :=
        Nat.mul_le_mul_right _ (le_nearest _ _)

/-! ### Bounds -/

/-- A number that is not below so many units. -/
inductive AtLeast (a : Int) : Number → Prop
  | infinite : AtLeast a (.infinite false)
  | finite {s : Bool} {u : Nat} {hu : Representable u} (h : a ≤ signed s u) : AtLeast a (.finite s u hu)

/-- A number that is not above so many units. -/
inductive AtMost (a : Int) : Number → Prop
  | infinite : AtMost a (.infinite true)
  | finite {s : Bool} {u : Nat} {hu : Representable u} (h : signed s u ≤ a) : AtMost a (.finite s u hu)

@[simp] theorem signed_false : signed false u = u := rfl

@[simp] theorem signed_true : signed true u = -u := rfl

theorem ofRatio_cases (s : Bool) (u : Nat) :
    (∃ h, ofRatio s u 1 = finite s (roundUnits u 1) h) ∨ ofRatio s u 1 = infinite s ∧ overflowUnits ≤ roundUnits u 1 := by
  by_cases h : roundUnits u 1 < overflowUnits
  · exact Or.inl ⟨_, dif_pos h⟩
  · exact Or.inr ⟨dif_neg h, Nat.le_of_not_lt h⟩

theorem atLeast_ofRatio (ha : Representable a.natAbs) (h : a ≤ signed s u) : (ofRatio s u 1).AtLeast a := by
  cases s with
  | false =>
    rw [signed_false] at h
    have hround : a ≤ roundUnits u 1 := by
      rcases Int.le_total a 0 with hneg | hpos
      · exact Int.le_trans hneg (Int.natCast_nonneg _)
      · have hle := le_roundUnits (u := u) ha (by omega)
        omega
    rcases ofRatio_cases false u with ⟨hfits, heq⟩ | ⟨heq, -⟩
    · rw [heq]
      exact .finite hround
    · rw [heq]
      exact .infinite
  | true =>
    rw [signed_true] at h
    have hround : roundUnits u 1 ≤ a.natAbs := roundUnits_le ha (by omega)
    rcases ofRatio_cases true u with ⟨hfits, heq⟩ | ⟨-, hover⟩
    · rw [heq]
      refine .finite ?_
      rw [signed_true]
      omega
    · have hlt := ha.1
      omega

theorem neg_ofRatio (s : Bool) (u : Nat) : neg (ofRatio s u 1) = ofRatio (!s) u 1 := by
  rcases ofRatio_cases s u with ⟨hfits, heq⟩ | ⟨heq, hover⟩
  · rw [heq, neg, ofRatio, dif_pos hfits.1]
  · rw [heq, neg, ofRatio, dif_neg (Nat.not_lt.mpr hover)]

theorem signed_not : signed (!s) u = -signed s u := by
  cases s <;> simp

theorem atMost_of_neg (h : (neg x).AtLeast (-a)) : x.AtMost a := by
  cases x with
  | nan => cases h
  | infinite s =>
    cases s with
    | false => cases h
    | true => exact .infinite
  | finite s u hu =>
    cases h with
    | finite h =>
      rw [signed_not] at h
      exact .finite (by omega)

theorem atMost_ofRatio (ha : Representable a.natAbs) (h : signed s u ≤ a) : (ofRatio s u 1).AtMost a := by
  refine atMost_of_neg ?_
  rw [neg_ofRatio]
  refine atLeast_ofRatio (by rwa [Int.natAbs_neg]) ?_
  rw [signed_not]
  omega

/-! ### Sums -/

/-- The sign that a sum is given is its sign. -/
theorem signed_sum (i : Int) (b : Bool) : signed (if i = 0 then b else i < 0) i.natAbs = i := by
  by_cases hzero : i = 0
  · subst hzero
    cases b <;> rfl
  · rw [if_neg hzero]
    rcases Int.lt_or_le i 0 with hneg | hpos
    · rw [decide_eq_true hneg, signed_true]
      omega
    · rw [decide_eq_false (Int.not_lt.mpr hpos), signed_false]
      omega

theorem AtLeast.add (hsum : Representable (a + b).natAbs) (hx : x.AtLeast a) (hy : y.AtLeast b) :
    (x.add y).AtLeast (a + b) := by
  cases hx with
  | infinite => cases hy <;> exact .infinite
  | finite hx =>
    cases hy with
    | infinite => exact .infinite
    | finite hy =>
      simp only [Number.add]
      refine atLeast_ofRatio hsum ?_
      rw [signed_sum]
      omega

theorem AtMost.add (hsum : Representable (a + b).natAbs) (hx : x.AtMost a) (hy : y.AtMost b) :
    (x.add y).AtMost (a + b) := by
  cases hx with
  | infinite => cases hy <;> exact .infinite
  | finite hx =>
    cases hy with
    | infinite => exact .infinite
    | finite hy =>
      simp only [Number.add]
      refine atMost_ofRatio hsum ?_
      rw [signed_sum]
      omega

/-! ### Whole numbers -/

theorem neg_ceil_ediv {d : Nat} (hd : 0 < d) (u : Nat) : -(((u + d - 1) / d : Nat) : Int) = -(u : Int) / d := by
  have hlower := Nat.div_mul_le_self (u + d - 1) d
  have hupper := Nat.lt_div_mul_add hd (a := u + d - 1)
  generalize (u + d - 1) / d = q at hlower hupper
  have hd' : (0 : Int) < d := by omega
  have hcast : (q : Int) * d = (q * d : Nat) := (Int.natCast_mul q d).symm
  refine Int.le_antisymm ?_ (Int.le_of_lt_add_one ?_)
  · rw [Int.le_ediv_iff_mul_le hd', Int.neg_mul, hcast]
    omega
  · rw [Int.ediv_lt_iff_lt_mul hd', Int.add_mul, Int.neg_mul, hcast]
    omega

/-- The floor is rounded from the greatest whole number that is not above. -/
theorem floor_finite (hu : Representable u) :
    ∃ v, floor (.finite s u hu) = ofRatio s v 1 ∧ signed s v = signed s u / oneUnits * oneUnits := by
  cases s with
  | false =>
    refine ⟨u / oneUnits * oneUnits, by rw [floor, if_neg Bool.false_ne_true], ?_⟩
    rw [signed_false, signed_false, Int.natCast_mul, Int.natCast_ediv]
  | true =>
    refine ⟨(u + oneUnits - 1) / oneUnits * oneUnits, by rw [floor, if_pos rfl], ?_⟩
    rw [signed_true, signed_true, Int.natCast_mul, ← Int.neg_mul, neg_ceil_ediv oneUnits_pos]

theorem AtLeast.floor (hm : Representable (a * oneUnits).natAbs) (hx : x.AtLeast (a * oneUnits)) :
    (floor x).AtLeast (a * oneUnits) := by
  cases hx with
  | infinite => exact .infinite
  | @finite s u hu h =>
    obtain ⟨v, hfloor, hv⟩ := floor_finite (s := s) hu
    have hpos : (0 : Int) < oneUnits := Int.natCast_pos.mpr oneUnits_pos
    rw [hfloor]
    refine atLeast_ofRatio hm ?_
    rw [hv]
    exact Int.mul_le_mul_of_nonneg_right ((Int.le_ediv_iff_mul_le hpos).mpr h) (Int.le_of_lt hpos)

/-- A number that is not above a whole one and a half has at most the whole one as its floor. -/
theorem AtMost.floor (hm : Representable (a * oneUnits).natAbs) (hb : b < (a + 1) * oneUnits) (hx : x.AtMost b) :
    (floor x).AtMost (a * oneUnits) := by
  cases hx with
  | infinite => exact .infinite
  | @finite s u hu h =>
    obtain ⟨v, hfloor, hv⟩ := floor_finite (s := s) hu
    have hpos : (0 : Int) < oneUnits := Int.natCast_pos.mpr oneUnits_pos
    rw [hfloor]
    refine atMost_ofRatio hm ?_
    rw [hv]
    refine Int.mul_le_mul_of_nonneg_right (Int.le_of_lt_add_one ?_) (Int.le_of_lt hpos)
    exact (Int.ediv_lt_iff_lt_mul hpos).mpr (Int.lt_of_le_of_lt h hb)

/-! ### One half -/

theorem nearest_mul {den d : Nat} (hd : 0 < d) : nearest (n * d) (den * d) = nearest n den := by
  simp only [nearest, Nat.mul_div_mul_right n den hd, Nat.mul_mod_mul_right, ← Nat.mul_assoc,
    Nat.mul_lt_mul_right hd]

theorem roundUnits_mul {d : Nat} (hd : 0 < d) : roundUnits (n * d) d = roundUnits n 1 := by
  simp only [roundUnits, Nat.mul_div_cancel n hd, Nat.div_one, Nat.one_mul]
  rw [Nat.mul_comm d, nearest_mul hd]

theorem ofRatio_mul {d : Nat} (hd : 0 < d) : ofRatio s (n * d) d = ofRatio s n 1 := by
  simp only [ofRatio, roundUnits_mul hd]

/-- One half has whole units, and so have its small multiples. -/
theorem exists_half : ∃ h, oneUnits = h * 2 ∧ half = ofRatio false h 1 ∧ ∀ m < 2 ^ 53, Representable (m * h) := by
  obtain ⟨e, hone, hoverflow⟩ : ∃ e, oneUnits = 2 ^ e * 2 ∧ overflowUnits = 2 ^ (e + 1025) := by
    have hone : 1074 = 1073 + 1 := rfl
    have hsum : 2098 = 1073 + 1025 := rfl
    unfold oneUnits overflowUnits
    rw [hone, hsum]
    generalize 1073 = e
    exact ⟨e, Nat.pow_succ 2 e, Nat.pow_eq⟩
  refine ⟨2 ^ e, hone, ?_, fun m hm => ⟨?_, dvd_mul_pow hm⟩⟩
  · rw [half, hone, ofRatio_mul (by decide)]
  · rw [hoverflow]
    calc m * 2 ^ e < 2 ^ 53 * 2 ^ e := Nat.mul_lt_mul_of_pos_right hm (Nat.two_pow_pos e)
      _ = 2 ^ (53 + e) := (Nat.pow_add 2 53 e).symm
      _ ≤ 2 ^ (e + 1025) := Nat.pow_le_pow_right (by decide) (by omega)

/-! ### Rounding to whole numbers -/

theorem representable_int (h : b.natAbs < 2 ^ 53) : Representable (b * oneUnits).natAbs := by
  rw [Int.natAbs_mul, Int.natAbs_natCast]
  exact representable_whole h

theorem round_cases (x : Number) : round x = x ∨ round x = floor (x.add half) := by
  cases x with
  | nan => exact Or.inl rfl
  | infinite s => exact Or.inl rfl
  | finite s u hu =>
    by_cases hzero : u = 0
    · exact Or.inl (if_pos hzero)
    · exact Or.inr (if_neg hzero)

theorem AtLeast.round (hb : b.natAbs < 2 ^ 53) (hx : x.AtLeast (b * oneUnits)) :
    (round x).AtLeast (b * oneUnits) := by
  obtain ⟨h, -, hhalf, hfits⟩ := exists_half
  rcases round_cases x with heq | heq
  · rwa [heq]
  · have hpos : half.AtLeast 0 := by
      rw [hhalf]
      refine atLeast_ofRatio ?_ (Int.natCast_nonneg h)
      have hzero := hfits 0 (by omega)
      rwa [Nat.zero_mul] at hzero
    have hsum : (x.add half).AtLeast (b * oneUnits) := by
      have hfits : Representable (b * oneUnits + 0).natAbs := by
        rw [Int.add_zero]
        exact representable_int hb
      have hsum := AtLeast.add hfits hx hpos
      rwa [Int.add_zero] at hsum
    rw [heq]
    exact hsum.floor (representable_int hb)

theorem AtMost.round (hb : b.natAbs < 2 ^ 52) (hx : x.AtMost (b * oneUnits)) :
    (round x).AtMost (b * oneUnits) := by
  obtain ⟨h, hone, hhalf, hfits⟩ := exists_half
  rcases round_cases x with heq | heq
  · rwa [heq]
  · have hsum : b * oneUnits + h = (2 * b + 1) * h := by
      rw [hone, Int.add_mul, Int.one_mul, Int.mul_comm 2 b, Int.mul_assoc b 2, Int.mul_comm 2, Int.natCast_mul]
      rfl
    have hmost : half.AtMost h := by
      rw [hhalf]
      refine atMost_ofRatio ?_ (Int.le_refl _)
      have hone := hfits 1 (by omega)
      rwa [Nat.one_mul] at hone
    have hfloor : b * oneUnits + h < (b + 1) * oneUnits := by
      have hpos := oneUnits_pos
      rw [Int.add_mul, Int.one_mul]
      omega
    rw [heq]
    refine (AtMost.add ?_ hx hmost).floor (representable_int (by omega)) hfloor
    rw [hsum, Int.natAbs_mul, Int.natAbs_natCast]
    exact hfits _ (by omega)

/-! ### Numbers in place of integers -/

theorem signed_ofInt (a : Int) : signed (a < 0) (a.natAbs * oneUnits) = a * oneUnits := by
  rcases Int.lt_or_le a 0 with hneg | hpos
  · rw [decide_eq_true hneg, signed_true, Int.natCast_mul, ← Int.neg_mul, Int.ofNat_natAbs_of_nonpos (Int.le_of_lt hneg),
      Int.neg_neg]
  · rw [decide_eq_false (Int.not_lt.mpr hpos), signed_false, Int.natCast_mul, Int.natAbs_of_nonneg hpos]

/-- Numbers of one value are the same, or they are finite: the two zeros have one value. -/
theorem eq_or_finite_of_equals (h : x.equals y) :
    x = y ∨ ∃ s u hu t v hv, x = finite s u hu ∧ y = finite t v hv ∧ signed s u = signed t v := by
  cases x with
  | nan => cases h
  | infinite s =>
    cases y with
    | nan => cases h
    | infinite t => cases s <;> cases t <;> first | exact Or.inl rfl | cases h
    | finite => cases s <;> cases h
  | finite s u hu =>
    cases y with
    | nan => cases h
    | infinite t => cases t <;> cases h
    | finite t v hv => exact Or.inr ⟨s, u, hu, t, v, hv, rfl, rfl, equals_finite_iff.mp h⟩

theorem AtLeast.of_equals (h : x.equals y) (hy : y.AtLeast a) : x.AtLeast a := by
  rcases eq_or_finite_of_equals h with rfl | ⟨s, u, hu, t, v, hv, rfl, rfl, hsigned⟩
  · exact hy
  · cases hy with
    | finite hy => exact .finite (hsigned ▸ hy)

theorem AtMost.of_equals (h : x.equals y) (hy : y.AtMost a) : x.AtMost a := by
  rcases eq_or_finite_of_equals h with rfl | ⟨s, u, hu, t, v, hv, rfl, rfl, hsigned⟩
  · exact hy
  · cases hy with
    | finite hy => exact .finite (hsigned ▸ hy)

/-- A number that is on the same side of all integers of a magnitude below `m` as the integer `a`. -/
structure StandsFor (m : Nat) (a : Int) (x : Number) : Prop where
  atLeast : ∀ b : Int, b.natAbs < m → b ≤ a → x.AtLeast (b * oneUnits)
  atMost : ∀ b : Int, b.natAbs < m → a ≤ b → x.AtMost (b * oneUnits)

theorem standsFor_of_equals (h : x.equals (ofInt a)) : x.StandsFor (2 ^ 53) a := by
  have hpos : (0 : Int) ≤ oneUnits := Int.natCast_nonneg _
  refine ⟨fun b hb hle => AtLeast.of_equals h ?_, fun b hb hle => AtMost.of_equals h ?_⟩
  · refine atLeast_ofRatio (representable_int hb) ?_
    rw [signed_ofInt]
    exact Int.mul_le_mul_of_nonneg_right hle hpos
  · refine atMost_ofRatio (representable_int hb) ?_
    rw [signed_ofInt]
    exact Int.mul_le_mul_of_nonneg_right hle hpos

theorem StandsFor.round (h : x.StandsFor (2 ^ 53) a) : (round x).StandsFor (2 ^ 52) a where
  atLeast b hb hle := (h.atLeast b (by omega) hle).round (by omega)
  atMost b hb hle := (h.atMost b (by omega) hle).round hb

/-- A sum stands for the sum of two integers of which the first is not too large. -/
theorem StandsFor.add (hx : x.StandsFor (2 ^ 52) a) (hy : y.StandsFor (2 ^ 52) b) (ha : a.natAbs < 2 ^ 51) :
    (x.add y).StandsFor (2 ^ 51 + 1) (a + b) := by
  have hunits (i : Int) : a * oneUnits + (i - a) * oneUnits = i * oneUnits := by
    rw [← Int.add_mul, Int.add_comm, Int.sub_add_cancel]
  refine ⟨fun i hi hle => ?_, fun i hi hle => ?_⟩
  · rw [← hunits i]
    refine (hx.atLeast a (by omega) (Int.le_refl a)).add ?_ (hy.atLeast (i - a) (by omega) (by omega))
    rw [hunits]
    exact representable_int (by omega)
  · rw [← hunits i]
    refine (hx.atMost a (by omega) (Int.le_refl a)).add ?_ (hy.atMost (i - a) (by omega) (by omega))
    rw [hunits]
    exact representable_int (by omega)

/-! ### Comparing with a count -/

theorem AtLeast.mono (h : x.AtLeast b) (hle : a ≤ b) : x.AtLeast a := by
  cases h with
  | infinite => exact .infinite
  | finite h => exact .finite (Int.le_trans hle h)

theorem AtLeast.le (h : x.AtLeast a) (hmost : x.AtMost b) : a ≤ b := by
  cases h with
  | infinite => cases hmost
  | finite h =>
    cases hmost with
    | finite hmost => exact Int.le_trans h hmost

theorem less_finite_iff {hu : Representable u} {hv : Representable v} :
    (finite s u hu).less (finite t v hv) ↔ signed s u < signed t v := by
  simp [less, compare?, Int.compare_eq_lt]

theorem lessOrEqual_finite_iff {hu : Representable u} {hv : Representable v} :
    (finite s u hu).lessOrEqual (finite t v hv) ↔ signed s u ≤ signed t v := by
  rw [lessOrEqual, Bool.or_eq_true, less_finite_iff, equals_finite_iff, Int.le_iff_lt_or_eq]

theorem lessOrEqual_ofNat_iff (hn : n < 2 ^ 53) : x.lessOrEqual (ofNat n) ↔ x.AtMost (n * oneUnits) := by
  rw [ofNat_eq hn]
  cases x with
  | nan => exact iff_of_false Bool.false_ne_true (by rintro ⟨⟩)
  | infinite s =>
    cases s with
    | false => exact iff_of_false Bool.false_ne_true (by rintro ⟨⟩)
    | true => exact iff_of_true rfl .infinite
  | finite s u hu =>
    rw [lessOrEqual_finite_iff, signed_false, Int.natCast_mul]
    exact ⟨.finite, by rintro ⟨h⟩; assumption⟩

theorem ofNat_less_iff (hn : n < 2 ^ 53) : (ofNat n).less x ↔ x.AtLeast (n * oneUnits + 1) := by
  rw [ofNat_eq hn]
  cases x with
  | nan => exact iff_of_false Bool.false_ne_true (by rintro ⟨⟩)
  | infinite s =>
    cases s with
    | false => exact iff_of_true rfl .infinite
    | true => exact iff_of_false Bool.false_ne_true (by rintro ⟨⟩)
  | finite s u hu =>
    rw [less_finite_iff, signed_false, Int.natCast_mul]
    exact ⟨.finite, by rintro ⟨h⟩; assumption⟩

section Count
variable {m : Nat} (h : x.StandsFor m a) (hn : n + 1 < m) (hm : m ≤ 2 ^ 53)
include h hn hm

theorem StandsFor.lessOrEqual_ofNat : x.lessOrEqual (ofNat n) ↔ a ≤ n := by
  rw [lessOrEqual_ofNat_iff (by omega)]
  refine ⟨fun hmost => Int.not_lt.mp fun hlt => ?_, fun hle => h.atMost n (by omega) hle⟩
  have hle := (h.atLeast (n + 1) (by omega) hlt).le hmost
  have hpos := oneUnits_pos
  rw [Int.add_mul] at hle
  omega

theorem StandsFor.ofNat_less : (ofNat n).less x ↔ n < a := by
  rw [ofNat_less_iff (by omega)]
  refine ⟨fun hleast => Int.not_le.mp fun hle => ?_, fun hlt => ?_⟩
  · have hle := hleast.le (h.atMost n (by omega) hle)
    omega
  · refine (h.atLeast (n + 1) (by omega) hlt).mono ?_
    have hpos := oneUnits_pos
    rw [Int.add_mul]
    omega

end Count

end XmlMapping.Number
