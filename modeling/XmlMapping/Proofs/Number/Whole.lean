import Mathlib.Algebra.Ring.Nat
import XmlMapping.Number.Basic

/-! # Whole numbers

A magnitude that is representable is its own rounding. So the whole numbers below `2 ^ 53` are numbers exactly, and
each of them is the number of no other whole number: rounding keeps a larger one at or above `2 ^ 53`. A number has
the value of a positive whole number below `2 ^ 53` only when it is that number. -/

namespace XmlMapping.Number

variable {e m n s u v num : Nat}

/-! ### Powers of two -/

theorem dvd_mul_pow (h : n < 2 ^ s) : 2 ^ ((n * 2 ^ e).log2 - (s - 1)) ∣ n * 2 ^ e := by
  by_cases hzero : n * 2 ^ e = 0
  · rw [hzero]
    exact Nat.dvd_zero _
  · have hlt : n * 2 ^ e < 2 ^ (s + e) := by
      rw [Nat.pow_add]
      exact Nat.mul_lt_mul_of_pos_right h (Nat.two_pow_pos e)
    have hlog : (n * 2 ^ e).log2 < s + e := (Nat.log2_lt hzero).mpr hlt
    exact Nat.dvd_trans (Nat.pow_dvd_pow 2 (by omega)) (Nat.dvd_mul_left _ n)

/-! ### Rounding -/

theorem nearest_of_dvd {den : Nat} (hden : 0 < den) (h : den ∣ num) : nearest num den = num / den := by
  have hrest : 2 * (num % den) < den := by rwa [Nat.mod_eq_zero_of_dvd h]
  rw [nearest, if_pos hrest]

theorem le_nearest (num den : Nat) : num / den ≤ nearest num den := by
  simp only [nearest]
  repeat' split
  all_goals omega

theorem roundUnits_of_representable {units : Nat} (h : Representable units) : roundUnits units 1 = units := by
  have hstep : 0 < Nat.pow 2 (units.log2 - 52) := Nat.two_pow_pos _
  rw [roundUnits, Nat.div_one, Nat.one_mul, nearest_of_dvd hstep h.2]
  exact Nat.div_mul_cancel h.2

/-- Rounding does not lead below a power of two. -/
theorem pow_le_roundUnits (he : 52 ≤ e) (h : 2 ^ e ≤ num) : 2 ^ e ≤ roundUnits num 1 := by
  have hnum : num ≠ 0 := Nat.ne_of_gt (Nat.lt_of_lt_of_le (Nat.two_pow_pos e) h)
  have hlog : e ≤ num.log2 := (Nat.le_log2 hnum).mpr h
  simp only [roundUnits, Nat.div_one, Nat.one_mul, Nat.pow_eq]
  have hwhole : 2 ^ 52 ≤ num / 2 ^ (num.log2 - 52) := by
    rw [Nat.le_div_iff_mul_le (Nat.two_pow_pos _), ← Nat.pow_add, Nat.add_sub_cancel' (Nat.le_trans he hlog)]
    exact Nat.log2_self_le hnum
  calc 2 ^ e ≤ 2 ^ num.log2 := Nat.pow_le_pow_right (by decide) hlog
    _ = 2 ^ 52 * 2 ^ (num.log2 - 52) := by rw [← Nat.pow_add, Nat.add_sub_cancel' (Nat.le_trans he hlog)]
    _ ≤ nearest num (2 ^ (num.log2 - 52)) * 2 ^ (num.log2 - 52) :=
        Nat.mul_le_mul_right _ (Nat.le_trans hwhole (le_nearest _ _))

theorem ofRatio_of_representable (negative : Bool) {units : Nat} (h : Representable units) :
    ofRatio negative units 1 = .finite negative units h := by
  have hround := roundUnits_of_representable h
  rw [ofRatio, dif_pos (by rw [hround]; exact h.1)]
  simp only [hround]

/-! ### Whole numbers in units -/

/-- The magnitude of one as a power of two whose exponent is not evaluated. -/
theorem exists_oneUnits_eq : ∃ e, oneUnits = 2 ^ e ∧ overflowUnits = 2 ^ (e + 1024) := by
  have hsum : 2098 = 1074 + 1024 := rfl
  unfold oneUnits overflowUnits
  rw [hsum]
  generalize 1074 = e
  exact ⟨e, Nat.pow_eq, Nat.pow_eq⟩

theorem oneUnits_pos : 0 < oneUnits := by
  obtain ⟨e, he, -⟩ := exists_oneUnits_eq
  rw [he]
  exact Nat.two_pow_pos e

theorem representable_whole (h : n < 2 ^ 53) : Representable (n * oneUnits) := by
  obtain ⟨e, he, hoverflow⟩ := exists_oneUnits_eq
  rw [Representable, he, hoverflow]
  refine ⟨?_, dvd_mul_pow h⟩
  calc n * 2 ^ e < 2 ^ 53 * 2 ^ e := Nat.mul_lt_mul_of_pos_right h (Nat.two_pow_pos e)
    _ = 2 ^ (53 + e) := (Nat.pow_add 2 53 e).symm
    _ ≤ 2 ^ (e + 1024) := Nat.pow_le_pow_right (by decide) (by omega)

theorem ofNat_eq (h : n < 2 ^ 53) : ofNat n = .finite false (n * oneUnits) (representable_whole h) :=
  ofRatio_of_representable false (representable_whole h)

theorem le_of_ofNat_eq_finite {negative : Bool} {hu : Representable u} (h : 2 ^ 53 ≤ n)
    (heq : ofNat n = .finite negative u hu) : 2 ^ 53 * oneUnits ≤ u := by
  obtain ⟨e, he, -⟩ := exists_oneUnits_eq
  rw [ofNat, ofRatio] at heq
  split at heq
  · obtain ⟨-, rfl⟩ := finite.inj heq
    rw [he, ← Nat.pow_add]
    refine pow_le_roundUnits (by omega) ?_
    rw [Nat.pow_add]
    exact Nat.mul_le_mul_right _ h
  · cases heq

theorem ofNat_inj (hm : m < 2 ^ 53) : ofNat m = ofNat n ↔ m = n := by
  rcases Nat.lt_or_ge n (2 ^ 53) with hn | hn
  · rw [ofNat_eq hm, ofNat_eq hn, finite.injEq, and_iff_right rfl]
    exact Nat.mul_left_inj (Nat.ne_of_gt oneUnits_pos)
  · refine iff_of_false (fun heq => ?_) (Nat.ne_of_lt (Nat.lt_of_lt_of_le hm hn))
    have hle := le_of_ofNat_eq_finite hn (heq.symm.trans (ofNat_eq hm))
    exact absurd (Nat.le_of_mul_le_mul_right hle oneUnits_pos) (Nat.not_le.mpr hm)

/-! ### Values -/

theorem equals_finite_iff {s t : Bool} {hu : Representable u} {hv : Representable v} :
    (finite s u hu).equals (finite t v hv) ↔ signed s u = signed t v := by
  simp [equals, compare?]

/-- Only a positive whole number itself has its value. -/
theorem equals_ofNat_iff {x : Number} (hpos : 0 < n) (hn : n < 2 ^ 53) : x.equals (ofNat n) ↔ x = ofNat n := by
  have hunits : 0 < n * oneUnits := Nat.mul_pos hpos oneUnits_pos
  rw [ofNat_eq hn]
  cases x with
  | nan => simp [equals, compare?]
  | infinite s => cases s <;> simp [equals, compare?]
  | finite s u hu =>
    rw [equals_finite_iff, finite.injEq]
    cases s with
    | false =>
      rw [and_iff_right rfl]
      exact Int.ofNat_inj
    | true =>
      have hne : signed true u ≠ signed false (n * oneUnits) := by
        simp only [signed, if_true, Bool.false_eq_true, if_false]
        omega
      simp [hne]

end XmlMapping.Number
