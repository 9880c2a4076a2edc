/-!
# Numbers

The numbers of expressions and mappings are those of 64-bit binary floating point. A finite number is
a sign and a magnitude, and every magnitude is a whole number of units of `2 ^ -1074` with at most 53
significant bits. An operation computes exactly on units and then rounds once, to the nearest
representable magnitude and on a tie to the even one; what is too large becomes infinite.
-/

namespace XmlMapping
namespace Number

/-- The magnitude of one, in units. -/
def oneUnits : Nat := Nat.pow 2 1074

/-- The first magnitude, in units, that is too large. -/
def overflowUnits : Nat := Nat.pow 2 2098

/-- A magnitude in units that is not too large and has at most 53 significant bits. -/
def Representable (units : Nat) : Prop :=
  units < overflowUnits ∧ Nat.pow 2 (units.log2 - 52) ∣ units

end Number

/-- A number of 64-bit binary floating point, all values that are not a number taken as one. -/
inductive Number
  | nan
  | infinite (negative : Bool)
  | finite (negative : Bool) (units : Nat) (fits : Number.Representable units)
deriving DecidableEq

namespace Number

/-! ### Rounding -/

/-- The whole number nearest to `num / den`, on a tie the even one. -/
def nearest (num den : Nat) : Nat :=
  let whole := num / den
  let rest := 2 * (num % den)
  if rest < den then whole
  else if den < rest then whole + 1
  else if whole % 2 = 0 then whole
  else whole + 1

/-- The multiple with 53 significant bits that is nearest to `num / den`, on a tie the even one. -/
def roundUnits (num den : Nat) : Nat :=
  let step := Nat.pow 2 ((num / den).log2 - 52)
  nearest num (den * step) * step

theorem nearest_le (num den : Nat) : nearest num den ≤ num / den + 1 := by
  simp only [nearest]
  repeat' split
  all_goals omega

theorem dvd_roundUnits (num den : Nat) :
    Nat.pow 2 ((roundUnits num den).log2 - 52) ∣ roundUnits num den := by
  simp only [Nat.pow_eq]
  generalize hs : (num / den).log2 - 52 = s
  have hlt : num / den < 2 ^ (s + 53) :=
    Nat.lt_of_lt_of_le Nat.lt_log2_self (Nat.pow_le_pow_right (by decide) (by omega))
  have hm : nearest num (den * 2 ^ s) ≤ 2 ^ 53 := by
    refine Nat.le_trans (nearest_le _ _) ?_
    rw [← Nat.div_div_eq_div_mul]
    have := Nat.div_lt_of_lt_mul (show num / den < 2 ^ s * 2 ^ 53 by rw [← Nat.pow_add]; exact hlt)
    omega
  have he : roundUnits num den = nearest num (den * 2 ^ s) * 2 ^ s := by simp only [roundUnits, hs, Nat.pow_eq]
  rw [he]
  generalize nearest num (den * 2 ^ s) = m at hm
  rcases Nat.lt_or_eq_of_le hm with h | rfl
  · by_cases h0 : m * 2 ^ s = 0
    · rw [h0]
      exact Nat.dvd_zero _
    · have hl : (m * 2 ^ s).log2 < 53 + s := by
        rw [Nat.log2_lt h0, Nat.pow_add]
        exact Nat.mul_lt_mul_of_pos_right h (Nat.two_pow_pos s)
      exact Nat.dvd_trans (Nat.pow_dvd_pow 2 (by omega)) (Nat.dvd_mul_left _ _)
  · rw [← Nat.pow_add, Nat.log2_two_pow]
    exact Nat.pow_dvd_pow 2 (by omega)

/-- The number nearest to `num / den` units, with the given sign. -/
def ofRatio (negative : Bool) (num den : Nat) : Number :=
  if h : roundUnits num den < overflowUnits then
    .finite negative (roundUnits num den) ⟨h, dvd_roundUnits num den⟩
  else
    .infinite negative

/-- The zero with the given sign. -/
def zero (negative : Bool) : Number :=
  ofRatio negative 0 1

/-- The number nearest to a count. -/
def ofNat (n : Nat) : Number :=
  ofRatio false (n * oneUnits) 1

/-- The number nearest to an integer. -/
def ofInt (n : Int) : Number :=
  ofRatio (n < 0) (n.natAbs * oneUnits) 1

/-! ### Comparison -/

/-- A magnitude with its sign. -/
def signed (negative : Bool) (units : Nat) : Int :=
  if negative then -(units : Int) else units

/-- How two numbers compare; none when one of them is not a number. -/
def compare? : Number → Number → Option Ordering
  | .nan, _ => none
  | _, .nan => none
  | .infinite s, .infinite t => some (compare (signed s 1) (signed t 1))
  | .infinite s, .finite .. => some (if s then .lt else .gt)
  | .finite .., .infinite t => some (if t then .gt else .lt)
  | .finite s u _, .finite t v _ => some (compare (signed s u) (signed t v))

/-- Whether two numbers have the same value; the two zeros do, and what is not a number never does. -/
def equals (x y : Number) : Bool :=
  compare? x y == some .eq

/-- Whether one number is less than another. -/
def less (x y : Number) : Bool :=
  compare? x y == some .lt

/-- Whether one number is less than another or has the same value. -/
def lessOrEqual (x y : Number) : Bool :=
  less x y || equals x y

/-- Whether a number is a zero. -/
def isZero : Number → Bool
  | .finite _ u _ => u == 0
  | _ => false

/-- Whether a number is none. -/
def isNaN : Number → Bool
  | .nan => true
  | _ => false

/-! ### Arithmetic -/

/-- The number with the other sign. -/
def neg : Number → Number
  | .nan => .nan
  | .infinite s => .infinite (!s)
  | .finite s u h => .finite (!s) u h

/-- The sum. Opposite infinities have none, and a sum of zero is negative only when both parts are. -/
def add : Number → Number → Number
  | .nan, _ => .nan
  | _, .nan => .nan
  | .infinite s, .infinite t => if s == t then .infinite s else .nan
  | .infinite s, .finite .. => .infinite s
  | .finite .., .infinite t => .infinite t
  | .finite s u _, .finite t v _ =>
    let sum := signed s u + signed t v
    ofRatio (if sum = 0 then s && t else sum < 0) sum.natAbs 1

/-- The difference. -/
def sub (x y : Number) : Number :=
  add x (neg y)

/-- The product. -/
def mul : Number → Number → Number
  | .nan, _ => .nan
  | _, .nan => .nan
  | .infinite s, .infinite t => .infinite (s != t)
  | .infinite s, .finite t v _ => if v = 0 then .nan else .infinite (s != t)
  | .finite s u _, .infinite t => if u = 0 then .nan else .infinite (s != t)
  | .finite s u _, .finite t v _ => ofRatio (s != t) (u * v) oneUnits

/-- The quotient. A zero divided by a zero is not a number, and anything else is infinite. -/
def div : Number → Number → Number
  | .nan, _ => .nan
  | _, .nan => .nan
  | .infinite _, .infinite _ => .nan
  | .infinite s, .finite t .. => .infinite (s != t)
  | .finite s .., .infinite t => zero (s != t)
  | .finite s u _, .finite t v _ =>
    if v = 0 then (if u = 0 then .nan else .infinite (s != t))
    else ofRatio (s != t) (u * oneUnits) v

/-- The remainder of the division that truncates its quotient; it has the sign of the dividend. -/
def mod : Number → Number → Number
  | .nan, _ => .nan
  | _, .nan => .nan
  | .infinite _, _ => .nan
  | x, .infinite _ => x
  | .finite s u _, .finite _ v _ => if v = 0 then .nan else ofRatio s (u % v) 1

/-- The greatest whole number that is not above. -/
def floor : Number → Number
  | .finite s u _ =>
    if s then ofRatio true ((u + oneUnits - 1) / oneUnits * oneUnits) 1
    else ofRatio false (u / oneUnits * oneUnits) 1
  | x => x

/-- The least whole number that is not below. -/
def ceiling (x : Number) : Number :=
  neg (floor (neg x))

/-- One half. -/
def half : Number :=
  ofRatio false oneUnits 2

/-- The nearest whole number, computed as the floor of the sum with one half. Zeros and what is not
    finite stay as they are. -/
def round (x : Number) : Number :=
  match x with
  | .finite _ u _ => if u = 0 then x else floor (add x half)
  | _ => x

/-! ### The word -/

/-- The 64-bit word that holds a number; what is not a number has the quiet word. -/
def toBits : Number → Nat
  | .nan => 0x7ff8000000000000
  | .infinite s => (if s then 0x8000000000000000 else 0) + 0x7ff0000000000000
  | .finite s u _ =>
    let exponent := u.log2 - 52
    let normal := 0x10000000000000
    (if s then 0x8000000000000000 else 0) +
      (if u < normal then u else exponent * normal + u / Nat.pow 2 exponent)

end Number
end XmlMapping
