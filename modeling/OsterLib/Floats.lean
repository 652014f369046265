import Mathlib.Data.Int.Log
import Mathlib.Data.Rat.Floor
import Mathlib.Tactic.Linarith
import Mathlib.Tactic.Ring
import Mathlib.Tactic.FieldSimp

/-!
# Numbers of other formats

`int_power`, `ibm2flt` and `flt2ieee`. Every `double` that the last two compute is exact, so that they are handled in
rational numbers: the powers of 16 have exponents of at most 64, and a fraction has 24 bits.

`ibm2flt` gives the number that the four bytes stand for (`ibm2flt_value`). `flt2ieee` writes the bytes of the number
that it is given if and only if this is a normal number or a zero without a sign (`flt2ieee_iff`), as its comment on
subnormal numbers says.
-/

namespace OsterLib.Floats

/-! ## Powers -/

section power

/-- The loop of `int_power` and `ibm2flt`, which takes a power by the bits of its exponent -/
def powerLoop {M : Type*} [Monoid M] (value x : M) (y : Nat) : M :=
  if y = 0 then value
  else powerLoop (if y % 2 = 1 then value * x else value) (x * x) (y / 2)
  termination_by y

/-- The loop multiplies by the power. -/
lemma powerLoop_eq {M : Type*} [Monoid M] (value x : M) (y : Nat) : powerLoop value x y = value * x ^ y := by
  induction value, x, y using powerLoop.induct with
  | case1 value x => rw [powerLoop, if_pos rfl, pow_zero, mul_one]
  | case2 value x y nonzero ih =>
    have squares : (x * x) ^ (y / 2) = x ^ (2 * (y / 2)) := by rw [← sq, ← pow_mul]
    rw [powerLoop, if_neg nonzero]
    refine ih.trans ?_
    rcases Nat.mod_two_eq_zero_or_one y with even | odd
    · have whole : 2 * (y / 2) = y := by omega
      rw [dif_neg (by omega), squares, whole]
    · have whole : 2 * (y / 2) + 1 = y := by omega
      rw [dif_pos odd, squares, mul_assoc, ← pow_succ', whole]

/-- The loop computes the power. -/
lemma powerLoop_one {M : Type*} [Monoid M] (x : M) (y : Nat) : powerLoop 1 x y = x ^ y := by
  rw [powerLoop_eq, one_mul]

/-- Rounding is left out here. -/
def intPower {K : Type*} [DivisionRing K] (x : K) (y : Int) : K :=
  if y < 0 then powerLoop 1 (1 / x) (-y).toNat else powerLoop 1 x y.toNat

/-- The power of an integer exponent -/
lemma intPower_eq {K : Type*} [DivisionRing K] (x : K) (y : Int) : intPower x y = x ^ y := by
  unfold intPower
  split
  case isTrue negative =>
    obtain ⟨n, rfl⟩ : ∃ n : Nat, y = -n := ⟨(-y).toNat, by omega⟩
    rw [powerLoop_one, neg_neg, Int.toNat_natCast, one_div, inv_pow, zpow_neg, zpow_natCast]
  case isFalse nonnegative =>
    obtain ⟨n, rfl⟩ : ∃ n : Nat, y = n := ⟨y.toNat, by omega⟩
    rw [powerLoop_one, Int.toNat_natCast, zpow_natCast]

end power

/-! ## The hexadecimal format -/

/-- `ibm2flt` -/
def ibm2flt (ibm : Vector UInt8 4) : ℚ :=
  let mant := ibm[1].toNat * 2 ^ 16 + ibm[2].toNat * 2 ^ 8 + ibm[3].toNat
  if mant = 0 then 0
  else
    let power : Int := (ibm[0].toNat % 128 : Nat) - 64
    let value : ℚ := powerLoop 1 16 power.natAbs
    let value := if power < 0 then 1 / value else value
    let value := value * mant / 16777216
    if ibm[0].toNat / 128 = 0 then value else -value

/-- A sign, seven bits for a power of 16, from -64 on, and 24 bits behind the point -/
def ibmValue (ibm : Vector UInt8 4) : ℚ :=
  (-1) ^ (ibm[0].toNat / 128) * ((ibm[1].toNat * 2 ^ 16 + ibm[2].toNat * 2 ^ 8 + ibm[3].toNat : Nat) / 2 ^ 24) *
    16 ^ ((ibm[0].toNat % 128 : Nat) - 64 : Int)

/-- Every four bytes are converted to their value. -/
theorem ibm2flt_value (ibm : Vector UInt8 4) : ibm2flt ibm = ibmValue ibm := by
  have scaled (power : Int) : (if power < 0 then 1 / powerLoop 1 16 power.natAbs else powerLoop 1 16 power.natAbs) =
      (16 : ℚ) ^ power := by
    rw [powerLoop_one]
    split
    case isTrue negative =>
      obtain ⟨n, rfl⟩ : ∃ n : Nat, power = -n := ⟨(-power).toNat, by omega⟩
      rw [Int.natAbs_neg, Int.natAbs_natCast, one_div, zpow_neg, zpow_natCast]
    case isFalse nonnegative =>
      obtain ⟨n, rfl⟩ : ∃ n : Nat, power = n := ⟨power.toNat, by omega⟩
      rw [Int.natAbs_natCast, zpow_natCast]
  have small : ibm[0].toNat < 256 := ibm[0].toNat_lt
  unfold ibm2flt ibmValue
  generalize ibm[1].toNat * 2 ^ 16 + ibm[2].toNat * 2 ^ 8 + ibm[3].toNat = mant
  dsimp only
  rw [scaled]
  generalize (16 : ℚ) ^ ((ibm[0].toNat % 128 : Nat) - 64 : Int) = scale
  by_cases zero : mant = 0
  · rw [if_pos zero, zero, Nat.cast_zero, zero_div, mul_zero, zero_mul]
  · rw [if_neg zero]
    have sign : ibm[0].toNat / 128 = 0 ∨ ibm[0].toNat / 128 = 1 := by omega
    rcases sign with positive | negative
    · rw [if_pos positive, positive, pow_zero]
      ring
    · rw [if_neg (by omega), negative, pow_one]
      ring

/-! ## Single precision -/

/-- A finite `float` -/
structure Single where
  negative : Bool
  exponent : Nat
  fraction : Nat
  finite : exponent < 255
  inside : fraction < 2 ^ 23
  deriving DecidableEq, Repr

namespace Single

/-- The significand of a float, with its hidden bit where it is normal -/
def significand (x : Single) : Nat := if x.exponent = 0 then x.fraction else 2 ^ 23 + x.fraction

/-- The absolute value of a float -/
def magnitude (x : Single) : ℚ := x.significand * 2 ^ ((max x.exponent 1 : Nat) - 150 : Int)

/-- The value of a float -/
def value (x : Single) : ℚ := if x.negative then -x.magnitude else x.magnitude

/-- The sign in the first byte -/
def signBit (x : Single) : Nat := if x.negative then 128 else 0

/-- The bytes of a `float`, the most significant one first -/
def bytes (x : Single) : List UInt8 :=
  [x.signBit + x.exponent / 2, x.exponent % 2 * 128 + x.fraction / 2 ^ 16, x.fraction / 2 ^ 8 % 256,
    x.fraction % 256].map .ofNat

/-- A significand has 24 bits. -/
lemma significand_lt (x : Single) : x.significand < 2 ^ 24 := by
  have inside := x.inside
  unfold significand
  split
  · omega
  · omega

variable {x : Single}

/-- A float whose significand is positive is not zero. -/
lemma magnitude_pos (pos : 0 < x.significand) : 0 < x.magnitude :=
  mul_pos (Nat.cast_pos.mpr pos) (zpow_pos two_pos _)

/-- A float whose significand is positive has a value other than zero. -/
lemma value_ne_zero (pos : 0 < x.significand) : x.value ≠ 0 := by
  unfold value
  split
  · exact neg_ne_zero.mpr (magnitude_pos pos).ne'
  · exact (magnitude_pos pos).ne'

/-- The sign and the number without it -/
lemma value_signed (pos : 0 < x.significand) :
    (if x.value < 0 then (128, -x.value) else (0, x.value)) = (x.signBit, x.magnitude) := by
  have positive := magnitude_pos pos
  unfold value signBit
  cases x.negative with
  | true => rw [if_pos rfl, if_pos (neg_neg_of_pos positive), neg_neg, if_pos rfl]
  | false => simp only [Bool.false_eq_true, if_false, if_neg (not_lt_of_gt positive)]

end Single

/-- `frexp` of a positive number: the number between a half and one, and the exponent -/
def frexp (x : ℚ) : ℚ × Int := (x / 2 ^ (Int.log 2 x + 1), Int.log 2 x + 1)

/-- `flt2ieee` -/
def flt2ieee (x : Single) : List UInt8 :=
  if x.value = 0 then [0, 0, 0, 0].map .ofNat
  else
    let (sign, value) := if x.value < 0 then (128, -x.value) else (0, x.value)
    let (mant, exp) := frexp value
    let umant := ⌊mant * 16777216 + 1 / 2⌋₊
    let (umant, exp) := if 16777216 ≤ umant then (umant / 2, exp + 1) else (umant, exp)
    let exp := exp - 1 + 127
    if exp < 0 then [sign, 0, 0, 0].map .ofNat
    else if 255 < exp then [sign + 127, 128, 0, 0].map .ofNat
    else
      [sign + exp.toNat / 2, exp.toNat % 2 * 128 + umant / 2 ^ 16 % 128, umant / 2 ^ 8 % 256, umant % 256].map .ofNat

/-- The logarithm of a number that is scaled by a power of two -/
lemma log_scaled {m : Nat} (pos : 0 < m) (k : Int) : Int.log 2 (m * 2 ^ k : ℚ) = Nat.log 2 m + k := by
  have scale : (0 : ℚ) < 2 ^ k := zpow_pos two_pos k
  have positive : (0 : ℚ) < m * 2 ^ k := mul_pos (Nat.cast_pos.mpr pos) scale
  have low : ((2 : Nat) : ℚ) ^ (Nat.log 2 m + k : Int) ≤ m * 2 ^ k := by
    rw [Nat.cast_two, zpow_add₀ two_ne_zero, zpow_natCast]
    refine mul_le_mul_of_nonneg_right ?_ scale.le
    exact_mod_cast Nat.pow_log_le_self 2 pos.ne'
  have high : (m * 2 ^ k : ℚ) < ((2 : Nat) : ℚ) ^ (Nat.log 2 m + k + 1 : Int) := by
    rw [Nat.cast_two, add_right_comm, zpow_add₀ two_ne_zero]
    refine mul_lt_mul_of_pos_right ?_ scale
    exact_mod_cast Nat.lt_pow_succ_log_self Nat.one_lt_two m
  refine le_antisymm (Int.lt_add_one_iff.mp ?_) ?_
  · exact (Int.lt_zpow_iff_log_lt Nat.one_lt_two positive).mp high
  · exact (Int.zpow_le_iff_le_log Nat.one_lt_two positive).mp low

/-- A number is divided into its fraction and its exponent. -/
lemma frexp_scaled {m : Nat} (pos : 0 < m) (k : Int) :
    frexp (m * 2 ^ k) = ((m : ℚ) / 2 ^ (Nat.log 2 m + 1), (Nat.log 2 m + k + 1 : Int)) := by
  unfold frexp
  rw [log_scaled pos]
  refine Prod.ext ?_ rfl
  dsimp only
  rw [add_right_comm, zpow_add₀ two_ne_zero, ← Nat.cast_succ, zpow_natCast]
  exact mul_div_mul_right _ _ (zpow_ne_zero k two_ne_zero)

/-- The fraction with all its 24 bits -/
lemma floor_scaled {m : Nat} (small : Nat.log 2 m ≤ 23) :
    ⌊(m : ℚ) / 2 ^ (Nat.log 2 m + 1) * 16777216 + 1 / 2⌋₊ = m * 2 ^ (23 - Nat.log 2 m) := by
  have whole : (m : ℚ) / 2 ^ (Nat.log 2 m + 1) * 16777216 = (m * 2 ^ (23 - Nat.log 2 m) : Nat) := by
    have bits : (16777216 : ℚ) = 2 ^ (23 - Nat.log 2 m) * 2 ^ (Nat.log 2 m + 1) := by
      rw [← pow_add, show 23 - Nat.log 2 m + (Nat.log 2 m + 1) = 24 by omega]
      norm_num
    rw [bits, Nat.cast_mul, Nat.cast_pow, Nat.cast_two]
    field_simp
  rw [whole]
  have half : (0 : ℚ) < 1 / 2 := by norm_num
  refine (Nat.floor_eq_iff (by positivity)).mpr ⟨?_, ?_⟩
  · exact le_add_of_nonneg_right half.le
  · exact add_lt_add_right (by norm_num) _

/-- A significand that is shifted to the front has 24 bits. -/
lemma scaled_lt {m : Nat} (small : Nat.log 2 m ≤ 23) : m * 2 ^ (23 - Nat.log 2 m) < 16777216 := by
  have less : m < 2 ^ (Nat.log 2 m + 1) := Nat.lt_pow_succ_log_self Nat.one_lt_two m
  calc m * 2 ^ (23 - Nat.log 2 m)
    _ < 2 ^ (Nat.log 2 m + 1) * 2 ^ (23 - Nat.log 2 m) := Nat.mul_lt_mul_of_pos_right less (Nat.two_pow_pos _)
    _ = 16777216 := by rw [← pow_add, show Nat.log 2 m + 1 + (23 - Nat.log 2 m) = 24 by omega]; norm_num

/-- What `flt2ieee` writes of a number that is not zero -/
lemma flt2ieee_nonzero {x : Single} (pos : 0 < x.significand) :
    let log := Nat.log 2 x.significand
    let umant := x.significand * 2 ^ (23 - log)
    let exp := log + max x.exponent 1
    flt2ieee x = if exp < 23 then [x.signBit, 0, 0, 0].map .ofNat
      else [x.signBit + (exp - 23) / 2, (exp - 23) % 2 * 128 + umant / 2 ^ 16 % 128, umant / 2 ^ 8 % 256,
        umant % 256].map .ofNat := by
  intro log umant exp
  have finite := x.finite
  have small : log ≤ 23 := Nat.lt_succ_iff.mp (Nat.log_lt_of_lt_pow pos.ne' x.significand_lt)
  have exponent : (log + ((max x.exponent 1 : Nat) - 150 : Int) + 1 - 1 + 127) = (exp : Int) - 23 := by
    rw [show (exp : Int) = log + (max x.exponent 1 : Nat) from Nat.cast_add _ _]
    ring
  unfold flt2ieee
  rw [if_neg (Single.value_ne_zero pos), Single.value_signed pos]
  dsimp only
  rw [Single.magnitude, frexp_scaled pos]
  dsimp only
  rw [floor_scaled small, if_neg (Nat.not_le.mpr (scaled_lt small))]
  dsimp only
  rw [exponent]
  by_cases tiny : exp < 23
  · rw [if_pos (by omega), if_pos tiny]
  · have natural : ((exp : Int) - 23).toNat = exp - 23 := by omega
    rw [if_neg (by omega), if_neg (by omega), if_neg tiny, natural]

/-- Bytes are equal exactly if their numbers are modulo 256. -/
lemma map_ofNat_inj (a b c d a' b' c' d' : Nat) :
    [a, b, c, d].map UInt8.ofNat = [a', b', c', d'].map UInt8.ofNat ↔
      a % 256 = a' % 256 ∧ b % 256 = b' % 256 ∧ c % 256 = c' % 256 ∧ d % 256 = d' % 256 := by
  simp [← UInt8.toNat_inj]

/-- The bytes are those of the number if and only if it is normal, or a zero without a sign. -/
theorem flt2ieee_iff (x : Single) :
    flt2ieee x = x.bytes ↔ x.exponent ≠ 0 ∨ (x.fraction = 0 ∧ x.negative = false) := by
  have inside := x.inside
  have sign : x.signBit = if x.negative then 128 else 0 := rfl
  by_cases normal : x.exponent = 0
  · have significand : x.significand = x.fraction := if_pos normal
    rw [or_iff_right (not_not.mpr normal), Single.bytes, normal]
    by_cases zero : x.fraction = 0
    · have value : x.value = 0 := by
        rw [Single.value, Single.magnitude, significand, zero, Nat.cast_zero, zero_mul, neg_zero, ite_self]
      rw [flt2ieee, if_pos value, map_ofNat_inj, zero]
      cases negative : x.negative with
      | true =>
        rw [negative, if_pos rfl] at sign
        refine iff_of_false (fun same => ?_) fun both => nomatch both.2
        omega
      | false =>
        rw [negative, if_neg nofun] at sign
        refine iff_of_true ?_ ⟨rfl, rfl⟩
        omega
    · -- a bit of the fraction is lost or moved
      have pos : 0 < x.significand := by omega
      refine iff_of_false (fun same => ?_) fun both => zero both.1
      have spec := (flt2ieee_nonzero pos).symm.trans same
      have least : 2 ^ Nat.log 2 x.significand ≤ x.significand := Nat.pow_log_le_self 2 pos.ne'
      have log : Nat.log 2 x.significand < 23 := Nat.log_lt_of_lt_pow pos.ne' (by omega)
      rw [normal] at spec
      split at spec
      case isTrue tiny =>
        rw [map_ofNat_inj] at spec
        omega
      case isFalse high =>
        have first : Nat.log 2 x.significand = 22 := by omega
        rw [map_ofNat_inj, first, significand] at spec
        rw [first] at least
        omega
  · have significand : x.significand = 2 ^ 23 + x.fraction := if_neg normal
    have pos : 0 < x.significand := by omega
    have log : Nat.log 2 x.significand = 23 := Nat.log_eq_of_pow_le_of_lt_pow (by omega) (by omega)
    refine iff_of_true ?_ (.inl normal)
    refine (flt2ieee_nonzero pos).trans ?_
    rw [log, if_neg (by omega), Single.bytes, map_ofNat_inj, significand]
    have exponent : 23 + max x.exponent 1 - 23 = x.exponent := by omega
    rw [exponent]
    omega

end OsterLib.Floats
