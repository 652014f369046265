import Mathlib.Algebra.Order.Ring.Int
import Mathlib.Tactic.Lemma

/-!
# Conversions between the floating-point formats

A number of IEEE 754 is a sign, an exponent and a fraction in 32 or 64 bits, and is handled by these bits. `widen`
keeps every number, `narrow` rounds to the nearest one, and to the one with an even fraction between two. A finite
number that is widened is narrowed to itself (`narrow_widen`).
-/

namespace OsterLib.Lib

/-- `n / 2 ^ k`, rounded to the nearest number, or to the even one in the middle between two. -/
def roundShift (n k : Nat) : Nat :=
  let quotient := n / 2 ^ k
  let rest := n % 2 ^ k
  if 2 ^ k < 2 * rest ∨ (2 * rest = 2 ^ k ∧ quotient % 2 = 1) then quotient + 1 else quotient

/-- What a `double` without its sign is narrowed to. A number that is too large becomes infinite, and what is not a
    number becomes quiet. -/
def narrowMagnitude (exponent fraction : Nat) : Nat :=
  if exponent = 2047 then 255 * 2 ^ 23 + if fraction = 0 then 0 else 2 ^ 22 + fraction / 2 ^ 29 % 2 ^ 22
  else if 897 ≤ exponent then min (255 * 2 ^ 23) (roundShift ((exponent - 896) * 2 ^ 52 + fraction) 29)
  else roundShift (if exponent = 0 then fraction else 2 ^ 52 + fraction) (926 - max exponent 1)

/-- The conversion from `double` to `float` -/
def narrow (bits : BitVec 64) : BitVec 32 :=
  let n := bits.toNat
  .ofNat 32 (n / 2 ^ 63 * 2 ^ 31 + narrowMagnitude (n / 2 ^ 52 % 2 ^ 11) (n % 2 ^ 52))

/-- What a `float` without its sign is widened to. A number below the normal ones gets the exponent of its highest
    bit. -/
def widenMagnitude (exponent fraction : Nat) : Nat :=
  if exponent = 255 then 2047 * 2 ^ 52 + if fraction = 0 then 0 else 2 ^ 51 + fraction * 2 ^ 29 % 2 ^ 51
  else if exponent ≠ 0 then (exponent + 896) * 2 ^ 52 + fraction * 2 ^ 29
  else if fraction = 0 then 0
  else (fraction.log2 + 874) * 2 ^ 52 + (fraction - 2 ^ fraction.log2) * 2 ^ (52 - fraction.log2)

/-- The conversion from `float` to `double` -/
def widen (bits : BitVec 32) : BitVec 64 :=
  let n := bits.toNat
  .ofNat 64 (n / 2 ^ 31 * 2 ^ 63 + widenMagnitude (n / 2 ^ 23 % 2 ^ 8) (n % 2 ^ 23))

/-- A float that is neither infinite nor a NaN, by its exponent -/
def IsFinite32 (bits : BitVec 32) : Prop := bits.toNat / 2 ^ 23 % 2 ^ 8 ≠ 255

/-- A double that is neither infinite nor a NaN, by its exponent -/
def IsFinite64 (bits : BitVec 64) : Prop := bits.toNat / 2 ^ 52 % 2 ^ 11 ≠ 2047

/-- Nothing is rounded off a multiple. -/
lemma roundShift_mul (n k : Nat) : roundShift (n * 2 ^ k) k = n := by
  have pos : 0 < 2 ^ k := Nat.two_pow_pos k
  unfold roundShift
  rw [Nat.mul_div_cancel n pos, Nat.mul_mod_left]
  exact if_neg (by omega)

/-- A normal number is narrowed to itself. -/
lemma narrow_normal {exponent fraction : Nat} (pos : exponent ≠ 0) (finite : exponent < 255)
    (small : fraction < 2 ^ 23) :
    narrowMagnitude (exponent + 896) (fraction * 2 ^ 29) = exponent * 2 ^ 23 + fraction := by
  have joined : (exponent + 896 - 896) * 2 ^ 52 + fraction * 2 ^ 29 = (exponent * 2 ^ 23 + fraction) * 2 ^ 29 := by
    omega
  unfold narrowMagnitude
  rw [if_neg (by omega), if_pos (by omega), joined, roundShift_mul]
  exact Nat.min_eq_right (by omega)

/-- So is one below the normal ones. -/
lemma narrow_subnormal {fraction : Nat} (pos : fraction ≠ 0) (small : fraction < 2 ^ 23) :
    narrowMagnitude (fraction.log2 + 874) ((fraction - 2 ^ fraction.log2) * 2 ^ (52 - fraction.log2)) = fraction := by
  have low : fraction.log2 < 23 := (Nat.log2_lt pos).mpr small
  have least : 2 ^ fraction.log2 ≤ fraction := Nat.log2_self_le pos
  have whole : 2 ^ 52 = 2 ^ fraction.log2 * 2 ^ (52 - fraction.log2) := by
    rw [← Nat.pow_add, Nat.add_sub_cancel' (by omega)]
  have joined : 2 ^ 52 + (fraction - 2 ^ fraction.log2) * 2 ^ (52 - fraction.log2) =
      fraction * 2 ^ (52 - fraction.log2) := by
    rw [whole, ← Nat.add_mul, Nat.add_sub_cancel' least]
  have shift : 926 - max (fraction.log2 + 874) 1 = 52 - fraction.log2 := by omega
  unfold narrowMagnitude
  rw [if_neg (by omega), if_neg (by omega), if_neg (by omega), joined, shift]
  exact roundShift_mul _ _

/-- Zero is narrowed to zero. -/
lemma narrow_zero : narrowMagnitude 0 0 = 0 := by
  unfold narrowMagnitude
  rw [if_neg (by decide), if_neg (by decide), if_pos rfl]
  generalize 926 - max 0 1 = shift
  have rounded := roundShift_mul 0 shift
  rwa [Nat.zero_mul] at rounded

/-- The fraction of a subnormal number fits when it is normalised. -/
lemma log2_mul_lt {fraction : Nat} (pos : fraction ≠ 0) (small : fraction < 2 ^ 23) :
    (fraction - 2 ^ fraction.log2) * 2 ^ (52 - fraction.log2) < 2 ^ 52 := by
  have low : fraction.log2 < 23 := (Nat.log2_lt pos).mpr small
  have below : fraction - 2 ^ fraction.log2 < 2 ^ fraction.log2 := by
    have := @Nat.lt_log2_self fraction
    rw [Nat.pow_succ] at this
    omega
  calc (fraction - 2 ^ fraction.log2) * 2 ^ (52 - fraction.log2)
      < 2 ^ fraction.log2 * 2 ^ (52 - fraction.log2) :=
        Nat.mul_lt_mul_of_pos_right below (Nat.two_pow_pos _)
    _ = 2 ^ 52 := by rw [← Nat.pow_add, Nat.add_sub_cancel' (by omega)]

/-- The parts of a magnitude whose fraction is small. -/
lemma narrow_ofParts {sign exponent fraction : Nat} (signed : sign < 2) (exponential : exponent < 2 ^ 11)
    (fractional : fraction < 2 ^ 52) :
    narrow (.ofNat 64 (sign * 2 ^ 63 + (exponent * 2 ^ 52 + fraction))) =
      .ofNat 32 (sign * 2 ^ 31 + narrowMagnitude exponent fraction) := by
  unfold narrow
  have value : (BitVec.ofNat 64 (sign * 2 ^ 63 + (exponent * 2 ^ 52 + fraction))).toNat =
      sign * 2 ^ 63 + (exponent * 2 ^ 52 + fraction) := by
    rw [BitVec.toNat_ofNat]
    exact Nat.mod_eq_of_lt (by omega)
  have top : (sign * 2 ^ 63 + (exponent * 2 ^ 52 + fraction)) / 2 ^ 63 = sign := by omega
  have middle : (sign * 2 ^ 63 + (exponent * 2 ^ 52 + fraction)) / 2 ^ 52 % 2 ^ 11 = exponent := by omega
  have low : (sign * 2 ^ 63 + (exponent * 2 ^ 52 + fraction)) % 2 ^ 52 = fraction := by omega
  rw [value]
  dsimp only
  rw [top, middle, low]

/-- A finite number that is widened is narrowed to itself. -/
theorem narrow_widen {bits : BitVec 32} (finite : IsFinite32 bits) : narrow (widen bits) = bits := by
  have bound := bits.isLt
  have restored : BitVec.ofNat 32 bits.toNat = bits := BitVec.ofNat_toNat 32 bits |>.trans (BitVec.setWidth_eq bits)
  unfold IsFinite32 at finite
  unfold widen
  generalize bits.toNat = n at *
  dsimp only
  have split : n = n / 2 ^ 31 * 2 ^ 31 + (n / 2 ^ 23 % 2 ^ 8 * 2 ^ 23 + n % 2 ^ 23) := by omega
  have signed : n / 2 ^ 31 < 2 := by omega
  have exponential : n / 2 ^ 23 % 2 ^ 8 < 256 := by omega
  have fractional : n % 2 ^ 23 < 2 ^ 23 := by omega
  generalize n / 2 ^ 31 = sign at *
  generalize n / 2 ^ 23 % 2 ^ 8 = exponent at *
  generalize n % 2 ^ 23 = fraction at *
  unfold widenMagnitude
  rw [if_neg finite]
  by_cases normal : exponent ≠ 0
  case pos =>
    rw [if_pos normal, narrow_ofParts signed (by omega) (by omega),
      narrow_normal normal (by omega) fractional, ← split, restored]
  case neg =>
    have zero : exponent = 0 := by omega
    rw [if_neg normal]
    by_cases none : fraction = 0
    case pos =>
      have zeroed := narrow_ofParts signed (show 0 < 2 ^ 11 by decide) (show 0 < 2 ^ 52 by decide)
      rw [if_pos none]
      rw [Nat.zero_mul, Nat.zero_add, narrow_zero] at zeroed
      rw [zeroed, ← restored, split, zero, none, Nat.zero_mul, Nat.zero_add]
    case neg =>
      have low : fraction.log2 < 23 := (Nat.log2_lt none).mpr fractional
      rw [if_neg none, narrow_ofParts signed (by omega) (log2_mul_lt none fractional),
        narrow_subnormal none fractional, ← restored, split, zero, Nat.zero_mul, Nat.zero_add]

end OsterLib.Lib
