import OsterLib.Lib.Scale
import OsterLib.Serialization.Hosts
import Mathlib.Data.Int.ModEq

/-!
# Durations of any period

A duration or a time point is encoded as a number of nanoseconds in `int64_t`, which `duration_cast` computes
when it is written and takes back when it is read. Nothing is checked: a count of a period that is not a
number of nanoseconds is truncated, and a large count of a long period leaves the range of `int64_t`. The
duration is returned without an overflow if and only if it is a whole number of nanoseconds in that range
(`duration_returned_iff`).
-/

namespace OsterLib.Serialization
open Lib StreamSerializer SerialType

/-! ## Representations and periods -/

/-- The integer type that a duration counts its periods in. -/
structure Rep where
  size : Nat
  signed : Bool
  sizes : size = 1 ∨ size = 2 ∨ size = 4 ∨ size = 8

/-- A period of `num / den` nanoseconds, reduced as a `std::ratio` is. -/
structure Period where
  num : Nat
  den : Nat
  num_pos : 0 < num
  den_pos : 0 < den
  num_lt : num < 2 ^ 63
  den_lt : den < 2 ^ 63
  coprime : num.Coprime den

/-- A number that fits `int64_t` -/
def InInt64 (v : Int) : Prop := -2 ^ 63 ≤ v ∧ v < 2 ^ 63

instance (v : Int) : Decidable (InInt64 v) := inferInstanceAs (Decidable (_ ∧ _))

namespace Rep
variable (r : Rep)

/-- The common type of the representation, `int64_t` and `intmax_t` is `uint64_t`; it is `int64_t` otherwise. -/
def wide : Bool := !r.signed && r.size = 8

/-- The number of periods. -/
def value (x : BitVec (8 * r.size)) : Int := if r.signed then x.toInt else x.toNat

/-- A number of the common type. -/
def common (count : BitVec 64) : Int := if r.wide then count.toNat else count.toInt

/-- The conversion to the common type. -/
def extend (x : BitVec (8 * r.size)) : BitVec 64 := if r.signed then x.signExtend 64 else x.setWidth 64

/-- `duration_cast` by the factor `num / den`, computed in the common type. -/
def cast (num den : Nat) (count : BitVec 64) : BitVec 64 :=
  if r.wide then count * BitVec.ofNat 64 num / BitVec.ofNat 64 den else durationCast num den count

/-- `duration_cast` multiplies a count by a factor, where that is not one, within the range of `int64_t`. -/
def Fits (factor : Nat) (count : BitVec 64) : Prop := factor = 1 ∨ InInt64 (r.common count * factor)

/-- `duration_cast` to nanoseconds -/
def toNanoseconds (p : Period) (x : BitVec (8 * r.size)) : BitVec 64 := r.cast p.num p.den (r.extend x)

/-- `duration_cast` from nanoseconds -/
def ofNanoseconds (p : Period) (count : BitVec 64) : BitVec (8 * r.size) :=
  (r.cast p.den p.num count).setWidth _

end Rep

/-- A duration, or a time point by its time since the epoch. -/
def counted (r : Rep) (p : Period) : SerialType := duration r.size (r.toNanoseconds p) (r.ofNanoseconds p)

/-- Signed representations are converted in `int64_t`. -/
lemma counted_eq_chrono {r : Rep} (signed : r.signed = true) (p : Period) :
    counted r p = chrono r.size p.num p.den := by
  have narrow : r.wide = false := by
    unfold Rep.wide
    rw [signed]
    rfl
  have forth : r.toNanoseconds p = fun x => durationCast p.num p.den (x.signExtend 64) := by
    funext x
    unfold Rep.toNanoseconds Rep.cast Rep.extend
    rw [narrow, signed]
    rfl
  have back : r.ofNanoseconds p = fun count => (durationCast p.den p.num count).setWidth _ := by
    funext count
    unfold Rep.ofNanoseconds Rep.cast
    rw [narrow]
    rfl
  rw [chrono_eq_duration, counted, forth, back]

/-- The periods of `std::chrono::seconds` and `std::chrono::years`. -/
def Period.seconds : Period := ⟨10 ^ 9, 1, by decide, by decide, by decide, by decide, Nat.coprime_one_right _⟩

/-- The average Gregorian year of `std::chrono` -/
def Period.years : Period :=
  ⟨31556952 * 10 ^ 9, 1, by decide, by decide, by decide, by decide, Nat.coprime_one_right _⟩

/-- Their representation. -/
def Rep.int64 : Rep := ⟨8, true, by decide⟩

/-! ## The conversions as integers -/

/-- A number that fits is not wrapped. -/
lemma InInt64.bmod {v : Int} (within : InInt64 v) : v.bmod (2 ^ 64) = v := by
  unfold InInt64 at within
  apply Int.bmod_eq_of_le_mul_two
  · omega
  · omega

/-- A count of 64 bits fits. -/
lemma inInt64_toInt (count : BitVec 64) : InInt64 count.toInt :=
  ⟨BitVec.le_toInt count, BitVec.toInt_lt⟩

/-- A quotient of a number that fits does too. -/
lemma InInt64.tdiv {v : Int} (within : InInt64 v) (den : Nat) : InInt64 (v.tdiv den) := by
  have between := tdiv_between v den
  unfold InInt64 at within ⊢
  omega

/-- A small number is not negative. -/
lemma toInt_ofNat_lt {n : Nat} (lt : n < 2 ^ 63) : (BitVec.ofNat 64 n).toInt = n := by
  rw [BitVec.toInt_ofNat']
  apply InInt64.bmod
  unfold InInt64
  omega

/-- In `int64_t` the product is exact, and so is the quotient. -/
lemma toInt_durationCast {num den : Nat} (numLt : num < 2 ^ 63) (denLt : den < 2 ^ 63) {count : BitVec 64}
    (within : InInt64 (count.toInt * num)) : (durationCast num den count).toInt = scale num den count.toInt := by
  unfold durationCast scale
  rw [BitVec.toInt_sdiv, BitVec.toInt_mul, toInt_ofNat_lt numLt, toInt_ofNat_lt denLt, within.bmod]
  exact (within.tdiv den).bmod

namespace Rep
variable (r : Rep)

/-- A representation has 64 bits or fewer. -/
lemma bits_le : 8 * r.size ≤ 64 := by
  have sizes := r.sizes
  omega

/-- The value is not changed by extending it. -/
lemma common_extend (x : BitVec (8 * r.size)) : r.common (r.extend x) = r.value x := by
  have le := r.bits_le
  have lt := x.isLt
  have same : (x.setWidth 64).toNat = x.toNat := BitVec.toNat_setWidth_of_le le
  unfold common extend value wide
  cases signed : r.signed with
  | true => exact BitVec.toInt_signExtend_of_le le
  | false =>
    by_cases eight : r.size = 8
    · simp [eight, same]
    · -- a narrower number without a sign is one of `int64_t`
      have few : r.size ≤ 4 := by
        have sizes := r.sizes
        omega
      have small : 2 ^ (8 * r.size) ≤ 2 ^ 32 := Nat.pow_le_pow_right (by decide) (by omega)
      simp only [eight, decide_false, Bool.and_false, Bool.false_eq_true, if_false]
      rw [BitVec.toInt_eq_toNat_of_lt (by omega), same]

/-- A count is the low bits of its value. -/
lemma ofInt_common (count : BitVec 64) : BitVec.ofInt 64 (r.common count) = count := by
  unfold common
  split
  · rw [BitVec.ofInt_natCast, BitVec.ofNat_toNat, BitVec.setWidth_eq]
  · rw [BitVec.ofInt_toInt]

/-- Where nothing overflows, `duration_cast` scales the number. -/
lemma common_cast {num den : Nat} (numLt : num < 2 ^ 63) (denLt : den < 2 ^ 63) {count : BitVec 64}
    (fits : r.Fits num count) : r.common (r.cast num den count) = scale num den (r.common count) := by
  unfold Fits InInt64 at fits
  unfold cast scale
  unfold common at fits ⊢
  cases wide : r.wide with
  | true =>
    have lt := count.isLt
    have product : count.toNat * num < 2 ^ 64 := by
      rcases fits with one | within
      · rw [one, Nat.mul_one]
        exact lt
      · rw [wide] at within
        have upper := within.2
        simp only [if_true] at upper
        rw [← Int.natCast_mul] at upper
        omega
    simp only [if_true]
    rw [BitVec.toNat_udiv, BitVec.toNat_mul, BitVec.toNat_ofNat, BitVec.toNat_ofNat,
      Nat.mod_eq_of_lt (show num < 2 ^ 64 by omega), Nat.mod_eq_of_lt (show den < 2 ^ 64 by omega),
      Nat.mod_eq_of_lt product]
    rfl
  | false =>
    rw [wide] at fits
    refine toInt_durationCast numLt denLt ?_
    rcases fits with one | within
    · rw [one, Int.natCast_one, Int.mul_one]
      exact inInt64_toInt count
    · exact within

/-- A value is its unsigned one modulo the power of its width. -/
lemma toInt_modEq {w : Nat} (x : BitVec w) : x.toInt ≡ x.toNat [ZMOD 2 ^ w] := by
  have same := congrArg (· % ((2 ^ w : Nat) : Int)) (BitVec.toInt_eq_toNat_bmod x)
  simp only [Int.bmod_emod] at same
  rw [Int.natCast_pow] at same
  exact same

/-- The common count is the unsigned one modulo the power of its width. -/
lemma common_modEq (count : BitVec 64) : r.common count ≡ count.toNat [ZMOD 2 ^ (8 * r.size)] := by
  unfold common
  split
  · exact Int.ModEq.rfl
  · exact (toInt_modEq count).of_dvd (pow_dvd_pow 2 r.bits_le)

/-- The value is the unsigned one modulo the power of its width. -/
lemma value_modEq (x : BitVec (8 * r.size)) : r.value x ≡ x.toNat [ZMOD 2 ^ (8 * r.size)] := by
  unfold value
  split
  · exact toInt_modEq x
  · exact Int.ModEq.rfl

/-- The bytes of the representation are those of a number of the common type if the numbers agree in them. -/
lemma setWidth_eq_iff (count : BitVec 64) (x : BitVec (8 * r.size)) :
    count.setWidth _ = x ↔ r.common count ≡ r.value x [ZMOD 2 ^ (8 * r.size)] := by
  have bytes : r.common count ≡ r.value x [ZMOD 2 ^ (8 * r.size)] ↔
      (count.toNat : Int) ≡ x.toNat [ZMOD 2 ^ (8 * r.size)] :=
    ⟨fun same => ((r.common_modEq count).symm.trans same).trans (r.value_modEq x),
      fun same => ((r.common_modEq count).trans same).trans (r.value_modEq x).symm⟩
  rw [bytes, ← BitVec.toNat_inj, BitVec.toNat_setWidth]
  have modulus : ((2 : Int) ^ (8 * r.size)) = ((2 ^ (8 * r.size) : Nat) : Int) := (Int.natCast_pow 2 _).symm
  rw [modulus, Int.natCast_modEq_iff]
  unfold Nat.ModEq
  rw [Nat.mod_eq_of_lt x.isLt]

/-- A value is smaller than the power of its width. -/
lemma natAbs_value_lt (x : BitVec (8 * r.size)) : (r.value x).natAbs < 2 ^ (8 * r.size) := by
  have lt := x.isLt
  unfold value
  split
  · have least := BitVec.le_two_mul_toInt (x := x)
    have most := BitVec.two_mul_toInt_lt (x := x)
    have modulus : ((2 : Int) ^ (8 * r.size)) = ((2 ^ (8 * r.size) : Nat) : Int) := (Int.natCast_pow 2 _).symm
    rw [modulus] at least most
    omega
  · exact lt

end Rep

/-! ## Returned durations -/

/-- The count of nanoseconds that is read from its bytes. -/
def readCount (f : Format) (count : BitVec 64) : BitVec 64 := BitVec.ofNat 64 (readWord f (wordBytes f 8 count.toNat))

/-- A count is read as it was written. -/
lemma readCount_symmetric {f : Format} (symmetric : f.Symmetric) (count : BitVec 64) : readCount f count = count := by
  have lt := count.isLt
  unfold readCount
  rw [readWord_wordBytes f symmetric, Nat.mod_eq_of_lt (by omega), BitVec.ofNat_toNat, BitVec.setWidth_eq]

/-- Neither conversion of a duration multiplies beyond the range of `int64_t`. -/
def Rep.NoOverflow (r : Rep) (p : Period) (f : Format) (x : BitVec (8 * r.size)) : Prop :=
  r.Fits p.num (r.extend x) ∧ r.Fits p.den (readCount f (r.toNanoseconds p x))

/-- The count that the bytes of a number of nanoseconds stand for backwards. -/
def Rep.swapped (r : Rep) (count : Int) : Int :=
  r.common (BitVec.ofNat 64 (byteswap 8 (BitVec.ofInt 64 count).toNat))

/-- A whole number of nanoseconds in the range of `int64_t`. A period of one nanosecond is not multiplied. -/
def Period.Exact (p : Period) (v : Int) : Prop :=
  (p.den : Int) ∣ v ∧ (p.num = 1 ∧ p.den = 1 ∨ InInt64 (v * p.num))

/-- The number of nanoseconds with its bytes swapped happens to be, but for what the division drops and the
    representation cuts off, that of the same duration. -/
def Rep.Coincides (r : Rep) (p : Period) (v : Int) : Prop :=
  let count := r.swapped (scale p.num p.den v)
  (p.num = 1 ∨ InInt64 (v * p.num)) ∧ (p.den = 1 ∨ InInt64 (count * p.den)) ∧
    scale p.den p.num count ≡ v [ZMOD 2 ^ (8 * r.size)]

section returned
variable {r : Rep} {p : Period} {f : Format}

/-- A duration is set to the count that is read, in its own periods. -/
lemma counted_gives_iff {x : BitVec (8 * r.size)} {s : StreamSerializer Byte}
    (loaded : Loaded ((counted r p).encode f x) s) (old y : BitVec (8 * r.size)) :
    (counted r p).Gives f old s y ↔ r.ofNanoseconds p (readCount f (r.toNanoseconds p x)) = y := by
  obtain ⟨ready, _, rest, left⟩ := loaded.ready
  obtain ⟨t, run, consumes⟩ := ready.enter.deserializeNumeric left (wordBytes_length f 8 _)
    (fun bytes => BitVec.ofNat 64 (readWord f bytes)) (0 : BitVec 64)
  have body : deserializeDuration (r.ofNanoseconds p) f id old s.enter =
      .ok (.none, r.ofNanoseconds p (readCount f (r.toNanoseconds p x)), t) := by
    unfold deserializeDuration
    rw [run]
    rfl
  obtain ⟨s', decoded, _⟩ := consumes.toReads.nested body
  unfold SerialType.Gives
  change (∃ s', deserializeNested (deserializeDuration (r.ofNanoseconds p) f id) old s = _) ↔ _
  rw [decoded]
  refine ⟨fun ⟨u, same⟩ => ?_, fun same => ?_⟩
  · exact congrArg (fun outcome => outcome.2.1) (Except.ok.inj same)
  · subst same
    exact ⟨s', rfl⟩

/-- A count that fits is taken back as a scaled number, of which the representation keeps its bytes. -/
lemma ofNanoseconds_eq_iff {count : BitVec 64} (fits : r.Fits p.den count) (x : BitVec (8 * r.size)) :
    r.ofNanoseconds p count = x ↔
      scale p.den p.num (r.common count) ≡ r.value x [ZMOD 2 ^ (8 * r.size)] := by
  unfold Rep.ofNanoseconds
  rw [r.setWidth_eq_iff, r.common_cast p.den_lt p.num_lt fits]

/-- A number that fits is counted in nanoseconds by scaling it. -/
lemma fits_extend_iff (x : BitVec (8 * r.size)) :
    r.Fits p.num (r.extend x) ↔ p.num = 1 ∨ InInt64 (r.value x * p.num) := by
  unfold Rep.Fits
  rw [r.common_extend]

/-- A duration that fits is scaled to nanoseconds. -/
lemma common_toNanoseconds {x : BitVec (8 * r.size)} (fits : r.Fits p.num (r.extend x)) :
    r.common (r.toNanoseconds p x) = scale p.num p.den (r.value x) := by
  unfold Rep.toNanoseconds
  rw [r.common_cast p.num_lt p.den_lt fits, r.common_extend]

/-- A number is known modulo a power if it is between zero and a small one. -/
lemma modEq_small {w : Nat} {v u : Int} (same : u ≡ v [ZMOD 2 ^ w]) (small : v.natAbs < 2 ^ w)
    (between : 0 ≤ v ∧ 0 ≤ u ∧ u ≤ v ∨ v ≤ 0 ∧ u ≤ 0 ∧ v ≤ u) : u = v := by
  have less : (v - u).natAbs < 2 ^ w := by omega
  have none : v - u = 0 := by
    apply Int.eq_zero_of_dvd_of_natAbs_lt_natAbs same.dvd
    rwa [Int.natAbs_pow]
  omega

/-- Where the count is read as it was written, nothing is lost or overflows if the duration is exact. -/
lemma exact_iff (x : BitVec (8 * r.size)) :
    r.Fits p.num (r.extend x) ∧ r.Fits p.den (r.toNanoseconds p x) ∧
        r.ofNanoseconds p (r.toNanoseconds p x) = x ↔ p.Exact (r.value x) := by
  constructor
  · rintro ⟨fits, fitsBack, same⟩
    have back := (ofNanoseconds_eq_iff fitsBack x).1 same
    have exactly := modEq_small back (r.natAbs_value_lt x)
    rw [common_toNanoseconds fits] at exactly
    have dvd := (scale_back_iff p.num_pos p.coprime _).1 (exactly (scale_back_between _))
    refine ⟨dvd, ?_⟩
    rcases (fits_extend_iff x).1 fits with one | within
    · -- nothing is multiplied on the way there, so the way back says that the number is in range
      rcases fitsBack with also | within
      · exact .inl ⟨one, also⟩
      · rw [common_toNanoseconds fits, scale_mul_of_dvd dvd] at within
        exact .inr within
    · exact .inr within
  · rintro ⟨dvd, range⟩
    have fits : r.Fits p.num (r.extend x) := (fits_extend_iff x).2 (range.imp_left And.left)
    have fitsBack : r.Fits p.den (r.toNanoseconds p x) := by
      refine range.imp And.right fun within => ?_
      rw [common_toNanoseconds fits, scale_mul_of_dvd dvd]
      exact within
    refine ⟨fits, fitsBack, (ofNanoseconds_eq_iff fitsBack x).2 ?_⟩
    rw [common_toNanoseconds fits, (scale_back_iff p.num_pos p.coprime _).2 dvd]

/-- Where its bytes are swapped, the count has to coincide. -/
lemma coincides_iff (asymmetric : ¬ f.Symmetric) (x : BitVec (8 * r.size)) :
    r.NoOverflow p f x ∧ r.ofNanoseconds p (readCount f (r.toNanoseconds p x)) = x ↔
      r.Coincides p (r.value x) := by
  unfold Rep.NoOverflow Rep.Coincides
  rw [and_assoc, fits_extend_iff]
  refine and_congr_right fun fits => ?_
  have count : r.common (readCount f (r.toNanoseconds p x)) = r.swapped (scale p.num p.den (r.value x)) := by
    unfold readCount Rep.swapped
    rw [readWord_swapped asymmetric, ← common_toNanoseconds ((fits_extend_iff x).2 fits), r.ofInt_common]
  have back : r.Fits p.den (readCount f (r.toNanoseconds p x)) ↔
      p.den = 1 ∨ InInt64 (r.swapped (scale p.num p.den (r.value x)) * p.den) := by
    unfold Rep.Fits
    rw [count]
  rw [back]
  refine and_congr_right fun fitsBack => ?_
  rw [ofNanoseconds_eq_iff (back.2 fitsBack), count]

end returned

/-- A duration that is encoded is returned and nothing overflows if and only if it is a whole number of
    nanoseconds in the range of `int64_t`, read as it is written; on a big-endian host in native order, where the
    bytes of the number are swapped, if that happens to make no difference. -/
theorem duration_returned_iff (r : Rep) (p : Period) (f : Format) (x old : BitVec (8 * r.size))
    {s : StreamSerializer Byte} (loaded : Loaded ((counted r p).encode f x) s) :
    (((counted r p).serialize f x []).1 = .none → (counted r p).Gives f old s x ∧ r.NoOverflow p f x) ↔
      (f.Symmetric ∧ p.Exact (r.value x)) ∨ (¬ f.Symmetric ∧ r.Coincides p (r.value x)) := by
  -- nothing is refused
  have encoded : ((counted r p).serialize f x []).1 = .none := rfl
  rw [forall_prop_of_true encoded, counted_gives_iff loaded old x, and_comm]
  by_cases symmetric : f.Symmetric
  · have exactly := exact_iff (r := r) (p := p) x
    rw [← and_assoc] at exactly
    unfold Rep.NoOverflow
    rw [readCount_symmetric symmetric, exactly]
    exact ⟨fun exact => .inl ⟨symmetric, exact⟩,
      fun either => (either.resolve_right fun other => other.1 symmetric).2⟩
  · rw [coincides_iff symmetric]
    exact ⟨fun coincides => .inr ⟨symmetric, coincides⟩,
      fun either => (either.resolve_left fun other => symmetric other.1).2⟩

/-- A minute and a half before the epoch, in seconds. -/
theorem duration_returned_seconds :
    (counted .int64 .seconds).Gives ⟨true, true⟩ (0 : BitVec 64)
        ([(counted .int64 .seconds).encode ⟨true, true⟩ (-90 : BitVec 64)].foldl pushView {}) (-90 : BitVec 64) ∧
      Rep.int64.NoOverflow .seconds ⟨true, true⟩ (-90 : BitVec 64) :=
  (duration_returned_iff .int64 .seconds ⟨true, true⟩ (-90 : BitVec 64) (0 : BitVec 64) (loaded_whole _)).2
    (.inl ⟨.inl rfl, by decide, .inr (by decide)⟩) rfl

/-- Three hundred years are more nanoseconds than `int64_t` holds. -/
theorem years_lost : ¬ ∀ (r : Rep) (p : Period) (f : Format) (x old : BitVec (8 * r.size))
    (s : StreamSerializer Byte), Loaded ((counted r p).encode f x) s →
    ((counted r p).serialize f x []).1 = .none → (counted r p).Gives f old s x ∧ r.NoOverflow p f x := by
  intro all
  obtain ⟨gives, _⟩ := all .int64 .years ⟨true, true⟩ (300 : BitVec 64) (0 : BitVec 64) _ (loaded_whole _) rfl
  have same : (Rep.int64.ofNanoseconds .years (readCount ⟨true, true⟩
      (Rep.int64.toNanoseconds .years (300 : BitVec 64))) : BitVec 64) = 300 :=
    (counted_gives_iff (loaded_whole _) _ _).1 gives
  exact absurd same (by decide +kernel)

end OsterLib.Serialization
