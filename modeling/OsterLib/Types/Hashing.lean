import Mathlib.Data.Prod.Lex
import OsterLib.Lib.Keys
import OsterLib.Types.TimeSequence

/-!
# Sequences and intervals as keys

`std::hash`, `std::equal_to` and `std::less` of `__time_interval__` and of `TimeSequence`, and `std::hash` of
`DateTimeDiff`, where the hash of an integer is the integer. An interval may have its ends in any order, and the
difference of both is undefined where it is not one of 64 bits.

Sequences are compared by their intervals, but the hash is also of the step. So `keys_coherent_iff` asks sequences of
one interval for steps of one hash, which `SameHash` says in terms of their fields: the minutes are hashed twice and the
seconds not at all, and a negative field hides those above it.
-/

namespace OsterLib.Types
open OsterLib.Lib

/-- `__time_interval__` -/
@[ext] structure TimeInterval where
  start : Seconds
  stop : Seconds
  deriving DecidableEq

namespace TimeInterval

/-- `operator==` and `std::equal_to` -/
def equal (lhs rhs : TimeInterval) : Bool := lhs.start = rhs.start && lhs.stop = rhs.stop

/-- The difference of the ends is a number of 64 bits. -/
def Representable (i : TimeInterval) : Prop := -2 ^ 63 ≤ i.stop - i.start ∧ i.stop - i.start < 2 ^ 63

instance (i : TimeInterval) : Decidable i.Representable := inferInstanceAs (Decidable (_ ∧ _))

/-- The difference of the ends, where it is defined -/
def length (i : TimeInterval) : Option Int := if i.Representable then some (i.stop - i.start) else none

/-- `operator<` and `std::less` -/
def less (lhs rhs : TimeInterval) : Option Bool :=
  if lhs.start < rhs.start then some true
  else if lhs.start = rhs.start then lhs.length.bind fun l => rhs.length.map fun r => decide (l < r)
  else some false

/-- `std::hash`, of the start alone -/
def hash (i : TimeInterval) : BitVec 64 := BitVec.ofInt 64 i.start ^^^ (BitVec.ofInt 64 i.start <<< 1)

end TimeInterval

namespace DateTimeDiff

/-- `std::hash` -/
def hash (val : DateTimeDiff) : BitVec 64 :=
  (val.years.toBitVec.signExtend 64 <<< 48) ||| (val.months.toBitVec.signExtend 64 <<< 40) |||
    (val.days.toBitVec.signExtend 64 <<< 32) ||| (val.hours.toBitVec.signExtend 64 <<< 24) |||
    (val.minutes.toBitVec.signExtend 64 <<< 16) ||| (val.minutes.toBitVec.signExtend 64 <<< 8)

end DateTimeDiff

namespace TimeSequence

/-- The interval of a sequence -/
def interval (s : TimeSequence) : TimeInterval := { start := s.start, stop := s.stop }

/-- `std::equal_to` and `operator==` -/
def equal (lhs rhs : TimeSequence) : Bool := lhs.interval.equal rhs.interval

/-- `std::less` and `operator<` -/
def less (lhs rhs : TimeSequence) : Option Bool := lhs.interval.less rhs.interval

/-- `std::hash` -/
def hash (s : TimeSequence) : BitVec 64 := s.interval.hash ^^^ (s.duration.hash <<< 1)

end TimeSequence

/-! ## The hash of a step -/

namespace DateTimeDiff

/-- The lowest bits are the same. -/
def Agree (n : Nat) (a b : BitVec 64) : Prop := ∀ i < n, a.getLsbD i = b.getLsbD i

/-- A field below those that are hashed already -/
def layer (above : BitVec 64) (field : Int8) : BitVec 64 := (above <<< 8) ||| field.toBitVec.signExtend 64

/-- The low bits of a layer are those of the field. -/
lemma layer_low (above : BitVec 64) (field : Int8) {i : Nat} (low : i < 8) :
    (layer above field).getLsbD i = field.toBitVec.getLsbD i := by
  rw [layer, BitVec.getLsbD_or, BitVec.getLsbD_shiftLeft, BitVec.getLsbD_signExtend, if_pos low,
    decide_eq_true low, decide_eq_true (show i < 64 by omega)]
  simp

/-- The bits above are those of the layer, or the sign of the field. -/
lemma layer_high (above : BitVec 64) (field : Int8) {i : Nat} (inside : i + 8 < 64) :
    (layer above field).getLsbD (i + 8) = (above.getLsbD i || field.toBitVec.msb) := by
  rw [layer, BitVec.getLsbD_or, BitVec.getLsbD_shiftLeft, BitVec.getLsbD_signExtend,
    if_neg (Nat.not_lt.mpr (Nat.le_add_left 8 i)), decide_eq_true inside, decide_eq_false (by omega),
    Nat.add_sub_cancel]
  simp

/-- The first bit of a field is its sign. -/
lemma msb_iff (field : Int8) : field.toBitVec.msb = true ↔ field < 0 := by
  rw [BitVec.msb_eq_toInt, decide_eq_true_iff, Int8.lt_iff_toInt_lt]
  rfl

/-- A field is told apart by its own bits; a negative one sets all bits above it. -/
lemma agree_layer {n : Nat} (inside : n + 8 ≤ 64) {above above' : BitVec 64} {field field' : Int8} :
    Agree (n + 8) (layer above field) (layer above' field') ↔
      field = field' ∧ (field < 0 ∨ Agree n above above') := by
  constructor
  · intro agree
    have same : field = field' := by
      apply Int8.toBitVec_inj.mp
      apply BitVec.eq_of_getLsbD_eq
      intro i low
      have bit := agree i (by omega)
      rwa [layer_low _ _ low, layer_low _ _ low] at bit
    subst same
    refine ⟨rfl, ?_⟩
    cases negative : field.toBitVec.msb with
    | true => exact .inl ((msb_iff field).mp negative)
    | false =>
      right
      intro i low
      have bit := agree (i + 8) (by omega)
      rwa [layer_high _ _ (by omega), layer_high _ _ (by omega), negative, Bool.or_false, Bool.or_false] at bit
  · rintro ⟨rfl, above_same⟩ i low
    by_cases own : i < 8
    · rw [layer_low _ _ own, layer_low _ _ own]
    · obtain ⟨j, rfl⟩ := Nat.exists_eq_add_of_le' (Nat.le_of_not_lt own)
      rw [layer_high _ _ (by omega), layer_high _ _ (by omega)]
      cases above_same with
      | inl negative => rw [(msb_iff field).mpr negative, Bool.or_true, Bool.or_true]
      | inr agree => rw [agree j (by omega)]

/-- The years, of which the topmost bit is shifted out -/
lemma agree_years {years years' : Int16} :
    Agree 15 (years.toBitVec.signExtend 64) (years'.toBitVec.signExtend 64) ↔
      years.toInt % 2 ^ 15 = years'.toInt % 2 ^ 15 := by
  have value : ∀ y : Int16, y.toInt % 2 ^ 15 = ((y.toBitVec.setWidth 15).toNat : Int) := by
    intro y
    have whole : y.toInt = y.toBitVec.toInt := rfl
    rw [whole, BitVec.toInt_eq_toNat_cond, BitVec.toNat_setWidth]
    split
    · omega
    · omega
  have bits : ∀ (y : Int16) (i : Nat), i < 15 →
      (y.toBitVec.signExtend 64).getLsbD i = (y.toBitVec.setWidth 15).getLsbD i := by
    intro y i low
    rw [BitVec.getLsbD_signExtend, if_pos (by omega), BitVec.getLsbD_setWidth, decide_eq_true low,
      decide_eq_true (show i < 64 by omega)]
  rw [value, value, Int.ofNat_inj, BitVec.toNat_inj]
  constructor
  · intro agree
    apply BitVec.eq_of_getLsbD_eq
    intro i low
    rw [← bits years i low, ← bits years' i low, agree i low]
  · intro same i low
    rw [bits years i low, bits years' i low, same]

/-- What is shifted out is not compared. -/
lemma shifted_iff (h h' : BitVec 64) : h <<< 9 = h' <<< 9 ↔ Agree 55 h h' := by
  constructor
  · intro same i low
    have bit : (h <<< 9).getLsbD (i + 9) = (h' <<< 9).getLsbD (i + 9) := by rw [same]
    rw [BitVec.getLsbD_shiftLeft, BitVec.getLsbD_shiftLeft, decide_eq_true (show i + 9 < 64 by omega),
      decide_eq_false (Nat.not_lt.mpr (Nat.le_add_left 9 i)), Nat.add_sub_cancel] at bit
    simpa using bit
  · intro agree
    apply BitVec.eq_of_getLsbD_eq
    intro i inside
    rw [BitVec.getLsbD_shiftLeft, BitVec.getLsbD_shiftLeft]
    by_cases low : i < 9
    · rw [decide_eq_true low]
      simp
    · rw [agree (i - 9) (by omega)]

/-- The fields as layers, of which the minutes are two -/
lemma hash_layers (val : DateTimeDiff) :
    val.hash = layer (layer (layer (layer (layer (val.years.toBitVec.signExtend 64) val.months) val.days) val.hours)
      val.minutes) val.minutes <<< 8 := by
  simp only [hash, layer, BitVec.shiftLeft_or_distrib, ← BitVec.shiftLeft_add]

/-- Two steps have one hash in that of a sequence. -/
def SameHash (a b : DateTimeDiff) : Prop :=
  a.minutes = b.minutes ∧ (a.minutes < 0 ∨ a.hours = b.hours ∧ (a.hours < 0 ∨ a.days = b.days ∧
    (a.days < 0 ∨ a.months = b.months ∧ (a.months < 0 ∨ a.years.toInt % 2 ^ 15 = b.years.toInt % 2 ^ 15))))

/-- Two differences have one hash exactly if their fields leave the same bits. -/
lemma sameHash_iff (a b : DateTimeDiff) : a.hash <<< 1 = b.hash <<< 1 ↔ SameHash a b := by
  rw [hash_layers, hash_layers, ← BitVec.shiftLeft_add, ← BitVec.shiftLeft_add, shifted_iff,
    agree_layer (n := 47) (by decide), agree_layer (n := 39) (by decide), agree_layer (n := 31) (by decide),
    agree_layer (n := 23) (by decide), agree_layer (n := 15) (by decide), agree_years]
  unfold SameHash
  constructor
  · rintro ⟨minutes, negative | ⟨-, rest⟩⟩
    · exact ⟨minutes, .inl negative⟩
    · exact ⟨minutes, rest⟩
  · rintro ⟨minutes, rest⟩
    exact ⟨minutes, .inr ⟨minutes, rest⟩⟩

end DateTimeDiff

/-! ## Coherent keys -/

namespace TimeInterval
variable {keys : Set TimeInterval}

/-- Intervals are equal exactly if their ends are. -/
lemma equal_iff (a b : TimeInterval) : a.equal b = true ↔ a = b := by
  rw [equal, Bool.and_eq_true, decide_eq_true_iff, decide_eq_true_iff, TimeInterval.mk.injEq]

/-- An interval is not before itself where its length is defined. -/
lemma less_self_iff (a : TimeInterval) : a.less a = some false ↔ a.Representable := by
  unfold less length
  rw [if_neg (lt_irrefl _), if_pos rfl]
  by_cases defined : a.Representable
  · rw [if_pos defined]
    exact iff_of_true (congrArg some (decide_eq_false (lt_irrefl _))) defined
  · rw [if_neg defined]
    exact iff_of_false nofun defined

/-- Intervals of defined lengths are ordered by their starts and then by their lengths. -/
lemma less_eq {a b : TimeInterval} (a_defined : a.Representable) (b_defined : b.Representable) :
    a.less b = some (decide (toLex (a.start, a.stop - a.start) < toLex (b.start, b.stop - b.start))) := by
  have order : toLex (a.start, a.stop - a.start) < toLex (b.start, b.stop - b.start) ↔
      a.start < b.start ∨ a.start = b.start ∧ a.stop - a.start < b.stop - b.start := Prod.Lex.toLex_lt_toLex
  unfold less length
  rw [if_pos a_defined, if_pos b_defined]
  by_cases before : a.start < b.start
  · rw [if_pos before, decide_eq_true (order.mpr (.inl before))]
  · rw [if_neg before]
    rw [or_iff_right before] at order
    by_cases same : a.start = b.start
    · rw [if_pos same, Option.bind_some, Option.map_some, decide_eq_decide.mpr (order.trans (and_iff_right same))]
    · rw [if_neg same, decide_eq_false fun less => same (order.mp less).1]

/-- What sequences share with their intervals -/
lemma coherent_iff {α : Type*} {hash : α → BitVec 64} (interval : α → TimeInterval) (keys : Set α) :
    Coherent (fun a b => (interval a).equal (interval b)) hash (fun a b => (interval a).less (interval b)) keys ↔
      (∀ a ∈ keys, (interval a).Representable) ∧
        ∀ a ∈ keys, ∀ b ∈ keys, interval a = interval b → hash a = hash b := by
  constructor
  · intro coherent
    constructor
    · intro a mem
      exact (less_self_iff _).mp (coherent.irrefl a mem)
    · intro a a_mem b b_mem same
      exact coherent.hash_eq a a_mem b b_mem ((equal_iff _ _).mpr same)
  · rintro ⟨defined, hash_eq⟩
    apply coherent_of_key fun a => toLex ((interval a).start, (interval a).stop - (interval a).start)
    · intro a a_mem b b_mem
      exact less_eq (defined a a_mem) (defined b b_mem)
    · intro a _ b _
      rw [equal_iff, TimeInterval.ext_iff, toLex_inj, Prod.mk.injEq]
      constructor
      · intro same
        exact ⟨same.1, by rw [same.1, same.2]⟩
      · intro same
        obtain ⟨starts, lengths⟩ := same
        rw [starts] at lengths
        exact ⟨starts, (Int.sub_left_inj _).mp lengths⟩
    · intro a a_mem b b_mem same
      exact hash_eq a a_mem b b_mem ((equal_iff _ _).mp same)

end TimeInterval

/-- Intervals are coherent keys exactly where their lengths are defined, and sequences where also the steps of those
    with one interval have one hash. -/
theorem keys_coherent_iff (intervals : Set TimeInterval) (sequences : Set TimeSequence) :
    (Coherent TimeInterval.equal TimeInterval.hash TimeInterval.less intervals ↔
      ∀ a ∈ intervals, a.Representable) ∧
    (Coherent TimeSequence.equal TimeSequence.hash TimeSequence.less sequences ↔
      (∀ a ∈ sequences, a.interval.Representable) ∧
        ∀ a ∈ sequences, ∀ b ∈ sequences, a.interval = b.interval → a.duration.SameHash b.duration) := by
  constructor
  · refine (TimeInterval.coherent_iff id intervals).trans (and_iff_left ?_)
    intro a _ b _ same
    exact congrArg TimeInterval.hash same
  · refine (TimeInterval.coherent_iff TimeSequence.interval sequences).trans (and_congr_right fun _ => ?_)
    have hash_iff : ∀ a b : TimeSequence, a.interval = b.interval →
        (a.hash = b.hash ↔ a.duration.SameHash b.duration) := by
      intro a b same
      rw [TimeSequence.hash, TimeSequence.hash, same, BitVec.xor_right_inj, DateTimeDiff.sameHash_iff]
    constructor
    · intro hash_eq a a_mem b b_mem same
      exact (hash_iff a b same).mp (hash_eq a a_mem b b_mem same)
    · intro hash_eq a a_mem b b_mem same
      exact (hash_iff a b same).mpr (hash_eq a a_mem b b_mem same)

/-- A day once and an hour twenty-four times are equal sequences of different hashes. -/
theorem equal_keys_hashes_differ :
    ¬Coherent TimeSequence.equal TimeSequence.hash TimeSequence.less
      {{ start := 0, stop := 86400, duration := { days := 1 }, intervals := 1 },
        { start := 0, stop := 86400, duration := { hours := 1 }, intervals := 24 }} := by
  intro coherent
  have same := coherent.hash_eq _ (.inl rfl) _ (.inr rfl) (by decide)
  exact absurd same (by decide)

end OsterLib.Types
