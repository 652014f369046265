import OsterLib.Serialization.RoundTrip
import Mathlib.Algebra.BigOperators.Fin
import Mathlib.Algebra.BigOperators.Ring.Finset
import Mathlib.Algebra.Order.BigOperators.Group.Finset
import Mathlib.Tactic.Ring

/-!
# Sizes

`serial_size`, `min_serial_size` and `max_serial_size` next to what the encoder appends. The three size
functions count a duration with the bytes of its representation, and an array of objects without data with
nothing; the encoder writes eight bytes for the one, and a byte of memory for each element of the other.
`Shape.counted` is what the size functions count for a value, and `Shape.excess` by how much the encoder
exceeds that.

The sums are those of `size_t`. The maximum of a pair is the plain sum of two maxima, of which the maximum
of a container is the largest `size_t` already. `Shape.largest` is what is left of it. A container does not
ask for the maximum of its elements.
-/

namespace OsterLib.Serialization
open SerialType

namespace Shape

/-- The smallest size of a type, as the sums of `size_t` leave it. -/
def least {o : SerialType} (shape : Shape o) : ℕ :=
  match shape with
  | word n | duration n _ _ => n
  | bool => 1
  | empty => 0
  | pair first second => (first.least + second.least) % 2 ^ 64
  | optional _ | pointer _ => 1
  | variant inner => ((List.ofFn fun i => (inner i).least).foldl min (2 ^ 64 - 1) + 8) % 2 ^ 64
  | sequence _ | associative _ _ | forwardList _ => 8
  | @array _ n _ inner => min (inner.least * n) (2 ^ 64 - 1)

/-- The largest size of a type, as the sums of `size_t` leave it: only those of a pair are not saturated. -/
def largest {o : SerialType} (shape : Shape o) : ℕ :=
  match shape with
  | word n | duration n _ _ => n
  | bool => 1
  | empty => 0
  | pair first second => (first.largest + second.largest) % 2 ^ 64
  | optional inner | pointer inner => min (1 + inner.largest) (2 ^ 64 - 1)
  | variant inner => min (8 + (List.ofFn fun i => (inner i).largest).foldl max 0) (2 ^ 64 - 1)
  | sequence _ | associative _ _ | forwardList _ => 2 ^ 64 - 1
  | @array _ n _ inner => min (inner.largest * n) (2 ^ 64 - 1)

/-- The bytes that are counted for a value. An array whose elements have one size by their type does not ask
    them. -/
def counted {o : SerialType} (shape : Shape o) (x : o.Val) : ℕ :=
  match shape with
  | word n | duration n _ _ => n
  | bool => 1
  | empty => 0
  | pair first second => first.counted x.1 + second.counted x.2
  | optional inner | pointer inner => 1 + Option.elim x 0 inner.counted
  | variant inner => (inner x.1).counted x.2 + 8
  | sequence inner | associative _ inner | forwardList inner => 8 + (List.map inner.counted x).sum
  | array _ inner => ∑ i, if inner.least = inner.largest then inner.least else inner.counted (x i)

/-- What an array counts for an element. -/
def share {o : SerialType} (shape : Shape o) (x : o.Val) : ℕ :=
  if shape.least = shape.largest then shape.least else shape.counted x

/-- The bytes that the encoder appends in excess of what is counted. An array of objects of one byte is copied as
    memory, whatever the encoding of its elements. -/
def excess {o : SerialType} (shape : Shape o) (x : o.Val) : ℤ :=
  match shape with
  | word _ | bool | empty => 0
  | duration n _ _ => 8 - n
  | pair first second => first.excess x.1 + second.excess x.2
  | optional inner | pointer inner => Option.elim x 0 inner.excess
  | variant inner => (inner x.1).excess x.2
  | sequence inner | associative _ inner | forwardList inner => (List.map inner.excess x).sum
  | @array elem _ _ inner =>
    ∑ i, ((if elem.oneByte then 1 else inner.counted (x i) + inner.excess (x i)) - inner.share (x i))

/-- No pair whose maximum is asked for has members whose maxima exceed `size_t` together. -/
def Plain {o : SerialType} (shape : Shape o) : Prop :=
  match shape with
  | pair first second => first.largest + second.largest < 2 ^ 64 ∧ first.Plain ∧ second.Plain
  | optional inner | pointer inner | array _ inner => inner.Plain
  | variant inner => ∀ i, (inner i).Plain
  | word _ | bool | duration .. | empty | sequence _ | associative _ _ | forwardList _ => True

/-- The encoder does not exceed what is counted, and what is counted is within what is left of the maximum. -/
def Measured {o : SerialType} (shape : Shape o) (x : o.Val) : Prop :=
  shape.excess x = 0 ∧ (shape.Plain ∨ shape.counted x ≤ shape.largest)

/-- The size templates of the type compile: representations have a size, and no size is divided by the length of an
    array without elements. -/
def Compiles {o : SerialType} (shape : Shape o) : Prop :=
  match shape with
  | word n | duration n _ _ => n < 2 ^ 64
  | bool | empty => True
  | pair first second => first.Compiles ∧ second.Compiles
  | optional inner | pointer inner | sequence inner | associative _ inner | forwardList inner => inner.Compiles
  | variant inner => ∀ i, (inner i).Compiles
  | @array _ n _ inner => (0 < n ∨ inner.least = 0 ∧ inner.largest = 0) ∧ inner.Compiles

end Shape

/-! ## The encoder -/

section encoder
variable {f : Format}

/-- The serializer appends so many bytes. -/
def AppendsLength (serializer : Serializer) (length : ℤ) : Prop :=
  ∃ bytes, Appends serializer bytes ∧ (bytes.length : ℤ) = length

/-- A number appends its bytes. -/
lemma appendsLength_word (f : Format) (n x : ℕ) : AppendsLength (serializeWord f n x) n :=
  ⟨_, appends_word f n x, congrArg _ (wordBytes_length f n x)⟩

/-- Nothing is appended. -/
lemma appendsLength_nil : AppendsLength (serializeAll []) 0 :=
  ⟨[], appends_nil, rfl⟩

/-- The lengths of the parts add up. -/
lemma AppendsLength.cons {serializer : Serializer} {serializers : List Serializer} {m n : ℤ}
    (first : AppendsLength serializer m) (later : AppendsLength (serializeAll serializers) n) :
    AppendsLength (serializeAll (serializer :: serializers)) (m + n) := by
  obtain ⟨bytes, appends, length⟩ := first
  obtain ⟨rest, appendsRest, lengthRest⟩ := later
  refine ⟨bytes ++ rest, appends.cons appendsRest, ?_⟩
  rw [List.length_append, Nat.cast_add, length, lengthRest]

/-- Two parts append both lengths. -/
lemma AppendsLength.pair {first second : Serializer} {m n : ℤ} (here : AppendsLength first m)
    (there : AppendsLength second n) : AppendsLength (serializeAll [first, second]) (m + n) := by
  have both := here.cons (there.cons appendsLength_nil)
  rwa [add_zero] at both

/-- A flag and a value append one byte more than the value. -/
lemma AppendsLength.some {a : SerialType} {x : a.Val} {n : ℕ} {k : ℤ}
    (inner : AppendsLength (a.serialize f x) (n + k)) :
    AppendsLength (serializeMaybe a f (some x)) ((1 + n : ℕ) + k) := by
  obtain ⟨bytes, appends, length⟩ := (appendsLength_word f 1 true.toNat).pair inner
  refine ⟨bytes, appends, length.trans ?_⟩
  push_cast
  ring

/-- An optional appends its flag, and its value where there is one. -/
lemma AppendsLength.maybe {a : SerialType} {size : a.Val → ℕ} {excess : a.Val → ℤ}
    (inner : ∀ x, AppendsLength (a.serialize f x) (size x + excess x)) (x : Option a.Val) :
    AppendsLength (serializeMaybe a f x) ((1 + x.elim 0 size : ℕ) + x.elim 0 excess) := by
  cases x with
  | none => exact ⟨_, appends_flag f false, congrArg _ (wordBytes_length f 1 0)⟩
  | some x => exact AppendsLength.some (inner x)

/-- The items append their lengths. -/
lemma AppendsLength.items {elem : SerialType} {size : elem.Val → ℕ} {excess : elem.Val → ℤ}
    (each : ∀ x, AppendsLength (elem.serialize f x) (size x + excess x)) (items : List elem.Val) :
    AppendsLength (serializeAll (items.map (elem.serialize f)))
      ((items.map size).sum + (items.map excess).sum) := by
  induction items with
  | nil => exact appendsLength_nil
  | cons item items ih =>
    obtain ⟨bytes, appends, length⟩ := (each item).cons ih
    refine ⟨bytes, appends, length.trans ?_⟩
    simp only [List.map_cons, List.sum_cons]
    push_cast
    ring

/-- A range appends its size, and its items. -/
lemma AppendsLength.range {elem : SerialType} {size : elem.Val → ℕ} {excess : elem.Val → ℤ}
    (each : ∀ x, AppendsLength (elem.serialize f x) (size x + excess x)) (items : List elem.Val) :
    AppendsLength (serializeRange elem f items)
      ((8 + (items.map size).sum : ℕ) + (items.map excess).sum) := by
  obtain ⟨bytes, appends, length⟩ := (appendsLength_word f 8 _).cons (AppendsLength.items each items)
  refine ⟨bytes, appends, length.trans ?_⟩
  push_cast
  ring

/-- The elements of an array one after the other, or as memory. -/
lemma AppendsLength.array {elem : SerialType} {size : elem.Val → ℕ} {excess : elem.Val → ℤ}
    (share : elem.Val → ℕ) (each : ∀ x, AppendsLength (elem.serialize f x) (size x + excess x)) {n : ℕ}
    (x : Fin n → elem.Val) :
    AppendsLength ((SerialType.array elem n).serialize f x) ((∑ i, share (x i) : ℕ) +
      ∑ i, ((if elem.oneByte then 1 else size (x i) + excess (x i)) - share (x i))) := by
  rw [Finset.sum_sub_distrib, Nat.cast_sum, add_sub_cancel]
  change AppendsLength (if elem.oneByte then _ else _) _
  cases elem.oneByte with
  | true =>
    refine ⟨List.ofFn fun i => elem.toByte (x i), fun buffer => rfl, ?_⟩
    rw [List.length_ofFn]
    simp
  | false =>
    obtain ⟨bytes, appends, length⟩ := AppendsLength.items each (List.ofFn x)
    rw [List.map_ofFn] at appends
    refine ⟨bytes, appends, length.trans ?_⟩
    rw [List.map_ofFn, List.map_ofFn, List.sum_ofFn, List.sum_ofFn, Nat.cast_sum, ← Finset.sum_add_distrib]
    rfl

/-- The encoder appends what is counted, and the excess. -/
lemma Shape.appends {o : SerialType} (shape : Shape o) (x : o.Val) :
    AppendsLength (o.serialize f x) (shape.counted x + shape.excess x) := by
  induction shape with
  | word n =>
    obtain ⟨bytes, appends, length⟩ := appendsLength_word f n (BitVec.toNat x)
    exact ⟨bytes, appends, by rw [length]; exact (add_zero _).symm⟩
  | bool => exact ⟨_, appends_flag f x, congrArg _ (wordBytes_length f 1 _)⟩
  | duration n toNanoseconds ofNanoseconds =>
    obtain ⟨bytes, appends, length⟩ := appendsLength_word f 8 (toNanoseconds x).toNat
    refine ⟨bytes, appends, ?_⟩
    rw [length]
    show (8 : ℤ) = n + (8 - n)
    ring
  | empty =>
    refine ⟨[], fun buffer => ?_, rfl⟩
    show (SerializationEC.none, buffer) = _
    rw [List.append_nil]
  | pair first second ihFirst ihSecond =>
    obtain ⟨bytes, appends, length⟩ := (ihFirst x.1).pair (ihSecond x.2)
    refine ⟨bytes, appends, length.trans ?_⟩
    simp only [counted, excess]
    push_cast
    ring
  | optional inner ih => exact AppendsLength.maybe ih x
  | pointer inner ih => exact AppendsLength.maybe ih x
  | variant inner ih =>
    obtain ⟨bytes, appends, length⟩ := (appendsLength_word f 8 (UInt64.ofNat x.1).toNat).pair (ih x.1 x.2)
    refine ⟨bytes, appends, length.trans ?_⟩
    simp only [counted, excess]
    push_cast
    ring
  | sequence inner ih => exact AppendsLength.range ih x
  | associative keys inner ih => exact AppendsLength.range ih x
  | forwardList inner ih => exact AppendsLength.range ih x
  | array small inner ih => exact AppendsLength.array inner.share ih x

end encoder

/-! ## The size functions -/

/-- A sum that fits does not wrap. -/
lemma toNat_add_small {a b : UInt64} (small : a.toNat + b.toNat < 2 ^ 64) :
    (a + b).toNat = a.toNat + b.toNat := by
  rw [UInt64.toNat_add]
  exact Nat.mod_eq_of_lt small

/-- The largest `size_t` -/
lemma sizeMax_toNat : sizeMax.toNat = 2 ^ 64 - 1 := rfl

/-- The maximum plus what precedes the value, where the largest `size_t` stands for no bound. -/
lemma saturated_toNat {before : ℕ} {bound extra : UInt64} (same : extra.toNat = before) :
    (if sizeMax - extra < bound then sizeMax else bound + extra).toNat =
      min (before + bound.toNat) (2 ^ 64 - 1) := by
  have le := extra.toNat_lt
  have far : (sizeMax - extra).toNat = 2 ^ 64 - 1 - before := by
    rw [UInt64.toNat_sub_of_le _ _ (UInt64.le_iff_toNat_le.2 (by rw [sizeMax_toNat]; omega)),
      sizeMax_toNat, same]
  split
  · next exceeds =>
    rw [UInt64.lt_iff_toNat_lt, far] at exceeds
    rw [sizeMax_toNat]
    omega
  · next fits =>
    rw [UInt64.not_lt, UInt64.le_iff_toNat_le, far] at fits
    rw [toNat_add_small (by omega)]
    omega

/-- The maximum of an optional and of a smart pointer. -/
lemma maybe_toNat (bound : UInt64) :
    (if bound = sizeMax then bound else bound + 1).toNat = min (1 + bound.toNat) (2 ^ 64 - 1) := by
  have le := bound.toNat_lt
  split
  · next top =>
    rw [top, sizeMax_toNat]
    omega
  · next low =>
    have apart : bound.toNat ≠ sizeMax.toNat := fun same => low (UInt64.toNat_inj.1 same)
    have one : (1 : UInt64).toNat = 1 := rfl
    rw [sizeMax_toNat] at apart
    rw [toNat_add_small (by omega)]
    omega

/-- `min_serial_size` and `max_serial_size` of an array: a product that saturates. -/
lemma arrayBound_toNat (bound : UInt64) {n : ℕ} (pos : 0 < n ∨ bound.toNat = 0) (small : n < 2 ^ 64) :
    (arrayBound bound n).toNat = min (bound.toNat * n) (2 ^ 64 - 1) := by
  have count := UInt64.toNat_ofNat_of_lt' small
  have part : (sizeMax / UInt64.ofNat n).toNat = (2 ^ 64 - 1) / n := by
    rw [UInt64.toNat_div, count, sizeMax_toNat]
  have zero : bound = 0 ↔ bound.toNat = 0 := UInt64.toNat_inj.symm
  unfold arrayBound
  split
  · next beyond =>
    have some : 0 < n := pos.resolve_right fun none => beyond.1 (zero.2 none)
    have big := UInt64.lt_iff_toNat_lt.1 beyond.2
    rw [part, Nat.div_lt_iff_lt_mul some] at big
    rw [sizeMax_toNat]
    omega
  · next fits =>
    have fine : bound.toNat * n ≤ 2 ^ 64 - 1 := by
      by_cases none : bound.toNat = 0
      · rw [none]
        exact (Nat.zero_mul n).trans_le (Nat.zero_le _)
      · have some := pos.resolve_right none
        have low := UInt64.le_iff_toNat_le.1 (UInt64.not_lt.1 fun big => fits ⟨fun no => none (zero.1 no), big⟩)
        rwa [part, Nat.le_div_iff_mul_le some] at low
    rw [UInt64.toNat_mul, count]
    omega

/-! ### Variants -/

/-- The smaller of two sizes is the smaller number. -/
lemma toNat_min (a b : UInt64) : (min a b).toNat = min a.toNat b.toNat := by
  show (if a ≤ b then a else b).toNat = _
  simp only [UInt64.le_iff_toNat_le]
  split <;> omega

/-- The larger of two sizes is the larger number. -/
lemma toNat_max (a b : UInt64) : (max a b).toNat = max a.toNat b.toNat := by
  show (if a ≤ b then b else a).toNat = _
  simp only [UInt64.le_iff_toNat_le]
  split <;> omega

/-- The least size of the alternatives -/
lemma foldl_min_toNat (types : List SerialType) (start : UInt64) :
    (types.foldl (fun size a => min a.minSize size) start).toNat =
      (types.map fun a => a.minSize.toNat).foldl min start.toNat := by
  induction types generalizing start with
  | nil => rfl
  | cons a types ih => rw [List.foldl_cons, ih, List.map_cons, List.foldl_cons, toNat_min, Nat.min_comm]

/-- The largest size of the alternatives -/
lemma foldl_max_toNat (types : List SerialType) (start : UInt64) :
    (types.foldl (fun size a => max a.maxSize size) start).toNat =
      (types.map fun a => a.maxSize.toNat).foldl max start.toNat := by
  induction types generalizing start with
  | nil => rfl
  | cons a types ih => rw [List.foldl_cons, ih, List.map_cons, List.foldl_cons, toNat_max, Nat.max_comm]

/-- The least of some sizes is not above the start. -/
lemma foldl_min_le_start (sizes : List ℕ) (start : ℕ) : sizes.foldl min start ≤ start := by
  induction sizes generalizing start with
  | nil => exact Nat.le_refl _
  | cons first sizes ih => exact (ih _).trans (Nat.min_le_left _ _)

/-- The least of some sizes is not above any of them. -/
lemma foldl_min_le {sizes : List ℕ} {size : ℕ} (mem : size ∈ sizes) (start : ℕ) : sizes.foldl min start ≤ size := by
  induction sizes generalizing start with
  | nil => exact absurd mem List.not_mem_nil
  | cons first sizes ih =>
    rcases List.mem_cons.1 mem with rfl | later
    · exact (foldl_min_le_start sizes _).trans (Nat.min_le_right _ _)
    · exact ih later _

/-- The largest of some sizes is not below the start. -/
lemma start_le_foldl_max (sizes : List ℕ) (start : ℕ) : start ≤ sizes.foldl max start := by
  induction sizes generalizing start with
  | nil => exact Nat.le_refl _
  | cons first sizes ih => exact (Nat.le_max_left _ _).trans (ih _)

/-- The largest of some sizes is not below any of them. -/
lemma le_foldl_max {sizes : List ℕ} {size : ℕ} (mem : size ∈ sizes) (start : ℕ) : size ≤ sizes.foldl max start := by
  induction sizes generalizing start with
  | nil => exact absurd mem List.not_mem_nil
  | cons first sizes ih =>
    rcases List.mem_cons.1 mem with rfl | later
    · exact (Nat.le_max_right _ _).trans (start_le_foldl_max sizes _)
    · exact ih later _

/-! ### What the functions return -/

/-- The sizes of the items of an array add up. -/
lemma sum_items {V : Type} (size : V → ℕ) {n : ℕ} (x : Fin n → V) :
    ((List.ofFn x).map size).sum = ∑ i, size (x i) := by
  rw [List.map_ofFn, List.sum_ofFn]
  rfl

/-- The sum over the elements of a range, modulo the range of `size_t`. -/
lemma foldl_serialSize {elem : SerialType} {size : elem.Val → ℕ}
    (each : ∀ x, (elem.serialSize x).toNat = size x % 2 ^ 64) (items : List elem.Val) (start : UInt64) :
    (items.foldl (fun total item => total + elem.serialSize item) start).toNat =
      (start.toNat + (items.map size).sum) % 2 ^ 64 := by
  induction items generalizing start with
  | nil => exact (Nat.mod_eq_of_lt start.toNat_lt).symm
  | cons item items ih =>
    rw [List.foldl_cons, ih, UInt64.toNat_add, each, List.map_cons, List.sum_cons]
    omega

namespace Shape
variable {o : SerialType}

/-- Where it compiles, `Min_serial_size` is the least size. -/
lemma minSize_toNat (shape : Shape o) (compiles : shape.Compiles) : o.minSize.toNat = shape.least := by
  induction shape with
  | word n => exact UInt64.toNat_ofNat_of_lt' compiles
  | bool => rfl
  | duration n _ _ => exact UInt64.toNat_ofNat_of_lt' compiles
  | empty => rfl
  | @pair a b first second ihFirst ihSecond =>
    show (a.minSize + b.minSize).toNat = _
    rw [UInt64.toNat_add, ihFirst compiles.1, ihSecond compiles.2]
    rfl
  | optional inner ih => rfl
  | pointer inner ih => rfl
  | @variant n alternatives inner ih =>
    have sizes : (fun i => (alternatives i).minSize.toNat) = fun i => (inner i).least :=
      funext fun i => ih i (compiles i)
    show ((List.ofFn alternatives).foldl (fun size a => min a.minSize size) sizeMax + 8).toNat = _
    rw [UInt64.toNat_add, foldl_min_toNat, List.map_ofFn]
    exact congrArg (fun sizes => ((List.ofFn sizes).foldl min (2 ^ 64 - 1) + 8) % 2 ^ 64) sizes
  | sequence inner ih => rfl
  | associative keys inner ih => rfl
  | forwardList inner ih => rfl
  | @array elem n small inner ih =>
    have same := ih compiles.2
    show (arrayBound elem.minSize n).toNat = _
    rw [arrayBound_toNat _ (compiles.1.imp_right fun none => same.trans none.1) small, same]
    rfl

/-- Where it compiles, `Max_serial_size` is the largest size. -/
lemma maxSize_toNat (shape : Shape o) (compiles : shape.Compiles) : o.maxSize.toNat = shape.largest := by
  induction shape with
  | word n => exact UInt64.toNat_ofNat_of_lt' compiles
  | bool => rfl
  | duration n _ _ => exact UInt64.toNat_ofNat_of_lt' compiles
  | empty => rfl
  | @pair a b first second ihFirst ihSecond =>
    show (a.maxSize + b.maxSize).toNat = _
    rw [UInt64.toNat_add, ihFirst compiles.1, ihSecond compiles.2]
    rfl
  | @optional a inner ih =>
    show (if a.maxSize = sizeMax then a.maxSize else a.maxSize + 1).toNat = _
    rw [maybe_toNat, ih compiles]
    rfl
  | @pointer a inner ih =>
    show (if a.maxSize = sizeMax then a.maxSize else a.maxSize + 1).toNat = _
    rw [maybe_toNat, ih compiles]
    rfl
  | @variant n alternatives inner ih =>
    have sizes : (fun i => (alternatives i).maxSize.toNat) = fun i => (inner i).largest :=
      funext fun i => ih i (compiles i)
    have eight : (8 : UInt64).toNat = 8 := rfl
    show (if sizeMax - 8 < (List.ofFn alternatives).foldl (fun size a => max a.maxSize size) 0 then sizeMax
      else (List.ofFn alternatives).foldl (fun size a => max a.maxSize size) 0 + 8).toNat = _
    rw [saturated_toNat eight, foldl_max_toNat, List.map_ofFn]
    exact congrArg (fun sizes => min (8 + (List.ofFn sizes).foldl max 0) (2 ^ 64 - 1)) sizes
  | sequence inner ih => rfl
  | associative keys inner ih => rfl
  | forwardList inner ih => rfl
  | @array elem n small inner ih =>
    have same := ih compiles.2
    show (arrayBound elem.maxSize n).toNat = _
    rw [arrayBound_toNat _ (compiles.1.imp_right fun none => same.trans none.2) small, same]
    rfl

/-- The size of an optional is that of its value and its flag, as far as it fits. -/
lemma maybeSize_toNat {a : SerialType} {size : a.Val → ℕ} (each : ∀ x, (a.serialSize x).toNat = size x % 2 ^ 64)
    (x : Option a.Val) : (maybeSize a x).toNat = (1 + x.elim 0 size) % 2 ^ 64 := by
  have one : (1 : UInt64).toNat = 1 := rfl
  cases x with
  | none => rfl
  | some x =>
    show (1 + a.serialSize x).toNat = (1 + size x) % 2 ^ 64
    rw [UInt64.toNat_add, each, one]
    omega

/-- `serial_size` counts in `size_t`. -/
lemma serialSize_toNat (shape : Shape o) (compiles : shape.Compiles) (x : o.Val) :
    (o.serialSize x).toNat = shape.counted x % 2 ^ 64 := by
  induction shape with
  | word n => exact UInt64.toNat_ofNat'
  | bool => rfl
  | duration n _ _ => exact UInt64.toNat_ofNat'
  | empty => rfl
  | @pair a b first second ihFirst ihSecond =>
    show (a.serialSize x.1 + b.serialSize x.2).toNat = (first.counted x.1 + second.counted x.2) % 2 ^ 64
    rw [UInt64.toNat_add, ihFirst compiles.1, ihSecond compiles.2]
    omega
  | optional inner ih => exact maybeSize_toNat (ih compiles) x
  | pointer inner ih => exact maybeSize_toNat (ih compiles) x
  | @variant n alternatives inner ih =>
    have eight : (8 : UInt64).toNat = 8 := rfl
    show ((alternatives x.1).serialSize x.2 + 8).toNat = ((inner x.1).counted x.2 + 8) % 2 ^ 64
    rw [UInt64.toNat_add, ih x.1 (compiles x.1), eight]
    omega
  | sequence inner ih => exact foldl_serialSize (ih compiles) x 8
  | associative keys inner ih => exact foldl_serialSize (ih compiles) x 8
  | forwardList inner ih => exact foldl_serialSize (ih compiles) x 8
  | @array elem n small inner ih =>
    have low := inner.minSize_toNat compiles.2
    have high := inner.maxSize_toNat compiles.2
    have same : elem.minSize = elem.maxSize ↔ inner.least = inner.largest := by
      rw [← low, ← high]
      exact UInt64.toNat_inj.symm
    show (if elem.minSize = elem.maxSize then UInt64.ofNat n * elem.minSize
      else (List.ofFn x).foldl (fun total item => total + elem.serialSize item) 0).toNat =
        (∑ i, if inner.least = inner.largest then inner.least else inner.counted (x i)) % 2 ^ 64
    by_cases fixed : inner.least = inner.largest
    · simp only [if_pos (same.2 fixed), if_pos fixed]
      rw [UInt64.toNat_mul, UInt64.toNat_ofNat_of_lt' small, low, Finset.sum_const, Finset.card_univ,
        Fintype.card_fin, smul_eq_mul]
    · simp only [if_neg fun equal => fixed (same.1 equal), if_neg fixed]
      rw [foldl_serialSize (ih compiles.2), UInt64.toNat_zero, Nat.zero_add]
      exact congrArg (· % 2 ^ 64) (sum_items inner.counted x)

/-! ### The bounds -/

/-- No element has a smaller share than the least one. -/
lemma share_least {shape : Shape o} (least : ∀ x, shape.least ≤ shape.counted x) (x : o.Val) :
    shape.least ≤ shape.share x := by
  unfold share
  split
  · exact Nat.le_refl _
  · exact least x

/-- No value is smaller than the minimum. -/
lemma least_le (shape : Shape o) (x : o.Val) : shape.least ≤ shape.counted x := by
  induction shape with
  | word n => exact Nat.le_refl _
  | bool => exact Nat.le_refl _
  | duration n _ _ => exact Nat.le_refl _
  | empty => exact Nat.le_refl _
  | pair first second ihFirst ihSecond => exact (Nat.mod_le _ _).trans (Nat.add_le_add (ihFirst x.1) (ihSecond x.2))
  | optional inner ih => exact Nat.le_add_right 1 _
  | pointer inner ih => exact Nat.le_add_right 1 _
  | variant inner ih =>
    have smallest := foldl_min_le (List.mem_ofFn.2 ⟨x.1, rfl⟩ : (inner x.1).least ∈ List.ofFn fun i => (inner i).least)
      (2 ^ 64 - 1)
    exact (Nat.mod_le _ _).trans (Nat.add_le_add_right (smallest.trans (ih x.1 x.2)) 8)
  | sequence inner ih => exact Nat.le_add_right 8 _
  | associative keys inner ih => exact Nat.le_add_right 8 _
  | forwardList inner ih => exact Nat.le_add_right 8 _
  | @array elem n small inner ih =>
    have all := Finset.card_nsmul_le_sum Finset.univ (fun i => inner.share (x i)) inner.least
      fun i _ => share_least ih (x i)
    rw [Finset.card_univ, Fintype.card_fin, smul_eq_mul, Nat.mul_comm] at all
    exact (Nat.min_le_left _ _).trans all

/-- A value and the flag before it. -/
lemma maybe_le {V : Type} {size : V → ℕ} {bound : ℕ} (x : Option V) (each : ∀ x, size x < 2 ^ 64 → size x ≤ bound)
    (short : 1 + x.elim 0 size < 2 ^ 64) : 1 + x.elim 0 size ≤ min (1 + bound) (2 ^ 64 - 1) := by
  cases x with
  | none => exact Nat.le_min.2 ⟨Nat.le_add_right 1 _, Nat.le_sub_one_of_lt short⟩
  | some x =>
    have inside := each x (Nat.lt_of_le_of_lt (Nat.le_add_left _ _) short)
    exact Nat.le_min.2 ⟨Nat.add_le_add_left inside 1, Nat.le_sub_one_of_lt short⟩

/-- Where the maxima are sums, no value is larger than the maximum. -/
lemma Plain.le_largest {shape : Shape o} (plain : shape.Plain) (x : o.Val) (short : shape.counted x < 2 ^ 64) :
    shape.counted x ≤ shape.largest := by
  induction shape with
  | word n => exact Nat.le_refl _
  | bool => exact Nat.le_refl _
  | duration n _ _ => exact Nat.le_refl _
  | empty => exact Nat.le_refl _
  | pair first second ihFirst ihSecond =>
    obtain ⟨sum, plainFirst, plainSecond⟩ := plain
    simp only [counted, largest] at short ⊢
    have here := ihFirst plainFirst x.1 (by omega)
    have there := ihSecond plainSecond x.2 (by omega)
    omega
  | optional inner ih => exact maybe_le x (ih plain) short
  | pointer inner ih => exact maybe_le x (ih plain) short
  | variant inner ih =>
    have listed : (inner x.1).largest ∈ List.ofFn fun i => (inner i).largest := List.mem_ofFn.2 ⟨x.1, rfl⟩
    have biggest := le_foldl_max listed 0
    simp only [counted, largest] at short ⊢
    have inside := ih x.1 (plain x.1) x.2 (by omega)
    omega
  | sequence inner ih => exact Nat.le_sub_one_of_lt short
  | associative keys inner ih => exact Nat.le_sub_one_of_lt short
  | forwardList inner ih => exact Nat.le_sub_one_of_lt short
  | @array elem n small inner ih =>
    have each : ∀ i ∈ Finset.univ, inner.share (x i) ≤ inner.largest := by
      intro i mem
      have part : inner.share (x i) ≤ ∑ i, inner.share (x i) :=
        Finset.single_le_sum (f := fun i => inner.share (x i)) (fun _ _ => Nat.zero_le _) mem
      have fits := Nat.lt_of_le_of_lt part short
      unfold share at fits ⊢
      split at fits
      · next fixed => rw [if_pos fixed, fixed]
      · next free =>
        rw [if_neg free]
        exact ih plain (x i) fits
    have all := Finset.sum_le_card_nsmul Finset.univ (fun i => inner.share (x i)) inner.largest each
    rw [Finset.card_univ, Fintype.card_fin, smul_eq_mul, Nat.mul_comm] at all
    exact Nat.le_min.2 ⟨all, Nat.le_sub_one_of_lt short⟩

end Shape

/-- `serial_size` counts the size, which is between the two bounds. -/
structure Sized (o : SerialType) (x : o.Val) (size : ℕ) : Prop where
  counted : (o.serialSize x).toNat = size
  least : o.minSize.toNat ≤ size
  most : size ≤ o.maxSize.toNat

/-- What is within what is left of the maximum is between the bounds. -/
lemma Shape.sized {o : SerialType} {shape : Shape o} (compiles : shape.Compiles) {x : o.Val}
    (short : shape.counted x < 2 ^ 64) (room : shape.Plain ∨ shape.counted x ≤ shape.largest) :
    Sized o x (shape.counted x) where
  counted := by rw [shape.serialSize_toNat compiles, Nat.mod_eq_of_lt short]
  least := (shape.minSize_toNat compiles).trans_le (shape.least_le x)
  most := by
    rw [shape.maxSize_toNat compiles]
    exact room.elim (fun plain => plain.le_largest x short) id

/-! ## Agreement -/

/-- The encoder appends what `serial_size` counts, and that is between the two bounds. -/
def SizesAgree (f : Format) (o : SerialType) (x : o.Val) : Prop :=
  (∀ buffer, (o.serialize f x buffer).2.length = buffer.length + (o.serialSize x).toNat) ∧
    o.minSize ≤ o.serialSize x ∧ o.serialSize x ≤ o.maxSize

/-- The size functions agree with the encoder exactly where it does not exceed what is counted, and the sums of the
    maxima leave room for the value. -/
theorem sizes_agree_iff (f : Format) {o : SerialType} (shape : Shape o) (compiles : shape.Compiles) (x : o.Val)
    (short : shape.counted x < 2 ^ 64) :
    SizesAgree f o x ↔ shape.excess x = 0 ∧ (shape.Plain ∨ shape.counted x ≤ shape.largest) := by
  obtain ⟨bytes, appends, length⟩ := shape.appends (f := f) x
  have counts : (o.serialSize x).toNat = shape.counted x := by
    rw [shape.serialSize_toNat compiles, Nat.mod_eq_of_lt short]
  have appended : ∀ buffer, (o.serialize f x buffer).2.length = buffer.length + bytes.length := by
    intro buffer
    rw [appends buffer, List.length_append]
  constructor
  · rintro ⟨same, _, most⟩
    have total := (appended []).symm.trans (same [])
    rw [counts] at total
    rw [UInt64.le_iff_toNat_le, counts, shape.maxSize_toNat compiles] at most
    exact ⟨by omega, .inr most⟩
  · rintro ⟨exact, room⟩
    have sized := Shape.sized compiles short room
    refine ⟨fun buffer => ?_, ?_, ?_⟩
    · rw [appended, counts]
      omega
    · rw [UInt64.le_iff_toNat_le, counts]
      exact sized.least
    · rw [UInt64.le_iff_toNat_le, counts]
      exact sized.most

/-- A vector of optionals. -/
theorem sizes_agree_vector :
    SizesAgree ⟨true, true⟩ (sequence (optional (word 2))) [none, some (7 : BitVec 16)] :=
  (sizes_agree_iff ⟨true, true⟩ (.sequence (.optional (.word 2))) (show 2 < 2 ^ 64 by decide) _ (by decide)).2
    ⟨rfl, .inl trivial⟩

/-- A vector does not ask for the maximum of its pairs. -/
example : (Shape.sequence (.pair (.sequence (.word 1)) (.word 4))).Measured [([(1 : BitVec 8)], (7 : BitVec 32))] :=
  ⟨rfl, .inl trivial⟩

/-- A duration of 32 bits is encoded in eight bytes. -/
theorem short_duration_disagrees : ¬ ∀ (f : Format) (o : SerialType) (shape : Shape o) (x : o.Val),
    shape.Compiles → SizesAgree f o x := by
  intro all
  have agree := all ⟨true, true⟩ (chrono 4 1000000000 1) (.duration 4 _ _) (5 : BitVec 32)
    (show 4 < 2 ^ 64 by decide)
  exact absurd (agree.1 []) (by decide)

/-- The maximum of a container and a number is less than the number's size. -/
theorem container_and_number_disagree (f : Format) {elem : SerialType} {n : ℕ}
    (size : n = 1 ∨ n = 2 ∨ n = 4 ∨ n = 8) (x : List elem.Val) (y : BitVec (8 * n))
    (short : (rangeSize elem x).toNat + n < 2 ^ 64) :
    ¬SizesAgree f (pair (sequence elem) (word n)) (x, y) := by
  intro agree
  have bound := UInt64.le_iff_toNat_le.1 agree.2.2
  have small : (UInt64.ofNat n).toNat = n := UInt64.toNat_ofNat_of_lt' (show n < 2 ^ 64 by omega)
  have total : (rangeSize elem x + UInt64.ofNat n).toNat = (rangeSize elem x).toNat + n := by
    rw [toNat_add_small (by rw [small]; exact short), small]
  have wrapped : (sizeMax + UInt64.ofNat n).toNat = n - 1 := by
    rw [UInt64.toNat_add, small, sizeMax_toNat]
    omega
  change (rangeSize elem x + UInt64.ofNat n).toNat ≤ (sizeMax + UInt64.ofNat n).toNat at bound
  omega

end OsterLib.Serialization
