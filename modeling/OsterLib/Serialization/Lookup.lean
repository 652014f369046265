import OsterLib.Lib.Post
import OsterLib.Lib.Run
import OsterLib.Serialization.RoundTrip

/-!
# Registered sizes

When a decode is repeated, a container passes over its size if at least eight consumed bytes are still
to be passed over, and then looks the size up at its level. The lookup fails where no size is registered
there, and inside a `noexcept` function that ends the process.
-/

namespace OsterLib.Serialization
open OsterLib.Lib StreamSerializer SerialType

/-! ## What a decode looks up -/

namespace StreamSerializer
variable {α V : Type} {s : StreamSerializer α}

/-- What is registered below level `k` stays, and `p` bytes at least are passed over on success. -/
structure Found (k p : Nat) (s : StreamSerializer α) (outcome : Outcome α V) : Prop where
  level : outcome.2.2.level = s.level
  below : ∀ l, 0 < l → l < k → outcome.2.2.registered l = s.registered l
  passed : outcome.1 = .none → outcome.2.2.lag ≤ s.lag - p

/-- A decode looks up nothing that is not there. -/
def Finds (k p : Nat) (s : StreamSerializer α) (decode : Except Fault (Outcome α V)) : Prop :=
  Post (· ≠ .missingRegistered) (Found k p s) decode

/-- A number finds what is registered, as it registers nothing. -/
lemma found_numeric (k n : Nat) (ofBytes : List Byte → V) (load : α → Byte) (x : V) :
    Found k 0 s (s.deserializeNumeric n ofBytes load x) := by
  unfold deserializeNumeric
  cases s.mbv.readTrivial n with
  | mk cells mbv =>
    cases cells with
    | none => exact ⟨rfl, fun _ _ _ => rfl, nofun⟩
    | some cells =>
      exact ⟨rfl, fun _ _ _ => rfl, fun _ => Nat.le_of_eq (lag_consume s _)⟩

/-- Around a body that finds what it looks up, `deserialize` does so too. -/
lemma Finds.nested {p : Nat} {body : V → StreamSerializer α → Except Fault (Outcome α V)} {x : V}
    (finds : Finds (s.level + 1) p s.enter (body x s.enter)) :
    Finds (s.level + 1) p s (deserializeNested body x s) := by
  refine Post.bind finds fun ⟨code, y, t⟩ found => ?_
  have level : t.level = s.level + 1 := found.level
  by_cases ok : code = .none
  · have lag := found.passed ok
    simp only [if_pos ok, level]
    by_cases top : s.level = 0
    · rw [if_pos (by rw [top])]
      refine ⟨rfl, fun l pos lt => by omega, fun _ => ?_⟩
      show (t.end_ - t.end_).toNat ≤ _
      rw [UInt64.sub_self]
      exact Nat.zero_le _
    · rw [if_neg (by omega)]
      refine ⟨rfl, fun l pos lt => ?_, fun _ => lag⟩
      exact (Function.update_of_ne (Nat.ne_of_lt lt) ..).trans (found.below l pos lt)
  · simp only [if_neg ok, level]
    exact ⟨rfl, found.below, fun none => absurd none ok⟩

end StreamSerializer

/-! ## What each shape passes over

For each shape, what its parts look up decides what it looks up. -/

section shapes
variable {f : Format} {α V W : Type} {load : α → Byte} {s t u : StreamSerializer α} {k p q : Nat}
  {code code' : SerializationEC} {x : V} {y : W}

/-- Nothing has changed. -/
lemma StreamSerializer.Found.stay (k : Nat) (code : SerializationEC) (x : V) : Found k 0 s (code, x, s) :=
  ⟨rfl, fun _ _ _ => rfl, fun _ => Nat.le_refl _⟩

/-- A failure with another destination. -/
lemma StreamSerializer.Found.fail {j : Nat} (found : Found k p s (code, x, t)) (le : j ≤ k) (failed : code ≠ .none)
    (y : W) : Found j q s (code, y, t) :=
  ⟨found.level, fun l pos lt => found.below l pos (Nat.lt_of_lt_of_le lt le),
    fun ok => absurd ok failed⟩

/-- Two decodes one after the other pass over what both pass over. -/
lemma StreamSerializer.Found.then {j : Nat} (found : Found k p s (code, x, t)) (ok : code = .none)
    (next : Found j q t (code', y, u)) (le : j ≤ k) : Found j (p + q) s (code', y, u) where
  level := next.level.trans found.level
  below l pos lt :=
    (next.below l pos lt).trans (found.below l pos (Nat.lt_of_lt_of_le lt le))
  passed done := by
    have before : t.lag ≤ s.lag - p := found.passed ok
    have after : u.lag ≤ t.lag - q := next.passed done
    show u.lag ≤ s.lag - (p + q)
    omega

/-- The value of a part becomes the value of the whole. -/
lemma StreamSerializer.Found.as (found : Found k p s (code, x, t)) (y : W) : Found k p s (code, y, t) :=
  ⟨found.level, found.below, found.passed⟩

/-- What is found above one level is found above a lower one. -/
lemma StreamSerializer.Found.lower {j : Nat} {outcome : Outcome α V} (found : Found k p s outcome) (le : j ≤ k) :
    Found j p s outcome :=
  ⟨found.level, fun l pos lt => found.below l pos (Nat.lt_of_lt_of_le lt le), found.passed⟩

/-- More bytes are passed over than asked for. -/
lemma StreamSerializer.Found.less {outcome : Outcome α V} (found : Found k p s outcome) (le : q ≤ p) :
    Found k q s outcome :=
  ⟨found.level, found.below, fun done => (found.passed done).trans (Nat.sub_le_sub_left le _)⟩

/-- A duration finds what is registered. -/
lemma finds_chrono (n num den : Nat) (x : BitVec (8 * n)) :
    Finds s.level 0 s (deserializeChrono n num den f load x s) := by
  have number := found_numeric (s := s) s.level 8 (fun bytes => BitVec.ofNat 64 (readWord f bytes))
    load 0
  unfold deserializeChrono
  generalize s.deserializeNumeric 8 (fun bytes => BitVec.ofNat 64 (readWord f bytes)) load 0 = read
    at number ⊢
  obtain ⟨code, count, t⟩ := read
  cases code <;> exact number.as _

/-- The second part of a pair finds what the first one leaves. -/
lemma finds_pair_after {a b : SerialType} {x : a.Val × b.Val} {z : a.Val}
    (run : a.deserialize f load x.1 s = .ok (code, z, t)) (found : Found (s.level + 1) p s (code, z, t))
    (second : code = .none → Finds (s.level + 1) q t (b.deserialize f load x.2 t)) :
    Finds s.level (p + q) s (deserializePair a b f load x s) := by
  unfold deserializePair
  rw [run]
  change Finds s.level (p + q) s (if code = .none then _ else _)
  by_cases ok : code = .none
  · rw [if_pos ok]
    refine Post.bind (second ok) fun ⟨code', w, u⟩ next => ?_
    exact ((found.then ok next (Nat.le_refl _)).as _).lower (Nat.le_succ _)
  · rw [if_neg ok]
    exact found.fail (Nat.le_succ _) ok _

/-- A pair finds what is registered if both parts do. -/
lemma finds_pair {a b : SerialType} {x : a.Val × b.Val}
    (first : Finds (s.level + 1) p s (a.deserialize f load x.1 s))
    (second : ∀ t : StreamSerializer α, t.level = s.level → t.lag ≤ s.lag - p →
      Finds (s.level + 1) q t (b.deserialize f load x.2 t)) :
    Finds s.level (p + q) s (deserializePair a b f load x s) := by
  cases run : a.deserialize f load x.1 s with
  | error fault =>
    rw [run] at first
    unfold deserializePair
    rw [run]
    exact first
  | ok outcome =>
    obtain ⟨code, z, t⟩ := outcome
    rw [run] at first
    exact finds_pair_after run first fun ok => second t first.level (first.passed ok)

/-- An optional or a pointer that reads its flag. -/
lemma finds_maybe_read {a : SerialType} (cleared : Option a.Val → Option a.Val)
    (fresh : s.tryAdvance 1 = none)
    (inner : ∀ t : StreamSerializer α, t.level = s.level → t.lag ≤ s.lag →
      Finds (s.level + 1) 0 t (a.deserialize f load a.init t)) (x : Option a.Val) :
    Finds s.level 0 s (deserializeMaybe a cleared f load x s) := by
  have number := found_numeric (s := s) (s.level + 1) 1 (readFlag f) load false
  unfold deserializeMaybe
  rw [fresh]
  generalize s.deserializeNumeric 1 (readFlag f) load false = read at number ⊢
  obtain ⟨code, flag, t⟩ := read
  cases code with
  | none =>
    cases flag with
    | false => exact (number.lower (Nat.le_succ _)).as _
    | true =>
      refine Post.bind (inner t number.level (number.passed rfl)) fun ⟨code, y, u⟩ found => ?_
      exact ((number.then rfl found (Nat.le_refl _)).as _).lower (Nat.le_succ _)
  | _ => exact number.fail (Nat.le_succ _) nofun _

/-- An optional or a pointer that passes over its flag. -/
lemma finds_maybe_skip {a : SerialType} (cleared : Option a.Val → Option a.Val) (skip : 1 ≤ s.lag)
    {x : Option a.Val}
    (inner : ∀ value ∈ x, ∀ t : StreamSerializer α, t.level = s.level → t.lag = s.lag - 1 →
      t.registered = s.registered → Finds (s.level + 1) p t (a.deserialize f load value t))
    (zero : x = none → p = 0) :
    Finds s.level (1 + p) s (deserializeMaybe a cleared f load x s) := by
  obtain ⟨t, advanced, lag, level, registered, _⟩ := tryAdvance_some 1 skip
  have found : Found (s.level + 1) 1 s (SerializationEC.none, x, t) :=
    ⟨level, fun _ _ _ => congrFun registered _, fun _ => Nat.le_of_eq lag⟩
  unfold deserializeMaybe
  rw [advanced]
  cases x with
  | none =>
    obtain rfl := zero rfl
    exact (found.as _).lower (Nat.le_succ _)
  | some value =>
    refine Post.bind (inner value rfl t level lag registered) fun ⟨code, y, u⟩ next => ?_
    exact ((found.then rfl next (Nat.le_refl _)).as _).lower (Nat.le_succ _)

section variant
variable {n : Nat} {alternatives : Fin (n + 1) → SerialType}

/-- The alternative of a variant finds what is registered. -/
lemma finds_alternative {x : Σ i, (alternatives i).Val}
    (inner : Finds (s.level + 1) p s ((alternatives x.1).deserialize f load x.2 s)) :
    Finds (s.level + 1) p s (deserializeAlternative alternatives f load x s) :=
  Post.bind inner fun ⟨_, _, _⟩ found => found.as _

/-- A variant whose index is read finds what is registered. -/
lemma finds_variant_read (fresh : s.tryAdvance 8 = none)
    (inner : ∀ i, ∀ t : StreamSerializer α, t.level = s.level → t.lag ≤ s.lag →
      Finds (t.level + 1) 0 t ((alternatives i).deserialize f load (alternatives i).init t))
    (x : Σ i, (alternatives i).Val) :
    Finds s.level 0 s (deserializeVariant alternatives f load x s) := by
  have number := found_numeric (s := s) (s.level + 1) 8
    (fun bytes => UInt64.ofNat (readWord f bytes)) load (UInt64.ofNat (2 ^ 64 - 1))
  unfold deserializeVariant deserializeSize
  rw [fresh]
  generalize s.deserializeNumeric 8 (fun bytes => UInt64.ofNat (readWord f bytes)) load
    (UInt64.ofNat (2 ^ 64 - 1)) = read at number ⊢
  obtain ⟨code, index, t⟩ := read
  cases code with
  | none =>
    unfold emplace
    by_cases lt : index.toNat < n + 1
    · simp only [dif_pos lt]
      have level : t.level = s.level := number.level
      have inside := finds_alternative
        (x := ⟨⟨index.toNat, lt⟩, (alternatives ⟨index.toNat, lt⟩).init⟩)
        (inner ⟨index.toNat, lt⟩ t level (number.passed rfl))
      rw [level] at inside
      exact inside.imp fun ⟨code, y, u⟩ found =>
        (number.then rfl found (Nat.le_refl _)).lower (Nat.le_succ _)
    · simp only [dif_neg lt]
      exact ⟨number.level, fun l pos lt => number.below l pos (Nat.lt_succ_of_lt lt), nofun⟩
  | _ => exact number.fail (Nat.le_succ _) nofun _

/-- A variant whose index is passed over finds what is registered. -/
lemma finds_variant_skip (skip : 8 ≤ s.lag) {x : Σ i, (alternatives i).Val}
    (inner : ∀ t : StreamSerializer α, t.level = s.level → t.lag = s.lag - 8 →
      t.registered = s.registered →
      Finds (t.level + 1) p t ((alternatives x.1).deserialize f load x.2 t)) :
    Finds s.level (8 + p) s (deserializeVariant alternatives f load x s) := by
  obtain ⟨t, advanced, lag, level, registered, _⟩ := tryAdvance_some 8 skip
  have found : Found (s.level + 1) 8 s (SerializationEC.none, x, t) :=
    ⟨level, fun _ _ _ => congrFun registered _, fun _ => Nat.le_of_eq lag⟩
  unfold deserializeVariant
  rw [advanced]
  have inside := finds_alternative (inner t level lag registered)
  rw [level] at inside
  exact inside.imp fun ⟨code, y, u⟩ next =>
    (found.then rfl next (Nat.le_refl _)).lower (Nat.le_succ _)

end variant
section ranges
variable {elem : SerialType} (f load)

/-- What the head of a container leaves: the size is registered, and `p` bytes at least are passed over. -/
structure Headed (p : Nat) (s : StreamSerializer α) (x : List elem.Val)
    (head : SerializationEC × UInt64 × List elem.Val × StreamSerializer α) : Prop where
  found : Found s.level p s (head.1, head.2.2.1, head.2.2.2)
  registered : head.1 = .none → 0 < (head.2.2.2.registered s.level).length

/-- The size of a range is read. -/
lemma headed_read (fresh : s.tryAdvance 8 = none) (x : List elem.Val) :
    Post (· ≠ .missingRegistered) (Headed 0 s x) (deserializeRangeSize elem f load x s) := by
  have number := found_numeric (s := s) (s.level + 1) 8
    (fun bytes => UInt64.ofNat (readWord f bytes)) load 0
  unfold deserializeRangeSize deserializeSize
  rw [fresh]
  generalize s.deserializeNumeric 8 (fun bytes => UInt64.ofNat (readWord f bytes)) load 0 = read
    at number ⊢
  obtain ⟨code, size, t⟩ := read
  have level : t.level = s.level := number.level
  cases code with
  | none =>
    refine ⟨⟨level, fun l pos lt => ?_, number.passed⟩, fun _ => ?_⟩
    · rw [← number.below l pos (Nat.lt_succ_of_lt lt)]
      exact Function.update_of_ne (by rw [level]; exact Nat.ne_of_lt lt) ..
    · show 0 < (Function.update t.registered t.level (t.registered t.level ++ [size]) s.level).length
      rw [level, Function.update_self, List.length_append]
      exact Nat.succ_pos _
  | _ => exact ⟨number.fail (Nat.le_succ _) nofun _, nofun⟩

/-- The size of a range is passed over, and the registered one is taken. -/
lemma headed_skip (skip : 8 ≤ s.lag) {size : UInt64} {sizes : List UInt64}
    (registered : s.registered s.level = size :: sizes) (x : List elem.Val) :
    ∃ t : StreamSerializer α, deserializeRangeSize elem f load x s = .ok (.none, size, x, t) ∧
      t.lag = s.lag - 8 ∧ t.level = s.level ∧ t.registered = s.registered ∧ t.mbv = s.mbv := by
  obtain ⟨t, advanced, lag, level, kept, mbv⟩ := tryAdvance_some 8 skip
  refine ⟨t, ?_, lag, level, kept, mbv⟩
  have there : t.getValueAt 0 = .ok size := by
    unfold getValueAt
    rw [kept, level, registered]
    rfl
  unfold deserializeRangeSize
  rw [advanced]
  change (t.getValueAt 0 >>= _) = _
  rw [there]
  rfl

/-- The loop of a container, given its first element and, where there are others, these. -/
lemma finds_elements (insert : List elem.Val → elem.Val → List elem.Val) (count : Nat)
    (x : List elem.Val)
    (first : 0 < count → Finds (s.level + 1) p s (elem.deserialize f load elem.init s))
    (others : 1 < count → ∀ t : StreamSerializer α, t.level = s.level → t.lag ≤ s.lag - p →
      Finds (s.level + 1) 0 t (elem.deserialize f load elem.init t)) :
    Finds (s.level + 1) 0 s (deserializeElements elem insert f load count x s) := by
  induction count generalizing x s p with
  | zero => exact Found.stay _ _ _
  | succ count ih =>
    refine Post.bind (first (Nat.succ_pos _)) fun ⟨code, y, t⟩ found => ?_
    by_cases ok : code = .none
    · simp only [if_pos ok]
      have level : t.level = s.level := found.level
      have passed : t.lag ≤ s.lag - p := found.passed ok
      have rest := ih (p := 0) (s := t) (insert x y)
        (fun pos => by rw [level]; exact others (Nat.succ_lt_succ pos) t level passed)
        (fun two u levelu le => by
          rw [level]
          exact others (by omega) u (levelu.trans level) (by omega))
      rw [level] at rest
      exact rest.imp fun ⟨_, _, _⟩ next => (found.then ok next (Nat.le_refl _)).less (Nat.zero_le _)
    · simp only [if_neg ok]
      exact found.fail (Nat.le_refl _) ok _

omit f load in
/-- A value that is registered can be updated. -/
lemma registered_update (s : StreamSerializer α) (index : Nat)
    (there : index < (s.registered s.level).length) (value : UInt64) (x : V) :
    ∃ t : StreamSerializer α, s.updateValueAt value index = .ok t ∧ Found s.level 0 s (.none, x, t) ∧
      (t.registered t.level).length = (s.registered s.level).length := by
  let values := (s.registered s.level).set index value
  refine ⟨{ s with registered := Function.update s.registered s.level values }, ?_,
    ⟨rfl, fun l _ lt => Function.update_of_ne (Nat.ne_of_lt lt) .., fun _ => Nat.le_refl _⟩, ?_⟩
  · unfold updateValueAt
    rw [List.getElem?_eq_getElem there]
  · show (Function.update s.registered s.level values s.level).length = _
    rw [Function.update_self, List.length_set]

/-- The loop of a forward list, whose number of elements is registered second. -/
lemma finds_front (old : UInt64) (count : Nat) (x : List elem.Val)
    (both : 1 < (s.registered s.level).length) (inside : 0 < s.level)
    (first : 0 < count → Finds (s.level + 1) p s (elem.deserialize f load elem.init s))
    (others : 1 < count → ∀ t : StreamSerializer α, t.level = s.level → t.lag ≤ s.lag - p →
      Finds (s.level + 1) 0 t (elem.deserialize f load elem.init t)) :
    Finds s.level 0 s (deserializeFront elem old f load count x s) := by
  induction count generalizing x s p with
  | zero => exact Found.stay _ _ _
  | succ count ih =>
    refine Post.bind (first (Nat.succ_pos _)) fun ⟨code, y, t⟩ found => ?_
    have level : t.level = s.level := found.level
    by_cases ok : code = .none
    · simp only [if_pos ok]
      have passed : t.lag ≤ s.lag - p := found.passed ok
      have own : t.registered t.level = s.registered s.level := by
        rw [level]
        exact found.below s.level inside (Nat.lt_succ_self _)
      obtain ⟨u, update, kept, length⟩ :=
        registered_update t 1 (by rw [own]; exact both) (old + 1) y
      rw [update]
      have levelu : u.level = s.level := kept.level.trans level
      have lag : u.lag ≤ s.lag - p := (kept.passed rfl).trans passed
      have rest := ih (p := 0) (s := u) (y :: x) (by rw [length, own]; exact both)
        (by rw [levelu]; exact inside)
        (fun pos => by rw [levelu]; exact others (Nat.succ_lt_succ pos) u levelu lag)
        (fun two v levelv le => by
          rw [levelu]
          exact others (by omega) v (levelv.trans levelu) (by omega))
      rw [levelu] at rest
      have updated := kept.lower (Nat.le_of_eq level.symm)
      exact rest.imp fun ⟨_, _, _⟩ next =>
        ((found.then ok updated (Nat.le_succ _)).then rfl next (Nat.le_refl _)).less (Nat.zero_le _)
    · simp only [if_neg ok]
      exact found.fail (Nat.le_succ _) ok _

/-- The elements of a forward list find the number that is registered second. -/
lemma finds_frontAll (size : UInt64) (x : List elem.Val) (inside : 0 < s.level)
    (some : 0 < (s.registered s.level).length) {count : Nat}
    (counts : count = (size - ((s.registered s.level)[1]?).getD 0).toNat)
    (first : 0 < count → ∀ t : StreamSerializer α, t.level = s.level → t.lag = s.lag →
      (∀ l, s.level < l → t.registered l = s.registered l) →
      Finds (s.level + 1) p t (elem.deserialize f load elem.init t))
    (others : 1 < count → ∀ t : StreamSerializer α, t.level = s.level → t.lag ≤ s.lag - p →
      Finds (s.level + 1) 0 t (elem.deserialize f load elem.init t)) :
    Finds s.level 0 s (deserializeFrontAll elem size f load x s) := by
  unfold deserializeFrontAll
  by_cases single : s.registeredSize = 1
  · have none : (s.registered s.level)[1]? = Option.none :=
      List.getElem?_eq_none (Nat.le_of_eq single)
    rw [none] at counts
    simp only [if_pos single]
    let t := s.registerValue (UInt64.ofNat x.length)
    have registered : t.registered s.level = s.registered s.level ++ [UInt64.ofNat x.length] :=
      Function.update_self ..
    have loop := finds_front f load (s := t) 0 count x
      (by
        show 1 < (t.registered s.level).length
        rw [registered, List.length_append]
        exact Nat.succ_lt_succ some)
      inside
      (fun pos => first pos t rfl rfl fun l lt => Function.update_of_ne (Nat.ne_of_gt lt) ..)
      others
    change Finds s.level 0 s (deserializeFront elem 0 f load (size - 0).toNat x t >>= _)
    rw [show (size - 0).toNat = count from counts.symm]
    refine Post.bind loop fun ⟨code, y, u⟩ found => ⟨found.level, fun l pos lt => ?_, found.passed⟩
    exact (found.below l pos lt).trans (Function.update_of_ne (Nat.ne_of_lt lt) ..)
  · have both : 1 < (s.registered s.level).length :=
      Nat.lt_of_le_of_ne some (fun e => single e.symm)
    have there : s.getValueAt 1 = .ok ((s.registered s.level)[1]) := by
      unfold getValueAt
      rw [List.getElem?_eq_getElem both]
    rw [List.getElem?_eq_getElem both] at counts
    simp only [if_neg single, there]
    have loop := finds_front f load (s := s) ((s.registered s.level)[1]) count x both
      inside (fun pos => first pos s rfl rfl fun _ _ => rfl) others
    change Finds s.level 0 s
      (deserializeFront elem (s.registered s.level)[1] f load
        (size - (s.registered s.level)[1]).toNat x s >>= _)
    rw [show (size - (s.registered s.level)[1]).toNat = count from counts.symm]
    exact Post.bind loop fun ⟨code, y, u⟩ found => found.as _

/-! A container reads its size where fewer than eight bytes are to be passed over, and looks it up
otherwise. -/

/-- A range whose size is read finds what is registered. -/
lemma finds_range_read (insert : List elem.Val → elem.Val → List elem.Val)
    (fresh : s.tryAdvance 8 = none)
    (all : ∀ t : StreamSerializer α, t.level = s.level → t.lag ≤ s.lag →
      Finds (s.level + 1) 0 t (elem.deserialize f load elem.init t)) (x : List elem.Val) :
    Finds s.level 0 s (deserializeRange elem insert f load x s) := by
  refine Post.bind (headed_read f load fresh x) fun ⟨code, size, y, t⟩ headed => ?_
  by_cases ok : code = .none
  · simp only [if_pos ok]
    have level : t.level = s.level := headed.found.level
    have lag : t.lag ≤ s.lag := headed.found.passed ok
    have loop := finds_elements f load (s := t) (p := 0) insert
      (size - UInt64.ofNat y.length).toNat y
      (fun _ => by rw [level]; exact all t level lag)
      (fun _ u levelu le => by
        rw [level]
        exact all u (levelu.trans level) (Nat.le_trans le lag))
    exact loop.imp fun ⟨_, _, _⟩ next =>
      headed.found.then ok (next.lower (by rw [level]; exact Nat.le_succ _)) (Nat.le_refl _)
  · simp only [if_neg ok]
    exact headed.found.fail (Nat.le_refl _) ok _

/-- A range whose size is passed over finds what is registered, if its first element and the others do. -/
lemma finds_range_skip (insert : List elem.Val → elem.Val → List elem.Val) (skip : 8 ≤ s.lag)
    {size : UInt64} {sizes : List UInt64} (registered : s.registered s.level = size :: sizes)
    {x : List elem.Val} {count : Nat} (counts : count = (size - UInt64.ofNat x.length).toNat)
    (first : 0 < count → ∀ t : StreamSerializer α, t.level = s.level → t.lag = s.lag - 8 →
      (∀ l, s.level < l → t.registered l = s.registered l) →
      Finds (s.level + 1) p t (elem.deserialize f load elem.init t))
    (others : 1 < count → ∀ t : StreamSerializer α, t.level = s.level → t.lag ≤ s.lag - 8 - p →
      Finds (s.level + 1) 0 t (elem.deserialize f load elem.init t)) :
    Finds s.level 8 s (deserializeRange elem insert f load x s) := by
  obtain ⟨t, head, lag, level, kept, _⟩ := headed_skip f load skip registered x
  have found : Found s.level 8 s (SerializationEC.none, x, t) :=
    ⟨level, fun _ _ _ => congrFun kept _, fun _ => Nat.le_of_eq lag⟩
  unfold deserializeRange
  rw [head]
  change Finds s.level 8 s (deserializeElements elem insert f load
    (size - UInt64.ofNat x.length).toNat x t)
  rw [← counts]
  have loop := finds_elements f load (s := t) insert count x
    (fun pos => by rw [level]; exact first pos t level lag fun l _ => congrFun kept l)
    (fun two u levelu le => by
      rw [level]
      exact others two u (levelu.trans level) (lag ▸ le))
  exact loop.imp fun ⟨_, _, _⟩ next =>
    found.then rfl (next.lower (by rw [level]; exact Nat.le_succ _)) (Nat.le_refl _)

/-- A forward list whose size is read finds what is registered. -/
lemma finds_forwardList_read (inside : 0 < s.level) (fresh : s.tryAdvance 8 = none)
    (all : ∀ t : StreamSerializer α, t.level = s.level → t.lag ≤ s.lag →
      Finds (s.level + 1) 0 t (elem.deserialize f load elem.init t)) (x : List elem.Val) :
    Finds s.level 0 s (deserializeForwardList elem f load x s) := by
  refine Post.bind (headed_read f load fresh x) fun ⟨code, size, y, t⟩ headed => ?_
  by_cases ok : code = .none
  · simp only [if_pos ok]
    have level : t.level = s.level := headed.found.level
    have lag : t.lag ≤ s.lag := headed.found.passed ok
    have loop := finds_frontAll f load (s := t) (p := 0) size y
      (by rw [level]; exact inside) (by rw [level]; exact headed.registered ok) rfl
      (fun _ u levelu le _ => by
        rw [level]
        exact all u (levelu.trans level) (Nat.le_trans (Nat.le_of_eq le) lag))
      (fun _ u levelu le => by
        rw [level]
        exact all u (levelu.trans level) (Nat.le_trans le lag))
    exact loop.imp fun ⟨_, _, _⟩ next =>
      headed.found.then ok (next.lower (Nat.le_of_eq level.symm)) (Nat.le_refl _)
  · simp only [if_neg ok]
    exact headed.found.fail (Nat.le_refl _) ok _

/-- A forward list whose size is passed over finds what is registered. -/
lemma finds_forwardList_skip (inside : 0 < s.level) (skip : 8 ≤ s.lag)
    {size : UInt64} {sizes : List UInt64} (registered : s.registered s.level = size :: sizes)
    (x : List elem.Val) {count : Nat} (counts : count = (size - (sizes.head?).getD 0).toNat)
    (first : 0 < count → ∀ t : StreamSerializer α, t.level = s.level → t.lag = s.lag - 8 →
      (∀ l, s.level < l → t.registered l = s.registered l) →
      Finds (s.level + 1) p t (elem.deserialize f load elem.init t))
    (others : 1 < count → ∀ t : StreamSerializer α, t.level = s.level → t.lag ≤ s.lag - 8 - p →
      Finds (s.level + 1) 0 t (elem.deserialize f load elem.init t)) :
    Finds s.level 8 s (deserializeForwardList elem f load x s) := by
  obtain ⟨t, head, lag, level, kept, _⟩ := headed_skip f load skip registered x
  have found : Found s.level 8 s (SerializationEC.none, x, t) :=
    ⟨level, fun _ _ _ => congrFun kept _, fun _ => Nat.le_of_eq lag⟩
  have own : t.registered t.level = size :: sizes := by rw [level, kept, registered]
  unfold deserializeForwardList
  rw [head]
  change Finds s.level 8 s (deserializeFrontAll elem size f load x t)
  have loop := finds_frontAll f load (s := t) size x (by rw [level]; exact inside)
    (by rw [own]; exact Nat.succ_pos _)
    (show count = _ by rw [own, counts, List.getElem?_cons_succ, List.head?_eq_getElem?])
    (fun pos u levelu le above => by
      rw [level]
      refine first pos u (levelu.trans level) (le.trans lag) fun l lt => ?_
      rw [above l (by rw [level]; exact lt), kept])
    (fun two u levelu le => by
      rw [level]
      exact others two u (levelu.trans level) (lag ▸ le))
  exact loop.imp fun ⟨_, _, _⟩ next =>
    found.then rfl (next.lower (Nat.le_of_eq level.symm)) (Nat.le_refl _)

/-- The loop of an array, which registers how much remains. -/
lemma finds_items (remain : UInt64) {n : Nat} (count i : Nat) (x : Fin n → elem.Val)
    (some : 0 < (s.registered s.level).length) (inside : 0 < s.level)
    (first : 0 < count → ∀ lt : i < n,
      Finds (s.level + 1) p s (elem.deserialize f load (x ⟨i, lt⟩) s))
    (others : 1 < count → ∀ value, ∀ t : StreamSerializer α, t.level = s.level → t.lag ≤ s.lag - p →
      Finds (s.level + 1) 0 t (elem.deserialize f load value t)) :
    Finds s.level 0 s (deserializeItems elem remain f load count i x s) := by
  induction count generalizing i x s p with
  | zero => exact Found.stay _ _ _
  | succ count ih =>
    unfold deserializeItems
    by_cases lt : i < n
    · rw [dif_pos lt]
      refine Post.bind (first (Nat.succ_pos _) lt) ?_
      rintro ⟨code, y, t⟩ found
      have level : t.level = s.level := found.level
      have own : t.registered t.level = s.registered s.level := by
        rw [level]
        exact found.below s.level inside (Nat.lt_succ_self _)
      obtain ⟨u, update, kept, length⟩ :=
        registered_update t 0 (by rw [own]; exact some) (remain - 1) y
      have levelu : u.level = s.level := kept.level.trans level
      simp only [update]
      have updated := kept.lower (Nat.le_of_eq level.symm)
      by_cases ok : code = .none
      · have lag : u.lag ≤ s.lag - p := (kept.passed rfl).trans (found.passed ok)
        have rest := ih (p := 0) (s := u) (i + 1) (Function.update x ⟨i, lt⟩ y)
          (by rw [length, own]; exact some) (by rw [levelu]; exact inside)
          (fun pos _ => by rw [levelu]; exact others (Nat.succ_lt_succ pos) _ u levelu lag)
          (fun two value v levelv le => by
            rw [levelu]
            exact others (by omega) value v (levelv.trans levelu) (by omega))
        rw [levelu] at rest
        change Finds s.level 0 s (if code = .none then _ else _)
        rw [if_pos ok]
        refine rest.imp ?_
        rintro ⟨_, _, _⟩ next
        exact ((found.then ok updated (Nat.le_succ _)).then rfl next (Nat.le_refl _)).less (Nat.zero_le _)
      · change Finds s.level 0 s (if code = .none then _ else _)
        rw [if_neg ok]
        exact ⟨levelu, fun l pos lt => (updated.below l pos lt).trans
          (found.below l pos (Nat.lt_succ_of_lt lt)), fun none => absurd none ok⟩
    · rw [dif_neg lt]
      intro wrong
      cases wrong

/-- How many elements of an array of `n` remain at a level: what is registered there, or all. -/
def remaining (n : Nat) (sizes : List UInt64) : UInt64 := (sizes.head?).getD (UInt64.ofNat n)

/-- An array finds how many elements remain. -/
lemma finds_array {n : Nat} (x : Fin n → elem.Val) (inside : 0 < s.level) {i count : Nat}
    (start : i = (UInt64.ofNat n - remaining n (s.registered s.level)).toNat)
    (counts : count = (remaining n (s.registered s.level)).toNat - i)
    (first : 0 < count → ∀ lt : i < n, ∀ t : StreamSerializer α, t.level = s.level → t.lag = s.lag →
      (∀ l, s.level < l → t.registered l = s.registered l) →
      Finds (s.level + 1) p t (elem.deserialize f load (x ⟨i, lt⟩) t))
    (others : 1 < count → ∀ value, ∀ t : StreamSerializer α, t.level = s.level → t.lag ≤ s.lag - p →
      Finds (s.level + 1) 0 t (elem.deserialize f load value t)) :
    Finds s.level 0 s (deserializeArray elem n f load x s) := by
  unfold deserializeArray
  by_cases some : 0 < s.registeredSize
  · have there : s.getValueAt 0 = .ok (remaining n (s.registered s.level)) := by
      unfold getValueAt remaining
      rw [List.getElem?_eq_getElem some, List.head?_eq_getElem?, List.getElem?_eq_getElem some]
      rfl
    simp only [if_pos some, there]
    have loop := finds_items f load (s := s) (remaining n (s.registered s.level)) count
      i x some inside (fun pos lt => first pos lt s rfl rfl fun _ _ => rfl) others
    rw [counts, start] at loop
    exact loop
  · have none : s.registered s.level = [] :=
      List.eq_nil_of_length_eq_zero (Nat.eq_zero_of_not_pos some)
    have all : remaining n (s.registered s.level) = UInt64.ofNat n := by rw [none]; rfl
    rw [all] at start counts
    simp only [if_neg some]
    let t := s.registerValue (UInt64.ofNat n)
    have registered : t.registered s.level = s.registered s.level ++ [UInt64.ofNat n] :=
      Function.update_self ..
    have loop := finds_items f load (s := t) (UInt64.ofNat n) count i x
      (by
        show 0 < (t.registered s.level).length
        rw [registered, List.length_append]
        exact Nat.succ_pos _)
      inside
      (fun pos lt => first pos lt t rfl rfl fun l lt => Function.update_of_ne (Nat.ne_of_gt lt) ..)
      others
    rw [counts, start] at loop
    exact loop.imp fun ⟨_, _, _⟩ next => ⟨next.level, fun l pos lt =>
      (next.below l pos lt).trans (Function.update_of_ne (Nat.ne_of_lt lt) ..), next.passed⟩

end ranges
end shapes

/-! ## Types that look up nothing they do not have -/

/-- Every type that the templates build. -/
inductive Built : SerialType → Prop
  | word (n : Nat) : Built (word n)
  | bool : Built bool
  | chrono (n num den : Nat) : Built (chrono n num den)
  | empty : Built empty
  | pair {a b : SerialType} : Built a → Built b → Built (pair a b)
  | optional {a : SerialType} : Built a → Built (optional a)
  | pointer {a : SerialType} : Built a → Built (pointer a)
  | variant {n : Nat} {alternatives : Fin (n + 1) → SerialType} :
      (∀ i, Built (alternatives i)) → Built (variant alternatives)
  | sequence {elem : SerialType} : Built elem → Built (sequence elem)
  | associative {elem : SerialType} {keys : Keys elem} : Built elem → Built (associative elem keys)
  | forwardList {elem : SerialType} : Built elem → Built (forwardList elem)
  | array {elem : SerialType} (n : Nat) : Built elem → Built (array elem n)

/-- The types without a container. -/
inductive Plain : SerialType → Prop
  | word (n : Nat) : Plain (word n)
  | bool : Plain bool
  | chrono (n num den : Nat) : Plain (chrono n num den)
  | empty : Plain empty
  | pair {a b : SerialType} : Plain a → Plain b → Plain (pair a b)
  | optional {a : SerialType} : Plain a → Plain (optional a)
  | pointer {a : SerialType} : Plain a → Plain (pointer a)
  | variant {n : Nat} {alternatives : Fin (n + 1) → SerialType} :
      (∀ i, Plain (alternatives i)) → Plain (variant alternatives)
  | array {elem : SerialType} (n : Nat) : Plain elem → Plain (array elem n)

/-- Whatever the destination holds, a decode finds what it looks up when the number of bytes to pass over
    is as `few` asks. -/
def FindsAll (f : Format) (few : Nat → Prop) (o : SerialType) : Prop :=
  ∀ {α : Type} (load : α → Byte) (x : o.Val) (s : StreamSerializer α), few s.lag →
    Finds (s.level + 1) 0 s (o.deserialize f load x s)

section combinators
variable {f : Format} {few : Nat → Prop} (mono : ∀ m n, m ≤ n → few n → few m)
include mono

/-- A pair finds everything if both parts do. -/
lemma FindsAll.pair {a b : SerialType} (first : FindsAll f few a) (second : FindsAll f few b) :
    FindsAll f few (pair a b) := by
  intro α load x s lag
  refine Finds.nested (finds_pair (s := s.enter) (p := 0) (q := 0) (first load x.1 s.enter lag)
    fun t level le => ?_)
  have decode := second load x.2 t (mono _ _ le lag)
  rwa [level] at decode

/-- An optional finds everything if its value does. -/
lemma FindsAll.maybe {a : SerialType} (inner : FindsAll f few a)
    (cleared : Option a.Val → Option a.Val) {α : Type} (load : α → Byte) (x : Option a.Val)
    (s : StreamSerializer α) (lag : few s.lag) :
    Finds (s.level + 1) 0 s (deserializeNested (deserializeMaybe a cleared f load) x s) := by
  refine Finds.nested ?_
  by_cases skip : 1 ≤ s.enter.lag
  · refine (finds_maybe_skip (p := 0) cleared skip (fun value _ t level le _ => ?_) fun _ => rfl).imp
      fun _ found => found.less (Nat.zero_le _)
    have decode := inner load value t (mono _ _ (by rw [le]; exact Nat.sub_le _ _) lag)
    rwa [level] at decode
  · refine finds_maybe_read cleared (tryAdvance_none _ (Nat.lt_of_not_le skip)) (fun t level le => ?_) x
    have decode := inner load a.init t (mono _ _ le lag)
    rwa [level] at decode

/-- A variant finds everything if its alternatives do. -/
lemma FindsAll.variant {n : Nat} {alternatives : Fin (n + 1) → SerialType}
    (inner : ∀ i, FindsAll f few (alternatives i)) : FindsAll f few (variant alternatives) := by
  intro α load x s lag
  refine Finds.nested ?_
  by_cases skip : 8 ≤ s.enter.lag
  · refine (finds_variant_skip (p := 0) skip fun t _ le _ => ?_).imp
      fun _ found => found.less (Nat.zero_le _)
    exact inner x.1 load x.2 t (mono _ _ (by rw [le]; exact Nat.sub_le _ _) lag)
  · exact finds_variant_read (tryAdvance_none _ (Nat.lt_of_not_le skip))
      (fun i t _ le => inner i load _ t (mono _ _ le lag)) x

/-- An array finds everything if its elements do. -/
lemma FindsAll.array {elem : SerialType} (inner : FindsAll f few elem) (n : Nat) :
    FindsAll f few (array elem n) := by
  intro α load x s lag
  refine Finds.nested (finds_array f load (p := 0) x (Nat.succ_pos _) rfl rfl
    (fun _ lt t level le _ => ?_) fun _ value t level le => ?_)
  · have decode := inner load (x ⟨_, lt⟩) t (mono _ _ (Nat.le_of_eq le) lag)
    rwa [level] at decode
  · have decode := inner load value t (mono _ _ le lag)
    rwa [level] at decode

/-- A range finds everything if its elements do, and no size is passed over. -/
lemma FindsAll.range {elem : SerialType} (inner : FindsAll f few elem) (small : ∀ n, few n → n < 8)
    (insert : List elem.Val → elem.Val → List elem.Val) {α : Type} (load : α → Byte)
    (x : List elem.Val) (s : StreamSerializer α) (lag : few s.lag) :
    Finds (s.level + 1) 0 s (deserializeNested (deserializeRange elem insert f load) x s) := by
  refine Finds.nested (finds_range_read f load (s := s.enter) insert (tryAdvance_none _ (small _ lag))
    (fun t level le => ?_) x)
  have decode := inner load elem.init t (mono _ _ le lag)
  rwa [level] at decode

/-- A forward list finds everything if its elements do, and no size is passed over. -/
lemma FindsAll.forwardList {elem : SerialType} (inner : FindsAll f few elem)
    (small : ∀ n, few n → n < 8) : FindsAll f few (forwardList elem) := by
  intro α load x s lag
  refine Finds.nested (finds_forwardList_read f load (s := s.enter) (Nat.succ_pos _)
    (tryAdvance_none _ (small _ lag)) (fun t level le => ?_) x)
  have decode := inner load elem.init t (mono _ _ le lag)
  rwa [level] at decode

end combinators

/-- A number finds everything. -/
lemma findsAll_word (f : Format) (few : Nat → Prop) (n : Nat) : FindsAll f few (word n) :=
  fun _ _ _ _ => found_numeric _ _ _ _ _

/-- A flag finds everything. -/
lemma findsAll_bool (f : Format) (few : Nat → Prop) : FindsAll f few bool :=
  fun _ _ _ _ => found_numeric _ _ _ _ _

/-- A duration finds everything. -/
lemma findsAll_chrono (f : Format) (few : Nat → Prop) (n num den : Nat) :
    FindsAll f few (chrono n num den) :=
  fun _ x _ _ => Finds.nested (finds_chrono n num den x)

/-- An empty class finds everything. -/
lemma findsAll_empty (f : Format) (few : Nat → Prop) : FindsAll f few empty :=
  fun _ _ _ _ => Finds.nested (Found.stay _ _ _)

/-- A type without a container finds what it looks up from any state. -/
lemma Plain.finds {o : SerialType} (plain : Plain o) (f : Format) : FindsAll f (fun _ => True) o := by
  have mono : ∀ m n : Nat, m ≤ n → True → True := fun _ _ _ h => h
  induction plain with
  | word n => exact findsAll_word f (fun _ => True) n
  | bool => exact findsAll_bool f (fun _ => True)
  | chrono n num den => exact findsAll_chrono f (fun _ => True) n num den
  | empty => exact findsAll_empty f (fun _ => True)
  | pair _ _ first second => exact first.pair mono second
  | optional _ ih => exact ih.maybe mono id
  | pointer _ ih => exact ih.maybe mono _
  | variant _ ih => exact FindsAll.variant mono ih
  | array n _ ih => exact ih.array mono n

/-- With fewer than eight bytes to pass over, no container looks its size up. -/
lemma Built.finds {o : SerialType} (built : Built o) (f : Format) : FindsAll f (· < 8) o := by
  have mono : ∀ m n : Nat, m ≤ n → n < 8 → m < 8 := fun _ _ le lt => Nat.lt_of_le_of_lt le lt
  have small : ∀ n : Nat, n < 8 → n < 8 := fun _ lt => lt
  induction built with
  | word n => exact findsAll_word f (· < 8) n
  | bool => exact findsAll_bool f (· < 8)
  | chrono n num den => exact findsAll_chrono f (· < 8) n num den
  | empty => exact findsAll_empty f (· < 8)
  | pair _ _ first second => exact first.pair mono second
  | optional _ ih => exact ih.maybe mono id
  | pointer _ ih => exact ih.maybe mono _
  | variant _ ih => exact FindsAll.variant mono ih
  | array n _ ih => exact ih.array mono n
  | sequence _ ih => exact ih.range mono small _
  | @associative _ keys _ ih => exact ih.range mono small keys.insert
  | forwardList _ ih => exact ih.forwardList mono small

/-! ## States from which a repeated decode finds its sizes -/

/-- The types that `deserialize` passes to the view. -/
inductive Number : SerialType → Prop
  | word (n : Nat) : Number (word n)
  | bool : Number bool

/-- A container, its elements, and how many of them are missing, given what is registered at its level. -/
inductive Range : (o elem : SerialType) → (List UInt64 → o.Val → Nat) → Prop
  | sequence (elem : SerialType) : Range (sequence elem) elem fun sizes (x : List elem.Val) =>
      ((sizes.head?).getD 0 - UInt64.ofNat x.length).toNat
  | associative {elem : SerialType} (keys : Keys elem) :
      Range (associative elem keys) elem fun sizes (x : List elem.Val) =>
        ((sizes.head?).getD 0 - UInt64.ofNat x.length).toNat
  | forwardList (elem : SerialType) : Range (forwardList elem) elem fun sizes _ =>
      ((sizes.head?).getD 0 - (sizes.tail.head?).getD 0).toNat

/-- With `lag` bytes to pass over, every container that the decode of a destination comes to while eight
    of them are left has its size registered. At least `passed` bytes are passed over on success. -/
inductive Covered (registered : Nat → List UInt64) :
    (level lag passed : Nat) → (o : SerialType) → o.Val → Prop
  | few {level lag : Nat} {o : SerialType} {x : o.Val} : Built o → lag < 8 →
      Covered registered level lag 0 o x
  | plain {level lag : Nat} {o : SerialType} {x : o.Val} : Plain o → Covered registered level lag 0 o x
  | optionalNone {level lag : Nat} {a : SerialType} :
      Covered registered level (1 + lag) 1 (optional a) (none : Option a.Val)
  | optionalSome {level lag p : Nat} {a : SerialType} {x : a.Val} :
      Covered registered (level + 1) lag p a x →
      Covered registered level (1 + lag) (1 + p) (optional a) (some x)
  | pointerNull {level lag : Nat} {a : SerialType} :
      Covered registered level (1 + lag) 1 (pointer a) (none : Option a.Val)
  | pointer {level lag p : Nat} {a : SerialType} {x : a.Val} :
      Covered registered (level + 1) lag p a x →
      Covered registered level (1 + lag) (1 + p) (pointer a) (some x)
  | variant {level lag p n : Nat} {alternatives : Fin (n + 1) → SerialType} {i : Fin (n + 1)}
      {x : (alternatives i).Val} : Covered registered (level + 1) lag p (alternatives i) x →
      Covered registered level (8 + lag) (8 + p) (variant alternatives) ⟨i, x⟩
  | number {level lag p : Nat} {a b : SerialType} {x : a.Val} {y : b.Val} : Number a →
      Covered registered (level + 1) lag p b y → Covered registered level lag p (pair a b) (x, y)
  | pair {level lag p : Nat} {a b : SerialType} {x : a.Val} {y : b.Val} :
      Covered registered (level + 1) lag p a x → Plain b ∨ Built b ∧ lag < p + 8 →
      Covered registered level lag p (pair a b) (x, y)
  | range {level lag p : Nat} {o elem : SerialType} {missing : List UInt64 → o.Val → Nat} {x : o.Val} :
      Range o elem missing → registered level ≠ [] →
      Covered registered (level + 1) lag p elem elem.init →
      Plain elem ∨ Built elem ∧ lag < p + 8 ∨ missing (registered level) x ≤ 1 →
      Covered registered level (8 + lag) 8 o x
  | array {level lag p n : Nat} {elem : SerialType} {x : Fin n → elem.Val} {i : Fin n} :
      i.1 = (UInt64.ofNat n - remaining n (registered level)).toNat →
      Covered registered (level + 1) lag p elem (x i) →
      Plain elem ∨ Built elem ∧ lag < p + 8 ∨ (remaining n (registered level)).toNat - i ≤ 1 →
      Covered registered level lag 0 (array elem n) x

variable {f : Format} {registered : Nat → List UInt64}

/-- A number leaves the level, what is registered and the bytes to pass over. -/
lemma Number.spec {a : SerialType} (number : Number a) {α : Type} (load : α → Byte) (x : a.Val)
    (s : StreamSerializer α) : ∃ code y t, a.deserialize f load x s = .ok (code, y, t) ∧
      t.level = s.level ∧ t.registered = s.registered ∧ t.lag = s.lag := by
  have numeric : ∀ {V : Type} (n : Nat) (ofBytes : List Byte → V) (x : V), ∃ code y t,
      s.deserializeNumeric n ofBytes load x = (code, y, t) ∧ t.level = s.level ∧
        t.registered = s.registered ∧ t.lag = s.lag := by
    intro V n ofBytes x
    unfold deserializeNumeric
    cases s.mbv.readTrivial n with
    | mk cells mbv =>
      cases cells with
      | none => exact ⟨_, _, _, rfl, rfl, rfl, rfl⟩
      | some cells =>
        exact ⟨_, _, _, rfl, rfl, rfl, lag_consume s _⟩
  cases number with
  | word n =>
    obtain ⟨code, y, t, run, rest⟩ := numeric n (fun bytes => BitVec.ofNat _ (readWord f bytes)) x
    exact ⟨code, y, t, congrArg Except.ok run, rest⟩
  | bool =>
    obtain ⟨code, y, t, run, rest⟩ := numeric 1 (readFlag f) x
    exact ⟨code, y, t, congrArg Except.ok run, rest⟩

/-- A plain type is built of others. -/
lemma Plain.built {o : SerialType} (plain : Plain o) : Built o := by
  induction plain with
  | word n => exact .word n
  | bool => exact .bool
  | chrono n num den => exact .chrono n num den
  | empty => exact .empty
  | pair _ _ first second => exact .pair first second
  | optional _ ih => exact .optional ih
  | pointer _ ih => exact .pointer ih
  | variant _ ih => exact .variant ih
  | array n _ ih => exact .array n ih

/-- A part that is plain, or has fewer than eight bytes left to pass over, finds what it looks up. -/
lemma finds_rest {b : SerialType} {lag p : Nat} (rest : Plain b ∨ Built b ∧ lag < p + 8) {α : Type}
    (load : α → Byte) (y : b.Val) {t : StreamSerializer α} (le : t.lag ≤ lag - p) :
    Finds (t.level + 1) 0 t (b.deserialize f load y t) := by
  rcases rest with plain | ⟨built, few⟩
  · exact plain.finds f load y t trivial
  · exact built.finds f load y t (by omega)

/-- So do the elements behind the first one, if there are any. -/
lemma finds_others {elem : SerialType} {lag p missing : Nat}
    (rest : Plain elem ∨ Built elem ∧ lag < p + 8 ∨ missing ≤ 1)
    (two : 1 < missing) {α : Type} (load : α → Byte) (y : elem.Val) {t : StreamSerializer α} (le : t.lag ≤ lag - p) :
    Finds (t.level + 1) 0 t (elem.deserialize f load y t) := by
  rcases rest with plain | few | one
  · exact finds_rest (.inl plain) load y le
  · exact finds_rest (.inr few) load y le
  · exact absurd two (Nat.not_lt.2 one)

/-- A flag that is covered is passed over, and its value finds the rest. -/
lemma finds_maybe_covered {a : SerialType} (cleared : Option a.Val → Option a.Val) {lag p : Nat}
    {x : a.Val} {α : Type} {load : α → Byte} {s : StreamSerializer α} (left : s.lag = 1 + lag)
    (inner : ∀ t : StreamSerializer α, t.level + 1 = s.level + 2 → t.lag = lag →
      t.registered = s.registered → Finds (s.level + 2) p t (a.deserialize f load x t)) :
    Finds (s.level + 1) (1 + p) s (deserializeNested (deserializeMaybe a cleared f load) (some x) s) := by
  have here : s.enter.lag = 1 + lag := left
  refine Finds.nested (finds_maybe_skip (s := s.enter) cleared (by omega) (fun value mem t level le same => ?_) nofun)
  obtain rfl : x = value := Option.some.inj mem
  exact inner t (congrArg (· + 1) level) (by omega) same

/-- From a covered state a decode finds what it looks up. -/
lemma Covered.finds {level lag passed : Nat} {o : SerialType} {x : o.Val}
    (covered : Covered registered level lag passed o x) {α : Type} (load : α → Byte)
    (s : StreamSerializer α) (at_level : s.level + 1 = level) (left : s.lag = lag)
    (same : ∀ l, level ≤ l → s.registered l = registered l) :
    Finds level passed s (o.deserialize f load x s) := by
  -- every constructor is one shape and its part, one level deeper: `same` says what is registered from there on
  induction covered generalizing s with
  | few built lt =>
    subst at_level
    exact built.finds f load _ s (left.symm ▸ lt)
  | plain plain =>
    subst at_level
    exact plain.finds f load _ s trivial
  | @optionalNone level lag a =>
    subst at_level
    have here : s.enter.lag = 1 + lag := left
    exact Finds.nested (finds_maybe_skip (s := s.enter) (p := 0) id (by omega) nofun fun _ => rfl)
  | optionalSome _ ih =>
    subst at_level
    exact finds_maybe_covered id left fun t levelt lagt kept =>
      ih t levelt lagt fun l le => by rw [kept]; exact same l (Nat.le_of_succ_le le)
  | @pointerNull level lag a =>
    subst at_level
    have here : s.enter.lag = 1 + lag := left
    exact Finds.nested
      (finds_maybe_skip (s := s.enter) (p := 0) (fun _ => none) (by omega) nofun fun _ => rfl)
  | pointer _ ih =>
    subst at_level
    exact finds_maybe_covered (fun _ => none) left fun t levelt lagt kept =>
      ih t levelt lagt fun l le => by rw [kept]; exact same l (Nat.le_of_succ_le le)
  | @variant level lag p n alternatives i x _ ih =>
    subst at_level
    have here : s.enter.lag = 8 + lag := left
    refine Finds.nested (finds_variant_skip (s := s.enter) (by omega) fun t levelt lagt kept => ?_)
    have decode := ih t (congrArg (· + 1) levelt) (by omega) fun l le => by
      rw [kept]
      exact same l (Nat.le_of_succ_le le)
    rwa [levelt]
  | @number level lag p a b x y number _ ih =>
    subst at_level
    refine Finds.nested ?_
    obtain ⟨code, z, t, run, levelt, kept, lagt⟩ := number.spec (f := f) load x s.enter
    have here : Found (s.level + 2) 0 s.enter (code, z, t) :=
      ⟨levelt, fun l _ _ => congrFun kept l, fun _ => Nat.le_of_eq lagt⟩
    have both := finds_pair_after (b := b) (x := (x, y)) run here fun _ =>
      ih t (congrArg (· + 1) levelt) (lagt.trans left) fun l le => by
        rw [kept]
        exact same l (Nat.le_of_succ_le le)
    rwa [Nat.zero_add] at both
  | @pair level lag p a b x y _ rest ih =>
    subst at_level
    have here : s.enter.lag = lag := left
    refine Finds.nested (finds_pair (s := s.enter) (q := 0)
      (ih s.enter rfl left fun l le => same l (Nat.le_of_succ_le le)) fun t levelt le => ?_)
    have decode := finds_rest (f := f) rest load y (t := t) (by omega)
    rwa [levelt] at decode
  | @range level lag p o elem missing x range there _ rest ih =>
    subst at_level
    have here : s.enter.lag = 8 + lag := left
    -- the bytes of the size are passed over, and the size is looked up, which is why one has to be registered
    obtain ⟨size, sizes, known⟩ := List.exists_cons_of_ne_nil there
    have own : s.enter.registered s.enter.level = size :: sizes :=
      (same (s.level + 1) (Nat.le_refl _)).trans known
    have first : ∀ t : StreamSerializer α, t.level = s.enter.level → t.lag = s.enter.lag - 8 →
        (∀ l, s.enter.level < l → t.registered l = s.enter.registered l) →
        Finds (s.enter.level + 1) p t (elem.deserialize f load elem.init t) := by
      intro t levelt lagt above
      exact ih t (congrArg (· + 1) levelt) (by omega) fun l le =>
        (above l le).trans (same l (Nat.le_of_succ_le le))
    have others : ∀ t : StreamSerializer α, 1 < missing (registered (s.level + 1)) x →
        t.level = s.enter.level → t.lag ≤ s.enter.lag - 8 - p →
        Finds (s.enter.level + 1) 0 t (elem.deserialize f load elem.init t) := by
      intro t two levelt le
      have decode := finds_others (f := f) rest two load elem.init (t := t) (by omega)
      rwa [levelt] at decode
    rw [known] at others
    cases range with
    | sequence elem =>
      exact Finds.nested (finds_range_skip f load (s := s.enter) _ (by omega) own rfl (fun _ => first)
        fun two t => others t two)
    | associative keys =>
      exact Finds.nested (finds_range_skip f load (s := s.enter) keys.insert (by omega) own rfl
        (fun _ => first) fun two t => others t two)
    | forwardList elem =>
      exact Finds.nested (finds_forwardList_skip f load (s := s.enter) (Nat.succ_pos _) (by omega) own x rfl
        (fun _ => first) fun two t => others t two)
  | @array level lag p n elem x i start _ rest ih =>
    subst at_level
    have here : s.enter.lag = lag := left
    have own : s.enter.registered s.enter.level = registered (s.level + 1) :=
      same (s.level + 1) (Nat.le_refl _)
    refine Finds.nested (finds_array f load (s := s.enter) (p := p) (i := i.1) x (Nat.succ_pos _)
      (by rw [own]; exact start) rfl (fun _ lt t levelt lagt above => ?_)
      fun two value t levelt le => ?_)
    · exact ih t (congrArg (· + 1) levelt) (lagt.trans left) fun l le =>
        (above l le).trans (same l (Nat.le_of_succ_le le))
    · rw [own] at two
      have decode := finds_others (f := f) rest two load value (t := t) (by omega)
      rwa [levelt] at decode

/-! ## Runs -/

/-- What is asked of a serializer: to take more bytes, or to decode the next value. -/
inductive Request where
  | push (bytes : List Byte)
  | deserialize (next : Item)

/-- A serializer, the destination of a call that found too few bytes, and what ended the process. -/
structure Session where
  stream : StreamSerializer Byte := {}
  pending : Option Item := none
  fault : Option Fault := none

namespace Session

/-- The destination of a call: that of the call that is to be repeated, or the next one. -/
def destination (session : Session) (next : Item) : Item := session.pending.getD next

/-- A session takes a request. After a fault there is none. -/
def step (f : Format) (session : Session) : Request → Session
  | .push bytes => { session with stream := session.stream.pushView bytes }
  | .deserialize next =>
    match session.fault with
    | some _ => session
    | none =>
      let item := session.destination next
      match item.1.deserialize f id item.2 session.stream with
      | .error fault => { session with fault := some fault }
      | .ok (code, x, stream) =>
        { session with
          stream
          pending := if code = .bufferSizeLesser then some ⟨item.1, x⟩ else none }

/-- No lookup of a registered value failed. -/
def Lookups (session : Session) : Prop := session.fault ≠ some .missingRegistered

/-- A call is made for a destination whose containers have their sizes registered, as far as there are
    bytes to pass over. -/
def CallCovered (session : Session) : Request → Prop
  | .push _ => True
  | .deserialize next => session.fault = none →
    let item := session.destination next
    ∃ passed, Covered session.stream.registered 1 session.stream.lag passed item.1 item.2

/-- In a run whose calls are all covered, every lookup finds its value. -/
theorem run_lookups (f : Format) {requests : List Request}
    (covered : Guarded (step f) CallCovered {} requests) :
    Always (step f) Lookups {} requests := by
  have always : Always (step f) (fun session => Lookups session ∧ session.stream.level = 0) {}
      requests := by
    refine always_of_guarded (fun session request inv covered => ?_) ⟨nofun, rfl⟩ covered
    cases request with
    | push bytes =>
      refine ⟨inv.1, ?_⟩
      show (session.stream.pushView bytes).level = 0
      unfold pushView
      split <;> exact inv.2
    | deserialize next =>
      unfold step
      cases alive : session.fault with
      | some fault => exact inv
      | none =>
        obtain ⟨passed, here⟩ := covered alive
        have finds := here.finds (f := f) id session.stream (congrArg (· + 1) inv.2) rfl fun _ _ => rfl
        simp only
        cases run : (session.destination next).1.deserialize f id (session.destination next).2
            session.stream with
        | error fault =>
          rw [run] at finds
          exact ⟨fun e => finds (Option.some.inj e), inv.2⟩
        | ok outcome =>
          obtain ⟨code, x, stream⟩ := outcome
          rw [run] at finds
          exact ⟨nofun, (show stream.level = session.stream.level from finds.level).trans inv.2⟩
  exact always.imp fun _ both => both.1

/-- A vector whose bytes arrive in two chunks, cut after its first element. -/
theorem run_lookups_resumed :
    let calls := [Request.push [0, 0, 0, 0, 0, 0, 0, 2, 7], .deserialize ⟨sequence (word 1), []⟩,
      .push [8], .deserialize ⟨sequence (word 1), []⟩]
    Guarded (step ⟨true, true⟩) CallCovered {} calls ∧
      Always (step ⟨true, true⟩) Lookups {} calls := by
  intro calls
  have covered : Guarded (step ⟨true, true⟩) CallCovered {} calls := by
    refine ⟨trivial, fun _ => ⟨0, .few (.sequence (.word 1)) (by decide)⟩, trivial,
      fun _ => ⟨8, ?_⟩, trivial⟩
    show Covered _ 1 (8 + 1) 8 _ _
    exact .range (.sequence (word 1)) (by decide) (.plain (.word 1)) (.inl (.word 1))
  exact ⟨covered, run_lookups _ covered⟩

/-- An integer and a vector are read from a stream, and the size of the vector is not there yet. When the
    call is repeated, the bytes of the integer are passed over as the size. -/
theorem number_before_vector_faults :
    ¬ ∀ (f : Format) (requests : List Request),
      (∀ next, Request.deserialize next ∈ requests → Built next.1) →
      Always (step f) Lookups {} requests := by
  intro all
  have lookups := (all ⟨true, true⟩ [.push [0, 0, 0, 0, 0, 0, 0, 1, 0],
    .deserialize ⟨word 8, (0 : BitVec 64)⟩, .deserialize ⟨sequence (word 4), []⟩,
    .push [0, 0, 0, 0, 0, 0, 0], .deserialize ⟨sequence (word 4), []⟩] (by
      intro next mem
      simp only [List.mem_cons, reduceCtorEq, Request.deserialize.injEq, List.not_mem_nil, or_false,
        false_or] at mem
      rcases mem with rfl | rfl | rfl
      · exact .word 8
      · exact .sequence (.word 4)
      · exact .sequence (.word 4))).last
  exact lookups (by decide)

end Session
end OsterLib.Serialization
