import OsterLib.Lib.Run
import OsterLib.Serialization.Truncation

/-!
# Decoding in chunks

A decode that found too few bytes is repeated with the same destination when more have arrived. What the
attempt before left behind is of use where the decode `Resumes`: the destination holds what the consumed
bytes say, the containers on the way have their sizes registered, and nothing that is decoded anew takes
the bytes that are to be passed over for its own.
-/

namespace OsterLib.Serialization
open OsterLib.Lib StreamSerializer SerialType

variable {f : Format} {registered : Nat → List UInt64} {depth lag leftover : Nat}

/-! ## Serializers in which a decode is repeated -/

/-- The decode at `depth` is repeated with `bytes` to pass over. -/
structure Resuming (registered : Nat → List UInt64) (depth bytes : Nat) {α : Type}
    (s : StreamSerializer α) : Prop where
  level : s.level + 1 = depth
  lag : s.lag = bytes
  valid : s.mbv.Valid
  same : ∀ l, depth ≤ l → s.registered l = registered l

/-- Bytes are passed over, and nothing is changed but what is registered under the level. -/
structure Passed {α : Type} (s t : StreamSerializer α) : Prop where
  mbv : t.mbv = s.mbv
  level : t.level = s.level
  others : ∀ l, l ≠ s.level → t.registered l = s.registered l
  lag : t.lag ≤ s.lag

/-- Bytes are passed over, and nothing else is changed. -/
structure Skipped {α : Type} (s t : StreamSerializer α) : Prop extends Passed s t where
  own : t.registered s.level = s.registered s.level

section steps
variable {α V : Type} {load : α → Byte} {s t u : StreamSerializer α}

/-- Nothing registered has changed. -/
lemma Skipped.same (skipped : Skipped s t) (l : Nat) : t.registered l = s.registered l := by
  by_cases own : l = s.level
  · rw [own]
    exact skipped.own
  · exact skipped.others l own

/-- What is passed over adds up. -/
lemma Passed.trans (first : Passed s t) (second : Passed t u) : Passed s u where
  mbv := second.mbv.trans first.mbv
  level := second.level.trans first.level
  others l ne := (second.others l (first.level.symm ▸ ne)).trans (first.others l ne)
  lag := second.lag.trans first.lag

/-- What is skipped adds up. -/
lemma Skipped.trans (first : Skipped s t) (second : Skipped t u) : Skipped s u where
  toPassed := first.toPassed.trans second.toPassed
  own := (second.same _).trans first.own

/-- The same bytes are left. -/
lemma Passed.left (passed : Passed s t) : t.left load = s.left load := by
  unfold StreamSerializer.left
  rw [passed.mbv]

/-- Reading goes on behind what is passed over. -/
lemma Passed.reads {bytes : List Byte} (passed : Passed s t) (reads : Reads load bytes t u) :
    Reads load bytes s u where
  ready := reads.ready
  level := reads.level.trans passed.level
  left := passed.left.symm.trans reads.left
  below l pos lt :=
    (reads.below l pos (passed.level.symm ▸ lt)).trans (passed.others l (Nat.ne_of_lt lt))
  lag := reads.lag.trans passed.lag

/-- Failing behind what is passed over is failing. -/
lemma Passed.fails (passed : Passed s t) (fails : Fails s.level t u) : Fails s.level s u :=
  ⟨fails.valid, fails.level.trans passed.level, fun l pos lt =>
    (fails.below l pos lt).trans (passed.others l (Nat.ne_of_lt lt))⟩

/-- A decode that is resumed goes one level deeper. -/
lemma Resuming.enter (resuming : Resuming registered depth lag s) :
    Resuming registered (depth + 1) lag s.enter :=
  ⟨congrArg (· + 1) resuming.level, resuming.lag, resuming.valid,
    fun l le => resuming.same l (Nat.le_of_succ_le le)⟩

/-- Behind what is skipped, the decode is still resumed, with fewer bytes to pass over. -/
lemma Resuming.skipped {bytes : Nat} (resuming : Resuming registered depth lag s)
    (skipped : Skipped s t) (rest : t.lag = bytes) : Resuming registered depth bytes t where
  level := by rw [skipped.level, resuming.level]
  lag := rest
  valid := by
    rw [skipped.mbv]
    exact resuming.valid
  same l le := (skipped.same l).trans (resuming.same l le)

/-- Where nothing is registered any more, the serializer is ready. -/
lemma Resuming.ready (resuming : Resuming registered depth lag s)
    (empty : ∀ l, depth ≤ l → registered l = []) : s.Ready := by
  refine ⟨resuming.valid, fun l lt => ?_⟩
  have le : depth ≤ l := resuming.level ▸ lt
  rw [resuming.same l le, empty l le]

/-- Nothing is registered above the level. -/
lemma Resuming.unused (resuming : Resuming registered depth lag s) (empty : registered depth = []) :
    s.registered (s.level + 1) = [] := by
  rw [resuming.level, resuming.same depth (Nat.le_refl _), empty]

/-- A size or a flag that was read before is passed over. -/
lemma Resuming.skip (size : UInt64) (resuming : Resuming registered depth (size.toNat + lag) s) :
    ∃ t, s.enter.tryAdvance size = some t ∧ Skipped s.enter t ∧
      Resuming registered (depth + 1) lag t := by
  have here : s.enter.lag = size.toNat + lag := resuming.lag
  obtain ⟨t, advanced, less, level, kept, mbv⟩ := tryAdvance_some (s := s.enter) size (by omega)
  have skipped : Skipped s.enter t :=
    ⟨⟨mbv, level, fun l _ => congrFun kept l, by omega⟩, congrFun kept _⟩
  exact ⟨t, advanced, skipped, resuming.enter.skipped skipped (by omega)⟩

/-- Around a body that passes over bytes, `deserialize` does, where it has nothing registered. -/
lemma Passed.nested {body : V → StreamSerializer α → Except Fault (Outcome α V)} {x y : V}
    (run : body x s.enter = .ok (.none, y, t)) (passed : Passed s.enter t) (inside : 0 < s.level)
    (empty : s.registered (s.level + 1) = []) :
    ∃ u, deserializeNested body x s = .ok (.none, y, u) ∧ Skipped s u ∧ u.lag = t.lag := by
  have level : t.level = s.level + 1 := passed.level
  unfold deserializeNested
  change ∃ u, (body x s.enter >>= _) = _ ∧ _
  rw [run]
  refine ⟨_, rfl, ?_⟩
  simp only [if_true, level]
  rw [if_neg (by omega)]
  have erased : ∀ l, Function.update t.registered (s.level + 1) [] l = s.registered l := by
    intro l
    by_cases own : l = s.level + 1
    · rw [own, Function.update_self, empty]
    · rw [Function.update_of_ne own]
      exact passed.others l own
  exact ⟨⟨⟨passed.mbv, rfl, fun l _ => erased l, passed.lag⟩, erased _⟩, rfl⟩

/-- `deserialize` leaves no more to pass over than its `Deserialize` does. -/
lemma nested_lag {body : V → StreamSerializer α → Except Fault (Outcome α V)} {x y z : V}
    (run : body x s.enter = .ok (.none, y, t)) (done : deserializeNested body x s = .ok (.none, z, u)) :
    u.lag ≤ t.lag := by
  unfold deserializeNested at done
  change (body x s.enter >>= _) = _ at done
  rw [run] at done
  injection done with done
  injection done with _ done
  injection done with _ done
  subst done
  simp only [if_true]
  split
  · show (t.end_ - t.end_).toNat ≤ _
    rw [UInt64.sub_self]
    exact Nat.zero_le _
  · exact Nat.le_refl _

/-- What the body reads completes the decode. -/
lemma StreamSerializer.Reads.completes {body : V → StreamSerializer α → Except Fault (Outcome α V)} {x y : V}
    {bytes : List Byte} (run : body x s.enter = .ok (.none, y, t)) (reads : Reads load bytes s.enter t)
    (le : t.lag ≤ leftover) : ∃ s', deserializeNested body x s = .ok (.none, y, s') ∧
      Decoded false load bytes s s' ∧ s'.lag ≤ leftover := by
  obtain ⟨s', done, consumes⟩ := reads.nested run
  exact ⟨s', done, consumes, (nested_lag run done).trans le⟩

end steps

/-- What is decoded with bytes to pass over is decoded without them. -/
lemma Copies.lower {k : Nat} {o : SerialType} {y x : o.Val} (copy : Copies f k False o y x) :
    Copies f 0 False o y x where
  appends := copy.appends
  equal := copy.equal
  decodes load s rest ready caught left :=
    copy.decodes load s rest ready (Nat.le_trans caught (Nat.zero_le k)) left

/-! ## Values that are passed over -/

/-- A completed value in which every byte is a flag or an index. When its decode is repeated, it passes
    over these `size` bytes and changes nothing, as long as nothing is registered for it. -/
inductive Settled (registered : Nat → List UInt64) :
    (depth size : Nat) → (o : SerialType) → o.Val → Prop
  | empty {depth : Nat} : registered depth = [] → Settled registered depth 0 empty ()
  | optionalNone {depth : Nat} {a : SerialType} : registered depth = [] →
      Settled registered depth 1 (optional a) none
  | optional {depth size : Nat} {a : SerialType} {x : a.Val} : registered depth = [] →
      Settled registered (depth + 1) size a x → Settled registered depth (1 + size) (optional a) (some x)
  | pointerNone {depth : Nat} {a : SerialType} : registered depth = [] →
      Settled registered depth 1 (pointer a) none
  | pointer {depth size : Nat} {a : SerialType} {x : a.Val} : registered depth = [] →
      Settled registered (depth + 1) size a x → Settled registered depth (1 + size) (pointer a) (some x)
  | variant {depth size n : Nat} {alternatives : Fin (n + 1) → SerialType} {i : Fin (n + 1)}
      {x : (alternatives i).Val} (few : n < 2 ^ 64 - 1) : registered depth = [] →
      Settled registered (depth + 1) size (alternatives i) x →
      Settled registered depth (8 + size) (variant alternatives) ⟨i, x⟩
  | pair {depth size size' : Nat} {a b : SerialType} {x : a.Val} {y : b.Val} :
      registered depth = [] → Settled registered (depth + 1) size a x →
      Settled registered (depth + 1) size' b y →
      Settled registered depth (size + size') (pair a b) (x, y)
  | array {depth n : Nat} {sizes : Fin n → Nat} {elem : SerialType} {x : Fin n → elem.Val}
      (small : n < 2 ^ 64) (stored : elem.StoredAsEncoded) : registered depth = [] →
      (∀ i, Settled registered (depth + 1) (sizes i) elem (x i)) →
      Settled registered depth (List.ofFn sizes).sum (array elem n) x

/-- A settled value is a copy of itself. -/
lemma Settled.copies (symmetric : f.Symmetric) {size : Nat} {o : SerialType} {x : o.Val}
    (settled : Settled registered depth size o x) : Copies f 0 False o x x := by
  induction settled with
  | empty _ => exact .empty ()
  | optionalNone _ => exact .optional (by decide) .none
  | optional _ _ ih => exact .optional (by decide) (.some ih)
  | pointerNone _ => exact .pointer (by decide) .none
  | pointer _ _ ih => exact .pointer (by decide) (.some ih)
  | variant few _ _ ih => exact ih.variant symmetric (by decide) few
  | pair _ _ _ first second => exact first.pair second
  | array small stored _ _ ih => exact .array stored small ih

/-- The decode of a completed value passes over `size` bytes. -/
def Passes (f : Format) (registered : Nat → List UInt64) (depth size : Nat) (o : SerialType)
    (x : o.Val) : Prop :=
  ∀ {α : Type} (load : α → Byte) (s : StreamSerializer α) (bytes : Nat),
    Resuming registered depth (size + bytes) s → 0 < s.level →
    ∃ t, o.deserialize f load x s = .ok (.none, x, t) ∧ Skipped s t ∧ t.lag = bytes

/-- The flag of an optional is passed over, and its value behind it. -/
lemma Passes.maybe {size : Nat} {a : SerialType} {x : a.Val} (inner : Passes f registered (depth + 1) size a x)
    (empty : registered depth = []) (cleared : Option a.Val → Option a.Val) {α : Type}
    (load : α → Byte) (s : StreamSerializer α) (bytes : Nat)
    (resuming : Resuming registered depth (1 + size + bytes) s) (inside : 0 < s.level) :
    ∃ t, deserializeNested (deserializeMaybe a cleared f load) (some x) s = .ok (.none, some x, t) ∧
      Skipped s t ∧ t.lag = bytes := by
  rw [Nat.add_assoc] at resuming
  obtain ⟨t, advanced, skipped, next⟩ := resuming.skip 1
  obtain ⟨u, run, passed, rest⟩ := inner load t bytes next (skipped.level ▸ Nat.succ_pos _)
  have body : deserializeMaybe a cleared f load (some x) s.enter = .ok (.none, some x, u) := by
    unfold deserializeMaybe
    rw [advanced]
    change (a.deserialize f load x t >>= _) = _
    rw [run]
    rfl
  obtain ⟨v, done, all, same⟩ :=
    (skipped.trans passed).toPassed.nested body inside (resuming.unused empty)
  exact ⟨v, done, all, same.trans rest⟩

/-- The flag of an optional without a value is passed over. -/
lemma passes_none {a : SerialType} (empty : registered depth = [])
    (cleared : Option a.Val → Option a.Val) {α : Type} (load : α → Byte) (s : StreamSerializer α)
    (bytes : Nat) (resuming : Resuming registered depth (1 + bytes) s) (inside : 0 < s.level) :
    ∃ t, deserializeNested (deserializeMaybe a cleared f load) none s = .ok (.none, none, t) ∧
      Skipped s t ∧ t.lag = bytes := by
  obtain ⟨t, advanced, skipped, next⟩ := resuming.skip 1
  have body : deserializeMaybe a cleared f load none s.enter = .ok (.none, none, t) := by
    unfold deserializeMaybe
    rw [advanced]
  obtain ⟨u, done, all, same⟩ := skipped.toPassed.nested body inside (resuming.unused empty)
  exact ⟨u, done, all, same.trans next.lag⟩

/-- The loop over the elements of an array passes over all of them. -/
lemma items_pass (remain : UInt64) {n : Nat} {sizes : Fin n → Nat} {elem : SerialType}
    {x : Fin n → elem.Val} (passes : ∀ i, Passes f registered (depth + 1) (sizes i) elem (x i)) {α : Type}
    (load : α → Byte) (count i : Nat) (total : i + count = n) {s : StreamSerializer α} (bytes : Nat)
    (resuming : Resuming registered (depth + 1) (((List.ofFn sizes).drop i).sum + bytes) s)
    (inside : 0 < s.level) (some : 0 < (s.registered s.level).length) :
    ∃ t, deserializeItems elem remain f load count i x s = .ok (.none, x, t) ∧ Passed s t ∧
      t.lag = bytes := by
  -- on the elements left: what is registered at the level changes with each of them, and nothing outside it does
  induction count generalizing i s with
  | zero =>
    have nothing : ((List.ofFn sizes).drop i).sum = 0 := by
      rw [List.drop_eq_nil_of_le (by rw [List.length_ofFn]; omega)]
      rfl
    refine ⟨s, rfl, ⟨rfl, rfl, fun _ _ => rfl, Nat.le_refl _⟩, ?_⟩
    rw [resuming.lag, nothing, Nat.zero_add]
  | succ count ih =>
    have lt : i < n := by omega
    rw [ofFn_drop sizes lt, List.sum_cons, Nat.add_assoc] at resuming
    obtain ⟨t, run, skipped, rest⟩ := passes ⟨i, lt⟩ load s _ resuming inside
    have next := resuming.skipped skipped rest
    have there : 0 < (t.registered t.level).length := by
      rw [skipped.level, skipped.own]
      exact some
    let values := (t.registered t.level).set 0 (remain - 1)
    let u : StreamSerializer α := { t with registered := Function.update t.registered t.level values }
    have update : t.updateValueAt (remain - 1) 0 = .ok u := by
      unfold StreamSerializer.updateValueAt
      rw [List.getElem?_eq_getElem there]
    have passed : Passed t u :=
      ⟨rfl, rfl, fun l ne => Function.update_of_ne ne _ _, Nat.le_refl _⟩
    have resumingu : Resuming registered (depth + 1) (((List.ofFn sizes).drop (i + 1)).sum + bytes) u :=
      ⟨next.level, next.lag, next.valid, fun l le => by
        rw [passed.others l (by have := next.level; omega)]
        exact next.same l le⟩
    have own : 0 < (u.registered u.level).length := by
      show 0 < (Function.update t.registered t.level values t.level).length
      rw [Function.update_self, List.length_set]
      exact there
    obtain ⟨v, loop, all, left⟩ := ih (i + 1) (by omega) resumingu (skipped.level ▸ inside) own
    refine ⟨v, ?_, (skipped.toPassed.trans passed).trans all, left⟩
    rw [deserializeItems, dif_pos lt, run]
    change (t.updateValueAt (remain - 1) 0 >>= fun s => _) = _
    rw [update, Function.update_eq_self]
    exact loop

/-- A settled value is passed over. -/
lemma Settled.passes {size : Nat} {o : SerialType} {x : o.Val}
    (settled : Settled registered depth size o x) : Passes f registered depth size o x := by
  -- every part is passed over one level deeper, where only the bytes behind it are left to pass over
  induction settled with
  | @empty depth unused =>
    intro α load s bytes resuming inside
    have nothing : Passed s.enter s.enter := ⟨rfl, rfl, fun _ _ => rfl, Nat.le_refl _⟩
    have body : deserializeEmpty () s.enter = .ok (.none, (), s.enter) := rfl
    obtain ⟨t, done, skipped, same⟩ := nothing.nested body inside (resuming.unused unused)
    exact ⟨t, done, skipped, (same.trans resuming.lag).trans (Nat.zero_add _)⟩
  | optionalNone unused => exact passes_none unused id
  | optional unused _ ih => exact ih.maybe unused id
  | pointerNone unused => exact passes_none unused fun _ => none
  | pointer unused _ ih => exact ih.maybe unused fun _ => none
  | @variant depth size n alternatives i x few unused _ ih =>
    intro α load s bytes resuming inside
    have unused := resuming.unused unused
    rw [Nat.add_assoc] at resuming
    obtain ⟨t, advanced, skipped, next⟩ := resuming.skip 8
    obtain ⟨u, run, passed, rest⟩ := ih load t bytes next (skipped.level ▸ Nat.succ_pos _)
    have body : deserializeVariant alternatives f load ⟨i, x⟩ s.enter = .ok (.none, ⟨i, x⟩, u) := by
      unfold deserializeVariant
      rw [advanced]
      change ((alternatives i).deserialize f load x t >>= _) = _
      rw [run]
      rfl
    obtain ⟨v, done, all, same⟩ := (skipped.trans passed).toPassed.nested body inside unused
    exact ⟨v, done, all, same.trans rest⟩
  | @pair depth size size' a b x y unused _ _ first second =>
    intro α load s bytes resuming inside
    have unused := resuming.unused unused
    rw [Nat.add_assoc] at resuming
    have entered := resuming.enter
    obtain ⟨t, runFirst, passedFirst, restFirst⟩ :=
      first load s.enter _ entered (Nat.succ_pos _)
    obtain ⟨u, runSecond, passedSecond, rest⟩ := second load t bytes
      (entered.skipped passedFirst restFirst) (passedFirst.level ▸ Nat.succ_pos _)
    have body : deserializePair a b f load (x, y) s.enter = .ok (.none, (x, y), u) := by
      unfold deserializePair
      change (a.deserialize f load x s.enter >>= _) = _
      rw [runFirst]
      change (b.deserialize f load y t >>= _) = _
      rw [runSecond]
      rfl
    obtain ⟨v, done, all, same⟩ := (passedFirst.trans passedSecond).toPassed.nested body inside unused
    exact ⟨v, done, all, same.trans rest⟩
  | @array depth n sizes elem x small stored unused _ ih =>
    intro α load s bytes resuming inside
    have unused := resuming.unused unused
    let t := s.enter.registerValue (UInt64.ofNat n)
    have once : t.registered t.level = [UInt64.ofNat n] :=
      registerValue_once (s := s.enter) unused _
    have passed : Passed s.enter t :=
      ⟨rfl, rfl, fun l ne => Function.update_of_ne ne _ _, Nat.le_refl _⟩
    have entered := resuming.enter
    have next : Resuming registered (depth + 1) (((List.ofFn sizes).drop 0).sum + bytes) t :=
      ⟨entered.level, entered.lag, entered.valid, fun l le => by
        have level := resuming.level
        rw [passed.others l (by show l ≠ s.level + 1; omega)]
        exact entered.same l le⟩
    obtain ⟨u, loop, all, rest⟩ := items_pass (UInt64.ofNat n) ih load n 0 (Nat.zero_add n) bytes next
      (Nat.succ_pos _) (by rw [once]; exact Nat.zero_lt_one)
    have head := array_start elem f load small (s := s.enter) unused x
    obtain ⟨v, done, skipped, same⟩ :=
      (passed.trans all).nested (head.trans loop) inside unused
    exact ⟨v, done, skipped, same.trans rest⟩

/-! ## States that a decode resumes from -/

/-- The destination and the registered values hold what the consumed bytes of the encoding of a value
    say, and its decode at `depth` goes on with the bytes `remaining`. Of the `lag` bytes to pass over,
    `leftover` are still there behind what the attempt before has decoded. -/
inductive Resumes (f : Format) (registered : Nat → List UInt64) :
    (depth lag leftover : Nat) → (o : SerialType) → (x dest : o.Val) → (remaining : List Byte) → Prop
  | fresh {depth lag : Nat} {o : SerialType} {x : o.Val} : Undisturbed lag False o → o.Valid x →
      (∀ l, depth ≤ l → registered l = []) →
      Resumes f registered depth lag lag o x o.init (o.encode f x)
  | optional {depth lag leftover : Nat} {a : SerialType} {x dest : a.Val} {remaining : List Byte} :
      Resumes f registered (depth + 1) lag leftover a x dest remaining →
      Resumes f registered depth (1 + lag) leftover (optional a) (some x) (some dest) remaining
  | pointer {depth lag leftover : Nat} {a : SerialType} {x dest : a.Val} {remaining : List Byte} :
      Resumes f registered (depth + 1) lag leftover a x dest remaining →
      Resumes f registered depth (1 + lag) leftover (pointer a) (some x) (some dest) remaining
  | variant {depth lag leftover n : Nat} {alternatives : Fin (n + 1) → SerialType} {i : Fin (n + 1)}
      {x dest : (alternatives i).Val} {remaining : List Byte} (few : n < 2 ^ 64 - 1) :
      Resumes f registered (depth + 1) lag leftover (alternatives i) x dest remaining →
      Resumes f registered depth (8 + lag) leftover (variant alternatives) ⟨i, x⟩ ⟨i, dest⟩ remaining
  | pairFirst {depth lag leftover : Nat} {a b : SerialType} {x dest : a.Val} {y : b.Val}
      {remaining : List Byte} : Resumes f registered (depth + 1) lag leftover a x dest remaining →
      Undisturbed leftover False b → b.Valid y →
      Resumes f registered depth lag leftover (pair a b) (x, y) (dest, b.init)
        (remaining ++ b.encode f y)
  | pairSecond {depth size lag leftover : Nat} {a b : SerialType} {x : a.Val} {y dest : b.Val}
      {remaining : List Byte} : Settled registered (depth + 1) size a x →
      Resumes f registered (depth + 1) lag leftover b y dest remaining →
      Resumes f registered depth (size + lag) leftover (pair a b) (x, y) (x, dest) remaining
  | sequence {depth lag leftover : Nat} {elem : SerialType} {done made rest : List elem.Val}
      {item : elem.Val} {remaining : List Byte} :
      Resumes f registered (depth + 1) lag leftover elem item elem.init remaining →
      (rest ≠ [] → Undisturbed leftover False elem) → (sequence elem).Valid (done ++ item :: rest) →
      List.Forall₂ (Copies f 0 False elem) made done →
      registered depth = [UInt64.ofNat (done ++ item :: rest).length] →
      Resumes f registered depth (8 + lag) leftover (sequence elem) (done ++ item :: rest) made
        (remaining ++ itemBytes elem f rest)
  | associative {depth lag leftover : Nat} {elem : SerialType} {keys : Keys elem}
      {done made rest : List elem.Val} {item : elem.Val} {remaining : List Byte} :
      Resumes f registered (depth + 1) lag leftover elem item elem.init remaining →
      (rest ≠ [] → Undisturbed leftover False elem) →
      (associative elem keys).Valid (done ++ item :: rest) →
      List.Forall₂ (Copies f 0 False elem) made done →
      (made.foldl keys.insert []).length = done.length →
      registered depth = [UInt64.ofNat (done ++ item :: rest).length] →
      Resumes f registered depth (8 + lag) leftover (associative elem keys) (done ++ item :: rest)
        (made.foldl keys.insert []) (remaining ++ itemBytes elem f rest)
  | forwardList {depth lag leftover : Nat} {elem : SerialType} {done made rest : List elem.Val}
      {item : elem.Val} {remaining : List Byte} :
      Resumes f registered (depth + 1) lag leftover elem item elem.init remaining →
      (rest ≠ [] → Undisturbed leftover False elem) → (forwardList elem).Valid (done ++ item :: rest) →
      List.Forall₂ (Copies f 0 False elem) made done →
      registered depth =
        [UInt64.ofNat (done ++ item :: rest).length, UInt64.ofNat done.length] →
      Resumes f registered depth (8 + lag) leftover (forwardList elem) (done ++ item :: rest)
        made.reverse (remaining ++ itemBytes elem f rest)

/-- With the remaining bytes there, a repeated decode completes the value that a whole decode yields. -/
def Completes (f : Format) (registered : Nat → List UInt64) (depth lag leftover : Nat)
    (o : SerialType) (x dest : o.Val) (remaining : List Byte) : Prop :=
  ∀ {α : Type} (load : α → Byte) (s : StreamSerializer α) (rest : List Byte),
    Resuming registered depth lag s → s.left load = remaining ++ rest →
    ∃ y s', o.deserialize f load dest s = .ok (.none, y, s') ∧ Copies f 0 False o y x ∧
      Decoded o.numeric load remaining s s' ∧ s'.lag ≤ leftover

/-- With one of the remaining bytes missing, a repeated decode fails again. -/
def FailsAgain (f : Format) (registered : Nat → List UInt64) (depth lag : Nat)
    (o : SerialType) (dest : o.Val) (remaining : List Byte) : Prop :=
  ∀ {α : Type} (load : α → Byte) (s : StreamSerializer α) (q : List Byte),
    Resuming registered depth lag s → q ≠ [] → s.left load ++ q = remaining →
    ∃ y s', o.deserialize f load dest s = .ok (.bufferSizeLesser, y, s') ∧ Fails (s.level + 1) s s'

/-! ### Each way to resume -/

section ways
variable {remaining : List Byte}

/-- A value that was not begun is decoded for the first time. -/
lemma completes_fresh (symmetric : f.Symmetric) {o : SerialType} {x : o.Val}
    (undisturbed : Undisturbed lag False o) (valid : o.Valid x) (empty : ∀ l, depth ≤ l → registered l = []) :
    Completes f registered depth lag lag o x o.init (o.encode f x) := by
  intro α load s rest resuming left
  obtain ⟨y, copy⟩ := undisturbed.lawful symmetric x valid
  have caught : CaughtUp lag s := Nat.le_of_eq resuming.lag
  obtain ⟨s', run, consumes⟩ := copy.decodes load s rest (resuming.ready empty) caught left
  exact ⟨y, s', run, copy.lower, consumes, consumes.lag.trans caught⟩

/-- A value that was not begun notices a cut. -/
lemma failsAgain_fresh (symmetric : f.Symmetric) {o : SerialType} {x : o.Val}
    (undisturbed : Undisturbed lag False o) (valid : o.Valid x) (empty : ∀ l, depth ≤ l → registered l = []) :
    FailsAgain f registered depth lag o o.init (o.encode f x) := by
  intro α load s q resuming missing cut
  exact undisturbed.notices symmetric x valid load s q (resuming.ready empty) (Nat.le_of_eq resuming.lag)
    missing cut

/-- The flag of an optional or of a pointer is passed over, and the value it has is decoded. -/
lemma maybe_resumed {a : SerialType} {dest y : a.Val} {code : SerializationEC} {α : Type}
    {load : α → Byte} {s t u : StreamSerializer α} (cleared : Option a.Val → Option a.Val)
    (advanced : s.tryAdvance 1 = some t) (run : a.deserialize f load dest t = .ok (code, y, u)) :
    deserializeMaybe a cleared f load (some dest) s = .ok (code, some y, u) := by
  unfold deserializeMaybe
  rw [advanced]
  change (a.deserialize f load dest t >>= _) = _
  rw [run]
  rfl

/-- An optional completes where its value does. -/
lemma Completes.maybe {a : SerialType} {x dest : a.Val}
    (inner : Completes f registered (depth + 1) lag leftover a x dest remaining)
    (cleared : Option a.Val → Option a.Val) {α : Type} (load : α → Byte) (s : StreamSerializer α)
    (rest : List Byte) (resuming : Resuming registered depth (1 + lag) s)
    (left : s.left load = remaining ++ rest) :
    ∃ y s', deserializeNested (deserializeMaybe a cleared f load) (some dest) s =
        .ok (.none, some y, s') ∧ Copies f 0 False a y x ∧ Decoded false load remaining s s' ∧
      s'.lag ≤ leftover := by
  obtain ⟨t, advanced, skipped, next⟩ := resuming.skip 1
  obtain ⟨y, u, run, copy, read, le⟩ := inner load t rest next (skipped.left.trans left)
  obtain ⟨s', done⟩ :=
    (skipped.reads read.toReads).completes (maybe_resumed cleared advanced run) le
  exact ⟨y, s', done.1, copy, done.2⟩

/-- An optional fails again where its value does. -/
lemma FailsAgain.maybe {a : SerialType} {dest : a.Val}
    (inner : FailsAgain f registered (depth + 1) lag a dest remaining)
    (cleared : Option a.Val → Option a.Val) {α : Type} (load : α → Byte) (s : StreamSerializer α)
    (q : List Byte) (resuming : Resuming registered depth (1 + lag) s) (missing : q ≠ [])
    (cut : s.left load ++ q = remaining) :
    ∃ y s', deserializeNested (deserializeMaybe a cleared f load) (some dest) s =
      .ok (.bufferSizeLesser, y, s') ∧ Fails (s.level + 1) s s' := by
  obtain ⟨t, advanced, skipped, next⟩ := resuming.skip 1
  rw [← show t.left load = s.left load from skipped.left] at cut
  obtain ⟨y, u, run, fails⟩ := inner load t q next missing cut
  have later := skipped.fails (fails.lower (skipped.level ▸ Nat.le_succ _))
  exact ⟨some y, Fails.nested (maybe_resumed cleared advanced run) later⟩

/-- The index of a variant is passed over, and the alternative it holds is decoded. -/
lemma variant_resumed {n : Nat} {alternatives : Fin (n + 1) → SerialType} {i : Fin (n + 1)}
    {dest y : (alternatives i).Val} {code : SerializationEC} {α : Type} {load : α → Byte}
    {s t u : StreamSerializer α} (advanced : s.tryAdvance 8 = some t)
    (run : (alternatives i).deserialize f load dest t = .ok (code, y, u)) :
    deserializeVariant alternatives f load ⟨i, dest⟩ s = .ok (code, ⟨i, y⟩, u) := by
  unfold deserializeVariant
  rw [advanced]
  change ((alternatives i).deserialize f load dest t >>= _) = _
  rw [run]
  rfl

/-- A variant completes where its alternative does. -/
lemma Completes.variant (symmetric : f.Symmetric) {n : Nat} (few : n < 2 ^ 64 - 1)
    {alternatives : Fin (n + 1) → SerialType} {i : Fin (n + 1)} {x dest : (alternatives i).Val}
    (inner : Completes f registered (depth + 1) lag leftover (alternatives i) x dest remaining) :
    Completes f registered depth (8 + lag) leftover (variant alternatives) ⟨i, x⟩ ⟨i, dest⟩
      remaining := by
  intro α load s rest resuming left
  obtain ⟨t, advanced, skipped, next⟩ := resuming.skip 8
  obtain ⟨y, u, run, copy, read, le⟩ := inner load t rest next (skipped.left.trans left)
  obtain ⟨s', done⟩ := (skipped.reads read.toReads).completes (variant_resumed advanced run) le
  exact ⟨⟨i, y⟩, s', done.1, copy.variant symmetric (by decide) few, done.2⟩

/-- A variant fails again where its alternative does. -/
lemma FailsAgain.variant {n : Nat} {alternatives : Fin (n + 1) → SerialType} {i : Fin (n + 1)}
    {dest : (alternatives i).Val}
    (inner : FailsAgain f registered (depth + 1) lag (alternatives i) dest remaining) :
    FailsAgain f registered depth (8 + lag) (variant alternatives) ⟨i, dest⟩ remaining := by
  intro α load s q resuming missing cut
  obtain ⟨t, advanced, skipped, next⟩ := resuming.skip 8
  rw [← show t.left load = s.left load from skipped.left] at cut
  obtain ⟨y, u, run, fails⟩ := inner load t q next missing cut
  have later := skipped.fails (fails.lower (skipped.level ▸ Nat.le_succ _))
  exact ⟨⟨i, y⟩, Fails.nested (variant_resumed advanced run) later⟩

/-! A pair is resumed in its first or in its second component. -/

/-- The second part of a pair decides where the first one succeeds. -/
lemma pair_both {a b : SerialType} {x x' : a.Val} {y y' : b.Val} {code : SerializationEC} {α : Type}
    {load : α → Byte} {s t u : StreamSerializer α}
    (runFirst : a.deserialize f load x s = .ok (.none, x', t))
    (runSecond : b.deserialize f load y t = .ok (code, y', u)) :
    deserializePair a b f load (x, y) s = .ok (code, (x', y'), u) := by
  unfold deserializePair
  change (a.deserialize f load x s >>= _) = _
  rw [runFirst]
  change (b.deserialize f load y t >>= _) = _
  rw [runSecond]
  rfl

/-- A pair is cut where its first part is. -/
lemma pair_cut {a b : SerialType} {x x' : a.Val} {y : b.Val} {α : Type} {load : α → Byte}
    {s t : StreamSerializer α} (run : a.deserialize f load x s = .ok (.bufferSizeLesser, x', t)) :
    deserializePair a b f load (x, y) s = .ok (.bufferSizeLesser, (x', y), t) := by
  unfold deserializePair
  change (a.deserialize f load x s >>= _) = _
  rw [run]
  rfl

/-- A pair completes in its first part, and the second one is decoded for the first time. -/
lemma Completes.pairFirst (symmetric : f.Symmetric) {a b : SerialType} {x dest : a.Val}
    {y : b.Val} (inner : Completes f registered (depth + 1) lag leftover a x dest remaining)
    (undisturbed : Undisturbed leftover False b) (valid : b.Valid y) :
    Completes f registered depth lag leftover (pair a b) (x, y) (dest, b.init)
      (remaining ++ b.encode f y) := by
  intro α load s rest resuming left
  rw [List.append_assoc] at left
  obtain ⟨z, t, runFirst, copyFirst, readFirst, le⟩ := inner load s.enter _ resuming.enter left
  obtain ⟨w, copySecond⟩ := undisturbed.lawful symmetric y valid
  obtain ⟨u, runSecond, readSecond⟩ :=
    copySecond.decodes load t rest readFirst.ready le (readFirst.rest left)
  obtain ⟨s', done⟩ := (readFirst.toReads.trans readSecond.toReads).completes
    (pair_both runFirst runSecond) (readSecond.lag.trans le)
  exact ⟨(z, w), s', done.1, copyFirst.pair copySecond.lower, done.2⟩

/-- A pair fails again in its first part, or in the second one behind it. -/
lemma FailsAgain.pairFirst (symmetric : f.Symmetric) {a b : SerialType} {x dest : a.Val}
    {y : b.Val} (completes : Completes f registered (depth + 1) lag leftover a x dest remaining)
    (inner : FailsAgain f registered (depth + 1) lag a dest remaining)
    (undisturbed : Undisturbed leftover False b) (valid : b.Valid y) :
    FailsAgain f registered depth lag (pair a b) (dest, b.init) (remaining ++ b.encode f y) := by
  intro α load s q resuming missing cut
  rcases cut_append cut with ⟨r, short, here⟩ | ⟨behind, left, cut⟩
  · obtain ⟨z, t, run, fails⟩ := inner load s.enter r resuming.enter short here
    exact ⟨(z, b.init), Fails.nested (pair_cut run) (fails.lower (Nat.le_succ _))⟩
  · obtain ⟨z, t, runFirst, _, readFirst, le⟩ :=
      completes load s.enter behind resuming.enter left
    rw [← readFirst.rest left] at cut
    obtain ⟨w, u, runSecond, fails⟩ :=
      undisturbed.notices symmetric y valid load t q readFirst.ready le missing cut
    rw [readFirst.level] at fails
    exact ⟨(z, w), Fails.nested (pair_both runFirst runSecond)
      ((readFirst.fails fails).lower (Nat.le_succ _))⟩

/-- A pair whose first part is settled completes in its second part. -/
lemma Completes.pairSecond (symmetric : f.Symmetric) {size : Nat} {a b : SerialType} {x : a.Val}
    {y dest : b.Val} (settled : Settled registered (depth + 1) size a x)
    (inner : Completes f registered (depth + 1) lag leftover b y dest remaining) :
    Completes f registered depth (size + lag) leftover (pair a b) (x, y) (x, dest) remaining := by
  intro α load s rest resuming left
  obtain ⟨t, runFirst, skipped, rested⟩ :=
    settled.passes load s.enter lag resuming.enter (Nat.succ_pos _)
  obtain ⟨z, u, runSecond, copy, read, le⟩ :=
    inner load t rest (resuming.enter.skipped skipped rested) (skipped.left.trans left)
  obtain ⟨s', done⟩ :=
    (skipped.reads read.toReads).completes (pair_both runFirst runSecond) le
  exact ⟨(x, z), s', done.1, (settled.copies symmetric).pair copy, done.2⟩

/-- A pair whose first part is settled fails again in its second part. -/
lemma FailsAgain.pairSecond {size : Nat} {a b : SerialType} {x : a.Val} {dest : b.Val}
    (settled : Settled registered (depth + 1) size a x)
    (inner : FailsAgain f registered (depth + 1) lag b dest remaining) :
    FailsAgain f registered depth (size + lag) (pair a b) (x, dest) remaining := by
  intro α load s q resuming missing cut
  obtain ⟨t, runFirst, skipped, rested⟩ :=
    settled.passes load s.enter lag resuming.enter (Nat.succ_pos _)
  rw [← show t.left load = s.left load from skipped.left] at cut
  obtain ⟨z, u, runSecond, fails⟩ :=
    inner load t q (resuming.enter.skipped skipped rested) missing cut
  have later := skipped.fails (fails.lower (skipped.level ▸ Nat.le_succ _))
  exact ⟨(x, z), Fails.nested (pair_both runFirst runSecond) later⟩

/-! ### Ranges -/

section ranges
variable {elem : SerialType} {done made rest : List elem.Val} {item : elem.Val}

/-- The numbers of elements are subtracted without a wrap. -/
lemma toNat_ofNat_sub {a b : Nat} (few : a + b < 2 ^ 64) :
    (UInt64.ofNat (a + b) - UInt64.ofNat a).toNat = b := by
  rw [UInt64.toNat_sub, UInt64.toNat_ofNat', UInt64.toNat_ofNat', Nat.mod_eq_of_lt few,
    Nat.mod_eq_of_lt (Nat.lt_of_le_of_lt (Nat.le_add_right a b) few)]
  omega

/-- What is behind the item that is cut is decoded for the first time. -/
lemma rest_copies (symmetric : f.Symmetric) (behind : rest ≠ [] → Undisturbed leftover False elem)
    (valid : ∀ other ∈ rest, elem.Valid other) :
    ∃ decoded, List.Forall₂ (Copies f leftover False elem) decoded rest :=
  copies_items fun other mem =>
    (behind (List.ne_nil_of_mem mem)).lawful symmetric other (valid other mem)

/-- The elements behind the one that was cut notice a cut. -/
lemma rest_notices (symmetric : f.Symmetric) (behind : rest ≠ [] → Undisturbed leftover False elem)
    (valid : ∀ other ∈ rest, elem.Valid other) :
    ∀ other ∈ rest, Notices f leftover elem (elem.encode f other) := fun other mem =>
  (behind (List.ne_nil_of_mem mem)).notices symmetric other (valid other mem)

/-- The registered size is found, and the elements that are there are kept. -/
lemma size_resumed {α : Type} (load : α → Byte) {s : StreamSerializer α} {size : UInt64}
    (resuming : Resuming registered depth (8 + lag) s) (held : (registered depth)[0]? = some size)
    (dest : List elem.Val) :
    ∃ t, deserializeRangeSize elem f load dest s.enter = .ok (.none, size, dest, t) ∧
      Skipped s.enter t ∧ Resuming registered (depth + 1) lag t := by
  obtain ⟨t, advanced, skipped, next⟩ := resuming.skip 8
  have level : t.level = depth := skipped.level.trans resuming.level
  have own : t.registered depth = registered depth :=
    (skipped.same depth).trans (resuming.same depth (Nat.le_refl _))
  refine ⟨t, ?_, skipped, next⟩
  unfold deserializeRangeSize StreamSerializer.getValueAt
  rw [advanced]
  simp only [level, own, held]
  rfl

/-- The item that is cut is completed, and the others are decoded behind it. -/
lemma elements_resumed (insert : List elem.Val → elem.Val → List elem.Val)
    (inner : Completes f registered (depth + 1) lag leftover elem item elem.init remaining)
    {decoded : List elem.Val} (copies : List.Forall₂ (Copies f leftover False elem) decoded rest)
    (dest : List elem.Val) {α : Type} {load : α → Byte} {t : StreamSerializer α} {tail : List Byte}
    (resuming : Resuming registered (depth + 1) lag t)
    (left : t.left load = remaining ++ (itemBytes elem f rest ++ tail)) :
    ∃ y u, deserializeElements elem insert f load (rest.length + 1) dest t =
        .ok (.none, decoded.foldl insert (insert dest y), u) ∧ Copies f 0 False elem y item ∧
      Reads load (remaining ++ itemBytes elem f rest) t u ∧ u.lag ≤ leftover := by
  obtain ⟨y, v, run, copy, read, le⟩ := inner load t _ resuming left
  obtain ⟨u, loop, reads⟩ :=
    elements_decode insert copies (insert dest y) read.ready le (read.rest left)
  refine ⟨y, u, ?_, copy, read.toReads.trans reads.toReads, reads.lag.trans le⟩
  rw [deserializeElements, run]
  exact loop

/-- The registered size is found, and the loop decodes the item that is cut and those behind it. -/
lemma range_resumed (insert : List elem.Val → elem.Val → List elem.Val)
    (few : (done ++ item :: rest).length < 2 ^ 64)
    (held : registered depth = [UInt64.ofNat (done ++ item :: rest).length]) {dest : List elem.Val}
    (length : dest.length = done.length) {α : Type} (load : α → Byte) {s : StreamSerializer α}
    (resuming : Resuming registered depth (8 + lag) s) :
    ∃ t, deserializeRange elem insert f load dest s.enter =
        deserializeElements elem insert f load (rest.length + 1) dest t ∧
      Skipped s.enter t ∧ Resuming registered (depth + 1) lag t := by
  obtain ⟨t, size, skipped, next⟩ := size_resumed (f := f) load resuming (by rw [held]; rfl) dest
  refine ⟨t, ?_, skipped, next⟩
  unfold deserializeRange
  rw [size]
  change deserializeElements elem insert f load (UInt64.ofNat (done ++ item :: rest).length -
    UInt64.ofNat dest.length).toNat dest t = _
  rw [List.length_append] at few ⊢
  rw [length, toNat_ofNat_sub few]
  rfl

/-- A range completes in the element that was cut, and those behind it are decoded for the first time. -/
lemma range_completes (symmetric : f.Symmetric)
    (insert : List elem.Val → elem.Val → List elem.Val)
    (inner : Completes f registered (depth + 1) lag leftover elem item elem.init remaining)
    (behind : rest ≠ [] → Undisturbed leftover False elem) (few : (done ++ item :: rest).length < 2 ^ 64)
    (valid : ∀ other ∈ done ++ item :: rest, elem.Valid other)
    (held : registered depth = [UInt64.ofNat (done ++ item :: rest).length])
    {dest : List elem.Val} (length : dest.length = done.length) {α : Type} (load : α → Byte)
    (s : StreamSerializer α) (tail : List Byte) (resuming : Resuming registered depth (8 + lag) s)
    (left : s.left load = remaining ++ itemBytes elem f rest ++ tail) :
    ∃ y decoded s', deserializeNested (deserializeRange elem insert f load) dest s =
        .ok (.none, decoded.foldl insert (insert dest y), s') ∧ Copies f 0 False elem y item ∧
      List.Forall₂ (Copies f 0 False elem) decoded rest ∧
      Decoded false load (remaining ++ itemBytes elem f rest) s s' ∧ s'.lag ≤ leftover := by
  have later : ∀ other ∈ rest, elem.Valid other := fun other mem =>
    valid other (List.mem_append_right _ (List.mem_cons_of_mem _ mem))
  obtain ⟨decoded, copies⟩ := rest_copies symmetric behind later
  obtain ⟨t, head, skipped, next⟩ := range_resumed (f := f) insert few held length load resuming
  rw [List.append_assoc] at left
  obtain ⟨y, u, loop, copy, reads, le⟩ :=
    elements_resumed insert inner copies dest next (skipped.left.trans left)
  obtain ⟨s', finished, consumes⟩ := (skipped.reads reads).completes (head.trans loop) le
  exact ⟨y, decoded, s', finished, copy, copies.imp fun _ _ copy => copy.lower, consumes⟩

/-- A range fails again in the element that was cut, or in one behind it. -/
lemma range_failsAgain (symmetric : f.Symmetric)
    (insert : List elem.Val → elem.Val → List elem.Val)
    (completes : Completes f registered (depth + 1) lag leftover elem item elem.init remaining)
    (inner : FailsAgain f registered (depth + 1) lag elem elem.init remaining)
    (behind : rest ≠ [] → Undisturbed leftover False elem) (few : (done ++ item :: rest).length < 2 ^ 64)
    (valid : ∀ other ∈ done ++ item :: rest, elem.Valid other)
    (held : registered depth = [UInt64.ofNat (done ++ item :: rest).length])
    {dest : List elem.Val} (length : dest.length = done.length) {α : Type} (load : α → Byte)
    (s : StreamSerializer α) (q : List Byte) (resuming : Resuming registered depth (8 + lag) s)
    (missing : q ≠ []) (cut : s.left load ++ q = remaining ++ itemBytes elem f rest) :
    ∃ y s', deserializeNested (deserializeRange elem insert f load) dest s =
      .ok (.bufferSizeLesser, y, s') ∧ Fails (s.level + 1) s s' := by
  have later : ∀ other ∈ rest, elem.Valid other := fun other mem =>
    valid other (List.mem_append_right _ (List.mem_cons_of_mem _ mem))
  obtain ⟨t, head, skipped, next⟩ := range_resumed (f := f) insert few held length load resuming
  rw [← show t.left load = s.left load from skipped.left] at cut
  have loop : ∃ y u, deserializeElements elem insert f load (rest.length + 1) dest t =
      .ok (.bufferSizeLesser, y, u) ∧ Fails (t.level + 1) t u := by
    -- the bytes end inside the element that is resumed, or inside a later one, which begins afresh
    rcases cut_append cut with ⟨r, short, here⟩ | ⟨after, left, cut⟩
    · obtain ⟨y, u, run, fails⟩ := inner load t r next short here
      refine ⟨dest, u, ?_, fails⟩
      rw [deserializeElements, run]
      rfl
    · obtain ⟨y, v, run, _, read, le⟩ := completes load t after next left
      obtain ⟨decoded, copies⟩ := rest_copies symmetric behind later
      rw [← read.rest left] at cut
      obtain ⟨z, u, loop, fails⟩ := elements_short insert copies (rest_notices symmetric behind later)
        (insert dest y) read.ready le missing cut
      refine ⟨z, u, ?_, read.fails (read.level ▸ fails)⟩
      rw [deserializeElements, run]
      exact loop
  obtain ⟨y, u, run, fails⟩ := loop
  exact ⟨y, Fails.nested (head.trans run) (skipped.fails (fails.lower (skipped.level ▸ Nat.le_succ _)))⟩

/-- A sequence completes in the element that was cut. -/
lemma Completes.sequence (symmetric : f.Symmetric)
    (inner : Completes f registered (depth + 1) lag leftover elem item elem.init remaining)
    (behind : rest ≠ [] → Undisturbed leftover False elem)
    (valid : (sequence elem).Valid (done ++ item :: rest))
    (copies : List.Forall₂ (Copies f 0 False elem) made done)
    (held : registered depth = [UInt64.ofNat (done ++ item :: rest).length]) :
    Completes f registered depth (8 + lag) leftover (sequence elem) (done ++ item :: rest) made
      (remaining ++ itemBytes elem f rest) := by
  intro α load s tail resuming left
  obtain ⟨y, decoded, s', run, copy, later, consumes⟩ := range_completes symmetric
    (fun x item => x ++ [item]) inner behind valid.1 valid.2 held copies.length_eq load s tail resuming
    left
  rw [foldl_append_item, List.append_assoc, List.singleton_append] at run
  have all : Copies f 0 False (SerialType.sequence elem) (made ++ y :: decoded) (done ++ item :: rest) :=
    .sequence symmetric (by decide) (List.rel_append copies (.cons copy later)) valid.1
  exact ⟨made ++ y :: decoded, s', run, all, consumes⟩

/-- A sequence fails again in the element that was cut, or in one behind it. -/
lemma FailsAgain.sequence (symmetric : f.Symmetric)
    (completes : Completes f registered (depth + 1) lag leftover elem item elem.init remaining)
    (inner : FailsAgain f registered (depth + 1) lag elem elem.init remaining)
    (behind : rest ≠ [] → Undisturbed leftover False elem)
    (valid : (sequence elem).Valid (done ++ item :: rest))
    (copies : List.Forall₂ (Copies f 0 False elem) made done)
    (held : registered depth = [UInt64.ofNat (done ++ item :: rest).length]) :
    FailsAgain f registered depth (8 + lag) (sequence elem) made
      (remaining ++ itemBytes elem f rest) :=
  range_failsAgain symmetric _ completes inner behind valid.1 valid.2 held copies.length_eq

/-- An associative container completes in the element that was cut. -/
lemma Completes.associative (symmetric : f.Symmetric) {keys : Keys elem}
    (inner : Completes f registered (depth + 1) lag leftover elem item elem.init remaining)
    (behind : rest ≠ [] → Undisturbed leftover False elem)
    (valid : (associative elem keys).Valid (done ++ item :: rest))
    (copies : List.Forall₂ (Copies f 0 False elem) made done)
    (length : (made.foldl keys.insert []).length = done.length)
    (held : registered depth = [UInt64.ofNat (done ++ item :: rest).length]) :
    Completes f registered depth (8 + lag) leftover (associative elem keys) (done ++ item :: rest)
      (made.foldl keys.insert []) (remaining ++ itemBytes elem f rest) := by
  intro α load s tail resuming left
  obtain ⟨y, decoded, s', run, copy, later, consumes⟩ := range_completes symmetric keys.insert inner
    behind valid.1 valid.2.1 held length load s tail resuming left
  rw [← List.foldl_cons, ← List.foldl_append] at run
  have all : Copies f 0 False (SerialType.associative elem keys)
      ((made ++ y :: decoded).foldl keys.insert []) (done ++ item :: rest) :=
    .associative symmetric (by decide) keys (List.rel_append copies (.cons copy later)) valid.1 valid.2.2
  exact ⟨_, s', run, all, consumes⟩

/-- An associative container fails again in the element that was cut, or in one behind it. -/
lemma FailsAgain.associative (symmetric : f.Symmetric) {keys : Keys elem}
    (completes : Completes f registered (depth + 1) lag leftover elem item elem.init remaining)
    (inner : FailsAgain f registered (depth + 1) lag elem elem.init remaining)
    (behind : rest ≠ [] → Undisturbed leftover False elem)
    (valid : (associative elem keys).Valid (done ++ item :: rest))
    (length : (made.foldl keys.insert []).length = done.length)
    (held : registered depth = [UInt64.ofNat (done ++ item :: rest).length]) :
    FailsAgain f registered depth (8 + lag) (associative elem keys) (made.foldl keys.insert [])
      (remaining ++ itemBytes elem f rest) :=
  range_failsAgain symmetric _ completes inner behind valid.1 valid.2.1 held length

/-! ### Forward lists -/

/-- The registered numbers are found, of all elements and of those that are there. -/
lemma front_resumed {α : Type} (load : α → Byte) {s : StreamSerializer α} (dest : List elem.Val)
    (few : (done ++ item :: rest).length < 2 ^ 64)
    (held : registered depth =
      [UInt64.ofNat (done ++ item :: rest).length, UInt64.ofNat done.length])
    (resuming : Resuming registered depth (8 + lag) s) :
    ∃ t, Skipped s.enter t ∧ Resuming registered (depth + 1) lag t ∧
      1 < (t.registered t.level).length ∧
      deserializeForwardList elem f load dest s.enter = (do
        let (code, x, s) ←
          deserializeFront elem (UInt64.ofNat done.length) f load (rest.length + 1) dest t
        return (code, if code = .none then x.reverse else x, s)) := by
  obtain ⟨t, size, skipped, next⟩ := size_resumed (f := f) load resuming (by rw [held]; rfl) dest
  have level : t.level = depth := skipped.level.trans resuming.level
  have both : t.registered t.level =
      [UInt64.ofNat (done ++ item :: rest).length, UInt64.ofNat done.length] := by
    rw [level, skipped.same, ← held]
    exact resuming.same depth (Nat.le_refl _)
  refine ⟨t, skipped, next, by rw [both]; exact Nat.lt_succ_self 1, ?_⟩
  have two : t.registeredSize ≠ 1 := by
    unfold StreamSerializer.registeredSize
    rw [both]
    exact Nat.succ_ne_self 1
  have old : t.getValueAt 1 = .ok (UInt64.ofNat done.length) := by
    unfold StreamSerializer.getValueAt
    rw [both]
    rfl
  unfold deserializeForwardList
  rw [size]
  change deserializeFrontAll elem (UInt64.ofNat (done ++ item :: rest).length) f load dest t = _
  unfold deserializeFrontAll
  rw [if_neg two, old]
  rw [List.length_append] at few
  have count := toNat_ofNat_sub few
  rw [List.length_cons] at count
  rw [← count, List.length_append]
  rfl

/-- A forward list completes in the element that was cut. -/
lemma Completes.forwardList (symmetric : f.Symmetric)
    (inner : Completes f registered (depth + 1) lag leftover elem item elem.init remaining)
    (behind : rest ≠ [] → Undisturbed leftover False elem)
    (valid : (forwardList elem).Valid (done ++ item :: rest))
    (copies : List.Forall₂ (Copies f 0 False elem) made done)
    (held : registered depth =
      [UInt64.ofNat (done ++ item :: rest).length, UInt64.ofNat done.length]) :
    Completes f registered depth (8 + lag) leftover (forwardList elem) (done ++ item :: rest)
      made.reverse (remaining ++ itemBytes elem f rest) := by
  intro α load s tail resuming left
  have later : ∀ other ∈ rest, elem.Valid other := fun other mem =>
    valid.2 other (List.mem_append_right _ (List.mem_cons_of_mem _ mem))
  obtain ⟨decoded, others⟩ := rest_copies symmetric behind later
  obtain ⟨t, skipped, next, both, head⟩ :=
    front_resumed (f := f) load made.reverse valid.1 held resuming
  rw [List.append_assoc] at left
  obtain ⟨y, v, run, copy, read, le⟩ := inner load t _ next (skipped.left.trans left)
  have inside : 0 < t.level := skipped.level ▸ Nat.succ_pos _
  obtain ⟨w, more, readItem, less, both⟩ :=
    front_item (UInt64.ofNat done.length) run read inside both rest.length made.reverse
  obtain ⟨u, loop, reads⟩ := front_decode (UInt64.ofNat done.length) others (y :: made.reverse)
    readItem.ready (less.trans le) (readItem.level.symm ▸ inside) both (readItem.rest (skipped.left.trans left))
  have body : deserializeForwardList elem f load made.reverse s.enter =
      .ok (.none, made ++ y :: decoded, u) := by
    rw [head, more, loop]
    change Except.ok (SerializationEC.none, (decoded.reverse ++ y :: made.reverse).reverse, u) = _
    rw [List.reverse_append, List.reverse_cons, List.reverse_reverse, List.reverse_reverse,
      List.append_assoc, List.singleton_append]
  obtain ⟨s', finished, consumes⟩ := (skipped.reads (readItem.trans reads)).completes body
    (reads.lag.trans (less.trans le))
  have all : Copies f 0 False (SerialType.forwardList elem) (made ++ y :: decoded) (done ++ item :: rest) :=
    .forwardList symmetric (by decide)
      (List.rel_append copies (.cons copy (others.imp fun _ _ copy => copy.lower))) valid.1
  exact ⟨made ++ y :: decoded, s', finished, all, consumes⟩

/-- A forward list fails again in the element that was cut, or in one behind it. -/
lemma FailsAgain.forwardList (symmetric : f.Symmetric)
    (completes : Completes f registered (depth + 1) lag leftover elem item elem.init remaining)
    (inner : FailsAgain f registered (depth + 1) lag elem elem.init remaining)
    (behind : rest ≠ [] → Undisturbed leftover False elem)
    (valid : (forwardList elem).Valid (done ++ item :: rest))
    (held : registered depth =
      [UInt64.ofNat (done ++ item :: rest).length, UInt64.ofNat done.length]) :
    FailsAgain f registered depth (8 + lag) (forwardList elem) made.reverse
      (remaining ++ itemBytes elem f rest) := by
  intro α load s q resuming missing cut
  have later : ∀ other ∈ rest, elem.Valid other := fun other mem =>
    valid.2 other (List.mem_append_right _ (List.mem_cons_of_mem _ mem))
  obtain ⟨t, skipped, next, both, head⟩ :=
    front_resumed (f := f) load made.reverse valid.1 held resuming
  have inside : 0 < t.level := skipped.level ▸ Nat.succ_pos _
  rw [← show t.left load = s.left load from skipped.left] at cut
  have loop : ∃ y u, deserializeFront elem (UInt64.ofNat done.length) f load (rest.length + 1)
      made.reverse t = .ok (.bufferSizeLesser, y, u) ∧ Fails t.level t u := by
    rcases cut_append cut with ⟨r, short, here⟩ | ⟨after, left, cut⟩
    · obtain ⟨y, u, run, fails⟩ := inner load t r next short here
      refine ⟨made.reverse, u, ?_, fails.lower (Nat.le_succ _)⟩
      rw [deserializeFront, run]
      rfl
    · obtain ⟨y, v, run, _, read, le⟩ := completes load t after next left
      obtain ⟨w, more, readItem, less, both⟩ :=
        front_item (UInt64.ofNat done.length) run read inside both rest.length made.reverse
      obtain ⟨decoded, others⟩ := rest_copies symmetric behind later
      rw [← readItem.rest left] at cut
      obtain ⟨z, u, loop, fails⟩ := front_short (UInt64.ofNat done.length) others
        (rest_notices symmetric behind later) (y :: made.reverse) readItem.ready (less.trans le)
        (readItem.level.symm ▸ inside) both missing cut
      refine ⟨z, u, ?_, readItem.fails (readItem.level ▸ fails)⟩
      rw [more]
      exact loop
  obtain ⟨y, u, run, fails⟩ := loop
  have body : deserializeForwardList elem f load made.reverse s.enter =
      .ok (.bufferSizeLesser, y, u) := by
    rw [head, run]
    rfl
  exact ⟨y, Fails.nested body (skipped.fails (skipped.level ▸ fails))⟩

end ranges

end ways

/-! ## Every way to resume -/

/-- A state to resume from completes with what remains. -/
lemma Resumes.completes (symmetric : f.Symmetric) {o : SerialType} {x dest : o.Val}
    {remaining : List Byte} (resumes : Resumes f registered depth lag leftover o x dest remaining) :
    Completes f registered depth lag leftover o x dest remaining := by
  induction resumes with
  | fresh undisturbed valid empty => exact completes_fresh symmetric undisturbed valid empty
  | optional _ ih =>
    intro α load s rest resuming left
    obtain ⟨y, s', run, copy, consumes⟩ := ih.maybe id load s rest resuming left
    exact ⟨some y, s', run, .optional (by decide) (.some copy), consumes⟩
  | pointer _ ih =>
    intro α load s rest resuming left
    obtain ⟨y, s', run, copy, consumes⟩ := ih.maybe (fun _ => none) load s rest resuming left
    exact ⟨some y, s', run, .pointer (by decide) (.some copy), consumes⟩
  | variant few _ ih => exact ih.variant symmetric few
  | pairFirst _ undisturbed valid ih => exact ih.pairFirst symmetric undisturbed valid
  | pairSecond settled _ ih => exact ih.pairSecond symmetric settled
  | sequence _ behind valid copies held ih => exact ih.sequence symmetric behind valid copies held
  | associative _ behind valid copies length held ih =>
    exact ih.associative symmetric behind valid copies length held
  | forwardList _ behind valid copies held ih => exact ih.forwardList symmetric behind valid copies held

/-- A state to resume from fails again with less than what remains. -/
lemma Resumes.failsAgain (symmetric : f.Symmetric) {o : SerialType} {x dest : o.Val}
    {remaining : List Byte} (resumes : Resumes f registered depth lag leftover o x dest remaining) :
    FailsAgain f registered depth lag o dest remaining := by
  induction resumes with
  | fresh undisturbed valid empty => exact failsAgain_fresh symmetric undisturbed valid empty
  | optional _ ih => exact ih.maybe id
  | pointer _ ih => exact ih.maybe fun _ => none
  | variant few _ ih => exact ih.variant
  | pairFirst first undisturbed valid ih =>
    exact ih.pairFirst symmetric (first.completes symmetric) undisturbed valid
  | pairSecond settled _ ih => exact ih.pairSecond settled
  | sequence item behind valid copies held ih =>
    exact ih.sequence symmetric (item.completes symmetric) behind valid copies held
  | associative item behind valid copies length held ih =>
    exact ih.associative symmetric (item.completes symmetric) behind valid length held
  | forwardList item behind valid copies held ih =>
    exact ih.forwardList symmetric (item.completes symmetric) behind valid held

/-! ## Runs -/

/-- A destination, and the serializer that the chunks of its encoding are pushed to. -/
structure Decoding (o : SerialType) where
  stream : StreamSerializer Byte := {}
  destination : o.Val := o.init
  received : List Byte := []
  /-- What had been received at the last call of `deserialize`, and how that ended. -/
  last : Option (List Byte × Except Fault SerializationEC) := none

/-- What happens to a decode: a chunk is pushed, or it is called -/
inductive Action where
  | push (chunk : List Byte)
  | call

/-- The chunks that are pushed in a run. -/
def pushed (actions : List Action) : List (List Byte) :=
  actions.filterMap fun
    | .push chunk => some chunk
    | .call => none

namespace Decoding
variable {o : SerialType}

/-- The caller has not called yet, or was told that there are too few bytes. -/
def waiting (d : Decoding o) : Bool :=
  match d.last with
  | none => true
  | some (_, .ok code) => code = .bufferSizeLesser
  | some (_, .error _) => false

/-- A call with the destination of the one before -/
def call (f : Format) (d : Decoding o) : Decoding o :=
  match o.deserialize f id d.destination d.stream with
  | .ok (code, destination, stream) =>
    { d with destination, stream, last := some (d.received, .ok code) }
  | .error fault => { d with last := some (d.received, .error fault) }

/-- A chunk is pushed, or a call is made while the decode waits. -/
def step (f : Format) (d : Decoding o) : Action → Decoding o
  | .push chunk =>
    { d with stream := d.stream.pushView chunk, received := d.received ++ chunk }
  | .call => if d.waiting then d.call f else d

/-- A call finds too few bytes as long as the encoding has not arrived, and then it yields the value. -/
def Agrees (f : Format) (v w : o.Val) (d : Decoding o) : Prop :=
  ∀ seen result, d.last = some (seen, result) →
    (seen ≠ o.encode f v → result = .ok .bufferSizeLesser) ∧
    (seen = o.encode f v → result = .ok .none ∧ d.destination = w)

/-- A repeated call resumes: with the bytes that are to come, what is left to read is what remains. -/
def Resumable (f : Format) (v : o.Val) (d : Decoding o) : Action → Prop
  | .push _ => True
  | .call => d.last.isSome → d.waiting → ∃ leftover later,
      d.received ++ later = o.encode f v ∧
      Resumes f d.stream.registered 1 d.stream.lag leftover o v d.destination
        (d.stream.left id ++ later)

/-- Before the first call, the stream holds what has been received. -/
structure Sound (f : Format) (v w : o.Val) (d : Decoding o) : Prop where
  level : d.stream.level = 0
  valid : d.stream.mbv.Valid
  agrees : Agrees f v w d
  start : d.last = none → d.stream.Ready ∧ Idle d.stream ∧ d.destination = o.init ∧
    d.stream.left id = d.received

/-- A new decode is sound. -/
lemma sound_start (v w : o.Val) : Sound f v w ({} : Decoding o) :=
  ⟨rfl, MultiBufferView.valid_empty, nofun,
    fun _ => ⟨⟨MultiBufferView.valid_empty, fun _ _ => rfl⟩, ⟨rfl, rfl⟩, rfl, rfl⟩⟩

/-- A push keeps a decode sound. -/
lemma Sound.push {v w : o.Val} {d : Decoding o} (sound : Sound f v w d) (chunk : List Byte) :
    Sound f v w (d.step f (.push chunk)) where
  level := (pushView_kept d.stream chunk).1.trans sound.level
  valid := (pushView_valid sound.valid chunk).1
  agrees := sound.agrees
  start first := by
    obtain ⟨ready, idle, fresh, left⟩ := sound.start first
    obtain ⟨ready', unread⟩ := ready.pushView chunk
    refine ⟨ready', idle.pushView chunk, fresh, ?_⟩
    show (d.stream.pushView chunk).left id = d.received ++ chunk
    rw [← left, StreamSerializer.left, StreamSerializer.left, unread, List.map_append, List.map_id chunk]

/-- Every call resumes, the first one from the beginning. -/
lemma Sound.resumes (supported : Supported False o) {v w : o.Val} (valid : o.Valid v) {d : Decoding o}
    (sound : Sound f v w d) (waiting : d.waiting = true) (resumable : Resumable f v d .call)
    {later : List Byte} (cut : d.received ++ later = o.encode f v) :
    ∃ leftover, Resumes f d.stream.registered 1 d.stream.lag leftover o v d.destination
      (d.stream.left id ++ later) := by
  cases last : d.last with
  | none =>
    obtain ⟨ready, idle, fresh, left⟩ := sound.start last
    rw [left, cut, fresh, idle.lag]
    exact ⟨0, .fresh supported.undisturbed valid fun l le => ready.above l (by rw [sound.level]; exact le)⟩
  | some answer =>
    obtain ⟨leftover, later', cut', resumes⟩ := resumable (by rw [last]; rfl) waiting
    rw [List.append_cancel_left (cut.trans cut'.symm)]
    exact ⟨leftover, resumes⟩

/-- A call that can resume keeps a decode sound. -/
lemma Sound.call (symmetric : f.Symmetric) (supported : Supported False o) {v w : o.Val}
    (valid : o.Valid v) (unique : ∀ y, Copies f 0 False o y v → y = w) {d : Decoding o}
    (sound : Sound f v w d) (waiting : d.waiting = true) (resumable : Resumable f v d .call)
    {later : List Byte} (cut : d.received ++ later = o.encode f v) : Sound f v w (d.call f) := by
  obtain ⟨leftover, resumes⟩ := sound.resumes supported valid waiting resumable cut
  have resuming : Resuming d.stream.registered 1 d.stream.lag d.stream :=
    ⟨by rw [sound.level], rfl, sound.valid, fun _ _ => rfl⟩
  unfold Decoding.call
  cases later with
  | nil =>
    rw [List.append_nil] at cut resumes
    obtain ⟨y, s', run, copy, consumes, _⟩ :=
      resumes.completes symmetric id d.stream [] resuming (List.append_nil _).symm
    rw [run]
    refine ⟨consumes.level.trans sound.level, consumes.ready.valid, fun seen result last => ?_, nofun⟩
    obtain ⟨rfl, rfl⟩ := Prod.mk.inj (Option.some.inj last)
    exact ⟨fun short => absurd cut short, fun _ => ⟨rfl, unique y copy⟩⟩
  | cons byte bytes =>
    obtain ⟨y, s', run, fails⟩ :=
      resumes.failsAgain symmetric id d.stream _ resuming (List.cons_ne_nil _ _) rfl
    rw [run]
    refine ⟨fails.level.trans sound.level, fails.valid, fun seen result last => ?_, nofun⟩
    obtain ⟨rfl, rfl⟩ := Prod.mk.inj (Option.some.inj last)
    refine ⟨fun _ => rfl, fun all => ?_⟩
    rw [← all] at cut
    exact absurd (List.append_right_eq_self.1 cut) (List.cons_ne_nil _ _)

/-- A call receives nothing. -/
lemma received_call (f : Format) (d : Decoding o) : (d.step f .call).received = d.received := by
  change (if d.waiting then d.call f else d).received = _
  by_cases waiting : d.waiting = true
  · rw [if_pos waiting]
    unfold Decoding.call
    split <;> rfl
  · rw [if_neg waiting]

/-- In every run whose calls can resume, the decode agrees with the value. -/
lemma always_agrees (symmetric : f.Symmetric) (supported : Supported False o) {v w : o.Val}
    (valid : o.Valid v) (unique : ∀ y, Copies f 0 False o y v → y = w) (actions : List Action) {d : Decoding o}
    (sound : Sound f v w d) (cut : d.received ++ (pushed actions).flatten = o.encode f v)
    (resumable : Guarded (step f) (Resumable f v) d actions) :
    Always (step f) (Agrees f v w) d actions := by
  induction actions generalizing d with
  | nil => exact sound.agrees
  | cons action actions ih =>
    cases action with
    | push chunk =>
      refine ⟨sound.agrees, ih (sound.push chunk) ?_ resumable.2⟩
      show d.received ++ chunk ++ (pushed actions).flatten = _
      rw [List.append_assoc]
      exact cut
    | call =>
      have next : Sound f v w (d.step f .call) := by
        unfold step
        by_cases waiting : d.waiting = true
        · rw [if_pos waiting]
          exact sound.call symmetric supported valid unique waiting resumable.1 cut
        · rw [if_neg waiting]
          exact sound
      exact ⟨sound.agrees, ih next (by rw [received_call]; exact cut) resumable.2⟩

/-- An encoding has one decoded value. -/
lemma copies_unique {x y z : o.Val} (first : Copies f 0 False o y x) (second : Copies f 0 False o z x) : y = z := by
  let s : StreamSerializer Byte := ({} : StreamSerializer Byte).pushView (o.encode f x)
  have fresh : ({} : StreamSerializer Byte).Ready := ⟨MultiBufferView.valid_empty, fun _ _ => rfl⟩
  obtain ⟨ready, unread⟩ := fresh.pushView (o.encode f x)
  have idle : Idle s := Idle.pushView (s := {}) ⟨rfl, rfl⟩ _
  have left : s.left id = o.encode f x ++ [] := by
    rw [StreamSerializer.left, List.map_id, unread, List.append_nil]
    rfl
  obtain ⟨t, run, _⟩ := first.decodes id s [] ready (Nat.le_of_eq idle.lag) left
  obtain ⟨u, run', _⟩ := second.decodes id s [] ready (Nat.le_of_eq idle.lag) left
  rw [run] at run'
  exact (Prod.mk.inj (Prod.mk.inj (Except.ok.inj run')).2).1

/-- In a run whose repeated calls resume, no call yields a value before the encoding has arrived, and then
    it is the value that a serializer with all the chunks decodes. -/
theorem run_agrees (symmetric : f.Symmetric) (supported : Supported False o) {v : o.Val} (valid : o.Valid v)
    (actions : List Action) (cut : (pushed actions).flatten = o.encode f v)
    (resumable : Guarded (step f) (Resumable f v) {} actions) :
    ∃ w s, o.deserialize f id o.init ((pushed actions).foldl pushView {}) =
        .ok (.none, w, s) ∧
      Always (step f) (Agrees f v w) {} actions := by
  obtain ⟨w, copy⟩ := supported.lawful symmetric v valid
  have fresh : ({} : StreamSerializer Byte).Ready := ⟨MultiBufferView.valid_empty, fun _ _ => rfl⟩
  obtain ⟨ready, idle, unread⟩ := pushViews fresh ⟨rfl, rfl⟩ (pushed actions)
  have left : ((pushed actions).foldl pushView {}).left id =
      o.encode f v ++ [] := by
    rw [StreamSerializer.left, List.map_id, unread, cut, List.append_nil]
    rfl
  obtain ⟨s, whole, _⟩ := copy.decodes id _ [] ready (Nat.le_of_eq idle.lag) left
  refine ⟨w, s, whole, ?_⟩
  exact always_agrees symmetric supported valid (fun y other => copies_unique other copy) actions
    (sound_start v w) cut resumable

/-- An optional number, cut within the number. -/
theorem run_agrees_cut :
    let actions := [Action.push [1, 1], .call, .push [2], .call]
    ∃ w s, (optional (word 2)).deserialize ⟨true, true⟩ id none ((pushed actions).foldl pushView {}) =
        .ok (.none, w, s) ∧
      Always (step ⟨true, true⟩)
        (Agrees (o := optional (word 2)) ⟨true, true⟩ (some (0x0102 : BitVec 16)) w) {} actions := by
  intro actions
  have two : Undisturbed 0 False (word 2) := .word (.inr (.inl rfl))
  refine run_agrees (.inl rfl) (.optional (.word (.inr (.inl rfl)))) (fun _ _ => trivial) actions (by decide)
    ⟨trivial, fun called => absurd called (by decide), trivial, fun _ _ => ⟨0, [], by decide, ?_⟩,
      trivial⟩
  generalize reached :
    step (o := optional (word 2)) ⟨true, true⟩ (step ⟨true, true⟩ (step ⟨true, true⟩ {} (.push [1, 1]))
      .call) (.push [2]) = d
  have registered : d.stream.registered = fun _ => [] := reached ▸ rfl
  have lag : d.stream.lag = 1 + 0 := reached ▸ rfl
  have destination : d.destination = some (0 : BitVec 16) := reached ▸ rfl
  have left : d.stream.left id ++ [] = (word 2).encode ⟨true, true⟩ (0x0102 : BitVec 16) :=
    reached ▸ rfl
  rw [registered, lag, destination, left]
  exact .optional (.fresh two trivial fun _ _ => rfl)

/-- A number and an empty optional, cut between them. When the call is repeated, the flag is read as the
    number, and the byte of the number is passed over as the flag. -/
theorem number_before_optional_disagrees :
    ¬ ∀ (networkOrder : Bool) (o : SerialType) (v : o.Val) (actions : List Action),
      Supported False o → o.Valid v → (∀ chunk ∈ pushed actions, chunk ≠ []) →
      (pushed actions).flatten = o.encode ⟨networkOrder, true⟩ v →
      ∃ w s, o.deserialize ⟨networkOrder, true⟩ id o.init ((pushed actions).foldl pushView {}) =
          .ok (.none, w, s) ∧
        Always (step ⟨networkOrder, true⟩) (Agrees ⟨networkOrder, true⟩ v w) {} actions := by
  intro all
  obtain ⟨w, s, whole, always⟩ := all true (pair (word 1) (optional (word 1)))
    ((1 : BitVec 8), (none : Option (BitVec 8))) [.push [1], .call, .push [0], .call]
    (.pair (.word (.inl rfl)) (.optional (.word (.inl rfl)))) ⟨trivial, nofun⟩ (by decide) rfl
  obtain ⟨_, last⟩ := always.last [1, 0] (.ok .none) rfl
  have expected : ((1 : BitVec 8), (none : Option (BitVec 8))) = w :=
    (Prod.mk.inj (Prod.mk.inj (Except.ok.inj whole)).2).1
  have found : ((0 : BitVec 8), (none : Option (BitVec 8))) = w := (last rfl).2
  rw [← expected] at found
  exact absurd (Prod.mk.inj found).1 (by decide)

end Decoding
end OsterLib.Serialization
