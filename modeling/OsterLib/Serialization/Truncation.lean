import OsterLib.Serialization.RoundTrip

/-!
# Truncated encodings

A decoder that holds a strict prefix of an encoding notices that: it returns `BUFFER_SIZE_LESSER`. As in
the round trip, each shape of type does so when the types it is made of do.
-/

namespace OsterLib.Serialization
open StreamSerializer SerialType

/-- A cut of two encodings is a cut of the first one, or of the second one behind the whole first one. -/
lemma cut_append {left q a b : List Byte} (cut : left ++ q = a ++ b) :
    (∃ r, r ≠ [] ∧ left ++ r = a) ∨ ∃ behind, left = a ++ behind ∧ behind ++ q = b := by
  rcases List.append_eq_append_iff.1 cut with ⟨r, first, second⟩ | ⟨behind, first, second⟩
  · cases r with
    | nil =>
      rw [List.append_nil] at first
      exact .inr ⟨[], by rw [first, List.append_nil], by rw [List.nil_append, second, List.nil_append]⟩
    | cons byte bytes => exact .inl ⟨_, List.cons_ne_nil _ _, first.symm⟩
  · exact .inr ⟨behind, first, second.symm⟩

namespace StreamSerializer
variable {α V : Type} {load : α → Byte} {s t u : StreamSerializer α}

/-- A failed decode leaves the cursor in order, and what is registered below level `k`. -/
structure Fails (k : Nat) (s s' : StreamSerializer α) : Prop where
  valid : s'.mbv.Valid
  level : s'.level = s.level
  below : ∀ l, 0 < l → l < k → s'.registered l = s.registered l

/-- A failure above one level is one above a lower one. -/
lemma Fails.lower {j k : Nat} (fails : Fails k s t) (le : j ≤ k) : Fails j s t :=
  ⟨fails.valid, fails.level, fun l pos lt => fails.below l pos (Nat.lt_of_lt_of_le lt le)⟩

/-- Nothing has changed above the level yet. -/
lemma Ready.fails (ready : s.Ready) (k : Nat) : Fails k s s :=
  ⟨ready.valid, rfl, fun _ _ _ => rfl⟩

/-- A failure behind a part that is read. -/
lemma Reads.fails {bytes : List Byte} (reads : Reads load bytes s t) (fails : Fails s.level t u) :
    Fails s.level s u :=
  ⟨fails.valid, fails.level.trans reads.level, fun l pos lt =>
    (fails.below l pos lt).trans (reads.below l pos lt)⟩

/-- Failing behind bytes that were consumed is failing. -/
lemma Consumes.fails {bytes : List Byte} (consumes : Consumes load bytes s t)
    (fails : Fails (s.level + 1) t u) : Fails (s.level + 1) s u := by
  refine ⟨fails.valid, fails.level.trans consumes.level, fun l pos lt => ?_⟩
  rw [fails.below l pos lt]
  rcases Nat.lt_or_eq_of_le (Nat.le_of_lt_succ lt) with below | own
  · exact consumes.below l pos below
  · subst own
    exact consumes.own pos

/-- A number is not read when one of its bytes is missing. -/
lemma numeric_short {n : Nat} {bytes q : List Byte} (length : bytes.length = n) (missing : q ≠ [])
    (cut : s.left load ++ q = bytes) (ofBytes : List Byte → V) (x : V) :
    s.deserializeNumeric n ofBytes load x = (.bufferSizeLesser, x, s) := by
  have total := congrArg List.length cut
  have pos := List.length_pos_of_ne_nil missing
  rw [List.length_append, StreamSerializer.left, List.length_map] at total
  unfold deserializeNumeric
  rw [MultiBufferView.readTrivial_short (by omega)]

/-- Updating a value at the level leaves a failure above it. -/
lemma Fails.updateValueAt (fails : Fails (s.level + 1) s t) (index : Nat)
    (there : index < (t.registered t.level).length) (value : UInt64) :
    ∃ u, t.updateValueAt value index = .ok u ∧ Fails s.level s u := by
  let values := (t.registered t.level).set index value
  refine ⟨{ t with registered := Function.update t.registered t.level values }, ?_,
    fails.valid, fails.level, fun l pos lt => ?_⟩
  · unfold StreamSerializer.updateValueAt
    rw [List.getElem?_eq_getElem there]
  · refine (Function.update_of_ne ?_ ..).trans (fails.below l pos (Nat.lt_succ_of_lt lt))
    rw [fails.level]
    exact Nat.ne_of_lt lt

/-- A failure of the body is one of the decode, one level below. -/
lemma Fails.nested {body : V → StreamSerializer α → Except Fault (Outcome α V)} {x y : V}
    (run : body x s.enter = .ok (.bufferSizeLesser, y, t)) (fails : Fails s.enter.level s.enter t) :
    ∃ s', deserializeNested body x s = .ok (.bufferSizeLesser, y, s') ∧ Fails (s.level + 1) s s' := by
  have level : t.level = s.level + 1 := fails.level
  unfold deserializeNested
  change ∃ s', (body x s.enter >>= _) = _ ∧ _
  rw [run]
  exact ⟨_, rfl, fails.valid, congrArg (· - 1) level, fails.below⟩

end StreamSerializer

section truncation
variable {f : Format} {k : Nat} {faithful : Prop}

/-- A default constructed object is not decoded when bytes are missing. -/
def Notices (f : Format) (k : Nat) (o : SerialType) (bytes : List Byte) : Prop :=
  ∀ {α : Type} (load : α → Byte) (s : StreamSerializer α) (q : List Byte),
    s.Ready → CaughtUp k s → q ≠ [] → s.left load ++ q = bytes →
    ∃ y s', o.deserialize f load o.init s = .ok (.bufferSizeLesser, y, s') ∧ Fails (s.level + 1) s s'

/-- No strict prefix of an encoding is taken for a value. -/
def NoticesAll (f : Format) (k : Nat) (o : SerialType) : Prop :=
  ∀ x, o.Valid x → Notices f k o (o.encode f x)

/-- A value that is written notices a cut in its encoding. -/
lemma Notices.of {o : SerialType} {x : o.Val} {bytes : List Byte}
    (appends : Appends (o.serialize f x) bytes) (notices : Notices f k o bytes) :
    Notices f k o (o.encode f x) := by
  rwa [appends.encode]

/-! ### Numbers -/

/-- A cut number is noticed. -/
lemma notices_word {n : Nat} (x : BitVec (8 * n)) : Notices f k (word n) ((word n).encode f x) := by
  refine Notices.of (appends_word f n x.toNat) fun {α} load s q ready _ missing cut => ?_
  exact ⟨_, s, congrArg Except.ok (numeric_short (wordBytes_length f n x.toNat) missing cut _ _),
    ready.fails _⟩

/-- A cut flag is noticed. -/
lemma notices_bool (x : Bool) : Notices f k bool (bool.encode f x) := by
  refine Notices.of (appends_flag f x) fun {α} load s q ready _ missing cut => ?_
  exact ⟨_, s, congrArg Except.ok (numeric_short (wordBytes_length f 1 x.toNat) missing cut _ _),
    ready.fails _⟩

/-- A flag is not read from no byte. -/
lemma flag_short {α : Type} {load : α → Byte} {s : StreamSerializer α} {b : Bool} {q : List Byte}
    (missing : q ≠ []) (cut : s.left load ++ q = flagBytes f b) (old : Bool) :
    s.deserializeNumeric 1 (readFlag f) load old = (.bufferSizeLesser, old, s) :=
  numeric_short (wordBytes_length f 1 b.toNat) missing cut _ _

/-- A size is not read from fewer bytes than it has. -/
lemma size_short {α : Type} {load : α → Byte} {s : StreamSerializer α} {n : UInt64} {q : List Byte}
    (missing : q ≠ []) (cut : s.left load ++ q = sizeBytes f n) (old : UInt64) :
    deserializeSize f load old s = (.bufferSizeLesser, old, s) :=
  numeric_short (wordBytes_length f 8 n.toNat) missing cut _ _

/-- A cut duration is noticed. -/
lemma notices_duration {n : Nat} {toNanoseconds : BitVec (8 * n) → BitVec 64}
    {ofNanoseconds : BitVec 64 → BitVec (8 * n)} (x : BitVec (8 * n)) :
    Notices f k (duration n toNanoseconds ofNanoseconds)
      ((duration n toNanoseconds ofNanoseconds).encode f x) := by
  refine Notices.of (appends_word f 8 (toNanoseconds x).toNat) fun {α} load s q ready _ missing cut => ?_
  have read := numeric_short (s := s.enter) (wordBytes_length f 8 _) missing cut
    (fun bytes => BitVec.ofNat 64 (readWord f bytes)) (0 : BitVec 64)
  have body : deserializeDuration ofNanoseconds f load (0 : BitVec (8 * n)) s.enter =
      .ok (.bufferSizeLesser, 0, s.enter) := by
    unfold deserializeDuration
    rw [read]
  obtain ⟨s', done, failed⟩ := Fails.nested body (ready.enter.fails _)
  exact ⟨_, s', done, failed⟩

/-- An empty class has no bytes to cut. -/
lemma notices_empty (x : Unit) : Notices f k empty (empty.encode f x) := by
  intro α load s q _ _ missing cut
  exact absurd (List.append_eq_nil_iff.1 cut).2 missing

/-- A pair notices a cut in either part. -/
lemma Notices.pair {a b : SerialType} {x y : a.Val} {w z : b.Val} (copyFirst : Copies f k faithful a y x)
    (copySecond : Copies f k faithful b z w) (first : Notices f k a (a.encode f x))
    (second : Notices f k b (b.encode f w)) :
    Notices f k (pair a b) ((pair a b).encode f (x, w)) := by
  refine Notices.of (pair_appends copyFirst.appends copySecond.appends)
    fun {α} load s q ready caught missing cut => ?_
  rcases cut_append cut with ⟨r, short, here⟩ | ⟨behind, left, cut⟩
  · obtain ⟨y, t, run, fails⟩ := first load s.enter r ready.enter caught short here
    have body : deserializePair a b f load (a.init, b.init) s.enter =
        .ok (.bufferSizeLesser, (y, b.init), t) := by
      unfold deserializePair
      change (a.deserialize f load a.init s.enter >>= _) = _
      rw [run]
      rfl
    obtain ⟨s', done, failed⟩ := Fails.nested body (fails.lower (Nat.le_succ _))
    exact ⟨_, s', done, failed⟩
  · obtain ⟨t, runFirst, read⟩ := copyFirst.decodes load s.enter _ ready.enter caught left
    have later := CaughtUp.reads (s := s.enter) caught read.toReads
    rw [← read.rest left] at cut
    obtain ⟨z, u, runSecond, fails⟩ := second load t q read.ready later missing cut
    have body : deserializePair a b f load (a.init, b.init) s.enter =
        .ok (.bufferSizeLesser, (y, z), u) := by
      unfold deserializePair
      change (a.deserialize f load a.init s.enter >>= _) = _
      rw [runFirst]
      change (b.deserialize f load b.init t >>= _) = _
      rw [runSecond]
      rfl
    rw [read.level] at fails
    obtain ⟨s', done, failed⟩ := Fails.nested body ((read.fails fails).lower (Nat.le_succ _))
    exact ⟨_, s', done, failed⟩

/-! ### Optionals, smart pointers and variants -/

/-- A cut in the flag or in the value behind it is noticed. -/
lemma maybe_short {a : SerialType} {x : Option a.Val}
    (inner : ∀ value ∈ x, Notices f k a (a.encode f value)) (few : k < 1)
    (cleared : Option a.Val → Option a.Val) {α : Type} (load : α → Byte) (s : StreamSerializer α)
    (q : List Byte) (ready : s.Ready) (caught : CaughtUp k s) (missing : q ≠ [])
    (cut : s.left load ++ q = maybeBytes a f x) :
    ∃ y s', deserializeNested (deserializeMaybe a cleared f load) none s =
      .ok (.bufferSizeLesser, y, s') ∧ Fails (s.level + 1) s s' := by
  have fresh := CaughtUp.tryAdvance (s := s.enter) caught 1 few
  have noFlag : ∀ {b : Bool} {r : List Byte}, r ≠ [] → s.left load ++ r = flagBytes f b →
      ∃ y s', deserializeNested (deserializeMaybe a cleared f load) none s =
        .ok (.bufferSizeLesser, y, s') ∧ Fails (s.level + 1) s s' := by
    intro b r missing cut
    have body : deserializeMaybe a cleared f load none s.enter =
        .ok (.bufferSizeLesser, none, s.enter) := by
      unfold deserializeMaybe
      rw [fresh]
      simp only [flag_short (s := s.enter) missing cut]
    exact ⟨none, Fails.nested body (ready.enter.fails _)⟩
  cases x with
  | none => exact noFlag missing cut
  | some x =>
    rcases cut_append cut with ⟨r, short, here⟩ | ⟨behind, left, cut⟩
    · exact noFlag short here
    · obtain ⟨t, flag, read⟩ := ready.enter.deserializeFlag left false
      have later := CaughtUp.reads (s := s.enter) caught read.toReads
      rw [← read.rest left] at cut
      obtain ⟨y, u, run, fails⟩ := inner x rfl load t q read.ready later missing cut
      have body : deserializeMaybe a cleared f load none s.enter =
          .ok (.bufferSizeLesser, some y, u) := by
        unfold deserializeMaybe
        rw [fresh]
        simp only [flag]
        rw [run]
        rfl
      rw [read.level] at fails
      exact ⟨some y, Fails.nested body ((read.fails fails).lower (Nat.le_succ _))⟩

/-- An optional notices a cut. -/
lemma Notices.optional {a : SerialType} {x y : Option a.Val} (few : k < 1)
    (copies : Option.Rel (Copies f k faithful a) y x)
    (inner : ∀ value ∈ x, Notices f k a (a.encode f value)) :
    Notices f k (optional a) ((optional a).encode f x) :=
  Notices.of (maybe_appends (copies_appends copies)) (maybe_short inner few id)

/-- A pointer notices a cut. -/
lemma Notices.pointer {a : SerialType} {x y : Option a.Val} (few : k < 1)
    (copies : Option.Rel (Copies f k faithful a) y x)
    (inner : ∀ value ∈ x, Notices f k a (a.encode f value)) :
    Notices f k (pointer a) ((pointer a).encode f x) :=
  Notices.of (maybe_appends (copies_appends copies)) (maybe_short inner few fun _ => none)

/-- A variant notices a cut in its index or in its alternative. -/
lemma Notices.variant (symmetric : f.Symmetric) (less : k < 8) {n : Nat} (few : n < 2 ^ 64 - 1)
    {alternatives : Fin (n + 1) → SerialType} {i : Fin (n + 1)} {x y : (alternatives i).Val}
    (copy : Copies f k faithful (alternatives i) y x)
    (inner : Notices f k (alternatives i) ((alternatives i).encode f x)) :
    Notices f k (variant alternatives) ((variant alternatives).encode f ⟨i, x⟩) := by
  refine Notices.of (variant_appends (x := ⟨i, x⟩) copy.appends) fun {α} load s q ready caught missing cut => ?_
  have fresh := CaughtUp.tryAdvance (s := s.enter) caught 8 less
  rcases cut_append cut with ⟨r, short, here⟩ | ⟨behind, left, cut⟩
  · have body : deserializeVariant alternatives f load (SerialType.variant alternatives).init s.enter =
        .ok (.bufferSizeLesser, (SerialType.variant alternatives).init, s.enter) := by
      unfold deserializeVariant
      rw [fresh]
      simp only [size_short (s := s.enter) short here]
    obtain ⟨s', done, failed⟩ := Fails.nested body (ready.enter.fails _)
    exact ⟨_, s', done, failed⟩
  · obtain ⟨t, index, read⟩ := ready.enter.deserializeSize (.inl symmetric) left (UInt64.ofNat (2 ^ 64 - 1))
    have later := CaughtUp.reads (s := s.enter) caught read.toReads
    rw [← read.rest left] at cut
    obtain ⟨y, u, run, fails⟩ := inner load t q read.ready later missing cut
    have placed := emplace_index few alternatives i
    have body : deserializeVariant alternatives f load (SerialType.variant alternatives).init s.enter =
        .ok (.bufferSizeLesser, ⟨i, y⟩, u) := by
      unfold deserializeVariant
      rw [fresh]
      simp only [index, placed]
      change ((alternatives i).deserialize f load (alternatives i).init t >>= _) = _
      rw [run]
      rfl
    rw [read.level] at fails
    obtain ⟨s', done, failed⟩ := Fails.nested body ((read.fails fails).lower (Nat.le_succ _))
    exact ⟨_, s', done, failed⟩

/-! ### Ranges -/

section ranges
variable {elem : SerialType}

/-- The loop stops at the item that is cut. -/
lemma elements_short (insert : List elem.Val → elem.Val → List elem.Val)
    {decoded items : List elem.Val} (copies : List.Forall₂ (Copies f k faithful elem) decoded items)
    (notices : ∀ item ∈ items, Notices f k elem (elem.encode f item)) {α : Type} {load : α → Byte}
    (x : List elem.Val) {s : StreamSerializer α} {q : List Byte} (ready : s.Ready)
    (caught : CaughtUp k s) (missing : q ≠ []) (cut : s.left load ++ q = itemBytes elem f items) :
    ∃ y s', deserializeElements elem insert f load items.length x s =
        .ok (.bufferSizeLesser, y, s') ∧ Fails (s.level + 1) s s' := by
  induction copies generalizing x s with
  | nil => exact absurd (List.append_eq_nil_iff.1 cut).2 missing
  | @cons y item decoded items copy copies ih =>
    rcases cut_append cut with ⟨r, short, here⟩ | ⟨behind, left, cut⟩
    · obtain ⟨z, t, run, fails⟩ :=
        notices item List.mem_cons_self load s r ready caught short here
      refine ⟨x, t, ?_, fails⟩
      rw [List.length_cons, deserializeElements, run]
      rfl
    · obtain ⟨t, run, read⟩ := copy.decodes load s _ ready caught left
      rw [← read.rest left] at cut
      obtain ⟨z, u, loop, fails⟩ := ih (fun other mem => notices other (List.mem_cons_of_mem _ mem))
        (insert x y) read.ready (caught.reads read.toReads) cut
      rw [read.level] at fails
      refine ⟨z, u, ?_, read.fails fails⟩
      rw [List.length_cons, deserializeElements, run]
      exact loop

/-- A cut size is noticed. -/
lemma range_size_short (less : k < 8) {α : Type} {load : α → Byte} {s : StreamSerializer α}
    (caught : CaughtUp k s) {n : UInt64} {q : List Byte} (missing : q ≠ []) (cut : s.left load ++ q = sizeBytes f n)
    (x : List elem.Val) :
    deserializeRangeSize elem f load x s = .ok (.bufferSizeLesser, 0, [], s) := by
  unfold deserializeRangeSize
  rw [caught.tryAdvance 8 less]
  simp only [size_short missing cut]

/-- A cut in the size or in an item of a range is noticed. -/
lemma range_short (symmetric : f.Symmetric) (less : k < 8)
    (insert : List elem.Val → elem.Val → List elem.Val) {decoded items : List elem.Val}
    (copies : List.Forall₂ (Copies f k faithful elem) decoded items)
    (notices : ∀ item ∈ items, Notices f k elem (elem.encode f item)) (few : items.length < 2 ^ 64)
    {α : Type} (load : α → Byte) (s : StreamSerializer α) (q : List Byte) (ready : s.Ready)
    (caught : CaughtUp k s) (missing : q ≠ []) (cut : s.left load ++ q = rangeBytes elem f items) :
    ∃ y s', deserializeNested (deserializeRange elem insert f load) [] s =
        .ok (.bufferSizeLesser, y, s') ∧ Fails (s.level + 1) s s' := by
  rcases cut_append cut with ⟨r, short, here⟩ | ⟨behind, left, cut⟩
  · have body : deserializeRange elem insert f load [] s.enter =
        .ok (.bufferSizeLesser, [], s.enter) := by
      unfold deserializeRange
      rw [range_size_short (s := s.enter) less caught short here]
      rfl
    exact ⟨[], Fails.nested body (ready.enter.fails _)⟩
  · obtain ⟨t, size, readSize⟩ := range_size (s := s.enter) (.inl symmetric) less ready.enter caught left
      ([] : List elem.Val)
    have registered := readSize.ready.registered load
      (t.registered t.level ++ [UInt64.ofNat items.length])
    have readHead := readSize.toReads.trans registered
    rw [← readSize.rest left] at cut
    obtain ⟨y, u, loop, fails⟩ := elements_short insert copies notices [] registered.ready
      (CaughtUp.reads (s := s.enter) caught readHead) missing cut
    have body : deserializeRange elem insert f load [] s.enter = .ok (.bufferSizeLesser, y, u) := by
      unfold deserializeRange
      rw [size]
      change deserializeElements elem insert f load
        (UInt64.ofNat items.length - UInt64.ofNat 0).toNat [] _ = _
      rw [show UInt64.ofNat items.length - UInt64.ofNat 0 = UInt64.ofNat items.length from
        UInt64.sub_zero _, UInt64.toNat_ofNat_of_lt' few]
      exact loop
    have later := fails.lower (Nat.le_succ_of_le (Nat.le_of_eq readHead.level.symm))
    exact ⟨y, Fails.nested body (readHead.fails later)⟩

/-- A sequence notices a cut. -/
lemma Notices.sequence (symmetric : f.Symmetric) (less : k < 8) {decoded items : List elem.Val}
    (copies : List.Forall₂ (Copies f k faithful elem) decoded items) (few : items.length < 2 ^ 64)
    (inner : ∀ item ∈ items, Notices f k elem (elem.encode f item)) :
    Notices f k (sequence elem) ((sequence elem).encode f items) :=
  Notices.of (range_appends copies) (range_short symmetric less _ copies inner few)

/-- An associative container notices a cut. -/
lemma Notices.associative (symmetric : f.Symmetric) (less : k < 8) (keys : Keys elem)
    {decoded items : List elem.Val} (copies : List.Forall₂ (Copies f k faithful elem) decoded items)
    (few : items.length < 2 ^ 64) (inner : ∀ item ∈ items, Notices f k elem (elem.encode f item)) :
    Notices f k (associative elem keys) ((associative elem keys).encode f items) :=
  Notices.of (range_appends copies) (range_short symmetric less _ copies inner few)

/-- The loop of a forward list stops at the item that is cut. -/
lemma front_short (old : UInt64) {decoded items : List elem.Val}
    (copies : List.Forall₂ (Copies f k faithful elem) decoded items)
    (notices : ∀ item ∈ items, Notices f k elem (elem.encode f item)) {α : Type} {load : α → Byte}
    (x : List elem.Val) {s : StreamSerializer α} {q : List Byte} (ready : s.Ready)
    (caught : CaughtUp k s) (inside : 0 < s.level) (both : 1 < (s.registered s.level).length)
    (missing : q ≠ []) (cut : s.left load ++ q = itemBytes elem f items) :
    ∃ y s', deserializeFront elem old f load items.length x s = .ok (.bufferSizeLesser, y, s') ∧
      Fails s.level s s' := by
  induction copies generalizing x s with
  | nil => exact absurd (List.append_eq_nil_iff.1 cut).2 missing
  | @cons y item decoded items copy copies ih =>
    rcases cut_append cut with ⟨r, short, here⟩ | ⟨behind, left, cut⟩
    · obtain ⟨z, t, run, fails⟩ :=
        notices item List.mem_cons_self load s r ready caught short here
      refine ⟨x, t, ?_, fails.lower (Nat.le_succ _)⟩
      rw [List.length_cons, deserializeFront, run]
      rfl
    · obtain ⟨t, run, read⟩ := copy.decodes load s _ ready caught left
      obtain ⟨u, next, readItem, -, both⟩ := front_item old run read inside both items.length x
      rw [← readItem.rest left] at cut
      obtain ⟨z, v, loop, fails⟩ := ih (fun other mem => notices other (List.mem_cons_of_mem _ mem))
        (y :: x) readItem.ready (caught.reads readItem) (readItem.level.symm ▸ inside) both cut
      rw [readItem.level] at fails
      refine ⟨z, v, ?_, readItem.fails fails⟩
      rw [List.length_cons, next]
      exact loop

/-- A forward list notices a cut. -/
lemma Notices.forwardList (symmetric : f.Symmetric) (less : k < 8) {decoded items : List elem.Val}
    (copies : List.Forall₂ (Copies f k faithful elem) decoded items) (few : items.length < 2 ^ 64)
    (inner : ∀ item ∈ items, Notices f k elem (elem.encode f item)) :
    Notices f k (forwardList elem) ((forwardList elem).encode f items) := by
  refine Notices.of (range_appends copies) fun {α} load s q ready caught missing cut => ?_
  rcases cut_append cut with ⟨r, short, here⟩ | ⟨behind, left, cut⟩
  · have body : deserializeForwardList elem f load [] s.enter =
        .ok (.bufferSizeLesser, [], s.enter) := by
      unfold deserializeForwardList
      rw [range_size_short (s := s.enter) less caught short here]
      rfl
    exact ⟨[], Fails.nested body (ready.enter.fails _)⟩
  · obtain ⟨t, readHead, both, head⟩ := front_head elem (.inl symmetric) less [] ready caught left
    rw [← readHead.rest left] at cut
    obtain ⟨y, u, loop, fails⟩ := front_short 0 copies inner [] readHead.ready
      (CaughtUp.reads (s := s.enter) caught readHead) (readHead.level.symm ▸ Nat.succ_pos _) both
      missing cut
    have body : deserializeForwardList elem f load [] s.enter = .ok (.bufferSizeLesser, y, u) := by
      rw [head, UInt64.toNat_ofNat_of_lt' few, loop]
      rfl
    rw [readHead.level] at fails
    exact ⟨y, Fails.nested body (readHead.fails fails)⟩

/-! ### Arrays -/

/-- The loop of an array stops at the element that is cut. -/
lemma items_short (remain : UInt64) {n : Nat} {x y : Fin n → elem.Val}
    (copies : ∀ i, Copies f k faithful elem (y i) (x i))
    (notices : ∀ i, Notices f k elem (elem.encode f (x i))) {α : Type} {load : α → Byte}
    (count i : Nat) (total : i + count = n) {z : Fin n → elem.Val}
    (fresh : ∀ j, i ≤ j.1 → z j = elem.init) {s : StreamSerializer α} {q : List Byte}
    (ready : s.Ready) (caught : CaughtUp k s) (inside : 0 < s.level)
    (some : 0 < (s.registered s.level).length) (missing : q ≠ [])
    (cut : s.left load ++ q = itemBytes elem f ((List.ofFn x).drop i)) :
    ∃ w s', deserializeItems elem remain f load count i z s = .ok (.bufferSizeLesser, w, s') ∧
      Fails s.level s s' := by
  induction count generalizing i z s with
  | zero =>
    have nothing : itemBytes elem f ((List.ofFn x).drop i) = [] := by
      rw [List.drop_eq_nil_of_le (by rw [List.length_ofFn]; omega)]
      rfl
    rw [nothing] at cut
    exact absurd (List.append_eq_nil_iff.1 cut).2 missing
  | succ count ih =>
    have lt : i < n := by omega
    rw [ofFn_drop x lt] at cut
    rw [deserializeItems, dif_pos lt, fresh ⟨i, lt⟩ (Nat.le_refl i)]
    -- the cut is inside this element, or behind it
    rcases cut_append cut with ⟨r, short, here⟩ | ⟨behind, left, cut⟩
    · obtain ⟨w, t, run, fails⟩ := notices ⟨i, lt⟩ load s r ready caught short here
      have own : t.registered t.level = s.registered s.level := by
        rw [fails.level]
        exact fails.below s.level inside (Nat.lt_succ_self _)
      obtain ⟨u, update, kept⟩ := fails.updateValueAt 0 (own.symm ▸ some) (remain - 1)
      refine ⟨Function.update z ⟨i, lt⟩ w, u, ?_, kept⟩
      rw [run]
      change (t.updateValueAt (remain - 1) 0 >>= fun s => _) = _
      rw [update]
      rfl
    · obtain ⟨t, run, read⟩ := (copies ⟨i, lt⟩).decodes load s _ ready caught left
      obtain ⟨u, update, readItem, -, some⟩ := read.updated inside some (remain - 1)
      rw [← readItem.rest left] at cut
      have fresh' : ∀ j, i + 1 ≤ j.1 → Function.update z ⟨i, lt⟩ (y ⟨i, lt⟩) j = elem.init := by
        intro j lej
        rw [Function.update_of_ne (Fin.ne_of_gt lej)]
        exact fresh j (Nat.le_of_succ_le lej)
      obtain ⟨w, v, loop, fails⟩ := ih (i + 1) (by omega) fresh' readItem.ready
        (caught.reads readItem) (readItem.level.symm ▸ inside) some cut
      rw [readItem.level] at fails
      refine ⟨w, v, ?_, readItem.fails fails⟩
      rw [run]
      change (t.updateValueAt (remain - 1) 0 >>= fun s => _) = _
      rw [update]
      exact loop

/-- An array notices a cut. -/
lemma Notices.array (stored : elem.StoredAsEncoded) {n : Nat} (small : n < 2 ^ 64)
    {x y : Fin n → elem.Val} (copies : ∀ i, Copies f k faithful elem (y i) (x i))
    (inner : ∀ i, Notices f k elem (elem.encode f (x i))) :
    Notices f k (array elem n) ((array elem n).encode f x) := by
  refine Notices.of (array_appends stored copies) fun {α} load s q ready caught missing cut => ?_
  obtain ⟨t, readHead, some, head⟩ := array_head elem f load small ready fun _ => elem.init
  have same : t.left load = s.left load := readHead.left.symm
  obtain ⟨w, u, loop, fails⟩ := items_short (s := t) (UInt64.ofNat n) copies
    inner n 0 (Nat.zero_add n) (fun _ _ => rfl) readHead.ready
    (CaughtUp.reads (s := s.enter) caught readHead) (readHead.level.symm ▸ Nat.succ_pos _) some missing
    (same.symm ▸ cut)
  rw [readHead.level] at fails
  exact ⟨w, Fails.nested (head.trans loop) (readHead.fails fails)⟩

end ranges

/-! ## Every supported type -/

/-- A strict prefix of the encoding of an aligned value is noticed. -/
lemma Aligned.notices (symmetric : f.Symmetric) {o : SerialType} {x : o.Val}
    (aligned : Aligned k faithful o x) : Notices f k o (o.encode f x) := by
  induction aligned with
  | word x => exact notices_word x
  | bool x => exact notices_bool x
  | duration _ => exact notices_duration _
  | empty x => exact notices_empty x
  | pair a b first second =>
    obtain ⟨y, copyFirst⟩ := a.copies symmetric
    obtain ⟨z, copySecond⟩ := b.copies symmetric
    exact Notices.pair copyFirst copySecond first second
  | optional less each ih =>
    obtain ⟨y, copies⟩ := copies_maybe fun value mem => (each value mem).copies symmetric
    exact Notices.optional less copies ih
  | pointer less each ih =>
    obtain ⟨y, copies⟩ := copies_maybe fun value mem => (each value mem).copies symmetric
    exact Notices.pointer less copies ih
  | variant less few a ih =>
    obtain ⟨y, copy⟩ := a.copies symmetric
    exact Notices.variant symmetric less few copy ih
  | sequence less few each ih =>
    obtain ⟨decoded, copies⟩ := copies_items fun item mem => (each item mem).copies symmetric
    exact Notices.sequence symmetric less copies few ih
  | associative less few distinct each ih =>
    obtain ⟨decoded, copies⟩ := copies_items fun item mem => (each item mem).copies symmetric
    exact Notices.associative symmetric less _ copies few ih
  | forwardList less few each ih =>
    obtain ⟨decoded, copies⟩ := copies_items fun item mem => (each item mem).copies symmetric
    exact Notices.forwardList symmetric less copies few ih
  | array small stored each ih =>
    choose y copies using fun i => (each i).copies symmetric
    exact Notices.array stored small copies ih

/-- An undisturbed type notices every cut. -/
lemma Undisturbed.notices (symmetric : f.Symmetric) {o : SerialType}
    (undisturbed : Undisturbed k faithful o) : NoticesAll f k o :=
  fun x valid => (undisturbed.aligned x valid).notices symmetric

/-- A supported type notices every cut where nothing is to be passed over. -/
lemma SerialType.Supported.notices (symmetric : f.Symmetric) {o : SerialType}
    (supported : Supported faithful o) : NoticesAll f 0 o :=
  supported.undisturbed.notices symmetric

end truncation
end OsterLib.Serialization
