import OsterLib.Serialization.SerialType
import Mathlib.Data.List.Forall2
import Mathlib.Data.List.OfFn

/-!
# The round trip

Whatever is encoded is decoded again, when the decoder holds all the bytes. A decode starts `Ready`:
nothing of an earlier attempt is left to pass over. A successful one `Consumes` exactly the encoding and
leaves the serializer ready for the next value. Each shape of type is `Lawful` when the types it is made
of are, and a list of values is decoded value by value (`round_trip`).
-/

namespace OsterLib.Serialization
open StreamSerializer SerialType

/-! ## What a serializer appends -/

/-- The serializer appends the bytes, whatever the buffer holds. -/
def Appends (serializer : Serializer) (bytes : List Byte) : Prop :=
  ∀ buffer, serializer buffer = (.none, buffer ++ bytes)

/-- Nothing is written. -/
lemma appends_nil : Appends (serializeAll []) [] := by
  intro buffer
  simp [serializeAll]

/-- One serializer is behind another. -/
lemma Appends.cons {serializer : Serializer} {serializers : List Serializer} {bytes rest : List Byte}
    (first : Appends serializer bytes) (later : Appends (serializeAll serializers) rest) :
    Appends (serializeAll (serializer :: serializers)) (bytes ++ rest) := by
  intro buffer
  rw [serializeAll, first buffer]
  show serializeAll serializers (buffer ++ bytes) = _
  rw [later, List.append_assoc]

/-- A number is written as its bytes. -/
lemma appends_word (f : Format) (n x : Nat) : Appends (serializeWord f n x) (wordBytes f n x) :=
  fun _ => rfl

/-- The encoding of a value. -/
def SerialType.encode (o : SerialType) (f : Format) (x : o.Val) : List Byte :=
  (o.serialize f x []).2

/-- What is appended is the encoding. -/
lemma Appends.encode {o : SerialType} {f : Format} {x : o.Val} {bytes : List Byte}
    (appends : Appends (o.serialize f x) bytes) : o.encode f x = bytes := by
  unfold SerialType.encode
  rw [appends]
  rfl

/-! ## What a successful decode does -/

namespace StreamSerializer
variable {α V : Type} {load : α → Byte}

/-- The bytes that are left to read. -/
def left (s : StreamSerializer α) (load : α → Byte) : List Byte := s.mbv.unread.map load

/-- The cursor is in order, and nothing is registered above the level. -/
structure Ready (s : StreamSerializer α) : Prop where
  valid : s.mbv.Valid
  above : ∀ l, s.level < l → s.registered l = []

/-- The bytes are read, and what is registered below the level stays. -/
structure Reads (load : α → Byte) (bytes : List Byte) (s s' : StreamSerializer α) : Prop where
  ready : s'.Ready
  level : s'.level = s.level
  left : s.left load = bytes ++ s'.left load
  below : ∀ l, 0 < l → l < s.level → s'.registered l = s.registered l
  lag : s'.lag ≤ s.lag

/-- The bytes are read, and what is registered up to the level stays. -/
structure Consumes (load : α → Byte) (bytes : List Byte) (s s' : StreamSerializer α) : Prop
    extends Reads load bytes s s' where
  own : 0 < s.level → s'.registered s.level = s.registered s.level

/-- The bytes are consumed by one call, which leaves nothing to pass over when it completes a value that
    is not a number. -/
structure Decoded (numeric : Bool) (load : α → Byte) (bytes : List Byte) (s s' : StreamSerializer α) :
    Prop extends Consumes load bytes s s' where
  top : numeric = false → s.level = 0 → s'.lag = 0

/-- What is left behind the bytes that are read -/
lemma Reads.rest {bytes rest : List Byte} {s s' : StreamSerializer α} (reads : Reads load bytes s s')
    (left : s.left load = bytes ++ rest) : s'.left load = rest := by
  have same := reads.left
  rw [left] at same
  exact (List.append_cancel_left same).symm

/-- Bytes are read one part behind the other. -/
lemma Reads.trans {a b : List Byte} {s t u : StreamSerializer α} (first : Reads load a s t)
    (second : Reads load b t u) : Reads load (a ++ b) s u where
  ready := second.ready
  level := second.level.trans first.level
  left := by rw [first.left, second.left, List.append_assoc]
  below l pos lt := by
    rw [second.below l pos (first.level ▸ lt), first.below l pos lt]
  lag := second.lag.trans first.lag

/-- Bytes are consumed one part behind the other. -/
lemma Consumes.trans {a b : List Byte} {s t u : StreamSerializer α} (first : Consumes load a s t)
    (second : Consumes load b t u) : Consumes load (a ++ b) s u where
  toReads := first.toReads.trans second.toReads
  own pos := by
    have own := second.own (first.level ▸ pos)
    rw [first.level] at own
    rw [own, first.own pos]

/-- A serializer that is ready consumes nothing. -/
lemma Ready.refl {s : StreamSerializer α} (ready : s.Ready) (load : α → Byte) :
    Consumes load [] s s :=
  ⟨⟨ready, rfl, rfl, fun _ _ _ => rfl, Nat.le_refl _⟩, fun _ => rfl⟩

/-- Registering reads nothing. -/
lemma Ready.registered {s : StreamSerializer α} (ready : s.Ready) (load : α → Byte)
    (values : List UInt64) :
    Reads load [] s { s with registered := Function.update s.registered s.level values } where
  ready := by
    refine ⟨ready.valid, fun l lt => ?_⟩
    exact (Function.update_of_ne (Nat.ne_of_gt lt) ..).trans (ready.above l lt)
  level := rfl
  left := rfl
  below l _ lt := Function.update_of_ne (Nat.ne_of_lt lt) _ _
  lag := Nat.le_refl _

/-- A number is read from the front of what is left. -/
lemma Ready.deserializeNumeric {s : StreamSerializer α} (ready : s.Ready) {bytes rest : List Byte}
    (left : s.left load = bytes ++ rest) {n : Nat} (length : bytes.length = n)
    (ofBytes : List Byte → V) (x : V) :
    ∃ s', s.deserializeNumeric n ofBytes load x = (.none, ofBytes bytes, s') ∧
      Consumes load bytes s s' := by
  have total := congrArg List.length left
  rw [StreamSerializer.left, List.length_map, List.length_append] at total
  obtain ⟨mbv, read, valid, unread⟩ := ready.valid.readTrivial (n := n) (by omega)
  have taken : (s.mbv.unread.take n).map load = bytes := by
    rw [List.map_take]
    change (s.left load).take n = bytes
    rw [left, List.take_left' length]
  have dropped : mbv.unread.map load = rest := by
    rw [unread, List.map_drop]
    change (s.left load).drop n = rest
    rw [left, List.drop_left' length]
  let sz := UInt64.ofNat n
  refine ⟨{ s with mbv, end_ := s.end_ + sz, iterator := s.iterator + sz }, ?_,
    ⟨⟨valid, ready.above⟩, rfl, ?_, fun _ _ _ => rfl, Nat.le_of_eq (lag_consume s sz)⟩,
    fun _ => rfl⟩
  · unfold StreamSerializer.deserializeNumeric
    rw [read, ← taken]
  · rw [left]
    exact congrArg (bytes ++ ·) dropped.symm

/-- A level above nothing is registered either. -/
lemma Ready.enter {s : StreamSerializer α} (ready : s.Ready) : s.enter.Ready :=
  ⟨ready.valid, fun l lt => ready.above l (Nat.lt_of_succ_lt lt)⟩

/-- Around a body that reads the bytes, `deserialize` consumes them. -/
lemma Reads.nested {s t : StreamSerializer α} {body : V → StreamSerializer α →
    Except Fault (Outcome α V)} {x y : V} {bytes : List Byte}
    (run : body x s.enter = .ok (.none, y, t)) (reads : Reads load bytes s.enter t) :
    ∃ s', deserializeNested body x s = .ok (.none, y, s') ∧ Decoded false load bytes s s' := by
  have level : t.level = s.level + 1 := reads.level
  unfold deserializeNested
  change ∃ s', (body x s.enter >>= _) = _ ∧ _
  rw [run]
  refine ⟨_, rfl, ?_⟩
  simp only [if_true, level]
  -- the outermost decode drops the bytes that are read, an inner one only what is registered at its level
  by_cases top : s.level = 0
  · rw [if_pos (by rw [top])]
    have flushed := reads.ready.valid.flush
    have settled : (t.end_ - t.end_).toNat = 0 := by
      rw [UInt64.sub_self]
      rfl
    refine ⟨⟨⟨⟨flushed.1, fun _ _ => rfl⟩, rfl, ?_, ?_, ?_⟩, ?_⟩, fun _ _ => settled⟩
    · rw [show s.left load = s.enter.left load from rfl, reads.left]
      exact congrArg (bytes ++ List.map load ·) flushed.2.symm
    · intro l pos lt
      omega
    · show (t.end_ - t.end_).toNat ≤ _
      rw [settled]
      exact Nat.zero_le _
    · intro pos
      omega
  · rw [if_neg (by omega)]
    refine ⟨⟨⟨⟨reads.ready.valid, ?_⟩, rfl, reads.left, ?_, reads.lag⟩, ?_⟩, fun _ zero => absurd zero top⟩
    · intro l lt
      change s.level < l at lt
      show Function.update t.registered (s.level + 1) [] l = []
      by_cases own : l = s.level + 1
      · rw [own, Function.update_self]
      · rw [Function.update_of_ne own]
        exact reads.ready.above l (by omega)
    · intro l pos lt
      show Function.update t.registered (s.level + 1) [] l = _
      rw [Function.update_of_ne (by omega)]
      exact reads.below l pos (Nat.lt_succ_of_lt lt)
    · intro pos
      show Function.update t.registered (s.level + 1) [] s.level = _
      rw [Function.update_of_ne (by omega)]
      exact reads.below s.level pos (Nat.lt_succ_self _)

end StreamSerializer

/-! ## Lawful types -/

/-- At most `k` bytes are to be passed over. -/
def CaughtUp (k : Nat) {α : Type} (s : StreamSerializer α) : Prop := s.lag ≤ k

section lawful
variable {f : Format} {k : Nat} {faithful : Prop}

/-- Reading keeps it caught up. -/
lemma CaughtUp.reads {α : Type} {load : α → Byte} {bytes : List Byte} {s s' : StreamSerializer α}
    (caught : CaughtUp k s) (reads : Reads load bytes s s') : CaughtUp k s' :=
  Nat.le_trans reads.lag caught

/-- A serializer that is caught up passes nothing over. -/
lemma CaughtUp.tryAdvance {α : Type} {s : StreamSerializer α} (caught : CaughtUp k s)
    (size : UInt64) (less : k < size.toNat) : s.tryAdvance size = none :=
  tryAdvance_none size (Nat.lt_of_le_of_lt caught less)

/-- A default constructed object is decoded from the bytes to `y`. -/
def Decodes (f : Format) (k : Nat) (o : SerialType) (y : o.Val) (bytes : List Byte) : Prop :=
  ∀ {α : Type} (load : α → Byte) (s : StreamSerializer α) (rest : List Byte),
    s.Ready → CaughtUp k s → s.left load = bytes ++ rest →
    ∃ s', o.deserialize f load o.init s = .ok (.none, y, s') ∧ Decoded o.numeric load bytes s s'

/-- `x` is encoded, and its encoding is decoded to `y`, which is equal to it where that is asked for. -/
structure Copies (f : Format) (k : Nat) (faithful : Prop) (o : SerialType) (y x : o.Val) : Prop where
  appends : Appends (o.serialize f x) (o.encode f x)
  equal : faithful → o.Equal y x
  decodes : Decodes f k o y (o.encode f x)

/-- Every value an object can hold is encoded, and decoded again. -/
def Lawful (f : Format) (k : Nat) (faithful : Prop) (o : SerialType) : Prop :=
  ∀ x, o.Valid x → ∃ y, Copies f k faithful o y x

/-- A copy is what is written, read again. -/
lemma Copies.of {o : SerialType} {y x : o.Val} {bytes : List Byte}
    (appends : Appends (o.serialize f x) bytes) (equal : faithful → o.Equal y x)
    (decodes : Decodes f k o y bytes) : Copies f k faithful o y x := by
  obtain rfl := appends.encode
  exact ⟨appends, equal, decodes⟩

/-! ### Numbers -/

/-- A number is copied. -/
lemma Copies.word (symmetric : f.Symmetric) {n : Nat} (x : BitVec (8 * n)) :
    Copies f k faithful (word n) x x := by
  refine .of (appends_word f n x.toNat) (fun _ => rfl) fun {α} load s rest ready _ left => ?_
  obtain ⟨s', run, consumes⟩ := ready.deserializeNumeric left (wordBytes_length f n x.toNat)
    (fun bytes => BitVec.ofNat (8 * n) (readWord f bytes)) (SerialType.word n).init
  have back : BitVec.ofNat (8 * n) (readWord f (wordBytes f n x.toNat)) = x := by
    have bound : x.toNat < 256 ^ n := by
      have lt := x.isLt
      rwa [Nat.pow_mul] at lt
    rw [readWord_wordBytes f symmetric, Nat.mod_eq_of_lt bound, BitVec.ofNat_toNat, BitVec.setWidth_eq]
  exact ⟨s', congrArg Except.ok (run.trans
    (congrArg (fun value => (SerializationEC.none, value, s')) back)), consumes, nofun⟩

/-- The encoding of a `bool`. -/
def flagBytes (f : Format) (b : Bool) : List Byte := wordBytes f 1 b.toNat

/-- A flag is written as its byte. -/
lemma appends_flag (f : Format) (b : Bool) : Appends (bool.serialize f b) (flagBytes f b) :=
  appends_word f 1 b.toNat

/-- A flag is read as it was written. -/
lemma StreamSerializer.Ready.deserializeFlag {α : Type} {load : α → Byte} {s : StreamSerializer α}
    (ready : s.Ready) {b : Bool} {rest : List Byte} (left : s.left load = flagBytes f b ++ rest) (old : Bool) :
    ∃ s', s.deserializeNumeric 1 (readFlag f) load old = (.none, b, s') ∧
      Consumes load (flagBytes f b) s s' := by
  obtain ⟨s', run, consumes⟩ := ready.deserializeNumeric left (wordBytes_length f 1 b.toNat)
    (readFlag f) old
  have back : readFlag f (wordBytes f 1 b.toNat) = b := by
    have bound : b.toNat < 256 ^ 1 := Nat.lt_of_le_of_lt b.toNat_le (by decide)
    unfold readFlag
    rw [(readWord_wordBytes_iff f bound).2 (f.legible_one _)]
    cases b <;> rfl
  exact ⟨s', run.trans (congrArg (fun value => (SerializationEC.none, value, s')) back), consumes⟩

/-- A `bool` is copied. -/
lemma Copies.bool (x : Bool) : Copies f k faithful bool x x := by
  refine .of (appends_flag f x) (fun _ => rfl) fun {α} load s rest ready _ left => ?_
  obtain ⟨s', run, consumes⟩ := ready.deserializeFlag left SerialType.bool.init
  exact ⟨s', congrArg Except.ok run, consumes, nofun⟩

/-- The encoding of a `size_t`. -/
def sizeBytes (f : Format) (n : UInt64) : List Byte := wordBytes f 8 n.toNat

/-- A size is written as its bytes. -/
lemma appends_size (f : Format) (n : UInt64) : Appends (serializeSize f n) (sizeBytes f n) :=
  appends_word f 8 n.toNat

/-- A legible size is read as it was written. -/
lemma StreamSerializer.Ready.deserializeSize {n : UInt64} (legible : f.Legible 8 n.toNat) {α : Type}
    {load : α → Byte} {s : StreamSerializer α} (ready : s.Ready) {rest : List Byte}
    (left : s.left load = sizeBytes f n ++ rest) (old : UInt64) :
    ∃ s', deserializeSize f load old s = (.none, n, s') ∧ Consumes load (sizeBytes f n) s s' := by
  obtain ⟨s', run, consumes⟩ := ready.deserializeNumeric left (wordBytes_length f 8 n.toNat)
    (fun bytes => UInt64.ofNat (readWord f bytes)) old
  have back : UInt64.ofNat (readWord f (wordBytes f 8 n.toNat)) = n := by
    have lt := n.toNat_lt
    rw [(readWord_wordBytes_iff f (by omega)).2 legible, UInt64.ofNat_toNat]
  exact ⟨s', run.trans (congrArg (fun value => (SerializationEC.none, value, s')) back), consumes⟩

/-- A cast to the same period changes nothing. -/
lemma durationCast_one (count : BitVec 64) : durationCast 1 1 count = count := by
  unfold durationCast
  simp

/-- The number of nanoseconds that a duration is encoded as. -/
def nanoseconds (n num den : Nat) (x : BitVec (8 * n)) : BitVec 64 :=
  durationCast num den (x.signExtend 64)

/-- The duration that is decoded for `x`. -/
def decodedChrono (n num den : Nat) (x : BitVec (8 * n)) : BitVec (8 * n) :=
  (durationCast den num (nanoseconds n num den x)).setWidth _

/-- 64-bit nanoseconds are decoded as they are. -/
lemma decodedChrono_nanoseconds (x : BitVec (8 * 8)) : decodedChrono 8 1 1 x = x := by
  unfold decodedChrono nanoseconds
  rw [durationCast_one, durationCast_one, BitVec.signExtend_eq, BitVec.setWidth_eq]

/-- A duration is copied as the two conversions leave it. -/
lemma Copies.duration (symmetric : f.Symmetric) {n : Nat} {toNanoseconds : BitVec (8 * n) → BitVec 64}
    {ofNanoseconds : BitVec 64 → BitVec (8 * n)} {x : BitVec (8 * n)}
    (exactly : faithful → ofNanoseconds (toNanoseconds x) = x) :
    Copies f k faithful (duration n toNanoseconds ofNanoseconds) (ofNanoseconds (toNanoseconds x)) x := by
  refine .of (appends_word f 8 (toNanoseconds x).toNat) exactly fun {α} load s rest ready _ left => ?_
  obtain ⟨t, run, consumes⟩ := ready.enter.deserializeNumeric left (wordBytes_length f 8 _)
    (fun bytes => BitVec.ofNat 64 (readWord f bytes)) (0 : BitVec 64)
  have back : BitVec.ofNat 64 (readWord f (wordBytes f 8 (toNanoseconds x).toNat)) =
      toNanoseconds x := by
    have lt := (toNanoseconds x).isLt
    rw [readWord_wordBytes f symmetric, Nat.mod_eq_of_lt (by omega), BitVec.ofNat_toNat,
      BitVec.setWidth_eq]
  have body : deserializeDuration ofNanoseconds f load (0 : BitVec (8 * n)) s.enter =
      .ok (.none, ofNanoseconds (toNanoseconds x), t) := by
    unfold deserializeDuration
    rw [run, back]
  exact consumes.toReads.nested body

/-- An integer duration is copied as its casts leave it. -/
lemma Copies.chrono (symmetric : f.Symmetric) {n num den : Nat}
    (exactly : faithful → n = 8 ∧ num = 1 ∧ den = 1) (x : BitVec (8 * n)) :
    Copies f k faithful (chrono n num den) (decodedChrono n num den x) x := by
  refine .duration symmetric fun asked => ?_
  obtain ⟨rfl, rfl, rfl⟩ := exactly asked
  exact decodedChrono_nanoseconds x

/-! ### Empty classes and pairs -/

/-- An empty class is copied. -/
lemma Copies.empty (x : Unit) : Copies f k faithful empty x x := by
  have nothing : Appends (SerialType.empty.serialize f x) [] := by
    intro buffer
    show (SerializationEC.none, buffer) = _
    rw [List.append_nil]
  refine .of nothing (fun _ => rfl) fun {α} load s rest ready _ left => ?_
  have body : deserializeEmpty () s.enter = .ok (.none, (), s.enter) := rfl
  exact (ready.enter.refl load).toReads.nested body

/-- The parts of a pair are written one behind the other. -/
lemma pair_appends {a b : SerialType} {x : a.Val × b.Val}
    (first : Appends (a.serialize f x.1) (a.encode f x.1))
    (second : Appends (b.serialize f x.2) (b.encode f x.2)) :
    Appends ((pair a b).serialize f x) (a.encode f x.1 ++ b.encode f x.2) := by
  have both := first.cons (second.cons appends_nil)
  rwa [List.append_nil] at both

/-- A pair is copied if both parts are. -/
lemma Copies.pair {a b : SerialType} {y x : a.Val} {z w : b.Val} (copyFirst : Copies f k faithful a y x)
    (copySecond : Copies f k faithful b z w) : Copies f k faithful (pair a b) (y, z) (x, w) := by
  refine .of (pair_appends copyFirst.appends copySecond.appends)
    (fun asked => ⟨copyFirst.equal asked, copySecond.equal asked⟩) fun {α} load s rest ready caught left => ?_
  rw [List.append_assoc] at left
  obtain ⟨t, runFirst, readFirst⟩ := copyFirst.decodes load s.enter _ ready.enter caught left
  obtain ⟨u, runSecond, readSecond⟩ := copySecond.decodes load t _ readFirst.ready
    (CaughtUp.reads (s := s.enter) caught readFirst.toReads) (readFirst.rest left)
  have body : deserializePair a b f load (SerialType.pair a b).init s.enter =
      .ok (.none, (y, z), u) := by
    unfold deserializePair
    change (a.deserialize f load a.init s.enter >>= _) = _
    rw [runFirst]
    change (b.deserialize f load b.init t >>= _) = _
    rw [runSecond]
    rfl
  exact (readFirst.trans readSecond.toConsumes).toReads.nested body

/-! ### Optionals and smart pointers -/

/-- The encoding of an optional or a pointer. -/
def maybeBytes (a : SerialType) (f : Format) : Option a.Val → List Byte
  | none => flagBytes f false
  | some x => flagBytes f true ++ a.encode f x

/-- The flag is written, and the value behind it. -/
lemma maybe_appends {a : SerialType} {x : Option a.Val}
    (inner : ∀ value ∈ x, Appends (a.serialize f value) (a.encode f value)) :
    Appends (serializeMaybe a f x) (maybeBytes a f x) := by
  cases x with
  | none => exact appends_flag f false
  | some x =>
    have both := (appends_flag f true).cons ((inner x rfl).cons appends_nil)
    rwa [List.append_nil] at both

/-- The value is decoded into a fresh object. Where there is none, the destination is cleared or left. -/
lemma maybe_decodes (few : k < 1) {a : SerialType} (cleared : Option a.Val → Option a.Val) {y x : Option a.Val}
    (copies : Option.Rel (Copies f k faithful a) y x) (old : Option a.Val) {α : Type} (load : α → Byte)
    (s : StreamSerializer α) (rest : List Byte) (ready : s.Ready) (caught : CaughtUp k s)
    (left : s.left load = maybeBytes a f x ++ rest) :
    ∃ s', deserializeNested (deserializeMaybe a cleared f load) old s =
        .ok (.none, y.elim (cleared old) some, s') ∧ Decoded false load (maybeBytes a f x) s s' := by
  have fresh := CaughtUp.tryAdvance (s := s.enter) caught 1 few
  cases copies with
  | none =>
    obtain ⟨t, flag, read⟩ := ready.enter.deserializeFlag left false
    have body : deserializeMaybe a cleared f load old s.enter = .ok (.none, cleared old, t) := by
      unfold deserializeMaybe
      rw [fresh]
      simp only [flag]
    exact read.toReads.nested body
  | @some y x copy =>
    rw [maybeBytes, List.append_assoc] at left
    obtain ⟨t, flag, read⟩ := ready.enter.deserializeFlag left false
    obtain ⟨u, run, readValue⟩ := copy.decodes load t rest read.ready
      (CaughtUp.reads (s := s.enter) caught read.toReads) (read.rest left)
    have body : deserializeMaybe a cleared f load old s.enter = .ok (.none, some y, u) := by
      unfold deserializeMaybe
      rw [fresh]
      simp only [flag]
      rw [run]
      rfl
    exact (read.trans readValue.toConsumes).toReads.nested body

/-- Both kinds start empty, so that what is left of the destination is the same. -/
lemma maybe_decodes_init (few : k < 1) {a : SerialType} {cleared : Option a.Val → Option a.Val}
    (clears : cleared none = none) {y x : Option a.Val} (copies : Option.Rel (Copies f k faithful a) y x)
    {α : Type} (load : α → Byte) (s : StreamSerializer α) (rest : List Byte) (ready : s.Ready)
    (caught : CaughtUp k s) (left : s.left load = maybeBytes a f x ++ rest) :
    ∃ s', deserializeNested (deserializeMaybe a cleared f load) none s = .ok (.none, y, s') ∧
      Decoded false load (maybeBytes a f x) s s' := by
  have same : y.elim (cleared none) some = y := by
    rw [clears]
    cases y <;> rfl
  have run := maybe_decodes few cleared copies none load s rest ready caught left
  rwa [same] at run

/-- Copied values are equal. -/
lemma maybe_equal {a : SerialType} {y x : Option a.Val}
    (copies : Option.Rel (Copies f k faithful a) y x) (asked : faithful) : MaybeEqual a.Equal y x := by
  cases copies with
  | none => trivial
  | some copy => exact copy.equal asked

/-- The values that are copied can be written. -/
lemma copies_appends {a : SerialType} {y x : Option a.Val}
    (copies : Option.Rel (Copies f k faithful a) y x) :
    ∀ value ∈ x, Appends (a.serialize f value) (a.encode f value) := by
  cases copies with
  | none => exact fun value mem => nomatch mem
  | some copy =>
    rintro value ⟨⟩
    exact copy.appends

/-- An optional is copied if its value is, where no byte is taken for the flag. -/
lemma Copies.optional (few : k < 1) {a : SerialType}
    {y x : Option a.Val} (copies : Option.Rel (Copies f k faithful a) y x) : Copies f k faithful (optional a) y x :=
  .of (maybe_appends (copies_appends copies)) (maybe_equal copies) (maybe_decodes_init few rfl copies)

/-- A pointer is copied if what it points to is, where no byte is taken for the flag. -/
lemma Copies.pointer (few : k < 1) {a : SerialType}
    {y x : Option a.Val} (copies : Option.Rel (Copies f k faithful a) y x) : Copies f k faithful (pointer a) y x :=
  .of (maybe_appends (copies_appends copies)) (maybe_equal copies) (maybe_decodes_init few rfl copies)

/-- Where every value has a copy, so has the optional one. -/
lemma copies_maybe {a : SerialType} {x : Option a.Val}
    (each : ∀ value ∈ x, ∃ y, Copies f k faithful a y value) :
    ∃ y, Option.Rel (Copies f k faithful a) y x := by
  cases x with
  | none => exact ⟨none, .none⟩
  | some x =>
    obtain ⟨y, copy⟩ := each x rfl
    exact ⟨some y, .some copy⟩

/-! ### Variants -/

/-- The index that is written is that of the alternative. -/
lemma emplace_index {n : Nat} (few : n < 2 ^ 64 - 1) (alternatives : Fin (n + 1) → SerialType)
    (i : Fin (n + 1)) :
    emplace alternatives (UInt64.ofNat i) = some ⟨i, (alternatives i).init⟩ := by
  obtain ⟨k, lt⟩ := i
  have bound : (UInt64.ofNat k).toNat = k := by
    rw [UInt64.toNat_ofNat']
    exact Nat.mod_eq_of_lt (by omega)
  change emplace alternatives (UInt64.ofNat k) = _
  generalize UInt64.ofNat k = index at bound ⊢
  subst bound
  exact dif_pos lt

/-- The encoding of a variant. -/
def variantBytes {n : Nat} (alternatives : Fin (n + 1) → SerialType) (f : Format)
    (x : Σ i, (alternatives i).Val) : List Byte :=
  sizeBytes f (UInt64.ofNat x.1) ++ (alternatives x.1).encode f x.2

/-- The index is written, and the alternative behind it. -/
lemma variant_appends {n : Nat} {alternatives : Fin (n + 1) → SerialType}
    {x : Σ i, (alternatives i).Val}
    (inner : Appends ((alternatives x.1).serialize f x.2) ((alternatives x.1).encode f x.2)) :
    Appends ((variant alternatives).serialize f x) (variantBytes alternatives f x) := by
  have both := (appends_size f (UInt64.ofNat x.1)).cons (inner.cons appends_nil)
  rwa [List.append_nil] at both

/-- The alternative is decoded into a fresh object. -/
lemma variant_decodes (less : k < 8) {n : Nat} (few : n < 2 ^ 64 - 1) {alternatives : Fin (n + 1) → SerialType}
    {i : Fin (n + 1)} (legible : f.Legible 8 (UInt64.ofNat i).toNat) {y x : (alternatives i).Val}
    (copy : Copies f k faithful (alternatives i) y x) (old : Σ i, (alternatives i).Val) {α : Type}
    (load : α → Byte) (s : StreamSerializer α) (rest : List Byte) (ready : s.Ready) (caught : CaughtUp k s)
    (left : s.left load = variantBytes alternatives f ⟨i, x⟩ ++ rest) :
    ∃ s', deserializeNested (deserializeVariant alternatives f load) old s = .ok (.none, ⟨i, y⟩, s') ∧
      Decoded false load (variantBytes alternatives f ⟨i, x⟩) s s' := by
  rw [variantBytes, List.append_assoc] at left
  obtain ⟨t, index, readIndex⟩ := ready.enter.deserializeSize legible left (UInt64.ofNat (2 ^ 64 - 1))
  obtain ⟨u, run, readValue⟩ := copy.decodes load t rest readIndex.ready
    (CaughtUp.reads (s := s.enter) caught readIndex.toReads) (readIndex.rest left)
  have body : deserializeVariant alternatives f load old s.enter = .ok (.none, ⟨i, y⟩, u) := by
    unfold deserializeVariant
    rw [CaughtUp.tryAdvance (s := s.enter) caught 8 less]
    simp only [index, emplace_index few alternatives i]
    change ((alternatives i).deserialize f load (alternatives i).init t >>= _) = _
    rw [run]
    rfl
  exact (readIndex.trans readValue.toConsumes).toReads.nested body

/-- A variant is copied if its alternative is, where no bytes are taken for the index. -/
lemma Copies.variant (symmetric : f.Symmetric) (less : k < 8) {n : Nat} (few : n < 2 ^ 64 - 1)
    {alternatives : Fin (n + 1) → SerialType} {i : Fin (n + 1)} {y x : (alternatives i).Val}
    (copy : Copies f k faithful (alternatives i) y x) : Copies f k faithful (variant alternatives) ⟨i, y⟩ ⟨i, x⟩ :=
  .of (variant_appends (x := ⟨i, x⟩) copy.appends) (fun asked => ⟨rfl, copy.equal asked⟩)
    (variant_decodes less few (.inl symmetric) copy _)

/-! ### Ranges -/

section ranges
variable {elem : SerialType}

/-- The encodings of the elements. -/
def itemBytes (elem : SerialType) (f : Format) (items : List elem.Val) : List Byte :=
  (items.map (elem.encode f)).flatten

/-- The bytes of an item come before those of the others. -/
lemma itemBytes_cons (item : elem.Val) (items : List elem.Val) :
    itemBytes elem f (item :: items) = elem.encode f item ++ itemBytes elem f items := rfl

/-- The bytes of a range: its size, and its items -/
def rangeBytes (elem : SerialType) (f : Format) (items : List elem.Val) : List Byte :=
  sizeBytes f (UInt64.ofNat items.length) ++ itemBytes elem f items

/-- The items are written one behind the other. -/
lemma items_appends {decoded items : List elem.Val}
    (copies : List.Forall₂ (Copies f k faithful elem) decoded items) :
    Appends (serializeAll (items.map (elem.serialize f))) (itemBytes elem f items) := by
  induction copies with
  | nil => exact appends_nil
  | cons copy _ ih => exact copy.appends.cons ih

/-- The size is written, and the items behind it. -/
lemma range_appends {decoded items : List elem.Val}
    (copies : List.Forall₂ (Copies f k faithful elem) decoded items) :
    Appends (serializeRange elem f items) (rangeBytes elem f items) :=
  (appends_size f (UInt64.ofNat items.length)).cons (items_appends copies)

/-- Where every item has a copy, so have all of them. -/
lemma copies_items {items : List elem.Val}
    (each : ∀ item ∈ items, ∃ y, Copies f k faithful elem y item) :
    ∃ decoded, List.Forall₂ (Copies f k faithful elem) decoded items := by
  induction items with
  | nil => exact ⟨[], .nil⟩
  | cons item items ih =>
    obtain ⟨y, copy⟩ := each item List.mem_cons_self
    obtain ⟨decoded, copies⟩ := ih fun other mem => each other (List.mem_cons_of_mem _ mem)
    exact ⟨y :: decoded, .cons copy copies⟩

/-- Copied items are equal. -/
lemma copies_equal {decoded items : List elem.Val}
    (copies : List.Forall₂ (Copies f k faithful elem) decoded items) (asked : faithful) :
    List.Forall₂ elem.Equal decoded items :=
  copies.imp fun _ _ copy => copy.equal asked

/-- The loop reads the items and inserts them one by one. -/
lemma elements_decode (insert : List elem.Val → elem.Val → List elem.Val)
    {decoded items : List elem.Val} (copies : List.Forall₂ (Copies f k faithful elem) decoded items)
    {α : Type} {load : α → Byte} (x : List elem.Val) {s : StreamSerializer α} {rest : List Byte}
    (ready : s.Ready) (caught : CaughtUp k s)
    (left : s.left load = itemBytes elem f items ++ rest) :
    ∃ s', deserializeElements elem insert f load items.length x s =
        .ok (.none, decoded.foldl insert x, s') ∧ Consumes load (itemBytes elem f items) s s' := by
  induction copies generalizing x s with
  | nil => exact ⟨s, rfl, ready.refl load⟩
  | @cons y item decoded items copy copies ih =>
    rw [itemBytes_cons, List.append_assoc] at left
    obtain ⟨t, run, read⟩ := copy.decodes load s _ ready caught left
    obtain ⟨s', loop, reads⟩ :=
      ih (insert x y) read.ready (caught.reads read.toReads) (read.rest left)
    refine ⟨s', ?_, read.trans reads⟩
    rw [List.length_cons, deserializeElements, run]
    exact loop

/-- The size is read, the destination cleared, and the size registered. -/
lemma range_size {n : UInt64} (legible : f.Legible 8 n.toNat) (less : k < 8) {α : Type} {load : α → Byte}
    {s : StreamSerializer α} (ready : s.Ready) (caught : CaughtUp k s) {rest : List Byte}
    (left : s.left load = sizeBytes f n ++ rest) (x : List elem.Val) :
    ∃ t, deserializeRangeSize elem f load x s = .ok (.none, n, [], t.registerValue n) ∧
      Consumes load (sizeBytes f n) s t := by
  obtain ⟨t, run, read⟩ := ready.deserializeSize legible left 0
  refine ⟨t, ?_, read⟩
  unfold deserializeRangeSize
  rw [caught.tryAdvance 8 less]
  simp only [run]

/-- The elements are decoded into a destination that has been cleared. -/
lemma range_decodes (less : k < 8) (insert : List elem.Val → elem.Val → List elem.Val)
    {decoded items : List elem.Val} (legible : f.Legible 8 (UInt64.ofNat items.length).toNat)
    (copies : List.Forall₂ (Copies f k faithful elem) decoded items) (few : items.length < 2 ^ 64)
    (old : List elem.Val) {α : Type} (load : α → Byte) (s : StreamSerializer α) (rest : List Byte) (ready : s.Ready)
    (caught : CaughtUp k s) (left : s.left load = rangeBytes elem f items ++ rest) :
    ∃ s', deserializeNested (deserializeRange elem insert f load) old s =
        .ok (.none, decoded.foldl insert [], s') ∧ Decoded false load (rangeBytes elem f items) s s' := by
  rw [rangeBytes, List.append_assoc] at left
  obtain ⟨t, size, readSize⟩ := range_size (s := s.enter) legible less ready.enter caught left old
  have registered := readSize.ready.registered load
    (t.registered t.level ++ [UInt64.ofNat items.length])
  have readHead := readSize.toReads.trans registered
  rw [List.append_nil] at readHead
  obtain ⟨u, loop, readItems⟩ := elements_decode insert copies [] registered.ready
    (CaughtUp.reads (s := s.enter) caught readHead) (readSize.rest left)
  have body : deserializeRange elem insert f load old s.enter =
      .ok (.none, decoded.foldl insert [], u) := by
    unfold deserializeRange
    rw [size]
    change deserializeElements elem insert f load
      (UInt64.ofNat items.length - UInt64.ofNat 0).toNat [] _ = _
    rw [show UInt64.ofNat items.length - UInt64.ofNat 0 = UInt64.ofNat items.length from
      UInt64.sub_zero _, UInt64.toNat_ofNat_of_lt' few]
    exact loop
  exact (readHead.trans readItems.toReads).nested body

/-- Items that are put behind make up the list. -/
lemma foldl_append_item {V : Type} (x y : List V) :
    y.foldl (fun x item => x ++ [item]) x = x ++ y := by
  induction y generalizing x with
  | nil => simp
  | cons item y ih => rw [List.foldl_cons, ih, List.append_assoc, List.singleton_append]

/-- A sequence is copied if its items are. -/
lemma Copies.sequence (symmetric : f.Symmetric) (less : k < 8) {decoded items : List elem.Val}
    (copies : List.Forall₂ (Copies f k faithful elem) decoded items) (few : items.length < 2 ^ 64) :
    Copies f k faithful (sequence elem) decoded items := by
  refine .of (range_appends copies) (copies_equal copies)
    fun {α} load s rest ready caught left => ?_
  have run := range_decodes less (fun x item => x ++ [item]) (.inl symmetric) copies few [] load s rest ready
    caught left
  rwa [foldl_append_item, List.nil_append] at run

/-- The keys of equal elements are as distinct as those of the originals. -/
lemma SerialType.Keys.pairwise (keys : Keys elem) {decoded items : List elem.Val}
    (equals : List.Forall₂ elem.Equal decoded items)
    (distinct : items.Pairwise fun a b => keys.sameKey a b = false) :
    decoded.Pairwise fun a b => keys.sameKey a b = false := by
  have length := equals.length_eq
  rw [List.pairwise_iff_getElem] at distinct ⊢
  intro i j lti ltj lt
  have first := equals.get lti (length ▸ lti)
  have second := equals.get ltj (length ▸ ltj)
  exact (keys.sameKey_congr first second).trans (distinct i j (length ▸ lti) (length ▸ ltj) lt)

/-- An item whose key is not there goes to its place. -/
lemma SerialType.Keys.insert_fresh (keys : Keys elem) {x : List elem.Val} {item : elem.Val}
    (apart : keys.unique = true → ∀ old ∈ x, keys.sameKey old item = false) :
    keys.insert x item = keys.place x item := by
  refine if_neg fun found => ?_
  obtain ⟨unique, any⟩ := Bool.and_eq_true_iff.1 found
  obtain ⟨old, mem, same⟩ := List.any_eq_true.1 any
  rw [apart unique old mem] at same
  exact Bool.false_ne_true same

/-- Elements of distinct keys are all inserted. -/
lemma SerialType.Keys.insert_perm (keys : Keys elem) {decoded x : List elem.Val}
    (distinct : keys.unique = true → decoded.Pairwise fun a b => keys.sameKey a b = false)
    (apart : keys.unique = true → ∀ a ∈ x, ∀ b ∈ decoded, keys.sameKey a b = false) :
    (decoded.foldl keys.insert x).Perm (x ++ decoded) := by
  induction decoded generalizing x with
  | nil => simp
  | cons y decoded ih =>
    have placed := keys.place_perm x y
    rw [List.foldl_cons,
      keys.insert_fresh fun unique old mem => apart unique old mem y List.mem_cons_self]
    refine (ih (fun unique => (List.pairwise_cons.1 (distinct unique)).2) ?_).trans ?_
    · intro unique a mem b memb
      rcases List.mem_cons.1 (placed.mem_iff.1 mem) with here | there
      · rw [here]
        exact (List.pairwise_cons.1 (distinct unique)).1 b memb
      · exact apart unique a there b (List.mem_cons_of_mem _ memb)
    · exact (placed.append_right decoded).trans List.perm_middle.symm

/-- The elements of a decoded container are those that were encoded. -/
lemma SerialType.Keys.decoded_perm (keys : Keys elem) {decoded items : List elem.Val}
    (equals : List.Forall₂ elem.Equal decoded items)
    (distinct : keys.unique = true → items.Pairwise fun a b => keys.sameKey a b = false) :
    (decoded.foldl keys.insert []).Perm decoded :=
  keys.insert_perm (fun unique => keys.pairwise equals (distinct unique))
    (fun _ _ mem => absurd mem List.not_mem_nil)

/-- An associative container is copied if its items are, and its keys are distinct. -/
lemma Copies.associative (symmetric : f.Symmetric) (less : k < 8) (keys : Keys elem)
    {decoded items : List elem.Val} (copies : List.Forall₂ (Copies f k faithful elem) decoded items)
    (few : items.length < 2 ^ 64)
    (distinct : keys.unique = true → items.Pairwise fun a b => keys.sameKey a b = false) :
    Copies f k faithful (associative elem keys) (decoded.foldl keys.insert []) items :=
  .of (range_appends copies)
    (fun asked => ⟨decoded, keys.decoded_perm (copies_equal copies asked) distinct,
      copies_equal copies asked⟩)
    (range_decodes less keys.insert (.inl symmetric) copies few [])

/-! ### Forward lists -/

/-- The value registered first is the only one. -/
lemma registerValue_once {α : Type} {s : StreamSerializer α} (unused : s.registered s.level = [])
    (value : UInt64) : (s.registerValue value).registered s.level = [value] := by
  show Function.update s.registered s.level (s.registered s.level ++ [value]) s.level = _
  rw [Function.update_self, unused, List.nil_append]

/-- The registered number of elements is updated, which leaves the bytes and the level alone. -/
lemma StreamSerializer.Ready.updateValueAt {α : Type} {s : StreamSerializer α} (ready : s.Ready)
    (load : α → Byte) {index : Nat} (there : index < (s.registered s.level).length) (value : UInt64) :
    ∃ s', s.updateValueAt value index = .ok s' ∧ Reads load [] s s' ∧
      (s'.registered s.level).length = (s.registered s.level).length := by
  let values := (s.registered s.level).set index value
  refine ⟨_, ?_, ready.registered load values, ?_⟩
  · unfold StreamSerializer.updateValueAt
    rw [List.getElem?_eq_getElem there]
  · show (Function.update s.registered s.level values s.level).length = _
    rw [Function.update_self, List.length_set]

/-- Behind a value that is decoded, what is registered at the level is updated. -/
lemma StreamSerializer.Decoded.updated {α : Type} {load : α → Byte} {s t : StreamSerializer α} {numeric : Bool}
    {bytes : List Byte} (read : Decoded numeric load bytes s t) (inside : 0 < s.level) {index : Nat}
    (there : index < (s.registered s.level).length) (value : UInt64) :
    ∃ u, t.updateValueAt value index = .ok u ∧ Reads load bytes s u ∧ u.lag ≤ t.lag ∧
      index < (u.registered u.level).length := by
  have own : (t.registered t.level).length = (s.registered s.level).length := by
    rw [read.level, read.own inside]
  obtain ⟨u, update, kept, length⟩ := read.ready.updateValueAt load (own.symm ▸ there) value
  have readItem := read.toReads.trans kept
  rw [List.append_nil] at readItem
  refine ⟨u, update, readItem, kept.lag, ?_⟩
  rw [kept.level, length, own]
  exact there

/-- The loop goes on behind an item that is read, with the item at the front and the number of items updated. -/
lemma front_item (old : UInt64) {α : Type} {load : α → Byte} {s t : StreamSerializer α} {y : elem.Val}
    {bytes : List Byte} (run : elem.deserialize f load elem.init s = .ok (.none, y, t))
    (read : Decoded elem.numeric load bytes s t) (inside : 0 < s.level) (both : 1 < (s.registered s.level).length)
    (count : Nat) (x : List elem.Val) :
    ∃ u, deserializeFront elem old f load (count + 1) x s = deserializeFront elem old f load count (y :: x) u ∧
      Reads load bytes s u ∧ u.lag ≤ t.lag ∧ 1 < (u.registered u.level).length := by
  obtain ⟨u, update, readItem, less, both⟩ := read.updated inside both (old + 1)
  refine ⟨u, ?_, readItem, less, both⟩
  rw [deserializeFront, run]
  change (t.updateValueAt (old + 1) 1 >>= fun s => _) = _
  rw [update]
  rfl

/-- The loop reads the items and puts each at the front. -/
lemma front_decode (old : UInt64) {decoded items : List elem.Val}
    (copies : List.Forall₂ (Copies f k faithful elem) decoded items) {α : Type} {load : α → Byte}
    (x : List elem.Val) {s : StreamSerializer α} {rest : List Byte} (ready : s.Ready)
    (caught : CaughtUp k s) (inside : 0 < s.level) (both : 1 < (s.registered s.level).length)
    (left : s.left load = itemBytes elem f items ++ rest) :
    ∃ s', deserializeFront elem old f load items.length x s =
        .ok (.none, decoded.reverse ++ x, s') ∧ Reads load (itemBytes elem f items) s s' := by
  induction copies generalizing x s with
  | nil => exact ⟨s, rfl, (ready.refl load).toReads⟩
  | @cons y item decoded items copy copies ih =>
    rw [itemBytes_cons, List.append_assoc] at left
    obtain ⟨t, run, read⟩ := copy.decodes load s _ ready caught left
    obtain ⟨u, next, readItem, -, both⟩ := front_item old run read inside both items.length x
    obtain ⟨s', loop, reads⟩ := ih (y :: x) readItem.ready (caught.reads readItem)
      (readItem.level.symm ▸ inside) both (readItem.rest left)
    refine ⟨s', ?_, readItem.trans reads⟩
    rw [List.length_cons, next, List.reverse_cons, List.append_assoc]
    exact loop

/-- The size of a forward list is read, and two values are registered. -/
lemma front_head (elem : SerialType) {n : UInt64} (legible : f.Legible 8 n.toNat) (less : k < 8)
    (old : List elem.Val) {α : Type} {load : α → Byte} {s : StreamSerializer α} (ready : s.Ready)
    (caught : CaughtUp k s) {rest : List Byte} (left : s.left load = sizeBytes f n ++ rest) :
    ∃ t, Reads load (sizeBytes f n) s.enter t ∧ 1 < (t.registered t.level).length ∧
      deserializeForwardList elem f load old s.enter = (do
        let (code, x, s) ← deserializeFront elem 0 f load n.toNat [] t
        return (code, if code = .none then x.reverse else x, s)) := by
  obtain ⟨t, size, readSize⟩ := range_size (s := s.enter) legible less ready.enter caught left old
  have own : t.registered t.level = [] := by
    rw [readSize.level, readSize.own (Nat.succ_pos _)]
    exact ready.above _ (Nat.lt_succ_self _)
  have once := registerValue_once own n
  let u := (t.registerValue n).registerValue (UInt64.ofNat 0)
  have twice : u.registered u.level = [n, UInt64.ofNat 0] := by
    show Function.update (t.registerValue n).registered t.level
      ((t.registerValue n).registered t.level ++ [UInt64.ofNat 0]) t.level = _
    rw [Function.update_self, once, List.singleton_append]
  have first := readSize.ready.registered load (t.registered t.level ++ [n])
  have second : Reads load [] (t.registerValue n) u := first.ready.registered load _
  have readHead := (readSize.toReads.trans first).trans second
  rw [List.append_nil, List.append_nil] at readHead
  refine ⟨u, readHead, by rw [twice]; exact Nat.lt_succ_self 1, ?_⟩
  have single : (t.registerValue n).registeredSize = 1 := congrArg List.length once
  unfold deserializeForwardList
  rw [size]
  change deserializeFrontAll elem n f load [] (t.registerValue n) = _
  unfold deserializeFrontAll
  change (if (t.registerValue n).registeredSize = 1 then _ else _) = _
  rw [if_pos single]
  change (deserializeFront elem 0 f load (n - 0).toNat [] u >>= _) = _
  rw [UInt64.sub_zero]

/-- The elements of a forward list are decoded into a destination that has been cleared. -/
lemma front_decodes (less : k < 8) {decoded items : List elem.Val}
    (legible : f.Legible 8 (UInt64.ofNat items.length).toNat)
    (copies : List.Forall₂ (Copies f k faithful elem) decoded items) (few : items.length < 2 ^ 64)
    (old : List elem.Val) {α : Type} (load : α → Byte) (s : StreamSerializer α) (rest : List Byte)
    (ready : s.Ready) (caught : CaughtUp k s) (left : s.left load = rangeBytes elem f items ++ rest) :
    ∃ s', deserializeNested (deserializeForwardList elem f load) old s = .ok (.none, decoded, s') ∧
      Decoded false load (rangeBytes elem f items) s s' := by
  rw [rangeBytes, List.append_assoc] at left
  obtain ⟨t, readHead, both, head⟩ := front_head elem legible less old ready caught left
  obtain ⟨u, loop, readItems⟩ := front_decode 0 copies [] readHead.ready
    (CaughtUp.reads (s := s.enter) caught readHead) (readHead.level.symm ▸ Nat.succ_pos _) both
    (readHead.rest left)
  have body : deserializeForwardList elem f load old s.enter = .ok (.none, decoded, u) := by
    rw [head, UInt64.toNat_ofNat_of_lt' few, loop, List.append_nil]
    change Except.ok (SerializationEC.none, decoded.reverse.reverse, u) = _
    rw [List.reverse_reverse]
  exact (readHead.trans readItems).nested body

/-- A forward list is copied if its items are. -/
lemma Copies.forwardList (symmetric : f.Symmetric) (less : k < 8)
    {decoded items : List elem.Val} (copies : List.Forall₂ (Copies f k faithful elem) decoded items)
    (few : items.length < 2 ^ 64) : Copies f k faithful (forwardList elem) decoded items :=
  .of (range_appends copies) (copies_equal copies) (front_decodes less (.inl symmetric) copies few [])

/-! ### Arrays -/

/-- One-byte objects that hold data are stored as they are encoded. -/
lemma SerialType.Supported.storedAsEncoded {o : SerialType} (supported : Supported faithful o)
    (data : o.emptyClass = false) (stored : faithful ∨ o.StoredAsEncoded) : o.StoredAsEncoded := by
  refine stored.elim (fun asked one => ?_) id
  cases supported with
  | @word n size =>
    obtain rfl : n = 1 := of_decide_eq_true one
    exact fun f x => appends_word f 1 x.toNat
  | bool => exact fun f x => appends_flag f x
  | @chrono n num den _ nanoseconds =>
    obtain ⟨rfl, rfl, rfl⟩ := nanoseconds asked
    exact absurd one (by decide)
  | empty => exact absurd data (by decide)
  | @array elem n small =>
    have pos : n ≠ 0 := of_decide_eq_false data
    have shape : (decide (n = 0) || (decide (n = 1) && elem.oneByte)) = true := one
    rw [decide_eq_false pos, Bool.false_or] at shape
    obtain ⟨single, inner⟩ := Bool.and_eq_true_iff.1 shape
    obtain rfl : n = 1 := of_decide_eq_true single
    intro f x buffer
    change (if elem.oneByte then _ else _ : Serializer) buffer = _
    rw [if_pos inner]
    rfl
  | _ => exact absurd one Bool.false_ne_true

/-- The items of an array are copied. -/
lemma ofFn_copies {n : Nat} {y x : Fin n → elem.Val} (copies : ∀ i, Copies f k faithful elem (y i) (x i)) :
    List.Forall₂ (Copies f k faithful elem) (List.ofFn y) (List.ofFn x) := by
  rw [List.forall₂_iff_get]
  refine ⟨by rw [List.length_ofFn, List.length_ofFn], fun i lti ltj => ?_⟩
  rw [List.get_ofFn, List.get_ofFn]
  exact copies _

/-- The items of an array are written one behind the other, also where they are copied as memory. -/
lemma array_appends (stored : elem.StoredAsEncoded) {n : Nat} {y x : Fin n → elem.Val}
    (copies : ∀ i, Copies f k faithful elem (y i) (x i)) :
    Appends ((array elem n).serialize f x) (itemBytes elem f (List.ofFn x)) := by
  intro buffer
  change (if elem.oneByte then _ else _ : Serializer) buffer = _
  cases one : elem.oneByte with
  | true =>
    have memory : elem.encode f = fun y => [elem.toByte y] := by
      funext y
      unfold SerialType.encode
      rw [stored one]
      rfl
    rw [if_pos rfl, itemBytes, memory]
    show (SerializationEC.none, buffer ++ List.ofFn fun i => elem.toByte (x i)) = _
    rw [← List.flatMap_def, ← List.map_eq_flatMap, List.map_ofFn]
    rfl
  | false =>
    rw [if_neg Bool.false_ne_true]
    have each := items_appends (ofFn_copies copies)
    rw [List.map_ofFn] at each
    exact each buffer

/-- The item at an index is the first one from there on. -/
lemma ofFn_drop {V : Type} {n : Nat} (x : Fin n → V) {i : Nat} (lt : i < n) :
    (List.ofFn x).drop i = x ⟨i, lt⟩ :: (List.ofFn x).drop (i + 1) := by
  rw [List.drop_eq_getElem_cons (by rw [List.length_ofFn]; exact lt), List.getElem_ofFn]

/-- The loop reads the elements from index `i` on in place of those that the array held. -/
lemma items_decode (remain : UInt64) {n : Nat} {x y old : Fin n → elem.Val} {α : Type} {load : α → Byte}
    (decodes : ∀ i (s : StreamSerializer α) (rest : List Byte), s.Ready → CaughtUp k s →
      s.left load = elem.encode f (x i) ++ rest →
      ∃ s', elem.deserialize f load (old i) s = .ok (.none, y i, s') ∧
        Decoded elem.numeric load (elem.encode f (x i)) s s')
    (count i : Nat) (total : i + count = n) {z : Fin n → elem.Val} (before : ∀ j, j.1 < i → z j = y j)
    (behind : ∀ j, i ≤ j.1 → z j = old j) {s : StreamSerializer α} {rest : List Byte}
    (ready : s.Ready) (caught : CaughtUp k s) (inside : 0 < s.level)
    (some : 0 < (s.registered s.level).length)
    (left : s.left load = itemBytes elem f ((List.ofFn x).drop i) ++ rest) :
    ∃ s', deserializeItems elem remain f load count i z s = .ok (.none, y, s') ∧
      Reads load (itemBytes elem f ((List.ofFn x).drop i)) s s' := by
  induction count generalizing i z s with
  | zero =>
    have nothing : itemBytes elem f ((List.ofFn x).drop i) = [] := by
      rw [List.drop_eq_nil_of_le (by rw [List.length_ofFn]; omega)]
      rfl
    have all : z = y := funext fun j => before j (by omega)
    rw [nothing, all]
    exact ⟨s, rfl, (ready.refl load).toReads⟩
  | succ count ih =>
    have lt : i < n := by omega
    rw [ofFn_drop x lt] at left ⊢
    rw [itemBytes_cons, List.append_assoc] at left
    obtain ⟨t, run, read⟩ := decodes ⟨i, lt⟩ s _ ready caught left
    obtain ⟨u, update, readItem, -, some⟩ := read.updated inside some (remain - 1)
    -- the elements before the index are decoded, those behind it are still the old ones
    have before' : ∀ j, j.1 < i + 1 → Function.update z ⟨i, lt⟩ (y ⟨i, lt⟩) j = y j := by
      intro j ltj
      by_cases here : j = ⟨i, lt⟩
      · rw [here, Function.update_self]
      · rw [Function.update_of_ne here]
        have apart := Fin.val_ne_of_ne here
        exact before j (Nat.lt_of_le_of_ne (Nat.le_of_lt_succ ltj) apart)
    have behind' : ∀ j, i + 1 ≤ j.1 → Function.update z ⟨i, lt⟩ (y ⟨i, lt⟩) j = old j := by
      intro j lej
      rw [Function.update_of_ne (Fin.ne_of_gt lej)]
      exact behind j (Nat.le_of_succ_le lej)
    obtain ⟨s', loop, reads⟩ := ih (i + 1) (by omega) before' behind' readItem.ready
      (caught.reads readItem) (readItem.level.symm ▸ inside) some (readItem.rest left)
    refine ⟨s', ?_, readItem.trans reads⟩
    rw [deserializeItems, dif_pos lt, behind ⟨i, lt⟩ (Nat.le_refl i), run]
    change (t.updateValueAt (remain - 1) 0 >>= fun s => _) = _
    rw [update]
    exact loop

/-- The number of elements of an array is registered where nothing is. -/
lemma array_start (elem : SerialType) (f : Format) {α : Type} (load : α → Byte) {n : Nat}
    (small : n < 2 ^ 64) {s : StreamSerializer α} (unused : s.registered s.level = [])
    (x : Fin n → elem.Val) : deserializeArray elem n f load x s =
      deserializeItems elem (UInt64.ofNat n) f load n 0 x (s.registerValue (UInt64.ofNat n)) := by
  have size : (UInt64.ofNat n).toNat = n := by
    rw [UInt64.toNat_ofNat']
    exact Nat.mod_eq_of_lt small
  unfold deserializeArray
  change (if 0 < (s.registered s.level).length then _ else _) = _
  rw [unused, List.length_nil, if_neg (Nat.lt_irrefl 0)]
  change deserializeItems elem (UInt64.ofNat n) f load
    ((UInt64.ofNat n).toNat - (UInt64.ofNat n - UInt64.ofNat n).toNat)
    (UInt64.ofNat n - UInt64.ofNat n).toNat _ _ = _
  rw [UInt64.sub_self, size]
  rfl

/-- An array registers its size and begins with its first item. -/
lemma array_head (elem : SerialType) (f : Format) {α : Type} (load : α → Byte) {n : Nat}
    (small : n < 2 ^ 64) {s : StreamSerializer α} (ready : s.Ready) (x : Fin n → elem.Val) :
    ∃ t, Reads load [] s.enter t ∧ 0 < (t.registered t.level).length ∧
      deserializeArray elem n f load x s.enter =
        deserializeItems elem (UInt64.ofNat n) f load n 0 x t := by
  have unused : s.enter.registered s.enter.level = [] := ready.above _ (Nat.lt_succ_self _)
  have once := registerValue_once unused (UInt64.ofNat n)
  refine ⟨s.enter.registerValue (UInt64.ofNat n), ready.enter.registered load _, ?_,
    array_start elem f load small unused x⟩
  change 0 < ((s.enter.registerValue (UInt64.ofNat n)).registered s.enter.level).length
  rw [once]
  exact Nat.zero_lt_one

/-- The elements of an array are decoded in place. -/
lemma array_decodes {n : Nat} (small : n < 2 ^ 64) {x y old : Fin n → elem.Val} {α : Type} (load : α → Byte)
    (decodes : ∀ i (s : StreamSerializer α) (rest : List Byte), s.Ready → CaughtUp k s →
      s.left load = elem.encode f (x i) ++ rest →
      ∃ s', elem.deserialize f load (old i) s = .ok (.none, y i, s') ∧
        Decoded elem.numeric load (elem.encode f (x i)) s s')
    (s : StreamSerializer α) (rest : List Byte) (ready : s.Ready) (caught : CaughtUp k s)
    (left : s.left load = itemBytes elem f (List.ofFn x) ++ rest) :
    ∃ s', deserializeNested (deserializeArray elem n f load) old s = .ok (.none, y, s') ∧
      Decoded false load (itemBytes elem f (List.ofFn x)) s s' := by
  obtain ⟨t, readHead, some, head⟩ := array_head elem f load small ready old
  obtain ⟨u, loop, reads⟩ := items_decode (s := t) (UInt64.ofNat n) decodes n 0 (Nat.zero_add n)
    (fun j lt => absurd lt (Nat.not_lt_zero _)) (fun _ _ => rfl) readHead.ready
    (CaughtUp.reads (s := s.enter) caught readHead) (readHead.level.symm ▸ Nat.succ_pos _) some
    (readHead.rest left)
  exact (readHead.trans reads).nested (head.trans loop)

/-- An array is copied if its items are. -/
lemma Copies.array (stored : elem.StoredAsEncoded) {n : Nat} (small : n < 2 ^ 64) {y x : Fin n → elem.Val}
    (copies : ∀ i, Copies f k faithful elem (y i) (x i)) :
    Copies f k faithful (array elem n) y x :=
  .of (array_appends stored copies) (fun asked i => (copies i).equal asked)
    fun load s rest => array_decodes small load (fun i => (copies i).decodes load) s rest

end ranges
end lawful

/-! ## Every supported type -/

variable {f : Format} {k : Nat} {faithful : Prop}

/-- The supported types that no part of takes `k` bytes to pass over for a flag or a size of its own. -/
inductive Undisturbed (k : Nat) (faithful : Prop) : SerialType → Prop
  | word {n : Nat} (size : n = 1 ∨ n = 2 ∨ n = 4 ∨ n = 8) : Undisturbed k faithful (word n)
  | bool : Undisturbed k faithful bool
  | chrono {n num den : Nat} (nanoseconds : faithful → n = 8 ∧ num = 1 ∧ den = 1) :
      Undisturbed k faithful (chrono n num den)
  | empty : Undisturbed k faithful empty
  | pair {a b : SerialType} :
      Undisturbed k faithful a → Undisturbed k faithful b → Undisturbed k faithful (pair a b)
  | optional {a : SerialType} (less : k < 1) :
      Undisturbed k faithful a → Undisturbed k faithful (optional a)
  | pointer {a : SerialType} (less : k < 1) :
      Undisturbed k faithful a → Undisturbed k faithful (pointer a)
  | variant {n : Nat} {alternatives : Fin (n + 1) → SerialType} (less : k < 8) (few : n < 2 ^ 64 - 1) :
      (∀ i, Undisturbed k faithful (alternatives i)) → Undisturbed k faithful (variant alternatives)
  | sequence {elem : SerialType} (less : k < 8) :
      Undisturbed k faithful elem → Undisturbed k faithful (sequence elem)
  | associative {elem : SerialType} {keys : Keys elem} (less : k < 8) :
      Undisturbed k faithful elem → Undisturbed k faithful (associative elem keys)
  | forwardList {elem : SerialType} (less : k < 8) :
      Undisturbed k faithful elem → Undisturbed k faithful (forwardList elem)
  | array {elem : SerialType} {n : Nat} (small : n < 2 ^ 64) (stored : elem.StoredAsEncoded) :
      Undisturbed k faithful elem → Undisturbed k faithful (array elem n)

/-- With nothing to pass over, every supported type is undisturbed. -/
lemma SerialType.Supported.undisturbed {o : SerialType} (supported : Supported faithful o) :
    Undisturbed 0 faithful o := by
  induction supported with
  | word size => exact .word size
  | bool => exact .bool
  | chrono _ nanoseconds => exact .chrono nanoseconds
  | empty => exact .empty
  | pair _ _ first second => exact .pair first second
  | optional _ ih => exact .optional (by decide) ih
  | pointer _ ih => exact .pointer (by decide) ih
  | variant few _ ih => exact .variant (by decide) few ih
  | sequence _ ih => exact .sequence (by decide) ih
  | associative _ ih => exact .associative (by decide) ih
  | forwardList _ ih => exact .forwardList (by decide) ih
  | array small data stored elem ih => exact .array small (elem.storedAsEncoded data stored) ih

/-- A value that is encoded as it is decoded, with at most `k` bytes to pass over: no array in it has
    elements that are stored otherwise than they are encoded, and what it holds in containers can be told
    apart. Where it has to be decoded faithfully, its durations are given back by their conversions. -/
inductive Aligned (k : Nat) (faithful : Prop) : (o : SerialType) → o.Val → Prop
  | word {n : Nat} (x : BitVec (8 * n)) : Aligned k faithful (word n) x
  | bool (x : Bool) : Aligned k faithful bool x
  | duration {n : Nat} {toNanoseconds : BitVec (8 * n) → BitVec 64}
      {ofNanoseconds : BitVec 64 → BitVec (8 * n)} {x : BitVec (8 * n)}
      (exactly : faithful → ofNanoseconds (toNanoseconds x) = x) :
      Aligned k faithful (duration n toNanoseconds ofNanoseconds) x
  | empty (x : Unit) : Aligned k faithful empty x
  | pair {a b : SerialType} {x : a.Val × b.Val} :
      Aligned k faithful a x.1 → Aligned k faithful b x.2 → Aligned k faithful (pair a b) x
  | optional {a : SerialType} {x : Option a.Val} (less : k < 1) :
      (∀ value ∈ x, Aligned k faithful a value) → Aligned k faithful (optional a) x
  | pointer {a : SerialType} {x : Option a.Val} (less : k < 1) :
      (∀ value ∈ x, Aligned k faithful a value) → Aligned k faithful (pointer a) x
  | variant {n : Nat} {alternatives : Fin (n + 1) → SerialType} {x : Σ i, (alternatives i).Val}
      (less : k < 8) (few : n < 2 ^ 64 - 1) :
      Aligned k faithful (alternatives x.1) x.2 → Aligned k faithful (variant alternatives) x
  | sequence {elem : SerialType} {x : List elem.Val} (less : k < 8) (few : x.length < 2 ^ 64) :
      (∀ item ∈ x, Aligned k faithful elem item) → Aligned k faithful (sequence elem) x
  | associative {elem : SerialType} {keys : Keys elem} {x : List elem.Val} (less : k < 8)
      (few : x.length < 2 ^ 64)
      (distinct : keys.unique = true → x.Pairwise fun a b => keys.sameKey a b = false) :
      (∀ item ∈ x, Aligned k faithful elem item) → Aligned k faithful (associative elem keys) x
  | forwardList {elem : SerialType} {x : List elem.Val} (less : k < 8) (few : x.length < 2 ^ 64) :
      (∀ item ∈ x, Aligned k faithful elem item) → Aligned k faithful (forwardList elem) x
  | array {elem : SerialType} {n : Nat} {x : Fin n → elem.Val} (small : n < 2 ^ 64)
      (stored : elem.StoredAsEncoded) :
      (∀ i, Aligned k faithful elem (x i)) → Aligned k faithful (array elem n) x

/-- An aligned value has a copy. -/
lemma Aligned.copies (symmetric : f.Symmetric) {o : SerialType} {x : o.Val}
    (aligned : Aligned k faithful o x) : ∃ y, Copies f k faithful o y x := by
  induction aligned with
  | word x => exact ⟨x, .word symmetric x⟩
  | bool x => exact ⟨x, .bool x⟩
  | duration exactly => exact ⟨_, .duration symmetric exactly⟩
  | empty x => exact ⟨x, .empty x⟩
  | pair _ _ first second =>
    obtain ⟨y, copyFirst⟩ := first
    obtain ⟨z, copySecond⟩ := second
    exact ⟨(y, z), copyFirst.pair copySecond⟩
  | optional less _ ih =>
    obtain ⟨y, copies⟩ := copies_maybe ih
    exact ⟨y, .optional less copies⟩
  | pointer less _ ih =>
    obtain ⟨y, copies⟩ := copies_maybe ih
    exact ⟨y, .pointer less copies⟩
  | variant less few _ ih =>
    obtain ⟨y, copy⟩ := ih
    exact ⟨⟨_, y⟩, copy.variant symmetric less few⟩
  | sequence less few _ ih =>
    obtain ⟨decoded, copies⟩ := copies_items ih
    exact ⟨decoded, .sequence symmetric less copies few⟩
  | @associative elem keys x less few distinct _ ih =>
    obtain ⟨decoded, copies⟩ := copies_items ih
    exact ⟨_, .associative symmetric less keys copies few distinct⟩
  | forwardList less few _ ih =>
    obtain ⟨decoded, copies⟩ := copies_items ih
    exact ⟨decoded, .forwardList symmetric less copies few⟩
  | array small stored _ ih =>
    choose y copies using ih
    exact ⟨y, .array stored small copies⟩

/-- Every value that an object of an undisturbed type can hold. -/
lemma Undisturbed.aligned {o : SerialType} (undisturbed : Undisturbed k faithful o) (x : o.Val)
    (valid : o.Valid x) : Aligned k faithful o x := by
  induction undisturbed with
  | word size => exact .word x
  | bool => exact .bool x
  | @chrono n num den nanoseconds =>
    refine @Aligned.duration _ _ n (fun x => durationCast num den (x.signExtend 64))
      (fun count => (durationCast den num count).setWidth _) x fun asked => ?_
    obtain ⟨rfl, rfl, rfl⟩ := nanoseconds asked
    exact decodedChrono_nanoseconds x
  | empty => exact .empty x
  | pair _ _ first second => exact .pair (first x.1 valid.1) (second x.2 valid.2)
  | optional less _ ih => exact .optional less fun value mem => ih value (valid value mem)
  | pointer less _ ih => exact .pointer less fun value mem => ih value (valid value mem)
  | variant less few _ ih => exact .variant less few (ih x.1 x.2 valid)
  | sequence less _ ih => exact .sequence less valid.1 fun item mem => ih item (valid.2 item mem)
  | associative less _ ih =>
    exact .associative less valid.1 valid.2.2 fun item mem => ih item (valid.2.1 item mem)
  | forwardList less _ ih => exact .forwardList less valid.1 fun item mem => ih item (valid.2 item mem)
  | array small stored _ ih => exact .array small stored fun i => ih (x i) (valid i)

/-- An undisturbed type is lawful. -/
lemma Undisturbed.lawful (symmetric : f.Symmetric) {o : SerialType}
    (undisturbed : Undisturbed k faithful o) : Lawful f k faithful o :=
  fun x valid => (undisturbed.aligned x valid).copies symmetric

/-- A supported type is lawful where nothing is to be passed over. -/
lemma SerialType.Supported.lawful (symmetric : f.Symmetric) {o : SerialType}
    (supported : Supported faithful o) : Lawful f 0 faithful o :=
  supported.undisturbed.lawful symmetric

/-! ## Lists of values -/

/-- A value with its type. -/
abbrev Item := (o : SerialType) × o.Val

/-- Two values are equal, and of one type. -/
inductive Item.Equal : Item → Item → Prop
  | same {o : SerialType} {x y : o.Val} : o.Equal x y → Item.Equal ⟨o, x⟩ ⟨o, y⟩

/-- Calls of `deserialize` for the types in order, each with a default constructed destination. -/
def deserializeEach (f : Format) : List SerialType → StreamSerializer Byte →
    Except Fault (List (SerializationEC × Item) × StreamSerializer Byte)
  | [], s => .ok ([], s)
  | o :: types, s =>
    match o.deserialize f id o.init s with
    | .error fault => .error fault
    | .ok (code, x, s) =>
      match deserializeEach f types s with
      | .error fault => .error fault
      | .ok (decoded, s) => .ok ((code, ⟨o, x⟩) :: decoded, s)

/-- A push adds the bytes, and what is to be passed over starts again. -/
lemma StreamSerializer.Ready.pushView {α : Type} {s : StreamSerializer α} (ready : s.Ready)
    (span : List α) : (s.pushView span).Ready ∧
      (s.pushView span).mbv.unread = s.mbv.unread ++ span := by
  obtain ⟨valid, unread⟩ := pushView_valid ready.valid span
  obtain ⟨level, registered, _⟩ := pushView_kept s span
  exact ⟨⟨valid, by rw [level, registered]; exact ready.above⟩, unread⟩

/-- Nothing has been consumed since the last value was completed. -/
def Idle (s : StreamSerializer Byte) : Prop := s.begin = s.end_ ∧ s.iterator = s.end_

/-- An idle serializer has nothing to pass over. -/
lemma Idle.lag {s : StreamSerializer Byte} (idle : Idle s) : s.lag = 0 := by
  unfold StreamSerializer.lag
  rw [idle.2, UInt64.sub_self]
  rfl

/-- A push keeps it idle. -/
lemma Idle.pushView {s : StreamSerializer Byte} (idle : Idle s) (span : List Byte) :
    Idle (s.pushView span) := by
  unfold StreamSerializer.pushView
  cases span with
  | nil => exact idle
  | cons byte bytes => exact ⟨idle.1, idle.1⟩

/-- Pushed spans are behind what is unread, in order. -/
lemma pushViews {s : StreamSerializer Byte} (ready : s.Ready) (idle : Idle s)
    (spans : List (List Byte)) :
    (spans.foldl pushView s).Ready ∧ Idle (spans.foldl pushView s) ∧
      (spans.foldl pushView s).mbv.unread = s.mbv.unread ++ spans.flatten := by
  induction spans generalizing s with
  | nil => exact ⟨ready, idle, (List.append_nil _).symm⟩
  | cons span spans ih =>
    obtain ⟨next, pushed⟩ := ready.pushView span
    obtain ⟨done, still, unread⟩ := ih next (idle.pushView span)
    refine ⟨done, still, unread.trans ?_⟩
    rw [pushed, List.flatten_cons, List.append_assoc]

/-- Ready for a list of encodings, the calls decode equal values and leave what is behind them. -/
lemma deserializeEach_spec (symmetric : f.Symmetric) (items : List Item)
    (supported : ∀ item ∈ items, Supported True item.1 ∧ item.1.Valid item.2)
    {s : StreamSerializer Byte} {rest : List Byte} (ready : s.Ready) (caught : CaughtUp 0 s)
    (left : s.left id = (items.map fun item => item.1.encode f item.2).flatten ++ rest) :
    ∃ decoded s', deserializeEach f (items.map Sigma.fst) s = .ok (decoded, s') ∧
      List.Forall₂ (fun outcome item => outcome.1 = .none ∧ Item.Equal outcome.2 item) decoded items ∧
      s'.left id = rest := by
  induction items generalizing s with
  | nil => exact ⟨[], s, rfl, .nil, left⟩
  | cons item items ih =>
    obtain ⟨o, x⟩ := item
    obtain ⟨known, valid⟩ := supported _ List.mem_cons_self
    rw [List.map_cons, List.flatten_cons, List.append_assoc] at left
    obtain ⟨y, copy⟩ := known.lawful symmetric x valid
    obtain ⟨t, run, read⟩ := copy.decodes id s _ ready caught left
    obtain ⟨decoded, s', calls, equals, behind⟩ :=
      ih (fun other mem => supported other (List.mem_cons_of_mem _ mem)) read.ready
        (caught.reads read.toReads) (read.rest left)
    refine ⟨(.none, ⟨o, y⟩) :: decoded, s', ?_, .cons ⟨rfl, .same (copy.equal trivial)⟩ equals, behind⟩
    rw [List.map_cons, deserializeEach, run]
    simp only [calls]

/-- The concatenated encodings of a list of values, pushed in any spans, are decoded to these values,
    and no byte is left. -/
theorem round_trip (networkOrder : Bool) (items : List Item)
    (supported : ∀ item ∈ items, Supported True item.1 ∧ item.1.Valid item.2) (spans : List (List Byte))
    (cut : spans.flatten =
      (items.map fun item => item.1.encode ⟨networkOrder, true⟩ item.2).flatten) :
    ∃ decoded s, deserializeEach ⟨networkOrder, true⟩ (items.map Sigma.fst)
        (spans.foldl pushView {}) = .ok (decoded, s) ∧
      List.Forall₂ (fun outcome item => outcome.1 = .none ∧ Item.Equal outcome.2 item) decoded items ∧
      s.mbv.available = 0 := by
  have fresh : ({} : StreamSerializer Byte).Ready := ⟨MultiBufferView.valid_empty, fun _ _ => rfl⟩
  obtain ⟨ready, idle, unread⟩ := pushViews fresh ⟨rfl, rfl⟩ spans
  have left : (spans.foldl pushView {}).left id =
      (items.map fun item => item.1.encode ⟨networkOrder, true⟩ item.2).flatten ++ [] := by
    rw [StreamSerializer.left, List.map_id, unread, cut, List.append_nil]
    rfl
  obtain ⟨decoded, s, calls, equals, behind⟩ := deserializeEach_spec (.inl rfl) items supported ready
    (Nat.le_of_eq idle.lag) left
  refine ⟨decoded, s, calls, equals, ?_⟩
  rw [StreamSerializer.left, List.map_id] at behind
  rw [MultiBufferView.available_eq, behind, List.length_nil]

/-- Two values in network order, cut within the number and between the two bytes of the optional. -/
theorem round_trip_cut :
    ∃ decoded s, deserializeEach ⟨true, true⟩ [word 2, optional bool]
        ([[0x12], [0x34, 1], [1]].foldl pushView {}) = .ok (decoded, s) ∧
      List.Forall₂ (fun outcome item => outcome.1 = .none ∧ Item.Equal outcome.2 item) decoded
        [⟨word 2, (0x1234 : BitVec 16)⟩, ⟨optional bool, some true⟩] ∧
      s.mbv.available = 0 := by
  refine round_trip true [⟨word 2, (0x1234 : BitVec 16)⟩, ⟨optional bool, some true⟩] ?_
    [[0x12], [0x34, 1], [1]] (by decide)
  intro item mem
  rcases List.mem_cons.1 mem with first | later
  · subst first
    exact ⟨.word (.inr (.inl rfl)), trivial⟩
  · obtain rfl := List.mem_singleton.1 later
    exact ⟨.optional .bool, fun _ _ => trivial⟩

end OsterLib.Serialization
