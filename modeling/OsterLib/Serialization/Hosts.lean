import OsterLib.Serialization.RoundTrip

/-!
# Numerics on either kind of host

`Serialize` swaps the bytes of a number where the order is the network's and the host is little-endian.
`__deserialize_trivial__` swaps them there too, but also in native order on a big-endian host, where nothing
has been swapped when they were written. So a number is returned on every host in network order, and in
native order on a little-endian one; on a big-endian one only if its bytes are the same backwards
(`number_returned_iff`).
-/

namespace OsterLib.Serialization
open Lib StreamSerializer SerialType

/-! ## What a fresh serializer gives -/

/-- A fresh serializer that the bytes are pushed to, in any spans and with any bytes behind them. -/
def Loaded (bytes : List Byte) (s : StreamSerializer Byte) : Prop :=
  ∃ spans rest, List.flatten spans = bytes ++ rest ∧ s = spans.foldl pushView {}

/-- `deserialize` returns no error, and leaves `y` in a destination that held `x`. -/
def SerialType.Gives (o : SerialType) (f : Format) (x : o.Val) (s : StreamSerializer Byte) (y : o.Val) : Prop :=
  ∃ s', o.deserialize f id x s = .ok (.none, y, s')

/-- Bytes in one span are loaded. -/
lemma loaded_whole (bytes : List Byte) : Loaded bytes ([bytes].foldl pushView {}) := by
  refine ⟨[bytes], [], ?_, rfl⟩
  rw [List.flatten_singleton, List.append_nil]

section loaded
variable {bytes : List Byte} {s : StreamSerializer Byte}

/-- A serializer that is loaded is ready, and has the bytes. -/
lemma Loaded.ready (loaded : Loaded bytes s) :
    s.Ready ∧ CaughtUp 0 s ∧ ∃ rest, s.left id = bytes ++ rest := by
  obtain ⟨spans, rest, cut, rfl⟩ := loaded
  have fresh : ({} : StreamSerializer Byte).Ready := ⟨MultiBufferView.valid_empty, fun _ _ => rfl⟩
  obtain ⟨ready, idle, unread⟩ := pushViews fresh ⟨rfl, rfl⟩ spans
  refine ⟨ready, Nat.le_of_eq idle.lag, rest, ?_⟩
  rw [StreamSerializer.left, List.map_id, unread, cut]
  rfl

/-- A number is read from its bytes. -/
lemma Loaded.deserializeNumeric (loaded : Loaded bytes s) {V : Type} (ofBytes : List Byte → V) (x : V) :
    ∃ s', s.deserializeNumeric bytes.length ofBytes id x = (.none, ofBytes bytes, s') := by
  obtain ⟨ready, _, rest, left⟩ := loaded.ready
  obtain ⟨s', run, _⟩ := ready.deserializeNumeric left rfl ofBytes x
  exact ⟨s', run⟩

end loaded

/-! ## Numerics -/

/-- The numeric types: integers, enumerations and floats by their bits, and `bool`. -/
inductive Numeric : SerialType → Type 1
  | word (n : Nat) : Numeric (word n)
  | bool : Numeric bool

namespace Numeric

/-- How many bytes a number has -/
def size {o : SerialType} : Numeric o → Nat
  | word n => n
  | bool => 1

/-- The raw value of a number. -/
def raw {o : SerialType} : Numeric o → o.Val → Nat
  | word _ => fun x => x.toNat
  | bool => fun x => x.toNat

/-- The value with a raw value. -/
def ofRaw {o : SerialType} : Numeric o → Nat → o.Val
  | word n => fun r => BitVec.ofNat (8 * n) r
  | bool => fun r => decide (r ≠ 0)

variable {o : SerialType} (number : Numeric o) (f : Format)

/-- The raw value fits the bytes. -/
lemma raw_lt (x : o.Val) : number.raw x < 256 ^ number.size := by
  cases number with
  | word n =>
    have bound := x.isLt
    rwa [Nat.pow_mul] at bound
  | bool =>
    cases x with
    | false => exact Nat.zero_lt_succ _
    | true => exact Nat.succ_lt_succ (Nat.zero_lt_succ _)

/-- A number is encoded as the bytes of its raw value. -/
lemma encode_eq (x : o.Val) : o.encode f x = wordBytes f number.size (number.raw x) := by
  cases number with
  | word n => rfl
  | bool => rfl

/-- A number is decoded from its raw value. -/
lemma deserialize_eq (old : o.Val) (s : StreamSerializer Byte) :
    o.deserialize f id old s =
      .ok (s.deserializeNumeric number.size (fun bytes => number.ofRaw (readWord f bytes)) id old) := by
  cases number with
  | word n => rfl
  | bool => rfl

/-- The number that is read is the one that was written if its raw value is. -/
lemma ofRaw_readWord_iff (x : o.Val) :
    number.ofRaw (readWord f (wordBytes f number.size (number.raw x))) = x ↔
      readWord f (wordBytes f number.size (number.raw x)) = number.raw x := by
  have bound := readWord_lt f number.size (number.raw x)
  have single := readWord_wordBytes_iff f (number.raw_lt x)
  generalize readWord f (wordBytes f number.size (number.raw x)) = r at bound single
  cases number with
  | word n =>
    have small : r < 2 ^ (8 * n) := by
      rw [Nat.pow_mul]
      exact bound
    refine ⟨fun same => ?_, fun same => ?_⟩
    · rw [← same]
      exact (Nat.mod_eq_of_lt small).symm
    · rw [same]
      exact (BitVec.ofNat_toNat _ _).trans (BitVec.setWidth_eq _)
  | bool =>
    -- one byte is the same in either order
    have back : r = Bool.toNat x := single.2 (f.legible_one _)
    rw [back]
    refine iff_of_true ?_ rfl
    cases x <;> rfl

/-- Decoding the bytes of a number gives it back if its raw value is read as it was written. -/
lemma gives_iff {f : Format} {x : o.Val} {s : StreamSerializer Byte} (loaded : Loaded (o.encode f x) s)
    (old : o.Val) :
    o.Gives f old s x ↔ f.Legible number.size (number.raw x) := by
  rw [number.encode_eq] at loaded
  obtain ⟨s', run⟩ := loaded.deserializeNumeric (fun bytes => number.ofRaw (readWord f bytes)) old
  rw [wordBytes_length] at run
  rw [← readWord_wordBytes_iff f (number.raw_lt x), ← number.ofRaw_readWord_iff]
  unfold SerialType.Gives
  rw [number.deserialize_eq, run]
  refine ⟨fun ⟨t, same⟩ => ?_, fun same => ⟨s', ?_⟩⟩
  · exact congrArg (fun outcome => outcome.2.1) (Except.ok.inj same)
  · rw [same]

end Numeric

/-- A number is returned on the host that wrote it if and only if both sides agree on the order of its bytes,
    or these are the same backwards. In network order they are written most significant first, by either
    kind of host. -/
theorem number_returned_iff {o : SerialType} (number : Numeric o) (f : Format) (x old : o.Val)
    {s : StreamSerializer Byte} (loaded : Loaded (o.encode f x) s) :
    (o.Gives f old s x ∧ (f.networkOrder = true → ∀ littleEndian,
        o.encode ⟨true, littleEndian⟩ x = bigEndian number.size (number.raw x))) ↔
      f.Symmetric ∨ bigEndian number.size (number.raw x) = bytesOf number.size (number.raw x) := by
  refine Iff.trans (and_iff_left fun _ littleEndian => ?_) (number.gives_iff loaded old)
  rw [number.encode_eq, wordBytes_network]

/-- A number in network order on a big-endian host, cut between its bytes. -/
theorem number_returned_network :
    (word 2).Gives ⟨true, false⟩ (0 : BitVec 16) ([[0x12], [0x34]].foldl pushView {}) (0x1234 : BitVec 16) ∧
      ∀ littleEndian, (word 2).encode ⟨true, littleEndian⟩ (0x1234 : BitVec 16) = [0x12, 0x34] := by
  have returned := (number_returned_iff (.word 2) ⟨true, false⟩ (0x1234 : BitVec 16) (0 : BitVec 16)
    ⟨[[0x12], [0x34]], [], rfl, rfl⟩).2 (.inl (.inr rfl))
  exact ⟨returned.1, returned.2 rfl⟩

/-- In native order a big-endian host reads the bytes of a one the other way round. -/
theorem number_swapped : ¬ ∀ {o : SerialType} (number : Numeric o) (f : Format) (x old : o.Val)
    (s : StreamSerializer Byte), Loaded (o.encode f x) s →
    o.Gives f old s x ∧ (f.networkOrder = true → ∀ littleEndian,
      o.encode ⟨true, littleEndian⟩ x = bigEndian number.size (number.raw x)) := by
  intro all
  obtain ⟨⟨s', run⟩, _⟩ := all (.word 2) ⟨false, false⟩ (1 : BitVec 16) (0 : BitVec 16) _ ⟨[[0, 1]], [], rfl, rfl⟩
  have value := congrArg (fun outcome => outcome.toOption.map fun result => result.2.1) run
  change some (0x100 : BitVec 16) = some (1 : BitVec 16) at value
  exact absurd value (by decide)

end OsterLib.Serialization
