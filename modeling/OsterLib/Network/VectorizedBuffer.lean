import OsterLib.Network.Definitions
import OsterLib.Serialization.Definitions
import Mathlib.Data.List.Basic

/-!
# The send buffer

`VectorizedBuffer` of `network/buffers/vectorized_buffer.h`: the queued messages `bufs`, for each of
them the segment `vbuf` that is still to be written, and the index `active` of the first message that
is not written completely. A segment's address is kept as an offset into its own message.

`pending` is what `writev` reads through `remaining()`. Every operation has one equation about it:
`push_buffer` appends (`pending_pushBuffer`), `consume` drops from the front (`Inv.pending_consume`)
and `compact` changes nothing (`Inv.pending_compact`).
-/

namespace OsterLib.Network
open OsterLib.Serialization

/-- `VectorizedBuffer`: the parts still to write, the bytes of each message, and the first that is not written -/
structure VectorizedBuffer where
  vbuf : List Iovec := []
  bufs : List (List Byte) := []
  active : Nat := 0
  deriving DecidableEq, Repr

namespace VectorizedBuffer

/-- `push_buffer`, which takes no empty message -/
def pushBuffer (b : VectorizedBuffer) (range : List Byte) : VectorizedBuffer :=
  if range.isEmpty then b
  else { b with bufs := b.bufs ++ [range], vbuf := b.vbuf ++ [⟨0, range.length⟩] }

/-- Only a message whose values were all serialized is queued. -/
def serialize (b : VectorizedBuffer) (values : List Serializer) :
    VectorizedBuffer × SerializationEC :=
  match serializeAll values [] with
  | (.none, buffer) => (b.pushBuffer buffer, .none)
  | (err, _) => (b, err)

/-- `clear_buffer` -/
def clearBuffer (_ : VectorizedBuffer) : VectorizedBuffer := {}

/-- The first segment to write and the number of segments from there on. -/
def remaining (b : VectorizedBuffer) : Option (Nat × Nat) :=
  if b.active ≥ b.vbuf.length then none else some (b.active, b.bufs.length - b.active)

/-- The loop of `consume` over the segments from `active` on: how many of them are passed, and the
    segments afterwards. -/
def consumeLoop : List Iovec → Nat → Nat × List Iovec
  | [], _ => (0, [])
  | current :: rest, bytesSent =>
    if bytesSent = 0 then (0, current :: rest)
    else if bytesSent ≥ current.len then
      let (passed, rest) := consumeLoop rest (bytesSent - current.len)
      (passed + 1, current :: rest)
    else (0, ⟨current.base + bytesSent, current.len - bytesSent⟩ :: rest)

/-- `consume` -/
def consume (b : VectorizedBuffer) (bytesSent : Nat) : VectorizedBuffer :=
  let (passed, segments) := consumeLoop (b.vbuf.drop b.active) bytesSent
  { b with vbuf := b.vbuf.take b.active ++ segments, active := b.active + passed }

/-- `compact` -/
def compact (b : VectorizedBuffer) : VectorizedBuffer :=
  if b.active > 0 then
    { vbuf := b.vbuf.drop b.active, bufs := b.bufs.drop b.active, active := 0 }
  else b

/-- `has_to_write` -/
def hasToWrite (b : VectorizedBuffer) : Bool := b.active < b.vbuf.length

/-- `empty` -/
def empty (b : VectorizedBuffer) : Bool := b.bufs.isEmpty

/-! ## What is still to be written -/

/-- The bytes that a segment of a message points to. -/
def bytes (segment : Iovec × List Byte) : List Byte :=
  (segment.2.drop segment.1.base).take segment.1.len

/-- The bytes that the segments returned by `remaining` point to, in order. -/
def pending (b : VectorizedBuffer) : List Byte :=
  match b.remaining with
  | none => []
  | some (first, count) => (((b.vbuf.zip b.bufs).drop first).take count).flatMap bytes

/-- A segment that is still to be written is a non-empty suffix of its message. -/
def Fits (segment : Iovec × List Byte) : Prop :=
  segment.1.base + segment.1.len = segment.2.length ∧ 0 < segment.1.len

/-- Every part has its message, the active one is one of them, and each part is inside of its message. -/
structure Inv (b : VectorizedBuffer) : Prop where
  lengths : b.vbuf.length = b.bufs.length
  active_le : b.active ≤ b.vbuf.length
  fits : ∀ segment ∈ (b.vbuf.drop b.active).zip (b.bufs.drop b.active), Fits segment

/-- A part has as many bytes as it says. -/
lemma Fits.bytes_length {segment : Iovec × List Byte} (fits : Fits segment) :
    (bytes segment).length = segment.1.len := by
  have := fits.1
  simp only [bytes, List.length_take, List.length_drop]
  omega

/-- `remaining` returns all segments from `active` on. -/
lemma Inv.pending_eq {b : VectorizedBuffer} (inv : b.Inv) :
    b.pending = ((b.vbuf.drop b.active).zip (b.bufs.drop b.active)).flatMap bytes := by
  have lengths := inv.lengths
  have same : (b.vbuf.zip b.bufs).drop b.active =
      (b.vbuf.drop b.active).zip (b.bufs.drop b.active) := by
    simp only [List.zip_eq_zipWith, List.drop_zipWith]
  unfold pending remaining
  by_cases done : b.active ≥ b.vbuf.length
  · simp [done, List.drop_eq_nil_of_le done]
  · simp only [done, if_false, same]
    rw [List.take_of_length_le (by rw [List.length_zip, List.length_drop, List.length_drop]; omega)]

/-- There is something to write exactly if bytes are pending. -/
lemma Inv.hasToWrite_iff {b : VectorizedBuffer} (inv : b.Inv) :
    b.hasToWrite = true ↔ b.pending ≠ [] := by
  have lengths := inv.lengths
  have fits := inv.fits
  rw [inv.pending_eq]
  unfold hasToWrite
  rw [decide_eq_true_iff]
  constructor
  · intro lt
    rw [List.drop_eq_getElem_cons lt, List.drop_eq_getElem_cons (l := b.bufs) (lengths ▸ lt)]
      at fits ⊢
    have first := fits _ List.mem_cons_self
    rw [List.zip_cons_cons, List.flatMap_cons]
    intro none
    have zero := congrArg List.length (List.append_eq_nil_iff.1 none).1
    rw [first.bytes_length] at zero
    exact absurd zero (Nat.ne_of_gt first.2)
  · intro some
    by_contra done
    apply some
    rw [List.drop_eq_nil_of_le (Nat.le_of_not_lt done)]
    rfl

/-! ## The operations on what is still to be written -/

/-- A push keeps the buffer in order. -/
lemma Inv.pushBuffer {b : VectorizedBuffer} (inv : b.Inv) (range : List Byte) :
    (b.pushBuffer range).Inv := by
  unfold VectorizedBuffer.pushBuffer
  split
  · exact inv
  · rename_i nonempty
    have lengths := inv.lengths
    have active_le := inv.active_le
    refine ⟨by simp [lengths], by simp; omega, ?_⟩
    rw [List.drop_append_of_le_length active_le,
      List.drop_append_of_le_length (lengths ▸ active_le), List.zip_append (by simp [lengths])]
    intro segment mem
    rcases List.mem_append.1 mem with old | new
    · exact inv.fits segment old
    · rw [List.mem_singleton.1 new]
      refine ⟨by simp, ?_⟩
      exact List.length_pos_of_ne_nil (by simpa using nonempty)

/-- A message goes behind what is pending. -/
lemma Inv.pending_pushBuffer {b : VectorizedBuffer} (inv : b.Inv) (range : List Byte) :
    (b.pushBuffer range).pending = b.pending ++ range := by
  rw [(inv.pushBuffer range).pending_eq, inv.pending_eq]
  unfold VectorizedBuffer.pushBuffer
  split
  · rename_i none
    simp [List.isEmpty_iff.1 none]
  · have lengths := inv.lengths
    have active_le := inv.active_le
    rw [List.drop_append_of_le_length active_le,
      List.drop_append_of_le_length (lengths ▸ active_le), List.zip_append (by simp [lengths])]
    simp [bytes]

/-- Serializing keeps the buffer in order. -/
lemma Inv.serialize {b : VectorizedBuffer} (inv : b.Inv) (values : List Serializer) :
    (b.serialize values).1.Inv := by
  unfold VectorizedBuffer.serialize
  split
  · exact inv.pushBuffer _
  · exact inv

/-- Consuming `n` bytes of segments drops `n` bytes from the front of what they point to. -/
lemma consumeLoop_spec {segments : List Iovec} {bufs : List (List Byte)} (n : Nat)
    (lengths : segments.length = bufs.length) (fits : ∀ s ∈ segments.zip bufs, Fits s) :
    let (passed, after) := consumeLoop segments n
    after.length = segments.length ∧ passed ≤ segments.length ∧
      (∀ s ∈ (after.drop passed).zip (bufs.drop passed), Fits s) ∧
      ((after.drop passed).zip (bufs.drop passed)).flatMap bytes =
        ((segments.zip bufs).flatMap bytes).drop n := by
  induction segments generalizing bufs n with
  | nil => simp [consumeLoop]
  | cons current rest ih =>
    obtain _ | ⟨buf, bufs⟩ := bufs
    · simp at lengths
    have first : Fits (current, buf) := fits _ List.mem_cons_self
    have ends : current.base + current.len = buf.length := first.1
    have len : (bytes (current, buf)).length = current.len := first.bytes_length
    rw [List.zip_cons_cons, List.flatMap_cons]
    unfold consumeLoop
    by_cases zero : n = 0
    · subst zero
      simpa using fits
    · by_cases whole : n ≥ current.len
      · simp only [zero, whole, if_true, if_false]
        have tail : ∀ s ∈ rest.zip bufs, Fits s := fun s mem => fits s (List.mem_cons_of_mem _ mem)
        have later := ih (n - current.len) (by simpa using lengths) tail
        have dropped : (bytes (current, buf) ++ (rest.zip bufs).flatMap bytes).drop n =
            ((rest.zip bufs).flatMap bytes).drop (n - current.len) := by
          rw [List.drop_append, List.drop_eq_nil_of_le (by omega), len, List.nil_append]
        rw [dropped]
        simpa using later
      · simp only [zero, whole, if_false]
        refine ⟨rfl, Nat.zero_le _, ?_, ?_⟩
        · intro s mem
          rcases List.mem_cons.1 mem with here | later
          · subst here
            exact ⟨by simp only; omega, by simp only; omega⟩
          · exact fits s (List.mem_cons_of_mem _ later)
        · rw [List.drop_append_of_le_length (by omega)]
          simp [bytes, List.drop_take, Nat.add_comm]

/-- Consuming takes the first bytes of what is pending. -/
lemma Inv.consume {b : VectorizedBuffer} (inv : b.Inv) (n : Nat) :
    (b.consume n).Inv ∧ (b.consume n).pending = b.pending.drop n := by
  have lengths := inv.lengths
  have active_le := inv.active_le
  have loop := consumeLoop_spec n (by simp [lengths]) inv.fits
  rw [← inv.pending_eq] at loop
  unfold VectorizedBuffer.consume
  generalize consumeLoop (b.vbuf.drop b.active) n = after at loop ⊢
  obtain ⟨passed, after⟩ := after
  obtain ⟨len, le, fits, pending⟩ := loop
  rw [List.length_drop] at len le
  have behind : (b.vbuf.take b.active ++ after).drop (b.active + passed) = after.drop passed := by
    rw [List.drop_append, List.drop_eq_nil_of_le (by rw [List.length_take]; omega),
      List.nil_append, List.length_take, Nat.min_eq_left active_le, Nat.add_sub_cancel_left]
  have inv' : Inv { b with vbuf := b.vbuf.take b.active ++ after, active := b.active + passed } := by
    refine ⟨?_, ?_, ?_⟩
    · simp; omega
    · simp; omega
    · simpa only [behind, List.drop_drop] using fits
  refine ⟨inv', ?_⟩
  rw [inv'.pending_eq]
  simpa only [behind, List.drop_drop] using pending

/-- Compacting changes nothing of what is pending. -/
lemma Inv.compact {b : VectorizedBuffer} (inv : b.Inv) :
    b.compact.Inv ∧ b.compact.pending = b.pending := by
  have lengths := inv.lengths
  unfold VectorizedBuffer.compact
  split
  · have inv' : Inv { vbuf := b.vbuf.drop b.active, bufs := b.bufs.drop b.active, active := 0 } :=
      ⟨by simp [lengths], Nat.zero_le _, by simpa using inv.fits⟩
    refine ⟨inv', ?_⟩
    rw [inv'.pending_eq, inv.pending_eq]
    rfl
  · exact ⟨inv, rfl⟩

end VectorizedBuffer
end OsterLib.Network
