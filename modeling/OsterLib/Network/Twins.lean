import OsterLib.Network.Receive
import OsterLib.Serialization.Renaming

/-!
# Receivers that cannot be told apart

The storage of a ring keeps what was once written to it. `Twins` are two receivers whose rings stand for the same queue
at the same place, and whose serializers have the same cells, registered counts and bytes to pass over: what the other
cells of the storage hold, and how many bytes were read before, may differ. A call of `receive` returns the same from
both and leaves twins, unless it decodes an empty ring, which exposes the whole storage (`Twins.receive`).
-/

namespace OsterLib.Network
open OsterLib.Lib OsterLib.Serialization

namespace RingBuffer
variable {T : Type} {r r' : RingBuffer T}

/-- Two rings that stand for the same queue, from the same cell on. -/
structure Twins (r r' : RingBuffer T) : Prop where
  queue : ∃ q, Agree r q ∧ Agree r' q
  head : r.head = r'.head

/-- A ring is full exactly if its size is its capacity. -/
lemma Inv.full_iff (inv : r.Inv) : r.full = decide (r.size = r.capacity) := by
  rw [Bool.eq_iff_iff, decide_eq_true_iff]
  exact inv.size_eq_capacity.symm

/-- Their indices and flags are the same. -/
lemma Twins.same (twins : Twins r r') :
    r.capacity = r'.capacity ∧ r.size = r'.size ∧ r.tail = r'.tail ∧ r.full = r'.full := by
  obtain ⟨q, agr, agr'⟩ := twins.queue
  have capacity : r.capacity = r'.capacity := agr.capacity_eq.trans agr'.capacity_eq.symm
  have size : r.size = r'.size := agr.size_eq.trans agr'.size_eq.symm
  refine ⟨capacity, size, ?_, ?_⟩
  · rw [agr.inv.tail_eq, agr'.inv.tail_eq, twins.head, capacity, size]
  · rw [agr.inv.full_iff, agr'.inv.full_iff, capacity, size]

/-- Twins are both empty, or neither is. -/
lemma Twins.empty (twins : Twins r r') : r.empty = r'.empty := by
  rw [RingBuffer.empty, RingBuffer.empty, twins.head, twins.same.2.2.1, twins.same.2.2.2]

/-- Twins show the same cells. -/
lemma Twins.data (twins : Twins r r') : r.data = r'.data := by
  rw [RingBuffer.data, RingBuffer.data, twins.empty, twins.head, twins.same.1, twins.same.2.2.1]

/-- Twins have the same free cells. -/
lemma Twins.writeVectored (twins : Twins r r') : r.writeVectored = r'.writeVectored := by
  rw [RingBuffer.writeVectored, RingBuffer.writeVectored, twins.head, twins.same.1, twins.same.2.2.1,
    twins.same.2.2.2]

/-- The cells that `data` exposes hold the same. -/
lemma Twins.stored (twins : Twins r r') (some : r'.empty = false) (default : T) :
    r'.data.1 ≠ [] ∧
      ∀ cell ∈ r'.data.1 ++ r'.data.2, r.buffer.getD cell default = r'.buffer.getD cell default := by
  obtain ⟨q, agr, agr'⟩ := twins.queue
  have items : q.items ≠ [] := by
    intro none
    have zero : r'.size = 0 := by rw [agr'.size_eq, none, List.length_nil]
    rw [agr'.inv.size_eq_zero.1 zero] at some
    cases some
  obtain ⟨read, -⟩ := agr.data items default
  obtain ⟨read', first⟩ := agr'.data items default
  rw [twins.data] at read
  exact ⟨first, List.map_inj_left.1 (read.trans read'.symm)⟩

/-- Cleared twins are twins. -/
lemma Twins.clear (twins : Twins r r') : Twins r.clear r'.clear := by
  obtain ⟨q, agr, agr'⟩ := twins.queue
  exact ⟨⟨_, agr.clear, agr'.clear⟩, rfl⟩

/-- A release of more than there is releases what there is. -/
lemma Inv.commitRead_clamp (inv : r.Inv) (n : Nat) : r.commitRead n = r.commitRead (min n r.size) := by
  by_cases small : n ≤ r.size
  · rw [Nat.min_eq_left small]
  · have more : r.size < n := Nat.lt_of_not_le small
    rw [Nat.min_eq_right (Nat.le_of_lt more)]
    by_cases zero : r.size = 0
    -- a release from an empty ring comes to its head again
    · have notFull : r.full = false := by
        rw [inv.full_iff, zero]
        exact decide_eq_false (Nat.ne_of_lt (Nat.lt_of_le_of_lt (Nat.zero_le _) inv.head_lt))
      have stays : (r.head + 0) % r.capacity = r.head := Nat.mod_eq_of_lt inv.head_lt
      have nothing : ({ r with head := (r.head + 0) % r.capacity, full := false } : RingBuffer T) = r := by
        rw [stays, ← notFull]
      rw [RingBuffer.commitRead, RingBuffer.commitRead, if_neg (by omega), if_pos zero]
      rw [zero] at more ⊢
      rw [if_pos more]
      exact nothing
    · rw [RingBuffer.commitRead, RingBuffer.commitRead, if_neg (by omega), if_neg zero]
      simp only [if_pos more, if_neg (Nat.lt_irrefl _)]

/-- Twins commit the same. -/
lemma Twins.commitRead (twins : Twins r r') (n : Nat) :
    Twins (r.commitRead n) (r'.commitRead n) ∧ (r.commitRead n).buffer = r.buffer ∧
      (r'.commitRead n).buffer = r'.buffer := by
  obtain ⟨q, agr, agr'⟩ := twins.queue
  have size := twins.same.2.1
  rw [agr.inv.commitRead_clamp, agr'.inv.commitRead_clamp, ← size]
  have le : min n r.size ≤ r.size := Nat.min_le_right _ _
  have le' : min n r.size ≤ r'.size := size ▸ le
  obtain ⟨-, -, head, buffer⟩ := agr.inv.commitRead le
  obtain ⟨-, -, head', buffer'⟩ := agr'.inv.commitRead le'
  refine ⟨⟨⟨_, agr.commitRead le, agr'.commitRead le'⟩, ?_⟩, buffer, buffer'⟩
  rw [head, head', twins.head, twins.same.1]

/-- What is written to the same place in both. -/
lemma writeAt_getD_congr {cells cells' : List T} (lengths : cells.length = cells'.length) (default : T) {k : Nat}
    (same : cells.getD k default = cells'.getD k default) (off : Nat) (xs : List T) :
    (writeAt cells off xs).getD k default = (writeAt cells' off xs).getD k default := by
  induction xs generalizing cells cells' off with
  | nil => exact same
  | cons x xs ih =>
    refine ih (by rw [List.length_set, List.length_set, lengths]) ?_ (off + 1)
    rw [List.getD_eq_getElem?_getD, List.getD_eq_getElem?_getD, List.getElem?_set, List.getElem?_set, lengths]
    rw [List.getD_eq_getElem?_getD, List.getD_eq_getElem?_getD] at same
    split
    · rfl
    · exact same

/-- A `readv` into both leaves the cells the same that were. -/
lemma Twins.write (twins : Twins r r') (bytes : List T) {n : Nat}
    (fits : n = min bytes.length (r'.writeVectored.1.len + r'.writeVectored.2.len)) (default : T) :
    Twins ((r.fill r.writeVectored bytes).commitWrite n) ((r'.fill r'.writeVectored bytes).commitWrite n) ∧
      ∀ cell, r.buffer.getD cell default = r'.buffer.getD cell default →
        ((r.fill r.writeVectored bytes).commitWrite n).buffer.getD cell default =
          ((r'.fill r'.writeVectored bytes).commitWrite n).buffer.getD cell default := by
  obtain ⟨q, agr, agr'⟩ := twins.queue
  have count' : n = min (r'.capacity - r'.size) bytes.length := by
    rw [fits, agr'.inv.writeVectored_len, Nat.min_comm]
  have count : n = min (r.capacity - r.size) bytes.length := by
    rw [twins.same.1, twins.same.2.1]
    exact count'
  refine ⟨⟨⟨_, count ▸ agr.write bytes, count' ▸ agr'.write bytes⟩, ?_⟩, ?_⟩
  · rw [commitWrite_head, commitWrite_head]
    exact twins.head
  · intro cell same
    rw [commitWrite_buffer, commitWrite_buffer, twins.writeVectored]
    refine writeAt_getD_congr ?_ default (writeAt_getD_congr twins.same.1 default same _ _) _ _
    rw [writeAt_length, writeAt_length]
    exact twins.same.1

/-- Bytes that are written where there is room are in the ring. -/
lemma Inv.write_some (inv : r.Inv) (room : r.size < r.capacity) {bytes : List T} (some : bytes ≠ []) {n : Nat}
    (fits : n = min bytes.length (r.writeVectored.1.len + r.writeVectored.2.len)) :
    ((r.fill r.writeVectored bytes).commitWrite n).Inv ∧
      ((r.fill r.writeVectored bytes).commitWrite n).empty = false := by
  have length : 0 < bytes.length := List.length_pos_of_ne_nil some
  have len := inv.writeVectored_len
  have le : n ≤ (r.fill r.writeVectored bytes).capacity - (r.fill r.writeVectored bytes).size := by
    rw [fill_capacity, fill_size]
    omega
  obtain ⟨inv', size⟩ := (inv.fill r.writeVectored bytes).commitWrite le
  rw [fill_size] at size
  refine ⟨inv', Bool.eq_false_iff.2 fun still => ?_⟩
  have none := inv'.size_eq_zero.2 still
  omega

end RingBuffer

/-! ## Receivers -/

namespace Receiver
variable {c d : Receiver}

/-- Two receivers with twin rings, whose storages hold the same in the cells of the serializers. The serializers differ
    in the number of bytes that were read before, and in `iterator`, which the next push sets. -/
structure Twins (c d : Receiver) : Prop where
  rings : RingBuffer.Twins c.recvBuffer d.recvBuffer
  mbv : c.serializer.mbv = d.serializer.mbv
  registered : c.serializer.registered = d.serializer.registered
  level : c.serializer.level = d.serializer.level
  counts : ∃ k, c.serializer.begin = d.serializer.begin + k ∧ c.serializer.end_ = d.serializer.end_ + k
  holds : d.serializer.Holds fun cell => c.load cell = d.load cell

/-- Cleared twins are twins. -/
lemma Twins.clearRecvBuffer (twins : Twins c d) : Twins c.clearRecvBuffer d.clearRecvBuffer where
  rings := twins.rings.clear
  mbv := rfl
  registered := rfl
  level := twins.level
  counts := ⟨0, rfl, rfl⟩
  holds := nofun

/-- Twins commit the same. -/
lemma Twins.commitRead (twins : Twins c d) (n : Nat) : Twins (c.commitRead n) (d.commitRead n) := by
  obtain ⟨rings, buffer, buffer'⟩ := twins.rings.commitRead n
  refine ⟨rings, twins.mbv, twins.registered, twins.level, twins.counts, ?_⟩
  intro span mem cell inside
  show (c.recvBuffer.commitRead n).buffer.getD cell 0 = (d.recvBuffer.commitRead n).buffer.getD cell 0
  rw [buffer, buffer']
  exact twins.holds span mem cell inside

/-- A flush leaves cells that were there. -/
lemma holds_flush {P : Nat → Prop} {s : StreamSerializer Nat} (holds : s.Holds P) : s.flush.2.Holds P := by
  intro span mem cell inside
  have flushed : span ∈ s.mbv.flushDeserialized.2.buffers := mem
  rw [MultiBufferView.flushDeserialized] at flushed
  cases left : s.mbv.buffers.drop s.mbv.spanIdx with
  | nil =>
    rw [left] at flushed
    cases flushed
  | cons front spans =>
    rw [left] at flushed
    have there (other : List Nat) (mem : other ∈ front :: spans) : other ∈ s.mbv.buffers :=
      List.mem_of_mem_drop (left ▸ mem)
    rcases List.mem_cons.1 flushed with rfl | later
    · exact holds front (there front List.mem_cons_self) cell (List.mem_of_mem_drop inside)
    · exact holds span (there span (List.mem_cons_of_mem _ later)) cell inside

/-- Twins flush the same. -/
lemma Twins.commitFlushed (twins : Twins c d) : Twins c.commitFlushed d.commitFlushed := by
  have dropped : c.serializer.flush.1 = d.serializer.flush.1 := by
    rw [StreamSerializer.flush, StreamSerializer.flush, twins.mbv]
  have mbv : c.serializer.flush.2.mbv = d.serializer.flush.2.mbv := by
    rw [StreamSerializer.flush, StreamSerializer.flush, twins.mbv]
  have flushed : Twins { c with serializer := c.serializer.flush.2 } { d with serializer := d.serializer.flush.2 } :=
    ⟨twins.rings, mbv, twins.registered, twins.level, twins.counts, holds_flush twins.holds⟩
  rw [Receiver.commitFlushed, Receiver.commitFlushed]
  dsimp only
  rw [dropped]
  exact flushed.commitRead _

/-- Both are told the same by a `readv`, and what it stores is stored in both. -/
lemma Twins.receiveToRingBuffer (twins : Twins c d) (outcome : ReadOutcome) :
    let read := Network.receiveToRingBuffer outcome c.recvBuffer
    let read' := Network.receiveToRingBuffer outcome d.recvBuffer
    read.1 = read'.1 ∧ read.2.1 = read'.2.1 ∧
      Twins { c with recvBuffer := read.2.2 } { d with recvBuffer := read'.2.2 } := by
  have same : Twins { c with recvBuffer := c.recvBuffer } { d with recvBuffer := d.recvBuffer } := twins
  have vec := twins.rings.writeVectored
  unfold Network.receiveToRingBuffer
  dsimp only
  rw [vec]
  split
  · exact ⟨rfl, rfl, same⟩
  · split
    · exact ⟨rfl, rfl, same⟩
    · exact ⟨rfl, rfl, same⟩
    · exact ⟨rfl, rfl, same⟩
    · exact ⟨rfl, rfl, same⟩
    · rename_i bytes some
      obtain ⟨rings, cells⟩ := twins.rings.write bytes rfl (0 : Byte)
      rw [vec] at rings cells
      refine ⟨rfl, rfl, rings, twins.mbv, twins.registered, twins.level, twins.counts, ?_⟩
      intro span mem cell inside
      exact cells cell (twins.holds span mem cell inside)

/-- Twins have the same free space. -/
lemma Twins.freeSpace (twins : Twins c d) : c.freeSpace = d.freeSpace := by
  rw [Receiver.freeSpace, Receiver.freeSpace, twins.rings.same.1, twins.rings.same.2.1]

/-- Twins read the same. -/
lemma Twins.recvInternal (twins : Twins c d) (env : ReceiveEnv) :
    (c.recvInternal env).1 = (d.recvInternal env).1 ∧ (c.recvInternal env).2.1 = (d.recvInternal env).2.1 ∧
      Twins (c.recvInternal env).2.2 (d.recvInternal env).2.2 := by
  obtain ⟨res, err, next⟩ := twins.receiveToRingBuffer env.outcome
  rw [Receiver.recvInternal, Receiver.recvInternal, twins.freeSpace]
  split
  · exact ⟨rfl, rfl, twins.clearRecvBuffer⟩
  · split
    · exact ⟨rfl, rfl, twins⟩
    · dsimp only
      rw [res, err]
      generalize (Network.receiveToRingBuffer env.outcome d.recvBuffer).2.1 = code
      split
      · exact ⟨rfl, rfl, next⟩
      · exact ⟨rfl, rfl, next⟩
      · exact ⟨rfl, rfl, next⟩
      · exact ⟨rfl, rfl, next⟩
      · exact ⟨rfl, rfl, next⟩

/-- What is pushed from a ring that is not empty is the same, up to the bytes that were read before. -/
lemma Twins.pushed (twins : Twins c d) (some : d.recvBuffer.empty = false) :
    ∃ k, c.pushed = d.pushed.shift k ∧ d.pushed.Holds fun cell => c.load cell = d.load cell := by
  obtain ⟨k, begin, end_⟩ := twins.counts
  obtain ⟨first, stored⟩ := twins.rings.stored some (0 : Byte)
  refine ⟨k, ?_, ?_⟩
  · rw [Receiver.pushed, Receiver.pushed, twins.rings.data]
    generalize d.recvBuffer.data = spans at first
    -- only the second span may be empty: then nothing is pushed for it
    obtain ⟨_ | ⟨cell, cells⟩, _ | ⟨cell', cells'⟩⟩ := spans
    · exact absurd rfl first
    · exact absurd rfl first
    · simp [StreamSerializer.pushView, StreamSerializer.shift, twins.mbv, twins.registered, twins.level, begin, end_]
    · simp [StreamSerializer.pushView, StreamSerializer.shift, twins.mbv, twins.registered, twins.level, begin, end_]
  · have push (s : StreamSerializer Nat) (cells : List Nat) (holds : s.Holds fun cell => c.load cell = d.load cell)
        (same : ∀ cell ∈ cells, c.load cell = d.load cell) :
        (s.pushView cells).Holds fun cell => c.load cell = d.load cell := by
      cases cells with
      | nil => exact holds
      | cons cell cells =>
        intro span mem other inside
        rcases List.mem_append.1 (show span ∈ s.mbv.buffers ++ [cell :: cells] from mem) with old | new
        · exact holds span old other inside
        · rw [List.mem_singleton.1 new] at inside
          exact same other inside
    rw [Receiver.pushed]
    refine push _ _ (push _ _ twins.holds ?_) ?_
    · intro cell mem
      exact stored cell (List.mem_append_left _ mem)
    · intro cell mem
      exact stored cell (List.mem_append_right _ mem)

/-- Two calls end the same way and leave twins. -/
inductive Same : Except Fault (SerializationEC × List Item × Receiver) →
    Except Fault (SerializationEC × List Item × Receiver) → Prop
  | error (fault : Fault) : Same (.error fault) (.error fault)
  | ok {c d : Receiver} (code : SerializationEC) (values : List Item) :
      Twins c d → Same (.ok (code, values, c)) (.ok (code, values, d))

/-- Twins decode the same. -/
lemma Twins.deserialize (twins : Twins c d) (some : d.recvBuffer.empty = false) (f : Format) {values : List Item}
    (shapes : ∀ value ∈ values, Nonempty (Shape value.1)) :
    Same (c.deserialize f values) (d.deserialize f values) := by
  obtain ⟨k, pushed, holds⟩ := twins.pushed some
  obtain ⟨same, held⟩ := deserializeFields_congr (f := f) shapes holds k
  rw [Receiver.deserialize, Receiver.deserialize, pushed, same]
  cases run : deserializeFields f d.load values d.pushed with
  | error fault => exact .error fault
  | ok outcome =>
    obtain ⟨code, decoded, s⟩ := outcome
    have next : Twins { c with serializer := s.shift k } { d with serializer := s } :=
      ⟨twins.rings, rfl, rfl, rfl, ⟨k, rfl, rfl⟩, held code decoded s run⟩
    simp only [Except.map, Prod.map, id]
    cases code with
    | none =>
      match decoded with
      | [] => exact .ok _ _ next.commitFlushed
      | [⟨o, value⟩] => exact .ok _ _ (next.commitRead _)
      | _ :: _ :: _ => exact .ok _ _ next.commitFlushed
    | bufferSizeLesser => exact .ok _ _ next.commitFlushed
    | _ => exact .ok _ _ next.clearRecvBuffer

end Receiver

/-! ## Calls of `receive` -/

/-- A `readv` that fails and does not end the call. -/
def TriesLater : ReadOutcome → Prop
  | .failed .resourceUnavailableTryAgain | .failed .operationInProgress | .failed .noBufferSpace => True
  | _ => False

namespace Receiver
variable {c d : Receiver}

/-- What every call keeps: the ring is in order, and the serializer is between two decodes. -/
structure Sound (c : Receiver) : Prop where
  inv : c.recvBuffer.Inv
  valid : c.serializer.mbv.Valid
  level : c.serializer.level = 0

/-- The call does not decode a ring that is empty. -/
def ReadsNew (c : Receiver) (env : ReceiveEnv) : Prop :=
  env.socketValid = true → c.recvBuffer.empty = true → ¬ TriesLater env.outcome

/-- A cleared receiver is sound. -/
lemma Sound.clearRecvBuffer (sound : c.Sound) : c.clearRecvBuffer.Sound := by
  have pos : 0 < c.recvBuffer.capacity := Nat.lt_of_le_of_lt (Nat.zero_le _) sound.inv.head_lt
  exact ⟨⟨pos, pos, nofun⟩, MultiBufferView.valid_empty, sound.level⟩

/-- Committing keeps a receiver sound. -/
lemma Sound.commitRead (sound : c.Sound) (n : Nat) : (c.commitRead n).Sound :=
  ⟨(sound.inv.release n).1, sound.valid, sound.level⟩

/-- Flushing keeps a receiver sound. -/
lemma Sound.commitFlushed (sound : c.Sound) : c.commitFlushed.Sound := by
  have flushed : Sound { c with serializer := c.serializer.flush.2 } :=
    ⟨sound.inv, sound.valid.flush.1, sound.level⟩
  exact flushed.commitRead _

/-- What a read leaves, with the ring that is decoded if the call goes on. -/
lemma Sound.recvInternal (sound : c.Sound) (env : ReceiveEnv) :
    (c.recvInternal env).2.2.Sound ∧ (c.ReadsNew env →
      (c.recvInternal env).1 = -1 ∨ (c.recvInternal env).2.2.recvBuffer.empty = false) := by
  have inv := sound.inv
  unfold Receiver.recvInternal
  cases valid : env.socketValid with
  | false => exact ⟨sound.clearRecvBuffer, fun _ => .inl rfl⟩
  | true =>
    have stays : c.ReadsNew env → TriesLater env.outcome → c.recvBuffer.empty = false := fun news later =>
      Bool.eq_false_iff.2 fun none => news valid none later
    simp only [Bool.not_true, Bool.false_eq_true, if_false]
    by_cases noSpace : c.freeSpace = 0
    -- a ring without free cells is full, and so is not empty
    · rw [if_pos noSpace]
      have size_le := inv.size_le
      have head_lt := inv.head_lt
      have isFull : ¬ c.recvBuffer.size = 0 := by
        rw [freeSpace] at noSpace
        omega
      exact ⟨sound, fun _ => .inr (Bool.eq_false_iff.2 fun none => isFull (inv.size_eq_zero.2 none))⟩
    · rw [if_neg noSpace]
      have room : c.recvBuffer.size < c.recvBuffer.capacity := by
        rw [freeSpace] at noSpace
        omega
      have len := inv.writeVectored_len
      unfold Network.receiveToRingBuffer
      rw [if_neg (by omega)]
      cases read : env.outcome with
      | failed errno =>
        -- the ring is as it was before the call
        rw [read] at stays
        cases errno with
        | resourceUnavailableTryAgain => exact ⟨sound, fun news => .inr (stays news trivial)⟩
        | operationInProgress => exact ⟨sound, fun news => .inr (stays news trivial)⟩
        | noBufferSpace => exact ⟨sound, fun news => .inr (stays news trivial)⟩
        | _ => exact ⟨sound, fun _ => .inl rfl⟩
      | received bytes =>
        cases bytes with
        | nil => exact ⟨sound, fun _ => .inl rfl⟩
        | cons byte bytes =>
          obtain ⟨inv', some⟩ := inv.write_some room (List.cons_ne_nil byte bytes) rfl
          exact ⟨⟨inv', sound.valid, sound.level⟩, fun _ => .inr some⟩

/-- A decode of a supported type leaves the serializer between two decodes. -/
lemma fields_sound {f : Format} {load : Nat → Byte} {values decoded : List Item} {code : SerializationEC}
    {s t : StreamSerializer Nat} (shapes : ∀ value ∈ values, Nonempty (Shape value.1)) (valid : s.mbv.Valid)
    (level : s.level = 0) (run : deserializeFields f load values s = .ok (code, decoded, t)) :
    t.mbv.Valid ∧ t.level = 0 := by
  induction values generalizing s decoded with
  | nil =>
    cases run
    exact ⟨valid, level⟩
  | cons value values ih =>
    obtain ⟨o, x⟩ := value
    obtain ⟨shape⟩ := shapes _ List.mem_cons_self
    have affords : AffordsAll False false _ o f load _ _ := shape.affords False.elim
    have moved := (affords.affords x s valid nofun).moved
    rw [deserializeFields] at run
    cases first : o.deserialize f load x s with
    | error fault =>
      rw [first] at run
      cases run
    | ok outcome =>
      obtain ⟨code', y, u⟩ := outcome
      obtain ⟨level', valid', -⟩ := moved code' y u first
      rw [first] at run
      cases code' with
      | none =>
        simp only at run
        cases later : deserializeFields f load values u with
        | error fault =>
          rw [later] at run
          cases run
        | ok rest =>
          obtain ⟨code'', decoded', v⟩ := rest
          rw [later] at run
          cases run
          exact ih (fun other mem => shapes other (List.mem_cons_of_mem _ mem)) valid' (level'.trans level) later
      | _ =>
        cases run
        exact ⟨valid', level'.trans level⟩

/-- What is pushed leaves the serializer valid, at its outermost level. -/
lemma pushed_sound (sound : c.Sound) : c.pushed.mbv.Valid ∧ c.pushed.level = 0 := by
  have first := StreamSerializer.pushView_valid sound.valid c.recvBuffer.data.1
  have second := StreamSerializer.pushView_valid first.1 c.recvBuffer.data.2
  have level := (StreamSerializer.pushView_kept c.serializer c.recvBuffer.data.1).1
  have level' :=
    (StreamSerializer.pushView_kept (c.serializer.pushView c.recvBuffer.data.1) c.recvBuffer.data.2).1
  exact ⟨second.1, level'.trans (level.trans sound.level)⟩

/-- Decoding keeps a receiver sound. -/
lemma Sound.deserialize (sound : c.Sound) {f : Format} {values decoded : List Item} {code : SerializationEC}
    (shapes : ∀ value ∈ values, Nonempty (Shape value.1))
    (run : c.deserialize f values = .ok (code, decoded, d)) : d.Sound := by
  obtain ⟨valid, level⟩ := pushed_sound sound
  rw [Receiver.deserialize] at run
  cases fields : deserializeFields f c.load values c.pushed with
  | error fault =>
    rw [fields] at run
    cases run
  | ok outcome =>
    obtain ⟨code', decoded', s⟩ := outcome
    obtain ⟨valid', level'⟩ := fields_sound shapes valid level fields
    have next : Sound { c with serializer := s } := ⟨sound.inv, valid', level'⟩
    rw [fields] at run
    cases code' with
    | none =>
      match decoded', run with
      | [], rfl => exact next.commitFlushed
      | [⟨o, value⟩], rfl => exact next.commitRead _
      | _ :: _ :: _, rfl => exact next.commitFlushed
    | bufferSizeLesser =>
      cases run
      exact next.commitFlushed
    | _ =>
      cases run
      exact next.clearRecvBuffer

end Receiver

/-- Two calls of `receive` return the same and leave twins. -/
inductive SameReceived : Except Fault Received → Except Fault Received → Prop
  | error (fault : Fault) : SameReceived (.error fault) (.error fault)
  | ok {c d : Receiver} (ret : Int) (err : ErrorCode) (values : List Item) :
      c.Twins d → SameReceived (.ok ⟨ret, err, values, c⟩) (.ok ⟨ret, err, values, d⟩)

/-- A call that does not decode an empty ring does not tell twins apart. -/
theorem Receiver.Twins.receive {c d : Receiver} (twins : c.Twins d) (sound : d.Sound) (f : Format) {env : ReceiveEnv}
    (news : d.ReadsNew env) {values : List Item} (shapes : ∀ value ∈ values, Nonempty (Shape value.1)) :
    SameReceived (Network.receive f env values c) (Network.receive f env values d) := by
  obtain ⟨ret, err, next⟩ := twins.recvInternal env
  have goesOn := (sound.recvInternal env).2 news
  rw [Network.receive, Network.receive]
  generalize c.recvInternal env = read at ret err next
  generalize d.recvInternal env = read' at ret err next goesOn
  obtain ⟨res, code, c'⟩ := read
  obtain ⟨res', code', d'⟩ := read'
  obtain rfl : res = res' := ret
  obtain rfl : code = code' := err
  dsimp only
  -- both calls end here, or both decode a ring that is not empty
  by_cases failed : res = -1
  · rw [if_pos failed, if_pos failed]
    exact .ok _ _ _ next
  · rw [if_neg failed, if_neg failed]
    have same : Same (c'.deserialize f values) (d'.deserialize f values) :=
      next.deserialize (goesOn.resolve_left failed) f shapes
    generalize c'.deserialize f values = decoded at same ⊢
    generalize d'.deserialize f values = decoded' at same ⊢
    cases same with
    | error fault => exact .error fault
    | ok code decoded twins =>
      cases code with
      | none => exact .ok _ _ _ twins.commitFlushed
      | bufferSizeLesser => exact .ok _ _ _ twins.commitFlushed
      | _ => exact .ok _ _ _ twins.clearRecvBuffer

end OsterLib.Network
