import OsterLib.Lib.Run
import OsterLib.Lib.Ring
import OsterLib.Network.Definitions
import Mathlib.Data.List.Nodup

/-!
# The ring buffer

`RingBuffer<T>` of `network/buffers/ring_buffer.h`: a vector of cells with the index of the first byte
to read, the index of the first free cell and a flag that tells a full ring from an empty one when
both indices are equal.

The first half follows the header function by function. The second half shows that a ring stands for
a bounded queue: `Agree r q` says that reading `data_at(0 .. size()-1)` gives the items of `q` and that
`size`, `full` and `empty` agree with it, every operation keeps `Agree` with the corresponding
operation of the queue, and so does every run (`run_agree`).
-/

namespace OsterLib.Network
open OsterLib.Lib

/-- `RingBuffer` -/
structure RingBuffer (T : Type) where
  buffer : List T := []
  /-- Index of the first cell to read. -/
  head : Nat := 0
  /-- Index of the first free cell. -/
  tail : Nat := 0
  /-- Tells a full ring from an empty one when `head = tail`. -/
  full : Bool := false
  deriving DecidableEq, Repr

namespace RingBuffer
variable {T : Type}

/-- `buffer_.resize(n)`: cells beyond the old end are value-initialised. -/
def setCapacity [Inhabited T] (r : RingBuffer T) (n : Nat) : RingBuffer T :=
  { buffer := r.buffer.take n ++ List.replicate (n - r.buffer.length) default
    head := 0, tail := 0, full := false }

/-- `RingBuffer(capacity)` -/
def ofCapacity [Inhabited T] (capacity : Nat) : RingBuffer T :=
  setCapacity {} capacity

/-- `capacity` -/
def capacity (r : RingBuffer T) : Nat := r.buffer.length

/-- `size` -/
def size (r : RingBuffer T) : Nat :=
  if r.full then r.capacity
  else if r.head ≤ r.tail then r.tail - r.head
  else r.capacity - r.head + r.tail

/-- `empty` -/
def empty (r : RingBuffer T) : Bool := !r.full && r.head == r.tail

/-- The element at a logical index, `none` where the physical index is outside the storage. -/
def dataAt (r : RingBuffer T) (logicalIndex : Nat) : Option T :=
  r.buffer[(r.head + logicalIndex) % r.capacity]?

/-- The free cells, in at most two segments. -/
def writeVectored (r : RingBuffer T) : Iovec × Iovec :=
  if r.full then ({}, {})
  else if r.head ≤ r.tail then
    (⟨r.tail, r.capacity - r.tail⟩, if 0 < r.head then ⟨0, r.head⟩ else {})
  else (⟨r.tail, r.head - r.tail⟩, {})

/-- The occupied cells, in at most two segments. -/
def readVectored (r : RingBuffer T) : Iovec × Iovec :=
  if r.empty then ({}, {})
  else if r.head < r.tail then (⟨r.head, r.tail - r.head⟩, {})
  else (⟨r.head, r.capacity - r.head⟩, ⟨0, r.tail⟩)

/-- `commit_write` -/
def commitWrite (r : RingBuffer T) (n : Nat) : RingBuffer T :=
  if n = 0 then r
  else
    let n := if n > r.capacity - r.size then r.capacity - r.size else n
    let tail := (r.tail + n) % r.capacity
    { r with tail := tail, full := tail == r.head }

/-- `commit_read` -/
def commitRead (r : RingBuffer T) (n : Nat) : RingBuffer T :=
  if n = 0 then r
  else
    let n := if n > r.size then r.size else n
    { r with head := (r.head + n) % r.capacity, full := false }

/-- Copy `xs` into the two segments of `write_vectored`, the first one first. -/
def fill (r : RingBuffer T) (vec : Iovec × Iovec) (xs : List T) : RingBuffer T :=
  let offset1 := min vec.1.len xs.length
  let offset2 := min vec.2.len (xs.length - offset1)
  let first := writeAt r.buffer vec.1.base (xs.take offset1)
  { r with buffer := writeAt first vec.2.base ((xs.drop offset1).take offset2) }

/-- Returns the ring and the position in the container of the first element that was not stored. -/
def insert (r : RingBuffer T) (container : List T) : RingBuffer T × Nat :=
  let vec := r.writeVectored
  let offset1 := min vec.1.len container.length
  let offset2 := min vec.2.len (container.length - offset1)
  ((r.fill vec container).commitWrite (offset1 + offset2), offset1 + offset2)

/-- `pop_front` -/
def popFront (r : RingBuffer T) : RingBuffer T × Bool :=
  if r.empty then (r, false)
  else ({ r with head := (r.head + 1) % r.capacity, full := false }, true)

/-- `clear` -/
def clear (r : RingBuffer T) : RingBuffer T :=
  { r with head := 0, tail := 0, full := false }

/-- `push_back` -/
def pushBack (r : RingBuffer T) (value : T) : RingBuffer T × Bool × ErrorCode :=
  if r.full then (r, false, some .noBufferSpace)
  else
    let tail := if r.tail = r.capacity - 1 then 0 else r.tail + 1
    let cells := r.buffer.set r.tail value
    ({ r with buffer := cells, tail := tail, full := tail == r.head }, true, none)

/-! ## The invariant -/

/-- What every operation keeps: the indices are inside the storage, and the flag is only set where
    they meet. -/
structure Inv (r : RingBuffer T) : Prop where
  head_lt : r.head < r.capacity
  tail_lt : r.tail < r.capacity
  full_meets : r.full = true → r.head = r.tail

/-- The ring has at most as many elements as cells. -/
lemma Inv.size_le {r : RingBuffer T} (inv : r.Inv) : r.size ≤ r.capacity := by
  have := inv.head_lt
  have := inv.tail_lt
  unfold size
  split
  · omega
  · split <;> omega

/-- The ring is full exactly if every cell has an element. -/
lemma Inv.size_eq_capacity {r : RingBuffer T} (inv : r.Inv) :
    r.size = r.capacity ↔ r.full = true := by
  have := inv.head_lt
  have := inv.tail_lt
  unfold size
  split
  · rename_i isFull
    simp [isFull]
  · rename_i notFull
    simp only [notFull, iff_false, Bool.false_eq_true]
    split <;> omega

/-- The ring is empty exactly if no cell has an element. -/
lemma Inv.size_eq_zero {r : RingBuffer T} (inv : r.Inv) : r.size = 0 ↔ r.empty = true := by
  have := inv.head_lt
  have := inv.tail_lt
  unfold size empty
  cases r.full with
  | true => simp; omega
  | false =>
    simp only [Bool.false_eq_true, if_false, Bool.not_false, Bool.true_and, beq_iff_eq]
    split <;> omega

/-- The first free cell is the one after the stored elements. -/
lemma Inv.tail_eq {r : RingBuffer T} (inv : r.Inv) : r.tail = slot r.head r.capacity r.size := by
  rw [slot_eq inv.head_lt inv.size_le]
  have := inv.head_lt
  have := inv.tail_lt
  have meets := inv.full_meets
  unfold size
  split
  · rename_i isFull
    have := meets isFull
    split <;> omega
  · split <;> split <;> omega

/-- A full ring has no cell to write. -/
lemma writeVectored_full {r : RingBuffer T} (isFull : r.full = true) :
    r.writeVectored = (⟨0, 0⟩, ⟨0, 0⟩) := by
  simp [writeVectored, isFull]

/-- Where the stored elements do not wrap, the free cells do. -/
lemma writeVectored_unwrapped {r : RingBuffer T} (notFull : ¬ r.full = true)
    (le : r.head ≤ r.tail) :
    r.writeVectored = (⟨r.tail, r.capacity - r.tail⟩, ⟨0, r.head⟩) := by
  by_cases pos : 0 < r.head
  · simp [writeVectored, notFull, le, pos]
  · have zero : r.head = 0 := by omega
    simp [writeVectored, notFull, zero]

/-- The free cells are in one part if those to read go round the end. -/
lemma writeVectored_wrapped {r : RingBuffer T} (notFull : ¬ r.full = true)
    (gt : ¬ r.head ≤ r.tail) :
    r.writeVectored = (⟨r.tail, r.head - r.tail⟩, ⟨0, 0⟩) := by
  simp [writeVectored, notFull, gt]

/-- The two segments of `write_vectored` hold as many cells as are free. -/
lemma Inv.writeVectored_len {r : RingBuffer T} (inv : r.Inv) :
    r.writeVectored.1.len + r.writeVectored.2.len = r.capacity - r.size := by
  have := inv.head_lt
  have := inv.tail_lt
  by_cases isFull : r.full = true
  · simp [writeVectored_full isFull, inv.size_eq_capacity.2 isFull]
  · by_cases le : r.head ≤ r.tail
    · simp only [writeVectored_unwrapped isFull le, size, isFull, le]
      simp; omega
    · simp only [writeVectored_wrapped isFull le, size, isFull, le]
      simp; omega

/-- Both parts of the free cells have room for as many as are free. -/
lemma Inv.room_le {r : RingBuffer T} (inv : r.Inv) {n : Nat} :
    min r.writeVectored.1.len n + min r.writeVectored.2.len (n - min r.writeVectored.1.len n) =
      min (r.capacity - r.size) n := by
  have := inv.writeVectored_len
  omega

/-! ## Writing -/

/-- Filling cells keeps their number. -/
@[simp] lemma fill_capacity (r : RingBuffer T) (vec : Iovec × Iovec) (xs : List T) :
    (r.fill vec xs).capacity = r.capacity := by
  simp [fill, capacity]

/-- Filling cells keeps the size. -/
@[simp] lemma fill_size (r : RingBuffer T) (vec : Iovec × Iovec) (xs : List T) :
    (r.fill vec xs).size = r.size := by
  simp [size, fill, capacity]

/-- Filling the free segments puts `xs` after the stored elements and touches no other cell. -/
lemma Inv.fill_cell {r : RingBuffer T} (inv : r.Inv) (xs : List T) {i : Nat}
    (lt : i < r.capacity) :
    (r.fill r.writeVectored xs).buffer[slot r.head r.capacity i]? =
      if r.size ≤ i ∧ i < r.size + min (r.capacity - r.size) xs.length then xs[i - r.size]?
      else r.buffer[slot r.head r.capacity i]? := by
  have head_lt := inv.head_lt
  have tail_lt := inv.tail_lt
  have hs := slot_eq head_lt (Nat.le_of_lt lt)
  have len : r.buffer.length = r.capacity := rfl
  -- nothing is free, or the free cells are around the end of the buffer, or in the middle of it
  by_cases isFull : r.full = true
  · have same := inv.size_eq_capacity.2 isFull
    rw [if_neg (by omega)]
    simp [fill, writeVectored, isFull]
  · by_cases le : r.head ≤ r.tail
    · have size_eq : r.size = r.tail - r.head := by simp [size, isFull, le]
      simp only [RingBuffer.fill, writeVectored_unwrapped isFull le]
      rw [writeAt_getElem? (by simp; omega), writeAt_getElem? (by simp; omega)]
      simp only [List.length_take, List.length_drop, Nat.zero_add, Nat.zero_le, true_and]
      rw [hs, size_eq]
      by_cases small : r.head + i < r.capacity
      · rw [if_pos small, if_neg (by omega)]
        by_cases stored : r.tail ≤ r.head + i ∧ r.head + i < r.tail + xs.length
        · rw [if_pos (by omega), if_pos (by omega), List.getElem?_take_of_lt (by omega)]
          congr 1
          omega
        · rw [if_neg (by omega), if_neg (by omega)]
      · rw [if_neg small]
        by_cases stored : r.head + i - r.capacity + (r.capacity - r.tail) < xs.length
        · rw [if_pos (by omega), if_pos (by omega), List.getElem?_take_of_lt (by omega),
            List.getElem?_drop]
          congr 1
          omega
        · rw [if_neg (by omega), if_neg (by omega), if_neg (by omega)]
    · have size_eq : r.size = r.capacity - r.head + r.tail := by simp [size, isFull, le]
      simp only [RingBuffer.fill, writeVectored_wrapped isFull le, Nat.zero_min, List.take_zero, writeAt_nil]
      rw [writeAt_getElem? (by simp; omega), hs, size_eq]
      simp only [List.length_take]
      by_cases small : r.head + i < r.capacity
      · rw [if_pos small, if_neg (by omega), if_neg (by omega)]
      · rw [if_neg small]
        by_cases stored : r.tail ≤ r.head + i - r.capacity ∧
            r.head + i - r.capacity < r.tail + xs.length
        · rw [if_pos (by omega), if_pos (by omega), List.getElem?_take_of_lt (by omega)]
          congr 1
          omega
        · rw [if_neg (by omega), if_neg (by omega)]

/-- Filling cells keeps the indices in range. -/
lemma Inv.fill {r : RingBuffer T} (inv : r.Inv) (vec : Iovec × Iovec) (xs : List T) :
    (r.fill vec xs).Inv := by
  refine ⟨?_, ?_, ?_⟩
  · rw [fill_capacity]; exact inv.head_lt
  · rw [fill_capacity]; exact inv.tail_lt
  · exact inv.full_meets

/-- Committing keeps the capacity. -/
@[simp] lemma commitWrite_capacity (r : RingBuffer T) (n : Nat) :
    (r.commitWrite n).capacity = r.capacity := by
  unfold commitWrite
  split <;> rfl

/-- Committing writes no cell. -/
@[simp] lemma commitWrite_buffer (r : RingBuffer T) (n : Nat) :
    (r.commitWrite n).buffer = r.buffer := by
  unfold commitWrite
  split <;> rfl

/-- Committing what was written keeps the head. -/
@[simp] lemma commitWrite_head (r : RingBuffer T) (n : Nat) :
    (r.commitWrite n).head = r.head := by
  unfold commitWrite
  split <;> rfl

/-- Committing `n` free cells moves the tail over them. -/
lemma Inv.commitWrite_eq {r : RingBuffer T} (inv : r.Inv) {n : Nat}
    (le : n ≤ r.capacity - r.size) (pos : 0 < n) :
    r.commitWrite n =
      { r with
        tail := slot r.head r.capacity (r.size + n)
        full := slot r.head r.capacity (r.size + n) == r.head } := by
  have next : (r.tail + n) % r.capacity = slot r.head r.capacity (r.size + n) := by
    rw [← slot_slot, ← inv.tail_eq]
    rfl
  unfold commitWrite
  rw [if_neg (by omega)]
  simp only [gt_iff_lt, Nat.not_lt.2 le, if_false, next]

/-- Committing as many as fit adds them to the size. -/
lemma Inv.commitWrite {r : RingBuffer T} (inv : r.Inv) {n : Nat}
    (le : n ≤ r.capacity - r.size) :
    (r.commitWrite n).Inv ∧ (r.commitWrite n).size = r.size + n := by
  have head_lt := inv.head_lt
  have size_le := inv.size_le
  by_cases zero : n = 0
  · subst zero
    simpa [RingBuffer.commitWrite] using inv
  · have hs := slot_eq head_lt (show r.size + n ≤ r.capacity by omega)
    rw [inv.commitWrite_eq le (by omega)]
    refine ⟨⟨head_lt, slot_lt _ (by omega), ?_⟩, ?_⟩
    · intro meets
      exact (beq_iff_eq.1 meets).symm
    · have size_def : ∀ t b, ({ r with tail := t, full := b } : RingBuffer T).size =
          if b then r.capacity else if r.head ≤ t then t - r.head else r.capacity - r.head + t :=
        fun _ _ => rfl
      rw [size_def]
      simp only [beq_iff_eq]
      by_cases small : r.head + (r.size + n) < r.capacity
      · rw [if_pos small] at hs
        rw [hs, if_neg (by omega), if_pos (by omega)]
        omega
      · rw [if_neg small] at hs
        rw [hs]
        by_cases isFull : r.size + n = r.capacity
        · rw [if_pos (by omega), isFull]
        · rw [if_neg (by omega), if_neg (by omega)]
          omega

/-! ## Reading -/

/-- Releasing `n` stored elements moves the head over them. -/
lemma Inv.commitRead {r : RingBuffer T} (inv : r.Inv) {n : Nat} (le : n ≤ r.size) :
    (r.commitRead n).Inv ∧ (r.commitRead n).size = r.size - n ∧
      (r.commitRead n).head = slot r.head r.capacity n ∧
      (r.commitRead n).buffer = r.buffer := by
  have head_lt := inv.head_lt
  have tail_lt := inv.tail_lt
  have size_le := inv.size_le
  have tail_eq := inv.tail_eq
  rw [slot_eq head_lt size_le] at tail_eq
  have hs := slot_eq head_lt (show n ≤ r.capacity by omega)
  by_cases zero : n = 0
  · subst zero
    have same : r.commitRead 0 = r := rfl
    rw [same]
    refine ⟨inv, by omega, ?_, rfl⟩
    rw [hs]
    split <;> omega
  · have e : r.commitRead n = { r with head := slot r.head r.capacity n, full := false } := by
      unfold RingBuffer.commitRead
      rw [if_neg zero]
      simp only [gt_iff_lt, Nat.not_lt.2 le, if_false]
      rfl
    rw [e]
    refine ⟨⟨slot_lt _ (by omega), tail_lt, by simp⟩, ?_, rfl, rfl⟩
    have size_def : ({ r with head := slot r.head r.capacity n, full := false } :
        RingBuffer T).size = if slot r.head r.capacity n ≤ r.tail
          then r.tail - slot r.head r.capacity n
          else r.capacity - slot r.head r.capacity n + r.tail := by
      simp [size, capacity]
    rw [size_def, hs]
    split at tail_eq <;> split <;> split <;> omega

/-- Dropping the first element commits one that is read. -/
lemma Inv.popFront_eq {r : RingBuffer T} (inv : r.Inv) (nonempty : r.empty = false) :
    r.popFront = (r.commitRead 1, true) := by
  have pos : r.size ≠ 0 := by
    intro zero
    simp [inv.size_eq_zero.1 zero] at nonempty
  have clamp : ¬ 1 > r.size := by omega
  simp [popFront, nonempty, RingBuffer.commitRead, clamp]

/-- Pushing an element writes one and commits it. -/
lemma Inv.pushBack_eq {r : RingBuffer T} (inv : r.Inv) (room : r.full = false) (x : T) :
    r.pushBack x = ((r.fill r.writeVectored [x]).commitWrite 1, true, none) := by
  have head_lt := inv.head_lt
  have tail_lt := inv.tail_lt
  have size_ne : r.size ≠ r.capacity := by
    intro e
    simp [inv.size_eq_capacity.1 e] at room
  have size_le := inv.size_le
  have filled : r.fill r.writeVectored [x] = { r with buffer := r.buffer.set r.tail x } := by
    have first : 1 ≤ r.writeVectored.1.len ∧ r.writeVectored.1.base = r.tail := by
      unfold writeVectored
      simp only [room, Bool.false_eq_true, if_false]
      split
      · refine ⟨?_, rfl⟩
        show 1 ≤ r.capacity - r.tail
        omega
      · refine ⟨?_, rfl⟩
        show 1 ≤ r.head - r.tail
        omega
    simp [RingBuffer.fill, Nat.min_eq_right first.1, first.2, writeAt]
  have wrap : (r.tail + 1) % r.capacity = if r.tail = r.capacity - 1 then 0 else r.tail + 1 := by
    split
    · rename_i last
      rw [last, Nat.sub_add_cancel (by omega), Nat.mod_self]
    · exact Nat.mod_eq_of_lt (by omega)
  have kept : (r.fill r.writeVectored [x]).capacity = r.capacity ∧
      (r.fill r.writeVectored [x]).size = r.size := ⟨fill_capacity .., fill_size ..⟩
  have clamp : ¬ 1 > r.capacity - r.size := by omega
  unfold RingBuffer.commitWrite
  rw [kept.1, kept.2, filled]
  simp only [pushBack, room, clamp, wrap, if_false, Nat.one_ne_zero, Bool.false_eq_true]

/-! ## A ring stands for a bounded queue -/

/-- The ring `r` holds the items of the queue `q`, in order and in as many cells. -/
structure Agree (r : RingBuffer T) (q : BoundedQueue T) : Prop where
  inv : r.Inv
  capacity_eq : r.capacity = q.cap
  size_eq : r.size = q.items.length
  dataAt_eq : ∀ i < r.size, r.dataAt i = q.items[i]?

/-- An element is in the slot of its index. -/
lemma dataAt_slot (r : RingBuffer T) (i : Nat) :
    r.dataAt i = r.buffer[slot r.head r.capacity i]? := rfl

/-- The ring has as much room as the queue. -/
lemma Agree.room {r : RingBuffer T} {q : BoundedQueue T} (agr : Agree r q) :
    r.capacity - r.size = q.room := by
  rw [agr.capacity_eq, agr.size_eq]
  rfl

/-- A new ring is an empty queue. -/
lemma Agree.ofCapacity [Inhabited T] {capacity : Nat} (pos : 0 < capacity) (r : RingBuffer T) :
    Agree (r.setCapacity capacity) (.empty capacity) := by
  have cap : (r.setCapacity capacity).capacity = capacity := by
    simp only [setCapacity, RingBuffer.capacity, List.length_append, List.length_take,
      List.length_replicate]
    omega
  refine ⟨⟨?_, ?_, ?_⟩, cap, rfl, ?_⟩
  · rw [cap]; exact pos
  · rw [cap]; exact pos
  · simp [setCapacity]
  · intro i lt
    exact absurd lt (Nat.not_lt_zero i)

/-- A cleared ring is an empty queue. -/
lemma Agree.clear {r : RingBuffer T} {q : BoundedQueue T} (agr : Agree r q) :
    Agree r.clear (.empty q.cap) := by
  have pos : 0 < r.capacity := Nat.lt_of_le_of_lt (Nat.zero_le _) agr.inv.head_lt
  refine ⟨⟨pos, pos, ?_⟩, agr.capacity_eq, rfl, ?_⟩
  · simp [RingBuffer.clear]
  · intro i lt
    exact absurd lt (Nat.not_lt_zero i)

/-- Filling the free segments and committing queues what fits. -/
lemma Agree.write {r : RingBuffer T} {q : BoundedQueue T} (agr : Agree r q) (xs : List T) :
    Agree ((r.fill r.writeVectored xs).commitWrite (min (r.capacity - r.size) xs.length))
      (q.append xs) := by
  have filled := agr.inv.fill r.writeVectored xs
  have le : min (r.capacity - r.size) xs.length ≤
      (r.fill r.writeVectored xs).capacity - (r.fill r.writeVectored xs).size := by
    rw [fill_capacity, fill_size]
    omega
  obtain ⟨inv, size⟩ := filled.commitWrite le
  rw [fill_size] at size
  refine ⟨inv, ?_, ?_, ?_⟩
  · rw [commitWrite_capacity, fill_capacity, agr.capacity_eq]
    rfl
  · rw [size, agr.room, agr.size_eq, BoundedQueue.append_items, List.length_append,
      List.length_take]
  · intro i lt
    rw [size] at lt
    have size_le := agr.inv.size_le
    have cell := agr.inv.fill_cell xs (show i < r.capacity by omega)
    rw [dataAt_slot, commitWrite_buffer, commitWrite_head, commitWrite_capacity, fill_capacity]
    refine cell.trans ?_
    rw [BoundedQueue.append_items]
    by_cases stored : r.size ≤ i
    · rw [if_pos ⟨stored, lt⟩, agr.size_eq, List.getElem?_append_right (by rw [← agr.size_eq]; omega),
        List.getElem?_take_of_lt (by rw [← agr.room, ← agr.size_eq]; omega)]
    · rw [if_neg (by omega), List.getElem?_append_left (by rw [← agr.size_eq]; omega)]
      exact agr.dataAt_eq i (by omega)

/-- Both take as many as fit. -/
lemma Agree.insert {r : RingBuffer T} {q : BoundedQueue T} (agr : Agree r q) (xs : List T) :
    Agree (r.insert xs).1 (q.append xs) := by
  have e : (r.insert xs).1 =
      (r.fill r.writeVectored xs).commitWrite (min (r.capacity - r.size) xs.length) := by
    simp only [RingBuffer.insert, agr.inv.room_le]
  rw [e]
  exact agr.write xs

/-- Both drop the first elements. -/
lemma Agree.commitRead {r : RingBuffer T} {q : BoundedQueue T} (agr : Agree r q) {n : Nat}
    (le : n ≤ r.size) : Agree (r.commitRead n) (q.discard n) := by
  obtain ⟨inv, size, head, buffer⟩ := agr.inv.commitRead le
  have capacity : (r.commitRead n).capacity = r.capacity := by
    rw [RingBuffer.capacity, buffer, RingBuffer.capacity]
  refine ⟨inv, ?_, ?_, ?_⟩
  · rw [capacity, agr.capacity_eq]
    rfl
  · rw [size, agr.size_eq, BoundedQueue.discard_items, List.length_drop]
  · intro i lt
    rw [dataAt_slot, buffer, capacity, head, slot_slot, ← dataAt_slot, BoundedQueue.discard_items,
      List.getElem?_drop]
    exact agr.dataAt_eq (n + i) (by omega)

/-- The ring is empty exactly if the queue is. -/
lemma Agree.empty_iff {r : RingBuffer T} {q : BoundedQueue T} (agr : Agree r q) :
    r.empty = true ↔ q.items = [] := by
  rw [← agr.inv.size_eq_zero, agr.size_eq, List.length_eq_zero_iff]

/-- The ring is full exactly if the queue is. -/
lemma Agree.full_iff {r : RingBuffer T} {q : BoundedQueue T} (agr : Agree r q) :
    r.full = true ↔ q.items.length = q.cap := by
  rw [← agr.inv.size_eq_capacity, agr.size_eq, agr.capacity_eq]

/-- Both drop the first element. -/
lemma Agree.popFront {r : RingBuffer T} {q : BoundedQueue T} (agr : Agree r q) :
    Agree r.popFront.1 (q.discard 1) := by
  cases e : r.empty with
  | true =>
    have none := agr.empty_iff.1 e
    have same : q.discard 1 = q := by
      ext1
      · simp [none]
      · rfl
    simpa [RingBuffer.popFront, e, same] using agr
  | false =>
    rw [agr.inv.popFront_eq e]
    refine agr.commitRead (Nat.one_le_iff_ne_zero.2 fun zero => ?_)
    simp [agr.inv.size_eq_zero.1 zero] at e

/-- Both take an element if it fits. -/
lemma Agree.pushBack {r : RingBuffer T} {q : BoundedQueue T} (agr : Agree r q) (x : T) :
    Agree (r.pushBack x).1 (q.append [x]) := by
  cases e : r.full with
  | true =>
    have full := agr.full_iff.1 e
    have same : q.append [x] = q := by
      ext1
      · simp [BoundedQueue.room, full]
      · rfl
    simpa [RingBuffer.pushBack, e, same] using agr
  | false =>
    have room : 1 ≤ r.capacity - r.size := by
      have := agr.inv.size_le
      have ne : r.size ≠ r.capacity := fun h => by simp [agr.inv.size_eq_capacity.1 h] at e
      omega
    have one : min (r.capacity - r.size) [x].length = 1 := Nat.min_eq_right room
    rw [agr.inv.pushBack_eq e]
    simpa only [one] using agr.write [x]

/-! ## The free cells -/

/-- The cells of the two segments. -/
def cells (vec : Iovec × Iovec) : List Nat :=
  List.range' vec.1.base vec.1.len ++ List.range' vec.2.base vec.2.len

/-- No free cell is given twice. -/
lemma Inv.cells_nodup {r : RingBuffer T} (inv : r.Inv) : (cells r.writeVectored).Nodup := by
  have := inv.head_lt
  have := inv.tail_lt
  refine List.nodup_append.2 ⟨List.nodup_range', List.nodup_range', ?_⟩
  intro a ha b hb
  rw [List.mem_range'_1] at ha hb
  by_cases isFull : r.full = true
  · simp [writeVectored_full isFull] at ha
  · by_cases le : r.head ≤ r.tail
    · simp only [writeVectored_unwrapped isFull le] at ha hb
      omega
    · simp [writeVectored_wrapped isFull le] at hb

/-- The free cells are those that no element is in. -/
lemma Inv.mem_cells {r : RingBuffer T} (inv : r.Inv) (k : Nat) :
    k ∈ cells r.writeVectored ↔
      k < r.capacity ∧ ∀ i < r.size, slot r.head r.capacity i ≠ k := by
  have head_lt := inv.head_lt
  have tail_lt := inv.tail_lt
  have size_le := inv.size_le
  have exposed : k ∈ cells r.writeVectored ↔
      k < r.capacity ∧ ¬ (if r.head + r.size < r.capacity + 1 then r.head ≤ k ∧ k < r.head + r.size
        else r.head ≤ k ∨ k + r.capacity < r.head + r.size) := by
    have full := inv.size_eq_capacity
    have meets := inv.full_meets
    simp only [cells, List.mem_append, List.mem_range'_1]
    by_cases isFull : r.full = true
    · have := meets isFull
      have := full.2 isFull
      simp only [writeVectored_full isFull]
      split <;> omega
    · by_cases le : r.head ≤ r.tail
      · have size_eq : r.size = r.tail - r.head := by simp [size, isFull, le]
        simp only [writeVectored_unwrapped isFull le, size_eq]
        split <;> omega
      · have size_eq : r.size = r.capacity - r.head + r.tail := by simp [size, isFull, le]
        simp only [writeVectored_wrapped isFull le, size_eq]
        split <;> omega
  rw [exposed]
  refine and_congr_right fun hk => ?_
  constructor
  · intro out i hi e
    apply out
    rw [slot_eq head_lt (by omega)] at e
    split at e <;> split <;> omega
  · intro apart taken
    by_cases low : r.head ≤ k
    · refine apart (k - r.head) (by split at taken <;> omega) ?_
      rw [slot_eq head_lt (by omega), if_pos (by omega)]
      omega
    · refine apart (k + r.capacity - r.head) (by split at taken <;> omega) ?_
      rw [slot_eq head_lt (by omega), if_neg (by omega)]
      omega

/-! ## Runs -/

/-- The operations of a run. `write xs` is a `readv` of `xs` into the segments of `write_vectored`,
    followed by `commit_write(xs.size())`. -/
inductive Op (T : Type) where
  | setCapacity (n : Nat)
  | pushBack (value : T)
  | insert (container : List T)
  | popFront
  | clear
  | write (xs : List T)
  | commitRead (n : Nat)

/-- An operation on the ring -/
def step [Inhabited T] (r : RingBuffer T) : Op T → RingBuffer T
  | .setCapacity n => r.setCapacity n
  | .pushBack value => (r.pushBack value).1
  | .insert container => (r.insert container).1
  | .popFront => r.popFront.1
  | .clear => r.clear
  | .write xs => (r.fill r.writeVectored xs).commitWrite xs.length
  | .commitRead n => r.commitRead n

/-- What the caller of an operation has to respect. -/
def Allowed (r : RingBuffer T) : Op T → Prop
  | .setCapacity n => 0 < n
  | .write xs => xs.length ≤ r.writeVectored.1.len + r.writeVectored.2.len
  | .commitRead n => n ≤ r.size
  | _ => True

instance (r : RingBuffer T) : DecidablePred r.Allowed
  | .setCapacity n => inferInstanceAs (Decidable (0 < n))
  | .write xs => inferInstanceAs
      (Decidable (xs.length ≤ r.writeVectored.1.len + r.writeVectored.2.len))
  | .commitRead n => inferInstanceAs (Decidable (n ≤ r.size))
  | .pushBack _ | .insert _ | .popFront | .clear => isTrue trivial

/-- The operations on the queue that a ring stands for. -/
def queueStep (q : BoundedQueue T) : Op T → BoundedQueue T
  | .setCapacity n => .empty n
  | .pushBack value => q.append [value]
  | .insert container => q.append container
  | .popFront => q.discard 1
  | .clear => .empty q.cap
  | .write xs => q.append xs
  | .commitRead n => q.discard n

/-- An allowed operation keeps ring and queue in agreement. -/
lemma Agree.step [Inhabited T] {r : RingBuffer T} {q : BoundedQueue T} (agr : Agree r q)
    {op : Op T} (allowed : r.Allowed op) : Agree (r.step op) (queueStep q op) := by
  cases op with
  | setCapacity n => exact .ofCapacity allowed r
  | pushBack value => exact agr.pushBack value
  | insert container => exact agr.insert container
  | popFront => exact agr.popFront
  | clear => exact agr.clear
  | write xs =>
    have fits : xs.length ≤ r.capacity - r.size := by
      rw [← agr.inv.writeVectored_len]
      exact allowed
    have e := agr.write xs
    rwa [Nat.min_eq_right fits] at e
  | commitRead n => exact agr.commitRead allowed

/-- Allowed operations keep ring and queue in agreement. -/
lemma Agree.run [Inhabited T] {r : RingBuffer T} {q : BoundedQueue T} (agr : Agree r q)
    {ops : List (Op T)} (allowed : Guarded RingBuffer.step Allowed r ops) :
    Agree (Lib.run RingBuffer.step r ops) (Lib.run queueStep q ops) := by
  induction ops generalizing r q with
  | nil => exact agr
  | cons op ops ih => exact ih (agr.step allowed.1) allowed.2

/-- What a caller can observe of a ring that stands for `q`. -/
structure Shows (r : RingBuffer T) (q : BoundedQueue T) : Prop where
  capacity_eq : r.capacity = q.cap
  contents_eq : (List.range r.size).map r.dataAt = q.items.map some
  size_eq : r.size = q.items.length
  full_iff : r.full = true ↔ q.items.length = q.cap
  empty_iff : r.empty = true ↔ q.items = []
  push_fails_iff : ∀ x, (r.pushBack x).2.1 = false ↔ q.items.length = q.cap
  push_fails_keeps : ∀ x, (r.pushBack x).2.1 = false → (r.pushBack x).1 = r
  pop_fails_iff : r.popFront.2 = false ↔ q.items = []
  pop_fails_keeps : r.popFront.2 = false → r.popFront.1 = r
  /-- The iterator that `insert` returns is behind the longest prefix that fits. -/
  insert_stops : ∀ xs, (r.insert xs).2 = min (q.cap - q.items.length) xs.length
  /-- The free cells are those that no element occupies, each exposed once. -/
  free_nodup : (cells r.writeVectored).Nodup
  free_length : (cells r.writeVectored).length = r.capacity - r.size
  mem_free : ∀ k, k ∈ cells r.writeVectored ↔
    k < r.capacity ∧ ∀ i < r.size, (r.head + i) % r.capacity ≠ k

/-- The elements of the ring are those of the queue, in order. -/
lemma Agree.contents_eq {r : RingBuffer T} {q : BoundedQueue T} (agr : Agree r q) :
    (List.range r.size).map r.dataAt = q.items.map some := by
  refine List.ext_getElem (by simp [agr.size_eq]) fun i hi hj => ?_
  have lt : i < r.size := by simpa using hi
  have item : i < q.items.length := by simpa using hj
  simp only [List.getElem_map, List.getElem_range]
  rw [agr.dataAt_eq i lt, List.getElem?_eq_getElem item]

/-- A ring that agrees shows its queue. -/
lemma Agree.shows {r : RingBuffer T} {q : BoundedQueue T} (agr : Agree r q) : Shows r q where
  capacity_eq := agr.capacity_eq
  contents_eq := agr.contents_eq
  size_eq := agr.size_eq
  full_iff := agr.full_iff
  empty_iff := agr.empty_iff
  push_fails_iff x := by
    rw [← agr.full_iff]
    cases e : r.full <;> simp [RingBuffer.pushBack, e]
  push_fails_keeps x := by
    cases e : r.full <;> simp [RingBuffer.pushBack, e]
  pop_fails_iff := by
    rw [← agr.empty_iff]
    cases e : r.empty <;> simp [RingBuffer.popFront, e]
  pop_fails_keeps := by
    cases e : r.empty <;> simp [RingBuffer.popFront, e]
  insert_stops xs := by
    rw [← agr.capacity_eq, ← agr.size_eq]
    exact agr.inv.room_le
  free_nodup := agr.inv.cells_nodup
  free_length := by
    simp only [cells, List.length_append, List.length_range']
    exact agr.inv.writeVectored_len
  mem_free := agr.inv.mem_cells

/-- Whatever is done to a ring, it keeps showing the queue to which the same was done. -/
theorem run_shows_queue [Inhabited T] {capacity : Nat} (pos : 0 < capacity) {ops : List (Op T)}
    (allowed : Guarded step Allowed (ofCapacity capacity) ops) :
    Shows (Lib.run step (ofCapacity capacity) ops)
      (Lib.run queueStep (BoundedQueue.empty capacity) ops) :=
  ((Agree.ofCapacity pos {}).run allowed).shows

/-- A ring of two cells that wraps while it is filled, released and filled again. -/
theorem run_shows_queue_wrapped :
    let ops := [Op.write [1, 2], .commitRead 1, .insert [3, 4], .popFront, .pushBack 5]
    Guarded step Allowed (ofCapacity 2) ops ∧
      Shows (Lib.run step (ofCapacity 2) ops) (Lib.run queueStep (.empty 2) ops) := by
  intro ops
  have allowed : Guarded step Allowed (ofCapacity 2) ops :=
    ⟨by decide, by decide, trivial, trivial, trivial, trivial⟩
  exact ⟨allowed, run_shows_queue (by decide) allowed⟩

end RingBuffer
end OsterLib.Network
