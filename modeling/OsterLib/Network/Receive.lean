import OsterLib.Network.RingBuffer
import OsterLib.Serialization.Fields
import OsterLib.Serialization.Resume

/-!
# The receiving side of a connection

`receive_to_ring_buffer` of `network/receive.cpp` and `__recv_internal__`, `deserialize` and `receive` of
`network/connectionIO.h`. The spans that `data()` of the ring hands to the serializer point into the
storage of the ring: the serializer's cells are indices of that storage, and reading a cell reads what
the storage holds at that time.

An `Exchange` runs calls of `receive` against a peer that has sent the encodings of a list of values. A
call pushes everything that is in the ring, what an earlier call pushed and left unread included, and
releases twice what a number takes. So the values that are returned are those that were sent as long as
every call finds the ring and the serializer drained and gets new bytes (`run_faithful`).
-/

namespace OsterLib.Network
open OsterLib.Lib OsterLib.Serialization
open StreamSerializer (Decoded Fails)

/-- The cells of the two spans of `data`. An empty ring exposes the whole storage, twice. -/
def RingBuffer.data {T : Type} (r : RingBuffer T) : List Nat × List Nat :=
  if r.empty then (List.range r.capacity, List.range r.capacity)
  else if r.head < r.tail then (List.range' r.head (r.tail - r.head), [])
  else (List.range' r.head (r.capacity - r.head), List.range r.tail)

/-- How a `readv` ends: with the bytes that are there, none of them at the end of the stream. -/
inductive ReadOutcome where
  | received (bytes : List Byte)
  | failed (errno : Errc)

/-- What a call of `receive` finds outside of the connection's buffers. -/
structure ReceiveEnv where
  socketValid : Bool
  enableReadable : Bool → ErrorCode → ErrorCode
  outcome : ReadOutcome

/-- `recv_buffer_` and `serializer_` of a `ConnectionIO`. -/
structure Receiver where
  recvBuffer : RingBuffer Byte
  serializer : StreamSerializer Nat := {}

/-- `receive_to_ring_buffer` -/
def receiveToRingBuffer (outcome : ReadOutcome) (buffer : RingBuffer Byte) :
    Int × ErrorCode × RingBuffer Byte :=
  let toRead := buffer.writeVectored
  if toRead.1.len = 0 ∧ toRead.2.len = 0 then (0, some .noBufferSpace, buffer)
  else
    match outcome with
    | .failed .resourceUnavailableTryAgain | .failed .operationInProgress => (0, none, buffer)
    | .failed errno => (0, some errno, buffer)
    | .received [] => (0, some .connectionReset, buffer)
    | .received bytes =>
      let res := min bytes.length (toRead.1.len + toRead.2.len)
      (res, none, (buffer.fill toRead bytes).commitWrite res)

namespace Receiver

/-- `free_space` -/
def freeSpace (c : Receiver) : Nat := c.recvBuffer.capacity - c.recvBuffer.size

/-- `clear_recv_buffer` -/
def clearRecvBuffer (c : Receiver) : Receiver :=
  { recvBuffer := c.recvBuffer.clear, serializer := c.serializer.resetAll }

/-- `recv_buffer_.commit_read` -/
def commitRead (c : Receiver) (n : Nat) : Receiver :=
  { c with recvBuffer := c.recvBuffer.commitRead n }

/-- `recv_buffer_.commit_read(serializer_.flush())` -/
def commitFlushed (c : Receiver) : Receiver :=
  let (dropped, serializer) := c.serializer.flush
  { c with serializer }.commitRead dropped

/-- `__recv_internal__`; the error code is only written. -/
def recvInternal (env : ReceiveEnv) (c : Receiver) : Int × ErrorCode × Receiver :=
  if !env.socketValid then (-1, some .badFileDescriptor, c.clearRecvBuffer)
  else if c.freeSpace = 0 then (0, env.enableReadable false (some .noBufferSpace), c)
  else
    let (res, err, recvBuffer) := receiveToRingBuffer env.outcome c.recvBuffer
    let c := { c with recvBuffer }
    match err with
    | none | some .resourceUnavailableTryAgain | some .operationInProgress => (res, err, c)
    | some .noBufferSpace => (res, env.enableReadable false err, c)
    | some _ => (-1, err, c)

/-- The serializer behind the two calls of `push_view`. -/
def pushed (c : Receiver) : StreamSerializer Nat :=
  (c.serializer.pushView c.recvBuffer.data.1).pushView c.recvBuffer.data.2

/-- The byte that a cell of the storage holds. -/
def load (c : Receiver) (cell : Nat) : Byte := c.recvBuffer.buffer.getD cell 0

/-- `deserialize`, of one value and of several. -/
def deserialize (f : Format) (values : List Item) (c : Receiver) :
    Except Fault (SerializationEC × List Item × Receiver) :=
  match deserializeFields f c.load values c.pushed with
  | .error fault => .error fault
  | .ok (code, values, serializer) =>
    let c := { c with serializer }
    match code, values with
    | .none, [⟨o, value⟩] => .ok (code, values, c.commitRead (o.serialSize value).toNat)
    | .none, _ | .bufferSizeLesser, _ => .ok (code, values, c.commitFlushed)
    | _, _ => .ok (code, values, c.clearRecvBuffer)

end Receiver

/-- What a call of `receive` returns and leaves behind. -/
structure Received where
  ret : Int
  err : ErrorCode
  values : List Item
  connection : Receiver

/-- `ConnectionIO::receive` -/
def receive (f : Format) (env : ReceiveEnv) (values : List Item) (c : Receiver) :
    Except Fault Received :=
  let (ret, err, c) := c.recvInternal env
  if ret = -1 then .ok { ret, err, values, connection := c }
  else
    match c.deserialize f values with
    | .error fault => .error fault
    | .ok (.none, values, c) => .ok { ret, err, values, connection := c.commitFlushed }
    | .ok (.bufferSizeLesser, values, c) =>
      .ok { ret, err := some .resourceUnavailableTryAgain, values, connection := c.commitFlushed }
    | .ok (_, values, c) =>
      .ok { ret := -1, err := some .badMessage, values, connection := c.clearRecvBuffer }

/-! ## What a ring hands over -/

namespace RingBuffer
variable {T : Type}

/-- The spans of a ring that is not empty are its occupied cells in order. -/
lemma Inv.data_eq {r : RingBuffer T} (inv : r.Inv) (some : 0 < r.size) :
    r.data.1 ++ r.data.2 = (List.range r.size).map (slot r.head r.capacity) ∧ r.data.1 ≠ [] := by
  have head_lt := inv.head_lt
  have tail_lt := inv.tail_lt
  have meets := inv.full_meets
  have nonempty : r.empty = false := by
    cases e : r.empty with
    | false => rfl
    | true => exact absurd (inv.size_eq_zero.2 e) (by omega)
  have size_le := inv.size_le
  -- a ring with equal ends is full here, which leaves two cases: the cells are in one piece, or around the end
  have size_eq : r.size = if r.head < r.tail then r.tail - r.head else r.capacity - r.head + r.tail := by
    have apart : r.full = false → r.head ≠ r.tail := fun notFull same => by
      simp [RingBuffer.empty, notFull, same] at nonempty
    unfold size
    by_cases isFull : r.full = true
    · have := meets isFull
      rw [if_pos isFull, if_neg (by omega)]
      omega
    · have := apart (by simpa using isFull)
      rw [if_neg isFull]
      split <;> split <;> omega
  have cell : ∀ i < r.size, slot r.head r.capacity i =
      if r.head + i < r.capacity then r.head + i else r.head + i - r.capacity :=
    fun i lt => slot_eq head_lt (by omega)
  unfold data
  rw [if_neg (by rw [nonempty]; exact Bool.false_ne_true)]
  by_cases lt : r.head < r.tail
  · rw [if_pos lt] at size_eq ⊢
    refine ⟨?_, by rw [← List.length_pos_iff_ne_nil, List.length_range']; omega⟩
    rw [List.append_nil, ← size_eq]
    refine List.ext_getElem (by simp) fun i hi hj => ?_
    have small : i < r.size := by simpa using hi
    rw [List.getElem_range', List.getElem_map, List.getElem_range, cell i small, if_pos (by omega)]
    omega
  · rw [if_neg lt] at size_eq ⊢
    refine ⟨?_, by rw [← List.length_pos_iff_ne_nil, List.length_range']; omega⟩
    refine List.ext_getElem (by simp; omega) fun i hi hj => ?_
    have small : i < r.size := by simpa using hj
    rw [List.getElem_map, List.getElem_range, cell i small]
    by_cases before : i < r.capacity - r.head
    · rw [List.getElem_append_left (by simpa using before), List.getElem_range', if_pos (by omega)]
      omega
    · rw [List.getElem_append_right (by simp; omega), List.getElem_range, List.length_range',
        if_neg (by omega)]
      omega

/-- Read from the storage, they are the queue that the ring stands for. -/
lemma Agree.data {r : RingBuffer T} {q : BoundedQueue T} (agr : Agree r q) (some : q.items ≠ [])
    (default : T) :
    (r.data.1 ++ r.data.2).map (fun cell => r.buffer.getD cell default) = q.items ∧ r.data.1 ≠ [] := by
  have pos : 0 < r.size := by
    rw [agr.size_eq]
    exact List.length_pos_of_ne_nil some
  obtain ⟨cells, first⟩ := agr.inv.data_eq pos
  refine ⟨?_, first⟩
  rw [cells, List.map_map]
  refine List.ext_getElem (by simp [agr.size_eq]) fun i hi hj => ?_
  have lt : i < r.size := by simpa using hi
  have read : r.buffer[slot r.head r.capacity i]? = _ := agr.dataAt_eq i lt
  rw [List.getElem_map, List.getElem_range, Function.comp_apply, List.getD_eq_getElem?_getD, read,
    List.getElem?_eq_getElem hj]
  rfl

/-- An empty ring stands for an empty queue. -/
lemma Inv.agree_empty {r : RingBuffer T} (inv : r.Inv) (none : r.size = 0) :
    Agree r (.empty r.capacity) := by
  refine ⟨inv, rfl, none, fun i lt => ?_⟩
  rw [none] at lt
  exact absurd lt (Nat.not_lt_zero i)

/-- However much is released, the ring stays in order: it clamps to what is stored. -/
lemma Inv.release {r : RingBuffer T} (inv : r.Inv) (n : Nat) :
    (r.commitRead n).Inv ∧ (r.commitRead n).capacity = r.capacity := by
  have pos : 0 < r.capacity := Nat.lt_of_le_of_lt (Nat.zero_le _) inv.head_lt
  unfold RingBuffer.commitRead
  split
  · exact ⟨inv, rfl⟩
  · exact ⟨⟨Nat.mod_lt _ pos, inv.tail_lt, nofun⟩, rfl⟩

end RingBuffer

/-! ## What a serializer is given -/

namespace Receiver
variable {c : Receiver}

/-- A receiver that a decode has left with the serializer `s`, up to what is flushed and released. -/
structure Leaves (capacity : Nat) (s : StreamSerializer Nat) (c : Receiver) : Prop where
  inv : c.recvBuffer.Inv
  capacity_eq : c.recvBuffer.capacity = capacity
  valid : c.serializer.mbv.Valid
  unread : c.serializer.mbv.unread = s.mbv.unread
  level : c.serializer.level = s.level
  registered : c.serializer.registered = s.registered

/-- Committing leaves the serializer as it was. -/
lemma Leaves.commitRead {capacity : Nat} {s : StreamSerializer Nat} (leaves : Leaves capacity s c)
    (n : Nat) : Leaves capacity s (c.commitRead n) :=
  ⟨(leaves.inv.release n).1, (leaves.inv.release n).2.trans leaves.capacity_eq, leaves.valid,
    leaves.unread, leaves.level, leaves.registered⟩

/-- Flushing leaves the serializer as it was, behind what it has read. -/
lemma Leaves.commitFlushed {capacity : Nat} {s : StreamSerializer Nat} (leaves : Leaves capacity s c) :
    Leaves capacity s c.commitFlushed := by
  have flushed := leaves.valid.flush
  have behind : Leaves capacity s { c with serializer := c.serializer.flush.2 } :=
    ⟨leaves.inv, leaves.capacity_eq, flushed.1, flushed.2.trans leaves.unread, leaves.level,
      leaves.registered⟩
  exact behind.commitRead _

/-- A `readv` of bytes into a drained ring: the spans of `data` are these bytes. -/
lemma recvInternal_drained (inv : c.recvBuffer.Inv) (drained : c.recvBuffer.size = 0)
    (env : ReceiveEnv) (valid : env.socketValid = true) {bytes : List Byte}
    (outcome : env.outcome = .received bytes) (some : bytes ≠ [])
    (fits : bytes.length ≤ c.recvBuffer.capacity) :
    ∃ c', c.recvInternal env = ((bytes.length : Int), none, c') ∧ c'.serializer = c.serializer ∧
      c'.recvBuffer.Inv ∧ c'.recvBuffer.capacity = c.recvBuffer.capacity ∧
      (c'.recvBuffer.data.1 ++ c'.recvBuffer.data.2).map c'.load = bytes ∧ c'.recvBuffer.data.1 ≠ [] := by
  have pos : 0 < c.recvBuffer.capacity := Nat.lt_of_le_of_lt (Nat.zero_le _) inv.head_lt
  have room := inv.writeVectored_len
  have agr := (inv.agree_empty drained).write bytes
  rw [drained, Nat.sub_zero, Nat.min_eq_right fits] at agr
  rw [drained, Nat.sub_zero] at room
  have items : ((BoundedQueue.empty c.recvBuffer.capacity).append bytes).items = bytes := by
    rw [BoundedQueue.append_items, BoundedQueue.empty_items, List.nil_append]
    exact List.take_of_length_le fits
  obtain ⟨spans, first⟩ := agr.data (by rw [items]; exact some) (0 : Byte)
  let recvBuffer := (c.recvBuffer.fill c.recvBuffer.writeVectored bytes).commitWrite bytes.length
  refine ⟨{ c with recvBuffer }, ?_, rfl, agr.inv, agr.capacity_eq, spans.trans items, first⟩
  have read : receiveToRingBuffer (.received bytes) c.recvBuffer =
      ((bytes.length : Int), none, recvBuffer) := by
    unfold receiveToRingBuffer
    rw [if_neg (by omega)]
    cases bytes with
    | nil => exact absurd rfl some
    | cons byte bytes =>
      simp only [room, Nat.min_eq_left fits]
      rfl
  unfold recvInternal freeSpace
  rw [if_neg (by rw [valid]; decide), drained, if_neg (by omega), outcome, read]

/-- What is pushed when nothing is left unread from before. -/
lemma pushed_spec (valid : c.serializer.mbv.Valid) (unread : c.serializer.mbv.unread = [])
    (first : c.recvBuffer.data.1 ≠ []) :
    c.pushed.mbv.Valid ∧ c.pushed.mbv.unread = c.recvBuffer.data.1 ++ c.recvBuffer.data.2 ∧
      c.pushed.level = c.serializer.level ∧ c.pushed.registered = c.serializer.registered ∧
      c.pushed.lag = c.serializer.owed := by
  obtain ⟨valid₁, unread₁⟩ := StreamSerializer.pushView_valid valid c.recvBuffer.data.1
  obtain ⟨valid₂, unread₂⟩ := StreamSerializer.pushView_valid valid₁ c.recvBuffer.data.2
  obtain ⟨level₁, registered₁, _⟩ := StreamSerializer.pushView_kept c.serializer c.recvBuffer.data.1
  obtain ⟨level₂, registered₂, _⟩ :=
    StreamSerializer.pushView_kept (c.serializer.pushView c.recvBuffer.data.1) c.recvBuffer.data.2
  refine ⟨valid₂, unread₂.trans ?_, level₂.trans level₁, registered₂.trans registered₁,
    StreamSerializer.pushView_lag first _⟩
  rw [unread₁, unread, List.nil_append]

/-- The values of a call that are all decoded are released, and those of one that finds too few bytes. -/
lemma deserialize_leaves (f : Format) {values : List Item} {code : SerializationEC}
    (known : code = .none ∨ code = .bufferSizeLesser) {decoded : List Item} {s : StreamSerializer Nat}
    (run : deserializeFields f c.load values c.pushed = .ok (code, decoded, s))
    (inv : c.recvBuffer.Inv) (valid : s.mbv.Valid) :
    ∃ c', c.deserialize f values = .ok (code, decoded, c') ∧ Leaves c.recvBuffer.capacity s c' := by
  have leaves : Leaves c.recvBuffer.capacity s { c with serializer := s } :=
    ⟨inv, rfl, valid, rfl, rfl, rfl⟩
  unfold Receiver.deserialize
  rw [run]
  rcases known with rfl | rfl
  · match decoded with
    | [] | _ :: _ :: _ => exact ⟨_, rfl, leaves.commitFlushed⟩
    | [⟨o, value⟩] => exact ⟨_, rfl, leaves.commitRead _⟩
  · exact ⟨_, rfl, leaves.commitFlushed⟩

end Receiver

/-! ## Decoding the values of a call -/

/-- A value that a peer can send. -/
def Sendable (item : Item) : Prop := SerialType.Supported True item.1 ∧ item.1.Valid item.2

/-- The bytes to pass over behind a completed value: only a number leaves those that were there. -/
def lagBehind (o : SerialType) (lag : Nat) : Nat := if o.numeric then lag else 0

/-- The values can be decoded for the first time, one after the other, with `lag` bytes to pass over. -/
def FreshEach : Nat → List Item → Prop
  | _, [] => True
  | lag, ⟨o, _⟩ :: items => Undisturbed lag False o ∧ FreshEach (lagBehind o lag) items

/-- The decode of the first value goes on where it was cut, and the others are decoded for the first
    time; `remaining` is what is left of their encodings. -/
inductive ResumesEach (f : Format) (registered : Nat → List UInt64) (lag : Nat) :
    (items dests : List Item) → (remaining : List Byte) → Prop
  | mk {leftover : Nat} {o : SerialType} {x dest : o.Val} {items : List Item} {remaining : List Byte} :
      Resumes f registered 1 lag leftover o x dest remaining → FreshEach (lagBehind o leftover) items →
      ResumesEach f registered lag (⟨o, x⟩ :: items) (⟨o, dest⟩ :: items.map initial)
        (remaining ++ encodings f items)

section fields
variable {f : Format} {α : Type} {load : α → Byte} {s t : StreamSerializer α} {lag : Nat}

/-- Behind a value it is caught up as far as that value leaves it. -/
lemma caughtUp_lagBehind {o : SerialType} {bytes : List Byte} (read : Decoded o.numeric load bytes s t)
    (top : s.level = 0) (le : t.lag ≤ lag) : CaughtUp (lagBehind o lag) t := by
  unfold CaughtUp lagBehind
  cases number : o.numeric with
  | true => exact le
  | false => exact Nat.le_of_eq (read.top number top)

/-- What a whole encoding is decoded to is equal to the value that was sent. -/
lemma equal_of_copies (symmetric : f.Symmetric) {o : SerialType} {x y : o.Val} (sendable : Sendable ⟨o, x⟩)
    (copy : Copies f 0 False o y x) : Item.Equal ⟨o, y⟩ ⟨o, x⟩ := by
  obtain ⟨z, faithful⟩ := sendable.1.lawful symmetric x sendable.2
  have same : y = z := Decoding.copies_unique copy ⟨faithful.appends, nofun, faithful.decodes⟩
  exact .same (same ▸ faithful.equal trivial)

/-- Values that are decoded for the first time take their encodings. -/
lemma FreshEach.fills (symmetric : f.Symmetric) {items : List Item} (fresh : FreshEach lag items)
    (sendable : ∀ item ∈ items, Sendable item) (ready : s.Ready) (top : s.level = 0)
    (caught : CaughtUp lag s) {rest : List Byte} (left : s.left load = encodings f items ++ rest) :
    Fills f load s items (items.map initial) rest := by
  induction items generalizing s lag with
  | nil => exact ⟨[], s, rfl, .nil, ready, rfl, left⟩
  | cons item items ih =>
    obtain ⟨o, x⟩ := item
    have here := sendable _ List.mem_cons_self
    rw [encodings_cons, List.append_assoc] at left
    obtain ⟨y, copy⟩ := fresh.1.lawful symmetric x here.2
    obtain ⟨t, run, read⟩ := copy.decodes load s _ ready caught left
    have behind := caughtUp_lagBehind read top (read.lag.trans caught)
    have later := ih fresh.2 (fun other mem => sendable other (List.mem_cons_of_mem _ mem)) read.ready
      (read.level.trans top) behind (read.rest left)
    exact .cons run (equal_of_copies symmetric here copy.lower) read.level later

/-- Values that are decoded for the first time notice a cut. -/
lemma FreshEach.runsShort (symmetric : f.Symmetric) {items : List Item} (fresh : FreshEach lag items)
    (sendable : ∀ item ∈ items, Sendable item) (ready : s.Ready) (top : s.level = 0)
    (caught : CaughtUp lag s) {q : List Byte} (missing : q ≠ [])
    (cut : s.left load ++ q = encodings f items) : RunsShort f load s (items.map initial) := by
  induction items generalizing s lag with
  | nil => exact absurd (List.append_eq_nil_iff.1 cut).2 missing
  | cons item items ih =>
    obtain ⟨o, x⟩ := item
    have here := sendable _ List.mem_cons_self
    rcases cut_append cut with ⟨r, short, here'⟩ | ⟨behind, left, cut⟩
    · obtain ⟨y, t, run, fails⟩ :=
        fresh.1.notices symmetric x here.2 load s r ready caught short here'
      exact .first _ run fails
    · obtain ⟨y, copy⟩ := fresh.1.lawful symmetric x here.2
      obtain ⟨t, run, read⟩ := copy.decodes load s _ ready caught left
      rw [← read.rest left] at cut
      have next := caughtUp_lagBehind read top (read.lag.trans caught)
      exact .cons run read.level (ih fresh.2
        (fun other mem => sendable other (List.mem_cons_of_mem _ mem)) read.ready
        (read.level.trans top) next cut)

variable {registered : Nat → List UInt64} {items dests : List Item} {remaining : List Byte}

/-- Values that are resumed take what remains of their encodings. -/
lemma ResumesEach.fills (symmetric : f.Symmetric)
    (resumes : ResumesEach f registered lag items dests remaining)
    (sendable : ∀ item ∈ items, Sendable item) (resuming : Resuming registered 1 lag s)
    {rest : List Byte} (left : s.left load = remaining ++ rest) : Fills f load s items dests rest := by
  obtain ⟨first, fresh⟩ := resumes
  have top : s.level = 0 := Nat.succ.inj resuming.level
  rw [List.append_assoc] at left
  obtain ⟨y, t, run, copy, read, le⟩ := first.completes symmetric load s _ resuming left
  have later := fresh.fills symmetric (fun other mem => sendable other (List.mem_cons_of_mem _ mem))
    read.ready (read.level.trans top) (caughtUp_lagBehind read top le) (read.rest left)
  exact .cons run (equal_of_copies symmetric (sendable _ List.mem_cons_self) copy) read.level later

/-- Values that are resumed notice another cut. -/
lemma ResumesEach.runsShort (symmetric : f.Symmetric)
    (resumes : ResumesEach f registered lag items dests remaining)
    (sendable : ∀ item ∈ items, Sendable item) (resuming : Resuming registered 1 lag s)
    {q : List Byte} (missing : q ≠ []) (cut : s.left load ++ q = remaining) :
    RunsShort f load s dests := by
  obtain ⟨first, fresh⟩ := resumes
  have top : s.level = 0 := Nat.succ.inj resuming.level
  rcases cut_append cut with ⟨r, short, here⟩ | ⟨behind, left, cut⟩
  · obtain ⟨y, t, run, fails⟩ := first.failsAgain symmetric load s r resuming short here
    exact .first _ run fails
  · obtain ⟨y, t, run, copy, read, le⟩ := first.completes symmetric load s _ resuming left
    rw [← read.rest left] at cut
    exact .cons run read.level (fresh.runsShort symmetric
      (fun other mem => sendable other (List.mem_cons_of_mem _ mem)) read.ready (read.level.trans top)
      (caughtUp_lagBehind read top le) missing cut)

/-- With nothing registered, values are resumed from the beginning. -/
lemma FreshEach.resumes {items : List Item} (some : items ≠ []) (fresh : FreshEach lag items)
    (sendable : ∀ item ∈ items, Sendable item) (empty : ∀ l, 1 ≤ l → registered l = []) :
    ResumesEach f registered lag items (items.map initial) (encodings f items) := by
  cases items with
  | nil => exact absurd rfl some
  | cons item items =>
    obtain ⟨o, x⟩ := item
    exact .mk (.fresh fresh.1 (sendable _ List.mem_cons_self).2 empty) fresh.2

end fields

/-! ## What a call of `receive` does -/

section calls
variable {f : Format} {c c' : Receiver} {env : ReceiveEnv} {n : Nat} {values decoded : List Item}
  {s : StreamSerializer Nat}

/-- A receive that decodes its values returns them. -/
lemma receive_decoded (read : c.recvInternal env = ((n : Int), none, c')) (inv : c'.recvBuffer.Inv)
    (run : deserializeFields f c'.load values c'.pushed = .ok (.none, decoded, s))
    (valid : s.mbv.Valid) :
    ∃ connection, receive f env values c = .ok ⟨n, none, decoded, connection⟩ ∧
      Receiver.Leaves c'.recvBuffer.capacity s connection := by
  obtain ⟨c'', done, leaves⟩ := Receiver.deserialize_leaves f (.inl rfl) run inv valid
  refine ⟨c''.commitFlushed, ?_, leaves.commitFlushed⟩
  unfold receive
  rw [read]
  simp only
  rw [if_neg (by omega), done]

/-- A receive of too few bytes tells to try again. -/
lemma receive_short (read : c.recvInternal env = ((n : Int), none, c')) (inv : c'.recvBuffer.Inv)
    (run : deserializeFields f c'.load values c'.pushed = .ok (.bufferSizeLesser, decoded, s))
    (valid : s.mbv.Valid) :
    ∃ connection,
      receive f env values c = .ok ⟨n, some .resourceUnavailableTryAgain, decoded, connection⟩ ∧
      Receiver.Leaves c'.recvBuffer.capacity s connection := by
  obtain ⟨c'', done, leaves⟩ := Receiver.deserialize_leaves f (.inr rfl) run inv valid
  refine ⟨c''.commitFlushed, ?_, leaves.commitFlushed⟩
  unfold receive
  rw [read]
  simp only
  rw [if_neg (by omega), done]

end calls

/-! ## Runs -/

/-- What the socket has for a call: the next bytes of the stream, or an error. -/
inductive Arrival where
  | bytes (n : Nat)
  | failed (errno : Errc)

/-- A call of `receive` for the next `count` values, or the repetition of one. -/
structure Reception where
  socketValid : Bool
  enableReadable : Bool → ErrorCode → ErrorCode
  arrival : Arrival
  count : Nat

/-- A connection to a peer that has sent the encodings of values. -/
structure Exchange where
  connection : Receiver
  /-- What the socket has not handed over yet. -/
  wire : List Byte
  received : List Byte := []
  /-- The values that have not been returned yet. -/
  expected : List Item
  /-- The destinations of a call that reported too few bytes. -/
  pending : List Item := []
  returned : List Item := []
  fault : Option Fault := none

namespace Exchange
variable {f : Format}

/-- A connection, and the encodings of values on their way to it -/
def start (f : Format) (capacity : Nat) (sent : List Item) : Exchange where
  connection := { recvBuffer := .ofCapacity capacity }
  wire := encodings f sent
  expected := sent

/-- The destinations of a call: those of the one before where it is repeated, and otherwise new ones -/
def destinations (x : Exchange) (count : Nat) : List Item :=
  if x.pending.isEmpty then (x.expected.take count).map initial else x.pending

/-- The bytes that the socket hands over in a call, as many as fit. -/
def taken (x : Exchange) (call : Reception) : List Byte :=
  match call.socketValid, call.arrival with
  | true, .bytes n => x.wire.take (min n x.connection.freeSpace)
  | _, _ => []

/-- What a call meets -/
def env (x : Exchange) (call : Reception) : ReceiveEnv where
  socketValid := call.socketValid
  enableReadable := call.enableReadable
  outcome :=
    match call.arrival with
    | .bytes _ => .received (x.taken call)
    | .failed errno => .failed errno

/-- A call. The caller takes the values when no error is reported, and repeats it with the same
    destinations when it is told to try again. -/
def step (f : Format) (x : Exchange) (call : Reception) : Exchange :=
  let values := x.destinations call.count
  if x.fault.isSome || values.isEmpty then x
  else
    let bytes := x.taken call
    let y := { x with wire := x.wire.drop bytes.length, received := x.received ++ bytes }
    match receive f (x.env call) values x.connection with
    | .error fault => { y with fault := some fault }
    | .ok ⟨ret, err, values, connection⟩ =>
      if 0 ≤ ret ∧ err = none then
        { y with
          connection, pending := []
          expected := x.expected.drop values.length, returned := x.returned ++ values }
      else if err = some .resourceUnavailableTryAgain then { y with connection, pending := values }
      else { y with connection }

/-- The returned values are the first ones that were sent, all their bytes have been received, and no
    call ended the program. -/
def Faithful (f : Format) (sent : List Item) (x : Exchange) : Prop :=
  x.fault = none ∧ ∃ matched, matched <+: sent ∧ List.Forall₂ Item.Equal x.returned matched ∧
    encodings f matched <+: x.received

/-- The call finds nothing left over in the ring and in the serializer, and gets new bytes. -/
structure Drained (x : Exchange) (call : Reception) : Prop where
  socketValid : call.socketValid = true
  arrives : x.taken call ≠ []
  ring : x.connection.recvBuffer.size = 0
  view : x.connection.serializer.mbv.unread = []

/-- The `readv` of the call ends at the end of the stream, or with an error that is not ignored. -/
def Refused (x : Exchange) (call : Reception) : Prop :=
  match (x.env call).outcome with
  | .received bytes => bytes = []
  | .failed errno => errno ≠ .resourceUnavailableTryAgain ∧ errno ≠ .operationInProgress ∧
      errno ≠ .noBufferSpace

/-- A call that ends before it decodes, or that is drained and decodes values for the first time or
    resumes. -/
inductive Safe (f : Format) (x : Exchange) (call : Reception) : Prop
  | idle : x.destinations call.count = [] → Safe f x call
  | closed : call.socketValid = false → x.connection.serializer.mbv.unread = [] → Safe f x call
  | refused : call.socketValid = true → x.connection.freeSpace ≠ 0 → x.Refused call → Safe f x call
  | first : x.Drained call → x.pending = [] →
      FreshEach x.connection.serializer.owed (x.expected.take call.count) → Safe f x call
  | again {remaining : List Byte} : x.Drained call →
      ResumesEach f x.connection.serializer.registered x.connection.serializer.owed
        (x.expected.take x.pending.length) x.pending remaining →
      remaining ++ encodings f (x.expected.drop x.pending.length) = x.wire → Safe f x call

/-- What every safe call keeps. -/
structure Sound (f : Format) (sent : List Item) (x : Exchange) : Prop where
  fault : x.fault = none
  inv : x.connection.recvBuffer.Inv
  valid : x.connection.serializer.mbv.Valid
  level : x.connection.serializer.level = 0
  stream : x.received ++ x.wire = encodings f sent
  split : ∃ matched, matched ++ x.expected = sent ∧ List.Forall₂ Item.Equal x.returned matched ∧
    encodings f matched <+: x.received
  fresh : x.pending = [] → x.connection.serializer.Ready ∧
    (x.connection.serializer.mbv.unread = [] → x.wire = encodings f x.expected)

/-- What is sound is faithful. -/
lemma Sound.faithful {sent : List Item} {x : Exchange} (sound : Sound f sent x) : Faithful f sent x := by
  obtain ⟨matched, all, equal, arrived⟩ := sound.split
  exact ⟨sound.fault, matched, ⟨_, all⟩, equal, arrived⟩

/-- A new exchange is sound. -/
lemma sound_start (f : Format) {capacity : Nat} (pos : 0 < capacity) (sent : List Item) :
    Sound f sent (start f capacity sent) where
  fault := rfl
  inv := (RingBuffer.Agree.ofCapacity pos {}).inv
  valid := MultiBufferView.valid_empty
  level := rfl
  stream := rfl
  split := ⟨[], rfl, .nil, List.nil_prefix⟩
  fresh _ := ⟨⟨MultiBufferView.valid_empty, fun _ _ => rfl⟩, fun _ => rfl⟩

/-- What is taken is the front of the wire. -/
lemma taken_append (x : Exchange) (call : Reception) :
    x.taken call ++ x.wire.drop (x.taken call).length = x.wire := by
  have front : x.taken call <+: x.wire := by
    unfold taken
    split
    · exact List.take_prefix _ _
    · exact List.nil_prefix
  obtain ⟨rest, whole⟩ := front
  conv_lhs => rw [← whole]
  rw [List.drop_left, whole]

/-- No more is taken than fits. -/
lemma taken_fits (x : Exchange) (call : Reception) :
    (x.taken call).length ≤ x.connection.recvBuffer.capacity := by
  unfold taken
  split
  · rw [List.length_take, Receiver.freeSpace]
    omega
  · exact Nat.zero_le _

/-- A drained call receives what it takes. -/
lemma Drained.outcome {x : Exchange} {call : Reception} (drained : x.Drained call) :
    (x.env call).outcome = .received (x.taken call) := by
  have arrives := drained.arrives
  unfold env
  cases arrival : call.arrival with
  | bytes n => rfl
  | failed errno =>
    refine absurd ?_ arrives
    unfold taken
    rw [arrival]
    cases call.socketValid <;> rfl

/-- A call that ends with values: what it changes. -/
lemma step_of_receive {x : Exchange} {call : Reception} (alive : x.fault = none)
    (some : x.destinations call.count ≠ []) {ret : Int} {err : ErrorCode} {values : List Item}
    {connection : Receiver} (run : receive f (x.env call) (x.destinations call.count) x.connection =
      .ok ⟨ret, err, values, connection⟩) :
    x.step f call =
      let y := { x with
        connection, wire := x.wire.drop (x.taken call).length, received := x.received ++ x.taken call }
      if 0 ≤ ret ∧ err = none then
        { y with
          pending := []
          expected := x.expected.drop values.length, returned := x.returned ++ values }
      else if err = Option.some .resourceUnavailableTryAgain then { y with pending := values }
      else y := by
  have asked : (x.fault.isSome || (x.destinations call.count).isEmpty) = false := by
    rw [alive, Option.isSome_none, Bool.false_or, List.isEmpty_eq_false_iff]
    exact some
  unfold step
  simp only [asked, run, Bool.false_eq_true, if_false]

/-- A drained call that resumes returns the values, or is to be repeated. -/
lemma Sound.drained (symmetric : f.Symmetric) {sent : List Item}
    (sendable : ∀ item ∈ sent, Sendable item) {x : Exchange} (sound : Sound f sent x)
    {call : Reception} (drained : x.Drained call) {items rest : List Item}
    (expected : x.expected = items ++ rest) {remaining : List Byte}
    (resumes : ResumesEach f x.connection.serializer.registered x.connection.serializer.owed items
      (x.destinations call.count) remaining)
    (cut : remaining ++ encodings f rest = x.wire) : Sound f sent (x.step f call) := by
  obtain ⟨c, read, serializer, inv, _, spans, first⟩ := Receiver.recvInternal_drained sound.inv
    drained.ring (x.env call) drained.socketValid drained.outcome drained.arrives
    (x.taken_fits call)
  obtain ⟨valid, unread, level, registered, lag⟩ :=
    Receiver.pushed_spec (c := c) (serializer ▸ sound.valid) (serializer ▸ drained.view) first
  rw [serializer] at level registered lag
  have resuming : Resuming x.connection.serializer.registered 1 x.connection.serializer.owed c.pushed :=
    ⟨by rw [level, sound.level], lag, valid, fun l _ => by rw [registered]⟩
  have left : c.pushed.left c.load = x.taken call := by
    rw [StreamSerializer.left, unread, spans]
  obtain ⟨matched, all, equal, arrived⟩ := sound.split
  have known : ∀ item ∈ items, Sendable item := fun item mem => sendable item (by
    rw [← all, expected]
    exact List.mem_append_right _ (List.mem_append_left _ mem))
  have stream : x.received ++ x.taken call ++ x.wire.drop (x.taken call).length = encodings f sent := by
    rw [List.append_assoc, taken_append, sound.stream]
  have some : x.destinations call.count ≠ [] := by
    generalize x.destinations call.count = dests at resumes
    obtain ⟨_, _⟩ := resumes
    exact List.cons_ne_nil _ _
  -- the bytes that arrive end either inside what the call still needs, or behind it
  rcases cut_append ((taken_append x call).trans cut.symm) with ⟨r, short, here⟩ | ⟨behind, whole, later⟩
  · rw [← left] at here
    obtain ⟨values, s, run, nonempty, valid', level'⟩ := resumes.runsShort symmetric known resuming short here
    obtain ⟨connection, done, leaves⟩ := receive_short read inv run valid'
    rw [step_of_receive sound.fault some done]
    simp only [reduceCtorEq, and_false, if_false, if_true]
    exact ⟨sound.fault, leaves.inv, leaves.valid, leaves.level.trans (level'.trans (level.trans sound.level)),
      stream, ⟨matched, all, equal, arrived.trans (List.prefix_append _ _)⟩, fun none => absurd none nonempty⟩
  · obtain ⟨values, s, run, equals, ready, level', behind'⟩ :=
      resumes.fills symmetric known resuming (left.trans whole)
    obtain ⟨connection, done, leaves⟩ := receive_decoded read inv run ready.valid
    rw [step_of_receive sound.fault some done]
    simp only [Int.natCast_nonneg, and_self, if_true]
    have dropped : x.expected.drop values.length = rest := by
      rw [expected, equals.length_eq, List.drop_left]
    -- what has been received, with what remains, is what the matched values are encoded to
    have upTo : x.received ++ remaining = encodings f (matched ++ items) := by
      have total := sound.stream
      rw [← cut, ← all, expected, ← List.append_assoc, ← List.append_assoc, encodings_append _ _ rest] at total
      exact List.append_cancel_right total
    refine ⟨sound.fault, leaves.inv, leaves.valid,
      leaves.level.trans (level'.trans (level.trans sound.level)), stream, ⟨matched ++ items, ?_,
        List.rel_append equal equals, ?_⟩, fun _ => ⟨⟨leaves.valid, ?_⟩, fun none => ?_⟩⟩
    · show matched ++ items ++ x.expected.drop values.length = sent
      rw [dropped, List.append_assoc, ← expected, all]
    · show encodings f (matched ++ items) <+: x.received ++ x.taken call
      rw [← upTo, whole, ← List.append_assoc]
      exact List.prefix_append _ _
    · intro l lt
      have above := ready.above l
      rw [leaves.level] at lt
      rw [leaves.registered]
      exact above lt
    · have nothing : behind = [] := by
        have unread' : s.mbv.unread = [] := leaves.unread.symm.trans none
        rw [← behind', StreamSerializer.left, unread', List.map_nil]
      show x.wire.drop (x.taken call).length = encodings f (x.expected.drop values.length)
      rw [dropped, ← later, nothing, List.nil_append]

/-- A call that is refused leaves the connection as it is. -/
lemma recvInternal_refused {x : Exchange} (inv : x.connection.recvBuffer.Inv) {call : Reception}
    (valid : call.socketValid = true) (room : x.connection.freeSpace ≠ 0) (refused : x.Refused call) :
    x.taken call = [] ∧ ∃ err, err ≠ some .resourceUnavailableTryAgain ∧
      x.connection.recvInternal (x.env call) = (-1, err, x.connection) := by
  have len := inv.writeVectored_len
  have opened : ¬ (x.connection.recvBuffer.writeVectored.1.len = 0 ∧
      x.connection.recvBuffer.writeVectored.2.len = 0) := by
    unfold Receiver.freeSpace at room
    omega
  unfold Refused at refused
  unfold Receiver.recvInternal receiveToRingBuffer
  rw [if_neg (show ¬ (!(x.env call).socketValid) = true by rw [show (x.env call).socketValid = _ from valid]; decide),
    if_neg room, if_neg opened]
  cases arrival : call.arrival with
  | bytes n =>
    have outcome : (x.env call).outcome = .received (x.taken call) := by
      unfold env
      rw [arrival]
    rw [outcome] at refused ⊢
    have none : x.taken call = [] := refused
    rw [none]
    exact ⟨rfl, some .connectionReset, by decide, rfl⟩
  | failed errno =>
    have outcome : (x.env call).outcome = .failed errno := by
      unfold env
      rw [arrival]
    have none : x.taken call = [] := by
      unfold taken
      rw [arrival]
      cases call.socketValid <;> rfl
    rw [outcome] at refused ⊢
    obtain ⟨again, progress, space⟩ := refused
    refine ⟨none, some errno, fun same => again (Option.some.inj same), ?_⟩
    cases errno with
    | resourceUnavailableTryAgain => exact absurd rfl again
    | operationInProgress => exact absurd rfl progress
    | noBufferSpace => exact absurd rfl space
    | _ => rfl

/-- A call that fails before it decodes keeps everything but the connection. -/
lemma Sound.stopped {sent : List Item} {x : Exchange} (sound : Sound f sent x) {call : Reception}
    (some : x.destinations call.count ≠ []) (none : x.taken call = []) {err : ErrorCode}
    (other : err ≠ Option.some .resourceUnavailableTryAgain) {c : Receiver}
    (read : x.connection.recvInternal (x.env call) = (-1, err, c)) :
    x.step f call = { x with connection := c } := by
  have run : receive f (x.env call) (x.destinations call.count) x.connection =
      .ok ⟨-1, err, x.destinations call.count, c⟩ := by
    unfold receive
    rw [read]
    rfl
  rw [step_of_receive sound.fault some run, none]
  simp only [List.length_nil, List.drop_zero, List.append_nil, other, if_false]
  rw [if_neg (by omega)]

/-- A safe call keeps an exchange sound. -/
lemma Sound.step (symmetric : f.Symmetric) {sent : List Item}
    (sendable : ∀ item ∈ sent, Sendable item) {x : Exchange} (sound : Sound f sent x)
    {call : Reception} (safe : Safe f x call) : Sound f sent (x.step f call) := by
  by_cases none : x.destinations call.count = []
  · have same : x.step f call = x := by
      unfold Exchange.step
      simp only [none, List.isEmpty_nil, Bool.or_true, if_true]
    rw [same]
    exact sound
  cases safe with
  | idle nothing => exact absurd nothing none
  | closed invalid unread =>
    have read : x.connection.recvInternal (x.env call) =
        (-1, some .badFileDescriptor, x.connection.clearRecvBuffer) := by
      unfold Receiver.recvInternal
      rw [if_pos (by rw [show (x.env call).socketValid = _ from invalid]; rfl)]
    have untouched : x.taken call = [] := by
      unfold taken
      rw [invalid]
    rw [sound.stopped none untouched (by decide) read]
    -- the buffer is cleared, and nothing was unread in it
    have pos : 0 < x.connection.recvBuffer.capacity := Nat.lt_of_le_of_lt (Nat.zero_le _) sound.inv.head_lt
    refine ⟨sound.fault, ⟨pos, pos, nofun⟩, MultiBufferView.valid_empty, sound.level, sound.stream,
      sound.split, fun first => ⟨⟨MultiBufferView.valid_empty, fun _ _ => rfl⟩, fun _ => ?_⟩⟩
    exact (sound.fresh first).2 unread
  | refused valid room refused =>
    obtain ⟨untouched, err, other, read⟩ := recvInternal_refused sound.inv valid room refused
    rw [sound.stopped none untouched other read]
    exact sound
  -- no call was cut short before, so that the destinations are the initial values of what comes next
  | first drained first fresh =>
    obtain ⟨ready, all⟩ := sound.fresh first
    have asked : x.destinations call.count = (x.expected.take call.count).map initial := by
      unfold destinations
      rw [first, List.isEmpty_nil, if_pos rfl]
    have items : x.expected.take call.count ≠ [] := by
      intro nothing
      rw [asked, nothing] at none
      exact none rfl
    obtain ⟨matched, whole, _⟩ := sound.split
    have resumes := fresh.resumes (f := f) items
      (fun item mem => sendable item (by
        rw [← whole]
        exact List.mem_append_right _ (List.mem_of_mem_take mem)))
      (fun l le => ready.above l (by rw [sound.level]; exact le))
    refine sound.drained symmetric sendable drained (List.take_append_drop call.count _).symm
      (asked ▸ resumes) ?_
    rw [← encodings_append, List.take_append_drop, all drained.view]
  | again drained resumes cut =>
    have asked : x.destinations call.count = x.pending := by
      unfold destinations
      rw [if_neg]
      intro nothing
      rw [List.isEmpty_iff.1 nothing] at resumes
      nomatch resumes
    exact sound.drained symmetric sendable drained (List.take_append_drop x.pending.length _).symm
      (asked ▸ resumes) cut

/-- In a run whose calls are safe, the values that are returned are those that were sent. -/
theorem run_faithful (littleEndian : Bool) {capacity : Nat} (pos : 0 < capacity) {sent : List Item}
    (sendable : ∀ item ∈ sent, Sendable item) (calls : List Reception)
    (safe : Guarded (step ⟨true, littleEndian⟩) (Safe ⟨true, littleEndian⟩)
      (start ⟨true, littleEndian⟩ capacity sent) calls) :
    Always (step ⟨true, littleEndian⟩) (Faithful ⟨true, littleEndian⟩ sent)
      (start ⟨true, littleEndian⟩ capacity sent) calls := by
  have sound := always_of_guarded (P := Sound ⟨true, littleEndian⟩ sent)
    (fun x call sound safe => sound.step (.inr rfl) sendable safe)
    (sound_start ⟨true, littleEndian⟩ pos sent) safe
  exact sound.imp fun _ => Sound.faithful

/-- A call for the next value that is handed `n` bytes. -/
def reading (n : Nat) : Reception := ⟨true, fun _ err => err, .bytes n, 1⟩

/-- An optional number. -/
def present : Item := ⟨SerialType.optional (SerialType.word 2), some (0x0102 : BitVec 16)⟩

/-- The optional, cut behind its flag. -/
theorem run_faithful_resumed :
    Always (step ⟨true, true⟩) (Faithful ⟨true, true⟩ [present]) (start ⟨true, true⟩ 4 [present])
      [reading 1, reading 2] := by
  have two : Undisturbed 0 False (SerialType.word 2) := .word (.inr (.inl rfl))
  have sendable : ∀ item ∈ [present], Sendable item := by
    intro item mem
    obtain rfl := List.mem_singleton.1 mem
    exact ⟨.optional (.word (.inr (.inl rfl))), fun _ _ => trivial⟩
  have nothing : (start ⟨true, true⟩ 4 [present]).connection.serializer.owed = 0 := by decide
  have first : Safe ⟨true, true⟩ (start ⟨true, true⟩ 4 [present]) (reading 1) := by
    refine .first ⟨rfl, by decide, rfl, rfl⟩ rfl ?_
    rw [nothing]
    exact ⟨.optional (by decide) two, trivial⟩
  refine run_faithful true (by decide) sendable _ ⟨first, ?_, trivial⟩
  generalize reached : step ⟨true, true⟩ (start ⟨true, true⟩ 4 [present]) (reading 1) = x
  have pending : x.pending = [⟨SerialType.optional (SerialType.word 2), some (0 : BitVec 16)⟩] :=
    reached ▸ rfl
  have expected : x.expected = [present] := reached ▸ rfl
  have registered : x.connection.serializer.registered = fun _ => [] := reached ▸ rfl
  have owed : x.connection.serializer.owed = 1 + 0 := reached ▸ rfl
  have wire : x.wire = (SerialType.word 2).encode ⟨true, true⟩ (0x0102 : BitVec 16) := reached ▸ rfl
  have drained : x.Drained (reading 2) :=
    ⟨rfl, by rw [← reached]; decide, reached ▸ rfl, reached ▸ rfl⟩
  have resumes : ResumesEach ⟨true, true⟩ (fun _ => []) (1 + 0) [present]
      [⟨SerialType.optional (SerialType.word 2), some (0 : BitVec 16)⟩]
      ((SerialType.word 2).encode ⟨true, true⟩ (0x0102 : BitVec 16) ++ encodings ⟨true, true⟩ []) :=
    .mk (.optional (.fresh two trivial fun _ _ => rfl)) trivial
  refine .again drained (by rw [pending, expected, registered, owed]; exact resumes) ?_
  rw [pending, expected, wire]
  show (_ ++ []) ++ [] = _
  rw [List.append_nil, List.append_nil]

/-- A number of two bytes, cut in the middle: the first byte stays in the ring and in the serializer, is
    pushed again with the second one, and is taken for both. -/
theorem cut_number_unfaithful :
    ¬ ∀ (littleEndian : Bool) (capacity : Nat) (sent : List Item) (calls : List Reception),
      0 < capacity → (∀ item ∈ sent, Sendable item) →
      (∀ call ∈ calls, call.socketValid = true ∧ ∃ n, 0 < n ∧ call.arrival = .bytes n) →
      Always (step ⟨true, littleEndian⟩) (Faithful ⟨true, littleEndian⟩ sent)
        (start ⟨true, littleEndian⟩ capacity sent) calls := by
  intro all
  let sent : List Item := [⟨SerialType.word 2, (0x0102 : BitVec 16)⟩]
  have sendable : ∀ item ∈ sent, Sendable item := by
    intro item mem
    obtain rfl := List.mem_singleton.1 mem
    exact ⟨.word (.inr (.inl rfl)), trivial⟩
  have reads : ∀ call ∈ [reading 1, reading 1],
      call.socketValid = true ∧ ∃ n, 0 < n ∧ call.arrival = .bytes n := by
    intro call mem
    have same : call = reading 1 := by simpa using mem
    exact ⟨same ▸ rfl, 1, by decide, same ▸ rfl⟩
  have last := (all true 4 sent [reading 1, reading 1] (by decide) sendable reads).last
  have returned : encodings ⟨true, true⟩
      (run (step ⟨true, true⟩) (start ⟨true, true⟩ 4 sent) [reading 1, reading 1]).returned = [1, 1] := by
    decide
  generalize run (step ⟨true, true⟩) (start ⟨true, true⟩ 4 sent) [reading 1, reading 1] = x at last returned
  obtain ⟨_, matched, ⟨rest, whole⟩, equal, _⟩ := last
  cases equal' : x.returned with
  | nil =>
    rw [equal'] at returned
    exact absurd returned (by decide)
  | cons value values =>
    rw [equal'] at equal returned
    cases equal with
    | cons same others =>
      obtain ⟨rfl, none⟩ := List.cons.inj whole
      obtain rfl := (List.append_eq_nil_iff.1 none).1
      cases others
      cases same with
      | @same _ a _ value =>
        obtain rfl : a = (0x0102 : BitVec 16) := value
        exact absurd returned (by decide)

end Exchange
end OsterLib.Network
