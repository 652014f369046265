import OsterLib.Network.Receive

/-!
# Taking from both ends of a ring, and looking at it

`extract_front` and `extract_back` of `network/buffers/ring_buffer.h` swap an element out of the ring. Neither clears
the flag of a full ring, the head is set to the first cell whatever it was, and in front of the first cell there is no
cell before the tail. So they take what they should exactly where this does not matter (`run_takes_iff`).

`data` and `read_vectored` are two views of what is stored. In every state that any operation leads to, they show it
exactly where the ring is not empty, or has no cells, and where the flag is not left behind by an extraction
(`run_views_iff`).
-/

namespace OsterLib.Network
open OsterLib.Lib

namespace RingBuffer
variable {T : Type}

/-! ## Extraction -/

/-- `extract_front`, with the value that the caller's one is swapped for and what is returned. The `if` that should take
    the head back at the end has an empty statement, so that the head is always set to zero. -/
def extractFront (r : RingBuffer T) (value : T) : Option (RingBuffer T × T × Bool) :=
  if r.empty then some (r, value, false)
  else
    match r.buffer[r.head]? with
    | some x => some ({ r with buffer := r.buffer.set r.head value, head := 0 }, x, true)
    | none => none

/-- `extract_back`. It has no result where it swaps with a cell outside of the storage, as `buffer_[tail_ - 1]` is for a
    tail of zero. -/
def extractBack (r : RingBuffer T) (value : T) : Option (RingBuffer T × T × Bool) :=
  if r.empty then some (r, value, false)
  else if r.tail = 0 then none
  else
    match r.buffer[r.tail - 1]? with
    | some x => some ({ r with buffer := r.buffer.set (r.tail - 1) value, tail := r.tail - 1 }, x, true)
    | none => none

/-- The operations that put elements in and take them out. -/
inductive Call (T : Type) where
  | pushBack (value : T)
  | insert (container : List T)
  | popFront
  | extractFront (value : T)
  | extractBack (value : T)

/-- What a call leaves behind. A ring without cells has none that `push_back` could write to. -/
def call (r : RingBuffer T) : Call T → Option (RingBuffer T)
  | .pushBack value => if !r.full && r.capacity ≤ r.tail then none else some (r.pushBack value).1
  | .insert container => some (r.insert container).1
  | .popFront => some r.popFront.1
  | .extractFront value => (r.extractFront value).map Prod.fst
  | .extractBack value => (r.extractBack value).map Prod.fst

/-- What is stored, from the first element on -/
def contents (r : RingBuffer T) : List T := (List.range r.size).filterMap r.dataAt

/-- The contents of the ring are those of the queue. -/
lemma Agree.contents {r : RingBuffer T} {q : BoundedQueue T} (agr : Agree r q) : r.contents = q.items := by
  have same := congrArg (List.filterMap id) agr.contents_eq
  rw [List.filterMap_map, List.filterMap_map] at same
  unfold RingBuffer.contents
  simpa using same

/-! ## Calls on a queue -/

/-- The calls on the queue that a ring stands for -/
def queueCall (q : BoundedQueue T) : Call T → BoundedQueue T
  | .pushBack value => q.append [value]
  | .insert container => q.append container
  | .popFront => q.discard 1
  | .extractFront _ => q.discard 1
  | .extractBack _ => q.dropLast

/-- A ring, and the queue to which the same was done -/
structure Session (T : Type) where
  ring : RingBuffer T
  queue : BoundedQueue T

namespace Session

/-- There is no state behind an access outside of the storage. -/
def step (s : Option (Session T)) (call : Call T) : Option (Session T) := do
  let s ← s
  let ring ← s.ring.call call
  return { ring, queue := queueCall s.queue call }

/-- An extraction from a ring that is not empty stores the oldest, or the newest, element in the caller's value and
    leaves the others, in order. Then the ring is not full, and has one element less. -/
def TakesRight : Option (Session T) → Call T → Prop
  | some s, .extractFront value => s.ring.empty = false → ∃ r x, s.ring.extractFront value = some (r, x, true) ∧
      s.queue.items = x :: r.contents ∧ r.full = false ∧ r.size + 1 = s.ring.size
  | some s, .extractBack value => s.ring.empty = false → ∃ r x, s.ring.extractBack value = some (r, x, true) ∧
      s.queue.items = r.contents ++ [x] ∧ r.full = false ∧ r.size + 1 = s.ring.size
  | some _, _ => True
  | none, _ => False

/-- The ring is not full, and the head is at the last cell for an extraction from the front, the tail behind a cell for
    one from the back. -/
def Sound : Option (Session T) → Call T → Prop
  | some s, .extractFront _ => s.ring.empty = false → s.ring.full = false ∧ s.ring.head + 1 = s.ring.capacity
  | some s, .extractBack _ => s.ring.empty = false → s.ring.full = false ∧ 0 < s.ring.tail
  | some _, _ => True
  | none, _ => False

end Session

/-- What is stored does not depend on the free cells. -/
lemma Agree.set_free {r : RingBuffer T} {q : BoundedQueue T} (agr : Agree r q) {k : Nat} (value : T)
    (free : ∀ i < r.size, slot r.head r.capacity i ≠ k) : Agree { r with buffer := r.buffer.set k value } q := by
  have capacity : ({ r with buffer := r.buffer.set k value } : RingBuffer T).capacity = r.capacity := List.length_set
  have size : ({ r with buffer := r.buffer.set k value } : RingBuffer T).size = r.size := by
    unfold RingBuffer.size
    rw [capacity]
  refine ⟨⟨?_, ?_, agr.inv.full_meets⟩, capacity.trans agr.capacity_eq, size.trans agr.size_eq, fun i lt => ?_⟩
  · rw [capacity]
    exact agr.inv.head_lt
  · rw [capacity]
    exact agr.inv.tail_lt
  · rw [size] at lt
    rw [dataAt_slot, capacity, ← agr.dataAt_eq i lt, dataAt_slot]
    exact List.getElem?_set_ne (Ne.symm (free i lt))

/-- The newest element is not stored any more where the tail moves back. -/
lemma Agree.dropLast {r : RingBuffer T} {q : BoundedQueue T} (agr : Agree r q) (notFull : r.full = false)
    (some : r.empty = false) (pos : 0 < r.tail) : Agree { r with tail := r.tail - 1 } q.dropLast := by
  have head_lt := agr.inv.head_lt
  have tail_lt := agr.inv.tail_lt
  have apart : r.head ≠ r.tail := fun same => by simp [RingBuffer.empty, notFull, same] at some
  have size : ({ r with tail := r.tail - 1 } : RingBuffer T).size = r.size - 1 := by
    unfold RingBuffer.size RingBuffer.capacity
    simp only [notFull, Bool.false_eq_true, if_false]
    split <;> split <;> omega
  refine ⟨⟨head_lt, ?_, fun full => ?_⟩, agr.capacity_eq, ?_, fun i lt => ?_⟩
  · exact Nat.lt_of_le_of_lt (Nat.sub_le _ _) tail_lt
  · rw [notFull] at full
    cases full
  · rw [size, agr.size_eq, BoundedQueue.dropLast_items, List.length_dropLast]
  · rw [size] at lt
    rw [BoundedQueue.dropLast_items, List.getElem?_dropLast, if_pos (by rw [← agr.size_eq]; exact lt)]
    exact agr.dataAt_eq i (by omega)

/-- A ring that is not empty has an element. -/
lemma Inv.size_pos {r : RingBuffer T} (inv : r.Inv) (some : r.empty = false) : 0 < r.size := by
  apply Nat.pos_of_ne_zero
  intro zero
  rw [inv.size_eq_zero.mp zero] at some
  cases some

/-- What is at the head, and in front of the tail. -/
lemma Inv.extractFront_eq {r : RingBuffer T} (inv : r.Inv) (some : r.empty = false) (value : T) :
    ∃ x, r.buffer[r.head]? = Option.some x ∧ r.extractFront value =
      Option.some ({ r with buffer := r.buffer.set r.head value, head := 0 }, x, true) := by
  have stored : r.buffer[r.head]? = _ := List.getElem?_eq_getElem inv.head_lt
  refine ⟨_, stored, ?_⟩
  unfold RingBuffer.extractFront
  rw [some, stored]
  rfl

/-- The last element is in the cell before the tail. -/
lemma Inv.extractBack_eq {r : RingBuffer T} (inv : r.Inv) (some : r.empty = false) (pos : 0 < r.tail) (value : T) :
    ∃ x, r.buffer[r.tail - 1]? = Option.some x ∧ r.extractBack value =
      Option.some ({ r with buffer := r.buffer.set (r.tail - 1) value, tail := r.tail - 1 }, x, true) := by
  have inside : r.tail - 1 < r.buffer.length := Nat.lt_of_le_of_lt (Nat.sub_le _ _) inv.tail_lt
  have stored : r.buffer[r.tail - 1]? = _ := List.getElem?_eq_getElem inside
  refine ⟨_, stored, ?_⟩
  unfold RingBuffer.extractBack
  rw [some, stored, if_neg Bool.false_ne_true, if_neg (Nat.ne_of_gt pos)]

/-- An extraction from the front at the last cell releases the first element. -/
lemma Agree.extractFront {r : RingBuffer T} {q : BoundedQueue T} (agr : Agree r q) (some : r.empty = false)
    (notFull : r.full = false) (last : r.head + 1 = r.capacity) (value : T) :
    Agree { r with buffer := r.buffer.set r.head value, head := 0 } (q.discard 1) := by
  have pos := agr.inv.size_pos some
  have read : r.commitRead 1 = { r with head := 0, full := false } := by
    have clamp : ¬ 1 > r.size := Nat.not_lt.mpr pos
    unfold RingBuffer.commitRead
    simp only [Nat.one_ne_zero, clamp, if_false, last, Nat.mod_self]
  have released := agr.commitRead (n := 1) pos
  have free : ∀ i < (r.commitRead 1).size, slot (r.commitRead 1).head (r.commitRead 1).capacity i ≠ r.head := by
    intro i lt same
    have size_le := agr.inv.size_le
    have capacity : (r.commitRead 1).capacity = r.capacity := by rw [released.capacity_eq, agr.capacity_eq]; rfl
    have size := (agr.inv.commitRead (n := 1) pos).2.1
    have first : (r.commitRead 1).head = 0 := by rw [read]
    rw [capacity, first, slot, Nat.zero_add, Nat.mod_eq_of_lt (by omega)] at same
    omega
  have kept := released.set_free value free
  rw [read] at kept
  rwa [← notFull] at kept

/-- Both drop the last element. -/
lemma Agree.extractBack {r : RingBuffer T} {q : BoundedQueue T} (agr : Agree r q) (some : r.empty = false)
    (notFull : r.full = false) (pos : 0 < r.tail) (value : T) :
    Agree { r with buffer := r.buffer.set (r.tail - 1) value, tail := r.tail - 1 } q.dropLast := by
  have dropped := agr.dropLast notFull some pos
  apply dropped.set_free value
  intro i lt same
  have head_lt := agr.inv.head_lt
  have tail_lt := agr.inv.tail_lt
  have size_le := dropped.inv.size_le
  have capacity : ({ r with tail := r.tail - 1 } : RingBuffer T).capacity = r.capacity := rfl
  have apart : r.head ≠ r.tail := fun same => by simp [RingBuffer.empty, notFull, same] at some
  have size : ({ r with tail := r.tail - 1 } : RingBuffer T).size =
      if r.head ≤ r.tail - 1 then r.tail - 1 - r.head else r.capacity - r.head + (r.tail - 1) := by
    unfold RingBuffer.size
    rw [notFull]
    rfl
  rw [capacity] at same size_le
  rw [slot_eq head_lt (by omega)] at same
  rw [size] at lt
  split at lt <;> split at same <;> omega

namespace Session

/-- An extraction of the first element is right exactly where it is sound: the tail stays where it was, and the first
    cell is now the head. -/
lemma takesFront_iff {s : Session T} (agr : Agree s.ring s.queue) (value : T) :
    TakesRight (some s) (.extractFront value) ↔ Sound (some s) (.extractFront value) := by
  have head_lt := agr.inv.head_lt
  have tail_lt := agr.inv.tail_lt
  refine forall_congr' fun some => ?_
  obtain ⟨x, stored, extracted⟩ := agr.inv.extractFront_eq some value
  have first : s.queue.items[0]? = Option.some x := by
    rw [← agr.dataAt_eq 0 (agr.inv.size_pos some), dataAt_slot, slot, Nat.add_zero, Nat.mod_eq_of_lt head_lt, stored]
  constructor
  · rintro ⟨r, y, given, items, notFull, size⟩
    rw [extracted] at given
    cases given
    change s.ring.full = false at notFull
    have apart : s.ring.head ≠ s.ring.tail := fun same => by simp [RingBuffer.empty, notFull, same] at some
    refine ⟨notFull, ?_⟩
    unfold RingBuffer.size RingBuffer.capacity at size
    unfold RingBuffer.capacity at head_lt ⊢
    simp only [notFull, Bool.false_eq_true, if_false, Nat.zero_le, if_true, Nat.sub_zero] at size
    split at size <;> omega
  · rintro ⟨notFull, last⟩
    have taken := agr.extractFront some notFull last value
    refine ⟨_, x, extracted, ?_, notFull, ?_⟩
    · obtain ⟨inside, same⟩ := List.getElem?_eq_some_iff.mp first
      rw [taken.contents, BoundedQueue.discard_items, ← same]
      exact List.drop_eq_getElem_cons inside
    · rw [taken.size_eq, agr.size_eq, BoundedQueue.discard_items, List.length_drop]
      have pos := agr.inv.size_pos some
      rw [agr.size_eq] at pos
      omega

/-- An extraction of the last element is right exactly where it is sound. -/
lemma takesBack_iff {s : Session T} (agr : Agree s.ring s.queue) (value : T) :
    TakesRight (some s) (.extractBack value) ↔ Sound (some s) (.extractBack value) := by
  refine forall_congr' fun some => ?_
  constructor
  · rintro ⟨r, y, given, items, notFull, size⟩
    have pos : 0 < s.ring.tail := by
      apply Nat.pos_of_ne_zero
      intro zero
      unfold RingBuffer.extractBack at given
      rw [some, zero] at given
      cases given
    obtain ⟨x, stored, extracted⟩ := agr.inv.extractBack_eq some pos value
    rw [extracted] at given
    cases given
    exact ⟨notFull, pos⟩
  · rintro ⟨notFull, pos⟩
    obtain ⟨x, stored, extracted⟩ := agr.inv.extractBack_eq some pos value
    have taken := agr.extractBack some notFull pos value
    have size := agr.inv.size_pos some
    refine ⟨_, x, extracted, ?_, notFull, ?_⟩
    · have last : s.queue.items.getLast? = Option.some x := by
        rw [List.getLast?_eq_getElem?, ← agr.size_eq, ← agr.dataAt_eq _ (by omega), dataAt_slot, ← stored]
        have head_lt := agr.inv.head_lt
        have tail_lt := agr.inv.tail_lt
        have tail_eq := agr.inv.tail_eq
        have size_le := agr.inv.size_le
        rw [slot_eq head_lt size_le] at tail_eq
        rw [slot_eq head_lt (by omega)]
        congr 1
        split at tail_eq <;> split <;> omega
      rw [taken.contents, BoundedQueue.dropLast_items]
      exact (List.dropLast_append_getLast? x last).symm
    · rw [taken.size_eq, agr.size_eq, BoundedQueue.dropLast_items, List.length_dropLast]
      rw [agr.size_eq] at size
      omega

/-- A call is right exactly where it is sound. -/
lemma takesRight_iff {s : Session T} (agr : Agree s.ring s.queue) (call : Call T) :
    TakesRight (some s) call ↔ Sound (some s) call := by
  cases call with
  | pushBack value => exact Iff.rfl
  | insert container => exact Iff.rfl
  | popFront => exact Iff.rfl
  | extractFront value => exact takesFront_iff agr value
  | extractBack value => exact takesBack_iff agr value

/-- A sound call does the same to the ring as to the queue. -/
lemma call_agree {s : Session T} (agr : Agree s.ring s.queue) {call : Call T} (sound : Sound (some s) call) :
    ∃ ring, s.ring.call call = some ring ∧ Agree ring (queueCall s.queue call) := by
  cases call with
  | pushBack value =>
    have inside : ¬ s.ring.capacity ≤ s.ring.tail := Nat.not_le.mpr agr.inv.tail_lt
    refine ⟨_, ?_, agr.pushBack value⟩
    simp [RingBuffer.call, inside]
  | insert container => exact ⟨_, rfl, agr.insert container⟩
  | popFront => exact ⟨_, rfl, agr.popFront⟩
  | extractFront value =>
    cases none : s.ring.empty with
    | true =>
      have same : s.queue.discard 1 = s.queue := by
        ext1
        · simp [agr.empty_iff.mp none]
        · rfl
      refine ⟨s.ring, ?_, ?_⟩
      · simp [RingBuffer.call, RingBuffer.extractFront, none]
      · rw [queueCall, same]
        exact agr
    | false =>
      obtain ⟨notFull, last⟩ := sound none
      obtain ⟨x, -, extracted⟩ := agr.inv.extractFront_eq none value
      exact ⟨_, congrArg (Option.map Prod.fst) extracted, agr.extractFront none notFull last value⟩
  | extractBack value =>
    cases none : s.ring.empty with
    | true =>
      have same : s.queue.dropLast = s.queue := by
        ext1
        · simp [agr.empty_iff.mp none]
        · rfl
      refine ⟨s.ring, ?_, ?_⟩
      · simp [RingBuffer.call, RingBuffer.extractBack, none]
      · rw [queueCall, same]
        exact agr
    | false =>
      obtain ⟨notFull, pos⟩ := sound none
      obtain ⟨x, -, extracted⟩ := agr.inv.extractBack_eq none pos value
      exact ⟨_, congrArg (Option.map Prod.fst) extracted, agr.extractBack none notFull pos value⟩

/-- A new ring and its queue -/
def start [Inhabited T] (capacity : Nat) : Option (Session T) :=
  some { ring := ofCapacity capacity, queue := .empty capacity }

/-- All extractions of a run are right exactly where all of them are sound. -/
theorem run_takes_iff [Inhabited T] {capacity : Nat} (pos : 0 < capacity) (calls : List (Call T)) :
    Guarded step TakesRight (start capacity) calls ↔ Guarded step Sound (start capacity) calls := by
  apply guarded_iff_guarded (J := fun s : Option (Session T) => ∃ s', s = some s' ∧ Agree s'.ring s'.queue)
  · rintro s call ⟨s, rfl, agr⟩
    exact takesRight_iff agr call
  · rintro s call ⟨s, rfl, agr⟩ sound
    obtain ⟨ring, called, agr'⟩ := call_agree agr sound
    refine ⟨{ ring, queue := queueCall s.queue call }, ?_, agr'⟩
    simp [step, called]
  · exact ⟨_, rfl, .ofCapacity pos {}⟩

/-- An extraction from the last of two cells, and one from the back -/
theorem run_takes_wrapped : Guarded step TakesRight (start 2)
    [.pushBack 1, .popFront, .pushBack 2, .extractFront 0, .pushBack 3, .extractBack 0] := by
  refine (run_takes_iff (by decide) _).mpr ?_
  exact ⟨trivial, trivial, trivial, fun _ => by decide, trivial, fun _ => by decide, trivial⟩

/-- The element that is extracted from the front stays. -/
theorem extractFront_keeps : ¬ ∀ capacity, 0 < capacity → ∀ calls : List (Call Nat),
    Guarded step TakesRight (start capacity) calls := by
  intro right
  obtain ⟨-, takes, -⟩ := right 2 (by decide) [.pushBack 7, .extractFront 0]
  obtain ⟨r, x, given, -, -, size⟩ := takes (by decide)
  cases given
  revert size
  decide

end Session

/-! ## Views -/

/-- All operations. `write` is a `readv` of `xs` into the segments of `write_vectored`, and a `commit_write` of any
    number behind it. -/
inductive Access (T : Type) where
  | call (call : Call T)
  | setCapacity (n : Nat)
  | clear
  | write (xs : List T) (n : Nat)
  | commitRead (n : Nat)

/-- What an operation leaves behind. Both commits divide by the number of the cells. -/
def access [Inhabited T] (r : RingBuffer T) : Access T → Option (RingBuffer T)
  | .call call => r.call call
  | .setCapacity n => some (r.setCapacity n)
  | .clear => some r.clear
  | .write xs n => if n ≠ 0 ∧ r.capacity = 0 then none else some ((r.fill r.writeVectored xs).commitWrite n)
  | .commitRead n => if n ≠ 0 ∧ r.capacity = 0 then none else some (r.commitRead n)

/-- An access to a ring. Behind one that is undefined there is no ring. -/
def accessStep [Inhabited T] (r : Option (RingBuffer T)) (access : Access T) : Option (RingBuffer T) :=
  r.bind fun r => r.access access

/-- Both views show the cells of what is stored, in order. -/
structure ViewsRight (r : RingBuffer T) : Prop where
  data : (r.data.1 ++ r.data.2).map (r.buffer[·]?) = r.contents.map some
  readVectored : (cells r.readVectored).map (r.buffer[·]?) = r.contents.map some
  size : r.contents.length = r.size

/-- The indices are inside the storage, if there is one. The flag may be set where they do not meet. -/
def InRange (r : RingBuffer T) : Prop := r = {} ∨ r.head < r.capacity ∧ r.tail < r.capacity

section views
variable {r r' : RingBuffer T}

/-- A ring whose indices are in range has at most as many elements as cells. -/
lemma InRange.size_le (range : r.InRange) : r.size ≤ r.capacity := by
  rcases range with rfl | ⟨head_lt, tail_lt⟩
  · exact Nat.le_refl _
  · unfold size
    split
    · exact Nat.le_refl _
    · split <;> omega

/-- Every stored element is in a cell. -/
lemma InRange.contents_eq (range : r.InRange) :
    r.contents.map some = (List.range r.size).map fun i => r.buffer[slot r.head r.capacity i]? := by
  have stored : ∀ i ∈ List.range r.size, (r.dataAt i).isSome = true := by
    intro i mem
    have lt := List.mem_range.mp mem
    have size_le := range.size_le
    rw [dataAt_slot, Option.isSome_iff_ne_none, ne_eq, List.getElem?_eq_none_iff, Nat.not_le]
    exact slot_lt i (by omega)
  unfold contents
  generalize List.range r.size = indices at stored ⊢
  induction indices with
  | nil => rfl
  | cons i indices ih =>
    obtain ⟨x, here⟩ := Option.isSome_iff_exists.mp (stored i List.mem_cons_self)
    have later := ih fun j mem => stored j (List.mem_cons_of_mem i mem)
    rw [List.filterMap_cons_some here, List.map_cons, List.map_cons, later, ← here]
    rfl

/-- As many elements are shown as there are. -/
lemma InRange.contents_length (range : r.InRange) : r.contents.length = r.size := by
  have same := congrArg List.length range.contents_eq
  rwa [List.length_map, List.length_map, List.length_range] at same

/-- A ring that is not empty shows the same cells in both views. -/
lemma cells_readVectored (some : r.empty = false) : cells r.readVectored = r.data.1 ++ r.data.2 := by
  unfold cells readVectored data
  rw [some]
  by_cases lt : r.head < r.tail
  · simp [lt]
  · simp [lt, List.range_eq_range']

/-- The two parts of the data have as many elements as are between head and tail. -/
lemma data_length (some : r.empty = false) :
    (r.data.1 ++ r.data.2).length = if r.head < r.tail then r.tail - r.head else r.capacity - r.head + r.tail := by
  unfold data
  rw [some]
  by_cases lt : r.head < r.tail
  · simp [lt]
  · simp [lt]

/-- The views show what is stored exactly where the ring is not empty, or has no cells, and the flag is only set where
    the indices meet. -/
lemma viewsRight_iff (range : r.InRange) :
    ViewsRight r ↔ (r.empty = true → r.capacity = 0) ∧ (r.full = true → r.head = r.tail) := by
  rcases range with rfl | ⟨head_lt, tail_lt⟩
  · exact iff_of_true ⟨rfl, rfl, rfl⟩ ⟨fun _ => rfl, fun _ => rfl⟩
  · have range : r.InRange := .inr ⟨head_lt, tail_lt⟩
    cases some : r.empty with
    | true =>
      -- the whole storage is shown twice
      refine iff_of_false (fun right => ?_) fun empty => ?_
      · have lengths := congrArg List.length right.data
        rw [List.length_map, List.length_map, range.contents_length] at lengths
        unfold data size at lengths
        simp only [empty, Bool.and_eq_true, Bool.not_eq_true', beq_iff_eq] at some
        simp [empty, some] at lengths
        omega
      · exact absurd (empty.1 rfl) (by omega)
    | false =>
      constructor
      · intro right
        refine ⟨fun none => absurd none Bool.false_ne_true, fun full => ?_⟩
        have lengths := congrArg List.length right.data
        rw [List.length_map, List.length_map, range.contents_length, data_length some] at lengths
        unfold size at lengths
        rw [full] at lengths
        simp only [if_true] at lengths
        split at lengths <;> omega
      · rintro ⟨-, meets⟩
        have inv : r.Inv := ⟨head_lt, tail_lt, meets⟩
        have shown : (r.data.1 ++ r.data.2).map (r.buffer[·]?) = r.contents.map Option.some := by
          rw [(inv.data_eq (inv.size_pos some)).1, range.contents_eq, List.map_map]
          rfl
        exact ⟨shown, by rw [cells_readVectored some, shown], range.contents_length⟩

/-! ### The range of the indices -/

/-- Committing what was written keeps the indices in range. -/
lemma InRange.commitWrite (range : r.InRange) {n : Nat} (cells : n ≠ 0 → r.capacity ≠ 0) :
    (r.commitWrite n).InRange := by
  unfold RingBuffer.commitWrite
  by_cases zero : n = 0
  · rwa [if_pos zero]
  · rw [if_neg zero]
    rcases range with rfl | ⟨head_lt, tail_lt⟩
    · exact absurd rfl (cells zero)
    · exact .inr ⟨head_lt, Nat.mod_lt _ (by omega)⟩

/-- Committing what was read keeps the indices in range. -/
lemma InRange.commitRead (range : r.InRange) {n : Nat} (cells : n ≠ 0 → r.capacity ≠ 0) :
    (r.commitRead n).InRange := by
  unfold RingBuffer.commitRead
  by_cases zero : n = 0
  · rwa [if_pos zero]
  · rw [if_neg zero]
    rcases range with rfl | ⟨head_lt, tail_lt⟩
    · exact absurd rfl (cells zero)
    · exact .inr ⟨Nat.mod_lt _ (by omega), tail_lt⟩

/-- Filling the free cells keeps the indices in range. -/
lemma InRange.fill (range : r.InRange) (xs : List T) : (r.fill r.writeVectored xs).InRange := by
  rcases range with rfl | ⟨head_lt, tail_lt⟩
  · exact .inl (by simp [RingBuffer.fill, RingBuffer.writeVectored, RingBuffer.capacity])
  · refine .inr ⟨?_, ?_⟩
    · rw [fill_capacity]
      exact head_lt
    · rw [fill_capacity]
      exact tail_lt

/-- A storage without cells is that of a ring that was never given a capacity. -/
lemma inRange_ofEmpty (none : r.capacity = 0) (head : r.head = 0) (tail : r.tail = 0) (notFull : r.full = false) :
    r.InRange := by
  left
  obtain ⟨buffer, _, _, _⟩ := r
  obtain rfl : buffer = [] := List.length_eq_zero_iff.mp none
  cases head
  cases tail
  cases notFull
  rfl

/-- Pushing an element keeps the indices in range. -/
lemma InRange.pushBack (range : r.InRange) (inside : ¬(!r.full && r.capacity ≤ r.tail) = true) (value : T) :
    (r.pushBack value).1.InRange := by
  unfold RingBuffer.pushBack
  split
  case isTrue full => exact range
  case isFalse notFull =>
    rcases range with rfl | ⟨head_lt, tail_lt⟩
    · exact absurd rfl inside
    · refine .inr ⟨?_, ?_⟩
      · simpa [capacity] using head_lt
      · unfold capacity at *
        dsimp only
        rw [List.length_set]
        split <;> omega

/-- Dropping the first element keeps the indices in range. -/
lemma InRange.popFront (range : r.InRange) : r.popFront.1.InRange := by
  unfold RingBuffer.popFront
  split
  case isTrue => exact range
  case isFalse some =>
    rcases range with rfl | ⟨head_lt, tail_lt⟩
    · exact absurd rfl some
    · exact .inr ⟨Nat.mod_lt _ (by omega), tail_lt⟩

/-- Another element is put into a cell, and the indices stay inside. -/
lemma inRange_set {head tail : Nat} (head_lt : head < r.capacity) (tail_lt : tail < r.capacity) (n : Nat) (value : T) :
    ({ r with buffer := r.buffer.set n value, head := head, tail := tail } : RingBuffer T).InRange := by
  have capacity_eq : (r.buffer.set n value).length = r.capacity := List.length_set
  right
  change head < (r.buffer.set n value).length ∧ tail < (r.buffer.set n value).length
  rw [capacity_eq]
  exact ⟨head_lt, tail_lt⟩

/-- Taking the first element keeps the indices in range. -/
lemma InRange.extractFront (range : r.InRange) {value : T} {taken : T × Bool}
    (given : r.extractFront value = some (r', taken)) : r'.InRange := by
  unfold RingBuffer.extractFront at given
  split at given
  case isTrue =>
    cases given
    exact range
  case isFalse some =>
    rcases range with rfl | ⟨head_lt, tail_lt⟩
    · exact absurd rfl some
    · split at given
      · cases given
        exact inRange_set (by omega) tail_lt _ _
      · cases given

/-- Taking the last element keeps the indices in range. -/
lemma InRange.extractBack (range : r.InRange) {value : T} {taken : T × Bool}
    (given : r.extractBack value = some (r', taken)) : r'.InRange := by
  unfold RingBuffer.extractBack at given
  split at given
  case isTrue =>
    cases given
    exact range
  case isFalse some =>
    rcases range with rfl | ⟨head_lt, tail_lt⟩
    · exact absurd rfl some
    · split at given
      case isTrue => cases given
      case isFalse =>
        split at given
        · cases given
          exact inRange_set head_lt (by omega) _ _
        · cases given

/-- Every call keeps the indices in range. -/
lemma InRange.call (range : r.InRange) {call : Call T} (called : r.call call = some r') : r'.InRange := by
  cases call with
  | pushBack value =>
    unfold RingBuffer.call at called
    dsimp only at called
    split at called
    case isTrue outside => cases called
    case isFalse inside =>
      cases called
      exact range.pushBack inside value
  | insert container =>
    cases called
    apply (range.fill container).commitWrite
    intro some none
    rw [fill_capacity] at none
    rcases range with rfl | ⟨head_lt, tail_lt⟩
    · exact some (by simp [writeVectored, capacity])
    · omega
  | popFront =>
    cases called
    exact range.popFront
  | extractFront value =>
    obtain ⟨⟨_, taken⟩, given, rfl⟩ := Option.map_eq_some_iff.mp called
    exact range.extractFront given
  | extractBack value =>
    obtain ⟨⟨_, taken⟩, given, rfl⟩ := Option.map_eq_some_iff.mp called
    exact range.extractBack given

/-- Every access keeps the indices in range. -/
lemma InRange.access [Inhabited T] (range : r.InRange) {access : Access T} (given : r.access access = some r') :
    r'.InRange := by
  cases access with
  | call call => exact range.call given
  | setCapacity n =>
    cases given
    have capacity : (r.setCapacity n).capacity = n := by
      simp only [RingBuffer.setCapacity, RingBuffer.capacity, List.length_append, List.length_take,
        List.length_replicate]
      omega
    rcases Nat.eq_zero_or_pos n with zero | pos
    · exact inRange_ofEmpty (capacity.trans zero) rfl rfl rfl
    · right
      rw [capacity]
      exact ⟨pos, pos⟩
  | clear =>
    cases given
    rcases range with rfl | ⟨head_lt, tail_lt⟩
    · exact .inl rfl
    · exact .inr ⟨Nat.zero_lt_of_lt head_lt, Nat.zero_lt_of_lt head_lt⟩
  | write xs n =>
    unfold RingBuffer.access at given
    dsimp only at given
    split at given
    case isTrue undefined => cases given
    case isFalse cells =>
      cases given
      apply (range.fill xs).commitWrite
      rw [fill_capacity]
      exact fun some none => cells ⟨some, none⟩
  | commitRead n =>
    unfold RingBuffer.access at given
    dsimp only at given
    split at given
    case isTrue undefined => cases given
    case isFalse cells =>
      cases given
      exact range.commitRead fun some none => cells ⟨some, none⟩

/-- In every state that any operations lead to, the views are right exactly where the ring is not empty, or has no
    cells, and the flag is only set where the indices meet. -/
theorem run_views_iff [Inhabited T] (accesses : List (Access T))
    (reached : Lib.run accessStep (some {}) accesses = some r) :
    ViewsRight r ↔ (r.empty = true → r.capacity = 0) ∧ (r.full = true → r.head = r.tail) := by
  apply viewsRight_iff
  have range : ∀ r, Lib.run accessStep (some ({} : RingBuffer T)) accesses = some r → r.InRange := by
    apply run_of_keep (P := fun s : Option (RingBuffer T) => ∀ r, s = some r → r.InRange)
    · intro s access range r given
      obtain ⟨before, rfl, step⟩ := Option.bind_eq_some_iff.mp given
      exact (range before rfl).access step
    · intro r same
      cases same
      exact .inl rfl
  exact range r reached

/-- Two elements around the end of two cells -/
theorem run_views_wrapped : ViewsRight ({ buffer := [3, 2], head := 1, tail := 1, full := true } : RingBuffer Nat) := by
  have reached : Lib.run accessStep (some ({} : RingBuffer Nat))
      [.setCapacity 2, .write [1, 2] 2, .commitRead 1, .call (.pushBack 3)] =
        some { buffer := [3, 2], head := 1, tail := 1, full := true } := by decide
  refine (run_views_iff _ reached).mpr ⟨?_, ?_⟩
  · decide
  · decide

/-- A new ring shows its storage, twice. -/
theorem data_shows_free : ¬ ∀ (accesses : List (Access Nat)) r,
    Lib.run accessStep (some {}) accesses = some r → ViewsRight r := by
  intro right
  have data := (right [.setCapacity 1] _ rfl).data
  revert data
  decide

end views

end RingBuffer
end OsterLib.Network
