import OsterLib.Lib.Run
import OsterLib.Network.VectorizedBuffer

/-!
# The send buffer as a queue of bytes

A run of `push_buffer`, `serialize`, `consume`, `compact` and `clear_buffer` against the queue of bytes that the buffer
is for. The index of the active segment is a `uint32_t`, so that `consumeWhile`, the loop of `consume` as it is, goes
back to the first segment when it passes the one with the greatest index. What it does is what `consume` of the model
says unless that happens (`Whole.consumeWrapping_eq`); when it happens, bytes that are sent are pending again
(`Whole.consumeWrapping_wraps`). A run keeps to the queue exactly as long as no call wraps the index (`run_queue_iff`).
-/

namespace OsterLib.Network
open OsterLib.Lib OsterLib.Serialization

namespace VectorizedBuffer

/-- The number of values of `active_el_` -/
def indexSize : Nat := 2 ^ 32

/-- The loop of `consume`, of at most so many rounds; `none` where it is not over by then. -/
def consumeWhile : Nat → VectorizedBuffer → Nat → Option VectorizedBuffer
  | 0, _, _ => none
  | rounds + 1, b, bytesSent =>
    if bytesSent = 0 then some b
    else
      match b.vbuf[b.active]? with
      | none => some b
      | some current =>
        if bytesSent ≥ current.len then
          consumeWhile rounds { b with active := (b.active + 1) % indexSize } (bytesSent - current.len)
        else
          let rest : Iovec := ⟨current.base + bytesSent, current.len - bytesSent⟩
          consumeWhile rounds { b with vbuf := b.vbuf.set b.active rest } 0

/-- `consume` with an index of 32 bits. A round takes a byte, and two more see that nothing is left. -/
def consumeWrapping (b : VectorizedBuffer) (bytesSent : Nat) : Option VectorizedBuffer :=
  consumeWhile (bytesSent + 2) b bytesSent

/-- The sum of the lengths of some segments -/
def size (segments : List Iovec) : Nat := (segments.map Iovec.len).sum

/-- `consume` passes the segment with the greatest index. -/
def Wraps (b : VectorizedBuffer) (bytesSent : Nat) : Prop :=
  indexSize ≤ b.vbuf.length ∧ size ((b.vbuf.drop b.active).take (indexSize - b.active)) ≤ bytesSent

/-- All segments are non-empty suffixes of their messages, the passed ones, too. -/
structure Whole (b : VectorizedBuffer) : Prop where
  lengths : b.vbuf.length = b.bufs.length
  active_le : b.active ≤ b.vbuf.length
  active_lt : b.active < indexSize
  fits : ∀ (index : Nat) (segment : Iovec) (message : List Byte),
    b.vbuf[index]? = some segment → b.bufs[index]? = some message → Fits (segment, message)

/-- The first part adds its length. -/
lemma size_cons (segment : Iovec) (segments : List Iovec) : size (segment :: segments) = segment.len + size segments :=
  List.sum_cons

/-- A whole buffer is in order. -/
lemma Whole.inv {b : VectorizedBuffer} (whole : b.Whole) : b.Inv := by
  refine ⟨whole.lengths, whole.active_le, ?_⟩
  intro segment mem
  obtain ⟨index, here⟩ := List.mem_iff_getElem?.mp mem
  obtain ⟨segment_eq, message_eq⟩ := List.getElem?_zip_eq_some.mp here
  rw [List.getElem?_drop] at segment_eq message_eq
  exact whole.fits _ _ _ segment_eq message_eq

/-- An empty buffer is whole. -/
lemma whole_empty : Whole {} := by
  refine ⟨rfl, Nat.le_refl _, by decide, ?_⟩
  intro index segment message here
  cases here

/-- The active part has bytes. -/
lemma Whole.current_pos {b : VectorizedBuffer} (whole : b.Whole) {index : Nat} {current : Iovec}
    (here : b.vbuf[index]? = some current) : 0 < current.len := by
  have lt : index < b.bufs.length := whole.lengths ▸ (List.getElem?_eq_some_iff.mp here).1
  exact (whole.fits index current _ here (List.getElem?_eq_getElem lt)).2

/-- A push keeps a buffer whole. -/
lemma Whole.pushBuffer {b : VectorizedBuffer} (whole : b.Whole) (range : List Byte) : (b.pushBuffer range).Whole := by
  unfold VectorizedBuffer.pushBuffer
  split
  case isTrue => exact whole
  case isFalse nonempty =>
    obtain ⟨lengths, active_le, active_lt, fits⟩ := whole
    refine ⟨?_, ?_, active_lt, ?_⟩
    · rw [List.length_append, List.length_append, lengths]
      rfl
    · rw [List.length_append]
      exact Nat.le_add_right_of_le active_le
    · intro index segment message segment_eq message_eq
      dsimp only at segment_eq message_eq
      by_cases old : index < b.vbuf.length
      · rw [List.getElem?_append_left old] at segment_eq
        rw [List.getElem?_append_left (lengths ▸ old)] at message_eq
        exact fits index segment message segment_eq message_eq
      · rw [List.getElem?_append_right (Nat.le_of_not_lt old), List.getElem?_singleton] at segment_eq
        rw [List.getElem?_append_right (lengths ▸ Nat.le_of_not_lt old), List.getElem?_singleton] at message_eq
        split at segment_eq
        · rename_i last
          rw [← lengths, if_pos last] at message_eq
          cases segment_eq
          cases message_eq
          refine ⟨Nat.zero_add _, List.length_pos_of_ne_nil ?_⟩
          intro none
          exact nonempty (List.isEmpty_iff.mpr none)
        · cases segment_eq

/-- Compacting keeps a buffer whole. -/
lemma Whole.compact {b : VectorizedBuffer} (whole : b.Whole) : b.compact.Whole := by
  unfold VectorizedBuffer.compact
  split
  case isTrue =>
    refine ⟨?_, Nat.zero_le _, Nat.two_pow_pos 32, ?_⟩
    · rw [List.length_drop, List.length_drop, whole.lengths]
    · intro index segment message segment_eq message_eq
      rw [List.getElem?_drop] at segment_eq message_eq
      exact whole.fits _ _ _ segment_eq message_eq
  case isFalse => exact whole

/-! ## The loop of `consume` -/

/-- A whole segment is passed. -/
lemma Whole.pass {b : VectorizedBuffer} (whole : b.Whole) {current : Iovec} (here : b.vbuf[b.active]? = some current) :
    Whole { b with active := (b.active + 1) % indexSize } := by
  refine ⟨whole.lengths, ?_, Nat.mod_lt _ (by decide), whole.fits⟩
  exact Nat.le_trans (Nat.mod_le _ _) (List.getElem?_eq_some_iff.mp here).1

/-- A part of a segment is cut off. -/
lemma Whole.part {b : VectorizedBuffer} (whole : b.Whole) {current : Iovec} (here : b.vbuf[b.active]? = some current)
    {n : Nat} (less : n < current.len) :
    Whole { b with vbuf := b.vbuf.set b.active ⟨current.base + n, current.len - n⟩ } := by
  refine ⟨?_, ?_, whole.active_lt, ?_⟩
  · rw [List.length_set]
    exact whole.lengths
  · rw [List.length_set]
    exact whole.active_le
  · intro index segment message segment_eq message_eq
    dsimp only at segment_eq message_eq
    rw [List.getElem?_set] at segment_eq
    split at segment_eq
    case isTrue same =>
      subst same
      rw [if_pos (List.getElem?_eq_some_iff.mp here).1] at segment_eq
      cases segment_eq
      have fits := whole.fits _ _ _ here message_eq
      have ends : current.base + current.len = message.length := fits.1
      refine ⟨?_, Nat.sub_pos_of_lt less⟩
      show current.base + n + (current.len - n) = message.length
      omega
    case isFalse => exact whole.fits _ _ _ segment_eq message_eq

/-- The loop is over after a round for every byte and two more, and keeps the segments whole. -/
lemma Whole.consumeWhile {b : VectorizedBuffer} (whole : b.Whole) {rounds n : Nat} (enough : n + 2 ≤ rounds) :
    ∃ b', consumeWhile rounds b n = some b' ∧ b'.Whole := by
  induction rounds generalizing b n with
  | zero => exact absurd enough (by omega)
  | succ rounds ih =>
    unfold VectorizedBuffer.consumeWhile
    by_cases zero : n = 0
    · rw [if_pos zero]
      exact ⟨b, rfl, whole⟩
    · rw [if_neg zero]
      cases here : b.vbuf[b.active]? with
      | none => exact ⟨b, rfl, whole⟩
      | some current =>
        have pos := whole.current_pos here
        dsimp only
        split
        case isTrue => exact ih (whole.pass here) (by omega)
        case isFalse less => exact ih (whole.part here (by omega)) (by omega)

/-- Without bytes sent no part is passed. -/
lemma consumeLoop_zero (segments : List Iovec) : consumeLoop segments 0 = (0, segments) := by
  cases segments with
  | nil => rfl
  | cons current rest => rw [consumeLoop, if_pos rfl]

/-- Nothing is consumed. -/
lemma consume_zero (b : VectorizedBuffer) : b.consume 0 = b := by
  unfold consume
  rw [consumeLoop_zero]
  dsimp only
  rw [List.take_append_drop]
  rfl

/-- Behind the last part nothing is consumed. -/
lemma consume_behind {b : VectorizedBuffer} (none : b.vbuf[b.active]? = none) (n : Nat) : b.consume n = b := by
  have le : b.vbuf.length ≤ b.active := List.getElem?_eq_none_iff.mp none
  unfold consume
  rw [List.drop_eq_nil_of_le le, consumeLoop]
  dsimp only
  rw [List.append_nil, List.take_of_length_le le]
  rfl

/-- The active part comes first. -/
lemma drop_active {b : VectorizedBuffer} {current : Iovec} (here : b.vbuf[b.active]? = some current) :
    b.vbuf.drop b.active = current :: b.vbuf.drop (b.active + 1) := by
  obtain ⟨lt, same⟩ := List.getElem?_eq_some_iff.mp here
  rw [List.drop_eq_getElem_cons lt, same]

/-- A part that is sent whole is passed. -/
lemma consume_pass {b : VectorizedBuffer} {current : Iovec} (here : b.vbuf[b.active]? = some current) {n : Nat}
    (pos : n ≠ 0) (whole : n ≥ current.len) :
    b.consume n = consume { b with active := b.active + 1 } (n - current.len) := by
  have front : b.vbuf.take (b.active + 1) = b.vbuf.take b.active ++ [current] := by
    rw [List.take_add_one, here]
    rfl
  unfold consume
  rw [drop_active here, consumeLoop, if_neg pos, if_pos whole, front]
  dsimp only
  rw [List.append_assoc, List.singleton_append, Nat.add_assoc, Nat.add_comm 1]

/-- A part that is sent in part stays the active one. -/
lemma consume_part {b : VectorizedBuffer} {current : Iovec} (here : b.vbuf[b.active]? = some current) {n : Nat}
    (pos : n ≠ 0) (less : ¬ n ≥ current.len) :
    b.consume n = { b with vbuf := b.vbuf.set b.active ⟨current.base + n, current.len - n⟩ } := by
  unfold consume
  rw [drop_active here, consumeLoop, if_neg pos, if_neg less,
    List.set_eq_take_append_cons_drop, if_pos (List.getElem?_eq_some_iff.mp here).1]
  rfl

/-- What the current segment adds to the size up to the greatest index. -/
lemma size_take {b : VectorizedBuffer} (whole : b.Whole) {current : Iovec} (here : b.vbuf[b.active]? = some current) :
    size ((b.vbuf.drop b.active).take (indexSize - b.active)) =
      current.len + size ((b.vbuf.drop (b.active + 1)).take (indexSize - (b.active + 1))) := by
  have lt := whole.active_lt
  have count : indexSize - b.active = indexSize - (b.active + 1) + 1 := by omega
  rw [drop_active here, count, List.take_succ_cons, size_cons]

/-- Where the index does not wrap, the loop is the one over a list. -/
lemma Whole.consumeWhile_eq {b : VectorizedBuffer} (whole : b.Whole) {rounds n : Nat} (enough : n + 2 ≤ rounds)
    (stays : ¬ b.Wraps n) : VectorizedBuffer.consumeWhile rounds b n = some (b.consume n) := by
  induction rounds generalizing b n with
  | zero => exact absurd enough (by omega)
  | succ rounds ih =>
    unfold VectorizedBuffer.consumeWhile
    by_cases zero : n = 0
    · rw [if_pos zero, zero, consume_zero]
    · rw [if_neg zero]
      cases here : b.vbuf[b.active]? with
      | none => rw [consume_behind here]
      | some current =>
        have pos := whole.current_pos here
        have active_lt := whole.active_lt
        have inside : b.active < b.vbuf.length := (List.getElem?_eq_some_iff.mp here).1
        have split := size_take whole here
        dsimp only
        split
        case isTrue passes =>
          have next : b.active + 1 < indexSize := by
            by_contra last
            apply stays
            refine ⟨by omega, ?_⟩
            have none : indexSize - (b.active + 1) = 0 := by omega
            rw [split, none, List.take_zero]
            exact passes
          have same : (b.active + 1) % indexSize = b.active + 1 := Nat.mod_eq_of_lt next
          have whole' := whole.pass here
          rw [same] at whole' ⊢
          rw [consume_pass here zero passes]
          apply ih whole' (by omega)
          rintro ⟨many, le⟩
          refine stays ⟨many, ?_⟩
          rw [split]
          dsimp only at le
          omega
        case isFalse less =>
          obtain ⟨rounds, rfl⟩ : ∃ more, rounds = more + 1 := ⟨rounds - 1, by omega⟩
          rw [consume_part here zero less, VectorizedBuffer.consumeWhile, if_pos rfl]

/-- Where it does not wrap, the count of 64 bits consumes as many bytes. -/
lemma Whole.consumeWrapping_eq {b : VectorizedBuffer} (whole : b.Whole) {n : Nat} (stays : ¬ b.Wraps n) :
    b.consumeWrapping n = some (b.consume n) :=
  whole.consumeWhile_eq (Nat.le_refl _) stays

/-! ## A wrap of the index -/

/-- The number of bytes from the current segment on -/
def ahead (b : VectorizedBuffer) : Nat := size (b.vbuf.drop b.active)

/-- As many bytes are pending as are ahead. -/
lemma Inv.pending_length {b : VectorizedBuffer} (inv : b.Inv) : b.pending.length = b.ahead := by
  have lengths := inv.lengths
  have same : ∀ segment ∈ (b.vbuf.drop b.active).zip (b.bufs.drop b.active),
      (bytes segment).length = (Iovec.len ∘ Prod.fst) segment :=
    fun segment mem => (inv.fits segment mem).bytes_length
  rw [inv.pending_eq, List.length_flatMap, List.map_congr_left same, ← List.map_map, List.map_fst_zip]
  · rfl
  · exact Nat.le_of_eq (by rw [List.length_drop, List.length_drop, lengths])

/-- What is ahead is the active part and those behind it. -/
lemma ahead_of_current {b : VectorizedBuffer} {current : Iovec} (here : b.vbuf[b.active]? = some current) :
    b.ahead = current.len + size (b.vbuf.drop (b.active + 1)) := by
  rw [ahead, drop_active here, size_cons]

/-- Fewer parts are not larger. -/
lemma size_drop_le (segments : List Iovec) (n : Nat) : size (segments.drop n) ≤ size segments := by
  unfold size
  conv_rhs => rw [← List.take_append_drop n segments, List.map_append, List.sum_append]
  exact Nat.le_add_left _ _

/-- Passing a segment takes no more than its length from what is ahead, and a wrap makes it more. -/
lemma ahead_pass {b : VectorizedBuffer} {current : Iovec} (here : b.vbuf[b.active]? = some current) :
    b.ahead ≤ current.len + ahead { b with active := (b.active + 1) % indexSize } := by
  rw [ahead_of_current here]
  apply Nat.add_le_add_left
  show size (b.vbuf.drop (b.active + 1)) ≤ size (b.vbuf.drop ((b.active + 1) % indexSize))
  have le : (b.active + 1) % indexSize ≤ b.active + 1 := Nat.mod_le _ _
  obtain ⟨more, more_eq⟩ := Nat.exists_eq_add_of_le le
  rw [show b.active + 1 = (b.active + 1) % indexSize + more from more_eq, ← List.drop_drop]
  have again : ((b.active + 1) % indexSize + more) % indexSize = (b.active + 1) % indexSize := by
    rw [← more_eq]
  rw [again]
  exact size_drop_le _ _

/-- A part that is sent in part is that much smaller. -/
lemma ahead_part {b : VectorizedBuffer} {current : Iovec} (here : b.vbuf[b.active]? = some current) {n : Nat}
    (less : n < current.len) :
    b.ahead = n + ahead { b with vbuf := b.vbuf.set b.active ⟨current.base + n, current.len - n⟩ } := by
  have inside : b.active < b.vbuf.length := (List.getElem?_eq_some_iff.mp here).1
  have here' : ({ b with vbuf := b.vbuf.set b.active ⟨current.base + n, current.len - n⟩ } : VectorizedBuffer).vbuf[
      b.active]? = some ⟨current.base + n, current.len - n⟩ := by
    rw [List.getElem?_set, if_pos rfl, if_pos inside]
  have split := ahead_of_current here'
  dsimp only at split
  rw [List.drop_set_of_lt (Nat.lt_add_one _)] at split
  rw [ahead_of_current here, split]
  omega

/-- With so many segments that the index is always inside, no more bytes leave than are consumed. -/
lemma ahead_le {b b' : VectorizedBuffer} {rounds n : Nat} (lt : b.active < indexSize) (many : indexSize ≤ b.vbuf.length)
    (done : consumeWhile rounds b n = some b') : b.ahead ≤ b'.ahead + n ∧ b'.active < b'.vbuf.length := by
  induction rounds generalizing b n with
  | zero => cases done
  | succ rounds ih =>
    unfold consumeWhile at done
    split at done
    · cases done
      exact ⟨Nat.le_add_right _ _, Nat.lt_of_lt_of_le lt many⟩
    · split at done
      · rename_i none
        exact absurd (List.getElem?_eq_none_iff.mp none) (by omega)
      · rename_i current here
        split at done
        · rename_i passes
          have pass := ahead_pass here
          obtain ⟨le, inside⟩ := ih (b := { b with active := (b.active + 1) % indexSize })
            (Nat.mod_lt _ (Nat.two_pow_pos 32)) many done
          exact ⟨by omega, inside⟩
        · rename_i less
          have part := ahead_part here (Nat.lt_of_not_le less)
          have many' : indexSize ≤ (b.vbuf.set b.active ⟨current.base + n, current.len - n⟩).length := by
            rwa [List.length_set]
          obtain ⟨le, inside⟩ := ih
            (b := { b with vbuf := b.vbuf.set b.active ⟨current.base + n, current.len - n⟩ }) lt many' done
          exact ⟨by omega, inside⟩

/-- The parts behind another one are smaller than all. -/
lemma Whole.size_drop_lt {b : VectorizedBuffer} (whole : b.Whole) (nonempty : 0 < b.vbuf.length) (n : Nat) :
    size (b.vbuf.drop (n + 1)) < size b.vbuf := by
  have pos : 0 < b.vbuf[0].len := whole.current_pos (List.getElem?_eq_getElem nonempty)
  have first : b.vbuf = b.vbuf[0] :: b.vbuf.drop 1 := List.drop_eq_getElem_cons nonempty
  have le : size (b.vbuf.drop (n + 1)) ≤ size (b.vbuf.drop 1) := by
    rw [Nat.add_comm, ← List.drop_drop]
    exact size_drop_le _ _
  have split : size b.vbuf = b.vbuf[0].len + size (b.vbuf.drop 1) := by
    conv_lhs => rw [first, size_cons]
  omega

/-- Bytes in front of the greatest index come back at a wrap. -/
lemma Whole.ahead_lt {b b' : VectorizedBuffer} (whole : b.Whole) {rounds n : Nat} (wraps : b.Wraps n)
    (done : VectorizedBuffer.consumeWhile rounds b n = some b') :
    b.ahead < b'.ahead + n ∧ b'.active < b'.vbuf.length := by
  induction rounds generalizing b n with
  | zero => cases done
  | succ rounds ih =>
    obtain ⟨many, le⟩ := wraps
    have lt := whole.active_lt
    obtain ⟨current, here⟩ : ∃ current, b.vbuf[b.active]? = some current :=
      ⟨_, List.getElem?_eq_getElem (Nat.lt_of_lt_of_le lt many)⟩
    have pos := whole.current_pos here
    rw [size_take whole here] at le
    unfold VectorizedBuffer.consumeWhile at done
    rw [if_neg (by omega), here] at done
    dsimp only at done
    rw [if_pos (by omega)] at done
    by_cases last : b.active + 1 = indexSize
    · -- the first segment follows, and with it all bytes
      have start : (b.active + 1) % indexSize = 0 := by rw [last, Nat.mod_self]
      rw [start] at done
      obtain ⟨rest, inside⟩ := ahead_le (b := { b with active := 0 }) (Nat.two_pow_pos 32) many done
      have all : b.ahead < current.len + ahead { b with active := 0 } := by
        rw [ahead_of_current here]
        exact Nat.add_lt_add_left (whole.size_drop_lt (Nat.lt_of_le_of_lt (Nat.zero_le _)
          (List.getElem?_eq_some_iff.mp here).1) _) _
      exact ⟨by omega, inside⟩
    · have same : (b.active + 1) % indexSize = b.active + 1 := Nat.mod_eq_of_lt (by omega)
      have whole' := whole.pass here
      have pass := ahead_pass here
      rw [same] at whole' done pass
      have wraps' : Wraps { b with active := b.active + 1 } (n - current.len) := by
        refine ⟨many, ?_⟩
        show size ((b.vbuf.drop (b.active + 1)).take (indexSize - (b.active + 1))) ≤ _
        omega
      obtain ⟨less, inside⟩ := ih whole' wraps' done
      exact ⟨by omega, inside⟩

/-- What is pending after a wrap is not what the queue says. -/
lemma Whole.consumeWrapping_wraps {b b' : VectorizedBuffer} (whole : b.Whole) {n : Nat} (wraps : b.Wraps n)
    (done : b.consumeWrapping n = some b') : b'.pending ≠ b.pending.drop n := by
  obtain ⟨consumed, consumed_eq, whole'⟩ := whole.consumeWhile (Nat.le_refl (n + 2))
  obtain rfl : consumed = b' := Option.some.inj (consumed_eq.symm.trans done)
  obtain ⟨less, inside⟩ := whole.ahead_lt wraps done
  have some : consumed.pending ≠ [] := whole'.inv.hasToWrite_iff.mp (decide_eq_true inside)
  have pos := List.length_pos_of_ne_nil some
  intro same
  have length := congrArg List.length same
  rw [List.length_drop, whole.inv.pending_length, whole'.inv.pending_length] at length
  rw [whole'.inv.pending_length] at pos
  omega

/-! ## Runs -/

/-- The calls that change a buffer -/
inductive Call where
  | pushBuffer (range : List Byte)
  | serialize (values : List Serializer)
  | consume (bytesSent : Nat)
  | compact
  | clearBuffer

/-- A buffer and the queue of bytes of the same calls -/
structure Session where
  buffer : VectorizedBuffer := {}
  queue : List Byte := []

namespace Session

/-- The queue: pushes append, and a serialization that fails does not. -/
def enqueue (queue : List Byte) : Call → List Byte
  | .pushBuffer range => queue ++ range
  | .serialize values =>
    match serializeAll values [] with
    | (.none, buffer) => queue ++ buffer
    | _ => queue
  | .consume bytesSent => queue.drop (min bytesSent queue.length)
  | .compact => queue
  | .clearBuffer => []

/-- The buffer after a call, if it returns. -/
def perform (buffer : VectorizedBuffer) : Call → Option VectorizedBuffer
  | .pushBuffer range => some (buffer.pushBuffer range)
  | .serialize values => some (buffer.serialize values).1
  | .consume bytesSent => buffer.consumeWrapping bytesSent
  | .compact => some buffer.compact
  | .clearBuffer => some buffer.clearBuffer

/-- A call of the session. Behind one that does not return there is none. -/
def step (s : Option Session) (call : Call) : Option Session :=
  s.bind fun s => (perform s.buffer call).map fun buffer => { buffer, queue := enqueue s.queue call }

/-- All calls returned, the segments of `remaining` are the queue, and there is something to write where it is not
    empty. -/
def IsQueue : Option Session → Prop
  | some s => s.buffer.pending = s.queue ∧ (s.buffer.hasToWrite = true ↔ s.queue ≠ [])
  | none => False

/-- No `consume` passes the segment with the greatest index. -/
def Stays : Option Session → Call → Prop
  | some s, .consume bytesSent => ¬ s.buffer.Wraps bytesSent
  | _, _ => True

/-- The invariant of a run whose index does not wrap. -/
def Keeps : Option Session → Prop
  | some s => s.buffer.Whole ∧ s.buffer.pending = s.queue
  | none => False

/-- A session that is kept is a queue. -/
lemma Keeps.isQueue {s : Option Session} (keeps : Keeps s) : IsQueue s := by
  cases s with
  | none => exact keeps
  | some s =>
    obtain ⟨whole, same⟩ := keeps
    refine ⟨same, ?_⟩
    rw [← same]
    exact whole.inv.hasToWrite_iff

/-- No more than there is can be dropped. -/
lemma drop_min (queue : List Byte) (n : Nat) : queue.drop (min n queue.length) = queue.drop n := by
  rcases Nat.le_total n queue.length with le | le
  · rw [Nat.min_eq_left le]
  · rw [Nat.min_eq_right le, List.drop_length, List.drop_eq_nil_of_le le]

/-- A call after which the index has not wrapped keeps the buffer on the queue. -/
lemma Keeps.step {s : Option Session} (keeps : Keeps s) (call : Call) (stays : Stays s call) : Keeps (step s call) := by
  cases s with
  | none => exact keeps
  | some s =>
    obtain ⟨whole, same⟩ := keeps
    cases call with
    | pushBuffer range => exact ⟨whole.pushBuffer range, by rw [whole.inv.pending_pushBuffer, same]; rfl⟩
    | serialize values =>
      show Keeps (some { buffer := (s.buffer.serialize values).1, queue := enqueue s.queue (.serialize values) })
      unfold VectorizedBuffer.serialize enqueue
      dsimp only
      cases e : serializeAll values [] with
      | mk code message =>
        cases code with
        | none => exact ⟨whole.pushBuffer _, by rw [whole.inv.pending_pushBuffer, same]⟩
        | _ => exact ⟨whole, same⟩
    | consume n =>
      obtain ⟨consumed, consumed_eq, whole'⟩ := whole.consumeWhile (Nat.le_refl (n + 2))
      have straight := whole.consumeWrapping_eq stays
      obtain rfl : consumed = s.buffer.consume n := Option.some.inj (consumed_eq.symm.trans straight)
      have next : Session.step (some s) (.consume n) =
          some { buffer := s.buffer.consume n, queue := enqueue s.queue (.consume n) } := by
        show (s.buffer.consumeWrapping n).map _ = _
        rw [straight]
        rfl
      rw [next]
      refine ⟨whole', ?_⟩
      show _ = s.queue.drop (min n s.queue.length)
      rw [(whole.inv.consume n).2, same, drop_min]
    | compact => exact ⟨whole.compact, whole.inv.compact.2.trans same⟩
    | clearBuffer => exact ⟨whole_empty, rfl⟩

/-- A wrap takes the buffer off the queue. -/
lemma Keeps.stays {s : Option Session} (keeps : Keeps s) (call : Call) (next : IsQueue (Session.step s call)) :
    Stays s call := by
  cases s with
  | none => trivial
  | some s =>
    obtain ⟨whole, same⟩ := keeps
    cases call with
    | consume n =>
      intro wraps
      obtain ⟨consumed, consumed_eq, -⟩ := whole.consumeWhile (Nat.le_refl (n + 2))
      have stepped : Session.step (some s) (.consume n) =
          some { buffer := consumed, queue := enqueue s.queue (.consume n) } := by
        show (s.buffer.consumeWrapping n).map _ = _
        rw [show s.buffer.consumeWrapping n = some consumed from consumed_eq]
        rfl
      rw [stepped] at next
      apply whole.consumeWrapping_wraps wraps consumed_eq
      rw [same, ← drop_min]
      exact next.1
    | pushBuffer range => trivial
    | serialize values => trivial
    | compact => trivial
    | clearBuffer => trivial

/-- In every run from the empty buffer, the buffer is the queue in every state exactly if no `consume` passes the
    segment with the greatest index of 32 bits. -/
theorem run_queue_iff (calls : List Call) :
    Always step IsQueue (some {}) calls ↔ Guarded step Stays (some {}) calls := by
  refine always_iff_guarded (J := Keeps) (L := fun _ _ => True) (fun _ keeps => keeps.isQueue) ?_ ?_
    ⟨whole_empty, rfl⟩ (.of_forall (fun _ _ => trivial) _ _)
  · exact fun s call keeps _ stays => keeps.step call stays
  · exact fun s call keeps _ next => keeps.stays call next

/-- Each push adds a part of one byte. -/
lemma run_pushes (count : Nat) :
    run step (some {}) (List.replicate count (.pushBuffer [0])) =
        some { buffer := { vbuf := List.replicate count ⟨0, 1⟩, bufs := List.replicate count [0] },
               queue := List.replicate count 0 } ∧
      Keeps (run step (some {}) (List.replicate count (.pushBuffer [0]))) := by
  induction count with
  | zero => exact ⟨rfl, whole_empty, rfl⟩
  | succ count ih =>
    obtain ⟨pushed, keeps⟩ := ih
    have next := keeps.step (.pushBuffer [0]) (by rw [pushed]; trivial)
    rw [List.replicate_succ', run_append]
    refine ⟨?_, next⟩
    rw [pushed, List.replicate_succ', List.replicate_succ', List.replicate_succ']
    rfl

/-- After 2³² pushes of a byte, a `consume` of them all leaves the index at the first one, which is pending again. -/
theorem consume_wraps : ¬ ∀ calls, Always step IsQueue (some {}) calls := by
  intro all
  generalize count_eq : indexSize = count
  obtain ⟨pushed, keeps⟩ := run_pushes count
  have last := (all (List.replicate count (.pushBuffer [0]) ++ [.consume count])).last
  rw [run_append, pushed, run_cons, run_nil] at last
  rw [pushed] at keeps
  apply keeps.stays _ last
  refine ⟨?_, ?_⟩
  · exact Nat.le_of_eq (count_eq.trans List.length_replicate.symm)
  · rw [count_eq]
    show size ((List.replicate count ⟨0, 1⟩ : List Iovec).take count) ≤ count
    rw [List.take_of_length_le (Nat.le_of_eq List.length_replicate), size, List.map_replicate, List.sum_replicate_nat]
    exact Nat.le_of_eq (Nat.mul_one count)

end Session
end VectorizedBuffer
end OsterLib.Network
