import OsterLib.Serialization.Definitions
import Mathlib.Algebra.Order.Ring.Nat
import Mathlib.Data.List.Basic

/-!
# The cursor over several spans

`MultiBufferView` of `serialization/multi_buffer.h`: a queue of spans with the index of the span and the
offset in it of the next unread byte. A span does not own its bytes, so the cells it exposes are of any
type `α`: they are the bytes themselves where the buffer behind a span does not change, and the places
of the bytes where it may.

`unread` is what the spans hold from the cursor on. A read takes its cells from the front of it
(`Valid.read`), pushing a span appends to it, and flushing does not change it.
-/

namespace OsterLib.Serialization

/-- `MultiBufferView`: its spans, how far they are read, and the places to come back to -/
structure MultiBufferView (α : Type) where
  buffers : List (List α) := []
  spanIdx : Nat := 0
  offset : Nat := 0
  checkpoints : List (Nat × Nat) := []
  deriving DecidableEq, Repr

namespace MultiBufferView
variable {α : Type}

/-- `available` -/
def available (v : MultiBufferView α) : Nat :=
  ((v.buffers.drop v.spanIdx).map List.length).sum - v.offset

/-- The loop of `read` over the spans from the current one on: the cells that are copied, the number of
    spans that are left behind, and the offset in the span behind them. -/
def readLoop : List (List α) → Nat → Nat → List α × Nat × Nat
  | [], offset, _ => ([], 0, offset)
  | cur :: spans, offset, remaining =>
    if remaining = 0 then ([], 0, offset)
    else
      let toCopy := min remaining (cur.length - offset)
      let copied := (cur.drop offset).take toCopy
      if offset + toCopy = cur.length then
        let (rest, passed, offset) := readLoop spans 0 (remaining - toCopy)
        (copied ++ rest, passed + 1, offset)
      else (copied, 0, offset + toCopy)

/-- `read`; `none` where too few bytes are left, and then the cursor stays. -/
def read (v : MultiBufferView α) (n : Nat) : Option (List α × MultiBufferView α) :=
  if v.available < n then none
  else
    let (cells, passed, offset) := readLoop (v.buffers.drop v.spanIdx) v.offset n
    some (cells, { v with spanIdx := v.spanIdx + passed, offset })

/-- `checkpoint` -/
def checkpoint (v : MultiBufferView α) : MultiBufferView α :=
  { v with checkpoints := v.checkpoints ++ [(v.spanIdx, v.offset)] }

/-- `rollback` -/
def rollback (v : MultiBufferView α) : MultiBufferView α :=
  match v.checkpoints.getLast? with
  | none => v
  | some (spanIdx, offset) =>
    { v with spanIdx, offset, checkpoints := v.checkpoints.dropLast }

/-- `commit` -/
def commit (v : MultiBufferView α) : MultiBufferView α :=
  { v with checkpoints := v.checkpoints.dropLast }

/-- `push`, which takes no empty span -/
def push (v : MultiBufferView α) (buffer : List α) : MultiBufferView α :=
  if buffer.isEmpty then v else { v with buffers := v.buffers ++ [buffer] }

/-- `read_trivial`: a read between a checkpoint and its commit or rollback. -/
def readTrivial (v : MultiBufferView α) (n : Nat) : Option (List α) × MultiBufferView α :=
  match v.checkpoint.read n with
  | some (cells, v) => (some cells, v.commit)
  | none => (none, v.checkpoint.rollback)

/-- `flush_deserialized`: the spans that are read completely are dropped, and the read part of the one
    after them is cut off. Returns the number of dropped bytes. -/
def flushDeserialized (v : MultiBufferView α) : Nat × MultiBufferView α :=
  let dropped := ((v.buffers.take v.spanIdx).map List.length).sum + v.offset
  let buffers :=
    match v.buffers.drop v.spanIdx with
    | [] => []
    | front :: spans => front.drop v.offset :: spans
  (dropped, { v with buffers, spanIdx := 0, offset := 0 })

/-! ## What is left to read -/

/-- The cells from the cursor on. -/
def unread (v : MultiBufferView α) : List α :=
  (v.buffers.drop v.spanIdx).flatten.drop v.offset

/-- An offset stands inside the first of the spans, or there are none. -/
def Inside : List (List α) → Nat → Prop
  | [], offset => offset = 0
  | cur :: _, offset => offset < cur.length

/-- The cursor stands inside a span or at the end, and no span after it is empty. -/
structure Valid (v : MultiBufferView α) : Prop where
  spanIdx_le : v.spanIdx ≤ v.buffers.length
  inside : Inside (v.buffers.drop v.spanIdx) v.offset
  nonempty : ∀ span ∈ v.buffers.drop v.spanIdx, span ≠ []

/-- What is available is what is unread. -/
lemma available_eq (v : MultiBufferView α) : v.available = v.unread.length := by
  simp [available, unread, List.length_flatten]

/-- A new view is valid. -/
lemma valid_empty : Valid ({} : MultiBufferView α) :=
  ⟨Nat.le_refl _, rfl, by simp⟩

/-- The beginning is inside of spans that are not empty. -/
lemma inside_start {spans : List (List α)} (nonempty : ∀ span ∈ spans, span ≠ []) :
    Inside spans 0 := by
  cases spans with
  | nil => rfl
  | cons cur spans => exact List.length_pos_of_ne_nil (nonempty cur List.mem_cons_self)

/-- An index and an offset are the place behind `position` cells. The offset is inside the span, or zero, so that the
    place may be before a span without cells. -/
structure Stands (spans : List (List α)) (place : Nat × Nat) (position : Nat) : Prop where
  index_le : place.1 ≤ spans.length
  offset : place.2 = 0 ∨ ∃ cur, spans[place.1]? = some cur ∧ place.2 < cur.length
  position_eq : ((spans.take place.1).map List.length).sum + place.2 = position

/-- A place stays behind a span put in front. -/
lemma Stands.cons {spans : List (List α)} {place : Nat × Nat} {position : Nat} (stands : Stands spans place position)
    (cur : List α) : Stands (cur :: spans) (place.1 + 1, place.2) (cur.length + position) := by
  refine ⟨Nat.succ_le_succ stands.index_le, stands.offset, ?_⟩
  rw [List.take_succ_cons, List.map_cons, List.sum_cons, Nat.add_assoc, stands.position_eq]

/-- An offset is in its span, or at its end. -/
lemma Stands.offset_le {cur : List α} {spans : List (List α)} {offset : Nat}
    (stands : Stands (cur :: spans) (0, offset) offset) : offset ≤ cur.length := by
  rcases stands.offset with zero | ⟨cur', here, lt⟩
  · exact (show offset = 0 from zero) ▸ Nat.zero_le _
  · cases here
    exact Nat.le_of_lt lt

/-- From a place on, there are the cells behind it. -/
lemma Stands.unread_eq {spans : List (List α)} {place : Nat × Nat} {position : Nat}
    (stands : Stands spans place position) :
    (spans.drop place.1).flatten.drop place.2 = spans.flatten.drop position ∧ position ≤ spans.flatten.length := by
  obtain ⟨index_le, offset, rfl⟩ := stands
  have split : spans.flatten = (spans.take place.1).flatten ++ (spans.drop place.1).flatten := by
    rw [← List.flatten_append, List.take_append_drop]
  have length : ((spans.take place.1).map List.length).sum = (spans.take place.1).flatten.length :=
    List.length_flatten.symm
  have inside : place.2 ≤ (spans.drop place.1).flatten.length := by
    rcases offset with zero | ⟨cur, here, lt⟩
    · rw [zero]
      exact Nat.zero_le _
    · obtain ⟨index_lt, same⟩ := List.getElem?_eq_some_iff.mp here
      rw [List.drop_eq_getElem_cons index_lt, same, List.flatten_cons, List.length_append]
      omega
  rw [split, length, List.length_append, List.drop_length_add_append]
  exact ⟨rfl, Nat.add_le_add_left inside _⟩

/-- The loop copies the first `n` cells after the offset and stops behind them. -/
lemma readLoop_stands (spans : List (List α)) (offset n : Nat) (stands : Stands spans (0, offset) offset)
    (enough : n ≤ (spans.flatten.drop offset).length) :
    (readLoop spans offset n).1 = (spans.flatten.drop offset).take n ∧
      Stands spans (readLoop spans offset n).2 (offset + n) := by
  induction spans generalizing offset n with
  | nil =>
    rw [List.flatten_nil, List.drop_nil] at enough ⊢
    obtain rfl : n = 0 := Nat.le_zero.mp enough
    exact ⟨rfl, stands⟩
  | cons cur spans ih =>
    have le : offset ≤ cur.length := stands.offset_le
    have flat : (cur :: spans).flatten.drop offset = cur.drop offset ++ spans.flatten := by
      rw [List.flatten_cons, List.drop_append_of_le_length le]
    rw [flat] at enough ⊢
    rw [List.length_append, List.length_drop] at enough
    unfold readLoop
    by_cases zero : n = 0
    · subst zero
      simp only [if_true]
      exact ⟨rfl, stands⟩
    · rw [if_neg zero]
      -- the rest of this span is copied and the next one follows, or the copy ends inside this span
      by_cases whole : cur.length - offset ≤ n
      · have toCopy : min n (cur.length - offset) = cur.length - offset := Nat.min_eq_right whole
        have start : Stands spans (0, 0) 0 := ⟨Nat.zero_le _, .inl rfl, rfl⟩
        obtain ⟨copied, stands'⟩ := ih 0 (n - (cur.length - offset)) start (by rw [List.drop_zero]; omega)
        simp only [toCopy, Nat.add_sub_of_le le, if_true]
        generalize readLoop spans 0 (n - (cur.length - offset)) = result at copied stands' ⊢
        obtain ⟨cells, passed, after⟩ := result
        rw [List.drop_zero] at copied
        have all : (cur.drop offset).take (cur.length - offset) = cur.drop offset :=
          List.take_of_length_le (Nat.le_of_eq (List.length_drop ..))
        have behind : (cur.drop offset).length ≤ n := by rw [List.length_drop]; exact whole
        have total : cur.length + (0 + (n - (cur.length - offset))) = offset + n := by omega
        refine ⟨?_, total ▸ stands'.cons cur⟩
        rw [List.take_append, List.take_of_length_le behind, List.length_drop, ← copied, all]
      · have toCopy : min n (cur.length - offset) = n := Nat.min_eq_left (by omega)
        simp only [toCopy, if_neg (show ¬ offset + n = cur.length by omega)]
        refine ⟨?_, Nat.zero_le _, .inr ⟨cur, rfl, ?_⟩, Nat.zero_add _⟩
        · rw [List.take_append_of_le_length (by rw [List.length_drop]; omega)]
        · show offset + n < cur.length
          omega

/-- Where no span is empty, it stops inside a span or at the end. -/
lemma readLoop_spec (spans : List (List α)) (offset n : Nat) (inside : Inside spans offset)
    (nonempty : ∀ span ∈ spans, span ≠ []) (enough : n ≤ (spans.flatten.drop offset).length) :
    let (cells, passed, after) := readLoop spans offset n
    cells = (spans.flatten.drop offset).take n ∧ passed ≤ spans.length ∧
      Inside (spans.drop passed) after ∧
      (spans.drop passed).flatten.drop after = (spans.flatten.drop offset).drop n := by
  have start : Stands spans (0, offset) offset := by
    refine ⟨Nat.zero_le _, ?_, Nat.zero_add _⟩
    cases spans with
    | nil => exact .inl inside
    | cons cur spans => exact .inr ⟨cur, rfl, inside⟩
  obtain ⟨copied, stands⟩ := readLoop_stands spans offset n start enough
  generalize readLoop spans offset n = result at copied stands ⊢
  obtain ⟨cells, passed, after⟩ := result
  refine ⟨copied, stands.index_le, ?_, ?_⟩
  · have later : ∀ span ∈ spans.drop passed, span ≠ [] := fun span mem => nonempty span (List.mem_of_mem_drop mem)
    rcases stands.offset with zero | ⟨cur, here, lt⟩
    · obtain rfl : after = 0 := zero
      exact inside_start later
    · obtain ⟨index_lt, same⟩ := List.getElem?_eq_some_iff.mp here
      rw [List.drop_eq_getElem_cons index_lt, same]
      exact lt
  · rw [stands.unread_eq.1, List.drop_drop]

/-- A read that finds enough bytes takes them from the front of what is unread. -/
lemma Valid.read {v : MultiBufferView α} (valid : v.Valid) {n : Nat} (enough : n ≤ v.unread.length) :
    ∃ v', v.read n = some (v.unread.take n, v') ∧ v'.Valid ∧ v'.unread = v.unread.drop n ∧
      v'.checkpoints = v.checkpoints := by
  have loop := readLoop_spec _ _ n valid.inside valid.nonempty enough
  unfold MultiBufferView.read
  rw [if_neg (by rw [available_eq]; omega)]
  generalize readLoop (v.buffers.drop v.spanIdx) v.offset n = result at loop ⊢
  obtain ⟨cells, passed, after⟩ := result
  obtain ⟨copied, le, inside, left⟩ := loop
  rw [List.length_drop] at le
  have spanIdx_le := valid.spanIdx_le
  refine ⟨{ v with spanIdx := v.spanIdx + passed, offset := after }, by rw [copied]; rfl, ?_, ?_, rfl⟩
  · refine ⟨?_, ?_, ?_⟩
    · show v.spanIdx + passed ≤ v.buffers.length
      omega
    · simpa only [List.drop_drop] using inside
    · intro span mem
      have mem' : span ∈ (v.buffers.drop v.spanIdx).drop passed := by
        simpa only [List.drop_drop] using mem
      exact valid.nonempty span (List.mem_of_mem_drop mem')
  · unfold unread
    simpa only [List.drop_drop] using left

/-- Nothing is read where too few bytes are left. -/
lemma read_short {v : MultiBufferView α} {n : Nat} (short : v.unread.length < n) :
    v.read n = none := by
  unfold MultiBufferView.read
  rw [if_pos (by rw [available_eq]; exact short)]

/-- `read_trivial` is a read that leaves the checkpoints alone. -/
lemma Valid.readTrivial {v : MultiBufferView α} (valid : v.Valid) {n : Nat}
    (enough : n ≤ v.unread.length) :
    ∃ v', v.readTrivial n = (some (v.unread.take n), v') ∧ v'.Valid ∧
      v'.unread = v.unread.drop n := by
  have marked : v.checkpoint.Valid := ⟨valid.spanIdx_le, valid.inside, valid.nonempty⟩
  obtain ⟨v', read, valid', left, _⟩ := marked.read (n := n) enough
  refine ⟨v'.commit, ?_, ⟨valid'.spanIdx_le, valid'.inside, valid'.nonempty⟩, left⟩
  unfold MultiBufferView.readTrivial
  rw [read]
  rfl

/-- Nothing is read, and the view is as it was, where too few bytes are left. -/
lemma readTrivial_short {v : MultiBufferView α} {n : Nat} (short : v.unread.length < n) :
    v.readTrivial n = (none, v) := by
  have marked : v.checkpoint.read n = none := read_short short
  unfold MultiBufferView.readTrivial
  rw [marked]
  simp [checkpoint, rollback]

/-- A pushed span is behind what is unread. -/
lemma Valid.push {v : MultiBufferView α} (valid : v.Valid) (buffer : List α) :
    (v.push buffer).Valid ∧ (v.push buffer).unread = v.unread ++ buffer := by
  unfold MultiBufferView.push
  cases buffer with
  | nil => simpa using valid
  | cons cell cells =>
    have spanIdx_le := valid.spanIdx_le
    have inside := valid.inside
    have dropped : (v.buffers ++ [cell :: cells]).drop v.spanIdx =
        v.buffers.drop v.spanIdx ++ [cell :: cells] :=
      List.drop_append_of_le_length spanIdx_le
    refine ⟨⟨?_, ?_, ?_⟩, ?_⟩
    · simpa using Nat.le_succ_of_le spanIdx_le
    · show Inside ((v.buffers ++ [cell :: cells]).drop v.spanIdx) v.offset
      rw [dropped]
      -- behind the last span the offset is zero, which is inside the new one
      cases e : v.buffers.drop v.spanIdx with
      | nil =>
        rw [e] at inside
        have zero : v.offset = 0 := inside
        simp [Inside, zero]
      | cons cur spans =>
        rw [e] at inside
        exact inside
    · intro span mem
      have mem' : span ∈ v.buffers.drop v.spanIdx ++ [cell :: cells] := dropped ▸ mem
      rcases List.mem_append.1 mem' with old | new
      · exact valid.nonempty span old
      · simp [List.mem_singleton.1 new]
    · show ((v.buffers ++ [cell :: cells]).drop v.spanIdx).flatten.drop v.offset =
        (v.buffers.drop v.spanIdx).flatten.drop v.offset ++ cell :: cells
      rw [dropped, List.flatten_append, List.flatten_singleton, List.drop_append_of_le_length]
      cases e : v.buffers.drop v.spanIdx with
      | nil =>
        rw [e] at inside
        have zero : v.offset = 0 := inside
        simp [zero]
      | cons cur spans =>
        rw [e] at inside
        have lt : v.offset < cur.length := inside
        rw [List.flatten_cons, List.length_append]
        omega

/-- Flushing keeps what is unread. -/
lemma Valid.flush {v : MultiBufferView α} (valid : v.Valid) :
    v.flushDeserialized.2.Valid ∧ v.flushDeserialized.2.unread = v.unread := by
  have inside := valid.inside
  have nonempty := valid.nonempty
  unfold MultiBufferView.flushDeserialized unread
  cases e : v.buffers.drop v.spanIdx with
  | nil =>
    rw [e] at inside
    have zero : v.offset = 0 := inside
    exact ⟨⟨Nat.le_refl _, rfl, by simp⟩, by simp⟩
  | cons cur spans =>
    rw [e] at inside nonempty
    have lt : v.offset < cur.length := inside
    have rest : ∀ span ∈ cur.drop v.offset :: spans, span ≠ [] := by
      intro span mem
      rcases List.mem_cons.1 mem with here | later
      · subst here
        exact List.ne_nil_of_length_pos (by rw [List.length_drop]; omega)
      · exact nonempty span (List.mem_cons_of_mem _ later)
    refine ⟨⟨Nat.zero_le _, inside_start rest, rest⟩, ?_⟩
    simp [List.drop_append_of_le_length (Nat.le_of_lt lt)]

end MultiBufferView
end OsterLib.Serialization
