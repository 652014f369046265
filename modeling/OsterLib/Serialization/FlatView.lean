import OsterLib.Lib.Run
import OsterLib.Serialization.MultiBuffer
import Mathlib.Data.List.Forall2

/-!
# A flat view of several spans

What `MultiBufferView` of `serialization/multi_buffer.h` is for: a string of bytes with a cursor. A read takes the bytes
at the cursor or nothing, pushing a span appends to the string, and flushing cuts off what is in front of the cursor. A
checkpoint remembers the cursor until the next flush.

The view returns what the flat one returns, and shows the same bytes and the same cursor, in every run whose rollbacks
belong to checkpoints behind the last flush (`run_flat`). The spans that it is constructed from may be empty.
`readWhile` is the loop of a read round by round, which comes to an end with what `readLoop` says.
-/

namespace OsterLib.Serialization
open OsterLib.Lib

namespace MultiBufferView
variable {α : Type}

/-- The constructor, which takes empty spans, too. -/
def ofSpans (spans : List (List α)) : MultiBufferView α := { buffers := spans }

/-- The number of bytes in front of the cursor -/
def position (v : MultiBufferView α) : Nat := ((v.buffers.take v.spanIdx).map List.length).sum + v.offset

/-- The loop of `advance`, which is the one of `read` without the copies. -/
def advanceLoop : List (List α) → Nat → Nat → Nat × Nat
  | [], offset, _ => (0, offset)
  | cur :: spans, offset, remaining =>
    if remaining = 0 then (0, offset)
    else
      let toSkip := min remaining (cur.length - offset)
      if offset + toSkip = cur.length then
        let (passed, offset) := advanceLoop spans 0 (remaining - toSkip)
        (passed + 1, offset)
      else (0, offset + toSkip)

/-- `advance`, with what it returns. -/
def advance (v : MultiBufferView α) (n : Nat) : Bool × MultiBufferView α :=
  if v.available < n then (false, v)
  else
    let (passed, offset) := advanceLoop (v.buffers.drop v.spanIdx) v.offset n
    (true, { v with spanIdx := v.spanIdx + passed, offset })

/-- The loop of `read` as a `while`, of at most so many rounds; `none` where it is not over by then, and where it looks
    for a span behind the last one. -/
def readWhile : Nat → List (List α) → Nat → Nat → Option (List α × Nat × Nat)
  | 0, _, _, _ => none
  | rounds + 1, spans, offset, remaining =>
    if remaining = 0 then some ([], 0, offset)
    else
      match spans with
      | [] => none
      | cur :: spans =>
        let toCopy := min remaining (cur.length - offset)
        let copied := (cur.drop offset).take toCopy
        if offset + toCopy = cur.length then
          (readWhile rounds spans 0 (remaining - toCopy)).map fun (rest, passed, offset) =>
            (copied ++ rest, passed + 1, offset)
        else
          (readWhile rounds (cur :: spans) (offset + toCopy) (remaining - toCopy)).map fun (rest, passed, offset) =>
            (copied ++ rest, passed, offset)

/-- The operations on a view -/
inductive Move (α : Type) where
  | read (n : Nat)
  | advance (n : Nat)
  | readTrivial (n : Nat)
  | push (buffer : List α)
  | checkpoint
  | rollback
  | commit
  | flushDeserialized

/-- What an operation returns: the bytes that are read, if there are enough, a flag, or a number of bytes. -/
inductive Reply (α : Type) where
  | done
  | bytes (read : Option (List α))
  | flag (returned : Bool)
  | count (n : Nat)
  deriving DecidableEq

/-- A rollback and a commit return whether there was a checkpoint. -/
def act (v : MultiBufferView α) : Move α → Reply α × MultiBufferView α
  | .read n =>
    match v.read n with
    | some (bytes, v) => (.bytes (some bytes), v)
    | none => (.bytes none, v)
  | .advance n => (.flag (v.advance n).1, (v.advance n).2)
  | .readTrivial n => (.bytes (v.readTrivial n).1, (v.readTrivial n).2)
  | .push buffer => (.done, v.push buffer)
  | .checkpoint => (.done, v.checkpoint)
  | .rollback => (.flag !v.checkpoints.isEmpty, v.rollback)
  | .commit => (.flag !v.checkpoints.isEmpty, v.commit)
  | .flushDeserialized => (.count v.flushDeserialized.1, v.flushDeserialized.2)

end MultiBufferView

open MultiBufferView (Move Reply Stands)

/-! ## The flat view -/

/-- A string of bytes with a cursor and the checkpoints, of which those before a flush are forgotten. -/
structure FlatView (α : Type) where
  bytes : List α
  cursor : Nat := 0
  checkpoints : List (Option Nat) := []

namespace FlatView
variable {α : Type}

/-- The bytes that are not read -/
def unread (f : FlatView α) : List α := f.bytes.drop f.cursor

/-- A read of so many bytes, or of none where there are fewer. -/
def read (f : FlatView α) (n : Nat) : Option (List α) × FlatView α :=
  if n ≤ f.unread.length then (some (f.unread.take n), { f with cursor := f.cursor + n }) else (none, f)

/-- A move of the flat view -/
def act (f : FlatView α) : Move α → Reply α × FlatView α
  | .read n => (.bytes (f.read n).1, (f.read n).2)
  | .advance n => (.flag (f.read n).1.isSome, (f.read n).2)
  | .readTrivial n => (.bytes (f.read n).1, (f.read n).2)
  | .push buffer => (.done, { f with bytes := f.bytes ++ buffer })
  | .checkpoint => (.done, { f with checkpoints := f.checkpoints ++ [some f.cursor] })
  | .rollback =>
    match f.checkpoints.getLast? with
    | some (some cursor) => (.flag true, { f with cursor, checkpoints := f.checkpoints.dropLast })
    | some none => (.flag true, { f with checkpoints := f.checkpoints.dropLast })
    | none => (.flag false, f)
  | .commit => (.flag !f.checkpoints.isEmpty, { f with checkpoints := f.checkpoints.dropLast })
  | .flushDeserialized => (.count f.cursor, { bytes := f.unread, checkpoints := f.checkpoints.map fun _ => none })

/-- A rollback belongs to a checkpoint behind the last flush, if there is any. -/
def Matched (f : FlatView α) : Move α → Prop
  | .rollback => f.checkpoints.getLast? ≠ some none
  | _ => True

instance (f : FlatView α) : DecidablePred f.Matched
  | .rollback => inferInstanceAs (Decidable (f.checkpoints.getLast? ≠ some none))
  | .read _ | .advance _ | .readTrivial _ | .push _ | .checkpoint | .commit | .flushDeserialized => isTrue trivial

end FlatView

/-- A view shows a flat one. -/
structure Flattens {α : Type} (v : MultiBufferView α) (f : FlatView α) : Prop where
  unread_eq : v.unread = f.unread
  position_eq : v.position = f.cursor
  available_eq : v.available + v.position = f.bytes.length

namespace MultiBufferView
variable {α : Type} {v : MultiBufferView α} {f : FlatView α}

/-- The cursor and the checkpoints are places behind the bytes that the flat view says. -/
structure Simulates (v : MultiBufferView α) (f : FlatView α) : Prop where
  bytes_eq : v.buffers.flatten = f.bytes
  stands : Stands v.buffers (v.spanIdx, v.offset) f.cursor
  checkpoints : List.Forall₂ (fun place mark => ∀ position, mark = some position → Stands v.buffers place position)
    v.checkpoints f.checkpoints

/-- A place stays where spans are put behind. -/
lemma Stands.append {spans : List (List α)} {place : Nat × Nat} {position : Nat}
    (stands : Stands spans place position) (more : List (List α)) : Stands (spans ++ more) place position := by
  obtain ⟨index_le, offset, position_eq⟩ := stands
  refine ⟨?_, ?_, ?_⟩
  · rw [List.length_append]
    omega
  · rcases offset with zero | ⟨cur, here, lt⟩
    · exact .inl zero
    · refine .inr ⟨cur, ?_, lt⟩
      rw [List.getElem?_append_left (List.getElem?_eq_some_iff.mp here).1, here]
  · rw [List.take_append_of_le_length index_le, position_eq]

/-- A place is the first one of the spans from its own on. -/
lemma Stands.here {spans : List (List α)} {place : Nat × Nat} {position : Nat} (stands : Stands spans place position) :
    Stands (spans.drop place.1) (0, place.2) place.2 := by
  refine ⟨Nat.zero_le _, ?_, Nat.zero_add _⟩
  rw [List.getElem?_drop]
  exact stands.offset

/-- A place behind another one is a place of all spans. -/
lemma Stands.add {spans : List (List α)} {place place' : Nat × Nat} {position position' : Nat}
    (stands : Stands spans place position) (stands' : Stands (spans.drop place.1) place' (place.2 + position')) :
    Stands spans (place.1 + place'.1, place'.2) (position + position') := by
  obtain ⟨index_le, -, position_eq⟩ := stands
  obtain ⟨index_le', offset', position_eq'⟩ := stands'
  rw [List.length_drop] at index_le'
  refine ⟨by omega, ?_, ?_⟩
  · rwa [List.getElem?_drop] at offset'
  · rw [List.take_add, List.map_append, List.sum_append]
    omega

/-- Advancing goes where reading does. -/
lemma advanceLoop_eq (spans : List (List α)) (offset n : Nat) :
    advanceLoop spans offset n = (readLoop spans offset n).2 := by
  induction spans generalizing offset n with
  | nil => rfl
  | cons cur spans ih =>
    unfold advanceLoop readLoop
    dsimp only
    split
    · rfl
    · rw [ih]
      split
      · rfl
      · rfl

/-- Both have the same bytes unread. -/
lemma Simulates.unread_eq (simulates : Simulates v f) : v.unread = f.unread := by
  unfold unread FlatView.unread
  rw [← simulates.bytes_eq]
  exact simulates.stands.unread_eq.1

/-- The view has the bytes of the flat one. -/
lemma Simulates.flattens (simulates : Simulates v f) : Flattens v f := by
  have le := simulates.stands.unread_eq.2
  rw [simulates.bytes_eq] at le
  refine ⟨simulates.unread_eq, simulates.stands.position_eq, ?_⟩
  rw [available_eq, simulates.unread_eq, FlatView.unread, List.length_drop]
  have position : v.position = f.cursor := simulates.stands.position_eq
  omega

/-- With a round for every span and two more, the loop of a read is over and has looked for no span behind the last
    one. -/
lemma readWhile_eq (spans : List (List α)) (offset n : Nat) (stands : Stands spans (0, offset) offset)
    (enough : n ≤ (spans.flatten.drop offset).length) :
    readWhile (spans.length + 2) spans offset n = some (readLoop spans offset n) := by
  induction spans generalizing offset n with
  | nil =>
    rw [List.flatten_nil, List.drop_nil] at enough
    obtain rfl : n = 0 := Nat.le_zero.mp enough
    rfl
  | cons cur spans ih =>
    have le : offset ≤ cur.length := stands.offset_le
    rw [List.flatten_cons, List.drop_append_of_le_length le, List.length_append, List.length_drop] at enough
    rw [List.length_cons, readWhile, readLoop]
    by_cases zero : n = 0
    · rw [if_pos zero, if_pos zero]
    · rw [if_neg zero, if_neg zero]
      dsimp only
      split
      case isTrue whole =>
        have start : Stands spans (0, 0) 0 := ⟨Nat.zero_le _, .inl rfl, rfl⟩
        rw [ih 0 _ start (by rw [List.drop_zero]; omega)]
        rfl
      case isFalse part =>
        -- nothing remains, so that the next round is the last one
        have none : n - min n (cur.length - offset) = 0 := by omega
        rw [none, readWhile, if_pos rfl, Option.map_some, List.append_nil]

/-- Both read the same bytes. -/
lemma Simulates.read (simulates : Simulates v f) {n : Nat} (enough : n ≤ f.unread.length) :
    ∃ v', v.read n = some (f.unread.take n, v') ∧ Simulates v' { f with cursor := f.cursor + n } := by
  obtain ⟨bytes_eq, stands, checkpoints⟩ := simulates
  have unread_eq : v.unread = f.unread := Simulates.unread_eq ⟨bytes_eq, stands, checkpoints⟩
  have here : Stands (v.buffers.drop v.spanIdx) (0, v.offset) v.offset := stands.here
  rw [← unread_eq] at enough ⊢
  obtain ⟨copied, stands'⟩ := readLoop_stands (v.buffers.drop v.spanIdx) v.offset n here enough
  refine ⟨{ v with spanIdx := v.spanIdx + (readLoop (v.buffers.drop v.spanIdx) v.offset n).2.1
                   offset := (readLoop (v.buffers.drop v.spanIdx) v.offset n).2.2 }, ?_, bytes_eq, ?_, checkpoints⟩
  · unfold MultiBufferView.read
    rw [if_neg (by rw [available_eq]; omega)]
    dsimp only
    rw [copied]
    rfl
  · exact stands.add stands'

/-- Both move on. -/
lemma Simulates.advance (simulates : Simulates v f) {n : Nat} (enough : n ≤ f.unread.length) :
    (v.advance n).1 = true ∧ Simulates (v.advance n).2 { f with cursor := f.cursor + n } := by
  obtain ⟨v', read, simulates'⟩ := simulates.read enough
  have same : v.advance n = (true, v') := by
    unfold MultiBufferView.advance
    unfold MultiBufferView.read at read
    split at read
    · cases read
    · rename_i available
      rw [if_neg available, advanceLoop_eq, ← (Prod.mk.inj (Option.some.inj read)).2]
  rw [same]
  exact ⟨rfl, simulates'⟩

/-- Where too few bytes are left nothing moves. -/
lemma advance_short {n : Nat} (short : v.unread.length < n) : v.advance n = (false, v) := by
  unfold MultiBufferView.advance
  rw [if_pos (by rw [available_eq]; exact short)]

/-- Both remember where they are. -/
lemma Simulates.checkpoint (simulates : Simulates v f) :
    Simulates v.checkpoint { f with checkpoints := f.checkpoints ++ [some f.cursor] } := by
  refine ⟨simulates.bytes_eq, simulates.stands, List.rel_append simulates.checkpoints (.cons ?_ .nil)⟩
  intro position position_eq
  cases position_eq
  exact simulates.stands

/-- There are no checkpoints in both views, or there is a last one in both. -/
lemma Simulates.last (simulates : Simulates v f) :
    (v.checkpoints = [] ∧ f.checkpoints = []) ∨
      ∃ place mark, v.checkpoints.getLast? = some place ∧ f.checkpoints.getLast? = some mark ∧
        ∀ position, mark = some position → Stands v.buffers place position := by
  have backward := List.forall₂_reverse_iff.mpr simulates.checkpoints
  rw [List.getLast?_eq_head?_reverse, List.getLast?_eq_head?_reverse]
  cases e : v.checkpoints.reverse with
  | nil =>
    rw [e, List.forall₂_nil_left_iff] at backward
    exact .inl ⟨List.reverse_eq_nil_iff.mp e, List.reverse_eq_nil_iff.mp backward⟩
  | cons place places =>
    rw [e, List.forall₂_cons_left_iff] at backward
    obtain ⟨mark, marks, stands, -, marks_eq⟩ := backward
    rw [marks_eq]
    exact .inr ⟨place, mark, rfl, rfl, stands⟩

/-- Both forget the last checkpoint. -/
lemma Simulates.commit (simulates : Simulates v f) :
    Simulates v.commit { f with checkpoints := f.checkpoints.dropLast } := by
  refine ⟨simulates.bytes_eq, simulates.stands, ?_⟩
  show List.Forall₂ _ v.checkpoints.dropLast f.checkpoints.dropLast
  rw [List.dropLast_eq_take, List.dropLast_eq_take, simulates.checkpoints.length_eq]
  exact List.forall₂_take _ simulates.checkpoints

/-- Both have a checkpoint, or neither has. -/
lemma Simulates.isEmpty_eq (simulates : Simulates v f) : v.checkpoints.isEmpty = f.checkpoints.isEmpty := by
  rw [Bool.eq_iff_iff, List.isEmpty_iff_length_eq_zero, List.isEmpty_iff_length_eq_zero,
    simulates.checkpoints.length_eq]

/-- A rollback to a checkpoint behind the last flush returns to where the cursor was. -/
lemma Simulates.rollback (simulates : Simulates v f) (matched : f.Matched .rollback) :
    (v.act .rollback).1 = (f.act .rollback).1 ∧ Simulates (v.act .rollback).2 (f.act .rollback).2 := by
  have committed := simulates.commit.checkpoints
  unfold MultiBufferView.act FlatView.act MultiBufferView.rollback
  dsimp only
  rcases simulates.last with ⟨places, marks⟩ | ⟨place, mark, last, last', stands⟩
  · rw [marks, places]
    exact ⟨rfl, simulates⟩
  · have filled : v.checkpoints.isEmpty = false := by
      rw [List.isEmpty_eq_false_iff]
      intro none
      rw [none] at last
      cases last
    rw [last, last', filled]
    cases mark with
    | none => exact absurd last' matched
    | some cursor => exact ⟨rfl, simulates.bytes_eq, stands cursor rfl, committed⟩

/-- The dropped bytes are those in front of the cursor, and the rest is what is not read. -/
lemma Simulates.flush (simulates : Simulates v f) :
    v.flushDeserialized.1 = f.cursor ∧
      Simulates v.flushDeserialized.2 { bytes := f.unread, checkpoints := f.checkpoints.map fun _ => none } := by
  refine ⟨simulates.stands.position_eq, ?_, ⟨Nat.zero_le _, .inl rfl, rfl⟩, ?_⟩
  · rw [← simulates.unread_eq]
    unfold flushDeserialized MultiBufferView.unread
    dsimp only
    cases e : v.buffers.drop v.spanIdx with
    | nil => rw [List.flatten_nil, List.drop_nil]
    | cons front spans =>
      have here := simulates.stands.here
      rw [e] at here
      have le : v.offset ≤ front.length := here.offset_le
      show (front.drop v.offset :: spans).flatten = _
      rw [List.flatten_cons, List.flatten_cons, List.drop_append_of_le_length le]
  · rw [List.forall₂_map_right_iff]
    exact simulates.checkpoints.imp fun _ _ _ _ impossible => by cases impossible

/-- Both get the bytes of a span. -/
lemma Simulates.push (simulates : Simulates v f) (buffer : List α) :
    Simulates (v.push buffer) { f with bytes := f.bytes ++ buffer } := by
  unfold MultiBufferView.push
  cases buffer with
  | nil =>
    rw [List.append_nil]
    exact simulates
  | cons cell cells =>
    refine ⟨?_, simulates.stands.append _, ?_⟩
    · show (v.buffers ++ [cell :: cells]).flatten = _
      rw [List.flatten_append, List.flatten_singleton, simulates.bytes_eq]
    · exact simulates.checkpoints.imp fun _ _ stands position position_eq => (stands position position_eq).append _

/-- `read_trivial` is a read that leaves the checkpoints alone. -/
lemma Simulates.readTrivial (simulates : Simulates v f) (n : Nat) :
    (v.readTrivial n).1 = (f.read n).1 ∧ Simulates (v.readTrivial n).2 (f.read n).2 := by
  unfold FlatView.read
  by_cases enough : n ≤ f.unread.length
  · obtain ⟨v', read, simulates'⟩ := simulates.checkpoint.read (n := n) enough
    have committed := simulates'.commit
    rw [if_pos enough]
    unfold MultiBufferView.readTrivial
    rw [read]
    dsimp only at committed ⊢
    rw [List.dropLast_concat] at committed
    exact ⟨rfl, committed⟩
  · rw [if_neg enough, readTrivial_short (by rw [simulates.unread_eq]; omega)]
    exact ⟨rfl, simulates⟩

/-- Every matched move answers the same and keeps both alike. -/
lemma Simulates.act (simulates : Simulates v f) (move : Move α) (matched : f.Matched move) :
    (v.act move).1 = (f.act move).1 ∧ Simulates (v.act move).2 (f.act move).2 := by
  cases move with
  | read n =>
    unfold MultiBufferView.act FlatView.act FlatView.read
    by_cases enough : n ≤ f.unread.length
    · obtain ⟨v', read, simulates'⟩ := simulates.read enough
      simp only [read, if_pos enough]
      exact ⟨trivial, simulates'⟩
    · simp only [read_short (show v.unread.length < n by rw [simulates.unread_eq]; omega), if_neg enough]
      exact ⟨trivial, simulates⟩
  | advance n =>
    unfold MultiBufferView.act FlatView.act FlatView.read
    by_cases enough : n ≤ f.unread.length
    · simp only [if_pos enough, (simulates.advance enough).1]
      exact ⟨rfl, (simulates.advance enough).2⟩
    · simp only [advance_short (show v.unread.length < n by rw [simulates.unread_eq]; omega), if_neg enough]
      exact ⟨rfl, simulates⟩
  | readTrivial n =>
    obtain ⟨same, simulates'⟩ := simulates.readTrivial n
    exact ⟨congrArg Reply.bytes same, simulates'⟩
  | push buffer => exact ⟨rfl, simulates.push buffer⟩
  | checkpoint => exact ⟨rfl, simulates.checkpoint⟩
  | rollback => exact simulates.rollback matched
  | commit => exact ⟨congrArg (fun empty => Reply.flag !empty) simulates.isEmpty_eq, simulates.commit⟩
  | flushDeserialized => exact ⟨congrArg Reply.count simulates.flush.1, simulates.flush.2⟩

/-- Spans are simulated by their bytes. -/
lemma simulates_ofSpans (spans : List (List α)) : Simulates (ofSpans spans) { bytes := spans.flatten } :=
  ⟨rfl, ⟨Nat.zero_le _, .inl rfl, rfl⟩, .nil⟩

/-- In a run whose rollbacks belong to checkpoints behind the last flush, the view returns what the flat view of all
    spans returns and shows the same bytes and the same cursor, and the loop of every read that finds enough bytes comes
    to an end inside the spans. -/
theorem run_flat (spans : List (List α)) (moves : List (Move α))
    (matched : Guarded (fun f move => (f.act move).2) FlatView.Matched { bytes := spans.flatten } moves) :
    let v := run (fun v move => (v.act move).2) (ofSpans spans) moves
    let f := run (fun f move => (f.act move).2) { bytes := spans.flatten } moves
    outputs MultiBufferView.act (ofSpans spans) moves = outputs FlatView.act { bytes := spans.flatten } moves ∧
      Flattens v f ∧
      ∀ n ≤ v.available, ∃ rounds,
        readWhile rounds (v.buffers.drop v.spanIdx) v.offset n =
          some (readLoop (v.buffers.drop v.spanIdx) v.offset n) := by
  intro v f
  obtain ⟨same, simulates⟩ := outputs_eq (R := Simulates) (fun v f move simulates matched => simulates.act move matched)
    (simulates_ofSpans spans) matched
  refine ⟨same, simulates.flattens, fun n enough => ⟨_, readWhile_eq _ _ n simulates.stands.here ?_⟩⟩
  rw [available_eq] at enough
  exact enough

/-- Two spans, one of them empty, are read over the border and after a push; a read of too many bytes and a rollback. -/
theorem run_flat_straddles :
    outputs MultiBufferView.act (ofSpans [[1, 2], [], [3]])
        [.checkpoint, .read 1, .read 3, .readTrivial 2, .rollback, .advance 2, .flushDeserialized, .push [4, 5],
          .read 2] =
      [.done, .bytes (some [1]), .bytes none, .bytes (some [2, 3]), .flag true, .flag true, .count 2, .done,
        .bytes (some [3, 4])] := by
  have matched : Guarded (fun (f : FlatView Nat) move => (f.act move).2) FlatView.Matched { bytes := [1, 2, 3] }
      [.checkpoint, .read 1, .read 3, .readTrivial 2, .rollback, .advance 2, .flushDeserialized, .push [4, 5],
        .read 2] := by
    refine ⟨trivial, trivial, trivial, trivial, ?_, trivial, trivial, trivial, trivial, trivial⟩
    decide
  exact (run_flat [[1, 2], [], [3]] _ matched).1

end MultiBufferView
end OsterLib.Serialization
