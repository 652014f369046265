import OsterLib.Serialization.ByteOrder
import OsterLib.Serialization.MultiBuffer
import Mathlib.Logic.Function.Basic

/-!
# The stream serializer

`StreamSerializer` of `serialization.h`: the cursor over the pushed spans, and what an unfinished decode
leaves behind for its repetition. `begin`, `end` and `iterator` count the bytes consumed: `end - iterator`
of them have been consumed by an earlier attempt and are passed over by `try_advance`. The counts of
containers that are being decoded are registered under the nesting level.

`registered_.at` throws for a level or an index that is not there, and every caller is `noexcept`: that
outcome is `Fault.missingRegistered`.
-/

namespace OsterLib.Serialization

/-- What ends a run without a code. -/
inductive Fault where
  | missingRegistered
  | outOfBounds
  deriving DecidableEq, Repr

/-- `StreamSerializer`: the view, the values registered at each level, and the counts of the bytes to pass over -/
structure StreamSerializer (α : Type) where
  mbv : MultiBufferView α := {}
  registered : Nat → List UInt64 := fun _ => []
  begin : UInt64 := 0
  end_ : UInt64 := 0
  iterator : UInt64 := 0
  level : Nat := 0

/-- How a decode ends: the code, the destination and the serializer after it. -/
abbrev Outcome (α V : Type) := SerializationEC × V × StreamSerializer α

namespace StreamSerializer
variable {α V : Type}

/-- `push_view` -/
def pushView (s : StreamSerializer α) (buffer : List α) : StreamSerializer α :=
  if buffer.isEmpty then s else { s with mbv := s.mbv.push buffer, iterator := s.begin }

/-- `try_advance` for a value of `size` bytes; `none` where it returns `false`. -/
def tryAdvance (s : StreamSerializer α) (size : UInt64) : Option (StreamSerializer α) :=
  if size ≤ s.end_ - s.iterator then some { s with iterator := s.iterator + size } else none

/-- `register_value` -/
def registerValue (s : StreamSerializer α) (value : UInt64) : StreamSerializer α :=
  { s with registered := Function.update s.registered s.level (s.registered s.level ++ [value]) }

/-- `registered_size` -/
def registeredSize (s : StreamSerializer α) : Nat :=
  (s.registered s.level).length

/-- `get_value_at` -/
def getValueAt (s : StreamSerializer α) (index : Nat) : Except Fault UInt64 :=
  match (s.registered s.level)[index]? with
  | some value => .ok value
  | none => .error .missingRegistered

/-- `update_value_at` -/
def updateValueAt (s : StreamSerializer α) (value : UInt64) (index : Nat) :
    Except Fault (StreamSerializer α) :=
  match (s.registered s.level)[index]? with
  | some _ =>
    let values := (s.registered s.level).set index value
    .ok { s with registered := Function.update s.registered s.level values }
  | none => .error .missingRegistered

/-- `deserialize` of a numeric value of `size` bytes. -/
def deserializeNumeric (size : Nat) (ofBytes : List Byte → V) (load : α → Byte) (value : V)
    (s : StreamSerializer α) : Outcome α V :=
  match s.mbv.readTrivial size with
  | (some cells, mbv) =>
    let sz := UInt64.ofNat size
    (.none, ofBytes (cells.map load),
      { s with mbv, end_ := s.end_ + sz, iterator := s.iterator + sz })
  | (none, mbv) => (.bufferSizeLesser, value, { s with mbv })

/-- `deserialize` of every other value, around the call of its `Deserialize`. -/
def deserializeNested (body : V → StreamSerializer α → Except Fault (Outcome α V)) (value : V)
    (s : StreamSerializer α) : Except Fault (Outcome α V) := do
  let (code, value, s) ← body value { s with level := s.level + 1 }
  let finished :=
    if code = .none then
      if s.level = 1 then
        { s with
          mbv := s.mbv.flushDeserialized.2
          begin := s.end_
          iterator := s.end_
          registered := fun _ => [] }
      else { s with registered := Function.update s.registered s.level [] }
    else { s with iterator := s.begin }
  return (code, value, { finished with level := s.level - 1 })

/-- `flush` -/
def flush (s : StreamSerializer α) : Nat × StreamSerializer α :=
  let (dropped, mbv) := s.mbv.flushDeserialized
  (dropped, { s with mbv })

/-- `reset_all` -/
def resetAll (s : StreamSerializer α) : StreamSerializer α :=
  { s with mbv := {}, registered := fun _ => [], begin := 0, end_ := 0 }

/-! ## Bytes to pass over -/

variable {s : StreamSerializer α}

/-- The number of consumed bytes that are still to be passed over. -/
def lag (s : StreamSerializer α) : Nat := (s.end_ - s.iterator).toNat

/-- Too few bytes are to be passed over. -/
lemma tryAdvance_none (size : UInt64) (few : s.lag < size.toNat) : s.tryAdvance size = none := by
  unfold tryAdvance
  rw [if_neg]
  exact fun le => absurd (UInt64.le_iff_toNat_le.1 le) (Nat.not_le.2 few)

/-- Enough bytes are to be passed over, which moves only the counts. -/
lemma tryAdvance_some (size : UInt64) (enough : size.toNat ≤ s.lag) :
    ∃ t, s.tryAdvance size = some t ∧ t.lag = s.lag - size.toNat ∧ t.level = s.level ∧
      t.registered = s.registered ∧ t.mbv = s.mbv := by
  have le : size ≤ s.end_ - s.iterator := UInt64.le_iff_toNat_le.2 enough
  refine ⟨_, if_pos le, ?_, rfl, rfl, rfl⟩
  show (s.end_ - (s.iterator + size)).toNat = _
  rw [show s.end_ - (s.iterator + size) = s.end_ - s.iterator - size by grind,
    UInt64.toNat_sub_of_le _ _ le]
  rfl

/-- A number is consumed from both ends of the bytes to pass over. -/
lemma lag_consume (s : StreamSerializer α) (sz : UInt64) :
    (s.end_ + sz - (s.iterator + sz)).toNat = s.lag := by
  rw [show s.end_ + sz - (s.iterator + sz) = s.end_ - s.iterator by grind]
  rfl

/-! ## Pushing spans -/

/-- The number of consumed bytes that are to be passed over behind the next push. -/
def owed (s : StreamSerializer α) : Nat := (s.end_ - s.begin).toNat

/-- A pushed span is behind what is unread. -/
lemma pushView_valid (valid : s.mbv.Valid) (span : List α) :
    (s.pushView span).mbv.Valid ∧ (s.pushView span).mbv.unread = s.mbv.unread ++ span := by
  have pushed := valid.push span
  unfold StreamSerializer.pushView
  cases span with
  | nil => exact ⟨valid, (List.append_nil _).symm⟩
  | cons cell cells => exact pushed

/-- A push keeps the level, what is registered, and the bytes owed. -/
lemma pushView_kept (s : StreamSerializer α) (span : List α) :
    (s.pushView span).level = s.level ∧ (s.pushView span).registered = s.registered ∧
      (s.pushView span).owed = s.owed := by
  unfold StreamSerializer.pushView
  cases span <;> exact ⟨rfl, rfl, rfl⟩

/-- Whatever is pushed behind a span, all that is owed is to be passed over. -/
lemma pushView_lag {span : List α} (some : span ≠ []) (more : List α) :
    ((s.pushView span).pushView more).lag = s.owed := by
  cases span with
  | nil => exact absurd rfl some
  | cons cell cells => cases more <;> rfl

/-- The serializer as `deserialize` hands it to a `Deserialize`. -/
def enter (s : StreamSerializer α) : StreamSerializer α := { s with level := s.level + 1 }

end StreamSerializer
end OsterLib.Serialization
