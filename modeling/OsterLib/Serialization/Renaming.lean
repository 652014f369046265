import OsterLib.Serialization.Fields
import OsterLib.Serialization.Work

/-!
# Renaming the cells of a serializer

A decode sees the cells of the pushed spans only through the bytes they hold, and `begin`, `end` and `iterator` only
through their differences. So it does the same on a serializer whose cells are renamed and whose counts are shifted
(`Shape.renames`).

Two storages that hold the same bytes in the cells of a serializer are two such readings of the cells, and cannot be
told apart by a decode (`deserializeFields_congr`).
-/

namespace OsterLib.Serialization

namespace MultiBufferView
variable {α β : Type} (g : α → β)

/-- The view with its cells renamed. -/
def rename (v : MultiBufferView α) : MultiBufferView β where
  buffers := v.buffers.map (List.map g)
  spanIdx := v.spanIdx
  offset := v.offset
  checkpoints := v.checkpoints

/-- Other cells have the same spans. -/
lemma rename_lengths (spans : List (List α)) : (spans.map (List.map g)).map List.length = spans.map List.length := by
  rw [List.map_map]
  exact List.map_congr_left fun span _ => List.length_map g

/-- As many cells are available. -/
lemma rename_available (v : MultiBufferView α) : (v.rename g).available = v.available := by
  rw [available, available, rename, ← List.map_drop, rename_lengths]

/-- The same cells are read, under their new names. -/
lemma rename_readLoop (spans : List (List α)) (offset remaining : Nat) :
    readLoop (spans.map (List.map g)) offset remaining =
      Prod.map (List.map g) id (readLoop spans offset remaining) := by
  induction spans generalizing offset remaining with
  | nil => rfl
  | cons cur spans ih =>
    rw [List.map_cons, readLoop, readLoop, List.length_map]
    split
    · rfl
    · dsimp only
      split
      · rw [ih]
        simp [List.map_take, List.map_drop]
      · simp [List.map_take, List.map_drop]

/-- Reading does not depend on what the cells are. -/
lemma rename_read (v : MultiBufferView α) (n : Nat) :
    (v.rename g).read n = (v.read n).map (Prod.map (List.map g) (rename g)) := by
  rw [read, read, rename_available]
  split
  · rfl
  · rw [show (v.rename g).buffers.drop (v.rename g).spanIdx = (v.buffers.drop v.spanIdx).map (List.map g) from
      List.map_drop.symm, show (v.rename g).offset = v.offset from rfl, rename_readLoop]
    rfl

/-- Going back does not depend on what the cells are. -/
lemma rename_rollback (v : MultiBufferView α) : (v.rename g).rollback = v.rollback.rename g := by
  rw [rollback, rollback, show (v.rename g).checkpoints = v.checkpoints from rfl]
  obtain _ | ⟨spanIdx, offset⟩ := v.checkpoints.getLast?
  · rfl
  · rfl

/-- Reading a number does not depend on what the cells are. -/
lemma rename_readTrivial (v : MultiBufferView α) (n : Nat) :
    (v.rename g).readTrivial n = Prod.map (Option.map (List.map g)) (rename g) (v.readTrivial n) := by
  rw [readTrivial, readTrivial, show (v.rename g).checkpoint = v.checkpoint.rename g from rfl, rename_read]
  cases v.checkpoint.read n with
  | none => exact congrArg (Prod.mk none) (rename_rollback g v.checkpoint)
  | some result => rfl

/-- Flushing does not depend on what the cells are. -/
lemma rename_flush (v : MultiBufferView α) :
    (v.rename g).flushDeserialized = Prod.map id (rename g) v.flushDeserialized := by
  rw [flushDeserialized, flushDeserialized, rename]
  dsimp only
  rw [← List.map_take, ← List.map_drop, rename_lengths]
  cases v.buffers.drop v.spanIdx with
  | nil => rfl
  | cons front spans => simp [rename]

end MultiBufferView

namespace StreamSerializer
variable {α β : Type} (g : α → β) (k : UInt64)

/-- The serializer with its cells renamed and its counts shifted. -/
def rename (s : StreamSerializer α) : StreamSerializer β where
  mbv := s.mbv.rename g
  registered := s.registered
  begin := s.begin + k
  end_ := s.end_ + k
  iterator := s.iterator + k
  level := s.level

/-- The outcome of a decode, for the renamed serializer. -/
def renamed {V : Type} (outcome : Outcome α V) : Outcome β V :=
  (outcome.1, outcome.2.1, outcome.2.2.rename g k)

/-- Only differences of the counts matter. -/
lemma shifted_sub (a b : UInt64) : a + k - (b + k) = a - b := by grind

/-- What is passed over does not depend on where the counts stand. -/
lemma rename_tryAdvance (s : StreamSerializer α) (size : UInt64) :
    (s.rename g k).tryAdvance size = (s.tryAdvance size).map (rename g k) := by
  rw [tryAdvance, tryAdvance, show (s.rename g k).end_ - (s.rename g k).iterator = s.end_ - s.iterator from
    shifted_sub k _ _]
  split
  · have shift : s.iterator + k + size = s.iterator + size + k := by grind
    exact congrArg (fun iterator => some ({ s.rename g k with iterator } : StreamSerializer β)) shift
  · rfl

/-- What is registered does not depend on where the counts stand. -/
lemma rename_updateValueAt (s : StreamSerializer α) (value : UInt64) (index : Nat) :
    (s.rename g k).updateValueAt value index = (s.updateValueAt value index).map (rename g k) := by
  rw [updateValueAt, updateValueAt, show (s.rename g k).registered (s.rename g k).level = s.registered s.level from rfl]
  cases (s.registered s.level)[index]? with
  | none => rfl
  | some value => rfl

/-- A number is read from the renamed cells as before. -/
lemma rename_numeric {V : Type} (size : Nat) (ofBytes : List Byte → V) (load : β → Byte) (x : V)
    (s : StreamSerializer α) : (s.rename g k).deserializeNumeric size ofBytes load x =
      renamed g k (s.deserializeNumeric size ofBytes (load ∘ g) x) := by
  rw [deserializeNumeric, deserializeNumeric, show (s.rename g k).mbv = s.mbv.rename g from rfl,
    MultiBufferView.rename_readTrivial]
  obtain ⟨cells, mbv⟩ := s.mbv.readTrivial size
  cases cells with
  | none => rfl
  | some cells =>
    have ends : s.end_ + k + UInt64.ofNat size = s.end_ + UInt64.ofNat size + k := by grind
    have iterator : s.iterator + k + UInt64.ofNat size = s.iterator + UInt64.ofNat size + k := by grind
    simp only [Prod.map, Option.map_some, List.map_map, renamed, rename, ends, iterator]

/-- What follows a renamed decode follows the decode. -/
lemma bind_renamed {V W : Type} (x : Except Fault (Outcome α V)) {next : Outcome β V → Except Fault (Outcome β W)}
    {before : Outcome α V → Except Fault (Outcome α W)}
    (later : ∀ a, next (renamed g k a) = (before a).map (renamed g k)) :
    x.map (renamed g k) >>= next = (x >>= before).map (renamed g k) := by
  cases x with
  | error fault => rfl
  | ok a => exact later a

/-- A decode renames if its body does. -/
lemma rename_nested {V : Type} {body : V → StreamSerializer β → Except Fault (Outcome β V)}
    {before : V → StreamSerializer α → Except Fault (Outcome α V)} {x : V}
    (same : ∀ s, body x (s.rename g k) = (before x s).map (renamed g k)) (s : StreamSerializer α) :
    deserializeNested body x (s.rename g k) = (deserializeNested before x s).map (renamed g k) := by
  rw [deserializeNested, deserializeNested,
    show { s.rename g k with level := (s.rename g k).level + 1 } = s.enter.rename g k from rfl, same]
  refine bind_renamed g k _ ?_
  rintro ⟨code, y, t⟩
  simp only [renamed]
  cases code with
  | none =>
    simp only [if_true]
    show Except.ok _ = Except.ok _
    by_cases top : t.level = 1
    -- behind a value that is no part of another, what was read is dropped and the counts start at the end
    · have flushed := congrArg Prod.snd (t.mbv.rename_flush g)
      simp only [show (t.rename g k).level = t.level from rfl, top, if_true]
      exact congrArg (fun mbv => Except.ok (SerializationEC.none, y,
        ({ t.rename g k with
            mbv, begin := t.end_ + k, iterator := t.end_ + k, registered := fun _ => []
            level := 0 } : StreamSerializer β))) flushed
    · simp only [show (t.rename g k).level = t.level from rfl, top, if_false]
      rfl
  | _ => rfl

end StreamSerializer

/-! ## The decoders -/

section decoders
open StreamSerializer SerialType
variable {f : Format} {α β : Type} (g : α → β) (k : UInt64) (load : β → Byte)

/-- A decode of the type does the same on a renamed serializer. -/
def SerialType.Renames (o : SerialType) (f : Format) : Prop :=
  ∀ {α β : Type} (g : α → β) (k : UInt64) (load : β → Byte) (x : o.Val) (s : StreamSerializer α),
    o.deserialize f load x (s.rename g k) = (o.deserialize f (load ∘ g) x s).map (renamed g k)

/-- A duration renames. -/
lemma renames_duration {n : Nat} (ofNanoseconds : BitVec 64 → BitVec (8 * n)) (x : BitVec (8 * n))
    (s : StreamSerializer α) : deserializeDuration ofNanoseconds f load x (s.rename g k) =
      (deserializeDuration ofNanoseconds f (load ∘ g) x s).map (renamed g k) := by
  rw [deserializeDuration, deserializeDuration, rename_numeric]
  obtain ⟨code, count, t⟩ := s.deserializeNumeric 8 (fun bytes => BitVec.ofNat 64 (readWord f bytes)) (load ∘ g) 0
  cases code <;> rfl

variable {a b : SerialType}

/-- A pair renames if both parts do. -/
lemma renames_pair (first : a.Renames f) (second : b.Renames f) (x : a.Val × b.Val) (s : StreamSerializer α) :
    deserializePair a b f load x (s.rename g k) =
      (deserializePair a b f (load ∘ g) x s).map (renamed g k) := by
  rw [deserializePair, deserializePair, first g k load]
  refine bind_renamed g k _ ?_
  rintro ⟨code, y, t⟩
  show (if code = .none then _ else _) = Except.map _ (if code = .none then _ else _)
  by_cases done : code = .none
  · rw [if_pos done, if_pos done, second g k load]
    refine bind_renamed g k _ ?_
    rintro ⟨code, z, u⟩
    rfl
  · rw [if_neg done, if_neg done]
    rfl

/-- The decode of what an optional, a smart pointer or a variant holds. -/
lemma renames_inner {W : Type} (inner : a.Renames f) (hold : a.Val → W) (x : a.Val) (s : StreamSerializer α) :
    (do
      let (code, value, s) ← a.deserialize f load x (s.rename g k)
      return (code, hold value, s)) =
    Except.map (renamed g k) (do
      let (code, value, s) ← a.deserialize f (load ∘ g) x s
      return (code, hold value, s)) := by
  rw [inner g k load]
  refine bind_renamed g k _ ?_
  rintro ⟨code, value, t⟩
  rfl

/-- An optional renames if its value does. -/
lemma renames_maybe (inner : a.Renames f) (cleared : Option a.Val → Option a.Val) (x : Option a.Val)
    (s : StreamSerializer α) : deserializeMaybe a cleared f load x (s.rename g k) =
      (deserializeMaybe a cleared f (load ∘ g) x s).map (renamed g k) := by
  rw [deserializeMaybe, deserializeMaybe, rename_tryAdvance, rename_numeric]
  cases s.tryAdvance 1 with
  | some t =>
    cases x with
    | none => rfl
    | some value => exact renames_inner g k load inner some value t
  | none =>
    obtain ⟨code, flag, t⟩ := s.deserializeNumeric 1 (readFlag f) (load ∘ g) false
    cases code with
    | none =>
      cases flag with
      | false => rfl
      | true => exact renames_inner g k load inner some a.init t
    | _ => rfl

/-- A variant renames if its alternatives do. -/
lemma renames_variant {n : Nat} {alternatives : Fin (n + 1) → SerialType}
    (inner : ∀ i, (alternatives i).Renames f) (x : Σ i, (alternatives i).Val) (s : StreamSerializer α) :
    deserializeVariant alternatives f load x (s.rename g k) =
      (deserializeVariant alternatives f (load ∘ g) x s).map (renamed g k) := by
  have visit (x : Σ i, (alternatives i).Val) (t : StreamSerializer α) :
      deserializeAlternative alternatives f load x (t.rename g k) =
        (deserializeAlternative alternatives f (load ∘ g) x t).map (renamed g k) :=
    @renames_inner f α β g k load (alternatives x.1) (Σ i, (alternatives i).Val) (inner x.1)
      (fun value => ⟨x.1, value⟩) x.2 t
  rw [deserializeVariant, deserializeVariant, rename_tryAdvance, deserializeSize, deserializeSize, rename_numeric]
  cases s.tryAdvance 8 with
  | some t => exact visit x t
  | none =>
    obtain ⟨code, index, t⟩ := s.deserializeNumeric 8 (fun bytes => UInt64.ofNat (readWord f bytes)) (load ∘ g)
      (UInt64.ofNat (2 ^ 64 - 1))
    cases code with
    | none =>
      simp only [renamed]
      cases emplace alternatives index with
      | none => rfl
      | some x => exact visit x t
    | _ => rfl

variable {elem : SerialType}

/-- The size of a range renames. -/
lemma renames_rangeSize (x : List elem.Val) (s : StreamSerializer α) :
    deserializeRangeSize elem f load x (s.rename g k) =
      (deserializeRangeSize elem f (load ∘ g) x s).map
        fun (code, size, x, t) => (code, size, x, t.rename g k) := by
  rw [deserializeRangeSize, deserializeRangeSize, rename_tryAdvance, deserializeSize, deserializeSize,
    rename_numeric]
  cases s.tryAdvance 8 with
  | some t =>
    show (t.getValueAt 0 >>= _) = Except.map _ (t.getValueAt 0 >>= _)
    cases t.getValueAt 0 <;> rfl
  | none =>
    obtain ⟨code, size, t⟩ := s.deserializeNumeric 8 (fun bytes => UInt64.ofNat (readWord f bytes)) (load ∘ g) 0
    cases code <;> rfl

/-- The elements of a range rename if each does. -/
lemma renames_elements (inner : elem.Renames f) (insert : List elem.Val → elem.Val → List elem.Val) (count : Nat)
    (x : List elem.Val) (s : StreamSerializer α) :
    deserializeElements elem insert f load count x (s.rename g k) =
      (deserializeElements elem insert f (load ∘ g) count x s).map (renamed g k) := by
  induction count generalizing x s with
  | zero => rfl
  | succ count ih =>
    rw [deserializeElements, deserializeElements, inner g k load]
    refine bind_renamed g k _ ?_
    rintro ⟨code, item, t⟩
    show (if code = .none then _ else _) = Except.map _ (if code = .none then _ else _)
    by_cases done : code = .none
    · rw [if_pos done, if_pos done]
      exact ih (insert x item) t
    · rw [if_neg done, if_neg done]
      rfl

/-- A range renames if its elements do. -/
lemma renames_range (inner : elem.Renames f) (insert : List elem.Val → elem.Val → List elem.Val)
    (x : List elem.Val) (s : StreamSerializer α) : deserializeRange elem insert f load x (s.rename g k) =
      (deserializeRange elem insert f (load ∘ g) x s).map (renamed g k) := by
  rw [deserializeRange, deserializeRange, renames_rangeSize]
  obtain _ | ⟨code, size, y, t⟩ := deserializeRangeSize elem f (load ∘ g) x s
  · rfl
  · show (if code = .none then _ else _) = Except.map _ (if code = .none then _ else _)
    split
    · exact renames_elements g k load inner insert _ y t
    · rfl

/-- The elements of a forward list rename if each does. -/
lemma renames_front (inner : elem.Renames f) (old : UInt64) (count : Nat) (x : List elem.Val)
    (s : StreamSerializer α) : deserializeFront elem old f load count x (s.rename g k) =
      (deserializeFront elem old f (load ∘ g) count x s).map (renamed g k) := by
  induction count generalizing x s with
  | zero => rfl
  | succ count ih =>
    rw [deserializeFront, deserializeFront, inner g k load]
    refine bind_renamed g k _ ?_
    rintro ⟨code, item, t⟩
    show (if code = .none then _ else _) = Except.map _ (if code = .none then _ else _)
    by_cases done : code = .none
    · rw [if_pos done, if_pos done, rename_updateValueAt]
      cases t.updateValueAt (old + 1) 1 with
      | error fault => rfl
      | ok u => exact ih (item :: x) u
    · rw [if_neg done, if_neg done]
      rfl

/-- The elements of a forward list rename, turned round. -/
lemma renames_frontAll (inner : elem.Renames f) (size : UInt64) (x : List elem.Val) (s : StreamSerializer α) :
    deserializeFrontAll elem size f load x (s.rename g k) =
      (deserializeFrontAll elem size f (load ∘ g) x s).map (renamed g k) := by
  rw [deserializeFrontAll_eq, deserializeFrontAll_eq]
  -- the registered counts are those of the serializer before it was renamed
  have old : Work.frontOld x (s.rename g k) = (Work.frontOld x s).map (Prod.map id (rename g k)) := by
    rw [Work.frontOld, Work.frontOld, show (s.rename g k).registeredSize = s.registeredSize from rfl,
      show (s.rename g k).getValueAt 1 = s.getValueAt 1 from rfl]
    split
    · rfl
    · cases s.getValueAt 1 with
      | error fault => rfl
      | ok old => rfl
  rw [old]
  obtain _ | ⟨old, t⟩ := Work.frontOld x s
  · rfl
  · simp only [Except.map, Prod.map, id]
    rw [renames_front g k load inner]
    refine bind_renamed g k _ ?_
    rintro ⟨code, y, u⟩
    rfl

/-- A forward list renames if its elements do. -/
lemma renames_forwardList (inner : elem.Renames f) (x : List elem.Val) (s : StreamSerializer α) :
    deserializeForwardList elem f load x (s.rename g k) =
      (deserializeForwardList elem f (load ∘ g) x s).map (renamed g k) := by
  rw [deserializeForwardList, deserializeForwardList, renames_rangeSize]
  obtain _ | ⟨code, size, y, t⟩ := deserializeRangeSize elem f (load ∘ g) x s
  · rfl
  · show (if code = .none then _ else _) = Except.map _ (if code = .none then _ else _)
    split
    · exact renames_frontAll g k load inner size y t
    · rfl

/-- The items of an array rename if each does. -/
lemma renames_items (inner : elem.Renames f) (remain : UInt64) {n : Nat} (count i : Nat) (x : Fin n → elem.Val)
    (s : StreamSerializer α) : deserializeItems elem remain f load count i x (s.rename g k) =
      (deserializeItems elem remain f (load ∘ g) count i x s).map (renamed g k) := by
  induction count generalizing i x s with
  | zero => rfl
  | succ count ih =>
    rw [deserializeItems, deserializeItems]
    by_cases lt : i < n
    · rw [dif_pos lt, dif_pos lt, inner g k load]
      refine bind_renamed g k _ ?_
      rintro ⟨code, item, t⟩
      show (StreamSerializer.updateValueAt (t.rename g k) _ 0 >>= _) = Except.map _ (t.updateValueAt _ 0 >>= _)
      rw [rename_updateValueAt]
      cases t.updateValueAt (remain - 1) 0 with
      | error fault => rfl
      | ok u =>
        show (if code = .none then _ else _) = Except.map _ (if code = .none then _ else _)
        split
        · exact ih (i + 1) _ u
        · rfl
    · rw [dif_neg lt, dif_neg lt]
      rfl

/-- An array renames if its items do. -/
lemma renames_array {n : Nat} (inner : elem.Renames f) (x : Fin n → elem.Val) (s : StreamSerializer α) :
    deserializeArray elem n f load x (s.rename g k) =
      (deserializeArray elem n f (load ∘ g) x s).map (renamed g k) := by
  rw [deserializeArray_eq, deserializeArray_eq]
  have remains : Work.arrayRemain n (s.rename g k) = (Work.arrayRemain n s).map (Prod.map id (rename g k)) := by
    rw [Work.arrayRemain, Work.arrayRemain, show (s.rename g k).registeredSize = s.registeredSize from rfl,
      show (s.rename g k).getValueAt 0 = s.getValueAt 0 from rfl]
    split
    · cases s.getValueAt 0 with
      | error fault => rfl
      | ok remain => rfl
    · rfl
  rw [remains]
  obtain _ | ⟨remain, t⟩ := Work.arrayRemain n s
  · rfl
  · exact renames_items g k load inner remain _ _ x t

end decoders

/-- A decode does the same on a serializer with renamed cells and shifted counts. -/
theorem Shape.renames {o : SerialType} (shape : Shape o) (f : Format) : o.Renames f := by
  induction shape with
  | word n =>
    intro α β g k load x s
    exact congrArg Except.ok (StreamSerializer.rename_numeric g k n _ load x s)
  | bool =>
    intro α β g k load x s
    exact congrArg Except.ok (StreamSerializer.rename_numeric g k 1 _ load x s)
  | duration n _ ofNanoseconds =>
    intro α β g k load x s
    exact StreamSerializer.rename_nested g k (renames_duration g k load ofNanoseconds x) s
  | empty =>
    intro α β g k load x s
    exact StreamSerializer.rename_nested g k (fun _ => rfl) s
  | pair _ _ first second =>
    intro α β g k load x s
    exact StreamSerializer.rename_nested g k (renames_pair g k load first second x) s
  | optional _ inner =>
    intro α β g k load x s
    exact StreamSerializer.rename_nested g k (renames_maybe g k load inner id x) s
  | pointer _ inner =>
    intro α β g k load x s
    exact StreamSerializer.rename_nested g k (renames_maybe g k load inner (fun _ => none) x) s
  | variant _ inner =>
    intro α β g k load x s
    exact StreamSerializer.rename_nested g k (renames_variant g k load (fun i => inner i) x) s
  | sequence _ inner =>
    intro α β g k load x s
    exact StreamSerializer.rename_nested g k (renames_range g k load inner _ x) s
  | associative keys _ inner =>
    intro α β g k load x s
    exact StreamSerializer.rename_nested g k (renames_range g k load inner keys.insert x) s
  | forwardList _ inner =>
    intro α β g k load x s
    exact StreamSerializer.rename_nested g k (renames_forwardList g k load inner x) s
  | array _ _ inner =>
    intro α β g k load x s
    exact StreamSerializer.rename_nested g k (renames_array g k load inner x) s

/-! ## Two storages -/

namespace StreamSerializer
variable {α β : Type}

/-- The serializer after `k` more bytes. -/
def shift (k : UInt64) (s : StreamSerializer α) : StreamSerializer α :=
  { s with begin := s.begin + k, end_ := s.end_ + k, iterator := s.iterator + k }

/-- The counts may be shifted before or after the cells are renamed. -/
lemma shift_rename (g : α → β) (k : UInt64) (s : StreamSerializer α) : (s.rename g 0).shift k = s.rename g k := by
  simp [shift, rename]

/-- Every cell of the pushed spans satisfies `P`. -/
def Holds (P : α → Prop) (s : StreamSerializer α) : Prop := ∀ span ∈ s.mbv.buffers, ∀ cell ∈ span, P cell

/-- Cells of a kind hold what that kind has. -/
lemma holds_rename {P : α → Prop} (s : StreamSerializer {cell // P cell}) (k : UInt64) :
    (s.rename Subtype.val k).Holds P := by
  intro span mem cell inside
  obtain ⟨span', _, rfl⟩ := List.mem_map.1 mem
  obtain ⟨cell', _, rfl⟩ := List.mem_map.1 inside
  exact cell'.2

/-- A serializer whose cells all satisfy `P` is one of such cells. -/
lemma Holds.exists_rename {P : α → Prop} {s : StreamSerializer α} (holds : s.Holds P) :
    ∃ t : StreamSerializer {cell // P cell}, s = t.rename Subtype.val 0 := by
  obtain ⟨⟨buffers, spanIdx, offset, checkpoints⟩, registered, begin, end_, iterator, level⟩ := s
  lift buffers to List (List {cell // P cell}) using holds
  refine ⟨⟨⟨buffers, spanIdx, offset, checkpoints⟩, registered, begin, end_, iterator, level⟩, ?_⟩
  simp [rename, MultiBufferView.rename]

end StreamSerializer

section fields
open StreamSerializer
variable {f : Format} {α β : Type}

/-- Values decoded one behind the other rename. -/
lemma renames_fields (g : α → β) (k : UInt64) (load : β → Byte) {values : List Item}
    (shapes : ∀ value ∈ values, Nonempty (Shape value.1)) (s : StreamSerializer α) :
    deserializeFields f load values (s.rename g k) =
      (deserializeFields f (load ∘ g) values s).map (Prod.map id (Prod.map id (rename g k))) := by
  induction values generalizing s with
  | nil => rfl
  | cons value values ih =>
    obtain ⟨o, x⟩ := value
    obtain ⟨shape⟩ := shapes _ List.mem_cons_self
    rw [deserializeFields, deserializeFields, shape.renames f g k load]
    obtain _ | ⟨code, y, t⟩ := o.deserialize f (load ∘ g) x s
    · rfl
    · cases code with
      | none =>
        have later := ih (fun other mem => shapes other (List.mem_cons_of_mem _ mem)) t
        simp only [Except.map, renamed]
        rw [later]
        obtain _ | ⟨code, rest, u⟩ := deserializeFields f (load ∘ g) values t
        · rfl
        · rfl
      | _ => rfl

/-- Two storages that agree on the cells of a serializer give the same outcome, however many bytes were read before. -/
lemma deserializeFields_congr {load load' : α → Byte} {values : List Item}
    (shapes : ∀ value ∈ values, Nonempty (Shape value.1)) {s : StreamSerializer α}
    (holds : s.Holds fun cell => load cell = load' cell) (k : UInt64) :
    deserializeFields f load values (s.shift k) =
        (deserializeFields f load' values s).map (Prod.map id (Prod.map id (shift k))) ∧
      ∀ code decoded t, deserializeFields f load' values s = .ok (code, decoded, t) →
        t.Holds fun cell => load cell = load' cell := by
  -- the cells on which the storages agree are a type of its own, and either storage is a reading of it
  obtain ⟨s, rfl⟩ := holds.exists_rename
  have same : load ∘ Subtype.val = load' ∘ (Subtype.val : {cell // load cell = load' cell} → α) :=
    funext fun cell => cell.2
  rw [shift_rename, renames_fields Subtype.val k load shapes, renames_fields Subtype.val 0 load' shapes, same]
  obtain _ | ⟨code, decoded, t⟩ := deserializeFields f (load' ∘ Subtype.val) values s
  · exact ⟨rfl, nofun⟩
  · refine ⟨?_, ?_⟩
    · simp only [Except.map, Prod.map, id, shift_rename]
    · intro code' decoded' t' given
      cases given
      exact holds_rename t 0

end fields
end OsterLib.Serialization
