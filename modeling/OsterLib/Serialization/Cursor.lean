import OsterLib.Lib.Post
import OsterLib.Lib.Run
import OsterLib.Serialization.Work

/-!
# The counters of the serializer

`begin`, `iterator` and `end` of a `StreamSerializer` count bytes that were consumed from its view. A `Deserialize` uses
the serializer through a few operations only, and `Kept` is the rule for what all of these keep: then every decode keeps
it (`Kept.shape`).

Between two calls the bytes from `begin` to `end` are those of the value that is being decoded. This is so in every
state of a run exactly if no call of the run decodes a number by itself, which moves `end` and `iterator` but not
`begin`, and the counters do not wrap around inside a value (`run_cursor_iff`).
-/

namespace OsterLib.Serialization
open OsterLib.Lib StreamSerializer SerialType

/-! ## What every decode keeps -/

namespace StreamSerializer
variable {α V W : Type} {s t : StreamSerializer α} {R : StreamSerializer α → StreamSerializer α → Prop}

/-- The serializer after a `Deserialize` that ended with a code, as `deserialize` leaves it. -/
def leave (code : SerializationEC) (s : StreamSerializer α) : StreamSerializer α :=
  let finished :=
    if code = .none then
      if s.level = 1 then
        { s with
          mbv := s.mbv.flushDeserialized.2
          begin := s.end_
          iterator := s.end_
          registered := fun _ => [] }
      else { s with registered := Function.update s.registered s.level [] }
    else { s with iterator := s.begin }
  { finished with level := s.level - 1 }

/-- A relation of the serializer before and after that holds of everything a `Deserialize` does with it -/
structure Kept (R : StreamSerializer α → StreamSerializer α → Prop) : Prop where
  refl : ∀ s, R s s
  trans : ∀ {s t u}, R s t → R t u → R s u
  level : ∀ {s t}, R s t → t.level = s.level
  advance : ∀ {s t} {size : UInt64}, s.tryAdvance size = some t → R s t
  registered : ∀ s values, R s { s with registered := values }
  numeric : ∀ {V : Type} n (ofBytes : List Byte → V) load x s, R s (s.deserializeNumeric n ofBytes load x).2.2
  nested : ∀ {s t} code, 0 < s.level → R s.enter t → R s (t.leave code)

/-- However a decode ends, the relation holds of the serializer before and after it. -/
def Keeps (R : StreamSerializer α → StreamSerializer α → Prop) (s : StreamSerializer α)
    (decode : Except Fault (Outcome α V)) : Prop :=
  Post (fun _ => True) (fun outcome => R s outcome.2.2) decode

namespace Kept

/-- What two steps keep, both keep. -/
lemma bind (kept : Kept R) {decode : Except Fault (Outcome α V)} {g : Outcome α V → Except Fault (Outcome α W)}
    (first : Keeps R s decode) (later : ∀ outcome : Outcome α V, R s outcome.2.2 → Keeps R outcome.2.2 (g outcome)) :
    Keeps R s (decode >>= g) := by
  refine Post.bind first fun outcome before => ?_
  exact (later outcome before).imp fun _ after => kept.trans before after

/-- After a step, what is kept from there is kept. -/
lemma after (kept : Kept R) (before : R s t) {decode : Except Fault (Outcome α V)} (later : Keeps R t decode) :
    Keeps R s decode :=
  later.imp fun _ after => kept.trans before after

/-- A decode keeps what its body keeps. -/
lemma deserializeNested (kept : Kept R) (inside : 0 < s.level)
    {body : V → StreamSerializer α → Except Fault (Outcome α V)} {x : V} (decode : Keeps R s.enter (body x s.enter)) :
    Keeps R s (deserializeNested body x s) :=
  Post.bind decode fun outcome before => kept.nested outcome.1 inside before

/-- Updating a registered value keeps it. -/
lemma updateValueAt (kept : Kept R) {value : UInt64} {index : Nat} (updated : s.updateValueAt value index = .ok t) :
    R s t := by
  unfold StreamSerializer.updateValueAt at updated
  split at updated
  · cases updated
    exact kept.registered s _
  · cases updated

end Kept
end StreamSerializer

section shapes
variable {α : Type} {s : StreamSerializer α} {R : StreamSerializer α → StreamSerializer α → Prop} (kept : Kept R)
variable {f : Format} {load : α → Byte}

/-- Every decode of a type keeps the relation, inside of another decode. -/
def AllKeep (R : StreamSerializer α → StreamSerializer α → Prop) (f : Format) (load : α → Byte) (o : SerialType) :
    Prop :=
  ∀ (x : o.Val) (s : StreamSerializer α), 0 < s.level → Keeps R s (o.deserialize f load x s)

include kept

/-- A duration keeps it. -/
lemma keeps_duration {n : Nat} (ofNanoseconds : BitVec 64 → BitVec (8 * n)) (x : BitVec (8 * n)) :
    Keeps R s (deserializeDuration ofNanoseconds f load x s) := by
  have number := kept.numeric 8 (fun bytes => BitVec.ofNat 64 (readWord f bytes)) load 0 s
  unfold deserializeDuration
  generalize s.deserializeNumeric 8 (fun bytes => BitVec.ofNat 64 (readWord f bytes)) load 0 = read at number ⊢
  obtain ⟨code, count, t⟩ := read
  cases code <;> exact number

/-- A pair keeps it if both parts do. -/
lemma keeps_pair {a b : SerialType} (first : AllKeep R f load a) (second : AllKeep R f load b) (inside : 0 < s.level)
    (x : a.Val × b.Val) : Keeps R s (deserializePair a b f load x s) := by
  refine kept.bind (first x.1 s inside) ?_
  rintro ⟨code, y, t⟩ before
  change Keeps R t (if code = .none then _ else _)
  split
  · apply kept.bind (second x.2 t (kept.level before ▸ inside))
    rintro ⟨code, z, u⟩ _
    exact kept.refl u
  · exact kept.refl t

/-- An optional keeps it if its value does. -/
lemma keeps_maybe {a : SerialType} (inner : AllKeep R f load a) (cleared : Option a.Val → Option a.Val)
    (inside : 0 < s.level) (x : Option a.Val) : Keeps R s (deserializeMaybe a cleared f load x s) := by
  unfold deserializeMaybe
  cases advanced : s.tryAdvance 1 with
  | some t =>
    have before := kept.advance advanced
    cases x with
    | none => exact before
    | some value =>
      refine kept.after before (kept.bind (inner value t (kept.level before ▸ inside)) ?_)
      rintro ⟨code, y, u⟩ _
      exact kept.refl u
  | none =>
    have before := kept.numeric 1 (readFlag f) load false s
    generalize s.deserializeNumeric 1 (readFlag f) load false = read at before ⊢
    obtain ⟨code, flag, t⟩ := read
    cases code with
    | none =>
      cases flag with
      | false => exact before
      | true =>
        refine kept.after before (kept.bind (inner a.init t (kept.level before ▸ inside)) ?_)
        rintro ⟨code, y, u⟩ _
        exact kept.refl u
    | _ => exact before

section variant
variable {n : Nat} {alternatives : Fin (n + 1) → SerialType}

/-- The alternative of a variant keeps it. -/
lemma keeps_alternative (inner : ∀ i, AllKeep R f load (alternatives i)) (inside : 0 < s.level)
    (x : Σ i, (alternatives i).Val) : Keeps R s (deserializeAlternative alternatives f load x s) := by
  apply kept.bind (inner x.1 x.2 s inside)
  rintro ⟨code, y, u⟩ _
  exact kept.refl u

/-- A variant keeps it if its alternatives do. -/
lemma keeps_variant (inner : ∀ i, AllKeep R f load (alternatives i)) (inside : 0 < s.level)
    (x : Σ i, (alternatives i).Val) : Keeps R s (deserializeVariant alternatives f load x s) := by
  unfold deserializeVariant deserializeSize
  cases advanced : s.tryAdvance 8 with
  | some t =>
    have before := kept.advance advanced
    exact kept.after before (keeps_alternative kept inner (kept.level before ▸ inside) x)
  | none =>
    have before := kept.numeric 8 (fun bytes => UInt64.ofNat (readWord f bytes)) load (UInt64.ofNat (2 ^ 64 - 1)) s
    generalize s.deserializeNumeric 8 (fun bytes => UInt64.ofNat (readWord f bytes)) load
      (UInt64.ofNat (2 ^ 64 - 1)) = read at before ⊢
    obtain ⟨code, index, t⟩ := read
    cases code with
    | none =>
      dsimp only
      cases emplace alternatives index with
      | none => exact before
      | some y => exact kept.after before (keeps_alternative kept inner (kept.level before ▸ inside) y)
    | _ => exact before

end variant

section ranges
variable {elem : SerialType}

/-- The size of a range keeps it. -/
lemma keeps_rangeSize (x : List elem.Val) :
    Post (fun _ => True) (fun head => R s head.2.2.2) (deserializeRangeSize elem f load x s) := by
  unfold deserializeRangeSize deserializeSize
  cases advanced : s.tryAdvance 8 with
  | some t =>
    have before := kept.advance advanced
    dsimp only
    cases t.getValueAt 0 with
    | error fault => trivial
    | ok size => exact before
  | none =>
    have before := kept.numeric 8 (fun bytes => UInt64.ofNat (readWord f bytes)) load 0 s
    generalize s.deserializeNumeric 8 (fun bytes => UInt64.ofNat (readWord f bytes)) load 0 = read at before ⊢
    obtain ⟨code, size, t⟩ := read
    cases code with
    | none => exact kept.trans before (kept.registered t _)
    | _ => exact before

/-- The elements of a range keep it if each does. -/
lemma keeps_elements (inner : AllKeep R f load elem) (insert : List elem.Val → elem.Val → List elem.Val) (count : Nat)
    (inside : 0 < s.level) (x : List elem.Val) : Keeps R s (deserializeElements elem insert f load count x s) := by
  induction count generalizing x s with
  | zero => exact kept.refl s
  | succ count ih =>
    refine kept.bind (inner elem.init s inside) ?_
    rintro ⟨code, item, t⟩ before
    change Keeps R t (if code = .none then _ else _)
    split
    · exact ih (kept.level before ▸ inside) (insert x item)
    · exact kept.refl t

/-- A range keeps it if its elements do. -/
lemma keeps_range (inner : AllKeep R f load elem) (insert : List elem.Val → elem.Val → List elem.Val)
    (inside : 0 < s.level) (x : List elem.Val) : Keeps R s (deserializeRange elem insert f load x s) := by
  refine Post.bind (keeps_rangeSize kept x) ?_
  rintro ⟨code, size, y, t⟩ before
  apply kept.after before
  change Keeps R t (if code = .none then _ else _)
  split
  · exact keeps_elements kept inner insert _ (kept.level before ▸ inside) y
  · exact kept.refl t

/-- The elements of a forward list keep it if each does. -/
lemma keeps_front (inner : AllKeep R f load elem) (old : UInt64) (count : Nat) (inside : 0 < s.level)
    (x : List elem.Val) : Keeps R s (deserializeFront elem old f load count x s) := by
  induction count generalizing x s with
  | zero => exact kept.refl s
  | succ count ih =>
    refine kept.bind (inner elem.init s inside) ?_
    rintro ⟨code, item, t⟩ before
    change Keeps R t (if code = .none then _ else _)
    split
    · cases updated : t.updateValueAt (old + 1) 1 with
      | error fault => trivial
      | ok u =>
        have both := kept.trans before (kept.updateValueAt updated)
        exact kept.after (kept.updateValueAt updated) (ih (kept.level both ▸ inside) (item :: x))
    · exact kept.refl t

/-- A forward list keeps it if its elements do. -/
lemma keeps_forwardList (inner : AllKeep R f load elem) (inside : 0 < s.level) (x : List elem.Val) :
    Keeps R s (deserializeForwardList elem f load x s) := by
  refine Post.bind (keeps_rangeSize kept x) ?_
  rintro ⟨code, size, y, t⟩ before
  apply kept.after before
  change Keeps R t (if code = .none then _ else _)
  split
  · rw [deserializeFrontAll_eq]
    unfold Work.frontOld
    split
    case h_1 => trivial
    case h_2 old u found =>
      have registers : R t u := by
        split at found
        · cases found
          exact kept.registered t _
        · cases here : t.getValueAt 1 with
          | error fault =>
            rw [here] at found
            cases found
          | ok old' =>
            rw [here] at found
            cases found
            exact kept.refl t
      apply kept.after registers
      refine kept.bind (keeps_front kept inner old _ (kept.level (kept.trans before registers) ▸ inside) y) ?_
      rintro ⟨code, z, v⟩ _
      exact kept.refl v
  · exact kept.refl t

/-- The items of an array keep it if each does. -/
lemma keeps_items (inner : AllKeep R f load elem) (remain : UInt64) {n : Nat} (count i : Nat) (inside : 0 < s.level)
    (x : Fin n → elem.Val) : Keeps R s (deserializeItems elem remain f load count i x s) := by
  induction count generalizing i x s with
  | zero => exact kept.refl s
  | succ count ih =>
    unfold deserializeItems
    by_cases lt : i < n
    · rw [dif_pos lt]
      refine kept.bind (inner (x ⟨i, lt⟩) s inside) ?_
      rintro ⟨code, item, t⟩ before
      dsimp only
      cases updated : t.updateValueAt (remain - 1) 0 with
      | error fault => trivial
      | ok u =>
        have registers := kept.updateValueAt updated
        apply kept.after registers
        change Keeps R u (if code = .none then _ else _)
        split
        · exact ih (i + 1) (kept.level (kept.trans before registers) ▸ inside) _
        · exact kept.refl u
    · rw [dif_neg lt]
      trivial

/-- An array keeps it if its items do. -/
lemma keeps_array (inner : AllKeep R f load elem) {n : Nat} (inside : 0 < s.level) (x : Fin n → elem.Val) :
    Keeps R s (deserializeArray elem n f load x s) := by
  unfold deserializeArray
  split
  · cases s.getValueAt 0 with
    | error fault => trivial
    | ok remain => exact keeps_items kept inner remain _ _ inside x
  · have registers : R s (s.registerValue (UInt64.ofNat n)) := kept.registered s _
    apply kept.after registers
    exact keeps_items (s := s.registerValue (UInt64.ofNat n)) kept inner _ _ _ inside x

end ranges

/-- A type is decoded by a `Deserialize` that keeps the relation. -/
def Composed (R : StreamSerializer α → StreamSerializer α → Prop) (f : Format) (load : α → Byte) (o : SerialType) :
    Prop :=
  ∃ body, o.deserialize f load = deserializeNested body ∧ ∀ x s, 0 < s.level → Keeps R s (body x s)

/-- Every composed type keeps it. -/
lemma Composed.keeps {o : SerialType} (composed : Composed R f load o) : AllKeep R f load o := by
  obtain ⟨body, decode, keeps⟩ := composed
  intro x s inside
  rw [decode]
  exact kept.deserializeNested inside (keeps x s.enter (Nat.succ_pos _))

/-- The rule for all supported types: a number is read, and any other type is decoded by its `Deserialize`. -/
lemma StreamSerializer.Kept.shape {o : SerialType} (shape : Shape o) :
    AllKeep R f load o ∧ (o.numeric = false → Composed R f load o) := by
  have composed {o : SerialType} (all : Composed R f load o) :
      AllKeep R f load o ∧ (o.numeric = false → Composed R f load o) := ⟨all.keeps kept, fun _ => all⟩
  induction shape with
  | word n => exact ⟨fun x s _ => kept.numeric n _ load x s, nofun⟩
  | bool => exact ⟨fun x s _ => kept.numeric 1 _ load x s, nofun⟩
  | duration n toNanoseconds ofNanoseconds =>
    exact composed ⟨_, rfl, fun x s _ => keeps_duration kept ofNanoseconds x⟩
  | empty => exact composed ⟨_, rfl, fun x s _ => kept.refl s⟩
  | pair _ _ first second => exact composed ⟨_, rfl, fun x s inside => keeps_pair kept first.1 second.1 inside x⟩
  | optional _ ih => exact composed ⟨_, rfl, fun x s inside => keeps_maybe kept ih.1 id inside x⟩
  | pointer _ ih => exact composed ⟨_, rfl, fun x s inside => keeps_maybe kept ih.1 _ inside x⟩
  | variant _ ih => exact composed ⟨_, rfl, fun x s inside => keeps_variant kept (fun i => (ih i).1) inside x⟩
  | sequence _ ih => exact composed ⟨_, rfl, fun x s inside => keeps_range kept ih.1 _ inside x⟩
  | associative keys _ ih => exact composed ⟨_, rfl, fun x s inside => keeps_range kept ih.1 keys.insert inside x⟩
  | forwardList _ ih => exact composed ⟨_, rfl, fun x s inside => keeps_forwardList kept ih.1 inside x⟩
  | array _ _ ih => exact composed ⟨_, rfl, fun x s inside => keeps_array kept ih.1 inside x⟩

end shapes

/-! ## Bytes that are counted -/

namespace StreamSerializer
variable {α V : Type} {s t u : StreamSerializer α}

/-- Bytes are taken from the view, and counted by `end`. -/
structure Counted (s t : StreamSerializer α) : Prop where
  level : t.level = s.level
  begin_ : t.begin = s.begin
  valid : s.mbv.Valid → t.mbv.Valid
  taken : s.mbv.Valid → ∃ n, s.mbv.unread.length = n + t.mbv.unread.length ∧ t.end_ = s.end_ + UInt64.ofNat n

/-- What leaves the view and `end` alone takes nothing. -/
lemma Counted.of_same (level : t.level = s.level) (begin_ : t.begin = s.begin) (mbv : t.mbv = s.mbv)
    (end_ : t.end_ = s.end_) : Counted s t where
  level := level
  begin_ := begin_
  valid valid := mbv ▸ valid
  taken _ := ⟨0, by rw [mbv, Nat.zero_add], by rw [end_]; exact (UInt64.add_zero _).symm⟩

/-- What two decodes count, both count. -/
lemma Counted.trans (first : Counted s t) (second : Counted t u) : Counted s u where
  level := second.level.trans first.level
  begin_ := second.begin_.trans first.begin_
  valid valid := second.valid (first.valid valid)
  taken valid := by
    obtain ⟨n, left, end_⟩ := first.taken valid
    obtain ⟨m, left', end'⟩ := second.taken (first.valid valid)
    refine ⟨n + m, ?_, ?_⟩
    · rw [left, left', Nat.add_assoc]
    · rw [end', end_, UInt64.ofNat_add, UInt64.add_assoc]

/-- A number is read where its bytes are there. -/
lemma deserializeNumeric_eq (valid : s.mbv.Valid) {n : Nat} (enough : n ≤ s.mbv.unread.length)
    (ofBytes : List Byte → V) (load : α → Byte) (x : V) :
    ∃ y mbv, s.deserializeNumeric n ofBytes load x =
        (.none, y, { s with mbv, end_ := s.end_ + UInt64.ofNat n, iterator := s.iterator + UInt64.ofNat n }) ∧
      mbv.Valid ∧ s.mbv.unread.length = n + mbv.unread.length := by
  obtain ⟨mbv, read, valid', unread⟩ := valid.readTrivial enough
  refine ⟨ofBytes ((s.mbv.unread.take n).map load), mbv, ?_, valid', ?_⟩
  · unfold deserializeNumeric
    rw [read]
  · rw [unread, List.length_drop]
    omega

/-- A number that is not there changes nothing. -/
lemma deserializeNumeric_short {n : Nat} (short : s.mbv.unread.length < n) (ofBytes : List Byte → V)
    (load : α → Byte) (x : V) : s.deserializeNumeric n ofBytes load x = (.bufferSizeLesser, x, s) := by
  unfold deserializeNumeric
  rw [MultiBufferView.readTrivial_short short]

/-- A number is counted. -/
lemma counted_numeric (n : Nat) (ofBytes : List Byte → V) (load : α → Byte) (x : V) (s : StreamSerializer α) :
    Counted s (s.deserializeNumeric n ofBytes load x).2.2 := by
  have kept : ∀ valid : s.mbv.Valid, (s.deserializeNumeric n ofBytes load x).2.2.mbv.Valid ∧
      ∃ k, s.mbv.unread.length = k + (s.deserializeNumeric n ofBytes load x).2.2.mbv.unread.length ∧
        (s.deserializeNumeric n ofBytes load x).2.2.end_ = s.end_ + UInt64.ofNat k := by
    intro valid
    rcases Nat.lt_or_ge s.mbv.unread.length n with short | enough
    · rw [deserializeNumeric_short short]
      exact ⟨valid, 0, (Nat.zero_add _).symm, (UInt64.add_zero _).symm⟩
    · obtain ⟨y, mbv, read, valid', left⟩ := deserializeNumeric_eq valid enough ofBytes load x
      rw [read]
      exact ⟨valid', n, left, rfl⟩
  refine ⟨?_, ?_, fun valid => (kept valid).1, fun valid => (kept valid).2⟩ <;>
    · unfold deserializeNumeric
      split <;> rfl

/-- Counting is kept. -/
lemma counted_kept : Kept (Counted (α := α)) where
  refl s := .of_same rfl rfl rfl rfl
  trans := Counted.trans
  level := Counted.level
  advance {s t size} advanced := by
    unfold tryAdvance at advanced
    split at advanced
    · cases advanced
      exact .of_same rfl rfl rfl rfl
    · cases advanced
  registered s values := .of_same rfl rfl rfl rfl
  numeric := counted_numeric
  nested {s t} code inside counted := by
    have level : t.level = s.level + 1 := counted.level
    have back : t.level - 1 = s.level := by omega
    unfold leave
    by_cases ok : code = .none
    · rw [if_pos ok, if_neg (by omega)]
      exact ⟨back, counted.begin_, counted.valid, counted.taken⟩
    · rw [if_neg ok]
      exact ⟨back, counted.begin_, counted.valid, counted.taken⟩

/-- How a call at the top level ends for a type that is not a number. -/
structure Called (s : StreamSerializer α) (outcome : Outcome α V) : Prop where
  level : outcome.2.2.level = 0
  valid : outcome.2.2.mbv.Valid
  taken : ∃ n, s.mbv.unread.length = n + outcome.2.2.mbv.unread.length ∧
    outcome.2.2.end_ = s.end_ + UInt64.ofNat n
  iterator : outcome.2.2.iterator = outcome.2.2.begin
  begin_ : outcome.2.2.begin = if outcome.1 = .none then outcome.2.2.end_ else s.begin

/-- A call at the outermost level ends in one of three ways. -/
lemma called {o : SerialType} (shape : Shape o) (composite : o.numeric = false) (top : s.level = 0)
    (valid : s.mbv.Valid) (f : Format) (load : α → Byte) (x : o.Val) :
    Post (fun _ => True) (Called s) (o.deserialize f load x s) := by
  have composed : Composed Counted f load o := (counted_kept.shape shape).2 composite
  obtain ⟨body, decode, keeps⟩ := composed
  rw [decode]
  refine Post.bind (keeps x s.enter (Nat.succ_pos _)) ?_
  rintro ⟨code, y, t⟩ counted
  have level : t.level = 1 := counted.level.trans (congrArg (· + 1) top)
  have valid' := counted.valid valid
  obtain ⟨n, left, end_⟩ := counted.taken valid
  change Called s (code, y, t.leave code)
  unfold leave
  by_cases ok : code = .none
  · rw [if_pos ok, if_pos level]
    obtain ⟨flushed, unread⟩ := valid'.flush
    refine ⟨by rw [level], flushed, ⟨n, ?_, end_⟩, rfl, (if_pos ok).symm⟩
    exact left.trans (by rw [← unread])
  · rw [if_neg ok]
    exact ⟨by rw [level], valid', ⟨n, left, end_⟩, rfl, counted.begin_.trans (if_neg ok).symm⟩

end StreamSerializer

/-! ## Runs -/

/-- The bytes of a number -/
def Shape.bytes {o : SerialType} : Shape o → Nat
  | .word n => n
  | .bool => 1
  | _ => 0

/-- A destination of a call: an object of a supported type, in which numbers have bytes. -/
structure Destination where
  type : SerialType
  shape : Shape type
  sized : type.numeric = true → 0 < shape.bytes ∧ shape.bytes < 2 ^ 64
  value : type.Val

/-- A serializer in use, with the destination of a call that failed. `consumed` bytes have been taken from the view for
    it, and `completed` bytes for the values before. -/
structure Reader where
  stream : StreamSerializer Byte := {}
  pending : Option Destination := none
  consumed : Nat := 0
  completed : Nat := 0
  fault : Option Fault := none

namespace Reader

/-- What is done with a serializer. `next` is decoded unless a call has failed, which is repeated then. -/
inductive Call where
  | push (bytes : List Byte)
  | flush
  | deserialize (next : Destination)

/-- What a call has taken from the view. -/
def taken (before after : StreamSerializer Byte) : Nat := before.mbv.unread.length - after.mbv.unread.length

/-- The reader after a call that has ended with a code. -/
def after (reader : Reader) (destination : Destination) (outcome : Outcome Byte destination.type.Val) : Reader :=
  let (code, value, stream) := outcome
  let consumed := reader.consumed + taken reader.stream stream
  if code = .none then
    { reader with stream, pending := none, consumed := 0, completed := reader.completed + consumed }
  else { reader with stream, pending := some { destination with value }, consumed }

/-- A reader takes a call. After a fault there is none. -/
def step (f : Format) (reader : Reader) : Call → Reader
  | .push bytes => { reader with stream := reader.stream.pushView bytes }
  | .flush => { reader with stream := reader.stream.flush.2 }
  | .deserialize next =>
    match reader.fault with
    | some _ => reader
    | none =>
      let destination := reader.pending.getD next
      match destination.type.deserialize f id destination.value reader.stream with
      | .error fault => { reader with fault := some fault }
      | .ok outcome => reader.after destination outcome

/-- The counters are in order, equal where no value is being decoded, and from `begin` to `end` there are the bytes that
    were taken for the one that is. -/
structure InOrder (reader : Reader) : Prop where
  begin_le : reader.stream.begin ≤ reader.stream.iterator
  iterator_le : reader.stream.iterator ≤ reader.stream.end_
  idle : reader.pending = none →
    reader.stream.begin = reader.stream.iterator ∧ reader.stream.iterator = reader.stream.end_
  span : (reader.stream.end_ - reader.stream.begin).toNat = reader.consumed

/-- Counted from the first byte on, the bytes of the value that is being decoded reach over no multiple of `2 ^ 64`. -/
def Unwrapped (reader : Reader) : Prop := reader.completed % 2 ^ 64 + reader.consumed < 2 ^ 64

/-- A call does not decode a number, and the counters do not wrap around inside the value that it decodes. -/
def CallAllowed (f : Format) (reader : Reader) : Call → Prop
  | .push _ => True
  | .flush => True
  | .deserialize next => reader.fault = none →
    let destination := reader.pending.getD next
    (destination.type.numeric = true → reader.stream.mbv.unread.length < destination.shape.bytes) ∧
      Unwrapped (reader.step f (.deserialize next))

/-- Between two calls `iterator` is at `begin`, and the counters count what was taken. -/
structure Steady (reader : Reader) : Prop where
  level : reader.stream.level = 0
  valid : reader.stream.mbv.Valid
  iterator : reader.stream.iterator = reader.stream.begin
  begin_ : reader.stream.begin = UInt64.ofNat reader.completed
  end_ : reader.stream.end_ = UInt64.ofNat (reader.completed + reader.consumed)
  idle : reader.pending = none → reader.consumed = 0
  unwrapped : reader.Unwrapped

variable {reader : Reader} {f : Format}

/-- The span of the counts is as in the source where it does not wrap. -/
lemma span_iff (completed consumed : Nat) (small : consumed < 2 ^ 64) :
    UInt64.ofNat completed ≤ UInt64.ofNat (completed + consumed) ↔ completed % 2 ^ 64 + consumed < 2 ^ 64 := by
  rw [UInt64.le_iff_toNat_le, UInt64.toNat_ofNat', UInt64.toNat_ofNat']
  omega

/-- A steady reader has its counts in order. -/
lemma Steady.inOrder (steady : Steady reader) : InOrder reader := by
  have unwrapped := steady.unwrapped
  unfold Unwrapped at unwrapped
  have small : reader.consumed < 2 ^ 64 := by omega
  have le := (span_iff reader.completed reader.consumed small).mpr unwrapped
  refine ⟨?_, ?_, fun idle => ⟨steady.iterator.symm, ?_⟩, ?_⟩
  · rw [steady.iterator]
    exact UInt64.le_refl _
  · rw [steady.iterator, steady.begin_, steady.end_]
    exact le
  · rw [steady.iterator, steady.begin_, steady.end_, steady.idle idle]
    rfl
  · rw [steady.begin_, steady.end_, UInt64.ofNat_add, UInt64.add_comm, UInt64.add_sub_cancel]
    exact UInt64.toNat_ofNat_of_lt' small

/-- A number is read by the serializer itself. -/
lemma numeric_eq {o : SerialType} (shape : Shape o) (numeric : o.numeric = true) (f : Format) :
    ∃ ofBytes : List Byte → o.Val, ∀ (x : o.Val) (s : StreamSerializer Byte),
      o.deserialize f id x s = .ok (s.deserializeNumeric shape.bytes ofBytes id x) := by
  cases shape with
  | word n => exact ⟨_, fun _ _ => rfl⟩
  | bool => exact ⟨_, fun _ _ => rfl⟩
  | _ => cases numeric

/-- A decode that ends the program leaves the fault. -/
lemma step_error {next : Destination} {fault : Fault} (alive : reader.fault = none)
    (decode : (reader.pending.getD next).type.deserialize f id (reader.pending.getD next).value reader.stream =
      .error fault) : reader.step f (.deserialize next) = { reader with fault := some fault } := by
  unfold step
  rw [alive]
  dsimp only
  rw [decode]

/-- A decode that returns is the next state. -/
lemma step_ok {next : Destination} {outcome : Outcome Byte (reader.pending.getD next).type.Val}
    (alive : reader.fault = none)
    (decode : (reader.pending.getD next).type.deserialize f id (reader.pending.getD next).value reader.stream =
      .ok outcome) : reader.step f (.deserialize next) = reader.after (reader.pending.getD next) outcome := by
  unfold step
  rw [alive]
  dsimp only
  rw [decode]

/-- A call that finds too few bytes for a number changes nothing. -/
lemma Steady.short (steady : Steady reader) {destination : Destination}
    {outcome : Outcome Byte destination.type.Val} (failed : outcome.1 ≠ .none) (same : outcome.2.2 = reader.stream) :
    Steady (reader.after destination outcome) := by
  have nothing : taken reader.stream outcome.2.2 = 0 := by rw [same]; exact Nat.sub_self _
  unfold after
  dsimp only
  rw [if_neg failed, nothing, same]
  exact ⟨steady.level, steady.valid, steady.iterator, steady.begin_, steady.end_, nofun, steady.unwrapped⟩

/-- A number that is read moves `iterator` and `end`, and leaves `begin` behind. -/
lemma not_inOrder_number {destination : Destination} {outcome : Outcome Byte destination.type.Val} {n : Nat}
    (pos : 0 < n) (small : n < 2 ^ 64) (done : outcome.1 = .none)
    (begin_ : outcome.2.2.begin = reader.stream.begin)
    (iterator : outcome.2.2.iterator = reader.stream.begin + UInt64.ofNat n) :
    ¬InOrder (reader.after destination outcome) := by
  unfold after
  dsimp only
  rw [if_pos done]
  intro inOrder
  have same := (inOrder.idle rfl).1
  dsimp only at same
  rw [begin_, iterator] at same
  have none : UInt64.ofNat n = 0 := by grind
  have zero : (UInt64.ofNat n).toNat = 0 := congrArg UInt64.toNat none
  rw [UInt64.toNat_ofNat_of_lt' small] at zero
  omega

section ends
variable {destination : Destination} {outcome : Outcome Byte destination.type.Val}
variable (steady : Steady reader) (ends : Called reader.stream outcome)
include steady ends

/-- The end counts all bytes that were consumed. -/
lemma end_after : outcome.2.2.end_ =
    UInt64.ofNat (reader.completed + (reader.consumed + taken reader.stream outcome.2.2)) := by
  obtain ⟨n, left, end_⟩ := ends.taken
  have taken_eq : taken reader.stream outcome.2.2 = n := by
    unfold taken
    omega
  rw [end_, steady.end_, taken_eq, ← UInt64.ofNat_add, Nat.add_assoc]

/-- Behind a failure the count begins where the last value was completed. -/
lemma begin_failed (failed : outcome.1 ≠ .none) : outcome.2.2.begin = UInt64.ofNat reader.completed := by
  rw [ends.begin_, if_neg failed, steady.begin_]

/-- A call for another type than a number leaves the counters right, if they do not wrap. -/
lemma Steady.called (unwrapped : Unwrapped (reader.after destination outcome)) :
    Steady (reader.after destination outcome) := by
  have end_ := end_after steady ends
  unfold after at unwrapped ⊢
  dsimp only at unwrapped ⊢
  by_cases done : outcome.1 = .none
  · rw [if_pos done] at unwrapped ⊢
    have begin_ := ends.begin_
    rw [if_pos done] at begin_
    exact ⟨ends.level, ends.valid, ends.iterator, begin_.trans end_, end_, fun _ => rfl, unwrapped⟩
  · rw [if_neg done] at unwrapped ⊢
    have begin_ := begin_failed steady ends done
    exact ⟨ends.level, ends.valid, ends.iterator, begin_, end_, nofun, unwrapped⟩

/-- Counts in order are not wrapped. -/
lemma unwrapped_called (inOrder : InOrder (reader.after destination outcome)) :
    Unwrapped (reader.after destination outcome) := by
  have end_ := end_after steady ends
  unfold Unwrapped
  unfold after at inOrder ⊢
  dsimp only at inOrder ⊢
  by_cases done : outcome.1 = .none
  · rw [if_pos done]
    exact Nat.mod_lt _ (Nat.two_pow_pos 64)
  · rw [if_neg done] at inOrder ⊢
    have begin_ := begin_failed steady ends done
    have small := inOrder.span
    have le := UInt64.le_trans inOrder.begin_le inOrder.iterator_le
    dsimp only at small le ⊢
    rw [begin_, end_, span_iff] at le
    · exact le
    · rw [← small]
      exact UInt64.toNat_lt _

end ends

/-- A steady reader stays steady in the steps that are allowed. -/
lemma Steady.step (steady : Steady reader) (call : Call) (allowed : reader.CallAllowed f call) :
    Steady (reader.step f call) := by
  cases call with
  | push bytes =>
    obtain ⟨valid, -⟩ := pushView_valid steady.valid bytes
    have level := (pushView_kept reader.stream bytes).1.trans steady.level
    unfold Reader.step
    refine ⟨level, valid, ?_, ?_, ?_, steady.idle, steady.unwrapped⟩ <;>
      unfold pushView <;> dsimp only <;> split
    · exact steady.iterator
    · rfl
    · exact steady.begin_
    · exact steady.begin_
    · exact steady.end_
    · exact steady.end_
  | flush =>
    exact ⟨steady.level, steady.valid.flush.1, steady.iterator, steady.begin_, steady.end_, steady.idle,
      steady.unwrapped⟩
  | deserialize next =>
    cases alive : reader.fault with
    | some fault =>
      unfold Reader.step
      rw [alive]
      exact steady
    | none =>
      obtain ⟨number, unwrapped⟩ := allowed alive
      cases numeric : (reader.pending.getD next).type.numeric with
      | true =>
        obtain ⟨ofBytes, decode⟩ := numeric_eq (reader.pending.getD next).shape numeric f
        have short := deserializeNumeric_short (number numeric) ofBytes id (reader.pending.getD next).value
        rw [step_ok alive ((decode _ _).trans (congrArg Except.ok short))]
        exact steady.short nofun rfl
      | false =>
        have ends := StreamSerializer.called (reader.pending.getD next).shape numeric steady.level steady.valid f id
          (reader.pending.getD next).value
        cases decode : (reader.pending.getD next).type.deserialize f id (reader.pending.getD next).value
          reader.stream with
        | error fault =>
          rw [step_error alive decode]
          exact ⟨steady.level, steady.valid, steady.iterator, steady.begin_, steady.end_, steady.idle,
            steady.unwrapped⟩
        | ok outcome =>
          rw [decode] at ends
          rw [step_ok alive decode] at unwrapped ⊢
          exact steady.called ends unwrapped

/-- A step after which the counters are in order is allowed. -/
lemma Steady.allowed (steady : Steady reader) (call : Call) (inOrder : InOrder (reader.step f call)) :
    reader.CallAllowed f call := by
  cases call with
  | push bytes => trivial
  | flush => trivial
  | deserialize next =>
    intro alive
    cases numeric : (reader.pending.getD next).type.numeric with
    | true =>
      obtain ⟨ofBytes, decode⟩ := numeric_eq (reader.pending.getD next).shape numeric f
      obtain ⟨pos, small⟩ := (reader.pending.getD next).sized numeric
      rcases Nat.lt_or_ge reader.stream.mbv.unread.length (reader.pending.getD next).shape.bytes with short | enough
      · refine ⟨fun _ => short, ?_⟩
        have same := deserializeNumeric_short short ofBytes id (reader.pending.getD next).value
        rw [step_ok alive ((decode _ _).trans (congrArg Except.ok same))]
        refine Steady.unwrapped (steady.short ?_ rfl)
        nofun
      · exfalso
        obtain ⟨y, mbv, read, -, -⟩ :=
          deserializeNumeric_eq steady.valid enough ofBytes id (reader.pending.getD next).value
        rw [step_ok alive ((decode _ _).trans (congrArg Except.ok read))] at inOrder
        refine not_inOrder_number pos small rfl rfl ?_ inOrder
        rw [steady.iterator]
    | false =>
      refine ⟨fun number => absurd (numeric.symm.trans number) Bool.false_ne_true, ?_⟩
      have ends := StreamSerializer.called (reader.pending.getD next).shape numeric steady.level steady.valid f id
        (reader.pending.getD next).value
      cases decode : (reader.pending.getD next).type.deserialize f id (reader.pending.getD next).value
        reader.stream with
      | error fault =>
        rw [step_error alive decode]
        exact steady.unwrapped
      | ok outcome =>
        rw [decode] at ends
        rw [step_ok alive decode] at inOrder ⊢
        exact unwrapped_called steady ends inOrder

/-- A new reader is steady. -/
lemma steady_new : Steady {} :=
  ⟨rfl, MultiBufferView.valid_empty, rfl, rfl, rfl, fun _ => rfl, Nat.two_pow_pos 64⟩

/-- The counters are in order in every state of a run exactly if no call of the run decodes a number, and they do not
    wrap around inside a value. -/
theorem run_inOrder_iff (f : Format) (calls : List Call) :
    Always (step f) InOrder {} calls ↔ Guarded (step f) (CallAllowed f) {} calls :=
  always_iff_guarded (L := fun _ _ => True) (fun _ steady => steady.inOrder)
    (fun _ call steady _ allowed => steady.step call allowed)
    (fun _ call steady _ inOrder => steady.allowed call inOrder) steady_new
    (Guarded.of_forall (fun _ _ => trivial) _ _)

/-- A byte is decoded: `begin` is not moved. -/
theorem number_left_behind : ¬∀ (f : Format) (calls : List Call), Always (step f) InOrder {} calls := by
  intro always
  have inOrder := (always ⟨true, true⟩
    [.push [7], .deserialize ⟨word 1, .word 1, fun _ => by decide, (0 : BitVec 8)⟩]).last
  have same := (inOrder.idle rfl).1
  revert same
  decide

end Reader
end OsterLib.Serialization
