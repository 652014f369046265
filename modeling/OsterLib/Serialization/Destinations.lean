import OsterLib.Serialization.Hosts
import OsterLib.Serialization.Work

/-!
# What a destination held before

Decoding sets numbers and durations, clears containers and puts a fresh object into pointers, variants and
optionals. The components of a pair and the elements of an array are decoded in place. Only an optional that
is absent in the encoding is left as it was, where a pointer is reset: two destinations come out equal if and
only if they agree on these optionals (`destination_irrelevant_iff`).
-/

namespace OsterLib.Serialization
open StreamSerializer SerialType

namespace Shape

/-- A decode finds its way through the encoding of a value: sizes and indices are read as they were written, and
    the elements of an array are stored as they are encoded. -/
def Readable {o : SerialType} (f : Format) : Shape o → o.Val → Prop
  | word _ | bool | duration .. | empty => fun _ => True
  | pair first second => fun x => first.Readable f x.1 ∧ second.Readable f x.2
  | optional inner | pointer inner => fun (x : Option _) => ∀ value ∈ x, inner.Readable f value
  | @variant n _ inner => fun x =>
    n < 2 ^ 64 - 1 ∧ f.Legible 8 (UInt64.ofNat x.1).toNat ∧ (inner x.1).Readable f x.2
  | sequence inner | associative _ inner | forwardList inner => fun (x : List _) =>
    f.Legible 8 (UInt64.ofNat x.length).toNat ∧ ∀ item ∈ x, inner.Readable f item
  | @array elem _ _ inner => fun x => elem.StoredAsEncoded ∧ ∀ i, inner.Readable f (x i)

/-- Two destinations hold the same in every optional that is absent in a value and decoded in place. -/
def Agree {o : SerialType} : Shape o → (x d e : o.Val) → Prop
  | pair first second => fun x d e => first.Agree x.1 d.1 e.1 ∧ second.Agree x.2 d.2 e.2
  | optional _ => fun x d e => x = none → d = e
  | array _ inner => fun x d e => ∀ i, inner.Agree (x i) (d i) (e i)
  | word _ | bool | duration .. | empty | pointer _ | variant _ | sequence _ | associative .. | forwardList _ =>
    fun _ _ _ => True

end Shape

/-- The encoding of `x` is decoded, and leaves `g d` in a destination that held `d`. -/
structure Leaves (f : Format) (o : SerialType) (x : o.Val) (g : o.Val → o.Val) : Prop where
  appends : Appends (o.serialize f x) (o.encode f x)
  decodes : ∀ {α : Type} (load : α → Byte) (d : o.Val) (s : StreamSerializer α) (rest : List Byte),
    s.Ready → CaughtUp 0 s → s.left load = o.encode f x ++ rest →
    ∃ s', o.deserialize f load d s = .ok (.none, g d, s') ∧ Decoded o.numeric load (o.encode f x) s s'

section leaves
variable {f : Format}

/-- A value leaves a destination as its decode does. -/
lemma Leaves.of {o : SerialType} {x : o.Val} {g : o.Val → o.Val} {bytes : List Byte}
    (appends : Appends (o.serialize f x) bytes)
    (decodes : ∀ {α : Type} (load : α → Byte) (d : o.Val) (s : StreamSerializer α) (rest : List Byte),
      s.Ready → CaughtUp 0 s → s.left load = bytes ++ rest →
      ∃ s', o.deserialize f load d s = .ok (.none, g d, s') ∧ Decoded o.numeric load bytes s s') :
    Leaves f o x g := by
  obtain rfl := appends.encode
  exact ⟨appends, decodes⟩

/-- A default constructed object is such a destination. -/
lemma Leaves.copies {o : SerialType} {x : o.Val} {g : o.Val → o.Val} (leaves : Leaves f o x g) :
    Copies f 0 False o (g o.init) x :=
  ⟨leaves.appends, False.elim, fun load => leaves.decodes load o.init⟩

/-! ## Numbers and durations -/

/-- A number leaves nothing of its destination. -/
lemma Leaves.word {n : Nat} (x : BitVec (8 * n)) : ∃ y, Leaves f (word n) x fun _ => y := by
  let y := BitVec.ofNat (8 * n) (readWord f (wordBytes f n x.toNat))
  refine ⟨y, .of (appends_word f n x.toNat) fun {α} load d s rest ready _ left => ?_⟩
  obtain ⟨s', run, consumes⟩ := ready.deserializeNumeric left (wordBytes_length f n x.toNat)
    (fun bytes => BitVec.ofNat (8 * n) (readWord f bytes)) d
  exact ⟨s', congrArg Except.ok run, consumes, nofun⟩

/-- A flag leaves nothing of its destination. -/
lemma Leaves.bool (x : Bool) : Leaves f bool x fun _ => x := by
  refine .of (appends_flag f x) fun {α} load d s rest ready _ left => ?_
  obtain ⟨s', run, consumes⟩ := ready.deserializeFlag left d
  exact ⟨s', congrArg Except.ok run, consumes, nofun⟩

/-- A duration leaves nothing of its destination. -/
lemma Leaves.duration {n : Nat} {toNanoseconds : BitVec (8 * n) → BitVec 64}
    {ofNanoseconds : BitVec 64 → BitVec (8 * n)} (x : BitVec (8 * n)) :
    ∃ y, Leaves f (duration n toNanoseconds ofNanoseconds) x fun _ => y := by
  let y := ofNanoseconds (BitVec.ofNat 64 (readWord f (wordBytes f 8 (toNanoseconds x).toNat)))
  refine ⟨y, .of (appends_word f 8 (toNanoseconds x).toNat) fun {α} load d s rest ready _ left => ?_⟩
  obtain ⟨t, run, consumes⟩ := ready.enter.deserializeNumeric left (wordBytes_length f 8 _)
    (fun bytes => BitVec.ofNat 64 (readWord f bytes)) (0 : BitVec 64)
  have body : deserializeDuration ofNanoseconds f load d s.enter = .ok (.none, y, t) := by
    unfold deserializeDuration
    rw [run]
  exact consumes.toReads.nested body

/-- An empty class has nothing to leave. -/
lemma Leaves.empty (x : Unit) : Leaves f empty x fun _ => () := by
  have nothing : Appends (SerialType.empty.serialize f x) [] := by
    intro buffer
    show (SerializationEC.none, buffer) = _
    rw [List.append_nil]
  refine .of nothing fun {α} load d s rest ready _ left => ?_
  have body : deserializeEmpty () s.enter = .ok (.none, (), s.enter) := rfl
  exact (ready.enter.refl load).toReads.nested body

/-! ## Pairs -/

/-- A pair leaves what both parts leave. -/
lemma Leaves.pair {a b : SerialType} {x : a.Val × b.Val} {g : a.Val → a.Val} {h : b.Val → b.Val}
    (first : Leaves f a x.1 g) (second : Leaves f b x.2 h) :
    Leaves f (pair a b) x fun d => (g d.1, h d.2) := by
  refine .of (pair_appends first.appends second.appends) fun {α} load d s rest ready caught left => ?_
  rw [List.append_assoc] at left
  obtain ⟨t, runFirst, readFirst⟩ := first.decodes load d.1 s.enter _ ready.enter caught left
  obtain ⟨u, runSecond, readSecond⟩ := second.decodes load d.2 t _ readFirst.ready
    (CaughtUp.reads (s := s.enter) caught readFirst.toReads) (readFirst.rest left)
  have body : deserializePair a b f load d s.enter = .ok (.none, (g d.1, h d.2), u) := by
    unfold deserializePair
    rw [runFirst]
    change (b.deserialize f load d.2 t >>= _) = _
    rw [runSecond]
    rfl
  exact (readFirst.trans readSecond.toConsumes).toReads.nested body

/-! ## Optionals, pointers and variants -/

/-- What is decoded into a fresh object. -/
lemma leaves_maybe {a : SerialType} {x : Option a.Val}
    (each : ∀ value ∈ x, ∃ g, Leaves f a value g) : ∃ y, Option.Rel (Copies f 0 False a) y x :=
  copies_maybe fun value mem => (each value mem).imp' (· a.init) fun _ leaves => leaves.copies

/-- An optional without a value leaves its destination as it is. -/
lemma Leaves.optional {a : SerialType} {y x : Option a.Val} (copies : Option.Rel (Copies f 0 False a) y x) :
    Leaves f (optional a) x fun d => y.elim d some :=
  .of (maybe_appends (copies_appends copies)) fun load d s rest => maybe_decodes Nat.zero_lt_one id copies d load s rest

/-- A pointer leaves nothing of its destination. -/
lemma Leaves.pointer {a : SerialType} {y x : Option a.Val} (copies : Option.Rel (Copies f 0 False a) y x) :
    Leaves f (pointer a) x fun _ => y.elim none some :=
  .of (maybe_appends (copies_appends copies)) fun load d s rest =>
    maybe_decodes Nat.zero_lt_one (fun _ => none) copies d load s rest

/-- A variant leaves what its alternative leaves of a default constructed one. -/
lemma Leaves.variant {n : Nat} (few : n < 2 ^ 64 - 1) {alternatives : Fin (n + 1) → SerialType}
    {x : Σ i, (alternatives i).Val} (legible : f.Legible 8 (UInt64.ofNat x.1).toNat)
    {g : (alternatives x.1).Val → (alternatives x.1).Val} (leaves : Leaves f (alternatives x.1) x.2 g) :
    Leaves f (variant alternatives) x fun _ => ⟨x.1, g (alternatives x.1).init⟩ :=
  .of (variant_appends leaves.appends) fun load d s rest =>
    variant_decodes (by decide) few legible leaves.copies d load s rest

/-! ## Ranges -/

/-- Every item has a copy. -/
lemma leaves_items {elem : SerialType} {x : List elem.Val} (each : ∀ item ∈ x, ∃ g, Leaves f elem item g) :
    ∃ decoded, List.Forall₂ (Copies f 0 False elem) decoded x :=
  copies_items fun item mem => (each item mem).imp' (· elem.init) fun _ leaves => leaves.copies

section ranges
variable {elem : SerialType} {x : List elem.Val} (few : x.length < 2 ^ 64)
  (legible : f.Legible 8 (UInt64.ofNat x.length).toNat) {decoded : List elem.Val}
  (copies : List.Forall₂ (Copies f 0 False elem) decoded x)

include few legible copies

/-- A sequence leaves nothing of its destination. -/
lemma Leaves.sequence :
    Leaves f (sequence elem) x fun _ => decoded.foldl (fun (x : List elem.Val) item => x ++ [item]) [] :=
  .of (range_appends copies) fun load d s rest =>
    range_decodes (by decide) (fun x item => x ++ [item]) legible copies few d load s rest

/-- An associative container leaves nothing of its destination. -/
lemma Leaves.associative (keys : Keys elem) :
    Leaves f (associative elem keys) x fun _ => decoded.foldl keys.insert [] :=
  .of (range_appends copies) fun load d s rest =>
    range_decodes (by decide) keys.insert legible copies few d load s rest

/-- A forward list leaves nothing of its destination. -/
lemma Leaves.forwardList : Leaves f (forwardList elem) x fun _ => decoded :=
  .of (range_appends copies) fun load d s rest =>
    front_decodes (by decide) legible copies few d load s rest

end ranges

/-! ## Arrays -/

/-- An array leaves what each of its elements leaves. -/
lemma Leaves.array {elem : SerialType} (stored : elem.StoredAsEncoded) {n : Nat} (small : n < 2 ^ 64)
    {x : Fin n → elem.Val} {g : Fin n → elem.Val → elem.Val} (leaves : ∀ i, Leaves f elem (x i) (g i)) :
    Leaves f (array elem n) x fun d i => g i (d i) :=
  .of (array_appends stored fun i => (leaves i).copies) fun load d s rest =>
    array_decodes small load (fun i => (leaves i).decodes load (d i)) s rest

/-! ## Every supported type -/

/-- What is left in a destination is decided by the value, but for the optionals that are absent in it. -/
lemma Shape.leaves {o : SerialType} (shape : Shape o) {x : o.Val} (valid : o.Valid x)
    (readable : shape.Readable f x) : ∃ g, Leaves f o x g ∧ ∀ d e, g d = g e ↔ shape.Agree x d e := by
  induction shape with
  | word n =>
    obtain ⟨y, leaves⟩ := Leaves.word (f := f) x
    exact ⟨_, leaves, fun _ _ => iff_of_true rfl trivial⟩
  | bool => exact ⟨_, .bool x, fun _ _ => iff_of_true rfl trivial⟩
  | duration n toNanoseconds ofNanoseconds =>
    obtain ⟨y, leaves⟩ := @Leaves.duration f n toNanoseconds ofNanoseconds x
    exact ⟨_, leaves, fun _ _ => iff_of_true rfl trivial⟩
  | empty => exact ⟨_, .empty x, fun _ _ => iff_of_true rfl trivial⟩
  | pair a b first second =>
    obtain ⟨g, leavesFirst, agreeFirst⟩ := first valid.1 readable.1
    obtain ⟨h, leavesSecond, agreeSecond⟩ := second valid.2 readable.2
    refine ⟨_, leavesFirst.pair leavesSecond, fun d e => ?_⟩
    exact Prod.ext_iff.trans (and_congr (agreeFirst d.1 e.1) (agreeSecond d.2 e.2))
  | @optional a inner ih =>
    obtain ⟨y, copies⟩ := leaves_maybe (a := a) fun value mem =>
      (ih (valid value mem) (readable value mem)).imp fun _ both => both.1
    refine ⟨_, .optional copies, fun d e => ?_⟩
    cases copies with
    | none => exact ⟨fun same _ => same, fun agree => agree rfl⟩
    | some copy => exact iff_of_true rfl nofun
  | @pointer a inner ih =>
    obtain ⟨y, copies⟩ := leaves_maybe (a := a) fun value mem =>
      (ih (valid value mem) (readable value mem)).imp fun _ both => both.1
    exact ⟨_, .pointer copies, fun _ _ => iff_of_true rfl trivial⟩
  | variant inner ih =>
    obtain ⟨few, legible, readable⟩ := readable
    obtain ⟨g, leaves, _⟩ := ih x.1 valid readable
    exact ⟨_, .variant few legible leaves, fun _ _ => iff_of_true rfl trivial⟩
  | @sequence elem inner ih =>
    obtain ⟨decoded, copies⟩ := @leaves_items f elem x fun item mem =>
      (ih (valid.2 item mem) (readable.2 item mem)).imp fun _ both => both.1
    exact ⟨_, .sequence valid.1 readable.1 copies, fun _ _ => iff_of_true rfl trivial⟩
  | @associative elem keys inner ih =>
    obtain ⟨decoded, copies⟩ := @leaves_items f elem x fun item mem =>
      (ih (valid.2.1 item mem) (readable.2 item mem)).imp fun _ both => both.1
    exact ⟨_, .associative valid.1 readable.1 copies keys, fun _ _ => iff_of_true rfl trivial⟩
  | @forwardList elem inner ih =>
    obtain ⟨decoded, copies⟩ := @leaves_items f elem x fun item mem =>
      (ih (valid.2 item mem) (readable.2 item mem)).imp fun _ both => both.1
    exact ⟨_, .forwardList valid.1 readable.1 copies, fun _ _ => iff_of_true rfl trivial⟩
  | array small inner ih =>
    obtain ⟨stored, readable⟩ := readable
    choose g leaves agree using fun i => ih (valid i) (readable i)
    refine ⟨_, .array stored small leaves, fun d e => ?_⟩
    exact funext_iff.trans (forall_congr' fun i => agree i (d i) (e i))

/-- Where numbers are read as they are written, every value of a supported type is readable. -/
lemma SerialType.Supported.readable (symmetric : f.Symmetric) {faithful : Prop} {o : SerialType}
    (supported : Supported faithful o) : ∃ shape : Shape o, ∀ x, o.Valid x → shape.Readable f x := by
  induction supported with
  | word size => exact ⟨.word _, fun _ _ => trivial⟩
  | bool => exact ⟨.bool, fun _ _ => trivial⟩
  | chrono size nanoseconds => exact ⟨.duration _ _ _, fun _ _ => trivial⟩
  | empty => exact ⟨.empty, fun _ _ => trivial⟩
  | pair _ _ first second =>
    obtain ⟨first, readFirst⟩ := first
    obtain ⟨second, readSecond⟩ := second
    exact ⟨.pair first second, fun x valid => ⟨readFirst x.1 valid.1, readSecond x.2 valid.2⟩⟩
  | optional _ ih =>
    obtain ⟨inner, read⟩ := ih
    exact ⟨.optional inner, fun x valid value mem => read value (valid value mem)⟩
  | pointer _ ih =>
    obtain ⟨inner, read⟩ := ih
    exact ⟨.pointer inner, fun x valid value mem => read value (valid value mem)⟩
  | variant few _ ih =>
    choose inner read using ih
    exact ⟨.variant inner, fun x valid => ⟨few, .inl symmetric, read x.1 x.2 valid⟩⟩
  | sequence _ ih =>
    obtain ⟨inner, read⟩ := ih
    exact ⟨.sequence inner, fun x valid => ⟨.inl symmetric, fun item mem => read item (valid.2 item mem)⟩⟩
  | associative _ ih =>
    obtain ⟨inner, read⟩ := ih
    exact ⟨.associative _ inner, fun x valid => ⟨.inl symmetric, fun item mem => read item (valid.2.1 item mem)⟩⟩
  | forwardList _ ih =>
    obtain ⟨inner, read⟩ := ih
    exact ⟨.forwardList inner, fun x valid => ⟨.inl symmetric, fun item mem => read item (valid.2 item mem)⟩⟩
  | array small data stored elem ih =>
    obtain ⟨inner, read⟩ := ih
    exact ⟨.array small inner, fun x valid => ⟨elem.storedAsEncoded data stored, fun i => read (x i) (valid i)⟩⟩

end leaves

/-- Decodes of the same bytes into two destinations return the same code and leave the same value. -/
def SerialType.SameResult (o : SerialType) (f : Format) (d e : o.Val) (s : StreamSerializer Byte) : Prop :=
  ∃ code y s₁ s₂, o.deserialize f id d s = .ok (code, y, s₁) ∧ o.deserialize f id e s = .ok (code, y, s₂)

/-- Decoding the encoding of a value does not depend on what the destination held before if and only if the
    destinations agree on the optionals that are absent in the value and decoded in place. -/
theorem destination_irrelevant_iff {o : SerialType} (shape : Shape o) (f : Format) {x : o.Val}
    (valid : o.Valid x) (readable : shape.Readable f x) (d e : o.Val) {s : StreamSerializer Byte}
    (loaded : Loaded (o.encode f x) s) : o.SameResult f d e s ↔ shape.Agree x d e := by
  obtain ⟨ready, caught, rest, left⟩ := loaded.ready
  obtain ⟨g, leaves, agree⟩ := shape.leaves valid readable
  obtain ⟨t, runFirst, _⟩ := leaves.decodes id d s rest ready caught left
  obtain ⟨u, runSecond, _⟩ := leaves.decodes id e s rest ready caught left
  rw [← agree]
  unfold SerialType.SameResult
  rw [runFirst, runSecond]
  refine ⟨?_, fun same => ⟨.none, g d, t, u, rfl, ?_⟩⟩
  · rintro ⟨code, y, s₁, s₂, first, second⟩
    have here := congrArg (fun outcome => outcome.2.1) (Except.ok.inj first)
    have there := congrArg (fun outcome => outcome.2.1) (Except.ok.inj second)
    exact here.trans there.symm
  · rw [same]

/-- An absent pointer and a number, decoded into an engaged pointer and another number. -/
theorem destination_irrelevant_pointer :
    (pair (pointer bool) (word 1)).SameResult ⟨true, true⟩ (some true, (7 : BitVec 8)) (none, (9 : BitVec 8))
      ([[0, 5]].foldl pushView {}) :=
  (destination_irrelevant_iff (.pair (.pointer .bool) (.word 1)) ⟨true, true⟩ (x := (none, (5 : BitVec 8)))
    ⟨nofun, trivial⟩ ⟨nofun, trivial⟩ (some true, (7 : BitVec 8)) (none, (9 : BitVec 8))
    ⟨[[0, 5]], [], rfl, rfl⟩).2 ⟨trivial, trivial⟩

/-- An absent optional keeps the value that the destination held. -/
theorem absent_optional_kept : ¬ ∀ {o : SerialType} (shape : Shape o) (f : Format) (x : o.Val),
    o.Valid x → shape.Readable f x → ∀ (d e : o.Val) (s : StreamSerializer Byte), Loaded (o.encode f x) s →
      o.SameResult f d e s := by
  intro all
  obtain ⟨code, y, s₁, s₂, first, second⟩ := all (.optional .bool) ⟨true, true⟩ none nofun nofun none (some true)
    _ ⟨[[0]], [], rfl, rfl⟩
  have empty := congrArg (fun outcome => outcome.toOption.map fun result => result.2.1) first
  have engaged := congrArg (fun outcome => outcome.toOption.map fun result => result.2.1) second
  change some (none : Option Bool) = some y at empty
  change some (some true) = some y at engaged
  exact absurd (empty.trans engaged.symm) (by decide)

end OsterLib.Serialization
