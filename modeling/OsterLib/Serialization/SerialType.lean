import OsterLib.Serialization.StreamSerializer

/-!
# The types that can be serialized

Each template specialisation of `Serialize` and `Deserialize` in `serialization.h` is an operation that
makes a `SerialType` out of those of its arguments, so that the types nest as they do in the source. A
`SerialType` is a type with the two functions the templates give it. What its values mean stands beside
them: which ones an object can hold (`Valid`), and which ones are equal (`Equal`), where an associative
container is equal to another one with the same elements.

`deserialize` is `StreamSerializer::deserialize`, which passes numbers to the view and every other
type to its `Deserialize`.
-/

namespace OsterLib.Serialization
open StreamSerializer

/-- A type of the serializer: its values, what is known of their sizes, and how they are written and read -/
structure SerialType where
  Val : Type
  /-- The value of a default constructed object. -/
  init : Val
  /-- `sizeof(T) == 1`, and then the byte. -/
  oneByte : Bool
  toByte : Val → Byte
  /-- Objects hold no data. -/
  emptyClass : Bool
  /-- Decoded without a `Deserialize`. -/
  numeric : Bool
  /-- `min_serial_size`, `max_serial_size` and `serial_size`. -/
  minSize : UInt64
  maxSize : UInt64
  serialSize : Val → UInt64
  serialize : Format → Val → Serializer
  deserialize : Format → {α : Type} → (α → Byte) → Val → StreamSerializer α →
    Except Fault (Outcome α Val)
  Valid : Val → Prop
  Equal : Val → Val → Prop

namespace SerialType

/-- The largest `size_t`. -/
def sizeMax : UInt64 := UInt64.ofNat (2 ^ 64 - 1)

/-! ## Numbers -/

/-- Integers, enumerations and floats of `n` bytes, by their bits. -/
def word (n : Nat) : SerialType where
  Val := BitVec (8 * n)
  init := 0
  oneByte := n = 1
  toByte x := UInt8.ofNat x.toNat
  emptyClass := false
  numeric := true
  minSize := UInt64.ofNat n
  maxSize := UInt64.ofNat n
  serialSize _ := UInt64.ofNat n
  serialize f x := serializeWord f n x.toNat
  deserialize f _ load x s :=
    .ok (s.deserializeNumeric n (fun bytes => BitVec.ofNat _ (readWord f bytes)) load x)
  Valid _ := True
  Equal := Eq

/-- A byte read into a `bool`. -/
def readFlag (f : Format) (bytes : List Byte) : Bool := readWord f bytes ≠ 0

/-- `bool` -/
def bool : SerialType where
  Val := Bool
  init := false
  oneByte := true
  toByte x := UInt8.ofNat x.toNat
  emptyClass := false
  numeric := true
  minSize := 1
  maxSize := 1
  serialSize _ := 1
  serialize f x := serializeWord f 1 x.toNat
  deserialize f _ load x s := .ok (s.deserializeNumeric 1 (readFlag f) load x)
  Valid _ := True
  Equal := Eq

/-- `size_t`, which containers write their size as, and variants their index. -/
def serializeSize (f : Format) (n : UInt64) : Serializer := serializeWord f 8 n.toNat

/-- `deserialize` of a `size_t` -/
def deserializeSize (f : Format) {α : Type} (load : α → Byte) (n : UInt64) (s : StreamSerializer α) :
    Outcome α UInt64 :=
  s.deserializeNumeric 8 (fun bytes => UInt64.ofNat (readWord f bytes)) load n

/-! ## Durations and time points -/

/-- `duration_cast` by the factor `num / den`, computed in `int64_t`. -/
def durationCast (num den : Nat) (count : BitVec 64) : BitVec 64 :=
  (count * BitVec.ofNat 64 num).sdiv (BitVec.ofNat 64 den)

/-- The count is read as nanoseconds, and the destination is set where that succeeds. -/
def deserializeChrono (n num den : Nat) (f : Format) {α : Type} (load : α → Byte)
    (x : BitVec (8 * n)) (s : StreamSerializer α) : Except Fault (Outcome α (BitVec (8 * n))) :=
  match s.deserializeNumeric 8 (fun bytes => BitVec.ofNat 64 (readWord f bytes)) load 0 with
  | (.none, count, s) => .ok (.none, (durationCast den num count).setWidth _, s)
  | (code, _, s) => .ok (code, x, s)

/-- A duration, or a time point by its time since the epoch: an integer of `n` bytes that counts periods
    of `num / den` nanoseconds. -/
def chrono (n num den : Nat) : SerialType where
  Val := BitVec (8 * n)
  init := 0
  oneByte := n = 1
  toByte x := UInt8.ofNat x.toNat
  emptyClass := false
  numeric := false
  minSize := UInt64.ofNat n
  maxSize := UInt64.ofNat n
  serialSize _ := UInt64.ofNat n
  serialize f x := serializeWord f 8 (durationCast num den (x.signExtend 64)).toNat
  deserialize f _ load := deserializeNested (deserializeChrono n num den f load)
  Valid _ := True
  Equal := Eq

/-- A duration of any representation, by its `n` bytes. The two conversions are those of `duration_cast`;
    a floating-point one need not give back what it was given. -/
def deserializeDuration {n : Nat} (ofNanoseconds : BitVec 64 → BitVec (8 * n)) (f : Format) {α : Type}
    (load : α → Byte) (x : BitVec (8 * n)) (s : StreamSerializer α) :
    Except Fault (Outcome α (BitVec (8 * n))) :=
  match s.deserializeNumeric 8 (fun bytes => BitVec.ofNat 64 (readWord f bytes)) load 0 with
  | (.none, count, s) => .ok (.none, ofNanoseconds count, s)
  | (code, _, s) => .ok (code, x, s)

/-- A duration of any representation -/
def duration (n : Nat) (toNanoseconds : BitVec (8 * n) → BitVec 64)
    (ofNanoseconds : BitVec 64 → BitVec (8 * n)) : SerialType where
  Val := BitVec (8 * n)
  init := 0
  oneByte := n = 1
  toByte x := UInt8.ofNat x.toNat
  emptyClass := false
  numeric := false
  minSize := UInt64.ofNat n
  maxSize := UInt64.ofNat n
  serialSize _ := UInt64.ofNat n
  serialize f x := serializeWord f 8 (toNanoseconds x).toNat
  deserialize f _ load := deserializeNested (deserializeDuration ofNanoseconds f load)
  Valid _ := True
  Equal := Eq

/-- Integer representations are converted in `int64_t`. -/
lemma chrono_eq_duration (n num den : Nat) :
    chrono n num den = duration n (fun x => durationCast num den (x.signExtend 64))
      (fun count => (durationCast den num count).setWidth _) := rfl

/-! ## Empty classes and pairs -/

/-- `Deserialize` of an empty class -/
def deserializeEmpty {α : Type} (x : Unit) (s : StreamSerializer α) : Except Fault (Outcome α Unit) :=
  .ok (.none, x, s)

/-- An empty class. Its object takes one byte of memory, which means nothing. -/
def empty : SerialType where
  Val := Unit
  init := ()
  oneByte := true
  toByte _ := 0
  emptyClass := true
  numeric := false
  minSize := 0
  maxSize := 0
  serialSize _ := 0
  serialize _ _ := fun buffer => (.none, buffer)
  deserialize _ _ _ := deserializeNested deserializeEmpty
  Valid _ := True
  Equal := Eq

/-- `Deserialize` of a pair, whose first value stays where the second one fails -/
def deserializePair (a b : SerialType) (f : Format) {α : Type} (load : α → Byte) (x : a.Val × b.Val)
    (s : StreamSerializer α) : Except Fault (Outcome α (a.Val × b.Val)) := do
  let (code, first, s) ← a.deserialize f load x.1 s
  if code = .none then
    let (code, second, s) ← b.deserialize f load x.2 s
    return (code, (first, second), s)
  else return (code, (first, x.2), s)

/-- `std::pair` -/
def pair (a b : SerialType) : SerialType where
  Val := a.Val × b.Val
  init := (a.init, b.init)
  oneByte := false
  toByte _ := 0
  emptyClass := false
  numeric := false
  minSize := a.minSize + b.minSize
  maxSize := a.maxSize + b.maxSize
  serialSize x := a.serialSize x.1 + b.serialSize x.2
  serialize f x := serializeAll [a.serialize f x.1, b.serialize f x.2]
  deserialize f _ load := deserializeNested (deserializePair a b f load)
  Valid x := a.Valid x.1 ∧ b.Valid x.2
  Equal x y := a.Equal x.1 y.1 ∧ b.Equal x.2 y.2

/-! ## Optionals and smart pointers -/

/-- `Serialize` of an optional and of a smart pointer: a flag, and the value where there is one -/
def serializeMaybe (a : SerialType) (f : Format) : Option a.Val → Serializer
  | none => bool.serialize f false
  | some x => serializeAll [bool.serialize f true, a.serialize f x]

/-- `Deserialize` of an optional and of a smart pointer. They differ in what they leave of the
    destination where the flag says that there is no value. -/
def deserializeMaybe (a : SerialType) (cleared : Option a.Val → Option a.Val) (f : Format)
    {α : Type} (load : α → Byte) (x : Option a.Val) (s : StreamSerializer α) :
    Except Fault (Outcome α (Option a.Val)) :=
  match s.tryAdvance 1 with
  | some s =>
    match x with
    | some value => do
      let (code, value, s) ← a.deserialize f load value s
      return (code, some value, s)
    | none => .ok (.none, none, s)
  | none =>
    match s.deserializeNumeric 1 (readFlag f) load false with
    | (.none, false, s) => .ok (.none, cleared x, s)
    | (.none, true, s) => do
      let (code, value, s) ← a.deserialize f load a.init s
      return (code, some value, s)
    | (code, _, s) => .ok (code, x, s)

/-- `Serial_size` of an optional and of a smart pointer -/
def maybeSize (a : SerialType) (x : Option a.Val) : UInt64 :=
  1 + match x with
    | some value => a.serialSize value
    | none => 0

/-- When two optionals are equal, given when their values are. -/
def MaybeEqual {V : Type} (equal : V → V → Prop) : Option V → Option V → Prop
  | none, none => True
  | some x, some y => equal x y
  | _, _ => False

/-- `std::optional` -/
def optional (a : SerialType) : SerialType where
  Val := Option a.Val
  init := none
  oneByte := false
  toByte _ := 0
  emptyClass := false
  numeric := false
  minSize := 1
  maxSize := if a.maxSize = sizeMax then a.maxSize else a.maxSize + 1
  serialSize := maybeSize a
  serialize f := serializeMaybe a f
  deserialize f _ load := deserializeNested (deserializeMaybe a id f load)
  Valid x := ∀ value ∈ x, a.Valid value
  Equal := MaybeEqual a.Equal

/-- `unique_ptr` and `shared_ptr`, by what they point to. -/
def pointer (a : SerialType) : SerialType where
  Val := Option a.Val
  init := none
  oneByte := false
  toByte _ := 0
  emptyClass := false
  numeric := false
  minSize := 1
  maxSize := if a.maxSize = sizeMax then a.maxSize else a.maxSize + 1
  serialSize := maybeSize a
  serialize f := serializeMaybe a f
  deserialize f _ load := deserializeNested (deserializeMaybe a (fun _ => none) f load)
  Valid x := ∀ value ∈ x, a.Valid value
  Equal := MaybeEqual a.Equal

/-! ## Variants -/

section variant
variable {n : Nat} (alternatives : Fin (n + 1) → SerialType)

/-- `VariantFactory::emplace`: the alternative at an index, default constructed. -/
def emplace (index : UInt64) : Option (Σ i, (alternatives i).Val) :=
  if lt : index.toNat < n + 1 then some ⟨⟨index.toNat, lt⟩, (alternatives ⟨index.toNat, lt⟩).init⟩
  else none

/-- The visit of the alternative that the variant holds. -/
def deserializeAlternative (f : Format) {α : Type} (load : α → Byte) (x : Σ i, (alternatives i).Val)
    (s : StreamSerializer α) : Except Fault (Outcome α (Σ i, (alternatives i).Val)) := do
  let (code, value, s) ← (alternatives x.1).deserialize f load x.2 s
  return (code, ⟨x.1, value⟩, s)

/-- `Deserialize` of a variant: its index, and the alternative there -/
def deserializeVariant (f : Format) {α : Type} (load : α → Byte) (x : Σ i, (alternatives i).Val)
    (s : StreamSerializer α) : Except Fault (Outcome α (Σ i, (alternatives i).Val)) :=
  match s.tryAdvance 8 with
  | some s => deserializeAlternative alternatives f load x s
  | none =>
    match deserializeSize f load (UInt64.ofNat (2 ^ 64 - 1)) s with
    | (.none, index, s) =>
      match emplace alternatives index with
      | some x => deserializeAlternative alternatives f load x s
      | none => .ok (.unmatchedType, x, s)
    | (code, _, s) => .ok (code, x, s)

/-- `std::variant` -/
def variant : SerialType where
  Val := Σ i, (alternatives i).Val
  init := ⟨0, (alternatives 0).init⟩
  oneByte := false
  toByte _ := 0
  emptyClass := false
  numeric := false
  minSize := (List.ofFn alternatives).foldl (fun size a => min a.minSize size) sizeMax + 8
  maxSize :=
    let size := (List.ofFn alternatives).foldl (fun size a => max a.maxSize size) 0
    if sizeMax - 8 < size then sizeMax else size + 8
  serialSize x := (alternatives x.1).serialSize x.2 + 8
  serialize f x :=
    serializeAll [serializeSize f (UInt64.ofNat x.1), (alternatives x.1).serialize f x.2]
  deserialize f _ load := deserializeNested (deserializeVariant alternatives f load)
  Valid x := (alternatives x.1).Valid x.2
  Equal x y := ∃ same : x.1 = y.1, (alternatives y.1).Equal (same ▸ x.2) y.2

end variant

/-! ## Ranges -/

section ranges
variable (elem : SerialType)

/-- `Serialize` of a range: its size, then its elements. -/
def serializeRange (f : Format) (x : List elem.Val) : Serializer :=
  serializeAll (serializeSize f (UInt64.ofNat x.length) :: x.map (elem.serialize f))

/-- `Serial_size` of a range -/
def rangeSize (x : List elem.Val) : UInt64 :=
  x.foldl (fun total item => total + elem.serialSize item) 8

/-- The size of a range: registered by an earlier attempt, or read after the destination is cleared. -/
def deserializeRangeSize (f : Format) {α : Type} (load : α → Byte) (x : List elem.Val)
    (s : StreamSerializer α) :
    Except Fault (SerializationEC × UInt64 × List elem.Val × StreamSerializer α) :=
  match s.tryAdvance 8 with
  | some s => do
    let size ← s.getValueAt 0
    return (.none, size, x, s)
  | none =>
    match deserializeSize f load 0 s with
    | (.none, size, s) => .ok (.none, size, [], s.registerValue size)
    | (code, size, s) => .ok (code, size, [], s)

/-- The loop over the elements, each decoded into a fresh item that is inserted. -/
def deserializeElements (insert : List elem.Val → elem.Val → List elem.Val) (f : Format) {α : Type}
    (load : α → Byte) : Nat → List elem.Val → StreamSerializer α →
    Except Fault (Outcome α (List elem.Val))
  | 0, x, s => .ok (.none, x, s)
  | count + 1, x, s => do
    let (code, item, s) ← elem.deserialize f load elem.init s
    if code = .none then deserializeElements insert f load count (insert x item) s
    else return (code, x, s)

/-- `Deserialize` of a range that knows its size. -/
def deserializeRange (insert : List elem.Val → elem.Val → List elem.Val) (f : Format) {α : Type}
    (load : α → Byte) (x : List elem.Val) (s : StreamSerializer α) :
    Except Fault (Outcome α (List elem.Val)) := do
  let (code, size, x, s) ← deserializeRangeSize elem f load x s
  if code = .none then
    deserializeElements elem insert f load (size - UInt64.ofNat x.length).toNat x s
  else return (code, x, s)

/-- `std::vector`, `std::list`, `std::deque` and `std::string`. -/
def sequence : SerialType where
  Val := List elem.Val
  init := []
  oneByte := false
  toByte _ := 0
  emptyClass := false
  numeric := false
  minSize := 8
  maxSize := sizeMax
  serialSize := rangeSize elem
  serialize f := serializeRange elem f
  deserialize f _ load :=
    deserializeNested (deserializeRange elem (fun x item => x ++ [item]) f load)
  Valid x := x.length < 2 ^ 64 ∧ ∀ item ∈ x, elem.Valid item
  Equal := List.Forall₂ elem.Equal

/-- How an associative container keeps its elements: whether keys are unique, when two elements have the
    same key, and where in the order of iteration an element goes. -/
structure Keys where
  unique : Bool
  sameKey : elem.Val → elem.Val → Bool
  place : List elem.Val → elem.Val → List elem.Val
  place_perm : ∀ x item, (place x item).Perm (item :: x)
  sameKey_congr : ∀ {x x' y y'}, elem.Equal x x' → elem.Equal y y' → sameKey x y = sameKey x' y'

/-- `insert` of an associative container. -/
def Keys.insert {elem : SerialType} (keys : Keys elem) (x : List elem.Val) (item : elem.Val) :
    List elem.Val :=
  if keys.unique && x.any (fun old => keys.sameKey old item) then x else keys.place x item

/-- Sets and maps, ordered and unordered, with unique and with repeated keys. The elements of a map are
    pairs. -/
def associative (keys : Keys elem) : SerialType where
  Val := List elem.Val
  init := []
  oneByte := false
  toByte _ := 0
  emptyClass := false
  numeric := false
  minSize := 8
  maxSize := sizeMax
  serialSize := rangeSize elem
  serialize f := serializeRange elem f
  deserialize f _ load := deserializeNested (deserializeRange elem keys.insert f load)
  Valid x := x.length < 2 ^ 64 ∧ (∀ item ∈ x, elem.Valid item) ∧
    (keys.unique = true → x.Pairwise fun a b => keys.sameKey a b = false)
  Equal x y := ∃ x', x.Perm x' ∧ List.Forall₂ elem.Equal x' y

/-- The loop over the elements of a `std::forward_list`, which inserts at the front and registers the
    number of elements that it holds, `old + 1` after every one of them. -/
def deserializeFront (old : UInt64) (f : Format) {α : Type} (load : α → Byte) :
    Nat → List elem.Val → StreamSerializer α → Except Fault (Outcome α (List elem.Val))
  | 0, x, s => .ok (.none, x, s)
  | count + 1, x, s => do
    let (code, item, s) ← elem.deserialize f load elem.init s
    if code = .none then
      let s ← s.updateValueAt (old + 1) 1
      deserializeFront old f load count (item :: x) s
    else return (code, x, s)

/-- The elements of a forward list, after its size. -/
def deserializeFrontAll (size : UInt64) (f : Format) {α : Type} (load : α → Byte)
    (x : List elem.Val) (s : StreamSerializer α) : Except Fault (Outcome α (List elem.Val)) := do
  let (old, s) ←
    if s.registeredSize = 1 then pure (0, s.registerValue (UInt64.ofNat x.length))
    else do
      let old ← s.getValueAt 1
      pure (old, s)
  let (code, x, s) ← deserializeFront elem old f load (size - old).toNat x s
  return (code, if code = .none then x.reverse else x, s)

/-- `Deserialize` of a forward list, after its size -/
def deserializeForwardList (f : Format) {α : Type} (load : α → Byte) (x : List elem.Val)
    (s : StreamSerializer α) : Except Fault (Outcome α (List elem.Val)) := do
  let (code, size, x, s) ← deserializeRangeSize elem f load x s
  if code = .none then deserializeFrontAll elem size f load x s
  else return (code, x, s)

/-- `std::forward_list` -/
def forwardList : SerialType where
  Val := List elem.Val
  init := []
  oneByte := false
  toByte _ := 0
  emptyClass := false
  numeric := false
  minSize := 8
  maxSize := sizeMax
  serialSize := rangeSize elem
  serialize f := serializeRange elem f
  deserialize f _ load := deserializeNested (deserializeForwardList elem f load)
  Valid x := x.length < 2 ^ 64 ∧ ∀ item ∈ x, elem.Valid item
  Equal := List.Forall₂ elem.Equal

/-! ## Arrays -/

/-- The loop over the elements of an array from index `i` on. -/
def deserializeItems (remain : UInt64) {n : Nat} (f : Format) {α : Type} (load : α → Byte) :
    Nat → Nat → (Fin n → elem.Val) → StreamSerializer α →
    Except Fault (Outcome α (Fin n → elem.Val))
  | 0, _, x, s => .ok (.none, x, s)
  | count + 1, i, x, s =>
    if lt : i < n then do
      let (code, item, s) ← elem.deserialize f load (x ⟨i, lt⟩) s
      let x := Function.update x ⟨i, lt⟩ item
      let s ← s.updateValueAt (remain - 1) 0
      if code = .none then deserializeItems remain f load count (i + 1) x s
      else return (code, x, s)
    else .error .outOfBounds

/-- `Deserialize` of an array, which registers how many elements remain -/
def deserializeArray (n : Nat) (f : Format) {α : Type} (load : α → Byte) (x : Fin n → elem.Val)
    (s : StreamSerializer α) : Except Fault (Outcome α (Fin n → elem.Val)) := do
  let size := UInt64.ofNat n
  let (remain, s) ←
    if 0 < s.registeredSize then do
      let remain ← s.getValueAt 0
      pure (remain, s)
    else pure (size, s.registerValue size)
  let i := (size - remain).toNat
  deserializeItems elem remain f load (remain.toNat - i) i x s

/-- The smallest and the largest size of an array, from those of its elements. -/
def arrayBound (bound : UInt64) (n : Nat) : UInt64 :=
  if bound ≠ 0 ∧ bound > sizeMax / UInt64.ofNat n then sizeMax else bound * UInt64.ofNat n

/-- `std::array<T, n>`. One-byte elements are copied as memory. -/
def array (n : Nat) : SerialType where
  Val := Fin n → elem.Val
  init _ := elem.init
  oneByte := n = 0 || (n = 1 && elem.oneByte)
  toByte x := if lt : 0 < n then elem.toByte (x ⟨0, lt⟩) else 0
  emptyClass := n = 0
  numeric := false
  minSize := arrayBound elem.minSize n
  maxSize := arrayBound elem.maxSize n
  serialSize x :=
    if elem.minSize = elem.maxSize then UInt64.ofNat n * elem.minSize
    else (List.ofFn x).foldl (fun total item => total + elem.serialSize item) 0
  serialize f x :=
    if elem.oneByte then fun buffer => (.none, buffer ++ List.ofFn fun i => elem.toByte (x i))
    else serializeAll (List.ofFn fun i => elem.serialize f (x i))
  deserialize f _ load := deserializeNested (deserializeArray elem n f load)
  Valid x := ∀ i, elem.Valid (x i)
  Equal x y := ∀ i, elem.Equal (x i) (y i)

end ranges
end SerialType

open SerialType

/-! ## The supported types -/

/-- How a supported type is composed. -/
inductive Shape : SerialType → Type 1
  | word (n : Nat) : Shape (word n)
  | bool : Shape bool
  | duration (n : Nat) (toNanoseconds : BitVec (8 * n) → BitVec 64) (ofNanoseconds : BitVec 64 → BitVec (8 * n)) :
      Shape (duration n toNanoseconds ofNanoseconds)
  | empty : Shape empty
  | pair {a b : SerialType} (first : Shape a) (second : Shape b) : Shape (pair a b)
  | optional {a : SerialType} (inner : Shape a) : Shape (optional a)
  | pointer {a : SerialType} (inner : Shape a) : Shape (pointer a)
  | variant {n : Nat} {alternatives : Fin (n + 1) → SerialType} (inner : ∀ i, Shape (alternatives i)) :
      Shape (variant alternatives)
  | sequence {elem : SerialType} (inner : Shape elem) : Shape (sequence elem)
  | associative {elem : SerialType} (keys : Keys elem) (inner : Shape elem) : Shape (associative elem keys)
  | forwardList {elem : SerialType} (inner : Shape elem) : Shape (forwardList elem)
  | array {elem : SerialType} {n : Nat} (small : n < 2 ^ 64) (inner : Shape elem) : Shape (array elem n)

namespace SerialType

/-- An object of one byte is encoded as this byte. -/
def StoredAsEncoded (o : SerialType) : Prop :=
  o.oneByte = true → ∀ f x buffer, o.serialize f x buffer = (.none, buffer ++ [o.toByte x])

/-- Integers, enumerations, floats, `bool` and durations, with any nesting of pairs, optionals, smart
    pointers, variants, containers and arrays whose elements hold data and are stored as they are encoded.
    Where all values have to be decoded faithfully, durations count nanoseconds in 64 bits. -/
inductive Supported (faithful : Prop) : SerialType → Prop
  | word {n : Nat} (size : n = 1 ∨ n = 2 ∨ n = 4 ∨ n = 8) : Supported faithful (word n)
  | bool : Supported faithful bool
  | chrono {n num den : Nat} (size : n = 1 ∨ n = 2 ∨ n = 4 ∨ n = 8)
      (nanoseconds : faithful → n = 8 ∧ num = 1 ∧ den = 1) : Supported faithful (chrono n num den)
  | empty : Supported faithful empty
  | pair {a b : SerialType} : Supported faithful a → Supported faithful b → Supported faithful (pair a b)
  | optional {a : SerialType} : Supported faithful a → Supported faithful (optional a)
  | pointer {a : SerialType} : Supported faithful a → Supported faithful (pointer a)
  | variant {n : Nat} {alternatives : Fin (n + 1) → SerialType} (few : n < 2 ^ 64 - 1) :
      (∀ i, Supported faithful (alternatives i)) → Supported faithful (variant alternatives)
  | sequence {elem : SerialType} : Supported faithful elem → Supported faithful (sequence elem)
  | associative {elem : SerialType} {keys : Keys elem} :
      Supported faithful elem → Supported faithful (associative elem keys)
  | forwardList {elem : SerialType} : Supported faithful elem → Supported faithful (forwardList elem)
  | array {elem : SerialType} {n : Nat} (small : n < 2 ^ 64) (data : elem.emptyClass = false)
      (stored : faithful ∨ elem.StoredAsEncoded) :
      Supported faithful elem → Supported faithful (array elem n)

end SerialType
end OsterLib.Serialization
