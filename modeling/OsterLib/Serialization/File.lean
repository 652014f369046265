import OsterLib.Serialization.Fields
import OsterLib.Serialization.Sizes

/-!
# Files

`serialize_to_file` and `deserialize_from_file` of `serialization.h`. A reader takes as many bytes out of
the file as the types can need at most, decodes them, and seeks back by what it has taken too much, which
is the size of the decoded values minus that of the buffer, in `size_t`.

A file stream that takes what is written holds the concatenated encodings, whatever the calls. Reading them
back in calls of any grouping gives the values, with the position behind them, exactly if the size
functions are right about every call (`restored_iff`).
-/

namespace OsterLib.Serialization
open StreamSerializer SerialType

/-! ## Writing -/

/-- `serialize_to_file` of one value, which appends to what the file holds. -/
def serializeToFile (f : Format) (o : SerialType) (x : o.Val) (file : List Byte) :
    SerializationEC × List Byte :=
  match o.serialize f x [] with
  | (.none, buf) => (.none, file ++ buf)
  | (err, _) => (err, file)

/-- The variadic `serialize_to_file` -/
def serializeAllToFile (f : Format) (items : List Item) (file : List Byte) : SerializationEC × List Byte :=
  match serializeAll (items.map fun item => item.1.serialize f item.2) [] with
  | (.none, buf) => (.none, file ++ buf)
  | (err, _) => (err, file)

/-! ## Reading -/

/-- A `std::ifstream`. `failed` is its `failbit`. -/
structure FileStream where
  bytes : List Byte
  position : Nat := 0
  failed : Bool := false

namespace FileStream

/-- What is left of the file. -/
def rest (s : FileStream) : List Byte := s.bytes.drop s.position

/-- `seekg(offset, std::ios::cur)`, where the offset is taken as a signed number. -/
def seek (s : FileStream) (offset : UInt64) : FileStream :=
  let target := (s.position : Int) + offset.toBitVec.toInt
  if 0 ≤ target then { s with position := target.toNat } else { s with failed := true }

/-- The common head of the two `deserialize_from_file`: what is left of the file, but not more than the
    types can need. -/
def readBuffer (minSize maxSize : UInt64) (s : FileStream) : SerializationEC × List Byte × FileStream :=
  let sz := UInt64.ofNat s.bytes.length - UInt64.ofNat s.position
  if s.failed then (.fileReadingError, [], s)
  else if sz < minSize then (.bufferSizeLesser, [], s)
  else
    let count := if sz > maxSize then maxSize else sz
    let buf := s.rest.take count.toNat
    let s := { s with position := s.position + buf.length }
    if buf.length < count.toNat then (.unexpectedEof, buf, { s with failed := true }) else (.none, buf, s)

end FileStream

/-- `deserialize_from_file` of one value -/
def deserializeFromFile (f : Format) (o : SerialType) (x : o.Val) (s : FileStream) :
    Except Fault (SerializationEC × o.Val × FileStream) :=
  match s.readBuffer o.minSize o.maxSize with
  | (.none, buf, s) =>
    match o.deserialize f id x (pushView {} buf) with
    | .error fault => .error fault
    | .ok (.none, x, _) => .ok (.none, x, s.seek (o.serialSize x - UInt64.ofNat buf.length))
    | .ok (err, x, _) => .ok (err, x, s)
  | (err, _, s) => .ok (err, x, s)

/-- `(min_serial_size(val) + ...)` -/
def minSerialSize (items : List Item) : UInt64 :=
  items.foldr (fun item total => item.1.minSize + total) 0

/-- `(serial_size(val) + ...)` -/
def serialSize (items : List Item) : UInt64 :=
  items.foldr (fun item total => item.1.serialSize item.2 + total) 0

/-- The loop of `max_serial_size`, which ends where the sum would reach the largest `size_t`. -/
def addMaxSizes (result : UInt64) : List Item → UInt64
  | [] => result
  | item :: items =>
    if item.1.maxSize < sizeMax - result then addMaxSizes (result + item.1.maxSize) items else sizeMax

/-- `max_serial_size` of several values -/
def maxSerialSize (items : List Item) : UInt64 := addMaxSizes 0 items

/-- The variadic `deserialize_from_file` -/
def deserializeAllFromFile (f : Format) (items : List Item) (s : FileStream) :
    Except Fault (SerializationEC × List Item × FileStream) :=
  match s.readBuffer (minSerialSize items) (maxSerialSize items) with
  | (.none, buf, s) =>
    match deserializeFields f id items (pushView {} buf) with
    | .error fault => .error fault
    | .ok (.none, items, _) => .ok (.none, items, s.seek (serialSize items - UInt64.ofNat buf.length))
    | .ok (err, items, _) => .ok (err, items, s)
  | (err, _, s) => .ok (err, items, s)

/-! ## Calls -/

/-- A call that writes these values, or reads values of their types. Variadic ones take at least two. -/
inductive FileCall where
  | single (item : Item)
  | variadic (first second : Item) (more : List Item)

namespace FileCall

/-- The values of a call -/
def items : FileCall → List Item
  | single item => [item]
  | variadic first second more => first :: second :: more

/-- The file behind a call that writes it -/
def write (f : Format) (file : List Byte) : FileCall → List Byte
  | single ⟨o, x⟩ => (serializeToFile f o x file).2
  | variadic first second more => (serializeAllToFile f (first :: second :: more) file).2

/-- The destinations are default constructed. -/
def read (f : Format) (s : FileStream) :
    FileCall → Except Fault (SerializationEC × List Item × FileStream)
  | single ⟨o, _⟩ =>
    match deserializeFromFile f o o.init s with
    | .error fault => .error fault
    | .ok (err, x, s) => .ok (err, [⟨o, x⟩], s)
  | variadic first second more => deserializeAllFromFile f ((first :: second :: more).map initial) s

/-- The least number of bytes that a call reads -/
def minSize : FileCall → UInt64
  | single item => item.1.minSize
  | variadic first second more => minSerialSize (first :: second :: more)

/-- The largest number of bytes that a call reads -/
def maxSize : FileCall → UInt64
  | single item => item.1.maxSize
  | variadic first second more => maxSerialSize (first :: second :: more)

/-- The call returns `NONE`, gives the values, and leaves the stream behind their encodings. -/
def Restores (f : Format) (call : FileCall) (s s' : FileStream) : Prop :=
  ∃ decoded, call.read f s = .ok (.none, decoded, s') ∧ List.Forall₂ Item.Equal decoded call.items ∧
    s'.failed = false ∧ s'.position = s.position + (encodings f call.items).length

/-- The smallest size is at most what is left of the file, the largest one is at least the encodings of the
    values, and these are what `serial_size` counts. -/
structure Counted (f : Format) (call : FileCall) (left : Nat) : Prop where
  least : call.minSize.toNat ≤ left
  most : (encodings f call.items).length ≤ call.maxSize.toNat
  exactly : (serialSize call.items).toNat = (encodings f call.items).length

end FileCall

/-- The calls restore their values one after the other. -/
def Restored (f : Format) : List FileCall → FileStream → Prop
  | [], _ => True
  | call :: calls, s => ∃ s', call.Restores f s s' ∧ Restored f calls s'

/-- The size functions are right about each call, where the file ends behind the last one. -/
def CountedRight (f : Format) : List FileCall → Prop
  | [] => True
  | call :: calls =>
    call.Counted f (encodings f ((call :: calls).flatMap FileCall.items)).length ∧ CountedRight f calls

section calls
variable {f : Format}

/-! ## What is written -/

/-- The encodings are appended one behind the other. -/
lemma encodings_appends (symmetric : f.Symmetric) {items : List Item}
    (aligned : ∀ item ∈ items, Aligned 0 True item.1 item.2) :
    Appends (serializeAll (items.map fun item => item.1.serialize f item.2)) (encodings f items) := by
  induction items with
  | nil => exact appends_nil
  | cons item items ih =>
    obtain ⟨y, copy⟩ := (aligned item List.mem_cons_self).copies symmetric
    exact copy.appends.cons (ih fun other mem => aligned other (List.mem_cons_of_mem _ mem))

/-- A call writes the encodings of its values behind the file. -/
lemma FileCall.write_eq (symmetric : f.Symmetric) {call : FileCall}
    (aligned : ∀ item ∈ call.items, Aligned 0 True item.1 item.2) (file : List Byte) :
    call.write f file = file ++ encodings f call.items := by
  cases call with
  | single item =>
    obtain ⟨o, x⟩ := item
    obtain ⟨y, copy⟩ := (aligned ⟨o, x⟩ List.mem_cons_self).copies symmetric
    show (serializeToFile f o x file).2 = file ++ (o.encode f x ++ [])
    unfold serializeToFile
    rw [copy.appends, List.append_nil]
    rfl
  | variadic first second more =>
    show (serializeAllToFile f (first :: second :: more) file).2 = file ++ encodings f (first :: second :: more)
    unfold serializeAllToFile
    have appends := encodings_appends symmetric aligned []
    change serializeAll ((first :: second :: more).map _) [] = _ at appends
    rw [appends]
    rfl

/-- The file holds the encodings in order, however they are grouped. -/
lemma writes_eq (symmetric : f.Symmetric) {calls : List FileCall}
    (aligned : ∀ item ∈ calls.flatMap FileCall.items, Aligned 0 True item.1 item.2) (file : List Byte) :
    calls.foldl (FileCall.write f) file = file ++ encodings f (calls.flatMap FileCall.items) := by
  induction calls generalizing file with
  | nil => exact (List.append_nil _).symm
  | cons call calls ih =>
    rw [List.flatMap_cons] at aligned ⊢
    rw [List.foldl_cons, FileCall.write_eq symmetric fun item mem => aligned item (List.mem_append_left _ mem),
      ih fun item mem => aligned item (List.mem_append_right _ mem), encodings_append, List.append_assoc]

/-! ## Sizes of equal values -/

/-- Elements of equal sizes have equal sums. -/
lemma foldl_congr {elem : SerialType} {y x : List elem.Val}
    (same : List.Forall₂ (fun b a => elem.serialSize b = elem.serialSize a) y x) (start : UInt64) :
    y.foldl (fun total item => total + elem.serialSize item) start =
      x.foldl (fun total item => total + elem.serialSize item) start := by
  induction same generalizing start with
  | nil => rfl
  | cons head _ ih => rw [List.foldl_cons, List.foldl_cons, head, ih]

/-- Items of the same sizes make up a range of the same size. -/
lemma rangeSize_congr {elem : SerialType} {y x : List elem.Val}
    (same : List.Forall₂ (fun b a => elem.serialSize b = elem.serialSize a) y x) :
    rangeSize elem y = rangeSize elem x :=
  foldl_congr same 8

/-- The size of a range does not depend on the order. -/
lemma rangeSize_perm {elem : SerialType} {y x : List elem.Val} (perm : y.Perm x) :
    rangeSize elem y = rangeSize elem x := by
  unfold rangeSize
  generalize (8 : UInt64) = start
  induction perm generalizing start with
  | nil => rfl
  | cons item _ ih => rw [List.foldl_cons, List.foldl_cons, ih]
  | swap first second items =>
    simp only [List.foldl_cons]
    rw [UInt64.add_assoc, UInt64.add_comm (elem.serialSize second), ← UInt64.add_assoc]
  | trans _ _ ih later => rw [ih, later]

/-- Equal optionals have the same size. -/
lemma maybeSize_congr {a : SerialType} {y x : Option a.Val}
    (each : ∀ value ∈ x, ∀ w, a.Equal w value → a.serialSize w = a.serialSize value)
    (equal : MaybeEqual a.Equal y x) : maybeSize a y = maybeSize a x := by
  cases x with
  | none => cases y with
    | none => rfl
    | some y => exact absurd equal id
  | some x => cases y with
    | none => exact absurd equal id
    | some y => exact congrArg (1 + ·) (each x rfl y equal)

/-- Equal items have the same sizes. -/
lemma sizes_congr {elem : SerialType} {y x : List elem.Val}
    (each : ∀ item ∈ x, ∀ w, elem.Equal w item → elem.serialSize w = elem.serialSize item)
    (equal : List.Forall₂ elem.Equal y x) :
    List.Forall₂ (fun b a => elem.serialSize b = elem.serialSize a) y x := by
  induction equal with
  | nil => exact .nil
  | cons head _ ih =>
    exact .cons (each _ List.mem_cons_self _ head)
      (ih fun item mem => each item (List.mem_cons_of_mem _ mem))

/-- Equal items of an array have the same sizes. -/
lemma sizes_ofFn {elem : SerialType} {n : ℕ} {y x : Fin n → elem.Val}
    (same : ∀ i, elem.serialSize (y i) = elem.serialSize (x i)) :
    List.Forall₂ (fun b a => elem.serialSize b = elem.serialSize a) (List.ofFn y) (List.ofFn x) := by
  rw [List.forall₂_iff_get]
  refine ⟨by rw [List.length_ofFn, List.length_ofFn], fun i lti ltj => ?_⟩
  rw [List.get_ofFn, List.get_ofFn]
  exact same _

/-- Equal values have one size. -/
lemma Aligned.serialSize_eq {k : Nat} {faithful : Prop} {o : SerialType} {x : o.Val}
    (aligned : Aligned k faithful o x) : ∀ y, o.Equal y x → o.serialSize y = o.serialSize x := by
  induction aligned with
  | word | bool | duration | empty => exact fun _ _ => rfl
  | @pair a b x _ _ first second =>
    intro y equal
    show a.serialSize y.1 + b.serialSize y.2 = _
    rw [first y.1 equal.1, second y.2 equal.2]
    rfl
  | optional less _ ih => exact fun y equal => maybeSize_congr ih equal
  | pointer less _ ih => exact fun y equal => maybeSize_congr ih equal
  | @variant n alternatives x less few _ ih =>
    rintro ⟨i, y⟩ ⟨same, equal⟩
    obtain ⟨j, x⟩ := x
    obtain rfl : i = j := same
    exact congrArg (· + 8) (ih y equal)
  | sequence less few _ ih => exact fun y equal => rangeSize_congr (sizes_congr ih equal)
  | associative less few distinct _ ih =>
    rintro y ⟨x', perm, equal⟩
    exact (rangeSize_perm perm).trans (rangeSize_congr (sizes_congr ih equal))
  | forwardList less few _ ih => exact fun y equal => rangeSize_congr (sizes_congr ih equal)
  | @array elem n x small stored _ ih =>
    intro y equal
    show (if elem.minSize = elem.maxSize then _ else _) = (if elem.minSize = elem.maxSize then _ else _)
    split
    · rfl
    · exact foldl_congr (sizes_ofFn fun i => ih i (y i) (equal i)) 0

/-- What is decoded has the size of what was written. -/
lemma serialSize_eq {items decoded : List Item}
    (aligned : ∀ item ∈ items, Aligned 0 True item.1 item.2)
    (equal : List.Forall₂ Item.Equal decoded items) : serialSize decoded = serialSize items := by
  induction equal with
  | nil => rfl
  | cons head _ ih =>
    obtain ⟨same⟩ := head
    have here := (aligned _ List.mem_cons_self).serialSize_eq _ same
    have later := ih fun item mem => aligned item (List.mem_cons_of_mem _ mem)
    show _ + serialSize _ = _ + serialSize _
    rw [here, later]

/-! ## A call of `deserialize_from_file` -/

/-- The least size does not depend on the values. -/
lemma foldr_initial (items : List Item) : minSerialSize (items.map initial) = minSerialSize items := by
  induction items with
  | nil => rfl
  | cons item items ih => exact congrArg (item.1.minSize + ·) ih

/-- The largest size does not depend on the values. -/
lemma addMaxSizes_initial (items : List Item) (result : UInt64) :
    addMaxSizes result (items.map initial) = addMaxSizes result items := by
  induction items generalizing result with
  | nil => rfl
  | cons item items ih =>
    show (if item.1.maxSize < _ then _ else _) = (if item.1.maxSize < _ then _ else _)
    rw [ih]
    rfl

/-- The maximum of one value is its own. -/
lemma maxSerialSize_single (item : Item) : maxSerialSize [item] = item.1.maxSize := by
  show (if item.1.maxSize < sizeMax - 0 then 0 + item.1.maxSize else sizeMax) = _
  split
  · exact UInt64.zero_add _
  · next top =>
    rw [UInt64.not_lt, UInt64.sub_zero] at top
    have le := item.1.maxSize.toNat_lt
    refine UInt64.toNat_inj.1 ?_
    have ge := UInt64.le_iff_toNat_le.1 top
    rw [sizeMax_toNat] at ge ⊢
    omega

namespace FileCall

/-- The single call is the variadic one of one value. -/
lemma read_eq (f : Format) (call : FileCall) (s : FileStream) :
    call.read f s = deserializeAllFromFile f (call.items.map initial) s := by
  cases call with
  | variadic first second more => rfl
  | single item =>
    obtain ⟨o, x⟩ := item
    have least : minSerialSize [initial ⟨o, x⟩] = o.minSize := UInt64.add_zero _
    have most : maxSerialSize [initial ⟨o, x⟩] = o.maxSize := maxSerialSize_single _
    show (match deserializeFromFile f o o.init s with
      | .error fault => .error fault
      | .ok (err, x, s) => .ok (err, [⟨o, x⟩], s)) = deserializeAllFromFile f [initial ⟨o, x⟩] s
    unfold deserializeFromFile deserializeAllFromFile
    rw [least, most]
    rcases s.readBuffer o.minSize o.maxSize with ⟨err, buf, s⟩
    cases err with
    | none =>
      show (match (match o.deserialize f id o.init (pushView {} buf) with
        | .error fault => _
        | .ok (.none, x, _) => _
        | .ok (err, x, _) => _ : Except Fault (SerializationEC × o.Val × FileStream)) with
        | .error fault => _
        | .ok (err, x, s) => _) = _
      simp only [deserializeFields, initial]
      rcases o.deserialize f id o.init (pushView {} buf) with fault | ⟨err, y, t⟩
      · rfl
      · cases err with
        | none =>
          have size : serialSize [⟨o, y⟩] = o.serialSize y := UInt64.add_zero _
          simp only [size]
        | _ => rfl
    | _ => rfl

/-- The overloads for one value and for several have the same least size. -/
lemma minSize_eq (call : FileCall) : call.minSize = minSerialSize call.items := by
  cases call with
  | single item => exact (UInt64.add_zero _).symm
  | variadic first second more => rfl

/-- The overloads for one value and for several have the same largest size. -/
lemma maxSize_eq (call : FileCall) : call.maxSize = maxSerialSize call.items := by
  cases call with
  | single item => exact (maxSerialSize_single item).symm
  | variadic first second more => rfl

end FileCall

/-- A stream in good state, in a file whose positions are signed numbers. -/
structure FileStream.Good (s : FileStream) : Prop where
  sound : s.failed = false
  inside : s.position ≤ s.bytes.length
  small : s.bytes.length < 2 ^ 63

namespace FileStream
variable {s : FileStream}

/-- A buffer of what is left, and the stream behind it. -/
def behind (s : FileStream) (buf : List Byte) : FileStream := { s with position := s.position + buf.length }

/-- As many bytes are left as are behind the position. -/
lemma Good.left (good : s.Good) :
    (UInt64.ofNat s.bytes.length - UInt64.ofNat s.position).toNat = s.rest.length := by
  have inside := good.inside
  have small := good.small
  have total : (UInt64.ofNat s.bytes.length).toNat = s.bytes.length :=
    UInt64.toNat_ofNat_of_lt' (show s.bytes.length < 2 ^ 64 by omega)
  have before : (UInt64.ofNat s.position).toNat = s.position :=
    UInt64.toNat_ofNat_of_lt' (show s.position < 2 ^ 64 by omega)
  rw [UInt64.toNat_sub_of_le _ _ (UInt64.le_iff_toNat_le.2 (by rw [total, before]; exact inside)), total,
    before, rest, List.length_drop]

/-- Nothing is read where the least size is not there. -/
lemma Good.readBuffer_short (good : s.Good) {minSize : UInt64} (maxSize : UInt64)
    (short : s.rest.length < minSize.toNat) : s.readBuffer minSize maxSize = (.bufferSizeLesser, [], s) := by
  have lt : UInt64.ofNat s.bytes.length - UInt64.ofNat s.position < minSize :=
    UInt64.lt_iff_toNat_lt.2 (good.left.symm ▸ short)
  simp [readBuffer, good.sound, lt]

/-- As many bytes as there are, up to the largest size, are read. -/
lemma Good.readBuffer_enough (good : s.Good) {minSize : UInt64} (maxSize : UInt64)
    (enough : minSize.toNat ≤ s.rest.length) :
    s.readBuffer minSize maxSize = (.none, s.rest.take maxSize.toNat, s.behind (s.rest.take maxSize.toNat)) := by
  have left := good.left
  unfold readBuffer
  simp only [good.sound, Bool.false_eq_true, if_false]
  rw [if_neg (UInt64.not_lt.2 (UInt64.le_iff_toNat_le.2 (left.symm ▸ enough)))]
  by_cases long : UInt64.ofNat s.bytes.length - UInt64.ofNat s.position > maxSize
  · have more := UInt64.lt_iff_toNat_lt.1 long
    rw [left] at more
    rw [if_pos long, if_neg (by rw [List.length_take]; omega), behind, good.sound]
  · have fits := UInt64.le_iff_toNat_le.1 (UInt64.not_lt.1 long)
    rw [left] at fits
    rw [if_neg long, left, if_neg (by rw [List.length_take]; omega), List.take_of_length_le (Nat.le_refl _),
      List.take_of_length_le fits, behind, good.sound]

/-- Seeking changes no byte. -/
lemma seek_bytes (s : FileStream) (offset : UInt64) : (s.seek offset).bytes = s.bytes := by
  unfold seek
  dsimp only
  split <;> rfl

/-- A good stream is known by its bytes and its position. -/
lemma Good.eq_behind (good : s.Good) {s' : FileStream} {buf : List Byte} (bytes : s'.bytes = s.bytes)
    (sound : s'.failed = false) (position : s'.position = s.position + buf.length) :
    s' = s.behind buf := by
  obtain ⟨_, _, _⟩ := s'
  subst bytes sound position
  rw [behind, good.sound]

/-- Seeking back from behind the buffer ends behind so many bytes of it exactly if `total` counts them. -/
lemma Good.seek_iff (good : s.Good) {buf : List Byte} (part : buf.length < 2 ^ 63) {n : ℕ}
    (le : n ≤ buf.length) (total : UInt64) {s' : FileStream}
    (seek : s' = (s.behind buf).seek (total - UInt64.ofNat buf.length)) :
    s'.failed = false ∧ s'.position = s.position + n ↔ total.toNat = n := by
  have bound := total.toNat_lt
  have count : (UInt64.ofNat buf.length).toNat = buf.length :=
    UInt64.toNat_ofNat_of_lt' (show buf.length < 2 ^ 64 by omega)
  have offset := UInt64.toNat_sub total (UInt64.ofNat buf.length)
  have signed := BitVec.toInt_eq_toNat_cond (total - UInt64.ofNat buf.length).toBitVec
  change _ = if 2 * (total - UInt64.ofNat buf.length).toNat < _ then
    ((total - UInt64.ofNat buf.length).toNat : Int) else (total - UInt64.ofNat buf.length).toNat - _ at signed
  rw [count] at offset
  subst seek
  unfold FileStream.seek
  simp only [behind, good.sound]
  constructor
  · rintro ⟨sound, position⟩
    split at sound
    · next ahead =>
      rw [if_pos ahead] at position
      simp only [] at position
      split at signed <;> omega
    · exact Bool.noConfusion sound
  · rintro rfl
    have target : ((s.position + buf.length : ℕ) : Int) + (total - UInt64.ofNat buf.length).toBitVec.toInt =
        (s.position + total.toNat : ℕ) := by
      split at signed <;> omega
    rw [target, if_pos (Int.natCast_nonneg _)]
    exact ⟨rfl, Int.toNat_natCast _⟩

end FileStream

/-- A serializer that holds a buffer. -/
lemma pushed_buffer (buf : List Byte) :
    (pushView {} buf).Ready ∧ CaughtUp 0 (pushView {} buf) ∧ (pushView {} buf).left id = buf := by
  have fresh : ({} : StreamSerializer Byte).Ready := ⟨MultiBufferView.valid_empty, fun _ _ => rfl⟩
  obtain ⟨ready, idle, unread⟩ := pushViews fresh ⟨rfl, rfl⟩ [buf]
  refine ⟨ready, Nat.le_of_eq idle.lag, ?_⟩
  change (pushView {} buf).mbv.unread = _ at unread
  rw [StreamSerializer.left, List.map_id, unread]
  exact List.append_nil buf

/-- A call restores its values exactly if the size functions are right about them. -/
lemma FileCall.restores_iff (symmetric : f.Symmetric) {call : FileCall} {s s' : FileStream} (good : s.Good)
    (aligned : ∀ item ∈ call.items, Aligned 0 True item.1 item.2) {more : List Byte}
    (left : s.rest = encodings f call.items ++ more) :
    call.Restores f s s' ↔ call.Counted f s.rest.length ∧ s' = s.behind (encodings f call.items) := by
  have small : s.rest.length < 2 ^ 63 := by
    rw [FileStream.rest, List.length_drop]
    exact Nat.lt_of_le_of_lt (Nat.sub_le _ _) good.small
  unfold Restores
  rw [read_eq]
  unfold deserializeAllFromFile
  rw [foldr_initial, maxSerialSize, addMaxSizes_initial, ← maxSerialSize, ← minSize_eq, ← maxSize_eq]
  -- the buffer has the maximal size, so that three things can go wrong: too few bytes for the minimal one, an encoding
  -- that does not fit, and a seek back by another size than the encoding has
  by_cases enough : call.minSize.toNat ≤ s.rest.length
  · rw [good.readBuffer_enough call.maxSize enough]
    by_cases most : (encodings f call.items).length ≤ call.maxSize.toNat
    · have taken : s.rest.take call.maxSize.toNat =
          encodings f call.items ++ more.take (call.maxSize.toNat - (encodings f call.items).length) := by
        rw [left, List.take_append, List.take_of_length_le most]
      have part : (s.rest.take call.maxSize.toNat).length < 2 ^ 63 := by
        rw [List.length_take]
        omega
      generalize s.rest.take call.maxSize.toNat = buf at taken part ⊢
      obtain ⟨ready, caught, holds⟩ := pushed_buffer buf
      obtain ⟨values, t, run, equal, _⟩ := aligned_fills symmetric aligned ready caught (holds.trans taken)
      have sizes := serialSize_eq aligned equal
      have covers : (encodings f call.items).length ≤ buf.length := by
        rw [taken, List.length_append]
        exact Nat.le_add_right _ _
      have seeks := good.seek_iff part covers (serialSize values) rfl
      simp only [run]
      constructor
      · rintro ⟨decoded, outcome, _, sound, position⟩
        cases outcome
        exact ⟨⟨enough, most, sizes ▸ seeks.1 ⟨sound, position⟩⟩,
          good.eq_behind (FileStream.seek_bytes (s.behind buf) _) sound position⟩
      · rintro ⟨counted, rfl⟩
        obtain ⟨sound, position⟩ := seeks.2 (sizes.symm ▸ counted.exactly)
        refine ⟨values, ?_, equal, good.sound, rfl⟩
        rw [← good.eq_behind (FileStream.seek_bytes (s.behind buf) _) sound position]
    · have cut : s.rest.take call.maxSize.toNat ++ (encodings f call.items).drop call.maxSize.toNat =
          encodings f call.items := by
        rw [left, List.take_append_of_le_length (Nat.le_of_not_le most), List.take_append_drop]
      have missing : (encodings f call.items).drop call.maxSize.toNat ≠ [] := by
        rw [Ne, List.drop_eq_nil_iff]
        exact most
      generalize s.rest.take call.maxSize.toNat = buf at cut ⊢
      obtain ⟨ready, caught, holds⟩ := pushed_buffer buf
      obtain ⟨values, t, run, _⟩ := aligned_runsShort symmetric aligned ready caught missing
        (holds.symm ▸ cut)
      simp only [run]
      constructor
      · rintro ⟨decoded, outcome, _⟩
        cases outcome
      · exact fun counted => absurd counted.1.most most
  · rw [good.readBuffer_short call.maxSize (Nat.not_le.1 enough)]
    constructor
    · rintro ⟨decoded, run, _⟩
      change Except.ok (SerializationEC.bufferSizeLesser, _, s) = _ at run
      cases run
    · exact fun counted => absurd counted.1.least enough

/-- A good stream stays one behind what is read. -/
lemma FileStream.Good.behind {s : FileStream} (good : s.Good) {buf more : List Byte}
    (left : s.rest = buf ++ more) : (s.behind buf).Good ∧ (s.behind buf).rest = more := by
  have total := congrArg List.length left
  have inside := good.inside
  rw [FileStream.rest, List.length_drop, List.length_append] at total
  refine ⟨⟨good.sound, ?_, good.small⟩, ?_⟩
  · show s.position + buf.length ≤ s.bytes.length
    omega
  · show s.bytes.drop (s.position + buf.length) = more
    rw [← List.drop_drop]
    show s.rest.drop buf.length = more
    rw [left, List.drop_left]

/-- Reading back what is left of a file, in calls of any grouping. -/
lemma restored_rest_iff (symmetric : f.Symmetric) {calls : List FileCall} {s : FileStream} (good : s.Good)
    (aligned : ∀ item ∈ calls.flatMap FileCall.items, Aligned 0 True item.1 item.2)
    (left : s.rest = encodings f (calls.flatMap FileCall.items)) :
    Restored f calls s ↔ CountedRight f calls := by
  induction calls generalizing s with
  | nil => exact Iff.rfl
  | cons call calls ih =>
    have all := left
    rw [List.flatMap_cons] at aligned left
    rw [encodings_append] at left
    obtain ⟨next, rest⟩ := good.behind left
    have here : ∀ s', call.Restores f s s' ↔ _ := fun _ => call.restores_iff symmetric good
      (fun item mem => aligned item (List.mem_append_left _ mem)) left
    have later := ih next (fun item mem => aligned item (List.mem_append_right _ mem)) rest
    unfold Restored CountedRight
    rw [← all]
    constructor
    · rintro ⟨s', restores, restored⟩
      obtain ⟨counted, rfl⟩ := (here s').1 restores
      exact ⟨counted, later.1 restored⟩
    · rintro ⟨counted, right⟩
      exact ⟨_, (here _).2 ⟨counted, rfl⟩, later.2 right⟩

/-- Values written in calls of any grouping are restored by calls of any other grouping exactly if the size
    functions are right about the calls that read. -/
theorem restored_iff (symmetric : f.Symmetric) {writes reads : List FileCall}
    (same : reads.flatMap FileCall.items = writes.flatMap FileCall.items)
    (aligned : ∀ item ∈ writes.flatMap FileCall.items, Aligned 0 True item.1 item.2)
    (small : (encodings f (writes.flatMap FileCall.items)).length < 2 ^ 63) :
    Restored f reads { bytes := writes.foldl (FileCall.write f) [] } ↔ CountedRight f reads := by
  have bytes : writes.foldl (FileCall.write f) [] = encodings f (reads.flatMap FileCall.items) := by
    rw [writes_eq symmetric aligned, same]
    rfl
  rw [bytes]
  exact restored_rest_iff symmetric ⟨rfl, Nat.zero_le _, same ▸ small⟩ (same ▸ aligned) rfl

/-- A number and an optional, written in two calls and read in one. -/
theorem restored_two :
    Restored ⟨true, true⟩ [.variadic ⟨word 2, (0x1234 : BitVec 16)⟩ ⟨optional (word 1), some (7 : BitVec 8)⟩ []]
      { bytes := [FileCall.single ⟨word 2, (0x1234 : BitVec 16)⟩,
          .single ⟨optional (word 1), some (7 : BitVec 8)⟩].foldl (FileCall.write ⟨true, true⟩) [] } := by
  refine (restored_iff (.inl rfl) rfl (fun item mem => ?_) (by decide)).2
    ⟨⟨by decide, by decide, by decide⟩, trivial⟩
  rcases List.mem_cons.1 mem with rfl | mem
  · exact .word _
  · obtain rfl := List.mem_singleton.1 mem
    exact .optional Nat.zero_lt_one fun _ _ => .word _

/-- A vector of bytes and a number: the maximum of the pair is 3, and the call takes only three bytes out of
    the file. -/
theorem container_and_number_cut : ¬ ∀ (f : Format), f.Symmetric → ∀ writes reads : List FileCall,
    reads.flatMap FileCall.items = writes.flatMap FileCall.items →
    (∀ item ∈ writes.flatMap FileCall.items, Aligned 0 True item.1 item.2) →
    Restored f reads { bytes := writes.foldl (FileCall.write f) [] } := by
  intro all
  let item : Item := ⟨pair (sequence (word 1)) (word 4), [(1 : BitVec 8)], (7 : BitVec 32)⟩
  obtain ⟨s', ⟨decoded, run, _⟩, _⟩ := all ⟨true, true⟩ (.inl rfl) [.single item] [.single item] rfl
    fun other mem => by
      obtain rfl := List.mem_singleton.1 mem
      exact .pair (.sequence (by decide) (by decide) fun _ _ => .word _) (.word _)
  have code := congrArg (fun outcome => outcome.toOption.map Prod.fst) run
  change _ = some SerializationEC.none at code
  exact absurd code (by decide)

/-! ## Calls whose sizes are right -/

/-- The sums of `serial_size` and of the minima, for values that are sized by their encodings. -/
lemma sums_counted {items : List Item}
    (sized : ∀ item ∈ items, Sized item.1 item.2 (item.1.encode f item.2).length)
    (short : (encodings f items).length < 2 ^ 64) :
    (minSerialSize items).toNat ≤ (encodings f items).length ∧
      (serialSize items).toNat = (encodings f items).length := by
  induction items with
  | nil => exact ⟨Nat.le_refl 0, rfl⟩
  | cons item items ih =>
    rw [encodings_cons, List.length_append] at short ⊢
    obtain ⟨least, exactly⟩ := ih (fun other mem => sized other (List.mem_cons_of_mem _ mem)) (by omega)
    have here := sized item List.mem_cons_self
    have bound := here.least
    constructor
    · show (item.1.minSize + minSerialSize items).toNat ≤ _
      rw [toNat_add_small (by omega)]
      omega
    · show (item.1.serialSize item.2 + serialSize items).toNat = _
      rw [toNat_add_small (by rw [here.counted, exactly]; exact short), here.counted, exactly]

/-- The saturating sum of the maxima bounds the encodings behind `done` bytes. -/
lemma addMaxSizes_most {items : List Item}
    (sized : ∀ item ∈ items, Sized item.1 item.2 (item.1.encode f item.2).length) (done : ℕ)
    {result : UInt64} (before : done ≤ result.toNat)
    (short : done + (encodings f items).length < 2 ^ 64) :
    done + (encodings f items).length ≤ (addMaxSizes result items).toNat := by
  induction items generalizing done result with
  | nil => exact before
  | cons item items ih =>
    rw [encodings_cons, List.length_append] at short ⊢
    have most := (sized item List.mem_cons_self).most
    have bound := result.toNat_lt
    have room : (sizeMax - result).toNat = 2 ^ 64 - 1 - result.toNat := by
      rw [UInt64.toNat_sub_of_le _ _ (UInt64.le_iff_toNat_le.2 (by rw [sizeMax_toNat]; omega)), sizeMax_toNat]
    unfold addMaxSizes
    split
    · next fits =>
      rw [UInt64.lt_iff_toNat_lt, room] at fits
      have next : (result + item.1.maxSize).toNat = result.toNat + item.1.maxSize.toNat :=
        toNat_add_small (by omega)
      have later := ih (fun other mem => sized other (List.mem_cons_of_mem _ mem))
        (done + (item.1.encode f item.2).length) (by rw [next]; omega) (by omega)
      omega
    · rw [sizeMax_toNat]
      omega

/-- The encoding of a measured value has its size. -/
lemma Shape.Measured.encode_sized {o : SerialType} {shape : Shape o} {x : o.Val} (measured : shape.Measured x)
    (compiles : shape.Compiles) (short : (o.encode f x).length < 2 ^ 64) : Sized o x (o.encode f x).length := by
  obtain ⟨bytes, appends, length⟩ := shape.appends (f := f) x
  have encoded : o.encode f x = bytes := congrArg Prod.snd (appends [])
  have same : (o.encode f x).length = shape.counted x := by
    rw [measured.1] at length
    rw [encoded]
    omega
  rw [same] at short ⊢
  exact Shape.sized compiles short measured.2

/-- The size functions are right about values whose encoding does not exceed what is counted. -/
theorem countedRight_of_measured {calls : List FileCall}
    (measured : ∀ item ∈ calls.flatMap FileCall.items, ∃ shape : Shape item.1,
      shape.Compiles ∧ shape.Measured item.2)
    (small : (encodings f (calls.flatMap FileCall.items)).length < 2 ^ 64) : CountedRight f calls := by
  induction calls with
  | nil => trivial
  | cons call calls ih =>
    have total := small
    rw [List.flatMap_cons] at measured total
    rw [encodings_append, List.length_append] at total
    have sized : ∀ item ∈ call.items, Sized item.1 item.2 (item.1.encode f item.2).length := by
      intro item mem
      obtain ⟨shape, compiles, here⟩ := measured item (List.mem_append_left _ mem)
      have part : (item.1.encode f item.2).length ≤ (encodings f call.items).length :=
        List.Sublist.length_le (List.sublist_flatten_of_mem (List.mem_map.2 ⟨item, mem, rfl⟩))
      exact here.encode_sized compiles (by omega)
    obtain ⟨least, exactly⟩ := sums_counted sized (by omega)
    have most := addMaxSizes_most sized 0 (Nat.zero_le (0 : UInt64).toNat) (by omega)
    refine ⟨⟨?_, ?_, exactly⟩, ih (fun item mem => measured item (List.mem_append_right _ mem)) (by omega)⟩
    · rw [call.minSize_eq, List.flatMap_cons, encodings_append, List.length_append]
      omega
    · rw [call.maxSize_eq]
      show _ ≤ (addMaxSizes 0 call.items).toNat
      omega

end calls
end OsterLib.Serialization
