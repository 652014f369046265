import OsterLib.Serialization.Work

/-!
# A decode that counts

`Shape.work` follows a decode beside it. Here every `Deserialize` is written once more with its counts in the result: a
loop over elements adds one at each of them, and a range what it finds announced. With the counts erased this is
`deserialize`, and the counts are `Shape.work` (`counting_eq`), so that what is said of the work is said of the decode.
-/

namespace OsterLib.Serialization
open StreamSerializer SerialType

/-- What a decode returns, with its work -/
abbrev WithWork (α V : Type) := Except Fault (Outcome α V) × Work

namespace WithWork
variable {α V W : Type}

/-- What needs no loop -/
def free (decode : Except Fault (Outcome α V)) : WithWork α V := (decode, {})

/-- More work is done for the same result. -/
def pay (cost : Work) (counted : WithWork α V) : WithWork α V := (counted.1, cost.plus counted.2)

/-- A part of a value is decoded. -/
def map (whole : V → W) (counted : WithWork α V) : WithWork α W :=
  match counted with
  | (.ok (code, x, s), work) => (.ok (code, whole x, s), work)
  | (.error fault, work) => (.error fault, work)

/-- A decode goes on where it succeeds, and otherwise returns what it has. -/
def andThen (counted : WithWork α V)
    (failed : SerializationEC → V → StreamSerializer α → Except Fault (Outcome α W))
    (next : V → StreamSerializer α → WithWork α W) : WithWork α W :=
  match counted with
  | (.ok (.none, x, s), work) => ((next x s).1, work.plus (next x s).2)
  | (.ok (code, x, s), work) => (failed code x s, work)
  | (.error fault, work) => (.error fault, work)

/-- `deserializeNested` -/
def nested (body : V → StreamSerializer α → WithWork α V) (x : V) (s : StreamSerializer α) : WithWork α V :=
  (deserializeNested (fun x s => (body x s).1) x s, (body x s.enter).2)

section ranges
variable {elem : SerialType} (inner : elem.Val → StreamSerializer α → WithWork α elem.Val)

/-- `deserializeMaybe` -/
def maybe (cleared : Option elem.Val → Option elem.Val) (f : Format) (load : α → Byte) (x : Option elem.Val)
    (s : StreamSerializer α) : WithWork α (Option elem.Val) :=
  match s.tryAdvance 1 with
  | some s =>
    match x with
    | some value => (inner value s).map some
    | none => free (.ok (.none, none, s))
  | none =>
    match s.deserializeNumeric 1 (readFlag f) load false with
    | (.none, false, s) => free (.ok (.none, cleared x, s))
    | (.none, true, s) => (inner elem.init s).map some
    | (code, _, s) => free (.ok (code, x, s))

/-- `deserializeElements` -/
def elements (insert : List elem.Val → elem.Val → List elem.Val) :
    Nat → List elem.Val → StreamSerializer α → WithWork α (List elem.Val)
  | 0, x, s => free (.ok (.none, x, s))
  | count + 1, x, s =>
    ((inner elem.init s).pay { iterations := 1 }).andThen (fun code _ s => .ok (code, x, s)) fun item s =>
      elements insert count (insert x item) s

/-- `deserializeRange` -/
def range (insert : List elem.Val → elem.Val → List elem.Val) (f : Format) (load : α → Byte) (x : List elem.Val)
    (s : StreamSerializer α) : WithWork α (List elem.Val) :=
  match deserializeRangeSize elem f load x s with
  | .error fault => free (.error fault)
  | .ok (.none, size, x, s) =>
    (elements inner insert (size - UInt64.ofNat x.length).toNat x s).pay { wrapped := size < UInt64.ofNat x.length }
  | .ok (code, _, x, s) => free (.ok (code, x, s))

/-- `deserializeFront` -/
def front (old : UInt64) : Nat → List elem.Val → StreamSerializer α → WithWork α (List elem.Val)
  | 0, x, s => free (.ok (.none, x, s))
  | count + 1, x, s =>
    ((inner elem.init s).pay { iterations := 1 }).andThen (fun code _ s => .ok (code, x, s)) fun item s =>
      match s.updateValueAt (old + 1) 1 with
      | .ok s => front old count (item :: x) s
      | .error fault => free (.error fault)

/-- `deserializeForwardList` -/
def forwardList (f : Format) (load : α → Byte) (x : List elem.Val) (s : StreamSerializer α) :
    WithWork α (List elem.Val) :=
  match deserializeRangeSize elem f load x s with
  | .error fault => free (.error fault)
  | .ok (.none, size, x, s) =>
    match Work.frontOld x s with
    | .error fault => free (.error fault)
    | .ok (old, s) =>
      ((front inner old (size - old).toNat x s).pay { wrapped := size < old }).andThen
        (fun code x s => .ok (code, x, s)) fun x s => free (.ok (.none, x.reverse, s))
  | .ok (code, _, x, s) => free (.ok (code, x, s))

/-- `deserializeItems` -/
def items (remain : UInt64) {n : Nat} :
    Nat → Nat → (Fin n → elem.Val) → StreamSerializer α → WithWork α (Fin n → elem.Val)
  | 0, _, x, s => free (.ok (.none, x, s))
  | count + 1, i, x, s =>
    if lt : i < n then
      (inner (x ⟨i, lt⟩) s).andThen
        (fun code item s => do
          let s ← s.updateValueAt (remain - 1) 0
          return (code, Function.update x ⟨i, lt⟩ item, s))
        fun item s =>
          match s.updateValueAt (remain - 1) 0 with
          | .ok s => items remain count (i + 1) (Function.update x ⟨i, lt⟩ item) s
          | .error fault => free (.error fault)
    else free (.error .outOfBounds)

/-- `deserializeArray` -/
def array {n : Nat} (x : Fin n → elem.Val) (s : StreamSerializer α) : WithWork α (Fin n → elem.Val) :=
  match Work.arrayRemain n s with
  | .error fault => free (.error fault)
  | .ok (remain, s) =>
    let i := (UInt64.ofNat n - remain).toNat
    items inner remain (remain.toNat - i) i x s

end ranges

/-- `deserializeVariant` -/
def variant {n : Nat} (alternatives : Fin (n + 1) → SerialType)
    (inner : ∀ i, (alternatives i).Val → StreamSerializer α → WithWork α (alternatives i).Val) (f : Format)
    (load : α → Byte) (x : Σ i, (alternatives i).Val) (s : StreamSerializer α) :
    WithWork α (Σ i, (alternatives i).Val) :=
  match s.tryAdvance 8 with
  | some s => (inner x.1 x.2 s).map (⟨x.1, ·⟩)
  | none =>
    match deserializeSize f load (UInt64.ofNat (2 ^ 64 - 1)) s with
    | (.none, index, s) =>
      match emplace alternatives index with
      | some x => (inner x.1 x.2 s).map (⟨x.1, ·⟩)
      | none => free (.ok (.unmatchedType, x, s))
    | (code, _, s) => free (.ok (code, x, s))

/-- `deserializePair` -/
def pair {a b : SerialType} (first : a.Val → StreamSerializer α → WithWork α a.Val)
    (second : b.Val → StreamSerializer α → WithWork α b.Val) (x : a.Val × b.Val) (s : StreamSerializer α) :
    WithWork α (a.Val × b.Val) :=
  (first x.1 s).andThen (fun code y s => .ok (code, (y, x.2), s)) fun y s => (second x.2 s).map (y, ·)

end WithWork

/-- `deserialize`, with its counts -/
def Shape.counting {o : SerialType} (shape : Shape o) (f : Format) {α : Type} (load : α → Byte) (x : o.Val)
    (s : StreamSerializer α) : WithWork α o.Val :=
  match shape with
  | .word n => .free ((SerialType.word n).deserialize f load x s)
  | .bool => .free (SerialType.bool.deserialize f load x s)
  | .duration n toNanoseconds ofNanoseconds =>
    .free ((SerialType.duration n toNanoseconds ofNanoseconds).deserialize f load x s)
  | .empty => .free (SerialType.empty.deserialize f load x s)
  | .pair first second =>
    .nested (WithWork.pair (fun x s => first.counting f load x s) fun x s => second.counting f load x s) x s
  | .optional inner => .nested (WithWork.maybe (fun x s => inner.counting f load x s) id f load) x s
  | .pointer inner => .nested (WithWork.maybe (fun x s => inner.counting f load x s) (fun _ => none) f load) x s
  | @Shape.variant _ alternatives inner =>
    .nested (WithWork.variant alternatives (fun i x s => (inner i).counting f load x s) f load) x s
  | .sequence inner =>
    .nested (WithWork.range (fun x s => inner.counting f load x s) (fun x item => x ++ [item]) f load) x s
  | .associative keys inner => .nested (WithWork.range (fun x s => inner.counting f load x s) keys.insert f load) x s
  | .forwardList inner => .nested (WithWork.forwardList (fun x s => inner.counting f load x s) f load) x s
  | .array _ inner => .nested (WithWork.array fun x s => inner.counting f load x s) x s

/-! ## The counts erased -/

namespace WithWork
variable {α V W : Type}

/-- The decode goes on as the code does, and the work is added. -/
lemma andThen_eq (counted : WithWork α V)
    (failed : SerializationEC → V → StreamSerializer α → Except Fault (Outcome α W))
    (next : V → StreamSerializer α → WithWork α W) :
    counted.andThen failed next =
      (counted.1 >>= fun (code, x, s) => if code = .none then (next x s).1 else failed code x s,
        counted.2.andThen counted.1 fun x s => (next x s).2) := by
  obtain ⟨_ | ⟨code, x, s⟩, work⟩ := counted
  · rfl
  · cases code with
    | _ => rfl

/-- A part is decoded, and its work is that of the whole. -/
lemma map_eq (counted : WithWork α V) (whole : V → W) :
    counted.map whole = (counted.1 >>= fun (code, x, s) => pure (code, whole x, s), counted.2) := by
  obtain ⟨_ | ⟨code, x, s⟩, work⟩ := counted
  · rfl
  · rfl

/-- The body is called one level higher. -/
lemma nested_eq {body : V → StreamSerializer α → WithWork α V}
    {decode : V → StreamSerializer α → Except Fault (Outcome α V)} {work : V → StreamSerializer α → Work}
    (same : ∀ x s, body x s = (decode x s, work x s)) (x : V) (s : StreamSerializer α) :
    nested body x s = (deserializeNested decode x s, work x s.enter) := by
  obtain rfl : body = fun x s => (decode x s, work x s) := funext fun x => funext (same x)
  rfl

section ranges
variable {elem : SerialType} {f : Format} {load : α → Byte} {work : elem.Val → StreamSerializer α → Work}

/-- `deserializeMaybe` and its work -/
lemma maybe_eq (cleared : Option elem.Val → Option elem.Val) (x : Option elem.Val) (s : StreamSerializer α) :
    maybe (fun x s => (elem.deserialize f load x s, work x s)) cleared f load x s =
      (deserializeMaybe elem cleared f load x s, Work.maybe work f load x s) := by
  unfold maybe deserializeMaybe Work.maybe
  cases s.tryAdvance 1 with
  | some s =>
    cases x with
    | some value => exact map_eq _ _
    | none => rfl
  | none =>
    obtain ⟨code, flag, s⟩ := s.deserializeNumeric 1 (readFlag f) load false
    cases code with
    | none =>
      cases flag with
      | true => exact map_eq _ _
      | false => rfl
    | _ => rfl

/-- `deserializeElements` and its work -/
lemma elements_eq (insert : List elem.Val → elem.Val → List elem.Val) (count : Nat) (x : List elem.Val)
    (s : StreamSerializer α) :
    elements (fun x s => (elem.deserialize f load x s, work x s)) insert count x s =
      (deserializeElements elem insert f load count x s, Work.elements work f load count s) := by
  induction count generalizing x s with
  | zero => rfl
  | succ count ih =>
    unfold elements
    rw [andThen_eq]
    simp only [ih]
    rfl

/-- `deserializeRange` and its work -/
lemma range_eq (insert : List elem.Val → elem.Val → List elem.Val) (x : List elem.Val) (s : StreamSerializer α) :
    range (fun x s => (elem.deserialize f load x s, work x s)) insert f load x s =
      (deserializeRange elem insert f load x s, Work.range work f load x s) := by
  unfold range deserializeRange Work.range
  cases deserializeRangeSize elem f load x s with
  | error fault => rfl
  | ok found =>
    obtain ⟨code, size, x, s⟩ := found
    cases code with
    | none =>
      simp only [elements_eq, pay]
      rfl
    | _ => rfl

/-- `deserializeFront` and its work -/
lemma front_eq (old : UInt64) (count : Nat) (x : List elem.Val) (s : StreamSerializer α) :
    front (fun x s => (elem.deserialize f load x s, work x s)) old count x s =
      (deserializeFront elem old f load count x s, Work.front work old f load count s) := by
  induction count generalizing x s with
  | zero => rfl
  | succ count ih =>
    unfold front deserializeFront Work.front
    rw [andThen_eq]
    simp only [ih, pay]
    cases elem.deserialize f load elem.init s with
    | error fault => rfl
    | ok outcome =>
      obtain ⟨code, item, s⟩ := outcome
      cases code with
      | none =>
        dsimp only [bind, Except.bind, Work.andThen]
        cases s.updateValueAt (old + 1) 1 with
        | error fault => rfl
        | ok s => rfl
      | _ => rfl

/-- The elements are turned round where all of them were decoded, which is no work. -/
lemma reverse_eq (counted : WithWork α (List elem.Val)) :
    counted.andThen (fun code x s => .ok (code, x, s)) (fun x s => free (.ok (.none, x.reverse, s))) =
      (counted.1 >>= fun (code, x, s) => pure (code, if code = .none then x.reverse else x, s), counted.2) := by
  obtain ⟨_ | ⟨code, x, s⟩, work⟩ := counted
  · rfl
  · cases code with
    | none =>
      have same : work.plus {} = work := by simp only [Work.plus, Nat.add_zero, Bool.or_false]
      exact congrArg (Prod.mk _) same
    | _ => rfl

/-- `deserializeForwardList` and its work -/
lemma forwardList_eq (x : List elem.Val) (s : StreamSerializer α) :
    forwardList (fun x s => (elem.deserialize f load x s, work x s)) f load x s =
      (deserializeForwardList elem f load x s, Work.forwardList work f load x s) := by
  unfold forwardList deserializeForwardList Work.forwardList
  cases deserializeRangeSize elem f load x s with
  | error fault => rfl
  | ok found =>
    obtain ⟨code, size, x, s⟩ := found
    cases code with
    | none =>
      dsimp only [bind, Except.bind]
      unfold deserializeFrontAll Work.frontOld
      by_cases first : s.registeredSize = 1
      case pos =>
        simp only [if_pos first, front_eq, reverse_eq, pay]
        rfl
      case neg =>
        simp only [if_neg first, front_eq, reverse_eq, pay]
        cases s.getValueAt 1 with
        | error fault => rfl
        | ok old => rfl
    | _ => rfl

/-- `deserializeItems` and its work -/
lemma items_eq (remain : UInt64) {n : Nat} (count i : Nat) (x : Fin n → elem.Val) (s : StreamSerializer α) :
    items (fun x s => (elem.deserialize f load x s, work x s)) remain count i x s =
      (deserializeItems elem remain f load count i x s, Work.items work remain f load count i x s) := by
  induction count generalizing i x s with
  | zero => rfl
  | succ count ih =>
    unfold items deserializeItems Work.items
    split
    case isFalse => rfl
    case isTrue lt =>
      rw [andThen_eq]
      simp only [ih]
      cases elem.deserialize f load (x ⟨i, lt⟩) s with
      | error fault => rfl
      | ok outcome =>
        obtain ⟨code, item, s⟩ := outcome
        cases code with
        | none =>
          dsimp only [bind, Except.bind, Work.andThen]
          cases s.updateValueAt (remain - 1) 0 with
          | error fault => rfl
          | ok s => rfl
        | _ =>
          dsimp only [bind, Except.bind, Work.andThen]
          cases s.updateValueAt (remain - 1) 0 with
          | error fault => rfl
          | ok s => rfl

/-- `deserializeArray` and its work -/
lemma array_eq {n : Nat} (x : Fin n → elem.Val) (s : StreamSerializer α) :
    array (fun x s => (elem.deserialize f load x s, work x s)) x s =
      (deserializeArray elem n f load x s, Work.array work f load x s) := by
  unfold array deserializeArray Work.array Work.arrayRemain
  simp only [items_eq]
  by_cases known : 0 < s.registeredSize
  case neg =>
    simp only [if_neg known]
    rfl
  case pos =>
    simp only [if_pos known]
    cases s.getValueAt 0 with
    | error fault => rfl
    | ok remain => rfl

end ranges

/-- `deserializeVariant` and its work -/
lemma variant_eq {n : Nat} {alternatives : Fin (n + 1) → SerialType} {f : Format} {load : α → Byte}
    {work : ∀ i, (alternatives i).Val → StreamSerializer α → Work} (x : Σ i, (alternatives i).Val)
    (s : StreamSerializer α) :
    variant alternatives (fun i x s => ((alternatives i).deserialize f load x s, work i x s)) f load x s =
      (deserializeVariant alternatives f load x s, Work.variant alternatives work f load x s) := by
  unfold variant deserializeVariant Work.variant
  cases s.tryAdvance 8 with
  | some s => exact map_eq _ _
  | none =>
    obtain ⟨code, index, s⟩ := deserializeSize f load (UInt64.ofNat (2 ^ 64 - 1)) s
    cases code with
    | none =>
      dsimp only
      cases emplace alternatives index with
      | some x => exact map_eq _ _
      | none => rfl
    | _ => rfl

/-- `deserializePair` and the work of both parts -/
lemma pair_eq {a b : SerialType} {f : Format} {load : α → Byte} {work : a.Val → StreamSerializer α → Work}
    {work' : b.Val → StreamSerializer α → Work} (x : a.Val × b.Val) (s : StreamSerializer α) :
    pair (fun x s => (a.deserialize f load x s, work x s)) (fun x s => (b.deserialize f load x s, work' x s)) x s =
      (deserializePair a b f load x s,
        (work x.1 s).andThen (a.deserialize f load x.1 s) fun _ s => work' x.2 s) := by
  unfold pair deserializePair
  rw [andThen_eq]
  simp only [map_eq]
  rfl

end WithWork

/-- A decode that counts is `deserialize` with its work: the counts change nothing, and nothing else is counted. -/
theorem Shape.counting_eq {o : SerialType} (shape : Shape o) (f : Format) {α : Type} (load : α → Byte) (x : o.Val)
    (s : StreamSerializer α) : shape.counting f load x s = (o.deserialize f load x s, shape.work f load x s) := by
  induction shape generalizing s with
  | word n => rfl
  | bool => rfl
  | duration n toNanoseconds ofNanoseconds => rfl
  | empty => rfl
  | pair first second ih ih' =>
    unfold counting
    simp only [ih, ih']
    exact WithWork.nested_eq WithWork.pair_eq x s
  | optional inner ih =>
    unfold counting
    simp only [ih]
    exact WithWork.nested_eq (WithWork.maybe_eq id) x s
  | pointer inner ih =>
    unfold counting
    simp only [ih]
    exact WithWork.nested_eq (WithWork.maybe_eq _) x s
  | variant inner ih =>
    unfold counting
    simp only [ih]
    exact WithWork.nested_eq WithWork.variant_eq x s
  | sequence inner ih =>
    unfold counting
    simp only [ih]
    exact WithWork.nested_eq (WithWork.range_eq _) x s
  | associative keys inner ih =>
    unfold counting
    simp only [ih]
    exact WithWork.nested_eq (WithWork.range_eq _) x s
  | forwardList inner ih =>
    unfold counting
    simp only [ih]
    exact WithWork.nested_eq WithWork.forwardList_eq x s
  | array small inner ih =>
    unfold counting
    simp only [ih]
    exact WithWork.nested_eq WithWork.array_eq x s

/-- Two elements of an announced three are there, so the loop is entered three times. -/
example : ((Shape.sequence (.word 1)).counting ⟨false, true⟩ id []
    (pushView {} [0, 0, 0, 0, 0, 0, 0, 3, 7, 8])).2 = { iterations := 3 } := by
  decide +kernel

end OsterLib.Serialization
