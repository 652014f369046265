import Mathlib.Algebra.BigOperators.Fin
import OsterLib.Serialization.RoundTrip

/-!
# The work of a decode

A range takes the number of its elements from the stream, and loops over as many as its destination does not hold
yet. `Shape.work` follows a decode and counts the iterations of these loops. Every element that takes a byte is paid
for by that byte, so that the bytes bound the iterations and the elements (`work_bounded`). An element of an empty
class takes no byte, and where a decode is repeated neither may a `std::array`.
-/

namespace OsterLib.Serialization
open StreamSerializer SerialType

/-- Iterations of the loops over the elements of ranges, and whether one of them has fewer elements announced than
    its destination holds, so that their difference wraps. -/
structure Work where
  iterations : Nat := 0
  wrapped : Bool := false
  deriving DecidableEq, Repr

namespace Work

/-- The work of both parts -/
def plus (done more : Work) : Work :=
  { iterations := done.iterations + more.iterations, wrapped := done.wrapped || more.wrapped }

/-- No work adds nothing. -/
lemma nothing_plus (done : Work) : plus {} done = done := by
  unfold plus
  rw [Nat.zero_add, Bool.false_or]

/-- What is done behind a decode that succeeds is added. -/
def andThen {α V : Type} (done : Work) (decode : Except Fault (Outcome α V))
    (next : V → StreamSerializer α → Work) : Work :=
  match decode with
  | .ok (.none, x, s) => done.plus (next x s)
  | _ => done

/-- Nothing is done behind a decode that fails. -/
lemma andThen_failed {α V : Type} {done : Work} {code : SerializationEC} {x : V} {s : StreamSerializer α}
    {next : V → StreamSerializer α → Work} (failed : code ≠ .none) : done.andThen (.ok (code, x, s)) next = done := by
  cases code with
  | none => exact absurd rfl failed
  | _ => rfl

section ranges
variable {elem : SerialType} {α : Type} (inner : elem.Val → StreamSerializer α → Work)

/-- `deserializeMaybe` -/
def maybe (inner : elem.Val → StreamSerializer α → Work) (f : Format) (load : α → Byte) (x : Option elem.Val)
    (s : StreamSerializer α) : Work :=
  match s.tryAdvance 1 with
  | some s =>
    match x with
    | some value => inner value s
    | none => {}
  | none =>
    match s.deserializeNumeric 1 (readFlag f) load false with
    | (.none, true, s) => inner elem.init s
    | _ => {}

/-- `deserializeVariant` -/
def variant {n : Nat} (alternatives : Fin (n + 1) → SerialType)
    (inner : ∀ i, (alternatives i).Val → StreamSerializer α → Work) (f : Format) (load : α → Byte)
    (x : Σ i, (alternatives i).Val) (s : StreamSerializer α) : Work :=
  match s.tryAdvance 8 with
  | some s => inner x.1 x.2 s
  | none =>
    match deserializeSize f load (UInt64.ofNat (2 ^ 64 - 1)) s with
    | (.none, index, s) =>
      match emplace alternatives index with
      | some x => inner x.1 x.2 s
      | none => {}
    | _ => {}

/-- `deserializeElements` -/
def elements (f : Format) (load : α → Byte) : Nat → StreamSerializer α → Work
  | 0, _ => {}
  | count + 1, s =>
    (plus { iterations := 1 } (inner elem.init s)).andThen (elem.deserialize f load elem.init s) fun _ s =>
      elements f load count s

/-- `deserializeRange` -/
def range (f : Format) (load : α → Byte) (x : List elem.Val) (s : StreamSerializer α) : Work :=
  match deserializeRangeSize elem f load x s with
  | .ok (.none, size, x, s) =>
    plus { wrapped := size < UInt64.ofNat x.length } (elements inner f load (size - UInt64.ofNat x.length).toNat s)
  | _ => {}

/-- `deserializeFront` -/
def front (old : UInt64) (f : Format) (load : α → Byte) : Nat → StreamSerializer α → Work
  | 0, _ => {}
  | count + 1, s =>
    (plus { iterations := 1 } (inner elem.init s)).andThen (elem.deserialize f load elem.init s) fun _ s =>
      match s.updateValueAt (old + 1) 1 with
      | .ok s => front old f load count s
      | .error _ => {}

/-- The number of elements that a forward list has from an earlier attempt, as `deserializeFrontAll` finds it. -/
def frontOld (x : List elem.Val) (s : StreamSerializer α) : Except Fault (UInt64 × StreamSerializer α) :=
  if s.registeredSize = 1 then .ok (0, s.registerValue (UInt64.ofNat x.length))
  else
    match s.getValueAt 1 with
    | .ok old => .ok (old, s)
    | .error fault => .error fault

/-- `deserializeForwardList` -/
def forwardList (f : Format) (load : α → Byte) (x : List elem.Val) (s : StreamSerializer α) : Work :=
  match deserializeRangeSize elem f load x s with
  | .ok (.none, size, x, s) =>
    match frontOld x s with
    | .ok (old, s) => plus { wrapped := size < old } (front inner old f load (size - old).toNat s)
    | .error _ => {}
  | _ => {}

/-- `deserializeItems` -/
def items (remain : UInt64) {n : Nat} (f : Format) (load : α → Byte) :
    Nat → Nat → (Fin n → elem.Val) → StreamSerializer α → Work
  | 0, _, _, _ => {}
  | count + 1, i, x, s =>
    if lt : i < n then
      (inner (x ⟨i, lt⟩) s).andThen (elem.deserialize f load (x ⟨i, lt⟩) s) fun item s =>
        match s.updateValueAt (remain - 1) 0 with
        | .ok s => items remain f load count (i + 1) (Function.update x ⟨i, lt⟩ item) s
        | .error _ => {}
    else {}

/-- What remains of an array, as `deserializeArray` finds it. -/
def arrayRemain (n : Nat) (s : StreamSerializer α) : Except Fault (UInt64 × StreamSerializer α) :=
  if 0 < s.registeredSize then
    match s.getValueAt 0 with
    | .ok remain => .ok (remain, s)
    | .error fault => .error fault
  else .ok (UInt64.ofNat n, s.registerValue (UInt64.ofNat n))

/-- `deserializeArray` -/
def array {n : Nat} (f : Format) (load : α → Byte) (x : Fin n → elem.Val) (s : StreamSerializer α) : Work :=
  match arrayRemain n s with
  | .ok (remain, s) =>
    let i := (UInt64.ofNat n - remain).toNat
    items inner remain f load (remain.toNat - i) i x s
  | .error _ => {}

end ranges
end Work

namespace Shape
variable {o : SerialType}

/-- The work of `deserialize`. -/
def work {o : SerialType} (shape : Shape o) (f : Format) {α : Type} (load : α → Byte) (x : o.Val)
    (s : StreamSerializer α) : Work :=
  match shape with
  | word _ | bool | duration .. | empty => {}
  | @pair a b first second =>
    (first.work f load x.1 s.enter).andThen (a.deserialize f load x.1 s.enter) fun _ s => second.work f load x.2 s
  | optional inner | pointer inner => Work.maybe (fun x s => inner.work f load x s) f load x s.enter
  | @variant _ alternatives inner =>
    Work.variant alternatives (fun i x s => (inner i).work f load x s) f load x s.enter
  | sequence inner | associative _ inner => Work.range (fun x s => inner.work f load x s) f load x s.enter
  | forwardList inner => Work.forwardList (fun x s => inner.work f load x s) f load x s.enter
  | array _ inner => Work.array (fun x s => inner.work f load x s) f load x s.enter

/-- The elements of a list, and those in them. -/
def listElements {V : Type} (size : V → Nat) (x : List V) : Nat := (x.map fun item => size item + 1).sum

/-- The number of elements of all dynamically sized containers in a value. -/
def elements {o : SerialType} (shape : Shape o) (x : o.Val) : Nat :=
  match shape with
  | word _ | bool | duration .. | empty => 0
  | pair first second => first.elements x.1 + second.elements x.2
  | optional inner | pointer inner => Option.elim x 0 inner.elements
  | variant inner => (inner x.1).elements x.2
  | sequence inner | associative _ inner | forwardList inner => listElements inner.elements x
  | array _ inner => ∑ i, inner.elements (x i)

/-- A value takes a byte of the stream, or one that is to be passed over. A `std::array` does where nothing is
    registered for it. -/
def pays (direct : Bool) {o : SerialType} : Shape o → Bool
  | word n => 0 < n
  | bool => true
  | duration .. => true
  | empty => false
  | pair first second => first.pays direct || second.pays direct
  | optional _ => true
  | pointer _ => true
  | variant _ => true
  | sequence _ => true
  | associative _ _ => true
  | forwardList _ => true
  | @array _ n _ inner => direct && (0 < n : Bool) && inner.pays direct

/-- The elements of all ranges take bytes. -/
def Paid (direct : Bool) {o : SerialType} : Shape o → Prop
  | word _ | bool | duration .. | empty => True
  | pair first second => first.Paid direct ∧ second.Paid direct
  | optional inner | pointer inner => inner.Paid direct
  | variant inner => ∀ i, (inner i).Paid direct
  | sequence inner | associative _ inner | forwardList inner => inner.pays direct = true ∧ inner.Paid direct
  | array _ inner => inner.Paid direct

end Shape

/-- Every supported type has a shape. -/
lemma SerialType.Supported.shape {faithful : Prop} {o : SerialType} (supported : Supported faithful o) :
    Nonempty (Shape o) := by
  induction supported with
  | word size => exact ⟨.word _⟩
  | bool => exact ⟨.bool⟩
  | chrono size nanoseconds => exact ⟨.duration _ _ _⟩
  | empty => exact ⟨.empty⟩
  | pair _ _ first second =>
    obtain ⟨first⟩ := first
    obtain ⟨second⟩ := second
    exact ⟨.pair first second⟩
  | optional _ ih => exact ih.elim fun inner => ⟨.optional inner⟩
  | pointer _ ih => exact ih.elim fun inner => ⟨.pointer inner⟩
  | variant few _ ih => exact ⟨.variant fun i => (ih i).some⟩
  | sequence _ ih => exact ih.elim fun inner => ⟨.sequence inner⟩
  | associative _ ih => exact ih.elim fun inner => ⟨.associative _ inner⟩
  | forwardList _ ih => exact ih.elim fun inner => ⟨.forwardList inner⟩
  | array small data stored _ ih => exact ih.elim fun inner => ⟨.array small inner⟩

/-! ## What a decode can spend -/

namespace StreamSerializer
variable {α V : Type} {s t u : StreamSerializer α} {total cost cost' : Nat}

/-- The bytes that a decode can read or pass over. -/
def budget (s : StreamSerializer α) : Nat := s.mbv.unread.length + s.lag

/-- Nothing is to be passed over, and nothing is registered above the level. -/
structure Direct (s : StreamSerializer α) : Prop where
  lag : s.lag = 0
  above : ∀ l, s.level < l → s.registered l = []

/-- Of `total` bytes some are consumed, which is a bound of what is to be passed over, and the others are unread. -/
def Within (total : Nat) (s : StreamSerializer α) : Prop :=
  ∃ consumed, s.owed ≤ consumed ∧ s.lag ≤ consumed ∧ consumed + s.mbv.unread.length ≤ total

/-- What every decode keeps, however it ends. -/
structure Moved (s t : StreamSerializer α) : Prop where
  level : t.level = s.level
  valid : t.mbv.Valid
  within : ∀ total, Within total s → Within total t

/-- Bytes are spent. -/
structure Spent (cost : Nat) (s t : StreamSerializer α) : Prop extends Moved s t where
  budget : t.budget + cost ≤ s.budget
  direct : s.Direct → t.Direct

/-- What two decodes keep, both keep. -/
lemma Moved.trans (first : Moved s t) (second : Moved t u) : Moved s u where
  level := second.level.trans first.level
  valid := second.valid
  within total inside := second.within total (first.within total inside)

/-- Two decodes spend what both spend. -/
lemma Spent.trans (first : Spent cost s t) (second : Spent cost' t u) : Spent (cost + cost') s u where
  toMoved := first.toMoved.trans second.toMoved
  budget := by
    have := first.budget
    have := second.budget
    omega
  direct direct := second.direct (first.direct direct)

/-- Nothing is done. -/
lemma Moved.refl (valid : s.mbv.Valid) : Moved s s := ⟨rfl, valid, fun _ inside => inside⟩

/-- Nothing is spent. -/
lemma Spent.refl (valid : s.mbv.Valid) : Spent 0 s s :=
  ⟨Moved.refl valid, Nat.le_refl _, id⟩

/-- What is registered at the level costs nothing. -/
lemma spent_registered (valid : s.mbv.Valid) (values : List UInt64) :
    Spent 0 s { s with registered := Function.update s.registered s.level values } where
  level := rfl
  valid := valid
  within _ inside := inside
  budget := Nat.le_refl _
  direct direct := ⟨direct.lag, fun l above => by
    dsimp only
    rw [Function.update_of_ne (Nat.ne_of_gt above)]
    exact direct.above l above⟩

/-- Updating a registered value spends nothing. -/
lemma spent_updateValueAt (valid : s.mbv.Valid) {value : UInt64} {index : Nat}
    (updated : s.updateValueAt value index = .ok t) : Spent 0 s t := by
  unfold updateValueAt at updated
  split at updated
  · cases updated
    exact spent_registered valid _
  · cases updated

/-- Bytes are passed over, which spends them. -/
lemma spent_tryAdvance (valid : s.mbv.Valid) {size : UInt64} (advanced : s.tryAdvance size = some t) :
    Spent size.toNat s t := by
  have enough : size.toNat ≤ s.lag := by
    apply Nat.le_of_not_lt
    intro few
    rw [tryAdvance_none size few] at advanced
    cases advanced
  obtain ⟨t', advanced', lag, level, registered, mbv⟩ := tryAdvance_some size enough
  rw [advanced] at advanced'
  cases advanced'
  have owed : t.owed = s.owed := by
    unfold tryAdvance at advanced
    split at advanced
    · cases advanced
      rfl
    · cases advanced
  refine ⟨⟨level, mbv ▸ valid, ?_⟩, ?_, ?_⟩
  · rintro total ⟨consumed, owes, lags, all⟩
    refine ⟨consumed, owed ▸ owes, ?_, mbv ▸ all⟩
    omega
  · unfold budget
    rw [mbv, lag]
    omega
  · intro direct
    refine ⟨?_, ?_⟩
    · rw [lag, direct.lag, Nat.zero_sub]
    · rw [level, registered]
      exact direct.above

/-- At most the bytes that are consumed are owed. -/
lemma owed_consume (s : StreamSerializer α) (n : Nat) : (s.end_ + UInt64.ofNat n - s.begin).toNat ≤ s.owed + n := by
  have moved : s.end_ + UInt64.ofNat n - s.begin = s.end_ - s.begin + UInt64.ofNat n := by grind
  rw [moved, UInt64.toNat_add, UInt64.toNat_ofNat']
  have wrapped := Nat.mod_le ((s.end_ - s.begin).toNat + n % 2 ^ 64) (2 ^ 64)
  have fits := Nat.mod_le n (2 ^ 64)
  unfold owed
  omega

/-- A number is read, or nothing changes. -/
lemma numeric_cases (valid : s.mbv.Valid) (n : Nat) (ofBytes : List Byte → V) (load : α → Byte) (x : V) :
    (∃ y t, s.deserializeNumeric n ofBytes load x = (.none, y, t) ∧ Spent n s t ∧ t.registered = s.registered) ∨
      s.deserializeNumeric n ofBytes load x = (.bufferSizeLesser, x, s) := by
  by_cases enough : n ≤ s.mbv.unread.length
  case pos =>
    obtain ⟨mbv, read, valid', unread⟩ := valid.readTrivial enough
    have length : mbv.unread.length + n = s.mbv.unread.length := by
      rw [unread, List.length_drop]
      exact Nat.sub_add_cancel enough
    have lag := lag_consume s (UInt64.ofNat n)
    have owed := owed_consume s n
    left
    unfold deserializeNumeric
    rw [read]
    refine ⟨_, _, rfl, ⟨⟨rfl, valid', ?_⟩, ?_, ?_⟩, rfl⟩
    · rintro total ⟨consumed, owes, lags, all⟩
      refine ⟨consumed + n, ?_, ?_, ?_⟩
      · exact Nat.le_trans owed (Nat.add_le_add_right owes n)
      · exact Nat.le_trans (Nat.le_of_eq lag) (Nat.le_add_right_of_le lags)
      · change consumed + n + mbv.unread.length ≤ total
        omega
    · unfold budget
      change mbv.unread.length + (s.end_ + UInt64.ofNat n - (s.iterator + UInt64.ofNat n)).toNat + n ≤ _
      omega
    · intro direct
      exact ⟨lag.trans direct.lag, direct.above⟩
  case neg =>
    right
    unfold deserializeNumeric
    rw [MultiBufferView.readTrivial_short (Nat.lt_of_not_le enough)]

/-- A decode returns to the level above, and what it leaves for the next one is no more than its `Deserialize`
    leaves. -/
lemma nested_ok {body : V → StreamSerializer α → Except Fault (Outcome α V)} {x y : V} {code : SerializationEC}
    (run : deserializeNested body x s = .ok (code, y, t)) :
    ∃ u, body x s.enter = .ok (code, y, u) ∧ (Moved s.enter u → Moved s t) ∧
      (code = .none → Moved s.enter u → t.budget ≤ u.budget ∧ (u.Direct → t.Direct) ∧
        (s.level = 0 → t.Direct ∧ t.owed = 0)) := by
  unfold deserializeNested at run
  change (body x s.enter >>= _) = _ at run
  cases inner : body x s.enter with
  | error fault =>
    rw [inner] at run
    cases run
  | ok outcome =>
    obtain ⟨code', y', u⟩ := outcome
    rw [inner] at run
    injection run with run
    injection run with same run
    injection run with same' run
    subst same same' run
    -- three ends: a failure sets the iterator back, success at the outermost level flushes, success inside clears
    -- what is registered at the level
    by_cases ok : code' = .none
    case neg =>
      simp only [if_neg ok]
      refine ⟨u, rfl, fun moved => ⟨?_, moved.valid, ?_⟩, fun none => absurd none ok⟩
      · exact congrArg (· - 1) moved.level
      · intro total inside
        obtain ⟨consumed, owes, lags, all⟩ := moved.within total inside
        exact ⟨consumed, owes, owes, all⟩
    case pos =>
      simp only [if_pos ok]
      by_cases top : u.level = 1
      case pos =>
        simp only [if_pos top]
        have nothing : (u.end_ - u.end_).toNat = 0 := congrArg UInt64.toNat (UInt64.sub_self _)
        refine ⟨u, rfl, fun moved => ⟨?_, ?_, ?_⟩, fun _ moved => ⟨?_, fun _ => ⟨nothing, fun _ _ => rfl⟩,
          fun _ => ⟨⟨nothing, fun _ _ => rfl⟩, nothing⟩⟩⟩
        · exact congrArg (· - 1) moved.level
        · exact moved.valid.flush.1
        · intro total inside
          obtain ⟨consumed, owes, lags, all⟩ := moved.within total inside
          refine ⟨consumed, ?_, ?_, ?_⟩
          · exact Nat.le_trans (Nat.le_of_eq nothing) (Nat.zero_le _)
          · exact Nat.le_trans (Nat.le_of_eq nothing) (Nat.zero_le _)
          · change consumed + u.mbv.flushDeserialized.2.unread.length ≤ total
            rw [moved.valid.flush.2]
            exact all
        · unfold budget
          change u.mbv.flushDeserialized.2.unread.length + (u.end_ - u.end_).toNat ≤ _
          rw [moved.valid.flush.2, nothing]
          exact Nat.le_add_right _ _
      case neg =>
        simp only [if_neg top]
        refine ⟨u, rfl, fun moved => ⟨?_, moved.valid, ?_⟩, fun _ moved =>
          ⟨Nat.le_refl _, fun quiet => ⟨quiet.lag, ?_⟩, fun zero => ?_⟩⟩
        · exact congrArg (· - 1) moved.level
        · exact moved.within
        · intro l above
          have level : u.level = s.level + 1 := moved.level
          change u.level - 1 < l at above
          change Function.update u.registered u.level [] l = []
          by_cases own : l = u.level
          case pos => rw [own, Function.update_self]
          case neg =>
            rw [Function.update_of_ne own]
            exact quiet.above l (by omega)
        · have level : u.level = s.level + 1 := moved.level
          exact absurd (level.trans (congrArg (· + 1) zero)) top

end StreamSerializer

/-! ## Decodes with their work -/

section rules
variable {α V W : Type} {s t u : StreamSerializer α} {counted : Prop} {direct : Bool}
variable {pay pay' slack slack' before more charge : Nat} {w : Work} {size : V → Nat} {size' : W → Nat}
variable {decode : Except Fault (Outcome α V)}

/-- The iterations, and the elements that are added, are paid for by what is spent, and a success spends `pay` more.
    A last iteration that fails may have to be paid for by what was spent before (`slack`). All this is asked for
    where the work is `counted`, and nothing is passed over where the decode is `direct`. -/
structure Affords (counted : Prop) (direct : Bool) (pay slack : Nat) (w : Work) (before : Nat) (size : V → Nat)
    (s : StreamSerializer α) (decode : Except Fault (Outcome α V)) : Prop where
  iterations : counted → w.iterations ≤ s.budget + slack
  elements : counted → ∀ code y t, decode = .ok (code, y, t) → size y ≤ before + s.budget
  spent : counted → ∀ y t, decode = .ok (.none, y, t) → w.iterations + pay + t.budget ≤ s.budget
  sized : counted → ∀ y t, decode = .ok (.none, y, t) → size y + pay + t.budget ≤ before + s.budget
  wrapped : direct = true → w.wrapped = false
  moved : ∀ code y t, decode = .ok (code, y, t) → Moved s t
  stays : ∀ y t, decode = .ok (.none, y, t) → direct = true → t.Direct

namespace Affords

/-- A decode that ends the program affords its work. -/
lemma error (fault : Fault) : Affords counted direct pay slack {} before size s (.error fault) where
  iterations _ := Nat.zero_le _
  elements _ := nofun
  spent _ := nofun
  sized _ := nofun
  wrapped _ := rfl
  moved := nofun
  stays := nofun

/-- A decode that fails at once affords its work. -/
lemma failed {code : SerializationEC} {y : V} (bad : code ≠ .none) (moved : Moved s t) (le : size y ≤ before) :
    Affords counted direct pay slack {} before size s (.ok (code, y, t)) where
  iterations _ := Nat.zero_le _
  elements _ _ _ _ same := by
    cases same
    exact Nat.le_add_right_of_le le
  spent _ _ _ same := by
    cases same
    exact absurd rfl bad
  sized _ _ _ same := by
    cases same
    exact absurd rfl bad
  wrapped _ := rfl
  moved _ _ _ same := by
    cases same
    exact moved
  stays _ _ same := by
    cases same
    exact absurd rfl bad

/-- A decode without a loop affords its work. -/
lemma done {y : V} (spent : Spent pay s t) (le : size y ≤ before) (quiet : direct = true → s.Direct) :
    Affords counted direct pay slack {} before size s (.ok (.none, y, t)) where
  iterations _ := Nat.zero_le _
  elements _ _ _ _ same := by
    cases same
    exact Nat.le_add_right_of_le le
  spent _ _ _ same := by
    cases same
    change 0 + pay + t.budget ≤ s.budget
    have := spent.budget
    omega
  sized _ _ _ same := by
    cases same
    have := spent.budget
    omega
  wrapped _ := rfl
  moved _ _ _ same := by
    cases same
    exact spent.toMoved
  stays _ _ same direct := by
    cases same
    exact spent.direct (quiet direct)

/-- A decode that follows what is spent. -/
lemma after {cost : Nat} (spent : Spent cost s t) (affords : Affords counted direct pay slack w before size t decode)
    (covered : slack ≤ cost + slack') (paid : pay' ≤ pay + cost) :
    Affords counted direct pay' slack' w before size s decode where
  iterations now := by
    have := affords.iterations now
    have := spent.budget
    omega
  elements now code y u run := by
    have := affords.elements now code y u run
    have := spent.budget
    omega
  spent now y u run := by
    have := affords.spent now y u run
    have := spent.budget
    omega
  sized now y u run := by
    have := affords.sized now y u run
    have := spent.budget
    omega
  wrapped := affords.wrapped
  moved code y u run := spent.toMoved.trans (affords.moved code y u run)
  stays := affords.stays

/-- A decode that goes on where another one succeeds. Of what that one pays, `charge` is spent on an iteration or an
    element. -/
lemma bind {g : Outcome α V → Except Fault (Outcome α W)} {next : V → StreamSerializer α → Work}
    {total slack'' : Nat} (first : Affords counted direct pay slack w before size s decode)
    (later : ∀ y t, t.mbv.Valid → (direct = true → t.Direct) →
      Affords counted direct pay' slack' (next y t) (size y + more + charge) size' t (g (.none, y, t)))
    (fails : ∀ code y t, code ≠ .none → t.mbv.Valid → ∀ code' z u, g (code, y, t) = .ok (code', z, u) →
      code' ≠ .none ∧ Moved t u ∧ size' z ≤ size y + more)
    (covers : counted → charge ≤ pay) (paid : counted → total + charge ≤ pay + pay') (now : charge + slack ≤ slack'')
    (rest : slack' ≤ slack'') :
    Affords counted direct total slack'' ((Work.plus { iterations := charge } w).andThen decode next)
      (before + more) size' s (decode >>= g) := by
  cases decode with
  | error fault =>
    -- a fault is no outcome, so that only the work up to it counts
    refine ⟨fun counts => ?_, ?_, ?_, ?_, first.wrapped, ?_, ?_⟩
    · have := first.iterations counts
      change charge + w.iterations ≤ s.budget + slack''
      omega
    all_goals
      intros
      contradiction
  | ok outcome =>
    obtain ⟨code, y, t⟩ := outcome
    have moved := first.moved code y t rfl
    by_cases ok : code = .none
    case pos =>
      subst ok
      -- what the first decode has spent and paid is the budget of the second one
      have affords := later y t moved.valid (first.stays y t rfl)
      refine ⟨fun counts => ?_, fun counts code z u run => ?_, fun counts z u run => ?_, fun counts z u run => ?_,
        fun quiet => ?_, fun code z u run => moved.trans (affords.moved code z u run), affords.stays⟩
      · have := first.spent counts y t rfl
        have := affords.iterations counts
        have := covers counts
        change charge + w.iterations + (next y t).iterations ≤ s.budget + slack''
        omega
      · have := first.sized counts y t rfl
        have := affords.elements counts code z u run
        have := covers counts
        omega
      · have := first.spent counts y t rfl
        have := affords.spent counts z u run
        have := paid counts
        change charge + w.iterations + (next y t).iterations + total + u.budget ≤ s.budget
        omega
      · have := first.sized counts y t rfl
        have := affords.sized counts z u run
        have := paid counts
        omega
      · change (w.wrapped || (next y t).wrapped) = false
        rw [first.wrapped quiet, affords.wrapped quiet]
        rfl
    case neg =>
      have ends : (Work.plus { iterations := charge } w).andThen (.ok (code, y, t)) next =
          Work.plus { iterations := charge } w := Work.andThen_failed ok
      rw [ends]
      have stops := fails code y t ok moved.valid
      refine ⟨fun counts => ?_, fun counts code' z u run => ?_, fun _ z u run => ?_, fun _ z u run => ?_,
        first.wrapped, fun code z u run => moved.trans (stops code z u run).2.1, fun z u run => ?_⟩
      · have := first.iterations counts
        change charge + w.iterations ≤ s.budget + slack''
        omega
      · have := first.elements counts code y t rfl
        have := (stops code' z u run).2.2
        omega
      · exact absurd rfl (stops .none z u run).1
      · exact absurd rfl (stops .none z u run).1
      · exact absurd rfl (stops .none z u run).1

/-- Around the decode of a `Deserialize`. -/
lemma nested {body : V → StreamSerializer α → Except Fault (Outcome α V)} {x : V}
    (inner : Affords counted direct pay slack w before size s.enter (body x s.enter)) :
    Affords counted direct pay slack w before size s (deserializeNested body x s) where
  iterations := inner.iterations
  elements now code y t run := by
    obtain ⟨u, run, -, -⟩ := nested_ok run
    exact inner.elements now code y u run
  spent now y t run := by
    obtain ⟨u, run, -, ends⟩ := nested_ok run
    have left := (ends rfl (inner.moved .none y u run)).1
    exact Nat.le_trans (Nat.add_le_add_left left _) (inner.spent now y u run)
  sized now y t run := by
    obtain ⟨u, run, -, ends⟩ := nested_ok run
    have left := (ends rfl (inner.moved .none y u run)).1
    exact Nat.le_trans (Nat.add_le_add_left left _) (inner.sized now y u run)
  wrapped := inner.wrapped
  moved code y t run := by
    obtain ⟨u, run, moves, -⟩ := nested_ok run
    exact moves (inner.moved code y u run)
  stays y t run quiet := by
    obtain ⟨u, run, -, ends⟩ := nested_ok run
    exact (ends rfl (inner.moved .none y u run)).2.1 (inner.stays y u run quiet)

/-- The value is given back in another form. -/
lemma map (inner : Affords counted direct pay slack w before size s decode) (g : SerializationEC → V → W)
    (size' : W → Nat) (more : Nat) (same : ∀ code y, size' (g code y) ≤ size y + more) :
    Affords counted direct pay slack w (before + more) size' s
      (decode >>= fun outcome => .ok (outcome.1, g outcome.1 outcome.2.1, outcome.2.2)) := by
  cases decode with
  | error fault =>
    refine ⟨inner.iterations, ?_, ?_, ?_, inner.wrapped, ?_, ?_⟩
    all_goals
      intros
      contradiction
  | ok outcome =>
    obtain ⟨code, y, t⟩ := outcome
    refine ⟨inner.iterations, fun counts _ _ _ run => ?_, fun counts _ _ run => ?_, fun counts _ _ run => ?_,
      inner.wrapped, fun _ _ _ run => ?_, fun _ _ run => ?_⟩
    · cases run
      have := inner.elements counts code y t rfl
      have := same code y
      dsimp only
      omega
    · cases run
      exact inner.spent counts y t rfl
    · cases run
      have := inner.sized counts y t rfl
      have := same .none y
      dsimp only
      omega
    · cases run
      exact inner.moved code y t rfl
    · cases run
      exact inner.stays y t rfl

/-- A larger value to begin with. -/
lemma raise {before' : Nat} (affords : Affords counted direct pay slack w before size s decode)
    (le : before ≤ before') : Affords counted direct pay slack w before' size s decode where
  iterations := affords.iterations
  elements now code y t run := Nat.le_trans (affords.elements now code y t run) (Nat.add_le_add_right le _)
  spent := affords.spent
  sized now y t run := Nat.le_trans (affords.sized now y t run) (Nat.add_le_add_right le _)
  wrapped := affords.wrapped
  moved := affords.moved
  stays := affords.stays

/-- What pays more pays less. -/
lemma less (affords : Affords counted direct pay slack w before size s decode) (le : pay' ≤ pay) :
    Affords counted direct pay' slack w before size s decode where
  iterations := affords.iterations
  elements := affords.elements
  spent now y t run := by
    have := affords.spent now y t run
    omega
  sized now y t run := by
    have := affords.sized now y t run
    omega
  wrapped := affords.wrapped
  moved := affords.moved
  stays := affords.stays

/-- A difference that may wrap. -/
lemma flagged (affords : Affords counted direct pay slack w before size s decode) (flag : Bool)
    (unwrapped : direct = true → flag = false) :
    Affords counted direct pay slack (Work.plus { wrapped := flag } w) before size s decode := by
  have same : (Work.plus { wrapped := flag } w).iterations = w.iterations := Nat.zero_add _
  refine ⟨same ▸ affords.iterations, affords.elements, same ▸ affords.spent, affords.sized, fun quiet => ?_,
    affords.moved, affords.stays⟩
  change (flag || w.wrapped) = false
  rw [unwrapped quiet, affords.wrapped quiet]
  rfl

end Affords

/-! ## Decodes of the supported types -/

/-- Every decode of a type, where nothing is passed over if it is `direct`. One that is not a number settles all
    there was to pass over. -/
structure AffordsAll (counted : Prop) (direct : Bool) (pay : Nat) (o : SerialType) (f : Format) (load : α → Byte)
    (work : o.Val → StreamSerializer α → Work) (size : o.Val → Nat) : Prop where
  affords : ∀ x s, s.mbv.Valid → (direct = true → s.Direct) →
    Affords counted direct pay 0 (work x s) (size x) size s (o.deserialize f load x s)
  settles : o.numeric = false → ∀ x y s t, s.mbv.Valid → (direct = true → s.Direct) → s.level = 0 →
    o.deserialize f load x s = .ok (.none, y, t) → t.Direct ∧ t.owed = 0

/-- A level above nothing is registered either. -/
lemma StreamSerializer.Direct.enter (quiet : s.Direct) : s.enter.Direct :=
  ⟨quiet.lag, fun l above => quiet.above l (Nat.lt_of_succ_lt above)⟩

/-- A type affords its work if its body does, one level higher. -/
lemma AffordsAll.nested {o : SerialType} {f : Format} {load : α → Byte} {work : o.Val → StreamSerializer α → Work}
    {size : o.Val → Nat} {body : o.Val → StreamSerializer α → Except Fault (Outcome α o.Val)}
    (same : ∀ x s, o.deserialize f load x s = deserializeNested body x s)
    (bodies : ∀ x s, s.mbv.Valid → (direct = true → s.enter.Direct) →
      (direct = true → s.enter.registered s.enter.level = []) →
      Affords counted direct pay 0 (work x s) (size x) size s.enter (body x s.enter)) :
    AffordsAll counted direct pay o f load work size := by
  have inner (x : o.Val) (s : StreamSerializer α) (valid : s.mbv.Valid) (quiet : direct = true → s.Direct) :=
    bodies x s valid (fun now => (quiet now).enter) fun now => (quiet now).above _ (Nat.lt_succ_self _)
  constructor
  · intro x s valid quiet
    rw [same]
    exact (inner x s valid quiet).nested
  · intro _ x y s t valid quiet top run
    rw [same] at run
    obtain ⟨u, run, -, ends⟩ := nested_ok run
    exact (ends rfl ((inner x s valid quiet).moved .none y u run)).2.2 top

section types
variable {f : Format} {load : α → Byte} {elem a b : SerialType}

/-- A number costs its bytes. -/
lemma affords_numeric (valid : s.mbv.Valid) (quiet : direct = true → s.Direct) (n : Nat)
    (ofBytes : List Byte → V) (x : V) :
    Affords counted direct n 0 {} 0 (fun _ => 0) s (.ok (s.deserializeNumeric n ofBytes load x)) := by
  rcases numeric_cases valid n ofBytes load x with ⟨y, t, read, spent, -⟩ | short
  · rw [read]
    exact .done spent (Nat.le_refl _) quiet
  · rw [short]
    exact .failed (by decide) (Moved.refl valid) (Nat.le_refl _)

/-- A duration costs eight bytes. -/
lemma affords_duration {n : Nat} {ofNanoseconds : BitVec 64 → BitVec (8 * n)} (valid : s.mbv.Valid)
    (quiet : direct = true → s.Direct) (x : BitVec (8 * n)) :
    Affords counted direct 8 0 {} 0 (fun _ => 0) s (deserializeDuration ofNanoseconds f load x s) := by
  unfold deserializeDuration
  rcases numeric_cases valid 8 (fun bytes => BitVec.ofNat 64 (readWord f bytes)) load 0 with
    ⟨y, t, read, spent, -⟩ | short
  · rw [read]
    exact .done spent (Nat.le_refl _) quiet
  · rw [short]
    exact .failed (by decide) (Moved.refl valid) (Nat.le_refl _)

/-- A pair costs what both parts do. -/
lemma affords_pair {first : a.Val → StreamSerializer α → Work} {second : b.Val → StreamSerializer α → Work}
    {size : a.Val → Nat} {size' : b.Val → Nat} (left : AffordsAll counted direct pay a f load first size)
    (right : AffordsAll counted direct pay' b f load second size') (x : a.Val × b.Val) (valid : s.mbv.Valid)
    (quiet : direct = true → s.Direct) :
    Affords counted direct (pay + pay') 0 ((first x.1 s).andThen (a.deserialize f load x.1 s) fun _ s => second x.2 s)
      (size x.1 + size' x.2) (fun y => size y.1 + size' y.2) s (deserializePair a b f load x s) := by
  rw [← Work.nothing_plus (first x.1 s)]
  refine Affords.bind (left.affords x.1 s valid quiet) (fun y t valid quiet => ?_) (fun code y t bad valid => ?_)
    (fun _ => Nat.zero_le _) (fun _ => Nat.le_refl _) (Nat.le_refl _) (Nat.le_refl _)
  · have moved := (right.affords x.2 t valid quiet).map (fun _ z => (y, z)) (fun y => size y.1 + size' y.2) (size y)
      fun _ z => Nat.le_of_eq (Nat.add_comm _ _)
    rw [Nat.add_comm (size' x.2)] at moved
    exact moved
  · intro code' z u run
    dsimp only at run
    rw [if_neg bad] at run
    cases run
    exact ⟨bad, Moved.refl valid, Nat.le_refl _⟩

/-- An optional costs its flag. -/
lemma affords_maybe {work : a.Val → StreamSerializer α → Work} {size : a.Val → Nat}
    {cleared : Option a.Val → Option a.Val} (inner : AffordsAll counted direct pay a f load work size)
    (init : size a.init = 0) (clears : ∀ x, (cleared x).elim 0 size ≤ x.elim 0 size) (x : Option a.Val)
    (valid : s.mbv.Valid) (quiet : direct = true → s.Direct) :
    Affords counted direct 1 0 (Work.maybe work f load x s) (x.elim 0 size) (fun y => y.elim 0 size) s
      (deserializeMaybe a cleared f load x s) := by
  unfold Work.maybe deserializeMaybe
  cases advanced : s.tryAdvance 1 with
  | some t =>
    have spent := spent_tryAdvance valid advanced
    cases x with
    | none => exact .done spent (Nat.le_refl _) quiet
    | some value =>
      have decoded := inner.affords value t spent.valid fun now => spent.direct (quiet now)
      have held := decoded.map (fun _ y => some y) (fun y => y.elim 0 size) 0 fun _ _ =>
        Nat.le_refl _
      exact held.after spent (Nat.zero_le _) (Nat.le_add_left _ _)
  | none =>
    dsimp only
    rcases numeric_cases valid 1 (readFlag f) load false with ⟨flag, t, read, spent, -⟩ | short
    · rw [read]
      cases flag with
      | false => exact .done spent (clears x) quiet
      | true =>
        have decoded := inner.affords a.init t spent.valid fun now => spent.direct (quiet now)
        have held := decoded.map (fun _ y => some y) (fun y => y.elim 0 size) 0 fun _ _ =>
          Nat.le_refl _
        have paid : Affords counted direct 1 0 _ _ _ s _ := held.after spent (Nat.zero_le _) (Nat.le_add_left _ _)
        rw [init] at paid
        exact paid.raise (Nat.zero_le _)
    · rw [short]
      exact .failed (by decide) (Moved.refl valid) (Nat.le_refl _)

section variant
variable {n : Nat} {alternatives : Fin (n + 1) → SerialType}

/-- A variant costs what its alternative does. -/
lemma affords_alternative {work : ∀ i, (alternatives i).Val → StreamSerializer α → Work}
    {size : ∀ i, (alternatives i).Val → Nat} {pays : Fin (n + 1) → Nat}
    (inner : ∀ i, AffordsAll counted direct (pays i) (alternatives i) f load (work i) (size i))
    (x : Σ i, (alternatives i).Val)
    (valid : s.mbv.Valid) (quiet : direct = true → s.Direct) :
    Affords counted direct (pays x.1) 0 (work x.1 x.2 s) (size x.1 x.2) (fun y => size y.1 y.2) s
      (deserializeAlternative alternatives f load x s) :=
  ((inner x.1).affords x.2 s valid quiet).map (W := Σ i, (alternatives i).Val) (fun _ y => ⟨x.1, y⟩)
    (fun y => size y.1 y.2) 0 fun _ _ => Nat.le_refl _

/-- An alternative that is emplaced is a default constructed one. -/
lemma emplace_init {index : UInt64} {x : Σ i, (alternatives i).Val} (emplaced : emplace alternatives index = some x) :
    x.2 = (alternatives x.1).init := by
  unfold emplace at emplaced
  split at emplaced
  · cases emplaced
    rfl
  · cases emplaced

/-- A variant costs its index. -/
lemma affords_variant {work : ∀ i, (alternatives i).Val → StreamSerializer α → Work}
    {size : ∀ i, (alternatives i).Val → Nat} {pays : Fin (n + 1) → Nat}
    (inner : ∀ i, AffordsAll counted direct (pays i) (alternatives i) f load (work i) (size i))
    (init : ∀ i, size i (alternatives i).init = 0) (x : Σ i, (alternatives i).Val)
    (valid : s.mbv.Valid) (quiet : direct = true → s.Direct) :
    Affords counted direct 8 0 (Work.variant alternatives work f load x s) (size x.1 x.2) (fun y => size y.1 y.2) s
      (deserializeVariant alternatives f load x s) := by
  unfold Work.variant deserializeVariant
  cases advanced : s.tryAdvance 8 with
  | some t =>
    have spent := spent_tryAdvance valid advanced
    have held := affords_alternative inner x spent.valid fun now => spent.direct (quiet now)
    exact held.after spent (Nat.zero_le _) (Nat.le_add_left _ _)
  | none =>
    dsimp only [deserializeSize]
    rcases numeric_cases valid 8 (fun bytes => UInt64.ofNat (readWord f bytes)) load (UInt64.ofNat (2 ^ 64 - 1)) with
      ⟨index, t, read, spent, -⟩ | short
    · rw [read]
      dsimp only
      cases emplaced : emplace alternatives index with
      | none => exact .failed (by decide) spent.toMoved (Nat.le_refl _)
      | some y =>
        have held := affords_alternative inner y spent.valid fun now => spent.direct (quiet now)
        have paid : Affords counted direct 8 0 _ _ _ s _ := held.after spent (Nat.zero_le _) (Nat.le_add_left _ _)
        have none : size y.1 y.2 = 0 := by
          rw [emplace_init emplaced]
          exact init y.1
        rw [none] at paid
        exact paid.raise (Nat.zero_le _)
    · rw [short]
      exact .failed (by decide) (Moved.refl valid) (Nat.le_refl _)

end variant

section ranges
open Shape (listElements)
variable {work : elem.Val → StreamSerializer α → Work} {size : elem.Val → Nat}
variable {insert : List elem.Val → elem.Val → List elem.Val}

/-- Each iteration and each element that is inserted is paid for by the decode of the element. The last iteration
    may fail without a byte. -/
lemma affords_elements (inner : AffordsAll counted direct pay elem f load work size) (charges : counted → 1 ≤ pay)
    (init : size elem.init = 0)
    (grows : ∀ x item, listElements size (insert x item) ≤ size item + listElements size x + 1) (count : Nat)
    (x : List elem.Val) (valid : s.mbv.Valid) (quiet : direct = true → s.Direct) :
    Affords counted direct 0 1 (Work.elements work f load count s) (listElements size x) (listElements size) s
      (deserializeElements elem insert f load count x s) := by
  induction count generalizing x s with
  | zero => exact .done (Spent.refl valid) (Nat.le_refl _) quiet
  | succ count ih =>
    have first := inner.affords elem.init s valid quiet
    rw [init] at first
    rw [← Nat.zero_add (listElements size x)]
    refine Affords.bind first (fun item t valid quiet =>
        (?_ : Affords counted direct 0 1 _ (size item + listElements size x + 1) _ t _))
      (fun code item t bad valid => ?_) charges charges (Nat.le_refl _) (Nat.le_refl _)
    · exact (ih (insert x item) valid quiet).raise (grows x item)
    · intro code' z u run
      dsimp only at run
      rw [if_neg bad] at run
      cases run
      exact ⟨bad, Moved.refl valid, Nat.le_add_left _ _⟩

/-- A size is passed over or read. Where nothing is to be passed over it is read, and the destination is cleared. -/
lemma rangeSize_cases (f : Format) (load : α → Byte) (valid : s.mbv.Valid) (x : List elem.Val) :
    (∃ fault, deserializeRangeSize elem f load x s = .error fault) ∨
      deserializeRangeSize elem f load x s = .ok (.bufferSizeLesser, 0, [], s) ∨
      ∃ count y t, deserializeRangeSize elem f load x s = .ok (.none, count, y, t) ∧ Spent 8 s t ∧
        (y = x ∨ y = []) ∧
        (s.Direct → y = [] ∧ t.registered t.level = s.registered s.level ++ [count]) := by
  unfold deserializeRangeSize
  cases advanced : s.tryAdvance 8 with
  | some t =>
    have spent := spent_tryAdvance valid advanced
    dsimp only
    cases found : t.getValueAt 0 with
    | error fault => exact .inl ⟨fault, rfl⟩
    | ok count =>
      refine .inr (.inr ⟨count, x, t, rfl, spent, .inl rfl, fun quiet => ?_⟩)
      have few : s.lag < (8 : UInt64).toNat := by
        rw [quiet.lag]
        decide
      rw [tryAdvance_none 8 few] at advanced
      cases advanced
  | none =>
    dsimp only [deserializeSize]
    rcases numeric_cases valid 8 (fun bytes => UInt64.ofNat (readWord f bytes)) load 0 with
      ⟨count, t, read, spent, same⟩ | short
    · rw [read]
      refine .inr (.inr ⟨count, [], t.registerValue count, rfl, ?_, .inr rfl, fun _ => ⟨rfl, ?_⟩⟩)
      · exact spent.trans (spent_registered spent.valid _)
      · change Function.update t.registered t.level (t.registered t.level ++ [count]) t.level = _
        rw [Function.update_self, same, spent.level]
    · rw [short]
      exact .inr (.inl rfl)

/-- A range costs its size, which pays for the loop, as each element pays for itself. -/
lemma affords_range (inner : AffordsAll counted direct pay elem f load work size) (charges : counted → 1 ≤ pay)
    (init : size elem.init = 0)
    (grows : ∀ x item, listElements size (insert x item) ≤ size item + listElements size x + 1)
    (x : List elem.Val) (valid : s.mbv.Valid) (quiet : direct = true → s.Direct) :
    Affords counted direct 1 0 (Work.range work f load x s) (listElements size x) (listElements size) s
      (deserializeRange elem insert f load x s) := by
  unfold Work.range deserializeRange
  rcases rangeSize_cases f load valid x with
    ⟨fault, head⟩ | head | ⟨count, y, t, head, spent, held, cleared⟩
  · rw [head]
    exact .error fault
  · rw [head]
    exact .failed (by decide) (Moved.refl valid) (Nat.zero_le _)
  · rw [head]
    have loop := affords_elements inner charges init grows (count - UInt64.ofNat y.length).toNat y
      spent.valid fun now => spent.direct (quiet now)
    have flagged := loop.flagged (count < UInt64.ofNat y.length) fun now => ?_
    · have paid : Affords counted direct 1 0 _ _ _ s _ := flagged.after spent (by decide) (by decide)
      refine paid.raise ?_
      rcases held with rfl | rfl
      · exact Nat.le_refl _
      · exact Nat.zero_le _
    · rw [(cleared (quiet now)).1]
      exact decide_eq_false (UInt64.not_lt.mpr (UInt64.zero_le))

/-! ### Forward lists -/

/-- Each element of a forward list pays for its turn of the loop. -/
lemma affords_front (inner : AffordsAll counted direct pay elem f load work size) (charges : counted → 1 ≤ pay)
    (init : size elem.init = 0) (old : UInt64)
    (count : Nat) (x : List elem.Val) (valid : s.mbv.Valid) (quiet : direct = true → s.Direct) :
    Affords counted direct 0 1 (Work.front work old f load count s) (listElements size x) (listElements size) s
      (deserializeFront elem old f load count x s) := by
  induction count generalizing x s with
  | zero => exact .done (Spent.refl valid) (Nat.le_refl _) quiet
  | succ count ih =>
    have first := inner.affords elem.init s valid quiet
    rw [init] at first
    rw [← Nat.zero_add (listElements size x)]
    refine Affords.bind first (fun item t valid quiet =>
        (?_ : Affords counted direct 0 1 _ (size item + listElements size x + 1) _ t _))
      (fun code item t bad valid => ?_) charges charges (Nat.le_refl _) (Nat.le_refl _)
    · dsimp only
      rw [if_pos rfl]
      cases updated : t.updateValueAt (old + 1) 1 with
      | error fault => exact .error fault
      | ok u =>
        have spent := spent_updateValueAt valid updated
        have rest := ih (item :: x) spent.valid fun now => spent.direct (quiet now)
        have more : listElements size (item :: x) ≤ size item + listElements size x + 1 := by
          unfold listElements
          rw [List.map_cons, List.sum_cons]
          omega
        exact (rest.after spent (Nat.le_add_left _ _) (Nat.zero_le _)).raise more
    · intro code' z u run
      dsimp only at run
      rw [if_neg bad] at run
      cases run
      exact ⟨bad, Moved.refl valid, Nat.le_add_left _ _⟩

/-- The number of elements from an earlier attempt is zero where the size has just been registered. -/
lemma frontOld_ok {x : List elem.Val} {old : UInt64} (valid : s.mbv.Valid)
    (found : Work.frontOld x s = .ok (old, t)) :
    Spent 0 s t ∧ (s.registeredSize = 1 → old = 0) := by
  unfold Work.frontOld at found
  split at found
  · cases found
    exact ⟨spent_registered valid _, fun _ => rfl⟩
  next more =>
    split at found
    · cases found
      exact ⟨Spent.refl valid, fun one => absurd one more⟩
    · cases found

/-- The elements of a forward list, by the number that it has from an earlier attempt -/
lemma deserializeFrontAll_eq (count : UInt64) (x : List elem.Val) (s : StreamSerializer α) :
    deserializeFrontAll elem count f load x s =
      match Work.frontOld x s with
      | .error fault => .error fault
      | .ok (old, s) =>
        deserializeFront elem old f load (count - old).toNat x s >>= fun outcome =>
          .ok (outcome.1, if outcome.1 = .none then outcome.2.1.reverse else outcome.2.1, outcome.2.2) := by
  unfold deserializeFrontAll Work.frontOld
  split
  · rfl
  · cases s.getValueAt 1 with
    | error fault => rfl
    | ok old => rfl

/-- A forward list costs its size. -/
lemma affords_forwardList (inner : AffordsAll counted direct pay elem f load work size) (charges : counted → 1 ≤ pay)
    (init : size elem.init = 0)
    (x : List elem.Val) (valid : s.mbv.Valid) (quiet : direct = true → s.Direct)
    (unused : direct = true → s.registered s.level = []) :
    Affords counted direct 1 0 (Work.forwardList work f load x s) (listElements size x) (listElements size) s
      (deserializeForwardList elem f load x s) := by
  unfold Work.forwardList deserializeForwardList
  rcases rangeSize_cases f load valid x with
    ⟨fault, head⟩ | head | ⟨count, y, t, head, spent, held, cleared⟩
  · rw [head]
    exact .error fault
  · rw [head]
    exact .failed (by decide) (Moved.refl valid) (Nat.zero_le _)
  · rw [head]
    dsimp only
    change Affords _ _ _ _ _ _ _ _ (deserializeFrontAll elem count f load y t)
    rw [deserializeFrontAll_eq]
    cases found : Work.frontOld y t with
    | error fault => exact .error fault
    | ok result =>
      obtain ⟨old, u⟩ := result
      obtain ⟨registers, fresh⟩ := frontOld_ok spent.valid found
      have both := spent.trans registers
      have loop := affords_front inner charges init old (count - old).toNat y registers.valid
        fun now => both.direct (quiet now)
      have turned := loop.map (fun code z => if code = .none then z.reverse else z) (listElements size) 0
        fun code z => ?_
      · have flagged := turned.flagged (count < old) fun now => ?_
        · have paid : Affords counted direct 1 0 _ _ _ s _ := flagged.after both (by decide) (by decide)
          refine paid.raise ?_
          rcases held with rfl | rfl
          · exact Nat.le_refl _
          · exact Nat.zero_le _
        · have one : t.registeredSize = 1 := by
            unfold registeredSize
            rw [(cleared (quiet now)).2, unused now]
            rfl
          rw [fresh one]
          exact decide_eq_false (UInt64.not_lt.mpr UInt64.zero_le)
      · split
        · unfold listElements
          rw [List.map_reverse, List.sum_reverse]
          exact Nat.le_refl _
        · exact Nat.le_refl _

/-! ### Arrays -/

/-- One item of an array is replaced. -/
lemma sum_update {n : Nat} (x : Fin n → elem.Val) (i : Fin n) (item : elem.Val) :
    ∑ j, size (Function.update x i item j) = size item + ∑ j ∈ Finset.univ.erase i, size (x j) := by
  rw [← Finset.add_sum_erase _ _ (Finset.mem_univ i), Function.update_self]
  congr 1
  refine Finset.sum_congr rfl fun j mem => ?_
  rw [Function.update_of_ne (Finset.ne_of_mem_erase mem)]

/-- The loop over the elements of an array takes what one of them pays, if there is one. -/
lemma affords_items (inner : AffordsAll counted direct pay elem f load work size) (remain : UInt64) {n : Nat}
    (count i : Nat) (x : Fin n → elem.Val) (valid : s.mbv.Valid) (quiet : direct = true → s.Direct) :
    Affords counted direct (if 0 < count then pay else 0) 0 (Work.items work remain f load count i x s)
      (∑ j, size (x j)) (fun y => ∑ j, size (y j)) s (deserializeItems elem remain f load count i x s) := by
  induction count generalizing i x s with
  | zero => exact .done (Spent.refl valid) (Nat.le_refl _) quiet
  | succ count ih =>
    rw [if_pos (Nat.zero_lt_succ _)]
    rw [deserializeItems, Work.items]
    split
    case isFalse behind => exact .error _
    case isTrue lt =>
      have here : ∑ j, size (x j) = size (x ⟨i, lt⟩) + ∑ j ∈ Finset.univ.erase ⟨i, lt⟩, size (x j) :=
        (Finset.add_sum_erase _ _ (Finset.mem_univ _)).symm
      rw [← Work.nothing_plus (work (x ⟨i, lt⟩) s), here]
      refine Affords.bind (inner.affords (x ⟨i, lt⟩) s valid quiet)
        (fun item t valid quiet => (?_ : Affords counted direct 0 0 _ _ _ t _))
        (fun code item t bad valid => ?_) (fun _ => Nat.zero_le _) (fun _ => Nat.le_refl _) (Nat.le_refl _)
        (Nat.le_refl _)
      · dsimp only
        cases updated : t.updateValueAt (remain - 1) 0 with
        | error fault => exact .error fault
        | ok u =>
          have spent := spent_updateValueAt valid updated
          have rest := ih (i + 1) (Function.update x ⟨i, lt⟩ item) spent.valid fun now => spent.direct (quiet now)
          rw [sum_update] at rest
          exact rest.after spent (Nat.zero_le _) (Nat.zero_le _)
      · intro code' z u run
        dsimp only at run
        cases updated : t.updateValueAt (remain - 1) 0 with
        | error fault =>
          rw [updated] at run
          cases run
        | ok v =>
          rw [updated] at run
          change (if code = .none then _ else _) = _ at run
          rw [if_neg bad] at run
          cases run
          refine ⟨bad, (spent_updateValueAt valid updated).toMoved, ?_⟩
          rw [sum_update]

/-- What remains of an array that was not begun is all of it. -/
lemma arrayRemain_ok {n : Nat} {remain : UInt64} (valid : s.mbv.Valid)
    (found : Work.arrayRemain n s = .ok (remain, t)) :
    Spent 0 s t ∧ (s.registered s.level = [] → remain = UInt64.ofNat n) := by
  unfold Work.arrayRemain at found
  split at found
  next some =>
    split at found
    · cases found
      refine ⟨Spent.refl valid, fun empty => ?_⟩
      unfold registeredSize at some
      rw [empty] at some
      exact absurd some (Nat.lt_irrefl 0)
    · cases found
  · cases found
    exact ⟨spent_registered valid _, fun _ => rfl⟩

/-- An array, by how many elements remain -/
lemma deserializeArray_eq {n : Nat} (x : Fin n → elem.Val) (s : StreamSerializer α) :
    deserializeArray elem n f load x s =
      match Work.arrayRemain n s with
      | .error fault => .error fault
      | .ok (remain, s) =>
        let i := (UInt64.ofNat n - remain).toNat
        deserializeItems elem remain f load (remain.toNat - i) i x s := by
  unfold deserializeArray Work.arrayRemain
  split
  · cases s.getValueAt 0 with
    | error fault => rfl
    | ok remain => rfl
  · rfl

/-- An array costs what its elements do, where it was not begun. -/
lemma affords_array {n : Nat} (small : n < 2 ^ 64) (inner : AffordsAll counted direct pay elem f load work size)
    (x : Fin n → elem.Val) (valid : s.mbv.Valid) (quiet : direct = true → s.Direct)
    (unused : direct = true → s.registered s.level = []) :
    Affords counted direct (if direct = true ∧ 0 < n then pay else 0) 0 (Work.array work f load x s)
      (∑ j, size (x j)) (fun y => ∑ j, size (y j)) s (deserializeArray elem n f load x s) := by
  rw [deserializeArray_eq]
  unfold Work.array
  cases found : Work.arrayRemain n s with
  | error fault => exact .error fault
  | ok result =>
    obtain ⟨remain, t⟩ := result
    obtain ⟨spent, whole⟩ := arrayRemain_ok valid found
    have loop := affords_items inner remain (remain.toNat - (UInt64.ofNat n - remain).toNat)
      (UInt64.ofNat n - remain).toNat x spent.valid fun now => spent.direct (quiet now)
    refine loop.after spent (Nat.zero_le _) ?_
    split
    case isTrue first =>
      have count : remain.toNat - (UInt64.ofNat n - remain).toNat = n := by
        rw [whole (unused first.1), UInt64.sub_self, UInt64.toNat_ofNat_of_lt' small]
        exact Nat.sub_zero n
      rw [count, if_pos first.2]
      exact Nat.le_refl _
    case isFalse => exact Nat.zero_le _

end ranges

section ranges
open Shape (listElements)
variable {size : elem.Val → Nat}

/-- An element behind the others adds itself and those in it. -/
lemma listElements_append (x : List elem.Val) (item : elem.Val) :
    listElements size (x ++ [item]) ≤ size item + listElements size x + 1 := by
  unfold listElements
  rw [List.map_append, List.sum_append, List.map_singleton, List.sum_singleton]
  omega

/-- An inserted element adds at most itself and those in it. -/
lemma listElements_insert (keys : Keys elem) (x : List elem.Val) (item : elem.Val) :
    listElements size (keys.insert x item) ≤ size item + listElements size x + 1 := by
  unfold Keys.insert
  split
  · omega
  · have placed := ((keys.place_perm x item).map fun item => size item + 1).sum_eq
    unfold listElements
    rw [placed, List.map_cons, List.sum_cons]
    omega

end ranges
end types

/-! ## Every decode -/

variable {o : SerialType}

/-- A default constructed object has no elements. -/
lemma Shape.elements_init {o : SerialType} (shape : Shape o) : shape.elements o.init = 0 := by
  induction shape with
  | word n => rfl
  | bool => rfl
  | duration => rfl
  | empty => rfl
  | pair first second first_init second_init =>
    exact Nat.add_eq_zero_iff.mpr ⟨first_init, second_init⟩
  | optional inner => rfl
  | pointer inner => rfl
  | variant inner ih => exact ih 0
  | sequence inner => rfl
  | associative keys inner => rfl
  | forwardList inner => rfl
  | array small inner ih => exact Finset.sum_eq_zero fun _ _ => ih

/-- Where the elements of all ranges pay, every decode affords its work. -/
lemma Shape.affords {f : Format} {load : α → Byte} {o : SerialType} (shape : Shape o)
    (paid : counted → shape.Paid direct) :
    AffordsAll counted direct (shape.pays direct).toNat o f load (fun x s => shape.work f load x s) shape.elements := by
  -- each shape pays for one iteration of a range around it where it consumes a byte
  induction shape with
  | word n =>
    refine ⟨fun x s valid quiet => (affords_numeric valid quiet n _ x).less ?_, nofun⟩
    change (decide (0 < n)).toNat ≤ n
    by_cases some : 0 < n
    · rw [decide_eq_true some]
      exact some
    · rw [decide_eq_false some]
      exact Nat.zero_le n
  | bool => exact ⟨fun x s valid quiet => affords_numeric valid quiet 1 _ x, nofun⟩
  | duration n toNanoseconds ofNanoseconds =>
    refine .nested (fun _ _ => rfl) fun x s valid quiet _ => ?_
    exact (affords_duration (s := s.enter) valid quiet x).less (show 1 ≤ 8 by decide)
  | empty =>
    refine .nested (fun _ _ => rfl) fun x s valid quiet _ => ?_
    exact .done (Spent.refl (s := s.enter) valid) (Nat.le_refl _) quiet
  | pair first second first_ih second_ih =>
    refine .nested (fun _ _ => rfl) fun x s valid quiet _ => ?_
    have left := first_ih fun now => (paid now).1
    have right := second_ih fun now => (paid now).2
    refine (affords_pair (s := s.enter) left right x valid quiet).less ?_
    change (first.pays direct || second.pays direct).toNat ≤ _
    cases first.pays direct <;> cases second.pays direct <;> decide
  | optional inner ih =>
    refine .nested (fun _ _ => rfl) fun x s valid quiet _ => ?_
    exact affords_maybe (s := s.enter) (ih paid) inner.elements_init (fun _ => Nat.le_refl _) x valid quiet
  | pointer inner ih =>
    refine .nested (fun _ _ => rfl) fun x s valid quiet _ => ?_
    exact affords_maybe (s := s.enter) (ih paid) inner.elements_init (fun _ => Nat.zero_le _) x valid quiet
  | variant inner ih =>
    refine .nested (fun _ _ => rfl) fun x s valid quiet _ => ?_
    have each := fun i => ih i fun now => paid now i
    have init := fun i => (inner i).elements_init
    exact (affords_variant (s := s.enter) each init x valid quiet).less (show 1 ≤ 8 by decide)
  | sequence inner ih =>
    refine .nested (fun _ _ => rfl) fun x s valid quiet _ => ?_
    have charges := fun now => Nat.le_of_eq (congrArg Bool.toNat (paid now).1).symm
    have each := ih fun now => (paid now).2
    exact affords_range (s := s.enter) each charges inner.elements_init listElements_append x valid quiet
  | associative keys inner ih =>
    refine .nested (fun _ _ => rfl) fun x s valid quiet _ => ?_
    have charges := fun now => Nat.le_of_eq (congrArg Bool.toNat (paid now).1).symm
    have each := ih fun now => (paid now).2
    exact affords_range (s := s.enter) each charges inner.elements_init (listElements_insert keys) x valid quiet
  | forwardList inner ih =>
    refine .nested (fun _ _ => rfl) fun x s valid quiet unused => ?_
    have charges := fun now => Nat.le_of_eq (congrArg Bool.toNat (paid now).1).symm
    have each := ih fun now => (paid now).2
    exact affords_forwardList (s := s.enter) each charges inner.elements_init x valid quiet unused
  | @array elem n small inner ih =>
    refine .nested (fun _ _ => rfl) fun x s valid quiet unused => ?_
    refine (affords_array (s := s.enter) small (ih paid) x valid quiet unused).less ?_
    -- an array that is repeated starts where the last decode of it stopped, and may have no element left to read
    change (direct && decide (0 < n) && inner.pays direct).toNat ≤ _
    cases direct with
    | false => exact Nat.zero_le _
    | true =>
      by_cases some : 0 < n
      · rw [if_pos ⟨rfl, some⟩, decide_eq_true some]
        exact Nat.le_refl _
      · rw [decide_eq_false some]
        exact Nat.zero_le _

end rules

/-! ## Runs -/

section runs
variable {α : Type} {load : α → Byte} {s : StreamSerializer α} {o : SerialType} {pushed : Nat} {direct : Bool}

/-- A serializer after any number of pushes and decodes, with the number of bytes that were pushed. The next decode is
    `direct` where it does not repeat one: there was none, or the last one succeeded. A number on its own leaves its
    bytes to be passed over. -/
inductive Reached (load : α → Byte) : Nat → Bool → StreamSerializer α → Prop
  | start : Reached load 0 true {}
  | push {pushed : Nat} {direct : Bool} {s : StreamSerializer α} (span : List α) : Reached load pushed direct s →
      Reached load (pushed + span.length) direct (s.pushView span)
  | decode {pushed : Nat} {direct : Bool} {s t : StreamSerializer α} {o : SerialType} {code : SerializationEC}
      {x y : o.Val} (shape : Shape o) (f : Format) : Reached load pushed direct s →
      o.deserialize f load x s = .ok (code, y, t) → Reached load pushed (code = .none && !o.numeric) t

/-- What the pushes and decodes keep. -/
structure Steady (pushed : Nat) (direct : Bool) (s : StreamSerializer α) : Prop where
  level : s.level = 0
  valid : s.mbv.Valid
  within : Within pushed s
  direct : direct = true → s.Direct ∧ s.owed = 0

/-- A push keeps what is bounded, with its bytes. -/
lemma Steady.push (steady : Steady pushed direct s) (span : List α) :
    Steady (pushed + span.length) direct (s.pushView span) := by
  obtain ⟨level, registered, owed⟩ := pushView_kept s span
  obtain ⟨valid, unread⟩ := pushView_valid steady.valid span
  have lag : (s.pushView span).lag = s.lag ∨ (s.pushView span).lag = s.owed := by
    cases span with
    | nil => exact .inl rfl
    | cons cell cells => exact .inr rfl
  refine ⟨level.trans steady.level, valid, ?_, fun now => ?_⟩
  · obtain ⟨consumed, owes, lags, all⟩ := steady.within
    refine ⟨consumed, owed ▸ owes, ?_, ?_⟩
    · rcases lag with same | same
      · rw [same]
        exact lags
      · rw [same]
        exact owes
    · rw [unread, List.length_append]
      omega
  · obtain ⟨quiet, nothing⟩ := steady.direct now
    refine ⟨⟨?_, ?_⟩, owed.trans nothing⟩
    · rcases lag with same | same
      · exact same.trans quiet.lag
      · exact same.trans nothing
    · rw [level, registered]
      exact quiet.above

/-- What a decode finds and leaves. -/
lemma Steady.affords (steady : Steady pushed direct s) (shape : Shape o) (f : Format) (load : α → Byte) (x : o.Val)
    (now : Bool) (le : now = true → direct = true) :
    Affords (shape.Paid now) now (shape.pays now).toNat 0 (shape.work f load x s) (shape.elements x) shape.elements s
      (o.deserialize f load x s) :=
  (shape.affords id).affords x s steady.valid fun quiet => (steady.direct (le quiet)).1

/-- A decode keeps what is bounded, and one that succeeds leaves nothing to pass over unless it is a lone number. -/
lemma Steady.decode (steady : Steady pushed direct s) {t : StreamSerializer α} {code : SerializationEC} {x y : o.Val}
    (shape : Shape o) (f : Format) (run : o.deserialize f load x s = .ok (code, y, t)) :
    Steady pushed (code = .none && !o.numeric) t := by
  have moved := (steady.affords shape f load x false nofun).moved code y t run
  refine ⟨moved.level.trans steady.level, moved.valid, moved.within pushed steady.within, fun quiet => ?_⟩
  obtain ⟨ok, compound⟩ := Bool.and_eq_true_iff.mp quiet
  have compound : o.numeric = false := by
    cases numeric : o.numeric with
    | false => rfl
    | true =>
      rw [numeric] at compound
      cases compound
  rw [of_decide_eq_true ok] at run
  have all : AffordsAll _ false _ o f load _ _ := shape.affords id
  exact all.settles compound x y s t steady.valid nofun steady.level run

/-- Every serializer that is reached is within its bytes. -/
lemma Reached.steady (reached : Reached load pushed direct s) : Steady pushed direct s := by
  induction reached with
  | start =>
    have nothing : ((0 : UInt64) - 0).toNat = 0 := rfl
    refine ⟨rfl, MultiBufferView.valid_empty, ⟨0, ?_, ?_, Nat.le_refl _⟩, fun _ => ⟨⟨nothing, fun _ _ => rfl⟩, nothing⟩⟩
    · exact Nat.le_of_eq nothing
    · exact Nat.le_of_eq nothing
  | push span _ ih => exact ih.push span
  | decode shape f _ run ih => exact ih.decode shape f run

/-- However a serializer was fed and used before, a decode makes no more iterations of the loops over elements, and
    adds no more elements, than bytes were pushed, if the elements of its ranges take bytes. The number of iterations
    does not wrap where the decode repeats none. -/
theorem work_bounded (reached : Reached load pushed direct s) (shape : Shape o) (f : Format) (x : o.Val) :
    (shape.Paid direct → (shape.work f load x s).iterations ≤ pushed ∧
        ∀ code y t, o.deserialize f load x s = .ok (code, y, t) → shape.elements y ≤ shape.elements x + pushed) ∧
      (direct = true → (shape.work f load x s).wrapped = false) := by
  have steady := reached.steady
  have affords := steady.affords shape f load x direct id
  have few : s.budget ≤ pushed := by
    obtain ⟨consumed, -, lags, all⟩ := steady.within
    unfold budget
    omega
  refine ⟨fun paid => ⟨?_, fun code y t run => ?_⟩, affords.wrapped⟩
  · exact Nat.le_trans (affords.iterations paid) few
  · exact Nat.le_trans (affords.elements paid code y t run) (Nat.add_le_add_left few _)

/-- A vector of two bytes, of which one has arrived. -/
theorem work_bounded_bytes :
    let s : StreamSerializer Byte := pushView {} [2, 0, 0, 0, 0, 0, 0, 0, 7]
    ((Shape.sequence (.word 1)).work ⟨false, true⟩ id [] s).iterations ≤ 9 ∧
      ((Shape.sequence (.word 1)).work ⟨false, true⟩ id [] s).wrapped = false := by
  intro s
  have reached : Reached id 9 true s := .push [2, 0, 0, 0, 0, 0, 0, 0, 7] .start
  have bounded := work_bounded reached (.sequence (.word 1)) ⟨false, true⟩ []
  exact ⟨(bounded.1 ⟨rfl, trivial⟩).1, bounded.2 rfl⟩

/-! ### Other decodes -/

/-- Arrays of one element inside each other, around a number. -/
def arrays : Nat → Σ o, Shape o
  | 0 => ⟨word 4, .word 4⟩
  | depth + 1 => ⟨array (arrays depth).1 1, .array (by decide) (arrays depth).2⟩

/-- A decode finds too few bytes. -/
def isShort (o : SerialType) (f : Format) (load : α → Byte) (x : o.Val) (s : StreamSerializer α) : Bool :=
  match o.deserialize f load x s with
  | .ok (.bufferSizeLesser, _) => true
  | _ => false

/-- What a decode leaves for its repetition. -/
def repetition (o : SerialType) (f : Format) (load : α → Byte) (x : o.Val) (s : StreamSerializer α) :
    o.Val × StreamSerializer α :=
  match o.deserialize f load x s with
  | .ok (_, y, t) => (y, t)
  | .error _ => (x, s)

/-- Too few bytes for the whole value are noticed. -/
lemma deserialize_short {f : Format} {x : o.Val} (few : isShort o f load x s = true) :
    o.deserialize f load x s = .ok (.bufferSizeLesser, repetition o f load x s) := by
  revert few
  unfold isShort repetition
  split
  next run => exact fun _ => by rw [run]
  next => nofun

/-- A repetition is reached as well. -/
lemma Reached.repeated (reached : Reached load pushed direct s) (shape : Shape o) {f : Format} {x : o.Val}
    (few : isShort o f load x s = true) : Reached load pushed false (repetition o f load x s).2 :=
  .decode shape f reached (deserialize_short few)

/-- Eight bytes announce nine objects of an empty class. Where a decode is repeated, each of nine arrays inside each
    other lets an element of a vector pass without a byte; the size of the second vector is taken for that of the
    first one, which holds more; and optionals that were read before are passed over as if they were others. -/
theorem work_unbounded :
    (¬ ∀ (pushed : Nat) (s : StreamSerializer Byte), Reached id pushed true s →
        ∀ (o : SerialType) (shape : Shape o) (f : Format) (x : o.Val), (shape.work f id x s).iterations ≤ pushed) ∧
      (¬ ∀ (pushed : Nat) (s : StreamSerializer Byte), Reached id pushed false s →
        ∀ (o : SerialType) (shape : Shape o), shape.Paid true →
          ∀ (f : Format) (x : o.Val), (shape.work f id x s).iterations ≤ pushed) ∧
      (¬ ∀ (pushed : Nat) (s : StreamSerializer Byte), Reached id pushed false s →
        ∀ (o : SerialType) (shape : Shape o), shape.Paid false →
          ∀ (f : Format) (x : o.Val), (shape.work f id x s).wrapped = false) ∧
      ¬ ∀ (pushed : Nat) (s t u : StreamSerializer Byte), Reached id pushed true s →
        ∀ (o : SerialType) (shape : Shape o), shape.Paid false → ∀ (f : Format) (span : List Byte) (y z : o.Val),
          o.deserialize f id o.init s = .ok (.bufferSizeLesser, y, t) →
          o.deserialize f id y (t.pushView span) = .ok (.bufferSizeLesser, z, u) →
          shape.elements z ≤ pushed + span.length := by
  refine ⟨fun all => ?_, fun all => ?_, fun all => ?_, fun all => ?_⟩
  · have few := all _ _ (.push [9, 0, 0, 0, 0, 0, 0, 0] .start) _ (.sequence .empty) ⟨false, true⟩ []
    revert few
    decide
  · have first : Reached id 8 true _ := .push ([20, 0, 0, 0, 0, 0, 0, 0] : List Byte) .start
    have second := first.repeated (f := ⟨false, true⟩) (x := []) (.sequence (arrays 9).2) (by decide +kernel)
    have few := all _ _ (.push [0] second) _ (.sequence (arrays 9).2) ⟨rfl, trivial⟩ ⟨false, true⟩ []
    revert few
    decide +kernel
  · let span : List Byte := [2, 0, 0, 0, 0, 0, 0, 0, 5, 6, 1, 0, 0, 0, 0, 0, 0, 0]
    have first : Reached id 18 true (pushView {} span) := .push span .start
    let o := pair (sequence (word 1)) (sequence (word 1))
    let shape : Shape o := .pair (.sequence (.word 1)) (.sequence (.word 1))
    have second := first.repeated (f := ⟨false, true⟩) (x := o.init) shape (by decide +kernel)
    have same := all _ _ (.push [0] second) _ shape ⟨⟨rfl, trivial⟩, rfl, trivial⟩ ⟨false, true⟩
      (repetition o ⟨false, true⟩ id o.init (pushView {} span)).1
    revert same
    decide +kernel
  · let span : List Byte := [40, 0, 0, 0, 0, 0, 0, 0, 0, 0, 0, 0, 0, 0, 0, 0, 0]
    have first : Reached id 17 true (pushView {} span) := .push span .start
    let o := sequence (optional (word 1))
    have few := all _ _ _ _ first o (.sequence (.optional (.word 1))) ⟨rfl, trivial⟩ ⟨false, true⟩ [0] _ _
      (deserialize_short (by decide +kernel)) (deserialize_short (by decide +kernel))
    revert few
    decide +kernel

end runs

end OsterLib.Serialization
