import OsterLib.Lib.Parse
import OsterLib.Serialization.Lookup
import OsterLib.Serialization.Work
import Mathlib.Data.List.GetD

/-!
# The decoder as a parser

A `StreamSerializer` reads from spans, passes over what earlier attempts have consumed and registers how far they came.
`Shape.parse` knows nothing of this: it reads a value from the front of a list of bytes. Where no decode is repeated,
both are the same for every sequence of bytes, also for those that nobody has encoded: the same value with the same
bytes left behind it, or the same code (`deserialize_parses`).
-/

namespace OsterLib.Serialization
open OsterLib.Lib StreamSerializer SerialType

/-- A parser of bytes, which fails with the code of the serializer -/
abbrev ByteParser (V : Type) := Parser SerializationEC Byte V

/-- A number of `n` bytes. -/
def parseNumber {V : Type} (n : Nat) (ofBytes : List Byte → V) : ByteParser V := fun bytes =>
  if bytes.length < n then .error .bufferSizeLesser else .ok (ofBytes (bytes.take n), bytes.drop n)

/-- The size of a range, or the index of a variant. -/
def parseSize (f : Format) : ByteParser UInt64 := parseNumber 8 fun bytes => UInt64.ofNat (readWord f bytes)

/-- A flag, and a value behind one that is set. -/
def parseMaybe {V : Type} (f : Format) (value : ByteParser V) : ByteParser (Option V) :=
  (parseNumber 1 (readFlag f)).andThen fun flag => if flag then value.map some else fun rest => .ok (none, rest)

/-- A size, and as many items. -/
def parseRange {V : Type} (f : Format) (item : ByteParser V) (insert : List V → V → List V) : ByteParser (List V) :=
  (parseSize f).andThen fun size => item.times insert size.toNat []

/-- `push_back` -/
def pushBack {V : Type} (xs : List V) (x : V) : List V := xs ++ [x]

/-- The elements of an array of `n` items. -/
def itemsOf {V : Type} (init : V) (n : Nat) (xs : List V) : Fin n → V := fun i => xs.getD i init

/-- The values of a type, parsed from plain bytes -/
def Shape.parse (f : Format) {o : SerialType} (shape : Shape o) : ByteParser o.Val :=
  match shape with
  | word n => parseNumber n fun bytes => BitVec.ofNat (8 * n) (readWord f bytes)
  | bool => parseNumber 1 (readFlag f)
  | duration _ _ ofNanoseconds => (parseNumber 8 fun bytes => BitVec.ofNat 64 (readWord f bytes)).map ofNanoseconds
  | empty => fun bytes => .ok ((), bytes)
  | pair first second => (first.parse f).andThen fun x => (second.parse f).map fun y => (x, y)
  | optional inner | pointer inner => parseMaybe f (inner.parse f)
  | @variant n _ inner => (parseSize f).andThen fun index =>
      if lt : index.toNat < n + 1 then ((inner ⟨index.toNat, lt⟩).parse f).map fun x => ⟨⟨index.toNat, lt⟩, x⟩
      else fun _ => .error .unmatchedType
  | sequence inner | forwardList inner => parseRange f (inner.parse f) pushBack
  | associative keys inner => parseRange f (inner.parse f) keys.insert
  | @array elem n _ inner => ((inner.parse f).times pushBack n []).map (itemsOf elem.init n)

/-! ## A decode and what is parsed -/

section rules
variable {α V W : Type} {load : α → Byte} {s t : StreamSerializer α} {j k : Nat}
  {decode : Except Fault (Outcome α V)} {parsed : Except SerializationEC (V × List Byte)}

/-- The decode ends as the parser does: with the value, and the bytes behind it left to read, or with the code. What
    is registered below level `k` stays. -/
def Parses (k : Nat) (load : α → Byte) (s : StreamSerializer α) (decode : Except Fault (Outcome α V)) :
    Except SerializationEC (V × List Byte) → Prop
  | .ok (y, rest) => ∃ t, decode = .ok (.none, y, t) ∧ Found k 0 s (.none, y, t) ∧ t.mbv.Valid ∧ t.Direct ∧
      t.left load = rest
  | .error code => code ≠ .none ∧ ∃ y t, decode = .ok (code, y, t) ∧ Found k 0 s (code, y, t)

/-- A decode without bytes parses none. -/
lemma parses_ok (valid : s.mbv.Valid) (direct : s.Direct) (k : Nat) (y : V) :
    Parses k load s (.ok (.none, y, s)) (.ok (y, s.left load)) :=
  ⟨s, rfl, Found.stay k .none y, valid, direct, rfl⟩

/-- What is parsed above one level is parsed above a lower one. -/
lemma Parses.lower (parses : Parses k load s decode parsed) (le : j ≤ k) : Parses j load s decode parsed := by
  cases parsed with
  | ok outcome =>
    obtain ⟨t, run, found, rest⟩ := parses
    exact ⟨t, run, found.lower le, rest⟩
  | error code =>
    obtain ⟨failed, y, t, run, found⟩ := parses
    exact ⟨failed, y, t, run, found.lower le⟩

/-- A decode that changes what is registered at the level before it goes on. -/
lemma Parses.behind {y : W} (found : Found k 0 s (.none, y, t)) (le : j ≤ k)
    (parses : Parses j load t decode parsed) : Parses j load s decode parsed := by
  cases parsed with
  | ok outcome =>
    obtain ⟨u, run, next, rest⟩ := parses
    exact ⟨u, run, found.then rfl next le, rest⟩
  | error code =>
    obtain ⟨failed, z, u, run, next⟩ := parses
    exact ⟨failed, z, u, run, found.then rfl next le⟩

/-- A decode that goes on where another one succeeds, and gives its code back where that one fails. -/
lemma Parses.bind {p : ByteParser V} {g : Outcome α V → Except Fault (Outcome α W)} {next : V → ByteParser W}
    (le : j ≤ k) (first : Parses k load s decode (p (s.left load)))
    (later : ∀ y t, Found k 0 s (.none, y, t) → t.mbv.Valid → t.Direct →
      Parses j load t (g (.none, y, t)) (next y (t.left load)))
    (fails : ∀ code y t, code ≠ .none → Found k 0 s (code, y, t) →
      ∃ z u, g (code, y, t) = .ok (code, z, u) ∧ Found j 0 s (code, z, u)) :
    Parses j load s (decode >>= g) (p.andThen next (s.left load)) := by
  unfold Parser.andThen
  cases parsed : p (s.left load) with
  | ok outcome =>
    rw [parsed] at first
    obtain ⟨y, rest⟩ := outcome
    obtain ⟨t, rfl, found, valid, direct, rfl⟩ := first
    exact (later y t found valid direct).behind found le
  | error code =>
    rw [parsed] at first
    obtain ⟨failed, y, t, rfl, found⟩ := first
    obtain ⟨z, u, run, next⟩ := fails code y t failed found
    exact ⟨failed, z, u, run, next⟩

/-- The value is given back in another form. -/
lemma Parses.map {p : ByteParser V} (parses : Parses k load s decode (p (s.left load)))
    (g : SerializationEC → V → W) :
    Parses k load s (decode >>= fun outcome => .ok (outcome.1, g outcome.1 outcome.2.1, outcome.2.2))
      (p.map (g .none) (s.left load)) := by
  refine parses.bind (Nat.le_refl k) (fun y t _ valid direct => parses_ok valid direct k (g .none y)) ?_
  exact fun code y t _ found => ⟨g code y, t, rfl, found.as _⟩

variable (load) in
/-- A number is read, or too few bytes are left for it. -/
lemma number_parses (valid : s.mbv.Valid) (direct : s.Direct) (k n : Nat) (ofBytes : List Byte → V) (x : V) :
    (s.deserializeNumeric n ofBytes load x = (.bufferSizeLesser, x, s) ∧
        parseNumber n ofBytes (s.left load) = .error .bufferSizeLesser) ∨
      ∃ y t, s.deserializeNumeric n ofBytes load x = (.none, y, t) ∧
        parseNumber n ofBytes (s.left load) = .ok (y, t.left load) ∧ Found k 0 s (.none, y, t) ∧ t.mbv.Valid ∧
        t.Direct ∧ t.registered = s.registered := by
  have found := found_numeric (s := s) k n ofBytes load x
  unfold parseNumber StreamSerializer.left
  rw [List.length_map]
  by_cases few : s.mbv.unread.length < n
  · left
    rw [if_pos few]
    unfold StreamSerializer.deserializeNumeric
    rw [MultiBufferView.readTrivial_short few]
    exact ⟨rfl, rfl⟩
  · right
    rw [if_neg few]
    obtain ⟨mbv, read, valid', unread⟩ := valid.readTrivial (Nat.le_of_not_lt few)
    have done : s.deserializeNumeric n ofBytes load x = (.none, ofBytes ((s.mbv.unread.take n).map load),
        { s with mbv, end_ := s.end_ + UInt64.ofNat n, iterator := s.iterator + UInt64.ofNat n }) := by
      unfold StreamSerializer.deserializeNumeric
      rw [read]
    rw [done] at found ⊢
    rw [← List.map_take, ← List.map_drop, ← unread]
    exact ⟨_, _, rfl, rfl, found, valid', ⟨(lag_consume s _).trans direct.lag, direct.above⟩, rfl⟩

/-- A number is parsed. -/
lemma parses_number (valid : s.mbv.Valid) (direct : s.Direct) (k n : Nat) (ofBytes : List Byte → V) (x : V) :
    Parses k load s (.ok (s.deserializeNumeric n ofBytes load x)) (parseNumber n ofBytes (s.left load)) := by
  rcases number_parses load valid direct k n ofBytes x with
    ⟨short, parsed⟩ | ⟨y, t, read, parsed, found, valid', direct', -⟩
  · rw [short, parsed]
    exact ⟨nofun, x, s, rfl, Found.stay k _ x⟩
  · rw [read, parsed]
    exact ⟨t, rfl, found, valid', direct', rfl⟩

/-- What `deserialize` makes of the end of a body. -/
lemma deserializeNested_run {body : V → StreamSerializer α → Except Fault (Outcome α V)} {x y : V}
    {code : SerializationEC} (run : body x s.enter = .ok (code, y, t)) :
    deserializeNested body x s =
      let finished :=
        if code = .none then
          if t.level = 1 then
            { t with mbv := t.mbv.flushDeserialized.2, begin := t.end_, iterator := t.end_, registered := fun _ => [] }
          else { t with registered := Function.update t.registered t.level [] }
        else { t with iterator := t.begin }
      .ok (code, y, { finished with level := t.level - 1 }) := by
  unfold deserializeNested
  change (body x s.enter >>= _) = _
  rw [run]
  rfl

/-- Around a body that parses, `deserialize` does so too. -/
lemma Parses.nested {body : V → StreamSerializer α → Except Fault (Outcome α V)} {x : V}
    (parses : Parses (s.level + 1) load s.enter (body x s.enter) parsed) :
    Parses (s.level + 1) load s (deserializeNested body x s) parsed := by
  cases parsed with
  | error code =>
    obtain ⟨failed, y, u, run, found⟩ := parses
    have nested : Finds (s.level + 1) 0 s (deserializeNested body x s) := Finds.nested (by rw [run]; exact found)
    rw [deserializeNested_run run] at nested ⊢
    exact ⟨failed, y, _, rfl, nested⟩
  | ok outcome =>
    obtain ⟨y, rest⟩ := outcome
    obtain ⟨u, run, found, valid, direct, left⟩ := parses
    have nested : Finds (s.level + 1) 0 s (deserializeNested body x s) := Finds.nested (by rw [run]; exact found)
    rw [deserializeNested_run run] at nested ⊢
    by_cases top : u.level = 1
    -- at the outermost level what was read is flushed, and nothing stays registered
    · simp only [if_true, if_pos top] at nested ⊢
      refine ⟨_, rfl, nested, valid.flush.1, ⟨?_, fun _ _ => rfl⟩, ?_⟩
      · exact congrArg UInt64.toNat (UInt64.sub_self _)
      · rw [← left, StreamSerializer.left, StreamSerializer.left]
        exact congrArg (List.map load) valid.flush.2
    · simp only [if_true, if_neg top] at nested ⊢
      refine ⟨_, rfl, nested, valid, ⟨direct.lag, fun l above => ?_⟩, left⟩
      change u.level - 1 < l at above
      change Function.update u.registered u.level [] l = []
      by_cases own : l = u.level
      · rw [own, Function.update_self]
      · rw [Function.update_of_ne own]
        exact direct.above l (by omega)

end rules

/-! ## The decodes of the shapes -/

section shapes
variable {α : Type} {f : Format} {load : α → Byte} {s : StreamSerializer α} {o a b elem : SerialType}

/-- Where nothing is to be passed over, a value is decoded as it is parsed. -/
def ParsesAs (f : Format) (load : α → Byte) (o : SerialType) (p : ByteParser o.Val) : Prop :=
  ∀ s : StreamSerializer α, s.mbv.Valid → s.Direct →
    Parses (s.level + 1) load s (o.deserialize f load o.init s) (p (s.left load))

/-- The body is called where nothing is registered at its level. -/
lemma ParsesAs.nested {p : ByteParser o.Val}
    {body : o.Val → StreamSerializer α → Except Fault (Outcome α o.Val)}
    (same : ∀ x s, o.deserialize f load x s = deserializeNested body x s)
    (bodies : ∀ s : StreamSerializer α, s.mbv.Valid → s.Direct → 0 < s.level → s.registered s.level = [] →
      Parses s.level load s (body o.init s) (p (s.left load))) :
    ParsesAs f load o p := by
  intro s valid direct
  rw [same]
  have unused : s.enter.registered s.enter.level = [] := direct.above _ (Nat.lt_succ_self _)
  exact Parses.nested (bodies s.enter valid direct.enter (Nat.succ_pos _) unused)

/-- Nothing is to be passed over. -/
lemma direct_tryAdvance (direct : s.Direct) {size : UInt64} (some : 0 < size.toNat) : s.tryAdvance size = none :=
  tryAdvance_none size (direct.lag ▸ some)

/-- The decode of a part, behind other parts. -/
lemma ParsesAs.part {p : ByteParser o.Val} (parses : ParsesAs f load o p) {V : Type} {k n : Nat} {y : V}
    {t : StreamSerializer α} (found : Found k n s (.none, y, t)) (valid : t.mbv.Valid) (direct : t.Direct) :
    Parses (s.level + 1) load t (o.deserialize f load o.init t) (p (t.left load)) := by
  have level : t.level = s.level := found.level
  have parses := parses t valid direct
  rwa [level] at parses

/-- A duration is parsed as its count. -/
lemma parses_duration {n : Nat} (ofNanoseconds : BitVec 64 → BitVec (8 * n)) (x : BitVec (8 * n))
    (valid : s.mbv.Valid) (direct : s.Direct) :
    Parses s.level load s (deserializeDuration ofNanoseconds f load x s)
      ((parseNumber 8 fun bytes => BitVec.ofNat 64 (readWord f bytes)).map ofNanoseconds (s.left load)) := by
  unfold deserializeDuration Parser.map Parser.andThen
  rcases number_parses load valid direct s.level 8 (fun bytes => BitVec.ofNat 64 (readWord f bytes)) 0 with
    ⟨short, parsed⟩ | ⟨count, t, read, parsed, found, valid, direct, -⟩
  · rw [short, parsed]
    exact ⟨nofun, x, s, rfl, Found.stay _ _ _⟩
  · rw [read, parsed]
    exact ⟨t, rfl, found.as _, valid, direct, rfl⟩

/-- A pair is parsed part by part. -/
lemma parses_pair {p : ByteParser a.Val} {q : ByteParser b.Val} (first : ParsesAs f load a p)
    (second : ParsesAs f load b q) (valid : s.mbv.Valid) (direct : s.Direct) :
    Parses s.level load s (deserializePair a b f load (a.init, b.init) s)
      (p.andThen (fun x => q.map fun y => (x, y)) (s.left load)) := by
  refine Parses.bind (Nat.le_succ _) (first s valid direct) (fun y t found valid direct => ?_)
    fun code y t failed found => ?_
  · exact ((second.part found valid direct).map fun _ z => (y, z)).lower (Nat.le_succ _)
  · refine ⟨(y, b.init), t, ?_, found.fail (Nat.le_succ _) failed _⟩
    dsimp only
    rw [if_neg failed]
    rfl

/-- A fresh destination has no value. -/
lemma parses_maybe {p : ByteParser a.Val} (inner : ParsesAs f load a p)
    {cleared : Option a.Val → Option a.Val} (clears : cleared none = none) (valid : s.mbv.Valid) (direct : s.Direct) :
    Parses s.level load s (deserializeMaybe a cleared f load none s) (parseMaybe f p (s.left load)) := by
  unfold deserializeMaybe parseMaybe Parser.andThen
  rw [direct_tryAdvance direct (by decide)]
  dsimp only
  rcases number_parses load valid direct s.level 1 (readFlag f) false with
    ⟨short, parsed⟩ | ⟨flag, t, read, parsed, found, valid, direct, -⟩
  · rw [short, parsed]
    exact ⟨nofun, none, s, rfl, Found.stay _ _ _⟩
  · rw [read, parsed]
    cases flag with
    | false =>
      dsimp only
      rw [clears]
      exact ⟨t, rfl, found.as _, valid, direct, rfl⟩
    | true =>
      have value := ((inner.part found valid direct).map fun _ y => some y).lower (Nat.le_succ _)
      exact value.behind found (Nat.le_refl _)

/-- A variant is parsed as its index and the alternative there. -/
lemma parses_variant {n : Nat} {alternatives : Fin (n + 1) → SerialType}
    {p : ∀ i, ByteParser (alternatives i).Val} (inner : ∀ i, ParsesAs f load (alternatives i) (p i))
    (x : Σ i, (alternatives i).Val) (valid : s.mbv.Valid) (direct : s.Direct) :
    Parses s.level load s (deserializeVariant alternatives f load x s)
      ((parseSize f).andThen (fun index =>
        if lt : index.toNat < n + 1 then
          ((p ⟨index.toNat, lt⟩).map fun y => (⟨⟨index.toNat, lt⟩, y⟩ : Σ i, (alternatives i).Val))
        else fun _ => .error .unmatchedType) (s.left load)) := by
  unfold deserializeVariant Parser.andThen parseSize deserializeSize
  rw [direct_tryAdvance direct (by decide)]
  dsimp only
  rcases number_parses load valid direct s.level 8 (fun bytes => UInt64.ofNat (readWord f bytes))
    (UInt64.ofNat (2 ^ 64 - 1)) with ⟨short, parsed⟩ | ⟨index, t, read, parsed, found, valid, direct, -⟩
  · rw [short, parsed]
    exact ⟨nofun, x, s, rfl, Found.stay _ _ _⟩
  · rw [read, parsed]
    dsimp only
    unfold emplace
    by_cases lt : index.toNat < n + 1
    · rw [dif_pos lt, dif_pos lt]
      have value := ((inner ⟨index.toNat, lt⟩).part found valid direct).map
        (W := Σ i, (alternatives i).Val) fun _ y => ⟨⟨index.toNat, lt⟩, y⟩
      exact (value.lower (Nat.le_succ _)).behind found (Nat.le_refl _)
    · rw [dif_neg lt, dif_neg lt]
      exact ⟨nofun, x, t, rfl, found.level, found.below, nofun⟩

/-! ### Ranges -/

/-- The elements of a range are parsed one by one. -/
lemma parses_elements {p : ByteParser elem.Val} (inner : ParsesAs f load elem p)
    (insert : List elem.Val → elem.Val → List elem.Val) (count : Nat) (x : List elem.Val) (valid : s.mbv.Valid)
    (direct : s.Direct) :
    Parses (s.level + 1) load s (deserializeElements elem insert f load count x s)
      (p.times insert count x (s.left load)) := by
  induction count generalizing x s with
  | zero => exact parses_ok valid direct _ x
  | succ count ih =>
    refine Parses.bind (Nat.le_refl _) (inner s valid direct) (fun y t found valid direct => ?_)
      fun code y t failed found => ?_
    · have level : t.level = s.level := found.level
      have rest := ih (insert x y) valid direct
      rwa [level] at rest
    · refine ⟨x, t, ?_, found.as x⟩
      dsimp only
      rw [if_neg failed]
      rfl

variable (f load) in
/-- The size of a range is read and registered. -/
lemma rangeSize_parses (valid : s.mbv.Valid) (direct : s.Direct) (x : List elem.Val) :
    (deserializeRangeSize elem f load x s = .ok (.bufferSizeLesser, 0, [], s) ∧
        parseSize f (s.left load) = .error .bufferSizeLesser) ∨
      ∃ size t, deserializeRangeSize elem f load x s = .ok (.none, size, [], t) ∧
        parseSize f (s.left load) = .ok (size, t.left load) ∧ Found s.level 0 s (.none, size, t) ∧ t.mbv.Valid ∧
        t.Direct ∧ t.registered t.level = s.registered s.level ++ [size] := by
  unfold deserializeRangeSize deserializeSize parseSize
  rw [direct_tryAdvance direct (by decide)]
  dsimp only
  rcases number_parses load valid direct (s.level + 1) 8 (fun bytes => UInt64.ofNat (readWord f bytes)) 0 with
    ⟨short, parsed⟩ | ⟨size, t, read, parsed, found, valid, direct, same⟩
  · rw [short, parsed]
    exact .inl ⟨rfl, rfl⟩
  · rw [read, parsed]
    have level : t.level = s.level := found.level
    have registers := (spent_registered valid (t.registered t.level ++ [size])).direct direct
    refine .inr ⟨size, t.registerValue size, rfl, rfl, ⟨level, fun l pos lt => ?_, found.passed⟩, valid, registers, ?_⟩
    · rw [← found.below l pos (Nat.lt_succ_of_lt lt)]
      exact Function.update_of_ne (by rw [level]; exact Nat.ne_of_lt lt) ..
    · rw [← level, ← same]
      exact Function.update_self ..

/-- A range is parsed as its size and its elements. -/
lemma parses_range {p : ByteParser elem.Val} (inner : ParsesAs f load elem p)
    (insert : List elem.Val → elem.Val → List elem.Val) (x : List elem.Val) (valid : s.mbv.Valid)
    (direct : s.Direct) :
    Parses s.level load s (deserializeRange elem insert f load x s) (parseRange f p insert (s.left load)) := by
  unfold deserializeRange parseRange Parser.andThen
  rcases rangeSize_parses f load valid direct x with
    ⟨short, parsed⟩ | ⟨size, t, read, parsed, found, valid, direct, -⟩
  · rw [short, parsed]
    exact ⟨nofun, [], s, rfl, Found.stay _ _ _⟩
  · rw [read, parsed]
    have level : t.level = s.level := found.level
    have rest := parses_elements inner insert size.toNat [] valid direct
    rw [level] at rest
    have all : (size - UInt64.ofNat ([] : List elem.Val).length).toNat = size.toNat :=
      congrArg UInt64.toNat (UInt64.sub_zero size)
    change Parses _ _ _ (deserializeElements elem insert f load _ [] t) _
    rw [all]
    exact (rest.lower (Nat.le_succ _)).behind found (Nat.le_refl _)

variable (load) in
/-- A registered number is replaced. -/
lemma update_parses (valid : s.mbv.Valid) (direct : s.Direct) {index : Nat}
    (there : index < (s.registered s.level).length) (value : UInt64) :
    ∃ t, s.updateValueAt value index = .ok t ∧ Found s.level 0 s (.none, (), t) ∧ t.mbv.Valid ∧ t.Direct ∧
      (t.registered t.level).length = (s.registered s.level).length ∧ t.left load = s.left load := by
  obtain ⟨t, updated, found, length⟩ := registered_update s index there value ()
  have spent := spent_updateValueAt valid updated
  refine ⟨t, updated, found, spent.valid, spent.direct direct, length, ?_⟩
  unfold updateValueAt at updated
  rw [List.getElem?_eq_getElem there] at updated
  cases updated
  rfl

/-- The elements of a forward list are put in front, and turned round at the end. -/
lemma parses_front {p : ByteParser elem.Val} (inner : ParsesAs f load elem p) (old : UInt64) (count : Nat)
    (x : List elem.Val) (valid : s.mbv.Valid) (direct : s.Direct) (inside : 0 < s.level)
    (both : 1 < (s.registered s.level).length) :
    Parses s.level load s
      (deserializeFront elem old f load count x s >>= fun outcome =>
        .ok (outcome.1, if outcome.1 = .none then outcome.2.1.reverse else outcome.2.1, outcome.2.2))
      (p.times pushBack count x.reverse (s.left load)) := by
  induction count generalizing x s with
  | zero => exact parses_ok valid direct _ x.reverse
  | succ count ih =>
    rw [deserializeFront, bind_assoc]
    refine Parses.bind (Nat.le_succ _) (inner s valid direct) (fun y t found valid direct => ?_)
      fun code y t failed found => ?_
    · have level : t.level = s.level := found.level
      have own : t.registered t.level = s.registered s.level := by
        rw [level]
        exact found.below s.level inside (Nat.lt_succ_self _)
      obtain ⟨u, updated, kept, valid, direct, length, left⟩ :=
        update_parses load valid direct (own ▸ both) (old + 1)
      have levelu : u.level = t.level := kept.level
      have rest := ih (y :: x) valid direct (by rw [levelu, level]; exact inside) (by rw [length, own]; exact both)
      rw [List.reverse_cons, left, levelu, level] at rest
      dsimp only
      rw [if_pos rfl, updated]
      exact rest.behind kept (Nat.le_of_eq level.symm)
    · refine ⟨x, t, ?_, found.fail (Nat.le_succ _) failed _⟩
      dsimp only
      rw [if_neg failed]
      exact congrArg (fun z => Except.ok (code, z, t)) (if_neg failed)

/-- A forward list is parsed as a range. -/
lemma parses_forwardList {p : ByteParser elem.Val} (inner : ParsesAs f load elem p) (x : List elem.Val)
    (valid : s.mbv.Valid) (direct : s.Direct) (inside : 0 < s.level) (unused : s.registered s.level = []) :
    Parses s.level load s (deserializeForwardList elem f load x s) (parseRange f p pushBack (s.left load)) := by
  unfold deserializeForwardList parseRange Parser.andThen
  rcases rangeSize_parses f load valid direct x with
    ⟨short, parsed⟩ | ⟨size, t, read, parsed, found, valid, direct, own⟩
  · rw [short, parsed]
    exact ⟨nofun, [], s, rfl, Found.stay _ _ _⟩
  · rw [read, parsed]
    have level : t.level = s.level := found.level
    rw [unused, List.nil_append] at own
    have one : t.registeredSize = 1 := congrArg List.length own
    let u := t.registerValue (UInt64.ofNat ([] : List elem.Val).length)
    have oldest : Work.frontOld ([] : List elem.Val) t = .ok (0, u) := if_pos one
    change Parses _ _ _ (deserializeFrontAll elem size f load [] t) _
    rw [deserializeFrontAll_eq, oldest]
    have registers :=
      (spent_registered valid (t.registered t.level ++ [UInt64.ofNat ([] : List elem.Val).length])).direct
      direct
    have two : (u.registered u.level).length = 2 := by
      change (Function.update t.registered t.level _ t.level).length = 2
      rw [Function.update_self, own]
      rfl
    have both : 1 < (u.registered u.level).length := by rw [two]; decide
    have inside' : 0 < u.level := level ▸ inside
    have kept : Found t.level 0 t (.none, (), u) :=
      ⟨rfl, fun l _ lt => Function.update_of_ne (Nat.ne_of_lt lt) .., fun _ => Nat.le_refl _⟩
    have rest := parses_front inner 0 (size - 0).toNat [] (s := u) valid registers inside' both
    have all : (size - 0).toNat = size.toNat := congrArg UInt64.toNat (UInt64.sub_zero size)
    dsimp only
    rw [all] at rest ⊢
    have behind := rest.behind kept (Nat.le_refl _)
    rw [level] at behind
    exact behind.behind found (Nat.le_refl _)

/-! ### Arrays -/

/-- The next element is set. -/
lemma itemsOf_pushBack {init item : elem.Val} {n : Nat} {xs : List elem.Val} (lt : xs.length < n) :
    itemsOf init n (pushBack xs item) = Function.update (itemsOf init n xs) ⟨xs.length, lt⟩ item := by
  funext i
  unfold itemsOf pushBack
  by_cases here : i = ⟨xs.length, lt⟩
  · rw [here, Function.update_self, List.getD_eq_getElem?_getD, List.getElem?_concat_length]
    rfl
  · rw [Function.update_of_ne here]
    have other : (i : Nat) ≠ xs.length := fun same => here (Fin.ext same)
    rcases Nat.lt_or_gt_of_ne other with before | behind
    · rw [List.getD_append _ _ _ _ before]
    · rw [List.getD_eq_default _ _ (Nat.le_of_lt behind), List.getD_eq_default]
      rw [List.length_append, List.length_singleton]
      exact behind

/-- The items of an array are parsed one by one. -/
lemma parses_items {p : ByteParser elem.Val} (inner : ParsesAs f load elem p) (remain : UInt64) {n : Nat}
    (count : Nat) (xs : List elem.Val) (all : xs.length + count = n) (valid : s.mbv.Valid) (direct : s.Direct)
    (inside : 0 < s.level) (some : 0 < (s.registered s.level).length) :
    Parses s.level load s
      (deserializeItems elem remain f load count xs.length (itemsOf elem.init n xs) s)
      ((p.times pushBack count xs).map (itemsOf elem.init n) (s.left load)) := by
  induction count generalizing xs s with
  | zero => exact parses_ok valid direct _ _
  | succ count ih =>
    have lt : xs.length < n := by omega
    have next : itemsOf elem.init n xs ⟨xs.length, lt⟩ = elem.init :=
      List.getD_eq_default _ _ (Nat.le_refl _)
    rw [deserializeItems, dif_pos lt, next, Parser.times, Parser.andThen_map]
    refine Parses.bind (Nat.le_succ _) (inner s valid direct) (fun y t found valid direct => ?_)
      fun code y t failed found => ?_
    · have level : t.level = s.level := found.level
      have own : t.registered t.level = s.registered s.level := by
        rw [level]
        exact found.below s.level inside (Nat.lt_succ_self _)
      obtain ⟨u, updated, kept, valid, direct, length, left⟩ :=
        update_parses load valid direct (own ▸ some) (remain - 1)
      have levelu : u.level = t.level := kept.level
      have more : (pushBack xs y).length + count = n := by
        unfold pushBack
        rw [List.length_append, List.length_singleton]
        omega
      have rest := ih (pushBack xs y) more valid direct (by rw [levelu, level]; exact inside)
        (by rw [length, own]; exact some)
      have behind : (pushBack xs y).length = xs.length + 1 := List.length_append
      rw [behind, itemsOf_pushBack lt, left, levelu, level] at rest
      dsimp only
      rw [updated]
      exact rest.behind kept (Nat.le_of_eq level.symm)
    · have level : t.level = s.level := found.level
      have own : t.registered t.level = s.registered s.level := by
        rw [level]
        exact found.below s.level inside (Nat.lt_succ_self _)
      obtain ⟨u, updated, kept, -⟩ := registered_update t 0 (own ▸ some) (remain - 1) ()
      refine ⟨Function.update (itemsOf elem.init n xs) ⟨xs.length, lt⟩ y, u, ?_, kept.level.trans level,
        fun l pos below => ?_, fun none => absurd none failed⟩
      · dsimp only
        rw [updated]
        change (if code = .none then _ else _) = _
        rw [if_neg failed]
        rfl
      · exact (kept.below l pos (level.symm ▸ below)).trans (found.below l pos (Nat.lt_succ_of_lt below))

/-- An array is parsed as its items. -/
lemma parses_array {p : ByteParser elem.Val} (inner : ParsesAs f load elem p) {n : Nat} (small : n < 2 ^ 64)
    (valid : s.mbv.Valid) (direct : s.Direct) (inside : 0 < s.level) (unused : s.registered s.level = []) :
    Parses s.level load s (deserializeArray elem n f load (fun _ => elem.init) s)
      ((p.times pushBack n []).map (itemsOf elem.init n) (s.left load)) := by
  let t := s.registerValue (UInt64.ofNat n)
  have whole : Work.arrayRemain n s = .ok (UInt64.ofNat n, t) := by
    unfold Work.arrayRemain registeredSize
    rw [unused]
    rfl
  have registers := (spent_registered valid (s.registered s.level ++ [UInt64.ofNat n])).direct direct
  have own : t.registered t.level = [UInt64.ofNat n] := by
    change Function.update s.registered s.level _ s.level = _
    rw [Function.update_self, unused]
    rfl
  have kept : Found s.level 0 s (.none, (), t) :=
    ⟨rfl, fun l _ lt => Function.update_of_ne (Nat.ne_of_lt lt) .., fun _ => Nat.le_refl _⟩
  have items := parses_items inner (UInt64.ofNat n) n [] (Nat.zero_add n) (s := t) valid registers inside
    (by rw [own]; exact Nat.one_pos)
  have begin : (UInt64.ofNat n - UInt64.ofNat n).toNat = 0 := congrArg UInt64.toNat (UInt64.sub_self _)
  have count : (UInt64.ofNat n).toNat - 0 = n := UInt64.toNat_ofNat_of_lt' small
  rw [deserializeArray_eq, whole]
  dsimp only
  rw [begin, count]
  exact items.behind kept (Nat.le_refl _)

/-- Every type is decoded as its shape is parsed. -/
lemma Shape.parsesAs (f : Format) (load : α → Byte) {o : SerialType} (shape : Shape o) :
    ParsesAs f load o (shape.parse f) := by
  induction shape with
  | word n => exact fun s valid direct => parses_number valid direct _ n _ _
  | bool => exact fun s valid direct => parses_number valid direct _ 1 _ _
  | duration n toNanoseconds ofNanoseconds =>
    exact .nested (fun _ _ => rfl) fun s valid direct _ _ => parses_duration ofNanoseconds _ valid direct
  | empty => exact .nested (fun _ _ => rfl) fun s valid direct _ _ => parses_ok valid direct _ ()
  | pair first second first_ih second_ih =>
    exact .nested (fun _ _ => rfl) fun s valid direct _ _ => parses_pair first_ih second_ih valid direct
  | optional inner ih => exact .nested (fun _ _ => rfl) fun s valid direct _ _ => parses_maybe ih rfl valid direct
  | pointer inner ih => exact .nested (fun _ _ => rfl) fun s valid direct _ _ => parses_maybe ih rfl valid direct
  | variant inner ih => exact .nested (fun _ _ => rfl) fun s valid direct _ _ => parses_variant ih _ valid direct
  | sequence inner ih =>
    exact .nested (fun _ _ => rfl) fun s valid direct _ _ => parses_range ih pushBack [] valid direct
  | associative keys inner ih =>
    exact .nested (fun _ _ => rfl) fun s valid direct _ _ => parses_range ih keys.insert [] valid direct
  | forwardList inner ih =>
    exact .nested (fun _ _ => rfl) fun s valid direct inside unused =>
      parses_forwardList ih [] valid direct inside unused
  | array small inner ih =>
    exact .nested (fun _ _ => rfl) fun s valid direct inside unused =>
      parses_array ih small valid direct inside unused

end shapes

/-! ## Runs -/

section runs
variable {α : Type} {load : α → Byte} {s : StreamSerializer α} {o : SerialType} {pushed : Nat}

/-- However a serializer was fed and used before, a decode that repeats none ends as the parser does on the bytes that
    are left, which may be any: in the same value with the same bytes behind it, or in the same code. No lookup of a
    registered size fails. -/
theorem deserialize_parses (reached : Reached load pushed true s) (shape : Shape o) (f : Format) :
    match shape.parse f (s.left load) with
    | .ok (y, rest) => ∃ t, o.deserialize f load o.init s = .ok (.none, y, t) ∧ t.left load = rest
    | .error code => code ≠ .none ∧ ∃ y t, o.deserialize f load o.init s = .ok (code, y, t) := by
  have steady := reached.steady
  have parses := shape.parsesAs f load s steady.valid (steady.direct rfl).1
  cases parsed : shape.parse f (s.left load) with
  | ok outcome =>
    rw [parsed] at parses
    obtain ⟨t, run, _, _, _, left⟩ := parses
    exact ⟨t, run, left⟩
  | error code =>
    rw [parsed] at parses
    obtain ⟨failed, y, t, run, _⟩ := parses
    exact ⟨failed, y, t, run⟩

/-- A list of one optional, in three spans, whose flag is neither zero nor one. -/
theorem deserialize_parses_flag :
    ∃ t, (sequence (optional (word 2))).deserialize ⟨false, true⟩ id []
        (([[1, 0, 0], [0, 0, 0, 0, 0, 7, 5], [0, 9]] : List (List Byte)).foldl pushView {}) =
      .ok (.none, [some (5 : BitVec 16)], t) ∧ t.left id = [9] := by
  have reached :
      Reached id 12 true (([[1, 0, 0], [0, 0, 0, 0, 0, 7, 5], [0, 9]] : List (List Byte)).foldl pushView {}) :=
    .push [0, 9] (.push [0, 0, 0, 0, 0, 7, 5] (.push [1, 0, 0] .start))
  exact deserialize_parses reached (.sequence (.optional (.word 2))) ⟨false, true⟩

end runs
end OsterLib.Serialization
