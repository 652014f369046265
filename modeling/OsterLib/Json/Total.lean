import OsterLib.Json.Settings

/-!
# What the decoders return on

A decoder returns on a value, with a result or an unexpected one, or a fault escapes from it: an exception, or
an index behind the end of an array. For every target it is said which values are safe, from their kinds, the
ranges of their numbers, and the sizes of their arrays. Where a decoder goes on behind a part only if that part
is accepted, the parts behind need not be safe otherwise.

A `Verdict` relates one outcome to the two conditions. Each template of a decoder has a rule for it
(`from_json_returns_iff`).
-/

namespace OsterLib.Json
open OsterLib.Types

/-- A fault that no `catch` clause of the decoders takes. -/
def Uncaught (fault : Fault) : Prop :=
  fault ≠ .thrown .invalidArgument ∧ fault ≠ .thrown .outOfRange

/-- `std::system_error` is not caught. -/
lemma uncaught_systemError : Uncaught (.thrown .systemError) := ⟨nofun, nofun⟩

/-- Reading out of bounds is not caught. -/
lemma uncaught_outOfBounds : Uncaught .outOfBounds := ⟨nofun, nofun⟩

/-- The outcome is returned exactly if it is safe, and is a result exactly if it is accepted too. -/
structure Verdict {α : Type} (outcome : Outcome α) (safe accepts : Prop) : Prop where
  accepted : safe → accepts → ∃ x, outcome = .ok (some x)
  rejected : safe → ¬accepts → outcome = .ok none
  escaped : ¬safe → ∃ fault, Uncaught fault ∧ outcome = .error fault

/-- A decoder returns exactly on some values, and succeeds on some of these. -/
def Decides {α : Type} (decode : Decoder α) (Safe Accepts : Value → Prop) : Prop :=
  ∀ value, Verdict (decode value) (Safe value) (Accepts value)

namespace Verdict
variable {α β : Type} {outcome : Outcome α} {safe accepts safe' accepts' : Prop}

/-- A value is returned. -/
lemma some (x : α) : Verdict (.ok (some x)) True True :=
  ⟨fun _ _ => ⟨x, rfl⟩, fun _ wrong => absurd trivial wrong, fun off => absurd trivial off⟩

/-- The value is refused. -/
lemma none : Verdict (.ok none : Outcome α) True False :=
  ⟨fun _ wrong => absurd wrong id, fun _ _ => rfl, fun off => absurd trivial off⟩

/-- A fault that is not caught does not return. -/
lemma error {fault : Fault} (uncaught : Uncaught fault) (accepts : Prop) :
    Verdict (.error fault : Outcome α) False accepts :=
  ⟨fun wrong => absurd wrong id, fun wrong => absurd wrong id, fun _ => ⟨fault, uncaught, rfl⟩⟩

/-- The conditions may be stated otherwise. -/
lemma congr (verdict : Verdict outcome safe accepts) (safely : safe ↔ safe')
    (accepting : safe → (accepts ↔ accepts')) : Verdict outcome safe' accepts' := by
  rw [← safely]
  exact ⟨fun here there => verdict.accepted here ((accepting here).2 there),
    fun here off => verdict.rejected here fun there => off ((accepting here).1 there), verdict.escaped⟩

/-- A result that is returned in another form. -/
lemma map (verdict : Verdict outcome safe accepts) (f : α → β) :
    Verdict (outcome.map (Option.map f)) safe accepts := by
  refine ⟨fun here there => ?_, fun here off => ?_, fun off => ?_⟩
  · obtain ⟨x, rfl⟩ := verdict.accepted here there
    exact ⟨f x, rfl⟩
  · rw [verdict.rejected here off]
    rfl
  · obtain ⟨fault, uncaught, rfl⟩ := verdict.escaped off
    exact ⟨fault, uncaught, rfl⟩

/-- A part that is decoded if the one before it is accepted. -/
lemma andThen {next : α → Outcome β} (first : Verdict outcome safe accepts)
    (second : ∀ x, Verdict (next x) safe' accepts') :
    Verdict (match outcome with
      | .error fault => .error fault
      | .ok .none => .ok .none
      | .ok (.some x) => next x) (safe ∧ (accepts → safe')) (accepts ∧ accepts') := by
  constructor
  · intro here there
    obtain ⟨x, rfl⟩ := first.accepted here.1 there.1
    exact (second x).accepted (here.2 there.1) there.2
  · intro here off
    by_cases there : accepts
    · obtain ⟨x, rfl⟩ := first.accepted here.1 there
      exact (second x).rejected (here.2 there) fun both => off ⟨there, both⟩
    · rw [first.rejected here.1 there]
  · intro off
    by_cases here : safe
    · obtain ⟨there, later⟩ := Classical.not_imp.1 fun next => off ⟨here, next⟩
      obtain ⟨x, rfl⟩ := first.accepted here there
      exact (second x).escaped later
    · obtain ⟨fault, uncaught, rfl⟩ := first.escaped here
      exact ⟨fault, uncaught, rfl⟩

/-- The outcome is returned. -/
lemma returns_iff (verdict : Verdict outcome safe accepts) : (∃ result, outcome = .ok result) ↔ safe := by
  constructor
  · rintro ⟨result, rfl⟩
    refine Classical.byContradiction fun off => ?_
    obtain ⟨fault, _, escaped⟩ := verdict.escaped off
    cases escaped
  · intro here
    by_cases there : accepts
    · obtain ⟨x, run⟩ := verdict.accepted here there
      exact ⟨_, run⟩
    · exact ⟨_, verdict.rejected here there⟩

/-- A `catch` clause that takes none of the faults. -/
lemma catching (verdict : Verdict outcome safe accepts) {caught : Exception}
    (other : ∀ fault, Uncaught fault → fault ≠ .thrown caught) :
    Verdict (catching caught outcome) safe accepts := by
  have same : Json.catching caught outcome = outcome := by
    rcases outcome with (exception | _) | _
    · refine if_neg fun equal => ?_
      have off : ¬safe := fun here => by
        obtain ⟨result, returned⟩ := verdict.returns_iff.2 here
        cases returned
      obtain ⟨fault, uncaught, escaped⟩ := verdict.escaped off
      obtain rfl := Except.error.inj escaped
      exact other _ uncaught (congrArg _ equal)
    · rfl
    · rfl
  rwa [same]

end Verdict

/-! ## Numbers and strings -/

/-- An integer passes the check of the decoder. -/
def Offered (t : Integral) : Value → Prop
  | .int64 n => t.signed = true ∨ 0 ≤ n.toInt
  | .uint64 n => t.signed = false ∨ n.toNat < 2 ^ 63 - 1
  | _ => False

/-- An integer that passes the check of the decoder is in the range of the type. -/
def Fits (t : Integral) : Value → Prop
  | .int64 n => t.signed = true ∨ 0 ≤ n.toInt → t.Holds n.toInt
  | .uint64 n => t.signed = false ∨ n.toNat < 2 ^ 63 - 1 → t.Holds n.toNat
  | _ => True

/-- A number that is converted if it passes a check. -/
lemma verdict_integral {t : Integral} {n : Int} {check : Bool} {offered : Prop}
    (checked : check = true ↔ offered) :
    Verdict (if check then (toNumber t n).map some else .ok none) (offered → t.Holds n) offered := by
  cases check with
  | false =>
    have off : ¬offered := fun wrong => Bool.false_ne_true (checked.2 wrong)
    exact Verdict.none.congr (iff_of_true trivial fun wrong => absurd wrong off) fun _ => iff_of_false id off
  | true =>
    have here : offered := checked.1 rfl
    rw [if_pos rfl]
    unfold toNumber
    split
    · next holds =>
      exact (Verdict.some _).congr (iff_of_true trivial fun _ => holds) fun _ => iff_of_true trivial here
    · next off =>
      exact (Verdict.error uncaught_systemError offered).congr (iff_of_false id fun fits => off (fits here))
          fun wrong => absurd wrong id

/-- An integer is decided by its kind and its range. -/
lemma decides_integral (t : Integral) : Decides (FromJson.integral t) (Fits t) (Offered t) := by
  intro value
  cases value with
  | int64 n => exact verdict_integral (by rw [Bool.or_eq_true, decide_eq_true_iff])
  | uint64 n => exact verdict_integral (by rw [Bool.or_eq_true, decide_eq_true_iff, Bool.not_eq_true'])
  | _ => exact Verdict.none

/-- Numbers of 64 bits are in the range. -/
lemma fits_int64 (value : Value) : Fits .int64 value := by
  cases value with
  | int64 n =>
    have low := n.le_toInt
    have high := n.toInt_lt
    exact fun _ => ⟨low, Int.le_sub_one_of_lt high⟩
  | uint64 n =>
    rintro (wrong | small)
    · exact absurd wrong (by decide)
    · constructor
      · show (-2 ^ 63 : Int) ≤ n.toNat
        omega
      · show (n.toNat : Int) ≤ 2 ^ 63 - 1
        omega
  | _ => exact trivial

/-- A JSON `bool` -/
def IsBool : Value → Prop
  | .bool _ => True
  | _ => False

/-- A `bool` is decided by its kind. -/
lemma decides_bool : Decides FromJson.bool (fun _ => True) IsBool := by
  intro value
  cases value with
  | bool b => exact Verdict.some b
  | _ => exact Verdict.none

/-- A JSON `double` -/
def IsDouble : Value → Prop
  | .double _ => True
  | _ => False

/-- Where the decoder of a number returns -/
def NumericSafe : Numeric → Value → Prop
  | .float | .double | .bool => fun _ => True
  | .integral t => Fits t

/-- Where the decoder of a number succeeds -/
def NumericAccepts : Numeric → Value → Prop
  | .float | .double => IsDouble
  | .bool => IsBool
  | .integral t => Offered t

/-- A number is decided by its kind and its range. -/
lemma decides_numeric (narrow : BitVec 64 → BitVec 32) (t : Numeric) :
    Decides (FromJson.numeric narrow t) (NumericSafe t) (NumericAccepts t) := by
  cases t with
  | float =>
    intro value
    cases value with
    | double bits => exact Verdict.some (narrow bits)
    | _ => exact Verdict.none
  | double =>
    intro value
    cases value with
    | double bits => exact Verdict.some bits
    | _ => exact Verdict.none
  | bool => exact decides_bool
  | integral t => exact decides_integral t

/-- A JSON string -/
def IsString : Value → Prop
  | .string _ => True
  | _ => False

/-- A string is decided by its kind. -/
lemma decides_string : Decides FromJson.string (fun _ => True) IsString := by
  intro value
  cases value with
  | string s => exact Verdict.some s
  | _ => exact Verdict.none

/-! ## Optionals, pairs and ranges -/

section templates
variable {α β : Type} {first decode : Decoder α} {second : Decoder β}
variable {Safe Accepts Safe' Accepts' : Value → Prop}

/-- Where the decoder of an optional returns -/
def OptionalSafe (Safe : Value → Prop) : Value → Prop
  | .null => True
  | value => Safe value

/-- Where the decoder of an optional succeeds: not on `null` -/
def OptionalAccepts (Accepts : Value → Prop) : Value → Prop
  | .null => False
  | value => Accepts value

/-- An optional is decided by its value. -/
lemma decides_optional (inner : Decides decode Safe Accepts) :
    Decides (FromJson.optional decode) (OptionalSafe Safe) (OptionalAccepts Accepts) := by
  intro value
  cases value with
  | null => exact Verdict.none
  | _ =>
    refine ((inner _).andThen fun x => Verdict.some (some x)).congr ⟨And.left, fun here => ⟨here, ?_⟩⟩
      fun _ => ⟨And.left, fun here => ⟨here, trivial⟩⟩
    exact fun _ => trivial

/-- An empty array has no first element, and an array of one no second one. -/
def PairSafe (Safe Accepts Safe' : Value → Prop) : Value → Prop
  | .array [] => False
  | .array [x] => Safe x ∧ ¬Accepts x
  | .array [x, y] => Safe x ∧ (Accepts x → Safe' y)
  | _ => True

/-- Where the decoder of a pair succeeds -/
def PairAccepts (Accepts Accepts' : Value → Prop) : Value → Prop
  | .array [x, y] => Accepts x ∧ Accepts' y
  | _ => False

/-- A pair is decided by its two values. -/
lemma decides_pair (here : Decides first Safe Accepts) (there : Decides second Safe' Accepts') :
    Decides (FromJson.pair first second) (PairSafe Safe Accepts Safe') (PairAccepts Accepts Accepts') := by
  intro value
  match value with
  | .array [] => exact Verdict.error uncaught_outOfBounds _
  | .array [x] =>
    exact ((here x).andThen fun _ => Verdict.error uncaught_outOfBounds True).congr Iff.rfl
      fun safe => iff_of_false (fun wrong => safe.2 wrong.1) id
  | .array [x, y] =>
    exact ((here x).andThen fun a => (there y).andThen fun b => Verdict.some (a, b)).congr
      (and_congr_right fun _ => imp_congr_right fun _ => ⟨And.left, fun safe => ⟨safe, fun _ => trivial⟩⟩)
      fun _ => and_congr_right fun _ => and_iff_left trivial
  | .array (_ :: _ :: _ :: _) => exact Verdict.none
  | .null | .bool _ | .int64 _ | .uint64 _ | .double _ | .string _ | .object _ => exact Verdict.none

/-- Each element is safe, as far as all before it are accepted. -/
def Sequentially (Safe Accepts : Value → Prop) : List Value → Prop
  | [] => True
  | item :: items => Safe item ∧ (Accepts item → Sequentially Safe Accepts items)

/-- Where the decoder of a range returns -/
def RangeSafe (Safe Accepts : Value → Prop) : Value → Prop
  | .array items => Sequentially Safe Accepts items
  | _ => True

/-- Where the decoder of a range succeeds -/
def RangeAccepts (Accepts : Value → Prop) : Value → Prop
  | .array items => ∀ item ∈ items, Accepts item
  | _ => False

/-- The elements are decided one by one. -/
lemma verdict_elements (inner : Decides decode Safe Accepts) (items : List Value) (result : List α) :
    Verdict (FromJson.elements decode items result) (Sequentially Safe Accepts items)
      (∀ item ∈ items, Accepts item) := by
  induction items generalizing result with
  | nil => exact (Verdict.some result).congr Iff.rfl fun _ => iff_of_true trivial nofun
  | cons item items ih =>
    exact ((inner item).andThen fun x => ih (result ++ [x])).congr Iff.rfl
      fun _ => List.forall_mem_cons.symm

/-- A range is decided by its elements. -/
lemma decides_range (inner : Decides decode Safe Accepts) :
    Decides (FromJson.range decode) (RangeSafe Safe Accepts) (RangeAccepts Accepts) := by
  intro value
  cases value with
  | array items => exact verdict_elements inner items []
  | _ => exact Verdict.none

end templates

/-! ## Records -/

/-- The decoder returns on the member, where there is one. -/
def MemberSafe (members : List (String × Value)) (key : String) (Safe : Value → Prop) : Prop :=
  ∀ value, find members key = some value → Safe value

/-- The members of a record that keeps its defaults. -/
def ReadSafe (members : List (String × Value)) : List (String × (Value → Prop)) → Prop
  | [] => True
  | (key, Safe) :: later => MemberSafe members key Safe ∧ ReadSafe members later

/-- The members of a record that ends with the first one it does not accept. -/
def NeedSafe (members : List (String × Value)) : List (String × (Value → Prop) × (Value → Prop)) → Prop
  | [] => True
  | (key, Safe, Accepts) :: later =>
    MemberSafe members key Safe ∧ (MemberSafe members key Accepts → NeedSafe members later)

/-- Every member that is needed is accepted, where there is one. -/
def NeedAccepts (members : List (String × Value)) : List (String × (Value → Prop) × (Value → Prop)) → Prop
  | [] => True
  | (key, _, Accepts) :: later => MemberSafe members key Accepts ∧ NeedAccepts members later

section records
variable {S α : Type} {members : List (String × Value)} {key : String} {decode : Decoder α} {store : S → α → S}
variable {Safe Accepts : Value → Prop} {safe accepts : Prop}

/-- A member that is there decides. -/
lemma memberSafe_some {value : Value} (found : find members key = some value) :
    MemberSafe members key Safe ↔ Safe value :=
  ⟨fun all => all value found, fun here _ same => (Option.some.inj (found.symm.trans same)) ▸ here⟩

/-- A member that is missing is safe. -/
lemma memberSafe_none (missing : find members key = none) : MemberSafe members key Safe :=
  fun _ found => absurd (missing.symm.trans found) nofun

/-- A member that is needed decides. -/
lemma verdict_needMember (inner : Decides decode Safe Accepts) (s : S) :
    Verdict (needMember members key decode store s) (MemberSafe members key Safe)
      (MemberSafe members key Accepts) := by
  unfold needMember
  cases found : find members key with
  | none =>
    exact (Verdict.some s).congr (iff_of_true trivial (memberSafe_none found))
      fun _ => iff_of_true trivial (memberSafe_none found)
  | some value =>
    rw [memberSafe_some found, memberSafe_some found]
    exact ((inner value).andThen fun x => Verdict.some (store s x)).congr
      ⟨And.left, fun here => ⟨here, fun _ => trivial⟩⟩ fun _ => and_iff_left trivial

/-- A member that is read changes at most the result. -/
lemma verdict_readMember (inner : Decides decode Safe Accepts) (s : S) :
    Verdict (readMember members key decode store s) (MemberSafe members key Safe) True := by
  unfold readMember
  cases found : find members key with
  | none => exact (Verdict.some s).congr (iff_of_true trivial (memberSafe_none found)) fun _ => Iff.rfl
  | some value =>
    rw [memberSafe_some found]
    dsimp only
    by_cases here : Safe value
    · by_cases there : Accepts value
      · obtain ⟨x, run⟩ := (inner value).accepted here there
        rw [run]
        exact (Verdict.some _).congr (iff_of_true trivial here) fun _ => Iff.rfl
      · rw [(inner value).rejected here there]
        exact (Verdict.some _).congr (iff_of_true trivial here) fun _ => Iff.rfl
    · obtain ⟨fault, uncaught, run⟩ := (inner value).escaped here
      rw [run]
      exact (Verdict.error uncaught True).congr (iff_of_false id here) fun wrong => absurd wrong id

/-- The part at the head of the steps, and what follows. -/
lemma verdict_steps {step : Step S} {later : List (Step S)} {safe' accepts' : Prop} {s : S}
    (first : Verdict (step s) safe accepts) (rest : ∀ s, Verdict (steps later s) safe' accepts') :
    Verdict (steps (step :: later) s) (safe ∧ (accepts → safe')) (accepts ∧ accepts') :=
  first.andThen rest

/-- Members are read one behind the other. -/
lemma verdict_reads {later : List (Step S)} {parts : List (String × (Value → Prop))}
    (inner : Decides decode Safe Accepts) (rest : ∀ s, Verdict (steps later s) (ReadSafe members parts) True)
    (s : S) :
    Verdict (steps (readMember members key decode store :: later) s) (ReadSafe members ((key, Safe) :: parts))
      True :=
  (verdict_steps (verdict_readMember inner s) rest).congr
    (and_congr_right fun _ => ⟨fun here => here trivial, fun here _ => here⟩) fun _ => and_iff_left trivial

/-- Members are needed one behind the other. -/
lemma verdict_needs {later : List (Step S)} {parts : List (String × (Value → Prop) × (Value → Prop))}
    (inner : Decides decode Safe Accepts)
    (rest : ∀ s, Verdict (steps later s) (NeedSafe members parts) (NeedAccepts members parts)) (s : S) :
    Verdict (steps (needMember members key decode store :: later) s)
      (NeedSafe members ((key, Safe, Accepts) :: parts)) (NeedAccepts members ((key, Safe, Accepts) :: parts)) :=
  verdict_steps (verdict_needMember inner s) rest

/-- Nothing more is read. -/
lemma reads_end (members : List (String × Value)) (s : S) : Verdict (steps [] s) (ReadSafe members []) True :=
  Verdict.some s

/-- Nothing more is needed. -/
lemma needs_end (members : List (String × Value)) (s : S) :
    Verdict (steps [] s) (NeedSafe members []) (NeedAccepts members []) := Verdict.some s

end records

/-- A JSON object -/
def IsObject : Value → Prop
  | .object _ => True
  | _ => False

/-- `null` passes the check. -/
def LingerSafe : Value → Prop
  | .null => False
  | .object members => MemberSafe members "duration(sec)" (Fits .int32)
  | _ => True

/-- `linger` is decided by its members. -/
lemma decides_linger : Decides FromJson.linger LingerSafe IsObject := by
  intro value
  cases value with
  | null => exact Verdict.error uncaught_systemError False
  | object members =>
    exact (verdict_reads decides_bool (verdict_reads (decides_integral .int32) (reads_end _)) _).congr
      ⟨fun here => here.2.1, fun here => ⟨fun _ _ => trivial, here, trivial⟩⟩ fun _ => Iff.rfl
  | _ => exact Verdict.none

/-- Where the decoder of `timeval` returns -/
def TimevalSafe : Value → Prop
  | .null => False
  | _ => True

/-- `timeval` is decided by its kind. -/
lemma decides_timeval : Decides FromJson.timeval TimevalSafe IsObject := by
  intro value
  cases value with
  | null => exact Verdict.error uncaught_systemError False
  | object members =>
    exact (verdict_reads (decides_integral .int64) (verdict_reads (decides_integral .int64) (reads_end _)) _).congr
      (iff_of_true ⟨fun value _ => fits_int64 value, fun value _ => fits_int64 value, trivial⟩ trivial)
      fun _ => Iff.rfl
  | _ => exact Verdict.none

/-! ## Periods -/

/-- The value is an object with a whole number at the key. -/
def HasCount (value : Value) (key : String) : Prop :=
  ∃ members n, value = .object members ∧ find members key = some (.int64 n)

/-- Every count is there: what is thrown otherwise is not caught. -/
def PeriodSafe (value : Value) : Prop :=
  HasCount value "years" ∧ HasCount value "months" ∧ HasCount value "days" ∧ HasCount value "hours" ∧
    HasCount value "minutes" ∧ HasCount value "seconds"

/-- An access of the value, which throws where it does not match. -/
structure Accesses {α : Type} (access : Except Fault α) (matching : Prop) : Prop where
  matched : matching → ∃ x, access = .ok x
  thrown : ¬matching → access = .error (.thrown .systemError)

namespace Accesses
variable {α β : Type} {access : Except Fault α} {matching matching' : Prop}

/-- Both accesses are made. -/
lemma bind {next : α → Except Fault β} (first : Accesses access matching)
    (second : ∀ x, Accesses (next x) matching') : Accesses (access >>= next) (matching ∧ matching') := by
  constructor
  · rintro ⟨here, there⟩
    obtain ⟨x, rfl⟩ := first.matched here
    exact (second x).matched there
  · intro off
    by_cases here : matching
    · obtain ⟨x, rfl⟩ := first.matched here
      exact (second x).thrown fun there => off ⟨here, there⟩
    · rw [first.thrown here]
      rfl

/-- The result of an access is changed. -/
lemma map (next : α → β) (first : Accesses access matching) :
    Accesses (access >>= fun x => pure (next x)) matching := by
  constructor
  · intro here
    obtain ⟨x, rfl⟩ := first.matched here
    exact ⟨next x, rfl⟩
  · intro off
    rw [first.thrown off]
    rfl

end Accesses

/-- A count is accessed. -/
lemma accesses_count (value : Value) (key : String) : Accesses (value.count key) (HasCount value key) := by
  cases value with
  | object members =>
    have run : (Value.object members).count key =
        (find members key).elim (.error (.thrown .systemError)) Value.asInt64 := by
      unfold Value.count Value.member Value.asObject
      simp only [bind, Except.bind]
      cases find members key <;> rfl
    have has : HasCount (.object members) key ↔ ∃ n, find members key = some (.int64 n) :=
      ⟨by rintro ⟨_, n, same, found⟩; exact ⟨n, Value.object.inj same ▸ found⟩,
        by rintro ⟨n, found⟩; exact ⟨members, n, rfl, found⟩⟩
    rw [run, has]
    rcases find members key with _ | ⟨_ | _ | n | _ | _ | _ | _ | _⟩
    case some.int64 => exact ⟨fun _ => ⟨n, rfl⟩, fun off => absurd ⟨n, rfl⟩ off⟩
    all_goals
      refine ⟨?_, fun _ => rfl⟩
      rintro ⟨_, wrong⟩
      cases wrong
  | _ =>
    refine ⟨?_, fun _ => rfl⟩
    rintro ⟨_, _, same, _⟩
    cases same

/-- A period is decided by its counts. -/
lemma decides_timePeriod : Decides FromJson.timePeriod PeriodSafe (fun _ => True) := by
  intro value
  have counts := fun key => accesses_count value key
  have period := (counts "years").bind fun years => (counts "months").bind fun months =>
    (counts "days").bind fun days => (counts "hours").bind fun hours => (counts "minutes").bind fun minutes =>
      (counts "seconds").map fun seconds : Int64 =>
        ({ years, months, days, hours, minutes, seconds } : TimePeriod)
  by_cases safe : PeriodSafe value
  · obtain ⟨x, run⟩ := period.matched safe
    unfold FromJson.timePeriod
    rw [run]
    exact (Verdict.some x).congr (iff_of_true trivial safe) fun _ => Iff.rfl
  · unfold FromJson.timePeriod
    rw [period.thrown safe]
    exact (Verdict.error uncaught_systemError True).congr (iff_of_false id safe) fun wrong => absurd wrong id

/-- A text that `sscanf` stores all six numbers of. -/
def IsDateTime : Value → Prop
  | .string s => (scan dateTimeFormat (cString s)).length = 6
  | _ => False

/-- A difference is decided by its text. -/
lemma decides_dateTimeDiff : Decides FromJson.dateTimeDiff (fun _ => True) IsDateTime := by
  intro value
  cases value with
  | string s =>
    unfold FromJson.dateTimeDiff IsDateTime
    dsimp only
    rcases scan dateTimeFormat (cString s) with
      _ | ⟨_, _ | ⟨_, _ | ⟨_, _ | ⟨_, _ | ⟨_, _ | ⟨_, _ | _⟩⟩⟩⟩⟩⟩
    case string.cons.cons.cons.cons.cons.cons.nil =>
      exact (Verdict.some _).congr Iff.rfl fun _ => iff_of_true trivial rfl
    all_goals
      refine Verdict.none.congr Iff.rfl fun _ => iff_of_false id ?_
      intro six
      cases six
  | _ => exact Verdict.none

/-! ## Network -/

/-- The text of a member, which is empty by default. -/
def textOf : Option Value → String
  | some (.string s) => s
  | _ => ""

/-- A number as a port, or zero where it is none -/
def portOf (n : Int) : Port := if holds : Integral.uint16.Holds n then ⟨n, holds⟩ else ⟨0, Integral.holds_zero _⟩

/-- The port of a member, which is zero by default. -/
def portOfMember : Option Value → Port
  | some (.int64 n) => portOf n.toInt
  | some (.uint64 n) => portOf n.toNat
  | _ => ⟨0, Integral.holds_zero _⟩

/-- Where the decoder of an address returns -/
def AddressSafe : Value → Prop
  | .object members => MemberSafe members "port" (Fits .uint16)
  | _ => True

/-- `inet_pton` knows the host, unless neither a host nor a port is given. -/
def AddressAccepts (platform : Platform) : Value → Prop
  | .object members =>
    (portOfMember (find members "port")).val ≠ 0 ∨ textOf (find members "host") ≠ "" →
      (makeAddress platform (textOf (find members "host")) (portOfMember (find members "port"))).isSome = true
  | _ => False

/-- A port that fits is decoded, or refused. -/
lemma integral_port {value : Value} (fits : Fits .uint16 value) :
    FromJson.integral .uint16 value = .ok (some (portOfMember (some value))) ∨
      (FromJson.integral .uint16 value = .ok none ∧ (portOfMember (some value)) = ⟨0, Integral.holds_zero _⟩) := by
  cases value with
  | int64 n =>
    by_cases natural : 0 ≤ n.toInt
    · have holds := fits (.inr natural)
      left
      simp [FromJson.integral, natural, toNumber, portOfMember, portOf, holds, Except.map]
    · have off : ¬Integral.uint16.Holds n.toInt := fun holds => natural holds.1
      right
      simp [FromJson.integral, natural, Integral.signed, portOfMember, portOf, off]
  | uint64 n =>
    have holds := fits (.inl rfl)
    left
    simp [FromJson.integral, Integral.signed, toNumber, portOfMember, portOf, holds, Except.map]
  | _ => exact .inr ⟨rfl, rfl⟩

/-- The port is read, or stays zero. -/
lemma read_port {members : List (String × Value)} (fits : MemberSafe members "port" (Fits .uint16))
    (host : String) :
    readMember members "port" (FromJson.integral .uint16)
        (fun (result : HostPort) port => { result with port }) { host } =
      .ok (some { host, port := portOfMember (find members "port") }) := by
  unfold readMember
  cases found : find members "port" with
  | none => rfl
  | some value =>
    dsimp only
    rcases integral_port (fits value found) with run | ⟨run, zero⟩
    · rw [run]
    · rw [run, zero]

/-- The host is read, or stays empty. -/
lemma read_host (members : List (String × Value)) :
    readMember members "host" FromJson.string (fun (result : HostPort) host => { result with host }) {} =
      .ok (some { host := textOf (find members "host") }) := by
  unfold readMember
  rcases find members "host" with _ | ⟨_ | _ | _ | _ | _ | _ | _ | _⟩ <;> rfl

/-- An address is decided by its host, its port and the platform. -/
lemma decides_address (platform : Platform) :
    Decides (FromJson.address platform) AddressSafe (AddressAccepts platform) := by
  intro value
  cases value with
  | object members =>
    by_cases fits : MemberSafe members "port" (Fits .uint16)
    · have run : FromJson.address platform (.object members) =
          if (portOfMember (find members "port")).val ≠ 0 ∨ textOf (find members "host") ≠ "" then
            (makeAddress platform (textOf (find members "host")) (portOfMember (find members "port"))).elim (.ok none)
              fun endpoint => .ok (some (some endpoint))
          else .ok (some none) := by
        unfold FromJson.address
        dsimp only
        rw [steps, read_host]
        dsimp only
        rw [steps, read_port fits]
        dsimp only [steps]
        cases makeAddress platform (textOf (find members "host")) (portOfMember (find members "port")) <;> rfl
      rw [run]
      split
      · next given =>
        cases made : makeAddress platform (textOf (find members "host"))
          (portOfMember (find members "port")) with
        | none =>
          refine Verdict.none.congr (iff_of_true trivial fits) fun _ => iff_of_false id fun all => ?_
          have known := all given
          rw [made] at known
          exact Bool.false_ne_true known
        | some endpoint =>
          refine (Verdict.some _).congr (iff_of_true trivial fits) fun _ => iff_of_true trivial fun _ => ?_
          rw [made]
          rfl
      · next idle =>
        exact (Verdict.some _).congr (iff_of_true trivial fits) fun _ =>
          iff_of_true trivial fun given => absurd given idle
    -- a port that does not fit throws, and nothing catches this
    · have port : Verdict (readMember members "port" (FromJson.integral .uint16)
          (fun (result : HostPort) port => { result with port }) { host := textOf (find members "host") })
          (MemberSafe members "port" (Fits .uint16)) True := verdict_readMember (decides_integral .uint16) _
      obtain ⟨fault, uncaught, escaped⟩ := port.escaped fits
      have run : FromJson.address platform (.object members) = .error fault := by
        unfold FromJson.address
        dsimp only
        rw [steps, read_host]
        dsimp only
        rw [steps, escaped]
      rw [run]
      exact (Verdict.error uncaught True).congr (iff_of_false id fits) fun wrong => absurd wrong id
  | _ => exact Verdict.none

/-- Numbers are in range, and neither `null` nor a number out of range is in a member that is a record. -/
def ConnectionSafe : Value → Prop
  | .object members =>
    ReadSafe members [("reuse address", Fits .int32), ("reuse port", Fits .int32), ("broadcast", Fits .int32),
      ("don't route", Fits .int32), ("keep alive", Fits .int32), ("linger", LingerSafe),
      ("timeout sending", TimevalSafe), ("timeout receive", TimevalSafe), ("min bytes input", Fits .int32),
      ("input buffer", Fits .int32), ("output buffer", Fits .int32)]
  | _ => True

/-- The options of a connection are decided by their members. -/
lemma decides_connectionOptions : Decides FromJson.connectionOptions ConnectionSafe IsObject := by
  intro value
  have word := decides_integral .int32
  cases value with
  | object members =>
    exact verdict_reads word (verdict_reads word (verdict_reads word (verdict_reads word (verdict_reads word
      (verdict_reads decides_linger (verdict_reads decides_timeval (verdict_reads decides_timeval
        (verdict_reads word (verdict_reads word (verdict_reads word (reads_end _))))))))))) _
  | _ => exact Verdict.none

/-- The members of the settings of a server, in the order in which they are decoded. -/
def serverParts : List (String × (Value → Prop) × (Value → Prop)) :=
  [("host", fun _ => True, IsString), ("jobs", Fits .uint32, Offered .uint32),
    ("service", fun _ => True, IsString), ("port", Fits .uint16, Offered .uint16),
    ("protocol", fun _ => True, IsString), ("timeout", Fits .int32, Offered .int32),
    ("options", ConnectionSafe, IsObject)]

/-- Where the decoder of the server's settings returns -/
def ServerSafe : Value → Prop
  | .object members => NeedSafe members serverParts
  | _ => True

/-- Where the decoder of the server's settings succeeds -/
def ServerAccepts : Value → Prop
  | .object members => NeedAccepts members serverParts
  | _ => True

/-- The server's settings are decided by their members. -/
lemma decides_serverSettings (platform : Platform) :
    Decides (FromJson.serverSettings platform) ServerSafe ServerAccepts := by
  intro value
  cases value with
  | object members =>
    exact (verdict_needs decides_string (verdict_needs (decides_integral .uint32) (verdict_needs decides_string
      (verdict_needs (decides_integral .uint16) (verdict_needs decides_string (verdict_needs
        (decides_integral .int32) (verdict_needs decides_connectionOptions (needs_end _))))))) _).map _
  | _ => exact Verdict.some _

/-- The members of the settings of a client. Any address that is not decoded is passed over. -/
def clientParts : List (String × (Value → Prop) × (Value → Prop)) :=
  [("jobs", Fits .uint32, Offered .uint32), ("protocol", fun _ => True, IsString),
    ("timeout", Fits .int32, Offered .int32), ("options", ConnectionSafe, IsObject),
    ("address bind", AddressSafe, fun _ => True)]

/-- Where the decoder of the client's settings returns -/
def ClientSafe : Value → Prop
  | .object members => NeedSafe members clientParts
  | _ => True

/-- Where the decoder of the client's settings succeeds -/
def ClientAccepts : Value → Prop
  | .object members => NeedAccepts members clientParts
  | _ => True

/-- The client's settings are decided by their members. -/
lemma decides_clientSettings (platform : Platform) :
    Decides (FromJson.clientSettings platform) ClientSafe ClientAccepts := by
  intro value
  cases value with
  | object members =>
    have bind : ∀ s : ClientSettings, Verdict (steps [readMember members "address bind"
        (FromJson.address platform) fun result addr => { result with bindedAddr := some addr }] s)
        (NeedSafe members [("address bind", AddressSafe, fun _ => True)])
        (NeedAccepts members [("address bind", AddressSafe, fun _ => True)]) := fun s =>
      (verdict_steps (verdict_readMember (decides_address platform) s) (needs_end members)).congr
        (and_congr_right fun _ => iff_of_true (fun _ => trivial) fun _ => trivial)
        fun _ => iff_of_true ⟨trivial, trivial⟩ ⟨fun _ _ => trivial, trivial⟩
    exact ((verdict_needs (decides_integral .uint32) (verdict_needs decides_string (verdict_needs
      (decides_integral .int32) (verdict_needs decides_connectionOptions bind))) _).catching
        fun _ uncaught => uncaught.2).map _
  | _ => exact Verdict.some _

/-! ## All targets -/

namespace Target

/-- The safe values of which a target is decoded. -/
def Accepts (platform : Platform) : Target → Value → Prop
  | numeric t => NumericAccepts t
  | enumeration underlying _ => NumericAccepts underlying
  | string => IsString
  | optional t => OptionalAccepts (t.Accepts platform)
  | pair first second => PairAccepts (first.Accepts platform) (second.Accepts platform)
  | range t => RangeAccepts (t.Accepts platform)
  | linger => IsObject
  | timeval => IsObject
  | timePeriod => fun _ => True
  | dateTimeDiff => IsDateTime
  | address => AddressAccepts platform
  | connectionOptions => IsObject
  | serverSettings => ServerAccepts
  | clientSettings => ClientAccepts

/-- The values on which a target is decoded with a result or an unexpected one. -/
def Safe (platform : Platform) : Target → Value → Prop
  | numeric t => NumericSafe t
  | enumeration underlying _ => NumericSafe underlying
  | string => fun _ => True
  | optional t => OptionalSafe (t.Safe platform)
  | pair first second => PairSafe (first.Safe platform) (first.Accepts platform) (second.Safe platform)
  | range t => RangeSafe (t.Safe platform) (t.Accepts platform)
  | linger => LingerSafe
  | timeval => TimevalSafe
  | timePeriod => PeriodSafe
  | dateTimeDiff => fun _ => True
  | address => AddressSafe
  | connectionOptions => ConnectionSafe
  | serverSettings => ServerSafe
  | clientSettings => ClientSafe

end Target

/-- Every target is decided. -/
lemma decides_fromJson (platform : Platform) (t : Target) :
    Decides (fromJson platform t) (t.Safe platform) (t.Accepts platform) := by
  induction t with
  | numeric t => exact decides_numeric _ t
  | enumeration underlying _ => exact decides_numeric _ underlying
  | string => exact decides_string
  | optional _ ih => exact decides_optional ih
  | pair _ _ here there => exact decides_pair here there
  | range _ ih => exact decides_range ih
  | linger => exact decides_linger
  | timeval => exact decides_timeval
  | timePeriod => exact decides_timePeriod
  | dateTimeDiff => exact decides_dateTimeDiff
  | address => exact decides_address platform
  | connectionOptions => exact decides_connectionOptions
  | serverSettings => exact decides_serverSettings platform
  | clientSettings => exact decides_clientSettings platform

/-- A decoder returns exactly on the safe values. -/
theorem from_json_returns_iff (platform : Platform) (t : Target) (value : Value) :
    (∃ result, fromJson platform t value = .ok result) ↔ t.Safe platform value :=
  (decides_fromJson platform t value).returns_iff

/-- `from_json<int32_t>` of `2 ^ 32` throws. -/
theorem from_json_escapes :
    ¬ ∀ (platform : Platform) (t : Target) (value : Value), ∃ result, fromJson platform t value = .ok result := by
  intro all
  let platform : Platform := ⟨fun _ => 0, ⟨1, Integral.holds_one _⟩, fun _ _ => none⟩
  obtain ⟨result, run⟩ := all platform (.numeric (.integral .int32)) (.int64 4294967296)
  have fault : fromJson platform (.numeric (.integral .int32)) (.int64 4294967296) =
      .error (.thrown .systemError) := by rfl
  cases fault.symm.trans run

end OsterLib.Json
