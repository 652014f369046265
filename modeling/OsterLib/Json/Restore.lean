import OsterLib.Json.Encoders

/-!
# What the decoders restore

A value of a generic type is restored from its encoding exactly if every optional inside has a value, since the
decoder of an optional refuses `null` (`from_json_to_json_iff`). Settings are restored exactly if they have nothing
but the defaults where a member is written in another kind than it is read in, where its key is not read, and where
the constructor that moves leaves it out (`settings_survive_iff`).
-/

namespace OsterLib.Json
open OsterLib.Lib

/-! ## Numbers -/

/-- A number of the type is converted to it. -/
lemma toNumber_val {t : Integral} (n : t.Val) : toNumber t n.val = .ok n := dif_pos n.property

/-- Numbers of every type fit `int64_t` or `uint64_t`. -/
lemma Integral.limits (t : Integral) :
    (t.signed = true → -2 ^ 63 ≤ t.min ∧ t.max < 2 ^ 63) ∧ (t.signed = false → 0 ≤ t.min ∧ t.max < 2 ^ 64) := by
  cases t <;> decide

/-- An integer is restored. -/
lemma integral_restored (t : Integral) (n : t.Val) :
    FromJson.integral t (ToJson.integral t n) = .ok (some n) := by
  unfold ToJson.integral
  cases signed : t.signed with
  | true =>
    obtain ⟨least, most⟩ := t.limits.1 signed
    have low : -2 ^ 63 ≤ n.val := Int.le_trans least n.property.1
    have high : n.val < 2 ^ 63 := Int.lt_of_le_of_lt n.property.2 most
    rw [if_pos rfl, FromJson.integral, signed, Bool.true_or, if_pos rfl, Int64.toInt_ofInt_of_le low high,
      toNumber_val]
    rfl
  | false =>
    obtain ⟨least, most⟩ := t.limits.2 signed
    have low : 0 ≤ n.val := Int.le_trans least n.property.1
    have high : n.val < 2 ^ 64 := Int.lt_of_le_of_lt n.property.2 most
    have same : ((UInt64.ofNat n.val.toNat).toNat : Int) = n.val := by
      rw [UInt64.toNat_ofNat_of_lt' (show n.val.toNat < 2 ^ 64 by omega)]
      exact Int.toNat_of_nonneg low
    rw [if_neg Bool.false_ne_true, FromJson.integral, signed, Bool.not_false, Bool.true_or, if_pos rfl, same,
      toNumber_val]
    rfl

/-- A finite number is restored. -/
lemma numeric_restored (t : Numeric) {x : t.Val} (finite : (Generic.numeric t).Finite x) :
    FromJson.numeric narrow t (ToJson.numeric t x) = .ok (some x) := by
  cases t with
  | float => exact congrArg (fun bits => Except.ok (some bits)) (narrow_widen finite)
  | double => rfl
  | bool => rfl
  | integral t => exact integral_restored t x

/-! ## Templates -/

/-- A value is restored, or refused where an optional inside has no value. -/
structure Restores {α : Type} (outcome : Outcome α) (x : α) (engaged : Prop) : Prop where
  restored : engaged → outcome = .ok (some x)
  refused : ¬engaged → outcome = .ok none

namespace Restores
variable {α β : Type} {outcome : Outcome α} {x : α} {engaged engaged' : Prop}

/-- What is decoded again is restored. -/
lemma always (run : outcome = .ok (some x)) : Restores outcome x True :=
  ⟨fun _ => run, fun off => absurd trivial off⟩

/-- What is refused is not restored. -/
lemma never : Restores (.ok none) x False := ⟨nofun, fun _ => rfl⟩

/-- The condition may be stated otherwise. -/
lemma congr (restores : Restores outcome x engaged) (same : engaged ↔ engaged') : Restores outcome x engaged' := by
  rwa [← same]

/-- A part that is decoded if the one before it is restored. -/
lemma andThen {next : α → Outcome β} {y : β} (first : Restores outcome x engaged)
    (second : Restores (next x) y engaged') :
    Restores (match outcome with
      | .error fault => .error fault
      | .ok none => .ok none
      | .ok (some x) => next x) y (engaged ∧ engaged') := by
  constructor
  · intro both
    rw [first.restored both.1]
    exact second.restored both.2
  · intro off
    by_cases here : engaged
    · rw [first.restored here]
      exact second.refused fun there => off ⟨here, there⟩
    · rw [first.refused here]

/-- A value is restored exactly under the condition. -/
lemma iff (restores : Restores outcome x engaged) : outcome = .ok (some x) ↔ engaged := by
  constructor
  · intro run
    by_contra off
    cases run.symm.trans (restores.refused off)
  · exact restores.restored

end Restores

/-- The decoders of generic types refuse `null`. -/
lemma Generic.fromJson_null {t : Target} (g : Generic t) (platform : Platform) :
    fromJson platform t .null = .ok none := by
  cases g with
  | numeric t => cases t <;> rfl
  | enumeration underlying _ => cases underlying <;> rfl
  | string => rfl
  | optional _ => rfl
  | pair _ _ => rfl
  | range _ => rfl

section templates
variable {α β : Type}

/-- An optional is restored exactly if it has a value, and that is. -/
lemma optional_restores {decode : Decoder α} {encode : α → Value} {x : Option α} {Engaged : α → Prop}
    (refuses : decode .null = .ok none)
    (inner : ∀ y, x = some y → Restores (decode (encode y)) y (Engaged y)) :
    Restores (FromJson.optional decode (ToJson.optional encode x)) x (∃ y, x = some y ∧ Engaged y) := by
  cases x with
  | none => exact Restores.never.congr (iff_of_false id (by rintro ⟨y, wrong, -⟩; cases wrong))
  | some y =>
    have here := inner y rfl
    have only : (∃ z, some y = some z ∧ Engaged z) ↔ Engaged y ∧ True :=
      ⟨fun ⟨z, same, there⟩ => ⟨Option.some.inj same ▸ there, trivial⟩, fun there => ⟨y, rfl, there.1⟩⟩
    have whole : FromJson.optional decode (encode y) = (match decode (encode y) with
        | .error fault => .error fault
        | .ok none => .ok none
        | .ok (some x) => .ok (some (some x))) := by
      cases kind : encode y with
      | null => rw [refuses]; rfl
      | _ => rfl
    show Restores (FromJson.optional decode (encode y)) _ _
    rw [whole]
    exact (here.andThen (.always rfl)).congr only.symm

/-- A pair is restored exactly if both values are. -/
lemma pair_restores {first : Decoder α} {second : Decoder β} {encode : α → Value} {encode' : β → Value}
    {x : α × β} {here there : Prop} (left : Restores (first (encode x.1)) x.1 here)
    (right : Restores (second (encode' x.2)) x.2 there) :
    Restores (FromJson.pair first second (ToJson.pair encode encode' x)) x (here ∧ there) := by
  have both : Restores (FromJson.pair first second (ToJson.pair encode encode' x)) x (here ∧ there ∧ True) :=
    left.andThen (right.andThen (.always rfl))
  exact both.congr (and_congr_right fun _ => iff_of_eq (and_true there))

/-- The elements are restored exactly if each is. -/
lemma elements_restores {decode : Decoder α} {encode : α → Value} {Engaged : α → Prop} (xs done : List α)
    (inner : ∀ x ∈ xs, Restores (decode (encode x)) x (Engaged x)) :
    Restores (FromJson.elements decode (xs.map encode) done) (done ++ xs) (∀ x ∈ xs, Engaged x) := by
  induction xs generalizing done with
  | nil =>
    rw [List.append_nil]
    exact (Restores.always rfl).congr (iff_of_true trivial nofun)
  | cons x xs ih =>
    have later := ih (done ++ [x]) fun y mem => inner y (List.mem_cons_of_mem _ mem)
    rw [List.append_assoc, List.singleton_append] at later
    have all : Restores (FromJson.elements decode ((x :: xs).map encode) done) (done ++ x :: xs) _ :=
      (inner x List.mem_cons_self).andThen later
    exact all.congr List.forall_mem_cons.symm

end templates

/-- Every value of a generic type is restored or refused. -/
lemma Generic.restores (platform : Platform) {t : Target} (g : Generic t) {x : t.Val} (finite : g.Finite x) :
    Restores (fromJson { platform with narrow } t (g.toJson x)) x (g.Engaged x) := by
  induction g with
  | numeric t =>
    have run := numeric_restored t finite
    cases t <;> exact .always run
  | enumeration underlying discrete =>
    have run : FromJson.numeric narrow underlying (ToJson.numeric underlying x) = .ok (some x) := by
      cases underlying with
      | float => cases discrete
      | double => cases discrete
      | bool => rfl
      | integral t => exact integral_restored t x
    exact .always run
  | string => exact .always rfl
  | optional inner ih => exact optional_restores (inner.fromJson_null _) fun y same => ih (finite y same)
  | pair first second here there => exact pair_restores (here finite.1) (there finite.2)
  | range inner ih =>
    have all : Restores (FromJson.elements (fromJson _ _) (List.map inner.toJson x) []) x _ :=
      elements_restores x [] fun y mem => ih (finite y mem)
    exact all

/-- A value of a generic type is restored exactly if every optional inside has a value. -/
theorem from_json_to_json_iff (platform : Platform) {t : Target} (g : Generic t) {x : t.Val} (finite : g.Finite x) :
    fromJson { platform with narrow } t (g.toJson x) = .ok (some x) ↔ g.Engaged x :=
  (g.restores platform finite).iff

/-- A platform of one processor that knows no addresses. -/
def smallPlatform : Platform := ⟨narrow, ⟨1, Integral.holds_one _⟩, fun _ _ => none⟩

/-- Two optional numbers with values, in a range. -/
theorem from_json_to_json_some :
    let g : Generic (.range (.optional (.numeric .float))) := .range (.optional (.numeric .float))
    let xs : List (Option (BitVec 32)) := [some 0x3fc00000, some 0]
    fromJson { smallPlatform with narrow } (.range (.optional (.numeric .float))) (g.toJson xs) = .ok (some xs) := by
  intro g xs
  have both : ∀ x ∈ xs, x = some 0x3fc00000 ∨ x = some 0 := by
    intro x mem
    simpa [xs] using mem
  have finite : g.Finite xs := by
    intro x mem y same
    obtain rfl | rfl := both x mem <;> obtain rfl := Option.some.inj same
    · exact show (0x3fc00000 : BitVec 32).toNat / 2 ^ 23 % 2 ^ 8 ≠ 255 by decide
    · exact show (0 : BitVec 32).toNat / 2 ^ 23 % 2 ^ 8 ≠ 255 by decide
  refine (from_json_to_json_iff smallPlatform g finite).mpr fun x mem => ?_
  obtain rfl | rfl := both x mem <;> exact ⟨_, rfl, trivial⟩

/-- An optional without a value is encoded as `null`, which is refused. -/
theorem disengaged_refused :
    ¬ ∀ (platform : Platform) (t : Target) (g : Generic t) (x : t.Val), g.Finite x →
      fromJson { platform with narrow } t (g.toJson x) = .ok (some x) := by
  intro all
  have run := all smallPlatform (.optional .string) (.optional .string) (none : Option String) nofun
  cases run

/-! ## Records -/

/-- `operator==` of `linger` -/
def Linger.equal (lhs rhs : Linger) : Bool := lhs.linger = rhs.linger && lhs.onOff = rhs.onOff

/-- `operator==` of `timeval` -/
def Timeval.equal (lhs rhs : Timeval) : Bool := lhs.sec = rhs.sec && lhs.usec = rhs.usec

/-- `operator==` of `ConnectionOptions` -/
def ConnectionOptions.equal (lhs rhs : ConnectionOptions) : Bool :=
  lhs.reuseAddress = rhs.reuseAddress &&
    lhs.reusePort = rhs.reusePort &&
    lhs.broadcastSocket = rhs.broadcastSocket &&
    lhs.dontRoute = rhs.dontRoute &&
    lhs.keepAlive = rhs.keepAlive &&
    lhs.linger.equal rhs.linger &&
    lhs.timeoutInput.equal rhs.timeoutInput &&
    lhs.timeoutSend.equal rhs.timeoutSend &&
    lhs.expectMinBytesAvailable = rhs.expectMinBytesAvailable &&
    lhs.bufferSizeIn = rhs.bufferSizeIn &&
    lhs.bufferSizeOut = rhs.bufferSizeOut

/-- The number of events is not compared. -/
def ServerSettings.equal (lhs rhs : ServerSettings) : Bool :=
  lhs.host = rhs.host &&
    lhs.service = rhs.service &&
    lhs.port = rhs.port &&
    lhs.numThreadsPool = rhs.numThreadsPool &&
    lhs.protocol = rhs.protocol &&
    lhs.timeoutSecondsProcesses = rhs.timeoutSecondsProcesses &&
    lhs.options.equal rhs.options

/-- `operator==` of `ClientSettings` -/
def ClientSettings.equal (lhs rhs : ClientSettings) : Bool :=
  lhs.bindedAddr = rhs.bindedAddr &&
    lhs.timeoutSecondsProcesses = rhs.timeoutSecondsProcesses &&
    lhs.numThreadsPool = rhs.numThreadsPool &&
    lhs.numberEvents = rhs.numberEvents &&
    lhs.options.equal rhs.options &&
    lhs.protocol = rhs.protocol

/-- What is encoded is decoded, to an equal record. -/
def Survives {S : Type} (encode : S → Option Value) (decode : Decoder S) (equal : S → S → Bool) (x : S) : Prop :=
  ∃ value y, encode x = some value ∧ decode value = .ok (some y) ∧ equal y x = true

/-- The members that are read in another kind than they are written in have the defaults, and every other one has a
    value. -/
structure ConnectionOptions.Saved (options : ConnectionOptions) : Prop where
  reuseAddress : options.reuseAddress.val = 0
  reusePort : options.reusePort.val = 0
  broadcastSocket : options.broadcastSocket.val = 0
  dontRoute : options.dontRoute.val = 0
  keepAlive : options.keepAlive.val = 0
  linger : (∃ b, options.linger.onOff = some (CInt.ofBool b)) ∧ options.linger.linger.isSome = true
  timeoutSend : options.timeoutSend.sec.isSome = true ∧ options.timeoutSend.usec.isSome = true
  timeoutInput : options.timeoutInput.sec.isSome = true ∧ options.timeoutInput.usec.isSome = true

/-- The protocol has a name. -/
def Protocol.Named : Protocol → Prop
  | unnamed _ _ => False
  | _ => True

/-- What a `linger` is decoded to: its flag is encoded as a `bool`. -/
def Linger.decoded (x : Linger) : Linger := { x with onOff := x.onOff.map fun n => CInt.ofBool (n.val ≠ 0) }

/-- What options are decoded to: the flags are encoded as `bool`s, and not decoded. -/
def ConnectionOptions.decoded (options : ConnectionOptions) : ConnectionOptions :=
  { linger := options.linger.decoded
    timeoutSend := options.timeoutSend
    timeoutInput := options.timeoutInput
    expectMinBytesAvailable := options.expectMinBytesAvailable
    bufferSizeIn := options.bufferSizeIn
    bufferSizeOut := options.bufferSizeOut }

/-- A flag is no number. -/
lemma flag_refused (t : Integral) (n : CInt) : FromJson.integral t (ToJson.flag n) = .ok none := rfl

/-- What `linger` is decoded to -/
lemma linger_decoded {x : Linger} {value : Value} (encoded : ToJson.linger x = some value) :
    FromJson.linger value = .ok (some x.decoded) := by
  obtain ⟨onOff, linger⟩ := x
  cases onOff with
  | none => cases encoded
  | some onOff =>
    cases linger with
    | none => cases encoded
    | some linger =>
      cases encoded
      simp [FromJson.linger, Value.isObject, Value.asObject, steps, readMember, find, List.lookup_cons, ToJson.flag,
        FromJson.bool, integral_restored, Linger.decoded]

/-- What `timeval` is decoded to -/
lemma timeval_decoded {x : Timeval} {value : Value} (encoded : ToJson.timeval x = some value) :
    FromJson.timeval value = .ok (some x) := by
  obtain ⟨sec, usec⟩ := x
  cases sec with
  | none => cases encoded
  | some sec =>
    cases usec with
    | none => cases encoded
    | some usec =>
      cases encoded
      simp [FromJson.timeval, Value.isObject, Value.asObject, steps, readMember, find, List.lookup_cons,
        integral_restored]

/-- What the options of a connection are decoded to -/
lemma connectionOptions_decoded {options : ConnectionOptions} {value : Value}
    (encoded : ToJson.connectionOptions options = some value) :
    FromJson.connectionOptions value = .ok (some options.decoded) := by
  unfold ToJson.connectionOptions at encoded
  cases linger : ToJson.linger options.linger with
  | none => rw [linger] at encoded; cases encoded
  | some lingerValue =>
    cases send : ToJson.timeval options.timeoutSend with
    | none => rw [linger, send] at encoded; cases encoded
    | some sendValue =>
      cases input : ToJson.timeval options.timeoutInput with
      | none => rw [linger, send, input] at encoded; cases encoded
      | some inputValue =>
        rw [linger, send, input] at encoded
        cases encoded
        simp [FromJson.connectionOptions, steps, readMember, find, List.lookup_cons, flag_refused, integral_restored,
          linger_decoded linger, timeval_decoded send, timeval_decoded input, ConnectionOptions.decoded]

/-- `linger` is encoded exactly if both fields are set. -/
lemma linger_encoded_iff (x : Linger) :
    (ToJson.linger x).isSome = true ↔ x.onOff.isSome = true ∧ x.linger.isSome = true := by
  obtain ⟨onOff, linger⟩ := x
  cases onOff <;> cases linger <;> simp [ToJson.linger]

/-- `timeval` is encoded exactly if both fields are set. -/
lemma timeval_encoded_iff (x : Timeval) :
    (ToJson.timeval x).isSome = true ↔ x.sec.isSome = true ∧ x.usec.isSome = true := by
  obtain ⟨sec, usec⟩ := x
  cases sec <;> cases usec <;> simp [ToJson.timeval]

/-- The options of a connection are encoded exactly if their parts are. -/
lemma connectionOptions_encoded_iff (options : ConnectionOptions) :
    (ToJson.connectionOptions options).isSome = true ↔ (ToJson.linger options.linger).isSome = true ∧
      (ToJson.timeval options.timeoutSend).isSome = true ∧ (ToJson.timeval options.timeoutInput).isSome = true := by
  unfold ToJson.connectionOptions
  cases ToJson.linger options.linger <;> cases ToJson.timeval options.timeoutSend <;>
    cases ToJson.timeval options.timeoutInput <;> simp

/-- A `linger` is decoded to an equal one exactly if its flag is zero or one. -/
lemma linger_saved_iff (x : Linger) : x.onOff.isSome = true ∧ x.decoded.equal x = true ↔
    ∃ b, x.onOff = some (CInt.ofBool b) := by
  obtain ⟨onOff, linger⟩ := x
  cases onOff with
  | none => simp
  | some onOff =>
    simp only [Linger.equal, Linger.decoded, Option.map_some, Option.isSome_some, Bool.and_eq_true, decide_eq_true_eq,
      Option.some.injEq, true_and]
    constructor
    · exact fun same => ⟨_, same.symm⟩
    · rintro ⟨b, rfl⟩
      cases b <;> rfl

/-- The zero is the number zero. -/
lemma CInt.zero_eq_iff (n : CInt) : (⟨0, Integral.holds_zero _⟩ : CInt) = n ↔ n.val = 0 :=
  ⟨fun same => same ▸ rfl, fun zero => Subtype.ext zero.symm⟩

/-- Options are decoded to equal ones. -/
lemma ConnectionOptions.saved_iff (options : ConnectionOptions) :
    (ToJson.connectionOptions options).isSome = true ∧ options.decoded.equal options = true ↔ options.Saved := by
  have linger := linger_saved_iff options.linger
  rw [connectionOptions_encoded_iff, linger_encoded_iff, timeval_encoded_iff, timeval_encoded_iff]
  simp only [equal, decoded, Timeval.equal, Bool.and_eq_true, decide_eq_true_eq, decide_true, CInt.zero_eq_iff,
    and_true]
  constructor
  · rintro ⟨⟨⟨known, duration⟩, send, input⟩, ⟨⟨⟨⟨address, port⟩, broadcast⟩, route⟩, alive⟩, same⟩
    exact ⟨address, port, broadcast, route, alive, ⟨linger.mp ⟨known, same⟩, duration⟩, send, input⟩
  · rintro ⟨address, port, broadcast, route, alive, ⟨flag, duration⟩, send, input⟩
    obtain ⟨known, same⟩ := linger.mpr flag
    exact ⟨⟨⟨known, duration⟩, send, input⟩, ⟨⟨⟨⟨address, port⟩, broadcast⟩, route⟩, alive⟩, same⟩

/-- A record that is decoded to a known one. -/
lemma survives_iff {S : Type} {encode : S → Option Value} {decode : Decoder S} {equal : S → S → Bool} {x decoded : S}
    (run : ∀ value, encode x = some value → decode value = .ok (some decoded)) :
    Survives encode decode equal x ↔ (encode x).isSome = true ∧ equal decoded x = true := by
  constructor
  · rintro ⟨value, y, encoded, ran, same⟩
    cases (run value encoded).symm.trans ran
    exact ⟨Option.isSome_of_eq_some encoded, same⟩
  · rintro ⟨known, same⟩
    obtain ⟨value, encoded⟩ := Option.isSome_iff_exists.mp known
    exact ⟨value, decoded, encoded, run value encoded, same⟩

/-- A protocol is found by its text exactly if it has a name. -/
lemma protocolOf_toText_iff (protocol : Protocol) : protocolOf protocol.toText = protocol ↔ protocol.Named := by
  cases protocol with
  | unnamed number other => exact iff_of_false nofun id
  | _ => exact iff_of_true rfl trivial

/-- What the server's settings are decoded to: the number of events is the default one -/
def ServerSettings.decoded (settings : ServerSettings) : ServerSettings :=
  { settings with
    numberEvents := ⟨10, Integral.holds_ten _⟩
    protocol := protocolOf settings.protocol.toText
    options := settings.options.decoded }

/-- The server's settings are decoded but for what the encoder leaves out. -/
lemma serverSettings_decoded (platform : Platform) {settings : ServerSettings} {value : Value}
    (encoded : ToJson.serverSettings settings = some value) :
    FromJson.serverSettings platform value = .ok (some settings.decoded) := by
  unfold ToJson.serverSettings at encoded
  cases options : ToJson.connectionOptions settings.options with
  | none => rw [options] at encoded; cases encoded
  | some optionsValue =>
    rw [options] at encoded
    cases encoded
    simp [FromJson.serverSettings, steps, needMember, find, List.lookup_cons, FromJson.string, integral_restored,
      connectionOptions_decoded options, ServerSettings.decoded, ServerSettings.moved, Except.map]

/-- What the client's settings are decoded to: the bound address and the number of events are the default ones -/
def ClientSettings.decoded (settings : ClientSettings) : ClientSettings :=
  { settings with
    bindedAddr := none
    numberEvents := ⟨10, Integral.holds_ten _⟩
    protocol := protocolOf settings.protocol.toText
    options := settings.options.decoded }

/-- The port of an address is encoded as a string, which is no number. -/
lemma address_returns (platform : Platform) (inetNtop : Family → List UInt8 → String) (addr : Address) :
    ∃ result, FromJson.address platform (ToJson.address inetNtop addr) = .ok result := by
  unfold ToJson.address
  generalize ToJson.ipToText inetNtop addr = host
  simp only [FromJson.address, steps, readMember, find, List.lookup_cons, FromJson.string, FromJson.integral,
    beq_self_eq_true, String.reduceBEq]
  split
  · split
    · exact ⟨_, rfl⟩
    · exact ⟨_, rfl⟩
  · exact ⟨_, rfl⟩

/-- The client's settings are decoded but for what the encoder leaves out. -/
lemma clientSettings_decoded (platform : Platform) (inetNtop : Family → List UInt8 → String) {settings : ClientSettings}
    {value : Value} (encoded : ToJson.clientSettings inetNtop settings = some value) :
    FromJson.clientSettings platform value = .ok (some settings.decoded) := by
  unfold ToJson.clientSettings at encoded
  cases options : ToJson.connectionOptions settings.options with
  | none => rw [options] at encoded; cases encoded
  | some optionsValue =>
    rw [options] at encoded
    cases encoded
    cases bind : settings.bindedAddr with
    | none =>
      simp [FromJson.clientSettings, steps, needMember, readMember, find, List.lookup_cons, FromJson.string,
        integral_restored, connectionOptions_decoded options, ClientSettings.decoded, ClientSettings.moved, Except.map,
        catching]
    | some addr =>
      obtain ⟨result, run⟩ := address_returns platform inetNtop addr
      cases result <;>
        simp [FromJson.clientSettings, steps, needMember, readMember, find, List.lookup_cons, FromJson.string,
          integral_restored, connectionOptions_decoded options, ClientSettings.decoded, ClientSettings.moved,
          Except.map, catching, run]

/-- The server's settings are encoded exactly if the options are. -/
lemma serverSettings_encoded_iff (settings : ServerSettings) :
    (ToJson.serverSettings settings).isSome = true ↔ (ToJson.connectionOptions settings.options).isSome = true := by
  unfold ToJson.serverSettings
  cases ToJson.connectionOptions settings.options <;> simp

/-- The client's settings are encoded exactly if the options are. -/
lemma clientSettings_encoded_iff (inetNtop : Family → List UInt8 → String) (settings : ClientSettings) :
    (ToJson.clientSettings inetNtop settings).isSome = true ↔
      (ToJson.connectionOptions settings.options).isSome = true := by
  unfold ToJson.clientSettings
  cases ToJson.connectionOptions settings.options <;> simp

/-- Settings survive exactly if the members that are not restored have the values that the decoders give them: the
    flags of the options, the protocols without a name, and of a client the bound address and the number of events. -/
theorem settings_survive_iff (platform : Platform) (inetNtop : Family → List UInt8 → String) :
    (∀ options, Survives ToJson.connectionOptions FromJson.connectionOptions ConnectionOptions.equal options ↔
        options.Saved) ∧
      (∀ settings, Survives ToJson.serverSettings (FromJson.serverSettings platform) ServerSettings.equal settings ↔
        settings.options.Saved ∧ settings.protocol.Named) ∧
      ∀ settings, Survives (ToJson.clientSettings inetNtop) (FromJson.clientSettings platform) ClientSettings.equal
          settings ↔
        settings.options.Saved ∧ settings.protocol.Named ∧ settings.bindedAddr = none ∧
          settings.numberEvents.val = 10 := by
  refine ⟨fun options => ?_, fun settings => ?_, fun settings => ?_⟩
  · rw [survives_iff fun _ => connectionOptions_decoded, options.saved_iff]
  · rw [survives_iff fun _ => serverSettings_decoded platform, serverSettings_encoded_iff,
      ← settings.options.saved_iff, ← protocolOf_toText_iff]
    simp only [ServerSettings.equal, ServerSettings.decoded, Bool.and_eq_true, decide_true, true_and, and_true]
    constructor
    · exact fun ⟨known, named, same⟩ => ⟨⟨known, same⟩, of_decide_eq_true named⟩
    · exact fun ⟨⟨known, same⟩, named⟩ => ⟨known, decide_eq_true named, same⟩
  · rw [survives_iff fun _ => clientSettings_decoded platform inetNtop, clientSettings_encoded_iff,
      ← settings.options.saved_iff, ← protocolOf_toText_iff]
    simp only [ClientSettings.equal, ClientSettings.decoded, Bool.and_eq_true, decide_true, and_true]
    constructor
    · rintro ⟨known, ⟨⟨bind, events⟩, same⟩, named⟩
      have events := congrArg Subtype.val (of_decide_eq_true events)
      exact ⟨⟨known, same⟩, of_decide_eq_true named, (of_decide_eq_true bind).symm, events.symm⟩
    · rintro ⟨⟨known, same⟩, named, bind, events⟩
      exact ⟨known, ⟨⟨decide_eq_true bind.symm, decide_eq_true (Subtype.ext events.symm)⟩, same⟩, decide_eq_true named⟩

/-- A flag is written as a `bool` and read as an `int`. -/
theorem reuse_address_lost :
    ¬ ∀ options : ConnectionOptions, options.linger.onOff.isSome = true → options.linger.linger.isSome = true →
      options.timeoutSend.sec.isSome = true → options.timeoutSend.usec.isSome = true →
      options.timeoutInput.sec.isSome = true → options.timeoutInput.usec.isSome = true →
      Survives ToJson.connectionOptions FromJson.connectionOptions ConnectionOptions.equal options := by
  intro all
  have survives := all { reuseAddress := ⟨1, Integral.holds_one _⟩ } rfl rfl rfl rfl rfl rfl
  have saved := ((survives_iff fun _ => connectionOptions_decoded).mp survives).2
  exact Bool.false_ne_true saved

end OsterLib.Json
