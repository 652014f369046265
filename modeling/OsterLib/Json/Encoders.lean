import OsterLib.Json.Settings
import OsterLib.Lib.Floating

/-!
# The encoders of JSON values

`to_json` of `boost_functional/json.h` for numbers, enumerations, strings, optionals, pairs and ranges, and of
`linger`, `timeval`, `Address`, `ConnectionOptions` and the settings of servers and clients. An encoder that reads a
member with an indeterminate value has no result.
-/

namespace OsterLib.Json
open OsterLib.Lib

namespace ToJson

/-! ## Templates -/

/-- The kind follows the signedness. -/
def integral (t : Integral) (n : t.Val) : Value :=
  if t.signed then .int64 (Int64.ofInt n.val) else .uint64 (UInt64.ofNat n.val.toNat)

/-- `to_json` of a number -/
def numeric : (t : Numeric) → t.Val → Value
  | .float, bits => .double (widen bits)
  | .double, bits => .double bits
  | .bool, b => .bool b
  | .integral t, n => integral t n

section templates
variable {α β : Type}

/-- `to_json` of an optional -/
def optional (encode : α → Value) : Option α → Value
  | none => .null
  | some x => encode x

/-- `to_json` of a pair -/
def pair (first : α → Value) (second : β → Value) (x : α × β) : Value := .array [first x.1, second x.2]

/-- Ranges that are not associative -/
def range (encode : α → Value) (xs : List α) : Value := .array (xs.map encode)

end templates

/-! ## Records -/

/-- An `int` that is converted to `bool`. -/
def flag (n : CInt) : Value := .bool (n.val ≠ 0)

/-- `to_json(linger)` -/
def linger (x : Linger) : Option Value := do
  let onOff ← x.onOff
  let linger ← x.linger
  return .object [("active", flag onOff), ("duration(sec)", integral .int32 linger)]

/-- `to_json(timeval)` -/
def timeval (x : Timeval) : Option Value := do
  let sec ← x.sec
  let usec ← x.usec
  return .object [("duration(sec)", integral .int64 sec), ("duration(usec)", integral .int64 usec)]

/-- `ip_to_text`, by `inet_ntop` -/
def ipToText (inetNtop : Family → List UInt8 → String) : Address → String
  | some { family := .ipv4, host, .. } => "IPv4:" ++ inetNtop .ipv4 host
  | some { family := .ipv6, host, .. } => "IPv6:" ++ inetNtop .ipv6 host
  | none => "NaN"

/-- `port_to_text` -/
def portToText : Address → String
  | some endpoint => "port:" ++ toString endpoint.port.val
  | none => "NaN"

/-- `to_json(Address)` -/
def address (inetNtop : Family → List UInt8 → String) (addr : Address) : Value :=
  .object [("host", .string (ipToText inetNtop addr)), ("port", .string (portToText addr))]

/-- `to_json(ConnectionOptions)` -/
def connectionOptions (options : ConnectionOptions) : Option Value := do
  let linger ← linger options.linger
  let timeoutSend ← timeval options.timeoutSend
  let timeoutInput ← timeval options.timeoutInput
  return .object [
    ("reuse address", flag options.reuseAddress),
    ("reuse port", flag options.reusePort),
    ("broadcast", flag options.broadcastSocket),
    ("don't route", flag options.dontRoute),
    ("keep alive", flag options.keepAlive),
    ("linger", linger),
    ("timeout sending", timeoutSend),
    ("timeout receive", timeoutInput),
    ("min bytes input", integral .int32 options.expectMinBytesAvailable),
    ("input buffer", integral .int32 options.bufferSizeIn),
    ("output buffer", integral .int32 options.bufferSizeOut)]

/-- `to_json(ServerSettings)` -/
def serverSettings (settings : ServerSettings) : Option Value := do
  let options ← connectionOptions settings.options
  return .object [
    ("host", .string settings.host),
    ("jobs", integral .uint32 settings.numThreadsPool),
    ("events handled", integral .uint32 settings.numberEvents),
    ("service", .string settings.service),
    ("port", integral .uint16 settings.port),
    ("protocol", .string settings.protocol.toText),
    ("timeout", integral .int32 settings.timeoutSecondsProcesses),
    ("options", options)]

/-- `to_json(ClientSettings)` -/
def clientSettings (inetNtop : Family → List UInt8 → String) (settings : ClientSettings) : Option Value := do
  let options ← connectionOptions settings.options
  let bind := settings.bindedAddr.toList.map fun addr => ("address bind", address inetNtop addr)
  return .object ([
    ("jobs", integral .uint32 settings.numThreadsPool),
    ("events handled", integral .uint32 settings.numberEvents),
    ("protocol", .string settings.protocol.toText),
    ("timeout", integral .int32 settings.timeoutSecondsProcesses)] ++ bind ++ [("options", options)])

end ToJson

/-! ## Generic types -/

/-- The types that the templates build. -/
inductive Generic : Target → Type
  | numeric (t : Numeric) : Generic (.numeric t)
  | enumeration (underlying : Numeric) (discrete : underlying.isFloating = false) :
      Generic (.enumeration underlying discrete)
  | string : Generic .string
  | optional {t : Target} : Generic t → Generic (.optional t)
  | pair {first second : Target} : Generic first → Generic second → Generic (.pair first second)
  | range {t : Target} : Generic t → Generic (.range t)

namespace Generic

/-- `to_json` -/
def toJson : {t : Target} → Generic t → t.Val → Value
  | _, numeric t => ToJson.numeric t
  | _, enumeration underlying _ => ToJson.numeric underlying
  | _, string => .string
  | _, optional inner => ToJson.optional inner.toJson
  | _, pair first second => ToJson.pair first.toJson second.toJson
  | _, range inner => ToJson.range inner.toJson

/-- The floating-point numbers inside are finite. -/
def Finite : {t : Target} → Generic t → t.Val → Prop
  | _, numeric .float => IsFinite32
  | _, numeric .double => IsFinite64
  | _, optional inner => fun x => ∀ y, x = some y → inner.Finite y
  | _, pair first second => fun x => first.Finite x.1 ∧ second.Finite x.2
  | _, range inner => fun (xs : List _) => ∀ x ∈ xs, inner.Finite x
  | _, _ => fun _ => True

/-- The optionals inside have values. -/
def Engaged : {t : Target} → Generic t → t.Val → Prop
  | _, optional inner => fun x => ∃ y, x = some y ∧ inner.Engaged y
  | _, pair first second => fun x => first.Engaged x.1 ∧ second.Engaged x.2
  | _, range inner => fun (xs : List _) => ∀ x ∈ xs, inner.Engaged x
  | _, _ => fun _ => True

end Generic

end OsterLib.Json
