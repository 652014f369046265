import OsterLib.Json.Decoders
import OsterLib.Types.DateTimeDiff

/-!
# The decoders of settings and periods

`from_json` of `TimePeriod`, `DateTimeDiff`, `Address`, `ConnectionOptions` and of the settings of servers and
clients, with the records they fill and their defaults.
-/

namespace OsterLib.Json
open OsterLib.Types

/-! ## Periods -/

/-- `TimePeriod`, by the counts of its durations. -/
structure TimePeriod where
  years : Int64 := 0
  months : Int64 := 0
  days : Int64 := 0
  hours : Int64 := 0
  minutes : Int64 := 0
  seconds : Int64 := 0
  deriving DecidableEq

/-- `val.at(key).as_int64()` -/
def Value.count (value : Value) (key : String) : Except Fault Int64 := do
  let count ← value.member key
  count.asInt64

/-- The exception caught is not the one that `at` and `as_int64` throw. -/
def FromJson.timePeriod : Decoder TimePeriod := fun value =>
  let period : Except Fault TimePeriod := do
    let years ← value.count "years"
    let months ← value.count "months"
    let days ← value.count "days"
    let hours ← value.count "hours"
    let minutes ← value.count "minutes"
    let seconds ← value.count "seconds"
    return { years, months, days, hours, minutes, seconds }
  catching .invalidArgument (period.map some)

/-! ### `sscanf` -/

/-- What a format of `sscanf` is made of. -/
inductive Directive where
  | int
  | blank
  | char (c : Char)

/-- `isspace` -/
def isSpace (c : Char) : Bool := c = ' ' || ('\t' ≤ c && c ≤ '\r')

/-- The sign and the digits of `%d`, and what is behind them. -/
def scanSigned (input : List Char) : Option (Int × List Char) :=
  let (negative, input) :=
    match input with
    | '-' :: rest => (true, rest)
    | '+' :: rest => (false, rest)
    | _ => (false, input)
  let digits := input.takeWhile Char.isDigit
  if digits = [] then none
  else
    let n := digits.foldl (fun (n : Int) c => 10 * n + (c.toNat - '0'.toNat : Int)) 0
    some (if negative then -n else n, input.dropWhile Char.isDigit)

/-- `strtol` saturates, and the result is stored in an `int`. -/
def storeInt (n : Int) : Int := (max (-2 ^ 63) (min (2 ^ 63 - 1) n)).bmod (2 ^ 32)

/-- The values that are stored until the first directive that fails. -/
def scan : List Directive → List Char → List Int
  | [], _ => []
  | .int :: format, input =>
    match scanSigned (input.dropWhile isSpace) with
    | some (n, input) => storeInt n :: scan format input
    | none => []
  | .blank :: format, input => scan format (input.dropWhile isSpace)
  | .char c :: format, input =>
    match input with
    | d :: input => if d = c then scan format input else []
    | [] => []

/-- `"%dY %dM %dD %dh %dm %ds"` -/
def dateTimeFormat : List Directive :=
  [.int, .char 'Y', .blank, .int, .char 'M', .blank, .int, .char 'D', .blank, .int, .char 'h', .blank,
    .int, .char 'm', .blank, .int, .char 's']

/-- A string as `c_str` shows it. -/
def cString (s : String) : List Char := s.toList.takeWhile (· ≠ Char.ofNat 0)

/-- The error code of the constructor is not looked at. -/
def FromJson.dateTimeDiff : Decoder DateTimeDiff
  | .string s =>
    match scan dateTimeFormat (cString s) with
    | [years, months, days, hours, minutes, seconds] =>
      .ok (some (DateTimeDiff.ofCounts years months days hours minutes seconds).1)
    | _ => .ok none
  | _ => .ok none

/-! ## Network -/

/-- `AF_INET` and `AF_INET6` -/
inductive Family where
  | ipv4
  | ipv6
  deriving DecidableEq, Repr

/-- What is outside of the repository: the conversion from `double` to `float`, the number of processors,
    and `inet_pton`. -/
structure Platform where
  narrow : BitVec 64 → BitVec 32
  hardwareConcurrency : Integral.Val .uint32
  inetPton : Family → List Char → Option (List UInt8)

/-- A port of 16 bits -/
abbrev Port := Integral.Val .uint16

/-- An address with its family and port -/
structure Endpoint where
  family : Family
  host : List UInt8
  port : Port
  deriving DecidableEq

/-- `network::Address`, which is `none` where its length is zero. -/
abbrev Address := Option Endpoint

/-- `make_address`, which is `none` where it sets its error code. -/
def makeAddress (platform : Platform) (host : String) (port : Port) : Option Endpoint :=
  match platform.inetPton .ipv4 (cString host) with
  | some bytes => some { family := .ipv4, host := bytes, port }
  | none =>
    match platform.inetPton .ipv6 (cString host) with
    | some bytes => some { family := .ipv6, host := bytes, port }
    | none => none

/-- What is read of an address -/
structure HostPort where
  host : String := ""
  port : Port := ⟨0, Integral.holds_zero _⟩

/-- `from_json<Address>` -/
def FromJson.address (platform : Platform) : Decoder Address
  | .object members =>
    match steps [readMember members "host" string fun result host => { result with host },
        readMember members "port" (integral .uint16) fun result port => { result with port }] ({} : HostPort) with
    | .error fault => .error fault
    | .ok none => .ok none
    | .ok (some result) =>
      if result.port.val ≠ 0 ∨ result.host ≠ "" then
        match makeAddress platform result.host result.port with
        | some endpoint => .ok (some (some endpoint))
        | none => .ok none
      else .ok (some none)
  | _ => .ok none

/-- `ConnectionOptions` -/
structure ConnectionOptions where
  reuseAddress : CInt := ⟨0, Integral.holds_zero _⟩
  reusePort : CInt := ⟨0, Integral.holds_zero _⟩
  broadcastSocket : CInt := ⟨0, Integral.holds_zero _⟩
  dontRoute : CInt := ⟨0, Integral.holds_zero _⟩
  keepAlive : CInt := ⟨0, Integral.holds_zero _⟩
  linger : Linger := { onOff := some ⟨0, Integral.holds_zero _⟩, linger := some ⟨-1, by decide⟩ }
  timeoutSend : Timeval := { sec := some ⟨0, Integral.holds_zero _⟩, usec := some ⟨0, Integral.holds_zero _⟩ }
  timeoutInput : Timeval := { sec := some ⟨0, Integral.holds_zero _⟩, usec := some ⟨0, Integral.holds_zero _⟩ }
  expectMinBytesAvailable : CInt := ⟨1, Integral.holds_one _⟩
  bufferSizeIn : CInt := ⟨1024, by decide⟩
  bufferSizeOut : CInt := ⟨1024, by decide⟩

/-- `from_json<ConnectionOptions>` -/
def FromJson.connectionOptions : Decoder ConnectionOptions
  | .object members =>
    steps [
      readMember members "reuse address" (integral .int32) fun result n => { result with reuseAddress := n },
      readMember members "reuse port" (integral .int32) fun result n => { result with reusePort := n },
      readMember members "broadcast" (integral .int32) fun result n => { result with broadcastSocket := n },
      readMember members "don't route" (integral .int32) fun result n => { result with dontRoute := n },
      readMember members "keep alive" (integral .int32) fun result n => { result with keepAlive := n },
      readMember members "linger" linger fun result x => { result with linger := x },
      readMember members "timeout sending" timeval fun result x => { result with timeoutSend := x },
      readMember members "timeout receive" timeval fun result x => { result with timeoutInput := x },
      readMember members "min bytes input" (integral .int32)
        fun result n => { result with expectMinBytesAvailable := n },
      readMember members "input buffer" (integral .int32) fun result n => { result with bufferSizeIn := n },
      readMember members "output buffer" (integral .int32) fun result n => { result with bufferSizeOut := n }] {}
  | _ => .ok none

/-- The numbers of the protocols that have a name. -/
def protocolNumbers : List Nat :=
  [0, 1, 2, 4, 6, 8, 12, 17, 22, 29, 33, 41, 46, 47, 50, 51, 92, 94, 98, 103, 108, 132, 136, 137, 143, 255, 262]

/-- Without a fixed underlying type, the enumeration has all values of nine bits. -/
inductive Protocol where
  | ip
  | icmp
  | igmp
  | ipip
  | tcp
  | egp
  | pup
  | udp
  | idp
  | tp
  | dccp
  | ipv6
  | rsvp
  | gre
  | esp
  | ah
  | mtp
  | beetph
  | encap
  | pim
  | comp
  | sctp
  | udplite
  | mpls
  | ethernet
  | raw
  | mptcp
  | unnamed (number : Fin 512) (other : number.val ∉ protocolNumbers)
  deriving DecidableEq

namespace Protocol

/-- `num_to_proto`, by `protocol::to_text` -/
def toText : Protocol → String
  | ip => "ip"
  | icmp => "icmp"
  | igmp => "igmp"
  | ipip => "ipip"
  | tcp => "tcp"
  | egp => "egp"
  | pup => "pup"
  | udp => "udp"
  | idp => "idp"
  | tp => "tp"
  | dccp => "dccp"
  | ipv6 => "ipv6"
  | rsvp => "rsvp"
  | gre => "gre"
  | esp => "esp"
  | ah => "ah"
  | mtp => "mtp"
  | beetph => "beetph"
  | encap => "encap"
  | pim => "pim"
  | comp => "comp"
  | sctp => "sctp"
  | udplite => "udplite"
  | mpls => "mpls"
  | ethernet => "eth"
  | raw => "raw"
  | mptcp => "mptcp"
  | unnamed _ _ => ""

/-- The protocols that have names -/
def all : List Protocol :=
  [ip, icmp, igmp, ipip, tcp, egp, pup, udp, idp, tp, dccp, ipv6, rsvp, gre, esp, ah, mtp, beetph, encap, pim, comp,
    sctp, udplite, mpls, ethernet, raw, mptcp]

/-- `protocol::to_number`, by the inverse table. -/
def toNumber (proto : String) : Option Protocol := all.find? fun number => number.toText = proto

end Protocol

/-- A name that is not known stands for TCP. -/
def protocolOf (proto : String) : Protocol := (Protocol.toNumber proto).getD .tcp

/-- `ServerSettings` -/
structure ServerSettings where
  host : String := ""
  service : String := ""
  protocol : Protocol := .tcp
  timeoutSecondsProcesses : CInt := ⟨30, by decide⟩
  port : Port := ⟨0, Integral.holds_zero _⟩
  numThreadsPool : Integral.Val .uint32
  numberEvents : Integral.Val .uint32 := ⟨10, Integral.holds_ten _⟩
  options : ConnectionOptions := {}

/-- The constructor that moves, which leaves a member out. -/
def ServerSettings.moved (settings : ServerSettings) : ServerSettings :=
  { settings with numberEvents := ⟨10, Integral.holds_ten _⟩ }

/-- `from_json<ServerSettings>` -/
def FromJson.serverSettings (platform : Platform) : Decoder ServerSettings := fun value =>
  let result : ServerSettings := { numThreadsPool := platform.hardwareConcurrency }
  match value with
  | .object members =>
    steps [
      needMember members "host" string fun result host => { result with host },
      needMember members "jobs" (integral .uint32) fun result n => { result with numThreadsPool := n },
      needMember members "service" string fun result service => { result with service },
      needMember members "port" (integral .uint16) fun result port => { result with port },
      needMember members "protocol" string fun result proto => { result with protocol := protocolOf proto },
      needMember members "timeout" (integral .int32)
        fun result n => { result with timeoutSecondsProcesses := n },
      needMember members "options" connectionOptions fun result options => { result with options }] result
      |>.map (Option.map ServerSettings.moved)
  | _ => .ok (some result.moved)

/-- `ClientSettings` -/
structure ClientSettings where
  bindedAddr : Option Address := none
  timeoutSecondsProcesses : CInt := ⟨30, by decide⟩
  numThreadsPool : Integral.Val .uint32
  numberEvents : Integral.Val .uint32 := ⟨10, Integral.holds_ten _⟩
  options : ConnectionOptions := {}
  protocol : Protocol := .tcp

/-- The constructor that moves, which leaves two members out. -/
def ClientSettings.moved (settings : ClientSettings) : ClientSettings :=
  { settings with bindedAddr := none, numberEvents := ⟨10, Integral.holds_ten _⟩ }

/-- The exception caught is one of `boost::container`. -/
def FromJson.clientSettings (platform : Platform) : Decoder ClientSettings := fun value =>
  let result : ClientSettings := { numThreadsPool := platform.hardwareConcurrency }
  match value with
  | .object members =>
    catching .outOfRange (steps [
      needMember members "jobs" (integral .uint32) fun result n => { result with numThreadsPool := n },
      needMember members "protocol" string fun result proto => { result with protocol := protocolOf proto },
      needMember members "timeout" (integral .int32)
        fun result n => { result with timeoutSecondsProcesses := n },
      needMember members "options" connectionOptions fun result options => { result with options },
      readMember members "address bind" (address platform)
        fun result addr => { result with bindedAddr := some addr }] result)
      |>.map (Option.map ClientSettings.moved)
  | _ => .ok (some result.moved)

/-! ## All targets -/

/-- The types that a value can be decoded to. -/
inductive Target where
  | numeric (t : Numeric)
  | enumeration (underlying : Numeric) (discrete : underlying.isFloating = false)
  | string
  | optional (t : Target)
  | pair (first second : Target)
  | range (t : Target)
  | linger
  | timeval
  | timePeriod
  | dateTimeDiff
  | address
  | connectionOptions
  | serverSettings
  | clientSettings

/-- An enumeration holds any value of the underlying type. -/
def Target.Val : Target → Type
  | numeric t => t.Val
  | enumeration underlying _ => underlying.Val
  | string => String
  | optional t => Option t.Val
  | pair first second => first.Val × second.Val
  | range t => List t.Val
  | linger => Linger
  | timeval => Timeval
  | timePeriod => TimePeriod
  | dateTimeDiff => DateTimeDiff
  | address => Address
  | connectionOptions => ConnectionOptions
  | serverSettings => ServerSettings
  | clientSettings => ClientSettings

/-- `from_json` -/
def fromJson (platform : Platform) : (t : Target) → Decoder t.Val
  | .numeric t => FromJson.numeric platform.narrow t
  | .enumeration underlying _ => FromJson.numeric platform.narrow underlying
  | .string => FromJson.string
  | .optional t => FromJson.optional (fromJson platform t)
  | .pair first second => FromJson.pair (fromJson platform first) (fromJson platform second)
  | .range t => FromJson.range (fromJson platform t)
  | .linger => FromJson.linger
  | .timeval => FromJson.timeval
  | .timePeriod => FromJson.timePeriod
  | .dateTimeDiff => FromJson.dateTimeDiff
  | .address => FromJson.address platform
  | .connectionOptions => FromJson.connectionOptions
  | .serverSettings => FromJson.serverSettings platform
  | .clientSettings => FromJson.clientSettings platform

end OsterLib.Json
