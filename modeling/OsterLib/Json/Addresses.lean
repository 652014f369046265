import OsterLib.Json.Encoders
import OsterLib.Lib.Decimal

/-!
# Addresses

`to_json` writes the host of an address behind the name of its family and the port behind `port:`, both as texts.
`from_json` passes the whole host to `inet_pton` and reads the port as a number only, so that it stays zero
(`address_decoded`). No address with a port is returned (`address_never_returned`); with an `inet_pton` that
takes nothing but an address, none is (`address_refused`).
-/

namespace OsterLib.Json
open OsterLib.Lib

/-- The number of bytes of an address. -/
def Family.size : Family → Nat
  | ipv4 => 4
  | ipv6 => 16

/-- The host has as many bytes as its family asks for. -/
def Endpoint.Valid (endpoint : Endpoint) : Prop := endpoint.host.length = endpoint.family.size

/-- `inet_pton` reads what `inet_ntop` writes. -/
def Inverse (platform : Platform) (inetNtop : Family → List UInt8 → String) : Prop :=
  ∀ endpoint : Endpoint, endpoint.Valid →
    platform.inetPton endpoint.family (inetNtop endpoint.family endpoint.host).toList = some endpoint.host

section addresses
variable (platform : Platform) (inetNtop : Family → List UInt8 → String)

/-- `from_json(to_json(a))` succeeds with the same family, bytes and port. -/
def Returned (endpoint : Endpoint) : Prop :=
  FromJson.address platform (ToJson.address inetNtop (some endpoint)) = .ok (some (some endpoint))

/-- The text of a host begins with the name of the family. -/
lemma toList_ipToText (endpoint : Endpoint) :
    ∃ digit rest, (ToJson.ipToText inetNtop (some endpoint)).toList = 'I' :: 'P' :: 'v' :: digit :: ':' :: rest ∧
      digit.toNat ≠ 0 := by
  obtain ⟨family, host, port⟩ := endpoint
  cases family with
  | ipv4 => exact ⟨'4', (inetNtop .ipv4 host).toList, String.toList_append, by decide⟩
  | ipv6 => exact ⟨'6', (inetNtop .ipv6 host).toList, String.toList_append, by decide⟩

/-- The text of a host is never empty. -/
lemma ipToText_ne_empty (addr : Address) : ToJson.ipToText inetNtop addr ≠ "" := by
  cases addr with
  | none =>
    change "NaN" ≠ ""
    decide
  | some endpoint =>
    intro empty
    obtain ⟨digit, rest, text, _⟩ := toList_ipToText inetNtop endpoint
    rw [empty] at text
    cases text

/-- The host is decoded with what stands before it, and the port keeps its default. -/
lemma address_decoded (addr : Address) :
    FromJson.address platform (ToJson.address inetNtop addr) =
      .ok ((makeAddress platform (ToJson.ipToText inetNtop addr) ⟨0, Integral.holds_zero _⟩).map some) := by
  have text := ipToText_ne_empty inetNtop addr
  unfold ToJson.address
  generalize ToJson.ipToText inetNtop addr = host at text
  simp only [FromJson.address, steps, readMember, find, List.lookup_cons, FromJson.string, FromJson.integral,
    beq_self_eq_true, String.reduceBEq]
  rw [if_pos (.inr text)]
  cases makeAddress platform host ⟨0, Integral.holds_zero _⟩ <;> rfl

/-- An address that is made has the port given. -/
lemma makeAddress_port {host : String} {port : Port} {endpoint : Endpoint}
    (made : makeAddress platform host port = some endpoint) : endpoint.port = port := by
  unfold makeAddress at made
  split at made
  · cases made
    rfl
  · split at made
    · cases made
      rfl
    · cases made

/-- With an `inet_pton` that takes no text with a letter that is in no address, no address is returned at all. -/
lemma address_refused (refuses : ∀ family text, 'v' ∈ text → platform.inetPton family text = none)
    (endpoint : Endpoint) : FromJson.address platform (ToJson.address inetNtop (some endpoint)) = .ok none := by
  obtain ⟨digit, rest, text, nonzero⟩ := toList_ipToText inetNtop endpoint
  have letter : 'v' ∈ cString (ToJson.ipToText inetNtop (some endpoint)) := by
    unfold cString
    rw [text]
    simp
  rw [address_decoded]
  unfold makeAddress
  rw [refuses .ipv4 _ letter, refuses .ipv6 _ letter]
  rfl

end addresses

/-- Whatever becomes of the host, the port of an address is not returned. -/
theorem address_never_returned (platform : Platform) (inetNtop : Family → List UInt8 → String) (endpoint : Endpoint)
    (port : endpoint.port.val ≠ 0) : ¬ Returned platform inetNtop endpoint := by
  intro returned
  unfold Returned at returned
  rw [address_decoded] at returned
  cases made : makeAddress platform (ToJson.ipToText inetNtop (some endpoint)) ⟨0, Integral.holds_zero _⟩ with
  | none =>
    rw [made] at returned
    cases returned
  | some decoded =>
    rw [made] at returned
    cases returned
    exact port (congrArg Subtype.val (makeAddress_port platform made))

/-! ## Texts of addresses -/

/-- The bytes of a host in decimals, with a separator between them. -/
def hostText (separator : Char) (host : List UInt8) : List Char :=
  [separator].intercalate (host.map fun byte => Nat.toDigits 10 byte.toNat)

/-- A byte in decimal -/
def readByte (digits : List Char) : Option UInt8 :=
  let n := Nat.ofDigitChars 10 digits 0
  if digits ≠ [] ∧ digits.all Char.isDigit ∧ n < 256 then some (UInt8.ofNat n) else none

/-- The bytes of a host, each in decimal -/
def readHost (separator : Char) (size : Nat) (text : List Char) : Option (List UInt8) :=
  if (text.splitOn separator).length = size then (text.splitOn separator).mapM readByte else none

/-- IPv4 in its dotted notation. -/
def Family.separator : Family → Char
  | ipv4 => '.'
  | ipv6 => ':'

/-- A platform that reads hosts in decimal -/
def decimalPlatform : Platform where
  narrow bits := bits.setWidth 32
  hardwareConcurrency := ⟨1, Integral.holds_one _⟩
  inetPton family text := readHost family.separator family.size text

/-- How this platform writes a host -/
def decimalNtop (family : Family) (host : List UInt8) : String := String.ofList (hostText family.separator host)

/-- A byte is read as it was written. -/
lemma readByte_toDigits (byte : UInt8) : readByte (Nat.toDigits 10 byte.toNat) = some byte := by
  have number : Nat.ofDigitChars 10 (Nat.toDigits 10 byte.toNat) 0 = byte.toNat :=
    Nat.ofDigitChars_toDigits (by decide) (Nat.le_refl 10)
  have digits : (Nat.toDigits 10 byte.toNat).all Char.isDigit = true := List.all_eq_true.2 (isDigit_toDigits _)
  unfold readByte
  simp only [number]
  rw [if_pos ⟨Nat.toDigits_ne_nil, digits, byte.toNat_lt⟩, UInt8.ofNat_toNat]

/-- A host is read from its text. -/
lemma readHost_hostText {separator : Char} (noDigit : separator.isDigit = false) {host : List UInt8}
    (filled : host ≠ []) : readHost separator host.length (hostText separator host) = some host := by
  have parts : (hostText separator host).splitOn separator = host.map fun byte => Nat.toDigits 10 byte.toNat := by
    apply List.splitOn_intercalate
    · intro part mem within
      obtain ⟨byte, _, rfl⟩ := List.mem_map.1 mem
      rw [isDigit_toDigits _ _ within] at noDigit
      cases noDigit
    · exact fun none => filled (List.map_eq_nil_iff.1 none)
  unfold readHost
  rw [parts, List.length_map, if_pos rfl]
  clear parts filled
  induction host with
  | nil => rfl
  | cons byte host ih => rw [List.map_cons, List.mapM_cons, readByte_toDigits, ih]; rfl

/-- Writing and reading hosts are inverse on this platform. -/
lemma decimal_inverse : Inverse decimalPlatform decimalNtop := by
  intro endpoint valid
  unfold Endpoint.Valid at valid
  have filled : endpoint.host ≠ [] := by
    intro empty
    rw [empty] at valid
    cases family : endpoint.family <;> rw [family] at valid <;> cases valid
  have noDigit : endpoint.family.separator.isDigit = false := by
    cases endpoint.family <;> rfl
  have back := readHost_hostText noDigit filled
  rw [valid] at back
  unfold decimalNtop
  rw [String.toList_ofList]
  exact back

/-- Port 80 of the local host. -/
def localhost : Endpoint where
  family := .ipv4
  host := [127, 0, 0, 1]
  port := ⟨80, by decide⟩

/-- The local host is not returned. -/
theorem localhost_never_returned : ¬ Returned decimalPlatform decimalNtop localhost :=
  address_never_returned decimalPlatform decimalNtop localhost (by decide)

/-- The prefix is no part of an address, and `port:80` is no number. -/
theorem localhost_lost : ¬ ∀ (platform : Platform) (inetNtop : Family → List UInt8 → String),
    Inverse platform inetNtop → ∀ endpoint : Endpoint, endpoint.Valid → endpoint.port.val ≠ 0 →
      Returned platform inetNtop endpoint := by
  intro all
  have returned := all decimalPlatform decimalNtop decimal_inverse localhost rfl (by decide)
  unfold Returned at returned
  rw [address_decoded] at returned
  have refused : makeAddress decimalPlatform (ToJson.ipToText decimalNtop (some localhost))
      ⟨0, Integral.holds_zero _⟩ = none := by decide +kernel
  rw [refused] at returned
  cases returned

end OsterLib.Json
