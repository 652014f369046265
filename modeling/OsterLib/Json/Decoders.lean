import OsterLib.Json.Value

/-!
# The decoders of `boost_functional/json.h`

`from_json` of numbers, enumerations, strings, optionals, pairs and ranges, and of `linger` and `timeval`. The
ones of templates take the decoders of their arguments, so that they nest as they do in the source.

A record is decoded member by member: a member that the object lacks keeps its default, and one that is not
decoded either keeps it too (`readMember`) or ends the call (`needMember`).
-/

namespace OsterLib.Json

/-! ## Numbers -/

/-- The integral types besides `bool`. -/
inductive Integral where
  | int8
  | int16
  | int32
  | int64
  | uint8
  | uint16
  | uint32
  | uint64
  deriving DecidableEq, Repr

namespace Integral

/-- The type has negative numbers. -/
def signed : Integral → Bool
  | int8 | int16 | int32 | int64 => true
  | uint8 | uint16 | uint32 | uint64 => false

/-- The least number of the type -/
def min : Integral → Int
  | int8 => -2 ^ 7
  | int16 => -2 ^ 15
  | int32 => -2 ^ 31
  | int64 => -2 ^ 63
  | uint8 | uint16 | uint32 | uint64 => 0

/-- The largest number of the type -/
def max : Integral → Int
  | int8 => 2 ^ 7 - 1
  | int16 => 2 ^ 15 - 1
  | int32 => 2 ^ 31 - 1
  | int64 => 2 ^ 63 - 1
  | uint8 => 2 ^ 8 - 1
  | uint16 => 2 ^ 16 - 1
  | uint32 => 2 ^ 32 - 1
  | uint64 => 2 ^ 64 - 1

/-- The type has the number. -/
def Holds (t : Integral) (n : Int) : Prop := t.min ≤ n ∧ n ≤ t.max

instance (t : Integral) (n : Int) : Decidable (t.Holds n) := inferInstanceAs (Decidable (_ ∧ _))

/-- The values of the type. -/
abbrev Val (t : Integral) : Type := { n : Int // t.Holds n }

/-- Every type has zero. -/
lemma holds_zero (t : Integral) : t.Holds 0 := by
  cases t <;> decide

/-- Every type has one. -/
lemma holds_one (t : Integral) : t.Holds 1 := by
  cases t <;> decide

/-- Every type has ten. -/
lemma holds_ten (t : Integral) : t.Holds 10 := by
  cases t <;> decide

end Integral

/-- `to_number<T>` of an integer -/
def toNumber (t : Integral) (n : Int) : Except Fault t.Val :=
  if holds : t.Holds n then .ok ⟨n, holds⟩ else .error (.thrown .systemError)

/-- The numeric types -/
inductive Numeric where
  | float
  | double
  | bool
  | integral (t : Integral)
  deriving DecidableEq, Repr

/-- The values of a numeric type, those of floating-point types by their bits -/
def Numeric.Val : Numeric → Type
  | float => BitVec 32
  | double => BitVec 64
  | bool => Bool
  | integral t => t.Val

/-- The type is a floating-point one. -/
def Numeric.isFloating : Numeric → Bool
  | float | double => true
  | bool | integral _ => false

namespace FromJson

/-- The conversion is made for the kinds that the signedness of the type allows. -/
def integral (t : Integral) : Decoder t.Val
  | .int64 n =>
    if t.signed || (0 ≤ n.toInt : Bool) then (toNumber t n.toInt).map some else .ok none
  | .uint64 n =>
    if !t.signed || (n.toNat < 2 ^ 63 - 1 : Bool) then (toNumber t n.toNat).map some else .ok none
  | _ => .ok none

/-- `from_json<bool>` -/
def bool : Decoder Bool
  | .bool b => .ok (some b)
  | _ => .ok none

/-- `narrow` is the conversion from `double` to `float`. -/
def numeric (narrow : BitVec 64 → BitVec 32) : (t : Numeric) → Decoder t.Val
  | .float, .double bits => .ok (some (narrow bits))
  | .double, .double bits => .ok (some bits)
  | .float, _ | .double, _ => .ok none
  | .bool, value => bool value
  | .integral t, value => integral t value

/-! ## Strings, optionals, pairs and ranges -/

/-- `from_json` of a string -/
def string : Decoder String
  | .string s => .ok (some s)
  | _ => .ok none

section templates
variable {α β : Type}

/-- `from_json` of an optional, which refuses `null` -/
def optional (decode : Decoder α) : Decoder (Option α)
  | .null => .ok none
  | value =>
    match decode value with
    | .error fault => .error fault
    | .ok none => .ok none
    | .ok (some x) => .ok (some (some x))

/-- The array may have any size below three. -/
def pair (first : Decoder α) (second : Decoder β) : Decoder (α × β)
  | .array items =>
    if items.length < 3 then
      match index items 0 with
      | .error fault => .error fault
      | .ok item =>
        match first item with
        | .error fault => .error fault
        | .ok none => .ok none
        | .ok (some x) =>
          match index items 1 with
          | .error fault => .error fault
          | .ok item =>
            match second item with
            | .error fault => .error fault
            | .ok none => .ok none
            | .ok (some y) => .ok (some (x, y))
    else .ok none
  | _ => .ok none

/-- The loop over the elements of an array. -/
def elements (decode : Decoder α) : List Value → List α → Outcome (List α)
  | [], result => .ok (some result)
  | item :: items, result =>
    match decode item with
    | .error fault => .error fault
    | .ok none => .ok none
    | .ok (some x) => elements decode items (result ++ [x])

/-- Ranges that are not associative -/
def range (decode : Decoder α) : Decoder (List α)
  | .array items => elements decode items []
  | _ => .ok none

end templates
end FromJson

/-! ## Records -/

/-- A part of a decoder, which changes the result or ends the call. -/
abbrev Step (S : Type) := S → Outcome S

section members
variable {S α : Type} (members : List (String × Value)) (key : String) (decode : Decoder α) (store : S → α → S)

/-- A member that is not decoded keeps its default. -/
def readMember : Step S := fun s =>
  match find members key with
  | none => .ok (some s)
  | some value =>
    match decode value with
    | .error fault => .error fault
    | .ok none => .ok (some s)
    | .ok (some x) => .ok (some (store s x))

/-- A member that is not decoded makes an unexpected result. -/
def needMember : Step S := fun s =>
  match find members key with
  | none => .ok (some s)
  | some value =>
    match decode value with
    | .error fault => .error fault
    | .ok none => .ok none
    | .ok (some x) => .ok (some (store s x))

/-- One part after the other. -/
def steps : List (Step S) → Step S
  | [], s => .ok (some s)
  | step :: later, s =>
    match step s with
    | .error fault => .error fault
    | .ok none => .ok none
    | .ok (some s) => steps later s

end members

/-- An `int` -/
abbrev CInt := Integral.Val .int32

/-- The conversion of `bool` to `int` -/
def CInt.ofBool : Bool → CInt
  | true => ⟨1, Integral.holds_one _⟩
  | false => ⟨0, Integral.holds_zero _⟩

/-- `struct linger`. A member that is not set has an indeterminate value. -/
structure Linger where
  onOff : Option CInt := none
  linger : Option CInt := none

/-- `struct timeval`, whose members are `long`. -/
structure Timeval where
  sec : Option (Integral.Val .int64) := none
  usec : Option (Integral.Val .int64) := none

namespace FromJson

/-- The check lets `null` pass, on which `as_object` throws. -/
def linger : Decoder Linger := fun value =>
  if !value.isObject && !value.isNull then .ok none
  else
    match value.asObject with
    | .error fault => .error fault
    | .ok members => steps
        [readMember members "active" bool fun result b => { result with onOff := some (CInt.ofBool b) },
      readMember members "duration(sec)" (integral .int32) fun result n => { result with linger := some n }] {}

/-- `from_json<timeval>` -/
def timeval : Decoder Timeval := fun value =>
  if !value.isObject && !value.isNull then .ok none
  else
    match value.asObject with
    | .error fault => .error fault
    | .ok members => steps
        [readMember members "duration(sec)" (integral .int64) fun result n => { result with sec := some n },
      readMember members "duration(usec)" (integral .int64) fun result n => { result with usec := some n }] {}

end FromJson
end OsterLib.Json
