import Mathlib.Algebra.Order.Ring.Int
import Mathlib.Tactic.Lemma

/-!
# JSON values

`boost::json::value` and the accesses of it that the decoders of `boost_functional/json.h` make. `as_object`,
`as_int64`, `at` and `to_number` throw a `boost::system::system_error` where the kind, the key or the range
does not match. `operator[]` of an array checks nothing.
-/

namespace OsterLib.Json

/-- Floating-point numbers stand by their bits. The keys of an object are distinct. -/
inductive Value where
  | null
  | bool (b : Bool)
  | int64 (n : Int64)
  | uint64 (n : UInt64)
  | double (bits : BitVec 64)
  | string (s : String)
  | array (items : List Value)
  | object (members : List (String × Value))

/-- The exceptions that a `catch` clause of the decoders tells apart. -/
inductive Exception where
  | systemError
  | invalidArgument
  | outOfRange
  deriving DecidableEq, Repr

/-- What ends a decoder without a result. -/
inductive Fault where
  | thrown (exception : Exception)
  | outOfBounds
  deriving DecidableEq, Repr

/-- What a decoder returns, a `std::expected<T, std::exception>`. Its error is cut down to the base class
    and says nothing: it is `none`. -/
abbrev Outcome (α : Type) := Except Fault (Option α)

abbrev Decoder (α : Type) := Value → Outcome α

/-- A `catch` clause around a decoder, which makes an unexpected result out of the exception. -/
def catching {α : Type} (caught : Exception) : Outcome α → Outcome α
  | .error (.thrown exception) => if exception = caught then .ok none else .error (.thrown exception)
  | outcome => outcome

namespace Value

def isNull : Value → Bool
  | null => true
  | _ => false

def isObject : Value → Bool
  | object _ => true
  | _ => false

def asObject : Value → Except Fault (List (String × Value))
  | object members => .ok members
  | _ => .error (.thrown .systemError)

def asInt64 : Value → Except Fault Int64
  | int64 n => .ok n
  | _ => .error (.thrown .systemError)

end Value

/-- The value of a key, where the object contains it. -/
def find (members : List (String × Value)) (key : String) : Option Value :=
  members.lookup key

/-- `value::at` of a key -/
def Value.member (value : Value) (key : String) : Except Fault Value := do
  let members ← value.asObject
  match find members key with
  | some value => return value
  | none => .error (.thrown .systemError)

/-- `array::operator[]` -/
def index (items : List Value) (i : Nat) : Except Fault Value :=
  match items[i]? with
  | some item => .ok item
  | none => .error .outOfBounds

end OsterLib.Json
