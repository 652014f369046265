import Mathlib.Algebra.Order.Ring.Int
import Mathlib.Tactic.Lemma

/-!
# Error codes and segments

`std::error_code` as the network code uses it: clear, or holding one `std::errc`. The enumerators are
those that the modelled functions name; every other `errno` value is `other`.
-/

namespace OsterLib.Network

/-- The `std::errc` values that the code compares with or stores. -/
inductive Errc where
  | alreadyConnected
  | badFileDescriptor
  | badMessage
  | connectionReset
  | noBufferSpace
  | noSuchDevice
  | notConnected
  | operationCanceled
  | operationInProgress
  | resourceUnavailableTryAgain
  | other (errno : Nat)
  deriving DecidableEq, Repr

/-- `std::error_code`; `none` is the cleared code. -/
abbrev ErrorCode := Option Errc

/-- A segment of a storage, as `struct iovec` points into it: first cell and number of cells. -/
structure Iovec where
  base : Nat := 0
  len : Nat := 0
  deriving DecidableEq, Repr

end OsterLib.Network
