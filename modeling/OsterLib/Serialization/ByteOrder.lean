import OsterLib.Lib.Bytes
import OsterLib.Serialization.Definitions

/-!
# Integers and the byte order

How `Serialize` writes an integer, an enumerator or the bits of a float, and how
`__deserialize_trivial__` of `serialization/multi_buffer.h` reads it back. An integer of `n` bytes is
its raw value, a number below `256 ^ n`.

On a little-endian host the two sides agree (`readWord_wordBytes`), and so they do in network order. In the
order of a big-endian host only the reading swaps the bytes (`readWord_swapped`).
-/

namespace OsterLib.Serialization
open OsterLib.Lib

/-- The template argument `NETWORK_ORDER` and the host's `is_little_endian()`. -/
structure Format where
  networkOrder : Bool
  littleEndian : Bool
  deriving DecidableEq, Repr

namespace Format

/-- The bytes of a raw value in the memory of the host. -/
def memory (f : Format) (n x : Nat) : List Byte :=
  if f.littleEndian then bytesOf n x else (bytesOf n x).reverse

/-- The raw value that stands in the memory of the host. -/
def ofMemory (f : Format) (bytes : List Byte) : Nat :=
  numOf (if f.littleEndian then bytes else bytes.reverse)

end Format

/-- `byteswap` of a number of `n` bytes -/
def byteswap (n x : Nat) : Nat :=
  numOf (bytesOf n x).reverse

/-- What the numeric branch of `Serialize` appends for a raw value of `n` bytes. -/
def wordBytes (f : Format) (n x : Nat) : List Byte :=
  if n = 1 then [UInt8.ofNat x]
  else f.memory n (if f.networkOrder && f.littleEndian then byteswap n x else x)

/-- The raw value that `__deserialize_trivial__` makes of the bytes it reads. -/
def readWord (f : Format) (bytes : List Byte) : Nat :=
  let x := f.ofMemory bytes
  if bytes.length ≤ 1 then x
  else if f.networkOrder then
    if f.littleEndian then byteswap bytes.length x else x
  else
    if f.littleEndian then x else byteswap bytes.length x

/-- `serialize` of a number of `n` bytes -/
def serializeWord (f : Format) (n x : Nat) : Serializer :=
  fun buffer => (.none, buffer ++ wordBytes f n x)

/-- A number has as many bytes as its type. -/
@[simp] lemma wordBytes_length (f : Format) (n x : Nat) : (wordBytes f n x).length = n := by
  unfold wordBytes
  split
  · simp_all
  · unfold Format.memory
    split <;> simp

/-- The bytes of the swapped number are those of the number, turned round. -/
lemma bytesOf_byteswap (n x : Nat) : bytesOf n (byteswap n x) = (bytesOf n x).reverse := by
  have back := bytesOf_numOf (bytesOf n x).reverse
  rw [List.length_reverse, bytesOf_length] at back
  exact back

/-- Numbers are read as they are written: on a little-endian host, and in network order on every host. -/
def Format.Symmetric (f : Format) : Prop := f.littleEndian = true ∨ f.networkOrder = true

/-- What is read back is the raw value that was written. -/
lemma readWord_wordBytes (f : Format) (symmetric : f.Symmetric) (n x : Nat) :
    readWord f (wordBytes f n x) = x % 256 ^ n := by
  unfold readWord
  rw [wordBytes_length]
  unfold wordBytes Format.ofMemory Format.memory
  by_cases one : n = 1
  · cases little : f.littleEndian <;> simp [one, numOf]
  · by_cases zero : n = 0
    · cases little : f.littleEndian <;> simp [zero, bytesOf, numOf, Nat.mod_one]
    · rw [if_neg (show ¬ n ≤ 1 by omega)]
      cases little : f.littleEndian with
      | false =>
        have network : f.networkOrder = true := symmetric.resolve_left (by simp [little])
        simp [one, network, numOf_bytesOf]
      | true =>
        cases network : f.networkOrder with
        | false => simp [one, numOf_bytesOf]
        | true =>
          simp only [one, Bool.and_true, if_true, if_false]
          rw [bytesOf_byteswap]
          unfold byteswap
          have swapped := bytesOf_numOf (bytesOf n x).reverse
          rw [List.length_reverse, bytesOf_length] at swapped
          rw [swapped, List.reverse_reverse, numOf_bytesOf]

/-- In network order the most significant byte comes first, on either kind of host. -/
lemma wordBytes_network (littleEndian : Bool) (n x : Nat) :
    wordBytes ⟨true, littleEndian⟩ n x = bigEndian n x := by
  unfold wordBytes Format.memory
  by_cases one : n = 1
  · -- a single byte has no order
    subst one
    simp [bigEndian]
  · rw [if_neg one]
    cases littleEndian with
    | false =>
      simp only [Bool.and_false, Bool.false_eq_true, if_false]
      exact reverse_bytesOf n x
    | true =>
      simp only [Bool.and_true, if_true]
      rw [bytesOf_byteswap, reverse_bytesOf]

/-- In the order of a big-endian host the bytes are swapped when they are read, and only then. -/
lemma readWord_swapped {f : Format} (asymmetric : ¬ f.Symmetric) (n x : Nat) :
    readWord f (wordBytes f n x) = byteswap n x := by
  obtain ⟨network, little⟩ := f
  have big : little = false := Bool.eq_false_of_not_eq_true fun host => asymmetric (.inl host)
  have native : network = false := Bool.eq_false_of_not_eq_true fun order => asymmetric (.inr order)
  subst big native
  unfold readWord
  rw [wordBytes_length]
  by_cases few : n ≤ 1
  · rw [if_pos few]
    -- up to one byte there is nothing to swap
    obtain rfl | rfl : n = 0 ∨ n = 1 := by omega
    · rfl
    · simp [wordBytes, Format.ofMemory, byteswap, bytesOf, numOf]
  · rw [if_neg few]
    unfold wordBytes Format.ofMemory Format.memory
    rw [if_neg (show ¬ n = 1 by omega)]
    simp only [Bool.and_false, Bool.false_eq_true, if_false, List.reverse_reverse]
    show byteswap n (numOf (bytesOf n x)) = _
    have same := bytesOf_numOf (bytesOf n x)
    rw [bytesOf_length] at same
    rw [byteswap, same, byteswap]

/-- What is read fits its bytes. -/
lemma readWord_lt (f : Format) (n x : Nat) : readWord f (wordBytes f n x) < 256 ^ n := by
  by_cases symmetric : f.Symmetric
  · rw [readWord_wordBytes f symmetric]
    exact Nat.mod_lt _ (Nat.pow_pos (by decide))
  · have bound := numOf_lt (bytesOf n x).reverse
    rw [List.length_reverse, bytesOf_length] at bound
    rw [readWord_swapped symmetric]
    exact bound

/-- Both sides agree on the order of the bytes, or these are the same in either order. -/
def Format.Legible (f : Format) (n x : Nat) : Prop := f.Symmetric ∨ bigEndian n x = bytesOf n x

/-- A single byte has no order. -/
lemma Format.legible_one (f : Format) (x : Nat) : f.Legible 1 x := .inr (reverse_bytesOf 1 x).symm

/-- A raw value is read as it was written if and only if it is legible. -/
lemma readWord_wordBytes_iff (f : Format) {n x : Nat} (bound : x < 256 ^ n) :
    readWord f (wordBytes f n x) = x ↔ f.Legible n x := by
  unfold Format.Legible
  by_cases symmetric : f.Symmetric
  · rw [readWord_wordBytes f symmetric, Nat.mod_eq_of_lt bound]
    exact iff_of_true rfl (.inl symmetric)
  · rw [readWord_swapped symmetric, or_iff_right symmetric, byteswap, reverse_bytesOf]
    have length : (bigEndian n x).length = n := by
      rw [← reverse_bytesOf, List.length_reverse, bytesOf_length]
    exact numOf_eq_iff bound length

end OsterLib.Serialization
