import Mathlib.Tactic.Lemma
import Mathlib.Algebra.Order.Ring.Nat

/-!
# Numbers as bytes

The `n` bytes of a number, least significant first, and the number that bytes stand for. Most significant
first, they are the same bytes backwards (`reverse_bytesOf`).
-/

namespace OsterLib.Lib

/-- The low `n` bytes of a number, least significant first. -/
def bytesOf : Nat → Nat → List UInt8
  | 0, _ => []
  | n + 1, x => UInt8.ofNat (x % 256) :: bytesOf n (x / 256)

/-- The number that bytes stand for, least significant first. -/
def numOf : List UInt8 → Nat
  | [] => 0
  | b :: bs => b.toNat + 256 * numOf bs

/-- There are as many bytes as asked for. -/
@[simp] lemma bytesOf_length (n x : Nat) : (bytesOf n x).length = n := by
  induction n generalizing x with
  | zero => rfl
  | succ n ih => simp [bytesOf, ih]

/-- The bytes have what fits of the number. -/
lemma numOf_bytesOf (n x : Nat) : numOf (bytesOf n x) = x % 256 ^ n := by
  induction n generalizing x with
  | zero => simp [bytesOf, numOf, Nat.mod_one]
  | succ n ih =>
    have byte : (UInt8.ofNat (x % 256)).toNat = x % 256 := by simp
    rw [bytesOf, numOf, ih, byte, Nat.pow_succ, Nat.mul_comm (256 ^ n) 256, Nat.mod_mul]

/-- Bytes are recovered from the number they stand for. -/
lemma bytesOf_numOf (bs : List UInt8) : bytesOf bs.length (numOf bs) = bs := by
  induction bs with
  | nil => rfl
  | cons b bs ih =>
    have byte : b.toNat < 256 := b.toNat_lt
    have low : (b.toNat + 256 * numOf bs) % 256 = b.toNat := by omega
    have high : (b.toNat + 256 * numOf bs) / 256 = numOf bs := by omega
    rw [List.length_cons, numOf, bytesOf, low, high, ih]
    simp

/-- Bytes are a number below the power of their count. -/
lemma numOf_lt (bs : List UInt8) : numOf bs < 256 ^ bs.length := by
  induction bs with
  | nil => exact Nat.one_pos
  | cons b bs ih =>
    have byte : b.toNat < 256 := b.toNat_lt
    rw [numOf, List.length_cons, Nat.pow_succ]
    omega

/-- The low `n` bytes of a number, most significant first. -/
def bigEndian : Nat → Nat → List UInt8
  | 0, _ => []
  | n + 1, x => UInt8.ofNat (x / 256 ^ n) :: bigEndian n x

/-- A byte is the number modulo 256. -/
lemma ofNat_mod_byte (x : Nat) : UInt8.ofNat (x % 256) = UInt8.ofNat x := by
  apply UInt8.toNat.inj
  simp

/-- The most significant byte stands last. -/
lemma bytesOf_succ (n x : Nat) : bytesOf (n + 1) x = bytesOf n x ++ [UInt8.ofNat (x / 256 ^ n)] := by
  induction n generalizing x with
  | zero =>
    rw [Nat.pow_zero, Nat.div_one, ← ofNat_mod_byte]
    rfl
  | succ n ih => rw [bytesOf, ih, Nat.div_div_eq_div_mul, ← Nat.pow_succ', bytesOf, List.cons_append]

/-- The other order is the one in which the most significant byte is first. -/
lemma reverse_bytesOf (n x : Nat) : (bytesOf n x).reverse = bigEndian n x := by
  induction n with
  | zero => rfl
  | succ n ih => rw [bytesOf_succ, List.reverse_append, ih, bigEndian, List.reverse_singleton, List.singleton_append]

/-- A number below `256 ^ n` is known by its bytes. -/
lemma numOf_eq_iff {n x : Nat} (bound : x < 256 ^ n) {bs : List UInt8} (length : bs.length = n) :
    numOf bs = x ↔ bs = bytesOf n x := by
  subst length
  refine ⟨fun same => ?_, fun same => ?_⟩
  · rw [← same, bytesOf_numOf]
  · rw [same, numOf_bytesOf, Nat.mod_eq_of_lt bound]

end OsterLib.Lib
