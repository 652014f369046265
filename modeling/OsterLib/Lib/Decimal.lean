import Mathlib.Tactic.Lemma

/-!
# Decimal numbers in a text

The digits of a number are the longest run of digits in front of anything that does not begin with one
(`takeWhile_run`, `dropWhile_run`), and stand for the number (`ofDigitChars_toDigits` of the core library).
-/

namespace OsterLib.Lib

/-- A text does not begin with a digit. -/
def NoDigit (rest : List Char) : Prop := ∀ c, rest.head? = some c → c.isDigit = false

/-- No digit begins the empty text. -/
lemma noDigit_nil : NoDigit [] := by
  intro c impossible
  cases impossible

/-- A text that begins with another character begins with no digit. -/
lemma noDigit_cons {c : Char} (noDigit : c.isDigit = false) (rest : List Char) : NoDigit (c :: rest) := by
  intro d same
  cases same
  exact noDigit

/-- A run of digits ends at the first other character. -/
lemma takeWhile_run {digits rest : List Char} (run : ∀ c ∈ digits, c.isDigit = true) (noDigit : NoDigit rest) :
    (digits ++ rest).takeWhile Char.isDigit = digits := by
  rw [List.takeWhile_append_of_pos run]
  cases rest with
  | nil => rw [List.takeWhile_nil, List.append_nil]
  | cons c rest =>
    rw [List.takeWhile_cons_of_neg (by rw [noDigit c rfl]; exact Bool.false_ne_true), List.append_nil]

/-- Digits are skipped until the first other character. -/
lemma dropWhile_run {digits rest : List Char} (run : ∀ c ∈ digits, c.isDigit = true) (noDigit : NoDigit rest) :
    (digits ++ rest).dropWhile Char.isDigit = rest := by
  rw [List.dropWhile_append_of_pos run]
  cases rest with
  | nil => rw [List.dropWhile_nil]
  | cons c rest => rw [List.dropWhile_cons_of_neg (by rw [noDigit c rfl]; exact Bool.false_ne_true)]

/-- A number is written in digits. -/
lemma isDigit_toDigits (n : Nat) : ∀ c ∈ Nat.toDigits 10 n, c.isDigit = true :=
  fun _ mem => Nat.isDigit_of_mem_toDigits (by decide) (by decide) mem

/-- What is behind a run of digits does not begin with one. -/
lemma noDigit_dropWhile (input : List Char) : NoDigit (input.dropWhile Char.isDigit) := by
  induction input with
  | nil => exact noDigit_nil
  | cons c input ih =>
    cases digit : c.isDigit with
    | true => rwa [List.dropWhile_cons_of_pos digit]
    | false =>
      rw [List.dropWhile_cons_of_neg (by rw [digit]; exact Bool.false_ne_true)]
      exact noDigit_cons digit input

/-- The codes of digits are between those of zero and nine. -/
lemma toNat_of_isDigit {c : Char} (digit : c.isDigit = true) : 48 ≤ c.toNat ∧ c.toNat ≤ 57 := by
  unfold Char.isDigit at digit
  rw [Bool.and_eq_true, decide_eq_true_eq, decide_eq_true_eq] at digit
  exact digit

/-- The number that digits stand for does not depend on whether it is a natural number or an integer. -/
lemma foldl_digits {digits : List Char} (run : ∀ c ∈ digits, c.isDigit = true) (n : Nat) :
    digits.foldl (fun (n : Int) c => 10 * n + (c.toNat - '0'.toNat : Int)) n = Nat.ofDigitChars 10 digits n := by
  induction digits generalizing n with
  | nil => rfl
  | cons c digits ih =>
    have digit := toNat_of_isDigit (run c List.mem_cons_self)
    have next : 10 * (n : Int) + (c.toNat - '0'.toNat : Int) = (10 * n + (c.toNat - '0'.toNat) : Nat) := by
      have zero : '0'.toNat = 48 := rfl
      omega
    rw [List.foldl_cons, Nat.ofDigitChars_cons, next]
    exact ih (fun d mem => run d (List.mem_cons_of_mem _ mem)) _

/-- What a number begins with -/
lemma toString_cases (n : Int) :
    (0 ≤ n ∧ (toString n).toList = Nat.toDigits 10 n.toNat) ∨
      (n < 0 ∧ (toString n).toList = '-' :: Nat.toDigits 10 (-n).toNat) := by
  rw [Int.toString_eq_repr, Int.repr_eq_if]
  split
  case isTrue nonneg => exact .inl ⟨nonneg, Nat.toList_repr⟩
  case isFalse neg =>
    refine .inr ⟨by omega, ?_⟩
    rw [String.toList_append, Nat.toList_repr]
    rfl

end OsterLib.Lib
