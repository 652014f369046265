import Mathlib.Data.List.Basic
import Mathlib.Data.List.Induction
import OsterLib.Lib.Decimal
import OsterLib.Types.DateTimeDiff

/-!
# Differences of dates as text

The `lexical_cast`s between `DateTimeDiff` and `std::string` in `types/time_interval.cpp`, and `iend_with` of
`parsing.h`. The characters of a text stand for its bytes.

The parser takes a number and a unit off the text, one pair after the other (`loop_cases`). It never reads `min`, as it
takes the `m` for months, and it stores seconds as days. A number that `from_chars` does not store is used all the same
where a unit follows, which is undefined. `dateTimeDiff_accepts_iff` and `dateTimeDiff_string_iff` say which texts are
read as they are meant, and which differences are read back from their text.
-/

namespace OsterLib.Types
open OsterLib.Lib

/-- What ends the parser without a value: its exception, or what C++ leaves undefined. -/
inductive TextFault where
  | runtimeError (what : String)
  | undefined
  deriving DecidableEq, Repr

namespace LexicalCast

/-! ## The parser -/

/-- `case_insensitive_char_compare`, where `toupper` leaves everything but the letters from `a` to `z` as it is -/
def caseInsensitiveCharCompare (ch1 ch2 : Char) : Bool := ch1.toUpper = ch2.toUpper

/-- `iend_with` of a single text, which is compared with all of `str` -/
def iendWith (str toMatch : List Char) : Bool :=
  if str.length < toMatch.length then false
  else (toMatch.drop (str.length - toMatch.length)).isEqv str caseInsensitiveCharCompare

/-- `find_char`: the position of the first character that is no digit. It is an `int32_t`, and there is none where
    this overflows. -/
def findChar (input : List Char) : Option Int :=
  if input = [] then some (-1)
  else if (input.takeWhile Char.isDigit).length < 2 ^ 31 then some (input.takeWhile Char.isDigit).length
  else none

/-- `from_chars` of digits, which stores no number where there is no digit or `int32_t` does not hold it. -/
def fromChars (digits : List Char) : Option Int :=
  if digits = [] ∨ 2 ^ 31 ≤ Nat.ofDigitChars 10 digits 0 then none else some (Nat.ofDigitChars 10 digits 0)

/-- A branch of the loop: the unit it looks for, the range of the field and what is stored. -/
structure Branch where
  unit : List Char
  bound : Int
  store : Int → DateTimeDiff → DateTimeDiff

/-- The units in the order in which they are tried, each with its bound and its field -/
def branches : List Branch :=
  [{ unit := ['h'], bound := 2 ^ 7, store := fun tmp result => { result with hours := Int8.ofInt tmp } },
    { unit := ['y'], bound := 2 ^ 15, store := fun tmp result => { result with years := Int16.ofInt tmp } },
    { unit := ['m'], bound := 2 ^ 7, store := fun tmp result => { result with months := Int8.ofInt tmp } },
    { unit := ['d'], bound := 2 ^ 7, store := fun tmp result => { result with days := Int8.ofInt tmp } },
    { unit := ['m', 'i', 'n'], bound := 2 ^ 7, store := fun tmp result => { result with days := Int8.ofInt tmp } },
    { unit := ['s'], bound := 2 ^ 7, store := fun tmp result => { result with days := Int8.ofInt tmp } }]

/-- The first branch whose unit is at `pos` and whose field holds `tmp`. The number is not read before a unit is found,
    and the position behind the unit is an `int32_t` again. -/
def choose (input : String) (current : List Char) (pos : Nat) (tmp : Option Int) (result : DateTimeDiff) :
    List Branch → Except TextFault (DateTimeDiff × List Char)
  | [] => .error (.runtimeError ("invalid DateTimeDiff input: " ++ input))
  | branch :: others =>
    if iendWith ((current.drop pos).take branch.unit.length) branch.unit then
      match tmp with
      | none => .error .undefined
      | some n =>
        if n < branch.bound ∧ -branch.bound ≤ n then
          if 2 ^ 31 ≤ pos + branch.unit.length then .error .undefined
          else .ok (branch.store n result, current.drop (pos + branch.unit.length))
        else choose input current pos tmp result others
    else choose input current pos tmp result others

/-- A turn of the loop: the new result and what is left of the text. The range of `from_chars` ends before it begins
    where the text is empty. -/
def step (input : String) (current : List Char) (result : DateTimeDiff) :
    Except TextFault (DateTimeDiff × List Char) :=
  match findChar current with
  | none => .error .undefined
  | some pos =>
    if pos < 0 then .error .undefined
    else choose input current pos.toNat (fromChars (current.take pos.toNat)) result branches

/-- A text that ends with another one is not shorter. -/
lemma length_of_iendWith {str toMatch : List Char} (ends : iendWith str toMatch = true) :
    toMatch.length ≤ str.length := by
  unfold iendWith at ends
  split at ends
  case isTrue => cases ends
  case isFalse long => exact Nat.le_of_not_lt long

/-- A turn takes a unit off the text at least. -/
lemma choose_shorter {input : String} {current rest : List Char} {pos : Nat} {tmp : Option Int}
    {result result' : DateTimeDiff} {choices : List Branch} (units : ∀ branch ∈ choices, 0 < branch.unit.length)
    (chosen : choose input current pos tmp result choices = .ok (result', rest)) : rest.length < current.length := by
  induction choices with
  | nil => cases chosen
  | cons branch others ih =>
    have skip := ih fun other mem => units other (List.mem_cons_of_mem _ mem)
    have unit := units branch List.mem_cons_self
    unfold choose at chosen
    split at chosen
    case isFalse => exact skip chosen
    case isTrue ends =>
      cases tmp with
      | none => cases chosen
      | some n =>
        dsimp only at chosen
        split at chosen
        case isFalse => exact skip chosen
        case isTrue =>
          split at chosen
          case isTrue => cases chosen
          case isFalse =>
            cases chosen
            have long := length_of_iendWith ends
            rw [List.length_take, List.length_drop] at long
            rw [List.length_drop]
            omega

/-- A step leaves less of the text. -/
lemma step_shorter {input : String} {current rest : List Char} {result result' : DateTimeDiff}
    (stepped : step input current result = .ok (result', rest)) : rest.length < current.length := by
  unfold step at stepped
  split at stepped
  case h_1 => cases stepped
  case h_2 =>
    split at stepped
    case isTrue => cases stepped
    case isFalse => exact choose_shorter (by decide) stepped

/-- The loop, which ends with the text -/
def loop (input : String) (current : List Char) (result : DateTimeDiff) : Except TextFault DateTimeDiff :=
  match _stepped : step input current result with
  | .error fault => .error fault
  | .ok (result, rest) => if rest = [] then .ok result else loop input rest result
termination_by current.length
decreasing_by exact step_shorter _stepped

/-- `lexical_cast<DateTimeDiff>` -/
def dateTimeDiff (input : String) : Except TextFault DateTimeDiff := loop input input.toList {}

/-! ## The printer -/

/-- `lexical_cast<std::string>`, which writes the hours for the minutes and the seconds as well -/
def string (input : DateTimeDiff) : String :=
  let result := ""
  let result := if 0 < input.years then result ++ toString input.years.toInt ++ "y" else result
  let result := if 0 < input.months then result ++ toString input.months.toInt ++ "m" else result
  let result := if 0 < input.days then result ++ toString input.days.toInt ++ "d" else result
  let result := if 0 < input.hours then result ++ toString input.hours.toInt ++ "h" else result
  let result := if 0 < input.minutes then result ++ toString input.hours.toInt ++ "min" else result
  let result := if 0 < input.seconds then result ++ toString input.hours.toInt ++ "s" else result
  if result.isEmpty then result ++ "0s" else result

/-! ## The grammar -/

/-- The units that a text may give numbers for -/
inductive TextUnit where
  | y | m | d | h | min | s
  deriving DecidableEq, Repr

/-- The letters of a unit -/
def TextUnit.letters : TextUnit → List Char
  | .y => ['y']
  | .m => ['m']
  | .d => ['d']
  | .h => ['h']
  | .min => ['m', 'i', 'n']
  | .s => ['s']

/-- The numbers of its field are smaller. -/
def TextUnit.bound : TextUnit → Nat
  | .y => 2 ^ 15
  | _ => 2 ^ 7

/-- A number and its unit, in letters of any case -/
structure Token where
  digits : List Char
  unit : TextUnit
  letters : List Char
  digits_ne_nil : digits ≠ []
  isDigit : ∀ c ∈ digits, c.isDigit = true
  spelled : letters.map Char.toUpper = unit.letters.map Char.toUpper
  fits : Nat.ofDigitChars 10 digits 0 < unit.bound

/-- A token is written as its digits and its letters. -/
def Token.text (token : Token) : List Char := token.digits ++ token.letters

/-- The number of a token -/
def Token.number (token : Token) : Nat := Nat.ofDigitChars 10 token.digits 0

/-- The text of some tokens -/
def textOf (tokens : List Token) : List Char := tokens.flatMap Token.text

/-- The last number that is given for one of some units, or zero -/
def lastNumber (units : TextUnit → Bool) (tokens : List Token) : Nat :=
  (tokens.filter fun token => units token.unit).getLast?.elim 0 Token.number

/-- The last numbers given for each unit -/
def meaning (tokens : List Token) : DateTimeDiff where
  years := Int16.ofInt (lastNumber (· = .y) tokens)
  months := Int8.ofInt (lastNumber (· = .m) tokens)
  days := Int8.ofInt (lastNumber (· = .d) tokens)
  hours := Int8.ofInt (lastNumber (· = .h) tokens)
  minutes := Int8.ofInt (lastNumber (· = .min) tokens)
  seconds := Int8.ofInt (lastNumber (· = .s) tokens)

/-! ## Turns of the loop -/

/-- Where the number of a unit goes -/
def TextUnit.store : TextUnit → Int → DateTimeDiff → DateTimeDiff
  | .y, n, result => { result with years := Int16.ofInt n }
  | .m, n, result => { result with months := Int8.ofInt n }
  | .h, n, result => { result with hours := Int8.ofInt n }
  | .d, n, result | .min, n, result | .s, n, result => { result with days := Int8.ofInt n }

/-- The unit that a single letter stands for -/
def letterUnit (c : Char) : Option TextUnit :=
  [.h, .y, .m, .d, .s].find? fun unit => unit.letters.map Char.toUpper = [c.toUpper]

section turns
variable {input : String} {current tail : List Char} {c : Char} {pos : Nat} {tmp : Option Int} {result : DateTimeDiff}

/-- A unit that is found begins with the character at the position. -/
lemma iendWith_head {unit : List Char} (some : unit ≠ [])
    (ends : iendWith ((c :: tail).take unit.length) unit = true) : unit.head?.map Char.toUpper = .some c.toUpper := by
  cases unit with
  | nil => exact absurd rfl some
  | cons letter others =>
    have long := length_of_iendWith ends
    rw [List.length_take] at long
    have same : ((c :: tail).take (letter :: others).length).length - (letter :: others).length = 0 := by
      rw [List.length_take]
      omega
    unfold iendWith at ends
    rw [same, List.length_cons, List.take_succ_cons, List.drop_zero, List.isEqv_cons_cons] at ends
    split at ends
    case isTrue => cases ends
    case isFalse => exact congrArg Option.some (of_decide_eq_true (Bool.and_eq_true_iff.mp ends).1)

/-- A letter ends with itself, in either case. -/
lemma iendWith_letter {letter : Char} (same : letter.toUpper = c.toUpper) :
    iendWith ((c :: tail).take [letter].length) [letter] = true := by
  change (decide (letter.toUpper = c.toUpper) && true) = true
  rw [decide_eq_true same]
  rfl

/-- No branch is taken where every unit that is found has a field that does not hold the number. -/
lemma choose_none {choices : List Branch}
    (none : ∀ branch ∈ choices, iendWith ((current.drop pos).take branch.unit.length) branch.unit = true →
      ∃ n, tmp = some n ∧ ¬(n < branch.bound ∧ -branch.bound ≤ n)) :
    choose input current pos tmp result choices =
      .error (.runtimeError ("invalid DateTimeDiff input: " ++ input)) := by
  induction choices with
  | nil => rfl
  | cons branch others ih =>
    have skip := ih fun other mem => none other (List.mem_cons_of_mem _ mem)
    unfold choose
    split
    case isFalse => exact skip
    case isTrue ends =>
      obtain ⟨n, rfl, beyond⟩ := none branch List.mem_cons_self ends
      dsimp only
      rw [if_neg beyond]
      exact skip

/-- The first branch whose unit is found, where those behind it have a field of the same size or another unit. -/
lemma choose_at {before others : List Branch} {branch : Branch}
    (skip : ∀ other ∈ before, iendWith ((current.drop pos).take other.unit.length) other.unit = false)
    (ends : iendWith ((current.drop pos).take branch.unit.length) branch.unit = true)
    (behind : ∀ other ∈ others, iendWith ((current.drop pos).take other.unit.length) other.unit = true →
      other.bound = branch.bound) :
    choose input current pos tmp result (before ++ branch :: others) =
      match tmp with
      | none => .error .undefined
      | some n =>
        if n < branch.bound ∧ -branch.bound ≤ n then
          if 2 ^ 31 ≤ pos + branch.unit.length then .error .undefined
          else .ok (branch.store n result, current.drop (pos + branch.unit.length))
        else .error (.runtimeError ("invalid DateTimeDiff input: " ++ input)) := by
  induction before with
  | nil =>
    rw [List.nil_append]
    unfold choose
    rw [if_pos ends]
    cases tmp with
    | none => rfl
    | some n =>
      dsimp only
      split
      case isTrue => rfl
      case isFalse beyond =>
        apply choose_none
        intro other mem found
        exact ⟨n, rfl, by rw [behind other mem found]; exact beyond⟩
  | cons other before ih =>
    rw [List.cons_append]
    unfold choose
    rw [if_neg (by rw [skip other List.mem_cons_self]; exact Bool.false_ne_true)]
    exact ih fun other mem => skip other (List.mem_cons_of_mem _ mem)

/-- What a turn does with a number and what is behind it -/
def turn (input : String) (pos : Nat) (tmp : Option Int) (result : DateTimeDiff) :
    List Char → Except TextFault (DateTimeDiff × List Char)
  | [] => .error (.runtimeError ("invalid DateTimeDiff input: " ++ input))
  | c :: tail =>
    match letterUnit c with
    | none => .error (.runtimeError ("invalid DateTimeDiff input: " ++ input))
    | some unit =>
      match tmp with
      | none => .error .undefined
      | some n =>
        if n < unit.bound ∧ -unit.bound ≤ n then
          if 2 ^ 31 ≤ pos + 1 then .error .undefined else .ok (unit.store n result, tail)
        else .error (.runtimeError ("invalid DateTimeDiff input: " ++ input))

/-- The letters of a unit other than `min` -/
lemma letterUnit_eq_some {unit : TextUnit} :
    letterUnit c = some unit ↔ unit ≠ .min ∧ [c].map Char.toUpper = unit.letters.map Char.toUpper := by
  constructor
  · intro found
    have spelled := List.find?_some found
    have single : ∀ unit ∈ [TextUnit.h, .y, .m, .d, .s], unit ≠ .min := by decide
    exact ⟨single unit (List.mem_of_find?_eq_some found), (of_decide_eq_true spelled).symm⟩
  · rintro ⟨single, spelled⟩
    unfold letterUnit
    rw [show [c.toUpper] = _ from spelled]
    cases unit with
    | min => exact absurd rfl single
    | y | m | d | h | s => decide

/-- The branch of a single letter, where no unit before it begins with this letter, and behind it only units whose field
    has the same size. -/
lemma choose_letter {before others : List Branch} {branch : Branch} {letter : Char} {unit : TextUnit}
    (behind : current.drop pos = c :: tail) (parts : branches = before ++ branch :: others)
    (single : branch.unit = [letter]) (same : letter.toUpper = c.toUpper) (found : letterUnit c = some unit)
    (bound : branch.bound = unit.bound) (store : branch.store = unit.store)
    (skip : ∀ other ∈ before, other.unit.head?.map Char.toUpper ≠ some letter.toUpper)
    (after : ∀ other ∈ others, other.unit.head?.map Char.toUpper = some letter.toUpper →
      other.bound = branch.bound) :
    choose input current pos tmp result branches = turn input pos tmp result (c :: tail) := by
  have next : current.drop (pos + 1) = tail := by rw [← List.drop_drop, behind, List.drop_one, List.tail_cons]
  have units : ∀ other ∈ branches, other.unit ≠ [] := by decide
  rw [parts] at units ⊢
  rw [choose_at]
  · rw [turn, found, single, List.length_singleton, next, bound, store]
  · intro other mem
    rw [behind]
    cases ends : iendWith ((c :: tail).take other.unit.length) other.unit with
    | false => rfl
    | true =>
      have head := iendWith_head (units other (List.mem_append_left _ mem)) ends
      exact absurd (by rw [head, same]) (skip other mem)
  · rw [behind, single]
    exact iendWith_letter same
  · intro other mem ends
    rw [behind] at ends
    have head := iendWith_head (units other (List.mem_append_right _ (List.mem_cons_of_mem _ mem))) ends
    exact after other mem (by rw [head, same])

/-- The branch is chosen by the character behind the digits. -/
lemma choose_cons (behind : current.drop pos = c :: tail) :
    choose input current pos tmp result branches = turn input pos tmp result (c :: tail) := by
  cases found : letterUnit c with
  | some unit =>
    obtain ⟨single, spelled⟩ := letterUnit_eq_some.mp found
    have same {letter : Char} (letters : unit.letters = [letter]) : letter.toUpper = c.toUpper := by
      rw [letters] at spelled
      exact (List.cons.inj spelled).1.symm
    have chosen {before others : List Branch} {branch : Branch} {letter : Char} :=
      @choose_letter input current tail c pos tmp result before others branch letter unit behind
    cases unit with
    | h => exact @chosen [] _ _ _ rfl rfl (same rfl) found rfl rfl (by decide) (by decide)
    | y => exact @chosen [_] _ _ _ rfl rfl (same rfl) found rfl rfl (by decide) (by decide)
    | m => exact @chosen [_, _] _ _ _ rfl rfl (same rfl) found rfl rfl (by decide) (by decide)
    | d => exact @chosen [_, _, _] _ _ _ rfl rfl (same rfl) found rfl rfl (by decide) (by decide)
    | min => exact absurd rfl single
    | s => exact @chosen [_, _, _, _, _] _ _ _ rfl rfl (same rfl) found rfl rfl (by decide) (by decide)
  | none =>
    rw [turn, found, choose_none]
    intro branch mem ends
    have heads : ∀ branch ∈ branches, branch.unit ≠ [] ∧ ∃ unit ∈ [TextUnit.h, .y, .m, .d, .s],
        unit.letters.map Char.toUpper = (branch.unit.head?.map Char.toUpper).toList := by decide
    obtain ⟨some, unit, single, head⟩ := heads branch mem
    rw [behind] at ends
    rw [iendWith_head some ends] at head
    exact absurd (decide_eq_true head) (List.find?_eq_none.mp found unit single)

/-- What a turn does is decided by the character behind the number: `min` is never chosen, as `m` is looked for
    first. -/
lemma choose_branches :
    choose input current pos tmp result branches = turn input pos tmp result (current.drop pos) := by
  cases behind : current.drop pos with
  | nil =>
    apply choose_none
    intro branch mem ends
    have units : ∀ branch ∈ branches, 0 < branch.unit.length := by decide
    have short := length_of_iendWith ends
    rw [behind, List.take_nil] at short
    exact absurd short (Nat.not_le.mpr (units branch mem))
  | cons c tail => exact choose_cons behind

/-- A turn where the text begins with digits -/
lemma step_run {digits rest : List Char} (run : ∀ c ∈ digits, c.isDigit = true) (noDigit : NoDigit rest)
    (some : digits ++ rest ≠ []) :
    step input (digits ++ rest) result =
      if 2 ^ 31 ≤ digits.length then .error .undefined
      else turn input digits.length (fromChars digits) result rest := by
  unfold step findChar
  rw [if_neg some, takeWhile_run run noDigit]
  by_cases long : 2 ^ 31 ≤ digits.length
  · rw [if_neg (Nat.not_lt.mpr long), if_pos long]
  rw [if_pos (Nat.lt_of_not_le long), if_neg long]
  dsimp only
  rw [if_neg (by omega), Int.toNat_natCast, List.take_left' rfl, choose_branches, List.drop_left' rfl]

/-- A turn with any text that is not empty -/
lemma step_eq (some : current ≠ []) :
    step input current result =
      if 2 ^ 31 ≤ (current.takeWhile Char.isDigit).length then .error .undefined
      else turn input (current.takeWhile Char.isDigit).length (fromChars (current.takeWhile Char.isDigit)) result
        (current.dropWhile Char.isDigit) := by
  have parts := List.takeWhile_append_dropWhile (p := Char.isDigit) (l := current)
  have run : ∀ c ∈ current.takeWhile Char.isDigit, c.isDigit = true := List.all_eq_true.mp List.all_takeWhile
  have stepped := @step_run input result _ _ run (noDigit_dropWhile current) (by rwa [parts])
  rwa [parts] at stepped

/-- A digit is its own upper case. -/
lemma toUpper_digit (digit : c.isDigit = true) : c.toUpper = c := by
  obtain ⟨-, high⟩ := toNat_of_isDigit digit
  unfold Char.toUpper
  rw [dif_neg]
  rintro ⟨le, -⟩
  have le' : 'a'.toNat ≤ c.toNat := le
  have a : 'a'.toNat = 97 := rfl
  omega

/-- A character that is a letter in upper case is no digit. -/
lemma isDigit_of_toUpper {letter : Char} (same : letter = c.toUpper) (noDigit : letter.isDigit = false) :
    c.isDigit = false := by
  cases digit : c.isDigit with
  | false => rfl
  | true =>
    rw [same, toUpper_digit digit, digit] at noDigit
    cases noDigit

/-- The letter of a unit is no digit. -/
lemma isDigit_of_letterUnit {unit : TextUnit} (found : letterUnit c = some unit) : c.isDigit = false := by
  obtain ⟨single, spelled⟩ := letterUnit_eq_some.mp found
  cases unit with
  | min => exact absurd rfl single
  | y | m | d | h | s => exact isDigit_of_toUpper (List.cons.inj spelled).1.symm rfl

/-- A number is read of digits, and of some. -/
lemma fromChars_eq_some {digits : List Char} {n : Int} (read : fromChars digits = some n) :
    digits ≠ [] ∧ n = Nat.ofDigitChars 10 digits 0 := by
  unfold fromChars at read
  split at read
  case isTrue => cases read
  case isFalse number =>
    cases read
    exact ⟨fun none => number (.inl none), rfl⟩

end turns

/-! ## Tokens -/

/-- The parser reads a token. -/
def Readable (token : Token) : Prop := token.unit ≠ .min ∧ token.digits.length + 1 < 2 ^ 31

/-- The parser gets to what is left undefined: a position that `int32_t` does not hold, or a unit behind a number that
    is not stored. -/
def Stuck (rest : List Char) : Prop :=
  2 ^ 31 ≤ (rest.takeWhile Char.isDigit).length ∨
    ∃ c tail unit, rest.dropWhile Char.isDigit = c :: tail ∧ letterUnit c = some unit ∧
      (fromChars (rest.takeWhile Char.isDigit) = none ∨
        (Nat.ofDigitChars 10 (rest.takeWhile Char.isDigit) 0 < unit.bound ∧
          2 ^ 31 ≤ (rest.takeWhile Char.isDigit).length + 1))

section tokens
variable {input : String} {current rest : List Char} {result result' : DateTimeDiff} {token : Token}

/-- No bound is above that of the years. -/
lemma TextUnit.bound_le (unit : TextUnit) : unit.bound ≤ 2 ^ 15 := by
  cases unit <;> decide

/-- No bound is below that of the hours. -/
lemma TextUnit.le_bound (unit : TextUnit) : 2 ^ 7 ≤ unit.bound := by
  cases unit <;> decide

/-- The digits of a token are read as its number. -/
lemma Token.fromChars (token : Token) : LexicalCast.fromChars token.digits = some (token.number : Int) := by
  have fits := token.fits
  have small := token.unit.bound_le
  unfold LexicalCast.fromChars
  rw [if_neg]
  · rfl
  · rintro (none | large)
    · exact token.digits_ne_nil none
    · omega

/-- A token that is not one of minutes has a single letter. -/
lemma Token.letter (single : token.unit ≠ .min) : ∃ c, token.letters = [c] ∧ letterUnit c = some token.unit := by
  have spelled := token.spelled
  have one : token.letters.length = 1 := by
    have same := congrArg List.length spelled
    rw [List.length_map, List.length_map] at same
    rw [same]
    cases e : token.unit with
    | min => exact absurd e single
    | y | m | d | h | s => rfl
  obtain ⟨c, letters⟩ := List.length_eq_one_iff.mp one
  rw [letters] at spelled
  exact ⟨c, letters, letterUnit_eq_some.mpr ⟨single, spelled⟩⟩

/-- What a turn does with a token whose unit is not `min` -/
lemma step_text (single : token.unit ≠ .min) (rest : List Char) :
    step input (token.text ++ rest) result =
      if 2 ^ 31 ≤ token.digits.length + 1 then .error .undefined
      else .ok (token.unit.store token.number result, rest) := by
  obtain ⟨c, letters, found⟩ := token.letter single
  have noDigit : NoDigit (c :: rest) := noDigit_cons (isDigit_of_letterUnit found) rest
  have text : token.text ++ rest = token.digits ++ c :: rest := by
    unfold Token.text
    rw [letters, List.append_assoc, List.singleton_append]
  have fits : (token.number : Int) < token.unit.bound := Int.ofNat_lt.mpr token.fits
  rw [text, step_run token.isDigit noDigit (List.append_ne_nil_of_left_ne_nil token.digits_ne_nil _)]
  split
  case isTrue long => rw [if_pos (Nat.le_succ_of_le long)]
  case isFalse =>
    rw [turn, found, token.fromChars]
    dsimp only
    rw [if_pos ⟨fits, by omega⟩]

/-- A step that is stuck is undefined. -/
lemma step_stuck (stuck : Stuck current) : step input current result = .error .undefined := by
  have some : current ≠ [] := by
    rintro rfl
    rcases stuck with long | ⟨c, tail, unit, behind, -⟩
    · cases long
    · cases behind
  rw [step_eq some]
  split
  case isTrue => rfl
  case isFalse short =>
    rcases stuck with long | ⟨c, tail, unit, behind, found, unstored | ⟨fits, long⟩⟩
    · exact absurd long short
    · rw [behind, turn, found, unstored]
    · rw [behind, turn, found]
      cases read : fromChars (current.takeWhile Char.isDigit) with
      | none => rfl
      | some n =>
        obtain ⟨-, rfl⟩ := fromChars_eq_some read
        dsimp only
        rw [if_pos ⟨by omega, by omega⟩, if_pos long]

/-- What a turn does with a text that is not empty -/
lemma step_cases (some : current ≠ []) :
    (step input current result = .error .undefined ∧ Stuck current) ∨
      (step input current result = .error (.runtimeError ("invalid DateTimeDiff input: " ++ input))) ∨
      ∃ token rest, Readable token ∧ current = token.text ++ rest ∧
        step input current result = .ok (token.unit.store token.number result, rest) := by
  rw [step_eq some]
  split
  case isTrue long => exact .inl ⟨rfl, .inl long⟩
  case isFalse short =>
    cases behind : current.dropWhile Char.isDigit with
    | nil => exact .inr (.inl rfl)
    | cons c tail =>
      rw [turn]
      cases found : letterUnit c with
      | none => exact .inr (.inl rfl)
      | some unit =>
        cases read : fromChars (current.takeWhile Char.isDigit) with
        | none => exact .inl ⟨rfl, .inr ⟨c, tail, unit, behind, found, .inl read⟩⟩
        | some n =>
          dsimp only
          obtain ⟨digits, rfl⟩ := fromChars_eq_some read
          split
          case isFalse => exact .inr (.inl rfl)
          case isTrue fits =>
            have fits' := Int.ofNat_lt.mp fits.1
            split
            case isTrue long => exact .inl ⟨rfl, .inr ⟨c, tail, unit, behind, found, .inr ⟨fits', long⟩⟩⟩
            case isFalse short' =>
              obtain ⟨single, spelled⟩ := letterUnit_eq_some.mp found
              have run : ∀ c ∈ current.takeWhile Char.isDigit, c.isDigit = true :=
                List.all_eq_true.mp List.all_takeWhile
              refine .inr (.inr ⟨⟨_, unit, [c], digits, run, spelled, fits'⟩, tail,
                ⟨single, Nat.lt_of_not_le short'⟩, ?_, rfl⟩)
              unfold Token.text
              rw [List.append_assoc, List.singleton_append, ← behind, List.takeWhile_append_dropWhile]

/-- The rest of `min` is not read. -/
lemma step_min (minutes : token.unit = .min) (rest : List Char) :
    step input (token.text ++ rest) result = .error .undefined ∨
      ∃ result' c tail, step input (token.text ++ rest) result = .ok (result', c :: tail) ∧ c.isDigit = false ∧
        letterUnit c = none := by
  have spelled := token.spelled
  have fits := token.fits
  rw [minutes] at spelled fits
  obtain ⟨m, i, n, letters⟩ : ∃ m i n, token.letters = [m, i, n] := by
    have same := congrArg List.length spelled
    rw [List.length_map, List.length_map] at same
    exact List.length_eq_three.mp same
  rw [letters] at spelled
  simp only [List.map_cons, List.map_nil, TextUnit.letters, List.cons.injEq] at spelled
  obtain ⟨upperM, upperI, -⟩ := spelled
  have found : letterUnit m = some .m := letterUnit_eq_some.mpr ⟨by decide, congrArg (fun c => [c]) upperM⟩
  have other : letterUnit i = none := by
    unfold letterUnit
    rw [upperI]
    decide
  have text : token.text ++ rest = token.digits ++ m :: i :: n :: rest := by
    unfold Token.text
    rw [letters, List.append_assoc]
    rfl
  have fits' : (token.number : Int) < TextUnit.m.bound := Int.ofNat_lt.mpr fits
  rw [text, step_run token.isDigit (noDigit_cons (isDigit_of_letterUnit found) _)
    (List.append_ne_nil_of_left_ne_nil token.digits_ne_nil _)]
  split
  case isTrue => exact .inl rfl
  case isFalse =>
    rw [turn, found, token.fromChars]
    dsimp only
    rw [if_pos ⟨fits', by omega⟩]
    split
    case isTrue => exact .inl rfl
    case isFalse => exact .inr ⟨_, i, n :: rest, rfl, isDigit_of_toUpper upperI.symm rfl, other⟩

/-! ## The loop -/

/-- What is stored for tokens -/
def stored (tokens : List Token) (result : DateTimeDiff) : DateTimeDiff :=
  tokens.foldl (fun result token => token.unit.store token.number result) result

/-- A loop whose step fails does so. -/
lemma loop_error {fault : TextFault} (stepped : step input current result = .error fault) :
    loop input current result = .error fault := by
  rw [loop]
  split
  case h_1 same =>
    rw [stepped] at same
    cases same
    rfl
  case h_2 same =>
    rw [stepped] at same
    cases same

/-- A loop goes on with the rest of the text. -/
lemma loop_ok (stepped : step input current result = .ok (result', rest)) :
    loop input current result = if rest = [] then .ok result' else loop input rest result' := by
  rw [loop]
  split
  case h_1 same =>
    rw [stepped] at same
    cases same
  case h_2 same =>
    rw [stepped] at same
    cases same
    rfl

/-- A token comes before the others. -/
lemma textOf_cons (token : Token) (tokens : List Token) : textOf (token :: tokens) = token.text ++ textOf tokens :=
  List.flatMap_cons

/-- Some tokens have a text. -/
lemma textOf_ne_nil {tokens : List Token} (some : tokens ≠ []) : textOf tokens ≠ [] := by
  cases tokens with
  | nil => exact absurd rfl some
  | cons token tokens =>
    rw [textOf_cons]
    exact List.append_ne_nil_of_left_ne_nil (List.append_ne_nil_of_left_ne_nil token.digits_ne_nil _) _

/-- The loop reads tokens one after the other. -/
lemma loop_tokens {tokens : List Token} (readable : ∀ token ∈ tokens, Readable token) (some : rest ≠ []) :
    loop input (textOf tokens ++ rest) result = loop input rest (stored tokens result) := by
  induction tokens generalizing result with
  | nil => rfl
  | cons token tokens ih =>
    obtain ⟨single, short⟩ := readable token List.mem_cons_self
    have stepped : step input (token.text ++ (textOf tokens ++ rest)) result = _ := step_text single _
    rw [if_neg (Nat.not_le.mpr short)] at stepped
    rw [textOf_cons, List.append_assoc, loop_ok stepped, if_neg (List.append_ne_nil_of_right_ne_nil _ some)]
    exact ih fun later mem => readable later (List.mem_cons_of_mem _ mem)

/-- Tokens without minutes: what is stored is returned, or a position is not held. -/
lemma loop_complete {tokens : List Token} (single : ∀ token ∈ tokens, token.unit ≠ .min) (some : tokens ≠ []) :
    loop input (textOf tokens) result = .ok (stored tokens result) ∨
      (loop input (textOf tokens) result = .error .undefined ∧ ∃ token ∈ tokens, ¬Readable token) := by
  induction tokens generalizing result with
  | nil => exact absurd rfl some
  | cons token tokens ih =>
    have stepped : step input (token.text ++ textOf tokens) result = _ :=
      step_text (single token List.mem_cons_self) (textOf tokens)
    rw [textOf_cons]
    split at stepped
    case isTrue long =>
      exact .inr ⟨loop_error stepped, token, List.mem_cons_self, fun readable => Nat.not_lt.mpr long readable.2⟩
    case isFalse =>
      rw [loop_ok stepped]
      cases tokens with
      | nil =>
        rw [if_pos (show textOf [] = [] from rfl)]
        exact .inl rfl
      | cons next tokens =>
        rw [if_neg (textOf_ne_nil (List.cons_ne_nil _ _))]
        rcases @ih (token.unit.store token.number result) (fun later mem => single later (List.mem_cons_of_mem _ mem))
          (List.cons_ne_nil _ _) with ok | ⟨error, later, mem, unreadable⟩
        · exact .inl ok
        · exact .inr ⟨error, later, List.mem_cons_of_mem _ mem, unreadable⟩

/-- Tokens that the parser reads are stored. -/
lemma loop_readable {tokens : List Token} (readable : ∀ token ∈ tokens, Readable token) (some : tokens ≠ []) :
    loop input (textOf tokens) result = .ok (stored tokens result) := by
  rcases @loop_complete input result tokens (fun token mem => (readable token mem).1) some with
    ok | ⟨-, token, mem, unreadable⟩
  · exact ok
  · exact absurd (readable token mem) unreadable

/-- A text with a number of minutes is never read. -/
lemma loop_min (minutes : token.unit = .min) (rest : List Char) :
    ∃ fault, loop input (token.text ++ rest) result = .error fault := by
  rcases @step_min input result token minutes rest with stepped | ⟨result', c, tail, stepped, noDigit, other⟩
  · exact ⟨_, loop_error stepped⟩
  · rw [loop_ok stepped, if_neg (List.cons_ne_nil _ _)]
    have next : step input ([] ++ c :: tail) result' = _ :=
      step_run (List.forall_mem_nil _) (noDigit_cons noDigit tail) (List.cons_ne_nil _ _)
    rw [if_neg (by decide), turn, other] at next
    exact ⟨_, loop_error next⟩

/-- A text of tokens that is read has no minutes, and gives what is stored. -/
lemma loop_tokens_ok {tokens : List Token} (some : tokens ≠ [])
    (ok : loop input (textOf tokens) result = .ok result') :
    (∀ token ∈ tokens, token.unit ≠ .min) ∧ result' = stored tokens result := by
  induction tokens generalizing result with
  | nil => exact absurd rfl some
  | cons token tokens ih =>
    rw [textOf_cons] at ok
    have single : token.unit ≠ .min := by
      intro minutes
      obtain ⟨fault, error⟩ := @loop_min input result token minutes (textOf tokens)
      rw [error] at ok
      cases ok
    have stepped : step input (token.text ++ textOf tokens) result = _ := step_text single (textOf tokens)
    split at stepped
    case isTrue =>
      rw [loop_error stepped] at ok
      cases ok
    case isFalse =>
      rw [loop_ok stepped] at ok
      cases tokens with
      | nil =>
        rw [if_pos (show textOf [] = [] from rfl)] at ok
        cases ok
        exact ⟨List.forall_mem_singleton.mpr single, rfl⟩
      | cons next tokens =>
        rw [if_neg (textOf_ne_nil (List.cons_ne_nil _ _))] at ok
        obtain ⟨others, rfl⟩ := ih (List.cons_ne_nil _ _) ok
        exact ⟨List.forall_mem_cons.mpr ⟨single, others⟩, rfl⟩

/-- A text that is not empty is read where it consists of tokens, and what is not defined is reached behind tokens. -/
lemma loop_cases (some : current ≠ []) :
    (∃ tokens, tokens ≠ [] ∧ (∀ token ∈ tokens, Readable token) ∧ current = textOf tokens ∧
        loop input current result = .ok (stored tokens result)) ∨
      (loop input current result = .error (.runtimeError ("invalid DateTimeDiff input: " ++ input))) ∨
      ∃ tokens rest, (∀ token ∈ tokens, Readable token) ∧ current = textOf tokens ++ rest ∧ Stuck rest ∧
        loop input current result = .error .undefined := by
  induction h : current.length using Nat.strong_induction_on generalizing current result with
  | h length ih =>
    rcases @step_cases input current result some with
      ⟨stepped, stuck⟩ | stepped | ⟨token, rest, readable, rfl, stepped⟩
    · exact .inr (.inr ⟨[], current, List.forall_mem_nil _, rfl, stuck, loop_error stepped⟩)
    · exact .inr (.inl (loop_error stepped))
    · have shorter := step_shorter stepped
      rw [loop_ok stepped]
      split
      case isTrue empty =>
        subst empty
        refine .inl ⟨[token], List.cons_ne_nil _ _, List.forall_mem_singleton.mpr readable, ?_, rfl⟩
        rw [textOf_cons]
        rfl
      case isFalse more =>
        rcases @ih rest.length (by omega) rest (token.unit.store token.number result) more rfl with
          ⟨tokens, -, others, rfl, ok⟩ | error | ⟨tokens, rest', others, rfl, stuck, error⟩
        · exact .inl ⟨token :: tokens, List.cons_ne_nil _ _, List.forall_mem_cons.mpr ⟨readable, others⟩,
            (textOf_cons token tokens).symm, ok⟩
        · exact .inr (.inl error)
        · have both := List.forall_mem_cons.mpr ⟨readable, others⟩
          refine .inr (.inr ⟨token :: tokens, rest', both, ?_, stuck, error⟩)
          rw [textOf_cons, List.append_assoc]

end tokens

/-! ## What is accepted -/

/-- The parser gets to what is left undefined, with an empty text or behind tokens. -/
def Derails (text : List Char) : Prop :=
  text = [] ∨ ∃ tokens rest, (∀ token ∈ tokens, Readable token) ∧ text = textOf tokens ++ rest ∧ Stuck rest

/-- No number of minutes is given, the last one of seconds is zero, and the last one of days or seconds is the last one
    of days. -/
def FieldsAgree (tokens : List Token) : Prop :=
  (∀ token ∈ tokens, token.unit ≠ .min) ∧ lastNumber (· = .s) tokens = 0 ∧
    lastNumber (fun unit => unit = .d ∨ unit = .s) tokens = lastNumber (· = .d) tokens

/-- A text of tokens gives the last number of each unit, and any other text an exception. -/
def AcceptsGrammar (input : String) : Prop :=
  (∀ tokens, tokens ≠ [] → input.toList = textOf tokens → dateTimeDiff input = .ok (meaning tokens)) ∧
    ((∀ tokens, tokens ≠ [] → input.toList ≠ textOf tokens) →
      ∃ what, dateTimeDiff input = .error (.runtimeError what))

/-- The last number is that of the last token, if it has one of the units. -/
lemma lastNumber_concat (units : TextUnit → Bool) (tokens : List Token) (token : Token) :
    lastNumber units (tokens ++ [token]) = if units token.unit then token.number else lastNumber units tokens := by
  unfold lastNumber
  rw [List.filter_append]
  cases given : units token.unit with
  | true =>
    rw [List.filter_cons_of_pos (by exact given), List.filter_nil, List.getLast?_concat, if_pos rfl]
    rfl
  | false =>
    rw [List.filter_cons_of_neg (by rw [given]; exact Bool.false_ne_true), List.filter_nil, List.append_nil,
      if_neg Bool.false_ne_true]

/-- A number that is not one of years fits 8 bits. -/
lemma lastNumber_lt {units : TextUnit → Bool} (noYears : units .y = false) (tokens : List Token) :
    lastNumber units tokens < 2 ^ 7 := by
  induction tokens using List.reverseRecOn with
  | nil => exact Nat.two_pow_pos 7
  | append_singleton tokens token ih =>
    rw [lastNumber_concat]
    split
    case isFalse => exact ih
    case isTrue given =>
      have fits := token.fits
      cases e : token.unit with
      | y =>
        rw [e, noYears] at given
        cases given
      | m | d | h | min | s =>
        rw [e] at fits
        exact fits

/-- Without a token of the units their number is zero. -/
lemma lastNumber_of_none {units : TextUnit → Bool} {tokens : List Token}
    (none : ∀ token ∈ tokens, units token.unit = false) : lastNumber units tokens = 0 := by
  unfold lastNumber
  rw [List.filter_eq_nil_iff.mpr fun token mem => by rw [none token mem]; exact Bool.false_ne_true]
  rfl

/-- The last number of each unit is stored, and seconds as days. -/
lemma stored_eq {tokens : List Token} (single : ∀ token ∈ tokens, token.unit ≠ .min) :
    stored tokens {} = {
      years := Int16.ofInt (lastNumber (· = .y) tokens)
      months := Int8.ofInt (lastNumber (· = .m) tokens)
      days := Int8.ofInt (lastNumber (fun unit => unit = .d ∨ unit = .s) tokens)
      hours := Int8.ofInt (lastNumber (· = .h) tokens) } := by
  induction tokens using List.reverseRecOn with
  | nil => rfl
  | append_singleton tokens token ih =>
    have stored_ := ih fun other mem => single other (List.mem_append_left _ mem)
    have single_ := single token (List.mem_append_right _ (List.mem_singleton.mpr rfl))
    unfold stored at stored_ ⊢
    rw [List.foldl_append, List.foldl_cons, List.foldl_nil, stored_]
    simp only [lastNumber_concat]
    cases e : token.unit with
    | min => exact absurd e single_
    | y | m | d | h | s => rfl

/-- Numbers below the bound are stored as different ones. -/
lemma ofInt_natCast_inj {a b : Nat} (small : a < 2 ^ 7) (small' : b < 2 ^ 7) :
    Int8.ofInt a = Int8.ofInt b ↔ a = b := by
  constructor
  · intro same
    have same' := congrArg Int8.toInt same
    rw [Int8.toInt_ofInt_of_le (by omega) (by omega), Int8.toInt_ofInt_of_le (by omega) (by omega)] at same'
    exact Int.ofNat_inj.mp same'
  · rintro rfl
    rfl

/-- What is stored is what the text means. -/
lemma meaning_eq_stored_iff {tokens : List Token} (single : ∀ token ∈ tokens, token.unit ≠ .min) :
    meaning tokens = stored tokens {} ↔ FieldsAgree tokens := by
  have minutes : lastNumber (· = .min) tokens = 0 :=
    lastNumber_of_none fun token mem => decide_eq_false (single token mem)
  have days := @lastNumber_lt (· = .d) rfl tokens
  have both := @lastNumber_lt (fun unit => unit = .d ∨ unit = .s) rfl tokens
  have seconds := @lastNumber_lt (· = .s) rfl tokens
  rw [stored_eq single]
  unfold meaning FieldsAgree
  rw [minutes, DateTimeDiff.mk.injEq, ofInt_natCast_inj days both, show (0 : Int8) = Int8.ofInt (0 : Nat) from rfl,
    ofInt_natCast_inj seconds (by decide)]
  constructor
  · rintro ⟨-, -, same, -, -, zero⟩
    exact ⟨single, zero, same.symm⟩
  · rintro ⟨-, zero, same⟩
    exact ⟨rfl, rfl, same.symm, rfl, rfl, zero⟩

/-- A text that derails is undefined. -/
lemma dateTimeDiff_derails {input : String} (derails : Derails input.toList) :
    dateTimeDiff input = .error .undefined := by
  unfold dateTimeDiff
  rcases derails with empty | ⟨tokens, rest, readable, text, stuck⟩
  · rw [empty]
    exact loop_error rfl
  · have some : rest ≠ [] := by
      rintro rfl
      rcases stuck with long | ⟨c, tail, unit, behind, -⟩
      · cases long
      · cases behind
    rw [text, loop_tokens readable some]
    exact loop_error (step_stuck stuck)

/-- The grammar is accepted, and nothing else, exactly where nothing undefined is reached and the fields of a text of
    tokens agree. -/
theorem dateTimeDiff_accepts_iff (input : String) :
    AcceptsGrammar input ↔ ¬Derails input.toList ∧
      ∀ tokens, tokens ≠ [] → input.toList = textOf tokens → FieldsAgree tokens := by
  constructor
  · rintro ⟨grammar, other⟩
    constructor
    · intro derails
      have undefined := dateTimeDiff_derails derails
      by_cases found : ∃ tokens, tokens ≠ [] ∧ input.toList = textOf tokens
      · obtain ⟨tokens, some, text⟩ := found
        rw [grammar tokens some text] at undefined
        cases undefined
      · obtain ⟨what, error⟩ := other fun tokens some text => found ⟨tokens, some, text⟩
        rw [error] at undefined
        cases undefined
    · intro tokens some text
      have ok := grammar tokens some text
      unfold dateTimeDiff at ok
      rw [text] at ok
      obtain ⟨single, same⟩ := loop_tokens_ok some ok
      exact (meaning_eq_stored_iff single).mp same
  · rintro ⟨safe, fields⟩
    have some : input.toList ≠ [] := fun empty => safe (.inl empty)
    have cases_ := @loop_cases input input.toList {} some
    constructor
    · intro tokens given text
      have agree := fields tokens given text
      have complete := @loop_complete input {} tokens agree.1 given
      rw [← text] at complete
      rcases complete with ok | ⟨undefined, -⟩
      · rw [(meaning_eq_stored_iff agree.1).mpr agree]
        exact ok
      · rcases cases_ with ⟨_, _, _, _, ok⟩ | error | ⟨tokens, rest, readable, text, stuck, -⟩
        · rw [ok] at undefined
          cases undefined
        · rw [error] at undefined
          cases undefined
        · exact absurd (.inr ⟨tokens, rest, readable, text, stuck⟩) safe
    · intro other
      rcases cases_ with ⟨tokens, given, _, text, _⟩ | error | ⟨tokens, rest, readable, text, stuck, -⟩
      · exact absurd text (other tokens given)
      · exact ⟨_, error⟩
      · exact absurd (.inr ⟨tokens, rest, readable, text, stuck⟩) safe

/-- A number of seconds is stored as days. -/
theorem dateTimeDiff_stores_seconds_as_days :
    dateTimeDiff "5s" = .ok { days := 5 } ∧ ¬ ∀ input, AcceptsGrammar input := by
  have stepped : step "5s" "5s".toList {} = .ok ({ days := 5 }, []) := by decide +kernel
  have days : dateTimeDiff "5s" = .ok { days := 5 } := loop_ok stepped
  refine ⟨days, fun accepts => ?_⟩
  have seconds := (accepts "5s").1 [⟨['5'], .s, ['s'], List.cons_ne_nil _ _,
    List.forall_mem_singleton.mpr rfl, rfl, by decide⟩] (List.cons_ne_nil _ _) (by rfl)
  rw [days] at seconds
  have same : (5 : Int8) = 0 := congrArg DateTimeDiff.days (Except.ok.inj seconds)
  exact absurd same (by decide)

/-! ## The round trip -/

/-- The token that is printed for a number -/
def tokenOf (unit : TextUnit) (n : Nat) (fits : n < unit.bound) : Token where
  digits := Nat.toDigits 10 n
  unit := unit
  letters := unit.letters
  digits_ne_nil := Nat.toDigits_ne_nil
  isDigit := isDigit_toDigits n
  spelled := rfl
  fits := by rwa [Nat.ofDigitChars_toDigits (by decide) (by decide)]

/-- A token for a number has that number. -/
lemma tokenOf_number {unit : TextUnit} {n : Nat} (fits : n < unit.bound) : (tokenOf unit n fits).number = n :=
  Nat.ofDigitChars_toDigits (by decide) (by decide)

/-- A token of one letter is readable. -/
lemma tokenOf_readable {unit : TextUnit} {n : Nat} (single : unit ≠ .min) (fits : n < unit.bound) :
    Readable (tokenOf unit n fits) := by
  have small := unit.bound_le
  have short : (Nat.toDigits 10 n).length ≤ 5 := (Nat.length_toDigits_le_iff (by decide) (by decide)).mpr (by omega)
  exact ⟨single, by unfold tokenOf; dsimp only; omega⟩

/-- Every unit has a field for a number of 8 bits. -/
def token8 (unit : TextUnit) (n : Int8) : Token :=
  tokenOf unit n.toInt.toNat (by
    have small := Int8.toInt_lt n
    exact Nat.lt_of_lt_of_le (by omega) unit.le_bound)

/-- The token of the years -/
def token16 (n : Int16) : Token :=
  tokenOf .y n.toInt.toNat (by
    have small := Int16.toInt_lt n
    change n.toInt.toNat < 2 ^ 15
    omega)

/-- A token that is printed under a condition -/
def given (present : Prop) [Decidable present] (token : Token) : List Token := if present then [token] else []

/-- The tokens that are printed -/
def printed (input : DateTimeDiff) : List Token :=
  given (0 < input.years) (token16 input.years) ++ given (0 < input.months) (token8 .m input.months) ++
    given (0 < input.days) (token8 .d input.days) ++ given (0 < input.hours) (token8 .h input.hours) ++
    given (0 < input.minutes) (token8 .min input.hours) ++ given (0 < input.seconds) (token8 .s input.hours)

/-- No field is negative. -/
structure Nonneg (input : DateTimeDiff) : Prop where
  years : 0 ≤ input.years
  months : 0 ≤ input.months
  days : 0 ≤ input.days
  hours : 0 ≤ input.hours
  minutes : 0 ≤ input.minutes
  seconds : 0 ≤ input.seconds

section printer
variable {input : DateTimeDiff}

/-- Tokens are written one behind the other. -/
lemma textOf_append (tokens others : List Token) : textOf (tokens ++ others) = textOf tokens ++ textOf others :=
  List.flatMap_append

/-- A field that is printed appends its token. -/
lemma toList_append_given {present : Prop} [Decidable present] (result : String) {n : Int} (nonneg : 0 ≤ n)
    (unit : TextUnit) (fits : n.toNat < unit.bound) {name : String} (named : name.toList = unit.letters) :
    (if present then result ++ toString n ++ name else result).toList =
      result.toList ++ textOf (given present (tokenOf unit n.toNat fits)) := by
  unfold given
  split
  case isFalse => exact (List.append_nil _).symm
  case isTrue =>
    rcases toString_cases n with ⟨-, text⟩ | ⟨neg, -⟩
    · rw [String.toList_append, String.toList_append, text, named, textOf_cons, List.append_assoc]
      congr 1
      exact (List.append_nil _).symm
    · omega

/-- A difference without negative fields is printed as its tokens, or as `0s`. -/
lemma string_toList (nonneg : Nonneg input) :
    (string input).toList = if printed input = [] then ['0', 's'] else textOf (printed input) := by
  have years := Int16.le_iff_toInt_le.mp nonneg.years
  have months := Int8.le_iff_toInt_le.mp nonneg.months
  have days := Int8.le_iff_toInt_le.mp nonneg.days
  have hours := Int8.le_iff_toInt_le.mp nonneg.hours
  unfold string
  extract_lets result1 result2 result3 result4 result5 result6 result7
  have text : result7.toList = textOf (printed input) := by
    unfold printed
    simp only [textOf_append]
    rw [toList_append_given result6 hours .s _ rfl, toList_append_given result5 hours .min _ rfl,
      toList_append_given result4 hours .h _ rfl, toList_append_given result3 days .d _ rfl,
      toList_append_given result2 months .m _ rfl, toList_append_given result1 years .y _ rfl]
    rfl
  by_cases none : printed input = []
  · rw [if_pos none]
    rw [none] at text
    have empty : result7.isEmpty = true := String.isEmpty_iff.mpr (String.toList_eq_nil_iff.mp text)
    rw [if_pos empty, String.toList_append, text]
    rfl
  · rw [if_neg none, ← text, if_neg]
    intro empty
    apply textOf_ne_nil none
    rw [← text]
    exact String.toList_eq_nil_iff.mpr (String.isEmpty_iff.mp empty)

/-- Tokens are stored one behind the other. -/
lemma stored_append (tokens others : List Token) (result : DateTimeDiff) :
    stored (tokens ++ others) result = stored others (stored tokens result) := List.foldl_append

/-- The number of a unit that is printed is stored, where a number that is not has been zero. -/
lemma stored_given (unit : TextUnit) {n : Int} (nonneg : 0 ≤ n) (fits : n.toNat < unit.bound) {present : Prop}
    [Decidable present] (pos : present ↔ 0 < n) {result : DateTimeDiff} (zero : unit.store 0 result = result) :
    stored (given present (tokenOf unit n.toNat fits)) result = unit.store n result := by
  unfold given
  split
  case isTrue =>
    have number : ((tokenOf unit n.toNat fits).number : Int) = n := by
      rw [tokenOf_number, Int.toNat_of_nonneg nonneg]
    exact congrArg (unit.store · result) number
  case isFalse none =>
    obtain rfl : n = 0 := by
      have nonpos := mt pos.mpr none
      omega
    exact zero.symm

/-- Without minutes and seconds, every field is stored again. -/
lemma stored_printed (nonneg : Nonneg input) (minutes : input.minutes = 0) (seconds : input.seconds = 0) :
    stored (printed input) {} = input := by
  obtain ⟨years, months, days, hours, _, _⟩ := input
  dsimp only at minutes seconds
  subst minutes seconds
  have years_ : 0 ≤ years.toInt := Int16.le_iff_toInt_le.mp nonneg.years
  have months_ : 0 ≤ months.toInt := Int8.le_iff_toInt_le.mp nonneg.months
  have days_ : 0 ≤ days.toInt := Int8.le_iff_toInt_le.mp nonneg.days
  have hours_ : 0 ≤ hours.toInt := Int8.le_iff_toInt_le.mp nonneg.hours
  unfold printed token8 token16
  simp only [stored_append]
  rw [stored_given .y years_ _ Int16.lt_iff_toInt_lt rfl, stored_given .m months_ _ Int8.lt_iff_toInt_lt rfl,
    stored_given .d days_ _ Int8.lt_iff_toInt_lt rfl, stored_given .h hours_ _ Int8.lt_iff_toInt_lt rfl]
  unfold TextUnit.store
  simp only [Int8.ofInt_toInt, Int16.ofInt_toInt]
  rfl

/-- Of what is printed without minutes and seconds, every token is read. -/
lemma printed_readable (minutes : input.minutes = 0) (seconds : input.seconds = 0) :
    ∀ token ∈ printed input, Readable token := by
  have read {present : Prop} [Decidable present] {unit : TextUnit} (single : unit ≠ .min) (n : Nat)
      (fits : n < unit.bound) : ∀ token ∈ given present (tokenOf unit n fits), Readable token := by
    unfold given
    split
    case isTrue => exact List.forall_mem_singleton.mpr (tokenOf_readable single fits)
    case isFalse => exact List.forall_mem_nil _
  unfold printed
  rw [minutes, seconds]
  simp only [List.forall_mem_append]
  exact ⟨⟨⟨⟨⟨read (by decide) _ _, read (by decide) _ _⟩, read (by decide) _ _⟩, read (by decide) _ _⟩,
    List.forall_mem_nil _⟩, List.forall_mem_nil _⟩

/-- No minutes and seconds are ever stored. -/
lemma stored_rest (tokens : List Token) (result : DateTimeDiff) :
    (stored tokens result).minutes = result.minutes ∧ (stored tokens result).seconds = result.seconds := by
  induction tokens generalizing result with
  | nil => exact ⟨rfl, rfl⟩
  | cons token tokens ih =>
    obtain ⟨minutes, seconds⟩ := ih (token.unit.store token.number result)
    have kept : (token.unit.store token.number result).minutes = result.minutes ∧
        (token.unit.store token.number result).seconds = result.seconds := by
      cases token.unit <;> exact ⟨rfl, rfl⟩
    exact ⟨minutes.trans kept.1, seconds.trans kept.2⟩

/-- No text stores minutes or seconds. -/
lemma dateTimeDiff_rest {text : String} {result : DateTimeDiff} (ok : dateTimeDiff text = .ok result) :
    result.minutes = 0 ∧ result.seconds = 0 := by
  by_cases empty : text.toList = []
  · rw [dateTimeDiff_derails (.inl empty)] at ok
    cases ok
  · unfold dateTimeDiff at ok
    rcases @loop_cases text text.toList {} empty with ⟨tokens, _, _, _, same⟩ | error | ⟨_, _, _, _, _, error⟩
    · rw [same] at ok
      cases ok
      exact stored_rest tokens {}
    · rw [error] at ok
      cases ok
    · rw [error] at ok
      cases ok

/-- A difference is read back from its text exactly where it has no minutes and no seconds. -/
theorem dateTimeDiff_string_iff (nonneg : Nonneg input) :
    dateTimeDiff (string input) = .ok input ↔ input.minutes = 0 ∧ input.seconds = 0 := by
  constructor
  · exact dateTimeDiff_rest
  · rintro ⟨minutes, seconds⟩
    have same := stored_printed nonneg minutes seconds
    have text := string_toList nonneg
    unfold dateTimeDiff
    by_cases none : printed input = []
    · rw [if_pos none] at text
      rw [none] at same
      have zero : Readable (token8 .s 0) := tokenOf_readable (by decide) _
      rw [text, ← same]
      exact loop_readable (List.forall_mem_singleton.mpr zero) (List.cons_ne_nil _ _)
    · rw [if_neg none] at text
      have read := @loop_readable (string input) {} _ (printed_readable minutes seconds) none
      rwa [← text, same] at read

end printer

/-- A year and a half -/
theorem dateTimeDiff_string_months :
    Nonneg { years := 1, months := 6 } ∧
      dateTimeDiff (string { years := 1, months := 6 }) = .ok { years := 1, months := 6 } := by
  have nonneg : Nonneg { years := 1, months := 6 } := by constructor <;> decide
  exact ⟨nonneg, (dateTimeDiff_string_iff nonneg).mpr ⟨rfl, rfl⟩⟩

/-- Five seconds are printed as the number of hours, which is zero. -/
theorem dateTimeDiff_drops_seconds :
    string { seconds := 5 } = "0s" ∧ ¬ ∀ input, Nonneg input → dateTimeDiff (string input) = .ok input := by
  have text : string { seconds := 5 } = "0s" := by rfl
  refine ⟨text, fun restored => ?_⟩
  have given := restored { seconds := 5 } (by constructor <;> decide)
  obtain ⟨-, none⟩ := dateTimeDiff_rest given
  exact absurd none (by decide)

end LexicalCast
end OsterLib.Types
