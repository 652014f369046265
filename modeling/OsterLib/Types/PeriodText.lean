import Mathlib.Data.List.TakeWhile
import OsterLib.Json.Settings
import OsterLib.Types.Parsing

/-!
# Periods as text

The `lexical_cast`s between `TimePeriod` and `std::string` in `types/time_period.cpp`.

The printer writes the unit behind each number and nothing between them. The parser expects `:` between them, takes the
first character of a token for no part of the number, and the last one, which is the unit, for a digit of it. So it
reads no text that the printer writes of a period with a number in it (`timePeriod_string`).
-/

namespace OsterLib.Types.LexicalCast
open OsterLib.Lib Parsing
open OsterLib.Json (TimePeriod)

/-! ## The parser -/

/-- What is stored for a number other than zero, by the unit that the token ends with -/
def chooseUnit (input : String) (token : List Char) (tmp : Int) (result : TimePeriod) :
    Except Thrown TimePeriod := do
  if ← Parsing.iendWith token ['h'] then
    return { result with hours := Int64.ofInt tmp }
  else if ← Parsing.iendWith token ['y'] then
    return { result with years := Int64.ofInt tmp }
  else if ← Parsing.iendWith token ['m'] then
    return { result with months := Int64.ofInt tmp }
  else if ← Parsing.iendWith token ['d'] then
    return { result with days := Int64.ofInt tmp }
  else throw (.invalidArgument input)

/-- A turn of the loop over the tokens -/
def readToken (input : String) (result : TimePeriod) (token : List Char) : Except Thrown TimePeriod := do
  -- without the first digit, and with the unit
  let number ← substr token 1
  match fromCharsInt number with
  | none => throw (.invalidArgument input)
  | some tmp =>
    if tmp < 0 then throw (.invalidArgument ("Invalid time offset token input " ++ String.ofList token))
    else if tmp = 0 then return result
    else if 0 < token.length then chooseUnit input token tmp result
    else throw (.invalidArgument input)

/-- `lexical_cast<TimePeriod>` -/
def timePeriod (input : String) : Except Thrown TimePeriod :=
  let tokens := split [':'] input.toList
  if tokens ≠ [] then tokens.foldlM (readToken input) {} else throw (.invalidArgument input)

/-! ## The printer -/

/-- A number and its unit, where there is one -/
def countText (count : Int64) (unit : String) : String :=
  if 0 < count then toString count.toInt ++ unit else ""

/-- `lexical_cast<std::string>` -/
def periodString (input : TimePeriod) : String :=
  let result := ""
  let result := result ++ countText input.years "y"
  let result := result ++ countText input.months "m"
  let result := result ++ countText input.days "d"
  result ++ countText input.hours "h"

/-- The period is read back from its text. -/
def ReadsBack (p : TimePeriod) : Prop := timePeriod (periodString p) = .ok p

/-! ## What the parser makes of a printed text -/

/-- A text of numbers with their units, such as the printer writes: it has no separator, and a unit ends it. -/
structure Printed (text : List Char) : Prop where
  noSeparator : ':' ∉ text
  ends : ∃ first front unit, text = first :: front ++ [unit] ∧ unit.isDigit = false ∧ unit ≠ '-'

/-- A positive number is written in digits. -/
lemma toString_pos {n : Int} (pos : 0 < n) :
    ∃ first digits, (toString n).toList = first :: digits ∧ ∀ c ∈ first :: digits, c.isDigit = true := by
  rcases toString_cases n with ⟨-, text⟩ | ⟨neg, -⟩
  · have digits := isDigit_toDigits n.toNat
    cases e : Nat.toDigits 10 n.toNat with
    | nil => exact absurd e Nat.toDigits_ne_nil
    | cons first rest => exact ⟨first, rest, by rw [text, e], by rwa [e] at digits⟩
  · omega

/-- A positive count is printed with its unit. -/
lemma countText_printed {count : Int64} {unit : Char} (letter : unit.isDigit = false) (noMinus : unit ≠ '-')
    (noColon : unit ≠ ':') (pos : 0 < count) : Printed (countText count (String.singleton unit)).toList := by
  obtain ⟨first, digits, text, run⟩ := toString_pos (Int64.lt_iff_toInt_lt.mp pos)
  have whole : (countText count (String.singleton unit)).toList = first :: digits ++ [unit] := by
    rw [countText, if_pos pos, String.toList_append, text, String.toList_singleton]
  rw [whole]
  refine ⟨?_, first, digits, unit, rfl, letter, noMinus⟩
  intro mem
  rcases List.mem_append.mp mem with mem | mem
  · exact absurd (run _ mem) (by decide)
  · exact noColon (List.mem_singleton.mp mem).symm

/-- A count that is not positive is not printed. -/
lemma countText_zero {count : Int64} {unit : String} (zero : ¬0 < count) : (countText count unit).toList = [] := by
  rw [countText, if_neg zero]
  rfl

/-- Texts that are empty or as they are printed follow one another. -/
lemma Printed.append {left right : List Char} (first : left = [] ∨ Printed left) (second : right = [] ∨ Printed right) :
    left ++ right = [] ∨ Printed (left ++ right) := by
  rcases first with rfl | first
  · exact second
  rcases second with rfl | second
  · rw [List.append_nil]
    exact .inr first
  obtain ⟨head, front, unit, rfl, -⟩ := first.ends
  obtain ⟨next, rest, last, rfl, letter, noMinus⟩ := second.ends
  refine .inr ⟨?_, head, front ++ [unit] ++ next :: rest, last, by simp, letter, noMinus⟩
  rw [List.mem_append]
  rintro (mem | mem)
  · exact first.noSeparator mem
  · exact second.noSeparator mem

/-- A period is written as its counts, one behind the other. -/
lemma periodString_toList (p : TimePeriod) :
    (periodString p).toList =
      (countText p.years "y").toList ++ (countText p.months "m").toList ++ (countText p.days "d").toList ++
        (countText p.hours "h").toList := by
  unfold periodString
  rw [String.toList_append, String.toList_append, String.toList_append, String.toList_append]
  rfl

/-- A count is printed or left out. -/
lemma countText_cases {count : Int64} {unit : Char} (letter : unit.isDigit = false) (noMinus : unit ≠ '-')
    (noColon : unit ≠ ':') :
    (countText count (String.singleton unit)).toList = [] ∨
      Printed (countText count (String.singleton unit)).toList := by
  by_cases pos : 0 < count
  · exact .inr (countText_printed letter noMinus noColon pos)
  · exact .inl (countText_zero pos)

/-- The units are letters. -/
lemma unit_letter {unit : Char} (mem : unit ∈ ['y', 'm', 'd', 'h']) :
    unit.isDigit = false ∧ unit ≠ '-' ∧ unit ≠ ':' := by
  simp only [List.mem_cons, List.not_mem_nil, or_false] at mem
  rcases mem with rfl | rfl | rfl | rfl
  · decide
  · decide
  · decide
  · decide

/-- A period with a number that is written has a printed text. -/
lemma printed_periodString {p : TimePeriod}
    (positive : 0 < p.years ∨ 0 < p.months ∨ 0 < p.days ∨ 0 < p.hours) : Printed (periodString p).toList := by
  have parts (count : Int64) : ∀ unit ∈ ['y', 'm', 'd', 'h'],
      (countText count (String.singleton unit)).toList = [] ∨
        Printed (countText count (String.singleton unit)).toList := by
    intro unit mem
    obtain ⟨letter, noMinus, noColon⟩ := unit_letter mem
    exact countText_cases letter noMinus noColon
  have some {count : Int64} {unit : Char} (pos : 0 < count) :
      (countText count (String.singleton unit)).toList ≠ [] := by
    rw [countText, if_pos pos, String.toList_append, String.toList_singleton]
    exact List.append_ne_nil_of_right_ne_nil _ (List.cons_ne_nil _ _)
  have whole := Printed.append (Printed.append (Printed.append (parts p.years 'y' (by decide))
    (parts p.months 'm' (by decide))) (parts p.days 'd' (by decide))) (parts p.hours 'h' (by decide))
  rw [periodString_toList]
  rcases whole with none | printed
  · obtain ⟨⟨⟨years, months⟩, days⟩, hours⟩ := by
      simpa only [List.append_eq_nil_iff] using none
    rcases positive with pos | pos | pos | pos
    · exact absurd years (some pos)
    · exact absurd months (some pos)
    · exact absurd days (some pos)
    · exact absurd hours (some pos)
  · exact printed

/-- A text without a separator is a single token. -/
lemma split_single {text : List Char} (noSeparator : ':' ∉ text) : split [':'] text = [text] := by
  have run : ∀ c ∈ text, decide (c ∉ [':']) = true := by
    intro c mem
    rw [decide_eq_true_eq, List.mem_singleton]
    rintro rfl
    exact noSeparator mem
  rw [split]
  split
  case h_1 => rw [List.takeWhile_eq_self_iff.mpr run]
  case h_2 behind =>
    rw [List.dropWhile_eq_nil_iff.mpr run] at behind
    cases behind

/-- `from_chars` reads no text that another character than a digit ends. -/
lemma fromCharsInt_unit {front : List Char} {unit : Char} (letter : unit.isDigit = false) (noMinus : unit ≠ '-') :
    fromCharsInt (front ++ [unit]) = none := by
  have last : ∀ digits : List Char, unit ∈ digits → (digits.takeWhile Char.isDigit).length ≠ digits.length := by
    intro digits mem same
    have all := List.IsPrefix.eq_of_length (List.takeWhile_prefix Char.isDigit) same
    rw [← all] at mem
    have digit := List.all_eq_true.mp (List.all_takeWhile (p := Char.isDigit) (l := digits)) unit mem
    rw [letter] at digit
    cases digit
  have mem : unit ∈ if (front ++ [unit]).head? = some '-' then (front ++ [unit]).tail else front ++ [unit] := by
    split
    case isFalse => exact List.mem_append_right _ List.mem_cons_self
    case isTrue minus =>
      cases front with
      | nil => exact absurd (Option.some.inj minus) noMinus
      | cons first rest => exact List.mem_append_right _ List.mem_cons_self
  unfold fromCharsInt
  dsimp only
  rw [if_pos (last _ mem), ite_self, ite_self]

/-- The parser reads no text as the printer writes it. -/
lemma timePeriod_printed {input : String} (printed : Printed input.toList) :
    timePeriod input = .error (.invalidArgument input) := by
  obtain ⟨first, front, unit, text, letter, noMinus⟩ := printed.ends
  have behind : substr input.toList 1 = .ok (front ++ [unit]) := by
    rw [text, substr, if_neg (by simp)]
    rfl
  unfold timePeriod
  dsimp only
  rw [split_single printed.noSeparator, if_pos (List.cons_ne_nil _ _), List.foldlM_cons]
  unfold readToken
  rw [behind]
  dsimp only [bind, Except.bind]
  rw [fromCharsInt_unit letter noMinus]
  rfl

/-- No period with years, months, days or hours is read back: the parser throws for its text. -/
theorem timePeriod_periodString {p : TimePeriod}
    (positive : 0 < p.years ∨ 0 < p.months ∨ 0 < p.days ∨ 0 < p.hours) :
    ¬ReadsBack p ∧ timePeriod (periodString p) = .error (.invalidArgument (periodString p)) := by
  have thrown := timePeriod_printed (printed_periodString positive)
  refine ⟨?_, thrown⟩
  intro back
  rw [ReadsBack, thrown] at back
  cases back

/-- A day is written as `1d`, which is not read. -/
theorem timePeriod_day :
    periodString { days := 1 } = "1d" ∧ ¬ReadsBack { days := 1 } ∧
      timePeriod "1d" = .error (.invalidArgument "1d") := by
  have written : periodString { days := 1 } = "1d" := by decide
  have thrown := timePeriod_printed (printed_periodString (p := { days := 1 }) (by decide))
  rw [written] at thrown
  refine ⟨written, ?_, thrown⟩
  intro back
  rw [ReadsBack, written, thrown] at back
  cases back

/-- Periods of several units are not read back either. -/
theorem timePeriod_mixed :
    ¬ReadsBack { years := 1, hours := 12 } ∧
      timePeriod (periodString { years := 1, hours := 12 }) =
        .error (.invalidArgument (periodString { years := 1, hours := 12 })) :=
  timePeriod_periodString (by decide)

end OsterLib.Types.LexicalCast
