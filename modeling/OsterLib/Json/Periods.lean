import OsterLib.Json.Restore
import OsterLib.Lib.Decimal
import OsterLib.Types.Extend

/-!
# Periods and sequences as JSON

`to_json` and `from_json` of `DateTimeDiff` and of `TimeSequence` in `types/time_interval.cpp`.

A `DateTimeDiff` is restored from its text. Of any other text that is accepted, the fields are the numbers that are
written exactly where these fit (`dateTimeDiff_faithful_iff`): the error code of the constructor is not looked at. A
`TimeSequence` is written without its step, which is computed again as it was when the sequence was constructed
(`timeSequence_restored`).
-/

namespace OsterLib.Json
open OsterLib.Lib OsterLib.Types

/-! ## Differences -/

/-- `"{}Y {}M {}D {}h {}m {}s"` -/
def ToJson.dateTimeDiff (diff : DateTimeDiff) : Value :=
  .string (toString diff.years.toInt ++ "Y " ++ toString diff.months.toInt ++ "M " ++
    toString diff.days.toInt ++ "D " ++ toString diff.hours.toInt ++ "h " ++
    toString diff.minutes.toInt ++ "m " ++ toString diff.seconds.toInt ++ "s")

/-- The numbers that `scan` meets, before they are stored. -/
def numbers : List Directive → List Char → List Int
  | [], _ => []
  | .int :: format, input =>
    match scanSigned (input.dropWhile isSpace) with
    | some (n, input) => n :: numbers format input
    | none => []
  | .blank :: format, input => numbers format (input.dropWhile isSpace)
  | .char c :: format, input =>
    match input with
    | d :: input => if d = c then numbers format input else []
    | [] => []

/-- The numbers that are written in a text for the units. -/
def written (s : String) : List Int := numbers dateTimeFormat (cString s)

/-- The fields of a difference, in the order in which they are written -/
def countsOf (diff : DateTimeDiff) : List Int :=
  [diff.years.toInt, diff.months.toInt, diff.days.toInt, diff.hours.toInt, diff.minutes.toInt, diff.seconds.toInt]

/-- A text that is accepted gives the numbers that are written in it. -/
def Faithful (s : String) : Prop :=
  ∀ diff, FromJson.dateTimeDiff (.string s) = .ok (some diff) → written s = countsOf diff

/-- A number fits 8 bits. -/
def Fits8 (n : Int) : Prop := -2 ^ 7 ≤ n ∧ n < 2 ^ 7

/-- The six numbers that are written, if there are six, fit their fields. -/
def WrittenFits (s : String) : Prop :=
  ∀ years months days hours minutes seconds, written s = [years, months, days, hours, minutes, seconds] →
    (-2 ^ 15 ≤ years ∧ years < 2 ^ 15) ∧ Fits8 months ∧ Fits8 days ∧ Fits8 hours ∧ Fits8 minutes ∧ Fits8 seconds

section texts
variable {n : Int} {rest : List Char}

/-- The digits of a number are scanned. -/
lemma scanDigits (n : Nat) (noDigit : NoDigit rest) :
    (Nat.toDigits 10 n ++ rest).takeWhile Char.isDigit = Nat.toDigits 10 n ∧
      (Nat.toDigits 10 n ++ rest).dropWhile Char.isDigit = rest ∧
      (Nat.toDigits 10 n).foldl (fun (n : Int) c => 10 * n + (c.toNat - '0'.toNat : Int)) 0 = n := by
  refine ⟨takeWhile_run (isDigit_toDigits n) noDigit, dropWhile_run (isDigit_toDigits n) noDigit, ?_⟩
  have value := foldl_digits (isDigit_toDigits n) 0
  rw [Nat.ofDigitChars_toDigits (by decide) (by decide)] at value
  exact value

/-- A sign is scanned before the digits. -/
lemma scanSigned_minus (input : List Char) :
    scanSigned ('-' :: input) =
      if input.takeWhile Char.isDigit = [] then none
      else some (-(input.takeWhile Char.isDigit).foldl (fun (n : Int) c => 10 * n + (c.toNat - '0'.toNat : Int)) 0,
        input.dropWhile Char.isDigit) := rfl

/-- Digits are scanned without a sign. -/
lemma scanSigned_digit {c : Char} (digit : c.isDigit = true) (input : List Char) :
    scanSigned (c :: input) =
      if (c :: input).takeWhile Char.isDigit = [] then none
      else some (((c :: input).takeWhile Char.isDigit).foldl
          (fun (n : Int) c => 10 * n + (c.toNat - '0'.toNat : Int)) 0,
        (c :: input).dropWhile Char.isDigit) := by
  have minus : c ≠ '-' := by
    rintro rfl
    cases digit
  have plus : c ≠ '+' := by
    rintro rfl
    cases digit
  unfold scanSigned
  split
  rename_i same
  split at same
  · rename_i same'
    exact absurd (List.cons.inj same').1 minus
  · rename_i same'
    exact absurd (List.cons.inj same').1 plus
  · cases same
    rfl

/-- A number is scanned as it was written. -/
lemma scanSigned_toString (n : Int) (noDigit : NoDigit rest) :
    scanSigned ((toString n).toList ++ rest) = some (n, rest) := by
  rcases toString_cases n with ⟨nonneg, text⟩ | ⟨neg, text⟩
  · obtain ⟨digits, behind, value⟩ := scanDigits n.toNat noDigit
    have run := isDigit_toDigits n.toNat
    have some := @Nat.toDigits_ne_nil n.toNat 10
    rw [text]
    cases e : Nat.toDigits 10 n.toNat with
    | nil => exact absurd e some
    | cons c cs =>
      rw [e] at digits behind value run
      rw [List.cons_append] at digits behind ⊢
      rw [scanSigned_digit (run c List.mem_cons_self), digits, behind, value, if_neg (List.cons_ne_nil c cs),
        Int.toNat_of_nonneg nonneg]
  · obtain ⟨digits, behind, value⟩ := scanDigits (-n).toNat noDigit
    rw [text, List.cons_append, scanSigned_minus, digits, behind, value, if_neg Nat.toDigits_ne_nil]
    congr 2
    omega

/-- A digit is no space. -/
lemma isSpace_digit {c : Char} (digit : c.isDigit = true) : isSpace c = false := by
  obtain ⟨low, high⟩ := toNat_of_isDigit digit
  have blank : c ≠ ' ' := by
    rintro rfl
    cases digit
  have behind : ¬ c ≤ '\r' := by
    intro le
    have le' : c.toNat ≤ '\r'.toNat := le
    have cr : '\r'.toNat = 13 := rfl
    omega
  unfold isSpace
  rw [decide_eq_false blank, decide_eq_false behind, Bool.and_false]
  rfl

/-- A number does not begin with a blank. -/
lemma dropWhile_toString (n : Int) (rest : List Char) :
    ((toString n).toList ++ rest).dropWhile isSpace = (toString n).toList ++ rest := by
  rcases toString_cases n with ⟨nonneg, text⟩ | ⟨neg, text⟩
  · have run := isDigit_toDigits n.toNat
    have some := @Nat.toDigits_ne_nil n.toNat 10
    rw [text]
    cases e : Nat.toDigits 10 n.toNat with
    | nil => exact absurd e some
    | cons c cs =>
      rw [e] at run
      have digit := isSpace_digit (run c List.mem_cons_self)
      rw [List.cons_append, List.dropWhile_cons_of_neg (by rw [digit]; exact Bool.false_ne_true)]
  · rw [text, List.cons_append, List.dropWhile_cons_of_neg (by decide)]

/-- A number is read in its place. -/
lemma numbers_toString (n : Int) (noDigit : NoDigit rest) (format : List Directive) :
    numbers (.int :: format) ((toString n).toList ++ rest) = n :: numbers format rest := by
  rw [numbers, dropWhile_toString, scanSigned_toString n noDigit]

/-- A blank before a number is passed over. -/
lemma numbers_blank (n : Int) (rest : List Char) (format : List Directive) :
    numbers (.blank :: format) (' ' :: ((toString n).toList ++ rest)) =
      numbers format ((toString n).toList ++ rest) := by
  rw [numbers, List.dropWhile_cons_of_pos (by decide), dropWhile_toString]

/-- A character of the format is passed over. -/
lemma numbers_char (c : Char) (rest : List Char) (format : List Directive) :
    numbers (.char c :: format) (c :: rest) = numbers format rest := if_pos rfl

/-- What is stored are the numbers, as an `int` holds them. -/
lemma scan_eq (format : List Directive) (input : List Char) :
    scan format input = (numbers format input).map storeInt := by
  induction format generalizing input with
  | nil => rfl
  | cons directive format ih =>
    cases directive with
    | int =>
      unfold scan numbers
      cases scanSigned (input.dropWhile isSpace) with
      | none => rfl
      | some result =>
        dsimp only
        rw [ih, List.map_cons]
    | blank => exact ih _
    | char c =>
      unfold scan numbers
      cases input with
      | nil => rfl
      | cons d input =>
        dsimp only
        split
        · exact ih input
        · rfl

end texts

/-! ### The round trip -/

/-- The characters of the text of a difference -/
def dateTimeText (diff : DateTimeDiff) : List Char :=
  (toString diff.years.toInt).toList ++ 'Y' :: ' ' :: ((toString diff.months.toInt).toList ++ 'M' :: ' ' ::
    ((toString diff.days.toInt).toList ++ 'D' :: ' ' :: ((toString diff.hours.toInt).toList ++ 'h' :: ' ' ::
      ((toString diff.minutes.toInt).toList ++ 'm' :: ' ' :: ((toString diff.seconds.toInt).toList ++ ['s'])))))

/-- A number is written without a zero character. -/
lemma toString_ne_zero (n : Int) : ∀ c ∈ (toString n).toList, c ≠ Char.ofNat 0 := by
  rintro c mem rfl
  rcases toString_cases n with ⟨-, text⟩ | ⟨-, text⟩
  · rw [text] at mem
    cases isDigit_toDigits _ _ mem
  · rw [text] at mem
    rcases List.mem_cons.mp mem with minus | digit
    · cases minus
    · cases isDigit_toDigits _ _ digit

/-- A difference is written without a zero character. -/
lemma dateTimeText_ne_zero (diff : DateTimeDiff) : ∀ c ∈ dateTimeText diff, c ≠ Char.ofNat 0 := by
  have mark {c : Char} (pos : 0 < c.toNat) : c ≠ Char.ofNat 0 := by
    rintro rfl
    cases pos
  have years := toString_ne_zero diff.years.toInt
  have months := toString_ne_zero diff.months.toInt
  have days := toString_ne_zero diff.days.toInt
  have hours := toString_ne_zero diff.hours.toInt
  have minutes := toString_ne_zero diff.minutes.toInt
  have seconds := toString_ne_zero diff.seconds.toInt
  unfold dateTimeText
  simp only [List.forall_mem_append, List.forall_mem_cons]
  exact ⟨years, mark (by decide), mark (by decide), months, mark (by decide), mark (by decide), days,
    mark (by decide), mark (by decide), hours, mark (by decide), mark (by decide), minutes, mark (by decide),
    mark (by decide), seconds, mark (by decide), List.forall_mem_nil _⟩

/-- The whole text is shown by `c_str`. -/
lemma cString_dateTime {diff : DateTimeDiff} {s : String} (text : ToJson.dateTimeDiff diff = .string s) :
    cString s = dateTimeText diff := by
  obtain rfl := Value.string.inj text
  have whole := @List.takeWhile_append_of_pos _ (decide <| · ≠ Char.ofNat 0) _ []
    fun c mem => decide_eq_true (dateTimeText_ne_zero diff c mem)
  rw [List.append_nil, List.takeWhile_nil, List.append_nil] at whole
  unfold cString
  simp only [String.toList_append, List.append_assoc]
  exact whole

/-- A difference is written as its fields. -/
lemma written_dateTime {diff : DateTimeDiff} {s : String} (text : ToJson.dateTimeDiff diff = .string s) :
    written s = countsOf diff := by
  have mark {c : Char} (noDigit : c.isDigit = false) (rest : List Char) : NoDigit (c :: rest) :=
    noDigit_cons noDigit rest
  unfold written
  rw [cString_dateTime text]
  unfold dateTimeFormat dateTimeText countsOf
  rw [numbers_toString _ (mark rfl _), numbers_char, numbers_blank, numbers_toString _ (mark rfl _), numbers_char,
    numbers_blank, numbers_toString _ (mark rfl _), numbers_char, numbers_blank, numbers_toString _ (mark rfl _),
    numbers_char, numbers_blank, numbers_toString _ (mark rfl _), numbers_char, numbers_blank,
    numbers_toString _ (mark rfl _), numbers_char, numbers]

/-- A number of 16 bits is stored as it is. -/
lemma storeInt_of_fits {n : Int} (low : -2 ^ 15 ≤ n) (high : n < 2 ^ 15) : storeInt n = n := by
  unfold storeInt
  rw [Int.min_eq_right (by omega), Int.max_eq_right (by omega), Int.bmod_def]
  split <;> omega

/-- A number that is stored in a field is the one that is written exactly where it fits. -/
lemma fits8_iff (n : Int) : ((DateTimeDiff.fits8 (storeInt n)).getD 0).toInt = n ↔ Fits8 n := by
  constructor
  · intro same
    have low := Int8.le_toInt ((DateTimeDiff.fits8 (storeInt n)).getD 0)
    have high := Int8.toInt_lt ((DateTimeDiff.fits8 (storeInt n)).getD 0)
    rw [same] at low high
    exact ⟨low, high⟩
  · rintro ⟨low, high⟩
    rw [storeInt_of_fits (by omega) (by omega), DateTimeDiff.fits8, if_pos ⟨low, high⟩]
    exact Int8.toInt_ofInt_of_le low high

/-- A number is stored exactly if it fits 16 bits. -/
lemma fits16_iff (n : Int) :
    ((DateTimeDiff.fits16 (storeInt n)).getD 0).toInt = n ↔ -2 ^ 15 ≤ n ∧ n < 2 ^ 15 := by
  constructor
  · intro same
    have low := Int16.le_toInt ((DateTimeDiff.fits16 (storeInt n)).getD 0)
    have high := Int16.toInt_lt ((DateTimeDiff.fits16 (storeInt n)).getD 0)
    rw [same] at low high
    exact ⟨low, high⟩
  · rintro ⟨low, high⟩
    rw [storeInt_of_fits low high, DateTimeDiff.fits16, if_pos ⟨low, high⟩]
    exact Int16.toInt_ofInt_of_le low high

/-- What a text with six numbers is decoded to -/
lemma dateTimeDiff_written {s : String} {years months days hours minutes seconds : Int}
    (six : written s = [years, months, days, hours, minutes, seconds]) :
    FromJson.dateTimeDiff (.string s) = .ok (some (DateTimeDiff.ofCounts (storeInt years) (storeInt months)
      (storeInt days) (storeInt hours) (storeInt minutes) (storeInt seconds)).1) := by
  have stored : scan dateTimeFormat (cString s) = [storeInt years, storeInt months, storeInt days, storeInt hours,
      storeInt minutes, storeInt seconds] := by
    rw [scan_eq, show numbers dateTimeFormat (cString s) = _ from six]
    rfl
  unfold FromJson.dateTimeDiff
  dsimp only
  rw [stored]

/-- Other texts are refused. -/
lemma dateTimeDiff_refused {s : String} (other : (written s).length ≠ 6) :
    FromJson.dateTimeDiff (.string s) = .ok none := by
  have stored : (scan dateTimeFormat (cString s)).length ≠ 6 := by
    rwa [scan_eq, List.length_map]
  unfold FromJson.dateTimeDiff
  dsimp only
  split
  case h_1 same =>
    rw [same] at stored
    exact absurd rfl stored
  case h_2 => rfl

/-- A difference is known by its fields. -/
lemma countsOf_inj {diff diff' : DateTimeDiff} (same : countsOf diff = countsOf diff') : diff = diff' := by
  obtain ⟨years, months, days, hours, minutes, seconds⟩ := diff
  obtain ⟨years', months', days', hours', minutes', seconds'⟩ := diff'
  unfold countsOf at same
  simp only [List.cons.injEq, Int16.toInt_inj, Int8.toInt_inj, and_true] at same
  obtain ⟨rfl, rfl, rfl, rfl, rfl, rfl⟩ := same
  rfl

/-- The counts of what six numbers are stored as are these numbers exactly where they fit. -/
lemma countsOf_stored_iff (years months days hours minutes seconds : Int) :
    [years, months, days, hours, minutes, seconds] = countsOf (DateTimeDiff.ofCounts (storeInt years) (storeInt months)
        (storeInt days) (storeInt hours) (storeInt minutes) (storeInt seconds)).1 ↔
      (-2 ^ 15 ≤ years ∧ years < 2 ^ 15) ∧ Fits8 months ∧ Fits8 days ∧ Fits8 hours ∧ Fits8 minutes ∧ Fits8 seconds := by
  rw [← fits16_iff, ← fits8_iff, ← fits8_iff, ← fits8_iff, ← fits8_iff, ← fits8_iff]
  unfold countsOf DateTimeDiff.ofCounts
  simp only [List.cons.injEq, and_true]
  rw [eq_comm, @eq_comm _ months, @eq_comm _ days, @eq_comm _ hours, @eq_comm _ minutes, @eq_comm _ seconds]

/-- The numbers of a text are stored exactly where they fit. -/
lemma faithful_iff (s : String) : Faithful s ↔ WrittenFits s := by
  unfold Faithful WrittenFits
  rcases e : written s with _ | ⟨years, _ | ⟨months, _ | ⟨days, _ | ⟨hours, _ | ⟨minutes, _ | ⟨seconds, _ | _⟩⟩⟩⟩⟩⟩
  case cons.cons.cons.cons.cons.cons.nil =>
    rw [dateTimeDiff_written e]
    constructor
    · intro faithful years' months' days' hours' minutes' seconds' same
      cases same
      exact (countsOf_stored_iff _ _ _ _ _ _).mp (faithful _ rfl)
    · intro fits diff given
      cases given
      exact (countsOf_stored_iff _ _ _ _ _ _).mpr (fits _ _ _ _ _ _ rfl)
  all_goals
    rw [dateTimeDiff_refused (by rw [e]; simp)]
    exact iff_of_true (fun diff impossible => by cases impossible)
      (fun _ _ _ _ _ _ impossible => by cases impossible)

/-- A difference is restored. -/
lemma dateTimeDiff_restored (diff : DateTimeDiff) :
    FromJson.dateTimeDiff (ToJson.dateTimeDiff diff) = .ok (some diff) := by
  cases text : ToJson.dateTimeDiff diff with
  | string s =>
    rw [dateTimeDiff_written (written_dateTime text)]
    congr 2
    apply countsOf_inj
    symm
    apply (countsOf_stored_iff _ _ _ _ _ _).mpr
    exact ⟨⟨Int16.le_toInt _, Int16.toInt_lt _⟩, ⟨Int8.le_toInt _, Int8.toInt_lt _⟩, ⟨Int8.le_toInt _, Int8.toInt_lt _⟩,
      ⟨Int8.le_toInt _, Int8.toInt_lt _⟩, ⟨Int8.le_toInt _, Int8.toInt_lt _⟩, ⟨Int8.le_toInt _, Int8.toInt_lt _⟩⟩
  | _ => cases text

/-- Every difference is restored from its text, and the fields of any text that is accepted are the numbers that are
    written exactly where these fit. -/
theorem dateTimeDiff_faithful_iff (diff : DateTimeDiff) (s : String) :
    FromJson.dateTimeDiff (ToJson.dateTimeDiff diff) = .ok (some diff) ∧ (Faithful s ↔ WrittenFits s) :=
  ⟨dateTimeDiff_restored diff, faithful_iff s⟩

/-- 200 months are accepted, and stored as none. -/
theorem dateTimeDiff_drops_months :
    ¬ ((∀ diff, FromJson.dateTimeDiff (ToJson.dateTimeDiff diff) = .ok (some diff)) ∧ ∀ s, Faithful s) := by
  rintro ⟨-, faithful⟩
  have given : FromJson.dateTimeDiff (.string "0Y 200M 0D 0h 0m 0s") = .ok (some {}) := by rfl
  have same := faithful _ _ given
  revert same
  decide +kernel

/-! ## Sequences -/

/-- The constructor of two ends and a step. The ends have `perSecond` ticks in a second, of which `time_point_cast` cuts
    off what is not a second; they are compared before. Whether the error code is cleared before or behind the count, is
    not specified. -/
def ofEnds (clearedFirst : Bool) (perSecond : Nat) (start stop : Int) (diff : DateTimeDiff) :
    Except DateTimeDiff.Fault (TimeSequence × Bool) :=
  let first := start.tdiv perSecond
  let last := stop.tdiv perSecond
  if start = stop then TimeSequence.ofIntervals first last 0 false
  else
    match TimeSequence.computeNumberOfIntervals (if start < stop then first else last)
      (if stop > start then last else first) diff with
    | .error fault => .error fault
    | .ok (n, err) => TimeSequence.ofIntervals first last (TimeSequence.toUInt32 n) (clearedFirst && err)

/-- Of whole seconds, it is the constructor that takes them. -/
lemma ofEnds_one (clearedFirst : Bool) (start stop : Int) (diff : DateTimeDiff) :
    ofEnds clearedFirst 1 start stop diff = TimeSequence.ofStep clearedFirst start stop diff := by
  unfold ofEnds TimeSequence.ofStep
  dsimp only
  rw [Nat.cast_one, Int.tdiv_one, Int.tdiv_one]
  split
  case isTrue same =>
    subst same
    rfl
  case isFalse apart =>
    have first : (if start < stop then start else stop) = min start stop := by
      rw [Int.min_def]
      split <;> split <;> omega
    have last : (if stop > start then stop else start) = max start stop := by
      rw [Int.max_def]
      split <;> split <;> omega
    rewrite [first, last]
    rfl

/-- How a decoder of sequences ends without a result. -/
inductive SequenceFault where
  | json (fault : Fault)
  | step (fault : DateTimeDiff.Fault)
  deriving DecidableEq, Repr

section sequences
variable (format : Int → String) (parse : String → Option Int)

/-- `format` is that of `"{:%Y/%m/%d %H:%M:%S %Z}"`. -/
def ToJson.timePoint (time : Int) : Value := .string (format time)

/-- `parse` is the extraction by `"%Y/%m/%d %H:%M:%S %Z"`, which may fail. -/
def FromJson.timePoint : Decoder Int
  | .string s => .ok (parse s)
  | _ => .ok none

/-- `to_json(TimeSequence)` -/
def ToJson.timeSequence (s : TimeSequence) : Value :=
  .object [
    ("start", ToJson.timePoint format s.start),
    ("end", ToJson.timePoint format s.stop),
    ("intervals", ToJson.integral .uint32 ⟨s.intervals.toNat, by
      have := s.intervals.toNat_lt
      constructor <;> simp only [Integral.min, Integral.max] <;> omega⟩)]

/-- The sequence of what is decoded, where all of it is. -/
def sequenceOf (start stop : Option Int) (intervals : Option (Integral.Val .uint32)) :
    Except SequenceFault (Option TimeSequence) :=
  match start, stop, intervals with
  | some start, some stop, some intervals =>
    match TimeSequence.ofIntervals start stop (UInt32.ofNat intervals.val.toNat) false with
    | .error fault => .error (.step fault)
    | .ok (_, true) => .ok none
    | .ok (result, false) => .ok (some result)
  | _, _, _ => .ok none

/-- `from_json<TimeSequence>` -/
def FromJson.timeSequence : Value → Except SequenceFault (Option TimeSequence)
  | .object members =>
    match find members "start", find members "end", find members "intervals" with
    | some start, some stop, some intervals =>
      match FromJson.timePoint parse start, FromJson.timePoint parse stop, FromJson.integral .uint32 intervals with
      | .ok start, .ok stop, .ok intervals => sequenceOf start stop intervals
      | .error fault, _, _ | _, .error fault, _ | _, _, .error fault => .error (.json fault)
    | _, _, _ => .ok none
  | .null => .ok (some { start := 0, stop := 0 })
  | _ => .ok none

end sequences

/-! ### The round trip of a sequence -/

section restored
variable {start stop : Int} {intervals : UInt32} {diff : DateTimeDiff} {s : TimeSequence} {err : Bool}

/-- An error code that is set before a division stays set. -/
lemma divided_clear (given : DateTimeDiff.divided start stop intervals err = .ok (diff, false)) : err = false := by
  unfold DateTimeDiff.divided at given
  dsimp only at given
  split at given
  · exact (Bool.or_eq_false_iff.mp (Prod.mk.inj (Except.ok.inj given)).2).1
  · split at given
    · cases given
    · split at given
      · cases result : DateTimeDiff.divide start stop intervals.toNat with
        | error fault =>
          rw [result] at given
          cases given
        | ok diff =>
          rw [result] at given
          exact (Prod.mk.inj (Except.ok.inj given)).2
      · cases given

/-- A sequence that is constructed without an error is constructed again from its ends and its number of intervals. -/
lemma ofIntervals_again (le : start ≤ stop)
    (given : TimeSequence.ofIntervals start stop intervals err = .ok (s, false)) :
    TimeSequence.ofIntervals s.start s.stop s.intervals false = .ok (s, false) := by
  have same := given
  unfold TimeSequence.ofIntervals at given
  cases result : DateTimeDiff.divided start stop intervals err with
  | error fault =>
    rw [result] at given
    cases given
  | ok divided =>
    obtain ⟨diff, err'⟩ := divided
    rw [result] at given
    obtain ⟨rfl, clear⟩ := Prod.mk.inj (Except.ok.inj given)
    obtain rfl : err' = false := (Bool.or_eq_false_iff.mp clear).1
    obtain rfl := divided_clear result
    dsimp only
    rw [show min start stop = start from min_eq_left le, show max start stop = stop from max_eq_right le]
    rw [show min start stop = start from min_eq_left le, show max start stop = stop from max_eq_right le] at same
    exact same

/-- The ends of a sequence are in the order of the ends that it is constructed from. -/
lemma ofEnds_again {clearedFirst : Bool} {perSecond : Nat} (le : start ≤ stop)
    (built : ofEnds clearedFirst perSecond start stop diff = .ok (s, false)) :
    TimeSequence.ofIntervals s.start s.stop s.intervals false = .ok (s, false) := by
  have ordered : start.tdiv perSecond ≤ stop.tdiv perSecond := by
    cases perSecond with
    | zero =>
      rw [Int.natCast_zero, Int.tdiv_zero, Int.tdiv_zero]
    | succ perSecond => exact Int.tdiv_le_tdiv (Int.natCast_pos.mpr (Nat.succ_pos perSecond)) le
  unfold ofEnds at built
  dsimp only at built
  split at built
  · exact ofIntervals_again ordered built
  · split at built
    · cases built
    · exact ofIntervals_again ordered built

end restored

/-- A sequence that is constructed without an error is restored with its step, where the texts of its ends are read
    back. The step is not written, but computed from the ends and the number of intervals as it was. -/
theorem timeSequence_restored (format : Int → String) (parse : String → Option Int) (clearedFirst : Bool)
    (perSecond : Nat)
    (start stop : Int) (le : start ≤ stop) (diff : DateTimeDiff) (s : TimeSequence)
    (built : ofEnds clearedFirst perSecond start stop diff = .ok (s, false))
    (readStart : parse (format s.start) = some s.start) (readStop : parse (format s.stop) = some s.stop) :
    FromJson.timeSequence parse (ToJson.timeSequence format s) = .ok (some s) := by
  have again := ofEnds_again le built
  have first : FromJson.timePoint parse (ToJson.timePoint format s.start) = .ok (some s.start) :=
    congrArg Except.ok readStart
  have last : FromJson.timePoint parse (ToJson.timePoint format s.stop) = .ok (some s.stop) :=
    congrArg Except.ok readStop
  unfold ToJson.timeSequence FromJson.timeSequence
  dsimp only
  rw [show find _ "start" = some (ToJson.timePoint format s.start) from rfl,
    show find _ "end" = some (ToJson.timePoint format s.stop) from rfl,
    show find _ "intervals" = some (ToJson.integral .uint32 ⟨s.intervals.toNat, _⟩) from rfl]
  dsimp only
  rw [first, last, integral_restored]
  unfold sequenceOf
  dsimp only
  rw [Int.toNat_natCast, UInt32.ofNat_toNat, again]

/-- Two days of January 1970 in steps of a day -/
theorem timeSequence_restored_days :
    let format (time : Int) : String := if time = 0 then "1970/01/01 00:00:00 UTC" else "1970/01/03 00:00:00 UTC"
    let parse (text : String) : Option Int :=
      if text = "1970/01/01 00:00:00 UTC" then some 0
      else if text = "1970/01/03 00:00:00 UTC" then some 172800 else none
    let s : TimeSequence := { start := 0, stop := 172800, duration := { days := 1 }, intervals := 2 }
    FromJson.timeSequence parse (ToJson.timeSequence format s) = .ok (some s) := by
  have built : ofEnds true 1 0 172800 { days := 1 } =
      .ok ({ start := 0, stop := 172800, duration := { days := 1 }, intervals := 2 }, false) := by decide +kernel
  exact timeSequence_restored _ _ true 1 0 172800 (by decide) { days := 1 } _ built rfl rfl

end OsterLib.Json
