import Mathlib.Data.List.TakeWhile
import OsterLib.Types.Text

/-!
# Texts cut into parts

`from_chars`, `split` and `iend_with` of `parsing.h`, with the exceptions that `substr` throws.

`iend_with` cuts the suffix it looks for, where it should cut the text, and compares what is left with all of the text.
So it never finds a suffix of a longer text (`iendWith_longer`), and it throws where the text is more than twice as
long (`iendWith_throws`). `iendWith_right_iff` and `iendWithAny_right_iff` say where it is right all the same.

`split` goes through the positions of a `StringView` in its loop, whose last length is a difference with `npos`.
`splitView_eq` takes it to the texts between the delimiters, and `split_loses_nothing` to the text it came from.
-/

namespace OsterLib.Types.Parsing
open OsterLib.Lib LexicalCast

/-- The exceptions that the parsers throw, with what they say where the parser itself makes it up -/
inductive Thrown where
  | outOfRange
  | invalidArgument (what : String)
  deriving DecidableEq, Repr

/-- `substr` up to the end of the text -/
def substr (text : List Char) (pos : Nat) : Except Thrown (List Char) :=
  if text.length < pos then .error .outOfRange else .ok (text.drop pos)

/-- `from_chars<int>`, which holds no number where `std::from_chars` does not read all of the text -/
def fromCharsInt (s : List Char) : Option Int :=
  let digits := if s.head? = some '-' then s.tail else s
  let read := digits.takeWhile Char.isDigit
  let value : Int := Nat.ofDigitChars 10 read 0
  let number := if s.head? = some '-' then -value else value
  if read = [] then none
  else if number < -2 ^ 31 ∨ 2 ^ 31 ≤ number then none
  else if read.length ≠ digits.length then none
  else some number

/-- Behind a delimiter less is left. -/
lemma dropWhile_shorter {p : Char → Bool} {str rest : List Char} {c : Char}
    (behind : str.dropWhile p = c :: rest) : rest.length < str.length := by
  have short := List.IsSuffix.length_le (List.dropWhile_suffix p (l := str))
  rw [behind, List.length_cons] at short
  omega

/-- The loop of `split`: the text up to the next of the characters of `delimiter`, and then what is behind it -/
def split (delimiter str : List Char) : List (List Char) :=
  match _behind : str.dropWhile (· ∉ delimiter) with
  | [] => [str.takeWhile (· ∉ delimiter)]
  | _ :: rest => str.takeWhile (· ∉ delimiter) :: split delimiter rest
termination_by str.length
decreasing_by exact dropWhile_shorter _behind

/-- `iend_with` of a single text -/
def iendWith (str toMatch : List Char) : Except Thrown Bool :=
  if str.length < toMatch.length then .ok false
  else
    match substr toMatch (str.length - toMatch.length) with
    | .error thrown => .error thrown
    | .ok substr => .ok (substr.isEqv str caseInsensitiveCharCompare)

/-- `iend_with` of a range of texts -/
def iendWithAny (str : List Char) : List (List Char) → Except Thrown Bool
  | [] => .ok false
  | possible :: others =>
    if str.length < possible.length then iendWithAny str others
    else
      match substr possible (str.length - possible.length) with
      | .error thrown => .error thrown
      | .ok substr => if substr.isEqv str caseInsensitiveCharCompare then .ok true else iendWithAny str others

/-! ## Suffixes up to letter case -/

/-- What `iend_with` is for: `str` ends with `toMatch` up to letter case. -/
def EndsWith (str toMatch : List Char) : Prop := toMatch.map Char.toUpper <:+ str.map Char.toUpper

instance (str toMatch : List Char) : Decidable (EndsWith str toMatch) :=
  inferInstanceAs (Decidable (toMatch.map Char.toUpper <:+ str.map Char.toUpper))

section suffixes
variable {str toMatch : List Char}

/-- A text that ends with another one is not shorter. -/
lemma EndsWith.length_le (ends : EndsWith str toMatch) : toMatch.length ≤ str.length := by
  have short := List.IsSuffix.length_le ends
  rwa [List.length_map, List.length_map] at short

/-- Texts are compared by their upper case. -/
lemma isEqv_caseInsensitive (left right : List Char) :
    left.isEqv right caseInsensitiveCharCompare = true ↔ left.map Char.toUpper = right.map Char.toUpper := by
  induction left generalizing right with
  | nil => cases right <;> simp
  | cons c left ih =>
    cases right with
    | nil => simp
    | cons d right =>
      rw [List.isEqv_cons_cons, Bool.and_eq_true, ih right, List.map_cons, List.map_cons, List.cons.injEq]
      exact and_congr_left fun _ => decide_eq_true_iff

/-- Among texts of one length, only the text itself is a suffix. -/
lemma endsWith_iff_of_length (same : str.length = toMatch.length) :
    EndsWith str toMatch ↔ toMatch.isEqv str caseInsensitiveCharCompare = true := by
  rw [isEqv_caseInsensitive]
  constructor
  · intro ends
    exact List.IsSuffix.eq_of_length ends (by rw [List.length_map, List.length_map, same])
  · intro same
    unfold EndsWith
    exact same ▸ List.suffix_rfl

/-- A suffix that is cut is not as long as the text it is compared with. -/
lemma isEqv_longer (longer : toMatch.length < str.length) (n : Nat) :
    (toMatch.drop n).isEqv str caseInsensitiveCharCompare = false := by
  rw [Bool.eq_false_iff]
  intro same
  have lengths := congrArg List.length ((isEqv_caseInsensitive _ _).mp same)
  rw [List.length_map, List.length_map, List.length_drop] at lengths
  omega

/-! ## Single suffixes -/

/-- A shorter text does not end with a longer one. -/
lemma iendWith_shorter (shorter : str.length < toMatch.length) : iendWith str toMatch = .ok false := if_pos shorter

/-- A text is compared with all of a suffix of the same length. -/
lemma iendWith_same (same : str.length = toMatch.length) :
    iendWith str toMatch = .ok (decide (EndsWith str toMatch)) := by
  have all : substr toMatch (str.length - toMatch.length) = .ok toMatch := by
    rw [same, Nat.sub_self, substr, if_neg (Nat.not_lt_zero _), List.drop_zero]
  have found := endsWith_iff_of_length same
  unfold iendWith
  rw [if_neg (by omega), all]
  dsimp only
  by_cases ends : EndsWith str toMatch
  · rw [decide_eq_true ends, found.mp ends]
  · rw [decide_eq_false ends, Bool.eq_false_iff.mpr fun same => ends (found.mpr same)]

/-- No suffix of a longer text is found. -/
lemma iendWith_longer (longer : toMatch.length < str.length) (bound : str.length ≤ 2 * toMatch.length) :
    iendWith str toMatch = .ok false := by
  unfold iendWith
  rw [if_neg (by omega), substr, if_neg (by omega)]
  dsimp only
  rw [isEqv_longer longer]

/-- The position behind the end of the suffix is where a text of more than twice its length begins to differ. -/
lemma iendWith_throws (long : 2 * toMatch.length < str.length) : iendWith str toMatch = .error .outOfRange := by
  unfold iendWith
  rw [if_neg (by omega), substr, if_pos (by omega)]

/-- Where it does not throw, it is `iend_with` as the parser of differences of dates calls it. -/
lemma iendWith_eq (bound : str.length ≤ 2 * toMatch.length) :
    iendWith str toMatch = .ok (LexicalCast.iendWith str toMatch) := by
  unfold iendWith LexicalCast.iendWith
  split
  case isTrue => rfl
  case isFalse => rw [substr, if_neg (by omega)]

/-- What is found are the suffixes of the same length as the text. -/
lemma iendWith_returns (bound : str.length ≤ 2 * toMatch.length) :
    iendWith str toMatch = .ok (decide (str.length = toMatch.length ∧ EndsWith str toMatch)) := by
  rcases Nat.lt_trichotomy str.length toMatch.length with shorter | same | longer
  · rw [iendWith_shorter shorter, decide_eq_false fun both => absurd both.1 (Nat.ne_of_lt shorter)]
  · rw [iendWith_same same, decide_eq_decide.mpr (iff_and_self.mpr fun _ => same)]
  · rw [iendWith_longer longer bound, decide_eq_false fun both => absurd both.1 (Nat.ne_of_gt longer)]

/-- `iend_with` of a single text is right, and does not throw, exactly where the text is no longer than the suffix, or
    where it is at most twice as long and does not end with the suffix. -/
theorem iendWith_right_iff :
    iendWith str toMatch = .ok (decide (EndsWith str toMatch)) ↔
      str.length ≤ toMatch.length ∨ (str.length ≤ 2 * toMatch.length ∧ ¬EndsWith str toMatch) := by
  constructor
  · intro right
    by_cases bound : str.length ≤ 2 * toMatch.length
    · rw [iendWith_returns bound] at right
      by_cases ends : EndsWith str toMatch
      · have same := (decide_eq_decide.mp (Except.ok.inj right)).mpr ends
        exact .inl (Nat.le_of_eq same.1)
      · exact .inr ⟨bound, ends⟩
    · rw [iendWith_throws (Nat.lt_of_not_le bound)] at right
      cases right
  · rintro (short | ⟨bound, none⟩)
    · rw [iendWith_returns (by omega)]
      congr 1
      apply decide_eq_decide.mpr
      constructor
      · exact fun both => both.2
      · exact fun ends => ⟨Nat.le_antisymm short ends.length_le, ends⟩
    · rw [iendWith_returns bound, decide_eq_false none, decide_eq_false fun both => none both.2]

/-! ## Ranges of suffixes -/

/-- The loop goes on behind a suffix that `iend_with` of it alone does not find. -/
lemma iendWithAny_cons (others : List (List Char)) :
    iendWithAny str (toMatch :: others) =
      match iendWith str toMatch with
      | .error thrown => .error thrown
      | .ok true => .ok true
      | .ok false => iendWithAny str others := by
  rw [iendWithAny, iendWith]
  split
  case isTrue => rfl
  case isFalse =>
    cases substr toMatch (str.length - toMatch.length) with
    | error thrown => rfl
    | ok part =>
      dsimp only
      cases part.isEqv str caseInsensitiveCharCompare with
      | true => rfl
      | false => rfl

variable {range : List (List Char)}

/-- What the loop finds is a suffix of the same length as the text, with none before it that is too short. -/
lemma iendWithAny_true_iff :
    iendWithAny str range = .ok true ↔
      ∃ before found after, range = before ++ found :: after ∧
        (∀ possible ∈ before, str.length ≤ 2 * possible.length) ∧
        str.length = found.length ∧ EndsWith str found := by
  induction range with
  | nil =>
    constructor
    · intro impossible
      cases impossible
    · rintro ⟨before, found, after, parts, -⟩
      exact absurd parts (by simp)
  | cons possible others ih =>
    rw [iendWithAny_cons]
    by_cases bound : str.length ≤ 2 * possible.length
    · rw [iendWith_returns bound]
      by_cases found : str.length = possible.length ∧ EndsWith str possible
      · rw [decide_eq_true found]
        exact iff_of_true rfl ⟨[], possible, others, rfl, by simp, found⟩
      · rw [decide_eq_false found]
        dsimp only
        rw [ih]
        constructor
        · rintro ⟨before, text, after, rfl, bounds, same⟩
          exact ⟨possible :: before, text, after, rfl, List.forall_mem_cons.mpr ⟨bound, bounds⟩, same⟩
        · rintro ⟨before, text, after, parts, bounds, same⟩
          cases before with
          | nil =>
            cases parts
            exact absurd same found
          | cons head before =>
            cases parts
            exact ⟨before, text, after, rfl, fun other mem => bounds other (List.mem_cons_of_mem _ mem), same⟩
    -- the exception of a suffix that is too short ends the loop
    · rw [iendWith_throws (Nat.lt_of_not_le bound)]
      constructor
      · intro impossible
        cases impossible
      · rintro ⟨before, text, after, parts, bounds, same⟩
        cases before with
        | nil =>
          cases parts
          exact absurd same.1 (by omega)
        | cons head before =>
          cases parts
          exact absurd (bounds _ List.mem_cons_self) bound

/-- No candidate is accepted exactly if none is of the right length and at the end. -/
lemma iendWithAny_false_iff :
    iendWithAny str range = .ok false ↔
      ∀ possible ∈ range, str.length ≤ 2 * possible.length ∧
        ¬(str.length = possible.length ∧ EndsWith str possible) := by
  induction range with
  | nil => exact iff_of_true rfl (by simp)
  | cons possible others ih =>
    rw [iendWithAny_cons, List.forall_mem_cons]
    by_cases bound : str.length ≤ 2 * possible.length
    · rw [iendWith_returns bound]
      by_cases found : str.length = possible.length ∧ EndsWith str possible
      · rw [decide_eq_true found]
        exact iff_of_false (by simp) fun all => all.1.2 found
      · rw [decide_eq_false found]
        dsimp only
        rw [ih]
        exact (and_iff_right ⟨bound, found⟩).symm
    · rw [iendWith_throws (Nat.lt_of_not_le bound)]
      exact iff_of_false (by simp) fun all => bound all.1.1

/-- `iend_with` of a range is right, and does not throw, exactly where it finds a suffix of the same length as the text
    before one that is too short, or where none is too short and the text ends with none of them. -/
theorem iendWithAny_right_iff :
    iendWithAny str range = .ok (decide (∃ possible ∈ range, EndsWith str possible)) ↔
      (∃ before found after, range = before ++ found :: after ∧
        (∀ possible ∈ before, str.length ≤ 2 * possible.length) ∧
        str.length = found.length ∧ EndsWith str found) ∨
      ∀ possible ∈ range, str.length ≤ 2 * possible.length ∧ ¬EndsWith str possible := by
  rw [← iendWithAny_true_iff]
  by_cases ends : ∃ possible ∈ range, EndsWith str possible
  · rw [decide_eq_true ends]
    constructor
    · exact .inl
    · rintro (found | none)
      · exact found
      · obtain ⟨possible, mem, ends⟩ := ends
        exact absurd ends (none possible mem).2
  · rw [decide_eq_false ends]
    have none : ∀ possible ∈ range, ¬EndsWith str possible := fun possible mem found => ends ⟨possible, mem, found⟩
    constructor
    · intro right
      exact .inr fun possible mem => ⟨(iendWithAny_false_iff.mp right possible mem).1, none possible mem⟩
    · rintro (found | bounds)
      · obtain ⟨before, text, after, rfl, -, -, found⟩ := iendWithAny_true_iff.mp found
        exact absurd found (none text (by simp))
      · exact iendWithAny_false_iff.mpr fun possible mem =>
          ⟨(bounds possible mem).1, fun both => (bounds possible mem).2 both.2⟩

end suffixes

/-- Where `iend_with` is right and does not throw, for a single suffix and for a range of them. -/
theorem iend_with_right_iff (str : List Char) :
    (∀ toMatch, iendWith str toMatch = .ok (decide (EndsWith str toMatch)) ↔
      str.length ≤ toMatch.length ∨ (str.length ≤ 2 * toMatch.length ∧ ¬EndsWith str toMatch)) ∧
    (∀ range, iendWithAny str range = .ok (decide (∃ possible ∈ range, EndsWith str possible)) ↔
      (∃ before found after, range = before ++ found :: after ∧
        (∀ possible ∈ before, str.length ≤ 2 * possible.length) ∧
        str.length = found.length ∧ EndsWith str found) ∨
      ∀ possible ∈ range, str.length ≤ 2 * possible.length ∧ ¬EndsWith str possible) := by
  constructor
  · intro toMatch
    exact iendWith_right_iff
  · intro range
    exact iendWithAny_right_iff

/-- A suffix of a longer text is not found, and a text of more than twice its length is an exception. -/
theorem iend_with_misses :
    EndsWith "12h".toList "2h".toList ∧ iendWith "12h".toList "2h".toList = .ok false ∧
      iendWith "12h".toList "h".toList = .error .outOfRange ∧
      iendWithAny "12h".toList ["2h".toList] = .ok false := by
  decide

/-! ## Tokens -/

/-- The position that stands for none -/
def npos : UInt64 := UInt64.ofNat (2 ^ 64 - 1)

/-- A view of a text, which is never as long as `npos` -/
structure StringView where
  data : List Char
  size_lt : data.length < 2 ^ 64 - 1

namespace StringView

/-- `find_first_of` from a position on -/
def findFirstOf (str : StringView) (delimiter : List Char) (pos : UInt64) : UInt64 :=
  match (str.data.drop pos.toNat).findIdx? (· ∈ delimiter) with
  | some skipped => pos + UInt64.ofNat skipped
  | none => npos

/-- `substr` of at most `n` characters -/
def substr (str : StringView) (pos n : UInt64) : Except Thrown (List Char) :=
  if str.data.length < pos.toNat then .error .outOfRange
  else .ok ((str.data.drop pos.toNat).take n.toNat)

variable {str : StringView} {delimiter : List Char} {pos : UInt64}

/-- The position of a character that is found is one of the text. -/
lemma findFirstOf_found (found : str.findFirstOf delimiter pos ≠ npos) :
    (str.findFirstOf delimiter pos).toNat =
        pos.toNat + (str.data.drop pos.toNat).findIdx (· ∈ delimiter) ∧
      (str.findFirstOf delimiter pos).toNat < str.data.length := by
  have size := str.size_lt
  unfold findFirstOf at found ⊢
  cases at_ : (str.data.drop pos.toNat).findIdx? (· ∈ delimiter) with
  | none =>
    rw [at_] at found
    exact absurd rfl found
  | some skipped =>
    obtain ⟨inside, first⟩ := List.findIdx?_eq_some_iff_findIdx_eq.mp at_
    rw [List.length_drop] at inside
    have sum : (pos + UInt64.ofNat skipped).toNat = pos.toNat + skipped := by
      rw [UInt64.toNat_add, UInt64.toNat_ofNat', Nat.add_mod_mod, Nat.mod_eq_of_lt (by omega)]
    dsimp only
    rw [sum, first]
    exact ⟨rfl, by omega⟩

/-- The position behind it does not wrap. -/
lemma toNat_next (found : str.findFirstOf delimiter pos ≠ npos) :
    (str.findFirstOf delimiter pos + 1).toNat = (str.findFirstOf delimiter pos).toNat + 1 := by
  have size := str.size_lt
  have inside := (findFirstOf_found found).2
  rw [UInt64.toNat_add]
  exact Nat.mod_eq_of_lt (Nat.lt_of_le_of_lt (Nat.succ_le_of_lt inside) (by omega))

end StringView

/-- The loop of `split`, in which a position of no character ends it -/
def splitLoop (str : StringView) (delimiter : List Char) (result : List (List Char)) (begPos : UInt64) :
    Except Thrown (List (List Char)) :=
  let pos := str.findFirstOf delimiter begPos
  match str.substr begPos (pos - begPos) with
  | .error thrown => .error thrown
  | .ok token =>
    if pos = npos then .ok (result ++ [token]) else splitLoop str delimiter (result ++ [token]) (pos + 1)
termination_by str.data.length + 1 - begPos.toNat
decreasing_by
  rename_i found
  have next := StringView.toNat_next found
  have inside := StringView.findFirstOf_found found
  omega

/-- `split` of a view, with the positions of the source -/
def splitView (str : StringView) (delimiter : List Char) : Except Thrown (List (List Char)) :=
  splitLoop str delimiter [] 0

section tokens
variable {str : StringView} {delimiter rest : List Char} {begPos : UInt64}

/-- What is cut off behind the last delimiter, where the length is a difference with `npos` -/
lemma cut_last (inside : begPos.toNat ≤ str.data.length) (at_ : str.data.drop begPos.toNat = rest)
    (none : rest.dropWhile (· ∉ delimiter) = []) :
    str.findFirstOf delimiter begPos = npos ∧
      str.substr begPos (npos - begPos) = .ok (rest.takeWhile (· ∉ delimiter)) := by
  have size := str.size_lt
  have all := List.dropWhile_eq_nil_iff.mp none
  have long : rest.length ≤ (npos - begPos).toNat := by
    have max : npos.toNat = 2 ^ 64 - 1 := by decide
    have small : begPos ≤ npos := UInt64.le_iff_toNat_le.mpr (by omega)
    rw [UInt64.toNat_sub_of_le _ _ small, max, ← at_, List.length_drop]
    omega
  constructor
  · have missing : rest.findIdx? (· ∈ delimiter) = .none := by
      rw [List.findIdx?_eq_none_iff]
      intro c mem
      have other := of_decide_eq_true (all c mem)
      exact decide_eq_false other
    unfold StringView.findFirstOf
    rw [at_, missing]
  · unfold StringView.substr
    rw [if_neg (Nat.not_lt.mpr inside), at_, List.take_of_length_le long, List.takeWhile_eq_self_iff.mpr all]

/-- What is cut off in front of a delimiter, and where the next token begins -/
lemma cut_next {c : Char} {behind : List Char} (inside : begPos.toNat ≤ str.data.length)
    (at_ : str.data.drop begPos.toNat = rest) (found : rest.dropWhile (· ∉ delimiter) = c :: behind) :
    str.findFirstOf delimiter begPos ≠ npos ∧
      str.substr begPos (str.findFirstOf delimiter begPos - begPos) = .ok (rest.takeWhile (· ∉ delimiter)) ∧
      str.data.drop (str.findFirstOf delimiter begPos).toNat = c :: behind := by
  have same : (fun c => !decide (c ∉ delimiter)) = fun c => decide (c ∈ delimiter) := by
    funext c
    rw [decide_not, Bool.not_not]
  have first : rest.takeWhile (· ∉ delimiter) = rest.take (rest.findIdx (· ∈ delimiter)) := by
    rw [List.takeWhile_eq_take_findIdx_not, same]
  have back : rest.drop (rest.findIdx (· ∈ delimiter)) = c :: behind := by
    rw [← found, List.dropWhile_eq_drop_findIdx_not, same]
  have here : rest.findIdx (· ∈ delimiter) < rest.length := by
    have short := congrArg List.length back
    rw [List.length_drop, List.length_cons] at short
    omega
  have some := List.findIdx?_eq_some_iff_findIdx_eq.mpr ⟨here, rfl⟩
  have noNone : str.findFirstOf delimiter begPos ≠ npos := by
    have size := str.size_lt
    have max : npos.toNat = 2 ^ 64 - 1 := by decide
    have lengths := congrArg List.length at_
    rw [List.length_drop] at lengths
    unfold StringView.findFirstOf
    rw [at_, some]
    intro wraps
    have values := congrArg UInt64.toNat wraps
    rw [UInt64.toNat_add, UInt64.toNat_ofNat', Nat.add_mod_mod, Nat.mod_eq_of_lt (by omega), max] at values
    omega
  have pos := (StringView.findFirstOf_found noNone).1
  rw [at_] at pos
  refine ⟨noNone, ?_, ?_⟩
  · have after : begPos ≤ str.findFirstOf delimiter begPos := UInt64.le_iff_toNat_le.mpr (by omega)
    unfold StringView.substr
    rw [if_neg (Nat.not_lt.mpr inside), UInt64.toNat_sub_of_le _ _ after, pos, at_, Nat.add_sub_cancel_left, first]
  · rw [pos, ← List.drop_drop, at_, back]

/-- Without a delimiter the rest is the last part. -/
lemma split_last (none : rest.dropWhile (· ∉ delimiter) = []) :
    split delimiter rest = [rest.takeWhile (· ∉ delimiter)] := by
  rw [split]
  split
  case h_1 => rfl
  case h_2 behind =>
    rw [none] at behind
    cases behind

/-- A delimiter ends a part. -/
lemma split_next {c : Char} {behind : List Char} (found : rest.dropWhile (· ∉ delimiter) = c :: behind) :
    split delimiter rest = rest.takeWhile (· ∉ delimiter) :: split delimiter behind := by
  rw [split]
  split
  case h_1 none =>
    rw [none] at found
    cases found
  case h_2 same =>
    rw [found] at same
    cases same
    rfl

/-- The loop appends the tokens of the rest of the text. -/
lemma splitLoop_eq (result : List (List Char)) (inside : begPos.toNat ≤ str.data.length)
    (at_ : str.data.drop begPos.toNat = rest) :
    splitLoop str delimiter result begPos = .ok (result ++ split delimiter rest) := by
  induction rest using split.induct delimiter generalizing result begPos with
  | case1 rest none =>
    obtain ⟨ended, token⟩ := cut_last inside at_ none
    rw [splitLoop, ended, token, split_last none]
    rfl
  | case2 rest c behind found ih =>
    obtain ⟨more, token, next⟩ := cut_next inside at_ found
    have step := StringView.toNat_next more
    have here := (StringView.findFirstOf_found more).2
    have after : str.data.drop (str.findFirstOf delimiter begPos + 1).toNat = behind := by
      rw [step, ← List.drop_drop, next]
      rfl
    rw [splitLoop, token]
    dsimp only
    rw [if_neg more, ih _ (by omega) after, split_next found, List.append_assoc]
    rfl

/-- Views are split like their texts. -/
lemma splitView_eq (str : StringView) (delimiter : List Char) :
    splitView str delimiter = .ok (split delimiter str.data) :=
  splitLoop_eq [] (Nat.zero_le _) rfl

/-- `split` is the split of the library. -/
lemma split_eq (delimiter text : List Char) : split delimiter text = text.splitOnP (· ∈ delimiter) := by
  have others : ∀ c ∈ text.takeWhile (· ∉ delimiter), decide (c ∈ delimiter) = false := by
    intro c mem
    have other := List.mem_takeWhile_imp mem
    exact decide_eq_false (of_decide_eq_true other)
  induction text using split.induct delimiter with
  | case1 text none =>
    have whole := List.takeWhile_append_dropWhile (p := (· ∉ delimiter)) (l := text)
    rw [none, List.append_nil] at whole
    rw [whole] at others
    rw [split_last none, whole, List.splitOnP_eq_singleton others]
  | case2 text c behind found ih =>
    have delimits : decide (c ∈ delimiter) = true := by
      have first := List.head?_dropWhile_not (· ∉ delimiter) text
      rw [found, List.head?_cons] at first
      simpa using first
    have ends : ∀ c ∈ behind.takeWhile (· ∉ delimiter), decide (c ∈ delimiter) = false := by
      intro c mem
      have other := List.mem_takeWhile_imp mem
      exact decide_eq_false (of_decide_eq_true other)
    calc split delimiter text
        = text.takeWhile (· ∉ delimiter) :: behind.splitOnP (· ∈ delimiter) := by rw [split_next found, ih ends]
      _ = (text.takeWhile (· ∉ delimiter) ++ c :: behind).splitOnP (· ∈ delimiter) :=
        (List.splitOnP_append_cons_of_forall_mem others c delimits behind).symm
      _ = text.splitOnP (· ∈ delimiter) := by rw [← found, List.takeWhile_append_dropWhile]

/-- There is one token more than there are delimiters. -/
lemma length_splitOnP (p : Char → Bool) (text : List Char) : (text.splitOnP p).length = text.countP p + 1 := by
  induction text with
  | nil => rfl
  | cons c text ih =>
    rw [List.splitOnP_cons_eq_if_modifyHead]
    cases delimits : p c with
    | true => rw [if_pos rfl, List.length_cons, ih, List.countP_cons_of_pos delimits]
    | false => rw [if_neg Bool.false_ne_true, List.length_modifyHead, ih, List.countP_cons_of_neg (by simp [delimits])]

/-- No token has a delimiter. -/
lemma not_mem_splitOnP {p : Char → Bool} {text token : List Char} (mem : token ∈ text.splitOnP p) :
    ∀ c ∈ token, p c = false := by
  induction text generalizing token with
  | nil =>
    cases List.mem_singleton.mp mem
    exact fun c inside => absurd inside List.not_mem_nil
  | cons c text ih =>
    obtain ⟨first, others, tokens⟩ := List.exists_cons_of_ne_nil (List.splitOnP_ne_nil p text)
    rw [List.splitOnP_cons_eq_if_modifyHead, tokens] at mem
    rw [tokens] at ih
    cases delimits : p c with
    | true =>
      rw [delimits, if_pos rfl] at mem
      cases List.mem_cons.mp mem with
      | inl empty =>
        cases empty
        exact fun c inside => absurd inside List.not_mem_nil
      | inr later => exact ih later
    | false =>
      rw [delimits, if_neg Bool.false_ne_true, List.modifyHead_cons] at mem
      cases List.mem_cons.mp mem with
      | inl head =>
        cases head
        exact List.forall_mem_cons.mpr ⟨delimits, ih List.mem_cons_self⟩
      | inr later => exact ih (List.mem_cons_of_mem _ later)

end tokens

/-- The tokens, each but the last with a delimiter behind it -/
def rejoin (tokens : List (List Char)) (delimiters : List Char) : List Char :=
  (tokens.zipWith (· ++ ·) (delimiters.map (fun c => [c]) ++ [[]])).flatten

/-- `split` returns one token more than there are delimiters in the text, none of them in a token, and with the
    delimiters back between the tokens they are the text. -/
theorem split_loses_nothing (str : StringView) (delimiter : List Char) :
    ∃ tokens, splitView str delimiter = .ok tokens ∧
      tokens.length = str.data.countP (· ∈ delimiter) + 1 ∧
      (∀ token ∈ tokens, ∀ c ∈ token, c ∉ delimiter) ∧
      rejoin tokens (str.data.filter (· ∈ delimiter)) = str.data := by
  refine ⟨_, splitView_eq str delimiter, ?_⟩
  rw [split_eq]
  refine ⟨length_splitOnP _ _, ?_, List.splitOnP_spec _⟩
  intro token mem c inside
  exact of_decide_eq_false (not_mem_splitOnP mem c inside)

example : splitView ⟨":1h::2d".toList, by decide⟩ ":".toList =
    .ok ["".toList, "1h".toList, "".toList, "2d".toList] := by
  rw [splitView_eq, split_eq]
  decide

end OsterLib.Types.Parsing
