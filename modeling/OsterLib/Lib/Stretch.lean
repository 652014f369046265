import Mathlib.Data.List.Destutter
import OsterLib.Lib.Walk

/-!
# Stretches of equal values

The values of a list at the indices `j`, `next j`, `next (next j)` and so on fall into stretches of equal ones. Where
`next` is the successor these are the stretches of the list itself, and where it turns around there may be no end of
them. `StretchEnd` says where a stretch ends, `Passes` that the stretches from an index on have given values, and
`passes_iff` that these are the first values of what is left of the list without repetitions (`stretches`).
`stretch_induction` is the induction over the stretches of a list.
-/

namespace OsterLib.Lib
open Walk

section Stretch
variable {P : Type}

section values
variable [DecidableEq P]

/-- The values of the stretches of a list -/
def stretches (values : List P) : List P := values.destutter (· ≠ ·)

/-- A repeated value belongs to one stretch. -/
lemma stretches_same (p : P) (values : List P) : stretches (p :: p :: values) = stretches (p :: values) :=
  if_neg (not_not_intro rfl)

/-- Another value begins a stretch. -/
lemma stretches_ne {p q : P} (ne : p ≠ q) (values : List P) :
    stretches (p :: q :: values) = p :: stretches (q :: values) :=
  if_pos ne

/-- Where there are values, there is a stretch. -/
lemma stretches_ne_nil (p : P) (values : List P) : stretches (p :: values) ≠ [] := List.destutter'_ne_nil _ _

end values

variable {values : List P} {next : Nat → Nat}

/-- The stretch of equal values from `j` on, along `next`, has the value `p`, and its last index is `e`. -/
inductive StretchEnd (values : List P) (next : Nat → Nat) : Nat → P → Nat → Prop
  | stop {j : Nat} {p q : P} :
    values[j]? = some p → values[next j]? = some q → p ≠ q → StretchEnd values next j p j
  | stay {j e : Nat} {p : P} :
    values[j]? = some p → StretchEnd values next (next j) p e → StretchEnd values next j p e

namespace StretchEnd
variable {j e e' : Nat} {p p' : P}

/-- A stretch begins with its value. -/
lemma head (stretch : StretchEnd values next j p e) : values[j]? = some p := by
  cases stretch with
  | stop here => exact here
  | stay here => exact here

/-- A stretch ends with its value. -/
lemma last (stretch : StretchEnd values next j p e) : values[e]? = some p := by
  induction stretch with
  | stop here => exact here
  | stay _ _ ih => exact ih

/-- The value behind a stretch is inside. -/
lemma next_lt (stretch : StretchEnd values next j p e) : next j < values.length := by
  cases stretch with
  | stop _ there => exact (List.getElem?_eq_some_iff.mp there).1
  | stay _ stretch => exact (List.getElem?_eq_some_iff.mp stretch.head).1

/-- Behind the stretch there is another value. -/
lemma behind (stretch : StretchEnd values next j p e) : ∃ q, values[next e]? = some q ∧ p ≠ q := by
  induction stretch with
  | stop _ there ne => exact ⟨_, there, ne⟩
  | stay _ _ ih => exact ih

/-- A stretch from an index is determined. -/
lemma unique (first : StretchEnd values next j p e) (second : StretchEnd values next j p' e') : p = p' ∧ e = e' := by
  induction first with
  | stop here there ne =>
    cases second with
    | stop here' => exact ⟨Option.some.inj (here.symm.trans here'), rfl⟩
    | stay here' stretch =>
      cases here.symm.trans here'
      exact absurd (Option.some.inj (stretch.head.symm.trans there)) ne
  | stay here stretch ih =>
    cases second with
    | stop here' there ne =>
      cases here.symm.trans here'
      exact absurd (Option.some.inj (stretch.head.symm.trans there)) ne
    | stay here' stretch' => exact ih stretch'

/-- The loop that skips the values of a stretch -/
lemma skip [DecidableEq P] (stretch : StretchEnd values next j p e) :
    Comes (Walk.skip (fun j => same values j (next j)) next · j) (.ended e) := by
  induction stretch with
  | stop here there ne =>
    apply Comes.skip_done
    rw [same, read_eq here, read_eq there]
    exact congrArg ended (decide_eq_false ne)
  | stay here stretch ih =>
    apply Comes.skip_next
    · rw [same, read_eq here, read_eq stretch.head]
      exact congrArg ended (decide_eq_true rfl)
    · exact ih

end StretchEnd

/-- Where some value along the way is another one, the stretch has an end. -/
lemma exists_stretchEnd [DecidableEq P] {j k : Nat} {p q : P} (inside : ∀ k, next^[k] j < values.length)
    (here : values[j]? = some p) (there : values[next^[k] j]? = some q) (ne : p ≠ q) :
    ∃ e, StretchEnd values next j p e := by
  induction k generalizing j with
  | zero => exact absurd (Option.some.inj (here.symm.trans there)) ne
  | succ k ih =>
    obtain ⟨p', here'⟩ : ∃ p', values[next j]? = some p' := ⟨_, List.getElem?_eq_getElem (inside 1)⟩
    by_cases same : p = p'
    · subst same
      obtain ⟨e, stretch⟩ := ih (fun k => inside (k + 1)) here' there
      exact ⟨e, .stay here stretch⟩
    · exact ⟨j, .stop here here' same⟩

/-! ## Several stretches -/

/-- The stretches from `j` on have the given values, and there is another value behind each. -/
inductive Passes (values : List P) (next : Nat → Nat) : Nat → List P → Prop
  | none {j : Nat} : Passes values next j []
  | one {j e : Nat} {p : P} {ps : List P} :
    StretchEnd values next j p e → Passes values next (next e) ps → Passes values next j (p :: ps)

/-- The first stretch is passed, and the others from its end on. -/
lemma passes_cons_iff {j e : Nat} {p q : P} {ps : List P} (stretch : StretchEnd values next j q e) :
    Passes values next j (p :: ps) ↔ p = q ∧ Passes values next (next e) ps := by
  constructor
  · intro passes
    cases passes with
    | one stretch' passes =>
      obtain ⟨rfl, rfl⟩ := stretch'.unique stretch
      exact ⟨rfl, passes⟩
  · rintro ⟨rfl, passes⟩
    exact .one stretch passes

/-- So many values from `j` on -/
def around (values : List P) (next : Nat → Nat) : Nat → Nat → List P
  | 0, _ => []
  | n + 1, j =>
    match values[j]? with
    | some p => p :: around values next n (next j)
    | none => []

/-- A walk around takes the value it stands at. -/
lemma around_succ {n j : Nat} {p : P} (here : values[j]? = some p) :
    around values next (n + 1) j = p :: around values next n (next j) := by
  rw [around, here]

variable [DecidableEq P]

/-- A stretch comes in front of those behind it. -/
lemma StretchEnd.front {j e n : Nat} {p : P} {ps : List P} (stretch : StretchEnd values next j p e)
    (later : ps <+: stretches (around values next n (next e))) :
    ∃ n, p :: ps <+: stretches (around values next n j) := by
  induction stretch with
  | stop here there ne =>
    refine ⟨n + 1, ?_⟩
    rw [around_succ here]
    cases n with
    | zero =>
      rw [List.prefix_nil.mp later]
      exact List.prefix_rfl
    | succ n =>
      rw [around_succ there] at later ⊢
      rw [stretches_ne ne, List.prefix_cons_inj]
      exact later
  | stay here stretch ih =>
    obtain ⟨n, more⟩ := ih later
    refine ⟨n + 1, ?_⟩
    rw [around_succ here]
    cases n with
    | zero => exact absurd (List.prefix_nil.mp more) (List.cons_ne_nil _ _)
    | succ n =>
      rw [around_succ stretch.head] at more ⊢
      rw [stretches_same]
      exact more

/-- What is passed comes first on the way around. -/
lemma Passes.front {j : Nat} {ps : List P} (passes : Passes values next j ps) :
    ∃ n, ps <+: stretches (around values next n j) := by
  induction passes with
  | none => exact ⟨0, _, rfl⟩
  | one stretch _ ih =>
    obtain ⟨n, later⟩ := ih
    exact stretch.front later

/-- Where all stretches end, those from an index on have given values if the list without repetitions has. -/
lemma passes_of_front {I : Nat → Prop} (ends : ∀ j, I j → ∃ p e, StretchEnd values next j p e)
    (keep : ∀ j, I j → I (next j)) {n j : Nat} (init : I j) {ps : List P}
    (front : ps <+: stretches (around values next n j)) : Passes values next j ps := by
  induction n generalizing j ps with
  | zero =>
    rw [List.prefix_nil.mp front]
    exact .none
  | succ n ih =>
    obtain ⟨p, e, stretch⟩ := ends j init
    obtain ⟨q, e', stretch'⟩ := ends (next j) (keep j init)
    rw [around_succ stretch.head] at front
    cases ps with
    | nil => exact .none
    | cons u ps =>
      cases n with
      | zero =>
        obtain ⟨rfl, rest⟩ := List.cons_prefix_cons.mp front
        rw [List.prefix_nil.mp rest]
        exact .one stretch .none
      | succ n =>
        by_cases same : p = q
        · subst same
          rw [around_succ stretch'.head, stretches_same, ← around_succ stretch'.head] at front
          cases ih (keep j init) front with
          | one stretch'' passes =>
            obtain ⟨rfl, rfl⟩ := stretch''.unique stretch'
            exact .one (.stay stretch.head stretch') passes
        · rw [around_succ stretch'.head, stretches_ne same] at front
          obtain ⟨rfl, rest⟩ := List.cons_prefix_cons.mp front
          rw [← around_succ stretch'.head] at rest
          exact .one (.stop stretch.head stretch'.head same) (ih (keep j init) rest)

/-- What is passed are the first stretches on some way around. -/
lemma passes_iff {I : Nat → Prop} (ends : ∀ j, I j → ∃ p e, StretchEnd values next j p e)
    (keep : ∀ j, I j → I (next j)) {j : Nat} (init : I j) (ps : List P) :
    Passes values next j ps ↔ ∃ n, ps <+: stretches (around values next n j) := by
  constructor
  · exact Passes.front
  · rintro ⟨n, front⟩
    exact passes_of_front ends keep init front

omit [DecidableEq P] in
/-- The way around a list from one index on begins with what is left of the list. -/
lemma around_drop (succ : ∀ j, j + 1 < values.length → next j = j + 1) {n j : Nat} (whole : j + n = values.length) :
    around values next n j = values.drop j := by
  induction n generalizing j with
  | zero =>
    rw [List.drop_of_length_le (show values.length ≤ j by omega)]
    rfl
  | succ n ih =>
    have lt : j < values.length := by omega
    rw [around_succ (List.getElem?_eq_getElem lt), List.drop_eq_getElem_cons lt, List.cons_inj_right]
    cases n with
    | zero =>
      rw [List.drop_of_length_le (Nat.le_of_eq whole.symm)]
      rfl
    | succ n =>
      rw [succ j (by omega)]
      exact ih (by omega)

/-! ## The stretches of the list itself -/

/-- A stretch has an end, or what is left of the list is a stretch. -/
lemma stretch_or_rest {i : Nat} (lt : i < values.length) :
    (∃ p e, StretchEnd values (· + 1) i p e ∧ i ≤ e ∧
        stretches (values.drop i) = p :: stretches (values.drop (e + 1))) ∨
      ∃ p, stretches (values.drop i) = [p] ∧ ∀ k, i ≤ k → k < values.length → values[k]? = some p := by
  obtain ⟨p, here⟩ : ∃ p, values[i]? = some p := ⟨_, List.getElem?_eq_getElem lt⟩
  induction left : values.length - i generalizing i with
  | zero => omega
  | succ left ih =>
    have front : values.drop i = p :: values.drop (i + 1) := by
      rw [List.drop_eq_getElem_cons lt, (List.getElem?_eq_some_iff.mp here).2]
    by_cases more : i + 1 < values.length
    · obtain ⟨q, there⟩ : ∃ q, values[i + 1]? = some q := ⟨_, List.getElem?_eq_getElem more⟩
      have front' : values.drop (i + 1) = q :: values.drop (i + 2) := by
        rw [List.drop_eq_getElem_cons more, (List.getElem?_eq_some_iff.mp there).2]
      by_cases same : p = q
      · subst same
        rw [front, front', stretches_same, ← front']
        rcases ih more there (by omega) with ⟨u, e, stretch, le, rest⟩ | ⟨u, rest, all⟩
        · cases stretch.head.symm.trans there
          exact .inl ⟨p, e, .stay here stretch, Nat.le_of_succ_le le, rest⟩
        · cases (all (i + 1) (Nat.le_refl _) more).symm.trans there
          refine .inr ⟨p, rest, fun k le lt' => ?_⟩
          cases Nat.eq_or_lt_of_le le with
          | inl first => rw [← first, here]
          | inr behind => exact all k behind lt'
      · refine .inl ⟨p, i, .stop here there same, Nat.le_refl i, ?_⟩
        rw [front, front', stretches_ne same]
    · refine .inr ⟨p, ?_, ?_⟩
      · rw [front, List.drop_of_length_le (Nat.le_of_not_lt more)]
        rfl
      · intro k le lt'
        rw [show k = i by omega]
        exact here

/-- Induction over the stretches of a list, from the last one to the first -/
theorem stretch_induction {motive : ∀ i, i < values.length → Prop}
    (stretch : ∀ i p e lt more, StretchEnd values (· + 1) i p e → i ≤ e →
      stretches (values.drop i) = p :: stretches (values.drop (e + 1)) → motive (e + 1) more → motive i lt)
    (rest : ∀ i p lt, stretches (values.drop i) = [p] →
      (∀ k, i ≤ k → k < values.length → values[k]? = some p) → motive i lt)
    (i : Nat) (lt : i < values.length) : motive i lt := by
  induction left : values.length - i using Nat.strongRecOn generalizing i with
  | ind left ih =>
    subst left
    rcases stretch_or_rest lt with ⟨p, e, ends, le, here⟩ | ⟨p, here, all⟩
    · obtain ⟨q, after, -⟩ := ends.behind
      have more := (List.getElem?_eq_some_iff.mp after).1
      exact stretch i p e lt more ends le here (ih (values.length - (e + 1)) (by omega) (e + 1) more rfl)
    · exact rest i p lt here all

/-- There is a stretch from any index inside. -/
lemma stretches_drop_ne_nil {i : Nat} (lt : i < values.length) : stretches (values.drop i) ≠ [] := by
  rw [List.drop_eq_getElem_cons lt]
  exact stretches_ne_nil _ _

end Stretch
end OsterLib.Lib
