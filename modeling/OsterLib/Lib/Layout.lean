import OsterLib.Lib.Parse

/-!
# Layouts

A layout says how far a value reaches that begins at the front of a list: what is read of the list decides how much
more belongs to it. A reading may break off at something that belongs to no value, and a value may reach beyond the
list. What a layout says does not depend on what stands behind (`Delimited`). So no strict prefix of a list holds all
that is laid out exactly if nothing of the list stands behind that (`Delimited.prefix_iff`).
-/

namespace OsterLib.Lib
variable {ε β V W : Type}

/-- What stands behind a value, or behind the place where a reading breaks off; `none` if the list ends before. -/
abbrev Layout (β : Type) := List β → Option (Bool × List β)

namespace Layout

/-- Nothing more belongs to the value. -/
def done : Layout β := fun xs => some (true, xs)

/-- No value goes on like this. -/
def broken : Layout β := fun xs => some (false, xs)

/-- So many items, by which the layout behind them is chosen. -/
def items (n : Nat) (next : List β → Layout β) : Layout β := fun xs =>
  if xs.length < n then none else next (xs.take n) (xs.drop n)

/-- A layout goes on behind another one that is complete. -/
def andThen (p next : Layout β) : Layout β := fun xs =>
  match p xs with
  | some (true, rest) => next rest
  | some (false, rest) => some (false, rest)
  | none => none

/-- So many values. -/
def times (p : Layout β) : Nat → Layout β
  | 0 => done
  | n + 1 => p.andThen (p.times n)

/-- What is laid out ends by itself, whatever stands behind it. -/
def Delimited (p : Layout β) : Prop :=
  ∀ xs value rest, p xs = some (value, rest) →
    ∃ used, xs = used ++ rest ∧ ∀ more, p (used ++ more) = some (value, more)

/-- Nothing more is asked for. -/
lemma delimited_done : (done : Layout β).Delimited := by
  intro xs value rest laid
  cases laid
  exact ⟨[], rfl, fun _ => rfl⟩

/-- Nothing can complete what is broken. -/
lemma delimited_broken : (broken : Layout β).Delimited := by
  intro xs value rest laid
  cases laid
  exact ⟨[], rfl, fun _ => rfl⟩

/-- Items are delimited if what follows their count is. -/
lemma Delimited.items {n : Nat} {next : List β → Layout β} (later : ∀ xs, (next xs).Delimited) :
    (items n next).Delimited := by
  intro xs value rest laid
  unfold Layout.items at laid
  split at laid
  · cases laid
  · next enough =>
    obtain ⟨used, behind, again⟩ := later _ _ _ _ laid
    have length : (xs.take n).length = n := List.length_take_of_le (Nat.not_lt.1 enough)
    refine ⟨xs.take n ++ used, ?_, fun more => ?_⟩
    · rw [List.append_assoc, ← behind, List.take_append_drop]
    · unfold Layout.items
      rw [List.append_assoc, if_neg (by rw [List.length_append]; omega), List.take_left' length, List.drop_left' length]
      exact again more

/-- Two delimited layouts are so together. -/
lemma Delimited.andThen {p next : Layout β} (first : p.Delimited) (later : next.Delimited) :
    (p.andThen next).Delimited := by
  intro xs value rest laid
  unfold Layout.andThen at laid
  split at laid
  · next middle here =>
    obtain ⟨used, rfl, again⟩ := first _ _ _ here
    obtain ⟨more, rfl, there⟩ := later _ _ _ laid
    refine ⟨used ++ more, (List.append_assoc ..).symm, fun other => ?_⟩
    unfold Layout.andThen
    rw [List.append_assoc, again]
    exact there other
  · next here =>
    cases laid
    obtain ⟨used, rfl, again⟩ := first _ _ _ here
    refine ⟨used, rfl, fun other => ?_⟩
    unfold Layout.andThen
    rw [again]
  · cases laid

/-- A delimited layout is so any number of times. -/
lemma Delimited.times {p : Layout β} (each : p.Delimited) (n : Nat) : (p.times n).Delimited := by
  induction n with
  | zero => exact delimited_done
  | succ n ih => exact each.andThen ih

/-- No strict prefix holds all that is laid out exactly if nothing stands behind it. -/
theorem Delimited.prefix_iff {p : Layout β} (delimited : p.Delimited) (xs : List β) :
    (∀ front q, q ≠ [] → front ++ q = xs → p front = none) ↔ ∀ value rest, p xs = some (value, rest) → rest = [] := by
  constructor
  · intro short value rest laid
    obtain ⟨used, rfl, again⟩ := delimited _ _ _ laid
    by_contra some
    have whole := again []
    rw [List.append_nil, short used rest some rfl] at whole
    cases whole
  · rintro exhausted front q missing rfl
    cases laid : p front with
    | none => rfl
    | some outcome =>
      obtain ⟨value, rest⟩ := outcome
      obtain ⟨used, rfl, again⟩ := delimited _ _ _ laid
      have nothing := exhausted value (rest ++ q) (by rw [List.append_assoc, again])
      exact absurd (List.append_eq_nil_iff.1 nothing).2 missing

/-! ## The layout of what is parsed -/

/-- A parser returns the value that is laid out, or the error for a reading that breaks off, or that for a list which
    is too short. -/
inductive Outlines (short broken : ε) : Except ε (V × List β) → Option (Bool × List β) → Prop
  | done (y : V) (rest : List β) : Outlines short broken (.ok (y, rest)) (some (true, rest))
  | broken (rest : List β) : Outlines short broken (.error broken) (some (false, rest))
  | short : Outlines short broken (.error short) none

/-- The layout of what a parser reads. -/
def Of (short broken : ε) (p : Parser ε β V) (q : Layout β) : Prop := ∀ xs, Outlines short broken (p xs) (q xs)

variable {short broken : ε}

/-- A parser that goes on has the layout that goes on. -/
lemma Of.andThen {p : Parser ε β V} {q : Layout β} {next : V → Parser ε β W} {later : Layout β}
    (first : Of short broken p q) (second : ∀ y, Of short broken (next y) later) :
    Of short broken (p.andThen next) (q.andThen later) := by
  intro xs
  have here := first xs
  unfold Parser.andThen Layout.andThen
  generalize p xs = parsed at here ⊢
  generalize q xs = laid at here ⊢
  cases here with
  | done y rest => exact second y rest
  | broken rest => exact .broken rest
  | short => exact .short

/-- The value that is parsed does not change the layout. -/
lemma Of.map {p : Parser ε β V} {q : Layout β} (first : Of short broken p q) (g : V → W) :
    Of short broken (p.map g) q := by
  intro xs
  have here := first xs
  unfold Parser.map Parser.andThen
  generalize p xs = parsed at here ⊢
  generalize q xs = laid at here ⊢
  cases here with
  | done y rest => exact .done (g y) rest
  | broken rest => exact .broken rest
  | short => exact .short

/-- A repeated parser has the repeated layout. -/
lemma Of.times {p : Parser ε β V} {q : Layout β} (each : Of short broken p q) (insert : List V → V → List V) (n : Nat)
    (ys : List V) : Of short broken (p.times insert n ys) (q.times n) := by
  induction n generalizing ys with
  | zero => exact fun xs => .done ys xs
  | succ n ih => exact each.andThen fun y => ih (insert ys y)

end Layout
end OsterLib.Lib
