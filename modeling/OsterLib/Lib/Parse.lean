import Mathlib.Tactic.Lemma
import Mathlib.Data.List.Basic

/-!
# Parsers of a list

A parser reads from the front of a list and returns what is behind. Parsers are put one behind the other with `andThen`,
and `times` repeats one. `Gives` says what holds of all that a parser returns. An encoding that a parser reads back,
whatever stands behind it, is never the beginning of another one (`Reads.cancel`).
-/

namespace OsterLib.Lib
variable {ε β V W : Type}

/-- What is read from the front of a list, with the rest of it, or an error. -/
abbrev Parser (ε β V : Type) := List β → Except ε (V × List β)

namespace Parser

/-- A parser goes on behind another one. -/
def andThen (p : Parser ε β V) (next : V → Parser ε β W) : Parser ε β W := fun xs =>
  match p xs with
  | .ok (y, rest) => next y rest
  | .error e => .error e

/-- The value that is parsed is changed. -/
def map (p : Parser ε β V) (g : V → W) : Parser ε β W := p.andThen fun y rest => .ok (g y, rest)

/-- So many items, each put to those before it by `insert`. -/
def times (p : Parser ε β V) (insert : List V → V → List V) : Nat → List V → Parser ε β (List V)
  | 0, ys => fun rest => .ok (ys, rest)
  | n + 1, ys => p.andThen fun y => p.times insert n (insert ys y)

/-- All that is returned satisfies `P`. -/
def Gives (p : Parser ε β V) (P : V → Prop) : Prop := ∀ xs y rest, p xs = .ok (y, rest) → P y

/-- Both parsers succeed, one behind the other. -/
lemma andThen_ok {p : Parser ε β V} {next : V → Parser ε β W} {xs : List β} {z : W} {rest : List β} :
    p.andThen next xs = .ok (z, rest) ↔ ∃ y more, p xs = .ok (y, more) ∧ next y more = .ok (z, rest) := by
  unfold andThen
  cases p xs with
  | error e => exact iff_of_false nofun fun ⟨_, _, same, _⟩ => nomatch same
  | ok outcome =>
    obtain ⟨y, more⟩ := outcome
    constructor
    · exact fun later => ⟨y, more, rfl, later⟩
    · rintro ⟨_, _, same, later⟩
      cases same
      exact later

/-- The change of the last value is that of the whole. -/
lemma andThen_map (p : Parser ε β V) (next : V → Parser ε β W) {U : Type} (g : W → U) :
    (p.andThen next).map g = p.andThen fun y => (next y).map g := by
  funext xs
  unfold map andThen
  cases p xs with
  | error e => rfl
  | ok outcome => rfl

/-- What the first parser gives is known to the second one. -/
lemma Gives.andThen {p : Parser ε β V} {next : V → Parser ε β W} {P : V → Prop} {Q : W → Prop} (first : p.Gives P)
    (later : ∀ y, P y → (next y).Gives Q) : (p.andThen next).Gives Q := by
  intro xs z rest run
  obtain ⟨y, more, here, there⟩ := andThen_ok.1 run
  exact later y (first xs y more here) more z rest there

/-- A changed value has what is asked for. -/
lemma Gives.map {p : Parser ε β V} {P : V → Prop} (first : p.Gives P) {g : V → W} {Q : W → Prop}
    (same : ∀ y, P y → Q (g y)) : (p.map g).Gives Q := by
  refine first.andThen fun y holds xs z rest run => ?_
  cases run
  exact same y holds

/-- `J n` holds of the items that are there while `n` more are to be read. -/
lemma Gives.times {p : Parser ε β V} {P : V → Prop} (item : p.Gives P) {insert : List V → V → List V}
    {J : Nat → List V → Prop} (keep : ∀ n ys y, J (n + 1) ys → P y → J n (insert ys y)) (n : Nat) {ys : List V}
    (before : J n ys) : (p.times insert n ys).Gives (J 0) := by
  induction n generalizing ys with
  | zero =>
    intro xs zs rest run
    cases run
    exact before
  | succ n ih => exact item.andThen fun y holds => ih (keep n ys y before holds)

/-- An encoding is read back, with `Same` between what is read and what was encoded, whatever stands behind it. -/
def Reads (p : Parser ε β V) (xs : List β) (Same : V → Prop) : Prop :=
  ∀ rest, ∃ y, p (xs ++ rest) = .ok (y, rest) ∧ Same y

/-- Two encodings with anything behind them are the same only where one value is read for both. -/
lemma Reads.cancel {p : Parser ε β V} {xs xs' rest rest' : List β} {P Q : V → Prop} (first : p.Reads xs P)
    (second : p.Reads xs' Q) (same : xs ++ rest = xs' ++ rest') : rest = rest' ∧ ∃ y, P y ∧ Q y := by
  obtain ⟨y, here, holds⟩ := first rest
  obtain ⟨y', there, holds'⟩ := second rest'
  rw [same, there] at here
  cases here
  exact ⟨rfl, y, holds, holds'⟩

end Parser
end OsterLib.Lib
