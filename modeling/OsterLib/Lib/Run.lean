import Mathlib.Tactic.Lemma
import Mathlib.Logic.Basic

/-!
# Runs of a step function

A system is a step function `step : σ → ι → σ`, where an input carries whatever the environment
decides (arguments of a call, the outcome of a system call). A run is a list of inputs. `Always`
says that a property holds in every state a run visits, `Guarded` that every step of a run is taken
from a state that allows it.

`outputs` is what the steps of a run return, for an action that returns something and a new state, and `outputs_eq`
carries a simulation between two systems along a run.

`countedLoop` is a run over the numbers up to a bound, with the rule `countedLoop_induction` for its invariants.

`always_of_guarded` is the induction along a run; `always_iff_guarded` is its exact form, for a
guard that is not only enough for a step to keep the property but also needed. There `J` is the
invariant that carries the property, and `L` is what the environment promises of every step.
-/

namespace OsterLib.Lib

section Run
variable {σ ι : Type*} (step : σ → ι → σ)

/-- The state in which a run ends. -/
def run (s : σ) (is : List ι) : σ :=
  is.foldl step s

/-- `P` holds in every state that a run visits, the first and the last one included. -/
def Always (P : σ → Prop) : σ → List ι → Prop
  | s, [] => P s
  | s, i :: is => P s ∧ Always P (step s i) is

/-- Every step of a run is taken from a state in which `C` allows its input. -/
def Guarded (C : σ → ι → Prop) : σ → List ι → Prop
  | _, [] => True
  | s, i :: is => C s i ∧ Guarded C (step s i) is

/-- No input changes nothing. -/
@[simp] lemma run_nil (s : σ) : run step s [] = s := rfl

/-- The first input is a step, and the others are run from there. -/
@[simp] lemma run_cons (s : σ) (i : ι) (is : List ι) :
    run step s (i :: is) = run step (step s i) is := rfl

/-- A run can be cut anywhere. -/
lemma run_append (s : σ) (is js : List ι) :
    run step s (is ++ js) = run step (run step s is) js :=
  List.foldl_append

variable {step}

/-- What always holds holds at the start. -/
lemma Always.head {P : σ → Prop} {s : σ} {is : List ι} (h : Always step P s is) : P s := by
  cases is with
  | nil => exact h
  | cons i is => exact h.1

/-- What always holds holds at the end. -/
lemma Always.last {P : σ → Prop} {s : σ} {is : List ι} (h : Always step P s is) :
    P (run step s is) := by
  induction is generalizing s with
  | nil => exact h
  | cons i is ih => exact ih h.2

/-- What follows from it always holds as well. -/
lemma Always.imp {P Q : σ → Prop} (pq : ∀ s, P s → Q s) {s : σ} {is : List ι}
    (h : Always step P s is) : Always step Q s is := by
  induction is generalizing s with
  | nil => exact pq s h
  | cons i is ih => exact ⟨pq s h.1, ih h.2⟩

/-- A property that every allowed step keeps holds in every state of a guarded run. -/
theorem always_of_guarded {P : σ → Prop} {C : σ → ι → Prop}
    (keep : ∀ s i, P s → C s i → P (step s i)) {s : σ} {is : List ι}
    (init : P s) (guard : Guarded step C s is) : Always step P s is := by
  induction is generalizing s with
  | nil => exact init
  | cons i is ih => exact ⟨init, ih (keep s i init guard.1) guard.2⟩

/-- A property that every step keeps holds at the end of every run. -/
theorem run_of_keep {P : σ → Prop} (keep : ∀ s i, P s → P (step s i)) {s : σ} (is : List ι)
    (init : P s) : P (run step s is) := by
  induction is generalizing s with
  | nil => exact init
  | cons i is ih => exact ih (keep s i init)

/-- `J` is kept by the legal steps that `C` allows and implies `P`, and any other legal step from `J`
    breaks `P`: then `P` holds all along a legal run exactly if every step of the run is allowed. -/
theorem always_iff_guarded {J P : σ → Prop} {L C : σ → ι → Prop} (sound : ∀ s, J s → P s)
    (keep : ∀ s i, J s → L s i → C s i → J (step s i))
    (needed : ∀ s i, J s → L s i → P (step s i) → C s i)
    {s : σ} {is : List ι} (init : J s) (legal : Guarded step L s is) :
    Always step P s is ↔ Guarded step C s is := by
  induction is generalizing s with
  | nil => exact ⟨fun _ => trivial, fun _ => sound s init⟩
  | cons i is ih =>
    constructor
    · intro h
      have allowed : C s i := needed s i init legal.1 h.2.head
      exact ⟨allowed, (ih (keep s i init legal.1 allowed) legal.2).1 h.2⟩
    · intro h
      have next : J (step s i) := keep s i init legal.1 h.1
      exact ⟨sound s init, (ih next legal.2).2 h.2⟩

/-- Where two guards agree in every state that `J` describes, and the steps that they allow keep `J`, a run that meets
    one of them meets the other. -/
theorem guarded_iff_guarded {J : σ → Prop} {C D : σ → ι → Prop} (same : ∀ s i, J s → (D s i ↔ C s i))
    (keep : ∀ s i, J s → C s i → J (step s i)) {s : σ} {is : List ι} (init : J s) :
    Guarded step D s is ↔ Guarded step C s is := by
  induction is generalizing s with
  | nil => exact Iff.rfl
  | cons i is ih =>
    constructor
    · intro h
      have allowed : C s i := (same s i init).1 h.1
      exact ⟨allowed, (ih (keep s i init allowed)).1 h.2⟩
    · intro h
      exact ⟨(same s i init).2 h.1, (ih (keep s i init h.1)).2 h.2⟩

/-- A condition that every input meets guards every run. -/
lemma Guarded.of_forall {C : σ → ι → Prop} (all : ∀ s i, C s i) (s : σ) (is : List ι) :
    Guarded step C s is := by
  induction is generalizing s with
  | nil => trivial
  | cons i is ih => exact ⟨all s i, ih _⟩

end Run

/-! ## Counted loops -/

section Loop
variable {σ : Type*} {body : σ → Nat → σ} {I : Nat → σ → Prop} {n : Nat} {s : σ}

/-- `for(i = 0; i < n; ++i)`, with `body` for what a turn makes of the state -/
def countedLoop (body : σ → Nat → σ) (n : Nat) (s : σ) : σ := run body s (List.range n)

/-- What every turn carries on is carried to the end. -/
theorem countedLoop_induction (start : I 0 s) (turn : ∀ i < n, ∀ s, I i s → I (i + 1) (body s i)) :
    I n (countedLoop body n s) := by
  unfold countedLoop
  induction n with
  | zero => exact start
  | succ n ih =>
    rw [List.range_succ, run_append]
    exact turn n (Nat.lt_succ_self n) _ (ih fun i lt => turn i (Nat.lt_succ_of_lt lt))

end Loop

/-! ## Simulation -/

section Simulation
variable {σ τ ι ρ : Type*}

/-- What the steps of a run return. -/
def outputs (act : σ → ι → ρ × σ) : σ → List ι → List ρ
  | _, [] => []
  | s, i :: is => (act s i).1 :: outputs act (act s i).2 is

/-- Two systems whose related states return the same, and stay related, return the same along a run that the second one
    allows. -/
theorem outputs_eq {act : σ → ι → ρ × σ} {act' : τ → ι → ρ × τ} {R : σ → τ → Prop} {C : τ → ι → Prop}
    (simulates : ∀ s t i, R s t → C t i → (act s i).1 = (act' t i).1 ∧ R (act s i).2 (act' t i).2)
    {s : σ} {t : τ} {is : List ι} (init : R s t) (guard : Guarded (fun t i => (act' t i).2) C t is) :
    outputs act s is = outputs act' t is ∧
      R (run (fun s i => (act s i).2) s is) (run (fun t i => (act' t i).2) t is) := by
  induction is generalizing s t with
  | nil => exact ⟨rfl, init⟩
  | cons i is ih =>
    obtain ⟨same, next⟩ := simulates s t i init guard.1
    obtain ⟨rest, last⟩ := ih next guard.2
    refine ⟨?_, last⟩
    rw [outputs, outputs, same, rest]

end Simulation

end OsterLib.Lib
