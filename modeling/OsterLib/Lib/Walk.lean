import Mathlib.Tactic.Lemma
import Mathlib.Logic.Basic

/-!
# Loops that may leave a list or run for ever

A `Walk` reads lists at indices. It ends with a result, or steps outside of a list, or is still running when its fuel
is used up. `loop` repeats a body that says each time whether to go on, and `skip` moves on while a test holds.

`Comes` says to what a walk comes when there is fuel enough. This is one outcome only (`Comes.unique`), so a walk that
comes to a step outside, or that comes to be still running, ends with no fuel. `Ends` says how much fuel is enough, and
`Ends.loop` is the rule for a loop with an invariant and a measure.
-/

namespace OsterLib.Lib

/-- How a walk through values ends, or that it has not ended yet -/
inductive Walk (β : Type) where
  | running
  | outside
  | ended (b : β)
  deriving DecidableEq

namespace Walk
variable {α β σ : Type}

instance : Monad Walk where
  pure := ended
  bind walk rest :=
    match walk with
    | running => running
    | outside => outside
    | ended a => rest a

/-- A result ends the walk. -/
@[simp] lemma pure_eq (a : α) : (pure a : Walk α) = ended a := rfl

/-- A walk that is still running does not go on. -/
@[simp] lemma running_bind (rest : α → Walk β) : running >>= rest = running := rfl

/-- A walk that left the values does not go on. -/
@[simp] lemma outside_bind (rest : α → Walk β) : outside >>= rest = outside := rfl

/-- A walk that has ended goes on with its result. -/
@[simp] lemma ended_bind (a : α) (rest : α → Walk β) : ended a >>= rest = rest a := rfl

/-- A value that may be missing -/
def ofOption : Option α → Walk α
  | some a => ended a
  | none => outside

/-- A value that is there ends the walk. -/
@[simp] lemma ofOption_some (a : α) : ofOption (some a) = ended a := rfl

/-- A value that is missing is outside. -/
@[simp] lemma ofOption_none : ofOption (none : Option α) = outside := rfl

/-- The value at an index -/
def read (values : List α) (i : Nat) : Walk α := ofOption values[i]?

/-- Whether the values at two indices are equal -/
def same [DecidableEq α] (values : List α) (i j : Nat) : Walk Bool := do
  let first ← read values i
  let second ← read values j
  return first = second

/-- A value inside is read. -/
lemma read_eq {values : List α} {i : Nat} {a : α} (here : values[i]? = some a) : read values i = ended a := by
  rw [read, here, ofOption_some]

/-- No value is read behind the last one. -/
lemma read_outside {values : List α} {i : Nat} (off : values.length ≤ i) : read values i = outside := by
  rw [read, List.getElem?_eq_none off, ofOption_none]

/-- Inside, two values are compared. -/
lemma same_eq [DecidableEq α] {values : List α} {i j : Nat} (lt : i < values.length) (lt' : j < values.length) :
    same values i j = ended (decide (values[i]? = values[j]?)) := by
  rw [same, read_eq (List.getElem?_eq_getElem lt), read_eq (List.getElem?_eq_getElem lt')]
  simp only [ended_bind, pure_eq, List.getElem?_eq_getElem lt, List.getElem?_eq_getElem lt', Option.some.injEq]

/-- The body ends with the next state, or with the result of the loop. There is less fuel for each next turn. -/
def loop (body : Nat → σ → Walk (σ ⊕ β)) : Nat → σ → Walk β
  | 0, _ => running
  | fuel + 1, s => do
    match ← body fuel s with
    | .inl next => loop body fuel next
    | .inr b => return b

/-- What follows a turn of a loop -/
def proceed (body : Nat → σ → Walk (σ ⊕ β)) (turn : σ ⊕ β) (fuel : Nat) : Walk β :=
  match turn with
  | .inl next => loop body fuel next
  | .inr b => return b

/-- A turn of the loop, and what follows it -/
lemma loop_succ (body : Nat → σ → Walk (σ ⊕ β)) (fuel : Nat) (s : σ) :
    loop body (fuel + 1) s = body fuel s >>= (proceed body · fuel) := rfl

/-- The loop goes on from what its turn ends with. -/
lemma loop_of_turn {body : Nat → σ → Walk (σ ⊕ β)} {fuel : Nat} {s : σ} {turn : σ ⊕ β}
    (here : body fuel s = ended turn) : loop body (fuel + 1) s = proceed body turn fuel := by
  rw [loop_succ, here, ended_bind]

/-- A loop that only moves on while a test holds -/
def skip (test : σ → Walk Bool) (next : σ → σ) : Nat → σ → Walk σ :=
  loop fun _ s => do
    if ← test s then return .inl (next s) else return .inr s

/-- The test holds, and the next one is made. -/
lemma skip_succ {test : σ → Walk Bool} {next : σ → σ} {s : σ} (more : test s = ended true) (fuel : Nat) :
    skip test next (fuel + 1) s = skip test next fuel (next s) := by
  unfold skip
  rw [loop_succ, more]
  rfl

/-! ## What a walk comes to -/

/-- With fuel enough, the walk is at `x`. -/
def Comes (walk : Nat → Walk β) (x : Walk β) : Prop := ∃ k, ∀ fuel ≥ k, walk fuel = x

/-- The walk ends, without a step outside. -/
def EndsInside (walk : Nat → Walk β) : Prop := ∃ b, Comes walk (ended b)

section comes
variable {walk : Nat → Walk α} {x : Walk β}

/-- A walk comes to one end. -/
lemma Comes.unique {walk : Nat → Walk β} {y : Walk β} (first : Comes walk x) (second : Comes walk y) : x = y := by
  obtain ⟨k, first⟩ := first
  obtain ⟨l, second⟩ := second
  rw [← first (max k l) (Nat.le_max_left k l), second (max k l) (Nat.le_max_right k l)]

/-- A walk that comes to a result ends inside. -/
lemma EndsInside.of_comes {walk : Nat → Walk β} {b : β} (comes : Comes walk (ended b)) : EndsInside walk := ⟨b, comes⟩

/-- A walk that leaves the values does not end inside. -/
lemma not_endsInside_of_outside {walk : Nat → Walk β} (comes : Comes walk outside) : ¬EndsInside walk := by
  rintro ⟨b, comes'⟩
  cases comes.unique comes'

/-- A walk that keeps running does not end inside. -/
lemma not_endsInside_of_running {walk : Nat → Walk β} (comes : Comes walk running) : ¬EndsInside walk := by
  rintro ⟨b, comes'⟩
  cases comes.unique comes'

/-- A walk that needs no fuel -/
lemma Comes.const (x : Walk β) : Comes (fun _ => x) x := ⟨0, fun _ _ => rfl⟩

/-- A walk that comes to its end with one more turn -/
lemma Comes.of_succ {walk : Nat → Walk β} (later : Comes (fun fuel => walk (fuel + 1)) x) : Comes walk x := by
  obtain ⟨k, later⟩ := later
  refine ⟨k + 1, fun fuel enough => ?_⟩
  obtain ⟨fuel, rfl⟩ := Nat.exists_eq_add_of_le' (Nat.le_trans (Nat.le_add_left 1 k) enough)
  exact later fuel (Nat.le_of_succ_le_succ enough)

/-- The rest of a walk comes behind its first part. -/
lemma Comes.bind {a : α} (rest : α → Nat → Walk β) (first : Comes walk (ended a)) (later : Comes (rest a) x) :
    Comes (fun fuel => walk fuel >>= (rest · fuel)) x := by
  obtain ⟨k, first⟩ := first
  obtain ⟨l, later⟩ := later
  refine ⟨max k l, fun fuel enough => ?_⟩
  dsimp only
  rw [first fuel (Nat.le_trans (Nat.le_max_left k l) enough), ended_bind]
  exact later fuel (Nat.le_trans (Nat.le_max_right k l) enough)

/-- Where the first part leaves the values, so does the whole. -/
lemma Comes.bind_outside (rest : α → Nat → Walk β) (first : Comes walk outside) :
    Comes (fun fuel => walk fuel >>= (rest · fuel)) outside := by
  obtain ⟨k, first⟩ := first
  refine ⟨k, fun fuel enough => ?_⟩
  dsimp only
  rw [first fuel enough, outside_bind]

/-- Where the first part keeps running, so does the whole. -/
lemma Comes.bind_running (rest : α → Nat → Walk β) (first : Comes walk running) :
    Comes (fun fuel => walk fuel >>= (rest · fuel)) running := by
  obtain ⟨k, first⟩ := first
  refine ⟨k, fun fuel enough => ?_⟩
  dsimp only
  rw [first fuel enough, running_bind]

end comes

section loops
variable {body : Nat → σ → Walk (σ ⊕ β)} {s : σ} {x : Walk β}

/-- A turn leads to the next one. -/
lemma Comes.loop_next {next : σ} (turn : Comes (body · s) (ended (.inl next))) (later : Comes (loop body · next) x) :
    Comes (loop body · s) x :=
  of_succ (turn.bind (proceed body) later)

/-- A turn ends the loop. -/
lemma Comes.loop_done {b : β} (turn : Comes (body · s) (ended (.inr b))) : Comes (loop body · s) (ended b) :=
  of_succ (turn.bind (proceed body) (const _))

/-- A turn leaves the values. -/
lemma Comes.loop_outside (turn : Comes (body · s) outside) : Comes (loop body · s) outside :=
  of_succ (turn.bind_outside (proceed body))

/-- A turn keeps running. -/
lemma Comes.loop_running (turn : Comes (body · s) running) : Comes (loop body · s) running :=
  of_succ (turn.bind_running (proceed body))

variable {test : σ → Walk Bool} {next : σ → σ} {y : Walk σ}

/-- The test holds, and the loop moves on. -/
lemma Comes.skip_next (more : test s = ended true) (later : Comes (skip test next · (next s)) y) :
    Comes (skip test next · s) y := by
  refine loop_next ?_ later
  simp only [more]
  exact const _

/-- The test fails, and the loop stays where it is. -/
lemma Comes.skip_done (done : test s = ended false) : Comes (skip test next · s) (ended s) := by
  apply loop_done
  simp only [done]
  exact const _

/-- The test leaves the values. -/
lemma Comes.skip_outside (off : test s = outside) : Comes (skip test next · s) outside := by
  apply loop_outside
  simp only [off]
  exact const _

/-- A loop that keeps an invariant with which its test holds never ends. -/
lemma Comes.skip_forever {I : σ → Prop} (more : ∀ s, I s → test s = ended true ∧ I (next s)) (init : I s) :
    Comes (skip test next · s) running := by
  refine ⟨0, fun fuel _ => ?_⟩
  induction fuel generalizing s with
  | zero => rfl
  | succ fuel ih =>
    obtain ⟨holds, later⟩ := more s init
    exact (skip_succ holds fuel).trans (ih later (Nat.zero_le fuel))

end loops

/-! ## Fuel enough -/

/-- From fuel `k` on, the walk has ended with a result of which `Q` holds. -/
def Ends (walk : Nat → Walk β) (k : Nat) (Q : β → Prop) : Prop := ∃ b, (∀ fuel ≥ k, walk fuel = ended b) ∧ Q b

section ends
variable {walk : Nat → Walk α} {k l : Nat} {R : α → Prop} {Q : β → Prop}

/-- A walk that has ended needs no fuel. -/
lemma Ends.const {b : β} (holds : Q b) : Ends (fun _ => ended b) k Q := ⟨b, fun _ _ => rfl, holds⟩

/-- The result of a walk has what follows from it. -/
lemma Ends.imp {R' : α → Prop} (ends : Ends walk k R) (weaker : ∀ a, R a → R' a) : Ends walk k R' := by
  obtain ⟨a, here, holds⟩ := ends
  exact ⟨a, here, weaker a holds⟩

/-- More fuel does not change the end. -/
lemma Ends.mono (ends : Ends walk k R) (le : k ≤ l) : Ends walk l R := by
  obtain ⟨a, here, holds⟩ := ends
  exact ⟨a, fun fuel enough => here fuel (Nat.le_trans le enough), holds⟩

/-- Both parts end, each with the fuel given. -/
lemma Ends.bind (rest : α → Nat → Walk β) (first : Ends walk k R) (later : ∀ a, R a → Ends (rest a) k Q) :
    Ends (fun fuel => walk fuel >>= (rest · fuel)) k Q := by
  obtain ⟨a, here, holds⟩ := first
  obtain ⟨b, there, holds'⟩ := later a holds
  refine ⟨b, fun fuel enough => ?_, holds'⟩
  dsimp only
  rw [here fuel enough, ended_bind]
  exact there fuel enough

/-- What a turn of a loop has to end with: a state in which the invariant holds and the measure is less, or a result -/
def Turn (I : σ → Prop) (m : σ → Nat) (s : σ) (Q : β → Prop) : σ ⊕ β → Prop
  | .inl next => I next ∧ m next < m s
  | .inr b => Q b

/-- A loop ends if a measure falls at every turn that does not end it. -/
lemma Ends.loop {body : Nat → σ → Walk (σ ⊕ β)} {I : σ → Prop} (m : σ → Nat)
    (turn : ∀ s, I s → Ends (body · s) k (Turn I m s Q)) {s : σ} (init : I s) :
    Ends (Walk.loop body · s) (k + m s + 1) Q := by
  induction measure : m s using Nat.strongRecOn generalizing s with
  | ind n ih =>
    subst measure
    obtain ⟨outcome, here, holds⟩ := turn s init
    cases outcome with
    | inr b =>
      refine ⟨b, fun fuel enough => ?_, holds⟩
      obtain ⟨fuel, rfl⟩ := Nat.exists_eq_add_of_le' (Nat.le_trans (Nat.le_add_left 1 _) enough)
      exact loop_of_turn (here fuel (by omega))
    | inl next =>
      obtain ⟨b, there, holds'⟩ := ih (m next) holds.2 holds.1 rfl
      refine ⟨b, fun fuel enough => ?_, holds'⟩
      obtain ⟨fuel, rfl⟩ := Nat.exists_eq_add_of_le' (Nat.le_trans (Nat.le_add_left 1 _) enough)
      have less := holds.2
      exact (loop_of_turn (here fuel (by omega))).trans (there fuel (by omega))

/-- A loop that only moves on ends if a measure falls. -/
lemma Ends.skip {test : σ → Walk Bool} {next : σ → σ} {I Q : σ → Prop} (m : σ → Nat)
    (turn : ∀ s, I s → (test s = ended true ∧ I (next s) ∧ m (next s) < m s) ∨ (test s = ended false ∧ Q s)) {s : σ}
    (init : I s) : Ends (Walk.skip test next · s) (m s + 1) Q := by
  have ends : Ends (Walk.skip test next · s) (0 + m s + 1) Q := by
    refine Ends.loop m (fun s inv => ?_) init
    rcases turn s inv with ⟨more, later⟩ | ⟨done, holds⟩
    · exact ⟨.inl (next s), fun _ _ => by rw [more]; rfl, later⟩
    · exact ⟨.inr s, fun _ _ => by rw [done]; rfl, holds⟩
  rwa [Nat.zero_add] at ends

end ends
end Walk
end OsterLib.Lib
