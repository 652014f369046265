import OsterLib.Lib.Run
import OsterLib.Network.Definitions

/-!
# Synchronous tasks

`TaskHandler` of `abstractprocess.h` with the calls `get_result` and `get_result_timeout` of its base, for a function
that returns something. The function is a deferred future: the first call that asks for its outcome runs it, and the
future holds the outcome from then on.

The call that runs the function returns no value, since the `return` behind the test of the time is not part of it.
`run_replies_iff` says that every call but the first returns the value, and that the function runs once where there is a
call.
-/

namespace OsterLib.Network.SyncTask
open OsterLib.Lib

/-- `ESRCH` -/
def noSuchProcess : Errc := .other 3

/-- `EIO` -/
def ioError : Errc := .other 5

/-- `ETIMEDOUT` -/
def timedOut : Errc := .other 110

/-- What a function ends with: the value that it returns, or an exception -/
abbrev Outcome (α : Type*) := Except Unit α

/-- `std::future_status` -/
inductive FutureStatus where
  | ready
  | timeout
  | deferred

/-- A `std::shared_future` of a deferred function, which may have run already -/
inductive SharedFuture (α : Type*) where
  | deferred (function : Outcome α)
  | ready (outcome : Outcome α)

/-- `wait_for`, which does not run a deferred function, and waits for no thread -/
def SharedFuture.waitFor {α : Type*} : SharedFuture α → FutureStatus
  | deferred _ => .deferred
  | ready _ => .ready

/-- What `get` returns or throws -/
def SharedFuture.outcome {α : Type*} : SharedFuture α → Outcome α
  | deferred function => function
  | ready outcome => outcome

/-- A handler with its future, which is not valid where there is none, and how often the function has run -/
structure TaskHandler (α : Type*) where
  result : Option (SharedFuture α)
  runs : Nat := 0

/-- What a call returns, where the pointer is null or to a value, and the error code that it leaves -/
structure Reply (α : Type*) where
  value : Option α
  err : ErrorCode

/-- A call with the error code that it is given, and the nanoseconds that the clock counts while the function runs -/
structure Call where
  timeout : Option Int32
  err : ErrorCode
  elapsed : Int

/-- A call of `get_result`, or of `get_result_timeout` with its time -/
def Call.timeoutSec (call : Call) : Int32 := call.timeout.getD (-1)

variable {α : Type*}

/-- The constructor -/
def taskHandler (function : Outcome α) : TaskHandler α := { result := some (.deferred function) }

/-- The handler behind `get`, which runs a deferred function -/
def TaskHandler.get (h : TaskHandler α) (future : SharedFuture α) : TaskHandler α :=
  match future with
  | .deferred function => { result := some (.ready function), runs := h.runs + 1 }
  | .ready _ => h

/-- `get_result_timeout`; nothing is returned where an exception ends the program. -/
def getResultTimeout (h : TaskHandler α) (timeoutSec : Int32) (elapsed : Int) (err : ErrorCode) :
    Option (Reply α) × TaskHandler α :=
  match h.result with
  | none => (some ⟨none, some noSuchProcess⟩, h)
  | some future =>
    match future.waitFor with
    | .ready =>
      match future.outcome with
      | .ok value => (some ⟨some value, none⟩, h)
      | .error _ => (some ⟨none, some ioError⟩, h)
    | .deferred =>
      let h := h.get future
      match future.outcome with
      | .error _ => (none, h)
      | .ok _ =>
        let err := if elapsed > timeoutSec.toInt * 1000000000 then some timedOut else err
        -- the value is returned behind this `return` only
        (some ⟨none, err⟩, h)
    | .timeout => (some ⟨none, some timedOut⟩, h)

/-- A call: `get_result` copies what `get_result_timeout` points to for a time of -1. -/
def act (h : TaskHandler α) (call : Call) : Option (Reply α) × TaskHandler α :=
  getResultTimeout h call.timeoutSec call.elapsed call.err

/-- The handler behind a run of calls -/
def after (h : TaskHandler α) (calls : List Call) : TaskHandler α := run (fun h call => (act h call).2) h calls

/-- The call returns the value of the function, and clears the error code. -/
def Returns (value : α) (reply : Option (Reply α)) : Prop := reply = some ⟨some value, none⟩

/-! ## Runs of calls -/

section runs
variable {value : α}

/-- The call that runs the function returns a null pointer. -/
lemma act_first (value : α) (call : Call) :
    ∃ err, act (taskHandler (.ok value)) call =
      (some ⟨none, err⟩, { result := some (.ready (.ok value)), runs := 1 }) :=
  ⟨_, rfl⟩

/-- A later call finds the value. -/
lemma act_ready (value : α) (runs : Nat) (call : Call) :
    act { result := some (.ready (.ok value)), runs } call =
      (some ⟨some value, none⟩, { result := some (.ready (.ok value)), runs }) := rfl

/-- Once the function has run, every call returns its value, and none runs it again. -/
lemma ready_replies (value : α) (runs : Nat) (calls : List Call) :
    (∀ reply ∈ outputs act ({ result := some (.ready (.ok value)), runs } : TaskHandler α) calls,
      Returns value reply) ∧
    after { result := some (.ready (.ok value)), runs } calls = { result := some (.ready (.ok value)), runs } := by
  induction calls with
  | nil =>
    constructor
    · intro reply mem
      cases mem
    · rfl
  | cons call calls ih =>
    rw [outputs, act_ready]
    exact ⟨List.forall_mem_cons.mpr ⟨rfl, ih.1⟩, ih.2⟩

/-- Every call but the first returns the value of the function with the error code clear, and the function runs exactly
    once where there is a call. So there are no calls that all return the value of a function that runs once. -/
theorem run_replies_iff (value : α) (calls : List Call) :
    (∀ k reply, (outputs act (taskHandler (.ok value)) calls)[k]? = some reply → (Returns value reply ↔ 0 < k)) ∧
      ((after (taskHandler (.ok value)) calls).runs = 1 ↔ calls ≠ []) ∧
      ¬((∀ reply ∈ outputs act (taskHandler (.ok value)) calls, Returns value reply) ∧
        (after (taskHandler (.ok value)) calls).runs = 1) := by
  cases calls with
  | nil =>
    refine ⟨?_, ?_, ?_⟩
    · intro k reply found
      cases found
    · exact iff_of_false Nat.zero_ne_one (not_not.mpr rfl)
    · intro both
      exact Nat.zero_ne_one both.2
  | cons call calls =>
    obtain ⟨err, first⟩ := act_first value call
    obtain ⟨later, same⟩ := ready_replies value 1 calls
    have null : ¬Returns value (some ⟨none, err⟩) := by
      intro returns
      cases returns
    have once : (after (taskHandler (.ok value)) (call :: calls)).runs = 1 := by
      rw [after, run_cons, first]
      exact congrArg TaskHandler.runs same
    rw [outputs, first]
    refine ⟨?_, iff_of_true once (List.cons_ne_nil _ _), ?_⟩
    · intro k reply found
      cases k with
      | zero =>
        cases found
        exact iff_of_false null (Nat.lt_irrefl 0)
      | succ k => exact iff_of_true (later reply (List.mem_of_getElem? found)) (Nat.succ_pos k)
    · intro both
      exact null (both.1 _ List.mem_cons_self)

end runs

/-- A task that takes no time is asked for its value with ten seconds to go, and none is returned. -/
theorem first_reply_null :
    ¬∀ reply ∈ outputs act (taskHandler (.ok 7)) [⟨some 10, none, 0⟩], Returns 7 reply := by
  intro returns
  have first := returns (some ⟨none, none⟩) List.mem_cons_self
  cases first

end OsterLib.Network.SyncTask
