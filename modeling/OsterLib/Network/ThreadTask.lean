import OsterLib.Network.SyncTask
import Mathlib.Data.List.Nodup

/-!
# Tasks in threads

`ThreadedTaskHandler` of `abstractprocess.h` with the calls of its base, for functions that return something, and
`emplace_task` and the destructor of `Process`, which join the thread of the task before. The thread runs the function,
sets the value of the promise and calls the callback, each a step of its own; a call is answered when its wait is over.

Whatever the order of the steps, the answers are true (`run_truthful`): a task is called back once, and not before its
value is there. From then on, and from the first answer that says so on, every answer says so too, and a value is the
one that the function of that task has returned. A task that has been replaced has been called back.
-/

namespace OsterLib.Network.ThreadTask
open OsterLib.Lib SyncTask

/-- How far the thread of a task is: in the function, before `set_value`, before the callback, or at its end. -/
inductive Stage (α : Type*) where
  | running
  | returned (value : α)
  | ready (value : α)
  | ended (value : α)
  deriving DecidableEq, Repr

/-- `ThreadedTaskHandler`, from its constructor on -/
structure ThreadedTask (α : Type*) where
  stage : Stage α := .running
  stopRequested : Bool := false
  deriving DecidableEq, Repr

/-- A call of the owner about the task -/
inductive TaskCall where
  | isReady
  | isBusy
  | getResult
  | getResultTimeout (timeoutSec : Int32)
  | getPointerResult
  | requestStop (timeoutSec : Int32)
  deriving DecidableEq, Repr

/-- What a call returns, which is a flag or perhaps a value, and the error code that it leaves -/
inductive Answer (α : Type*) where
  | flag (flag : Bool) (err : ErrorCode)
  | value (value : Option α) (err : ErrorCode)
  deriving DecidableEq, Repr

/-- What is seen of a task: that it is called back, and the answers to the calls -/
inductive Entry (α : Type*) where
  | callback
  | answer (call : TaskCall) (answer : Answer α)
  deriving DecidableEq, Repr

/-- A `Process` and the tasks that it has had, in their order. While a call waits for the end of the task that it has
    taken from `task_`, the task is `leaving`. -/
structure TaskProcess (α : Type*) where
  tasks : List (ThreadedTask α) := []
  task : Option Nat := none
  leaving : Option Nat := none
  log : List (Nat × Entry α) := []
  terminated : Bool := false
  deriving DecidableEq, Repr

/-- What happens to the tasks of a process -/
inductive TaskMove (α : Type*) where
  | emplaceTask
  | reset
  | join
  | invoke (task : Nat) (outcome : Outcome α)
  | setValue (task : Nat)
  | callback (task : Nat)
  | call (call : TaskCall)
  deriving Repr

variable {α : Type*}

/-- What `wait_for` finds in the shared future, and `get` returns -/
def Stage.result : Stage α → Option α
  | running | returned _ => none
  | ready value | ended value => some value

namespace ThreadedTask

/-- The value is there. -/
def isReady (task : ThreadedTask α) : Bool := task.stage.result.isSome

/-- `get_result_timeout`, when its wait is over -/
def getResultTimeout (task : ThreadedTask α) : Answer α :=
  match task.stage.result with
  | some value => .value (some value) none
  | none => .value none (some timedOut)

/-- `request_stop`, when its wait is over -/
def requestStop (task : ThreadedTask α) (timeoutSec : Int32) : Answer α × ThreadedTask α :=
  if 0 < timeoutSec then
    if task.isReady then (.flag true none, task)
    else (.flag false (some timedOut), { task with stopRequested := true })
  else (.flag (!task.stopRequested) none, { task with stopRequested := true })

/-- The answer to a call, and the task behind it -/
def act (task : ThreadedTask α) : TaskCall → Answer α × ThreadedTask α
  | .isReady => (.flag task.isReady none, task)
  | .isBusy => (.flag (!task.isReady) none, task)
  | .getResult | .getResultTimeout _ => (task.getResultTimeout, task)
  | .getPointerResult => (.value task.stage.result none, task)
  | .requestStop timeoutSec => task.requestStop timeoutSec

end ThreadedTask

namespace TaskProcess

/-- The stage of a task -/
def stage (s : TaskProcess α) (k : Nat) : Option (Stage α) := s.tasks[k]?.map (·.stage)

/-- A task comes to a stage. -/
def setStage (s : TaskProcess α) (k : Nat) (stage : Stage α) : TaskProcess α :=
  { s with tasks := s.tasks.modify k fun task => { task with stage } }

/-- The destructor of a task requests a stop before it joins the thread. -/
def leave (s : TaskProcess α) : TaskProcess α :=
  match s.task with
  | none => s
  | some k => { s with task := none, leaving := some k, tasks := s.tasks.modify k ({ · with stopRequested := true }) }

/-- `emplace_task` -/
def emplaceTask (s : TaskProcess α) : TaskProcess α :=
  let left := s.leave
  { left with tasks := left.tasks ++ [{}], task := some left.tasks.length }

/-- A step of a thread or of the owner of the process. An exception of a function ends the program. -/
def step (s : TaskProcess α) (move : TaskMove α) : TaskProcess α :=
  if s.terminated then s
  else
    match move with
    | .emplaceTask => if s.leaving = none then s.emplaceTask else s
    | .reset => if s.leaving = none then s.leave else s
    | .join =>
      match s.leaving.bind s.stage with
      | some (.ended _) => { s with leaving := none }
      | _ => s
    | .invoke k outcome =>
      match s.stage k, outcome with
      | some .running, .ok value => s.setStage k (.returned value)
      | some .running, .error _ => { s with terminated := true }
      | _, _ => s
    | .setValue k =>
      match s.stage k with
      | some (.returned value) => s.setStage k (.ready value)
      | _ => s
    | .callback k =>
      match s.stage k with
      | some (.ready value) => { s.setStage k (.ended value) with log := s.log ++ [(k, .callback)] }
      | _ => s
    | .call call =>
      match s.task, s.leaving with
      | some k, none =>
        match s.tasks[k]? with
        | none => s
        | some task =>
          let (answer, task) := task.act call
          { s with tasks := s.tasks.set k task, log := s.log ++ [(k, .answer call answer)] }
      | _, _ => s

end TaskProcess

/-! ## What the answers say -/

/-- The call asks whether the value is there. -/
def TaskCall.asks : TaskCall → Bool
  | .requestStop timeoutSec => 0 < timeoutSec
  | _ => true

/-- The answer says that the value is there. -/
def Answer.tells : TaskCall → Answer α → Bool
  | .isBusy, .flag busy _ => !busy
  | .requestStop timeoutSec, .flag ready _ => 0 < timeoutSec && ready
  | _, .flag ready _ => ready
  | _, .value found _ => found.isSome

/-- Whoever is called back knows that the value is there. -/
def Entry.tells : Entry α → Bool
  | callback => true
  | answer call given => given.tells call

/-- The task that an entry says was called back -/
def calledBack : Nat × Entry α → Option Nat
  | (k, .callback) => some k
  | _ => none

/-- The value of a task, once it is there -/
def TaskProcess.result (s : TaskProcess α) (k : Nat) : Option α := (s.stage k).bind Stage.result

/-- The answers of each task are those of its own function, and do not take back what was told. -/
structure Truthful (s : TaskProcess α) : Prop where
  once : (s.log.filterMap calledBack).Nodup
  value : ∀ k call value err, (k, .answer call (.value (some value) err)) ∈ s.log → s.result k = some value
  told : ∀ k entry, (k, entry) ∈ s.log → entry.tells = true → (s.result k).isSome = true
  lasting : s.log.Pairwise fun before after => before.1 = after.1 → before.2.tells = true →
    ∀ call answer, after.2 = .answer call answer → call.asks = true → answer.tells call = true
  gone : ∀ k < s.tasks.length, k ∉ s.task → k ∉ s.leaving → k ∈ s.log.filterMap calledBack

/-! ## Steps -/

section steps
variable {s : TaskProcess α} {k : Nat} {task : ThreadedTask α}

/-- An answer to a call that agrees with what the future holds -/
structure Agrees (found : Option α) (call : TaskCall) (answer : Answer α) : Prop where
  tells : answer.tells call = true → found.isSome = true
  keeps : found.isSome = true → call.asks = true → answer.tells call = true
  value : ∀ value err, answer = .value (some value) err → found = some value

/-- A value that is returned tells that the task is ready. -/
lemma tells_value (found : Option α) (err : ErrorCode) (call : TaskCall) :
    (Answer.value found err).tells call = found.isSome := by
  cases call with
  | _ => rfl

/-- A value that is found agrees with the result. -/
lemma Agrees.ofValue (found : Option α) (err : ErrorCode) (call : TaskCall) :
    Agrees found call (.value found err) := by
  refine ⟨fun tells => ?_, fun ready _ => ?_, fun value err same => ?_⟩
  · rw [tells_value] at tells
    exact tells
  · rw [tells_value]
    exact ready
  · injection same

/-- `get_result_timeout` agrees with the result. -/
lemma getResultTimeout_agrees (task : ThreadedTask α) (call : TaskCall) :
    Agrees task.stage.result call task.getResultTimeout := by
  unfold ThreadedTask.getResultTimeout
  cases task.stage.result with
  | none => exact .ofValue none _ call
  | some value => exact .ofValue (some value) _ call

/-- `request_stop` agrees with the result. -/
lemma requestStop_agrees (task : ThreadedTask α) (timeoutSec : Int32) :
    Agrees task.stage.result (.requestStop timeoutSec) (task.requestStop timeoutSec).1 := by
  unfold ThreadedTask.requestStop
  split
  case isTrue wait =>
    have asks : decide (0 < timeoutSec) = true := decide_eq_true wait
    split
    case isTrue ready => exact ⟨fun _ => ready, fun _ _ => Bool.and_eq_true_iff.mpr ⟨asks, rfl⟩, nofun⟩
    case isFalse busy =>
      exact ⟨fun tells => absurd (Bool.and_eq_true_iff.mp tells).2 nofun, fun ready => absurd ready busy, nofun⟩
  case isFalse wait =>
    refine ⟨fun tells => ?_, fun _ asks => absurd (of_decide_eq_true asks) wait, nofun⟩
    exact absurd (of_decide_eq_true (Bool.and_eq_true_iff.mp tells).1) wait

/-- Every answer agrees with the result. -/
lemma act_agrees (task : ThreadedTask α) (call : TaskCall) : Agrees task.stage.result call (task.act call).1 := by
  cases call with
  | isReady => exact ⟨id, fun ready _ => ready, nofun⟩
  | isBusy =>
    have busy : (!(!task.isReady)) = task.isReady := Bool.not_not _
    exact ⟨fun tells => busy.symm.trans tells, fun ready _ => busy.trans ready, nofun⟩
  | getResult => exact getResultTimeout_agrees task _
  | getResultTimeout timeoutSec => exact getResultTimeout_agrees task _
  | getPointerResult => exact .ofValue _ none _
  | requestStop timeoutSec => exact requestStop_agrees task timeoutSec

/-- A call does not change the stage. -/
lemma act_stage (task : ThreadedTask α) (call : TaskCall) : (task.act call).2.stage = task.stage := by
  cases call with
  | requestStop timeoutSec =>
    unfold ThreadedTask.act ThreadedTask.requestStop
    dsimp only
    split
    · split
      · rfl
      · rfl
    · rfl
  | _ => rfl

/-- What the log says fits the stages of the tasks. -/
structure Told (s : TaskProcess α) : Prop extends Truthful s where
  ended : ∀ k, k ∈ s.log.filterMap calledBack ↔ ∃ value, s.stage k = some (.ended value)
  current : ∀ k ∈ s.task, k < s.tasks.length
  leaver : ∀ k ∈ s.leaving, k < s.tasks.length

/-- Steps that add nothing to the log, take back no value and end no task -/
lemma Told.update {s' : TaskProcess α} (told : Told s) (log : s'.log = s.log)
    (length : s'.tasks.length = s.tasks.length)
    (result : ∀ k value, s.result k = some value → s'.result k = some value)
    (ended : ∀ k value, s'.stage k = some (.ended value) ↔ s.stage k = some (.ended value))
    (task : ∀ k ∈ s'.task, k ∈ s.task)
    (leaving : ∀ k ∈ s'.leaving, k ∈ s.leaving ∨ k ∈ s.task)
    (left : ∀ k, k ∈ s.task ∨ k ∈ s.leaving → k ∈ s'.task ∨ k ∈ s'.leaving ∨ k ∈ s.log.filterMap calledBack) :
    Told s' := by
  refine ⟨⟨?_, ?_, ?_, ?_, ?_⟩, ?_, ?_, ?_⟩
  · rw [log]
    exact told.once
  · rw [log]
    exact fun k call value err mem => result k value (told.value k call value err mem)
  · rw [log]
    intro k entry mem tells
    obtain ⟨value, found⟩ := Option.isSome_iff_exists.mp (told.told k entry mem tells)
    exact Option.isSome_iff_exists.mpr ⟨value, result k value found⟩
  · rw [log]
    exact told.lasting
  · rw [log, length]
    intro k lt here there
    by_contra alive
    have some_ : k ∈ s.task ∨ k ∈ s.leaving := by
      by_contra none
      exact alive (told.gone k lt (fun mem => none (.inl mem)) fun mem => none (.inr mem))
    exact (left k some_).elim here fun rest => rest.elim there alive
  · intro k
    rw [log, told.ended]
    exact exists_congr fun value => (ended k value).symm
  · rw [length]
    exact fun k mem => told.current k (task k mem)
  · rw [length]
    exact fun k mem => (leaving k mem).elim (told.leaver k) (told.current k)

/-- Only the stage of that task is changed. -/
lemma stage_setStage (s : TaskProcess α) (k j : Nat) (stage : Stage α) :
    (s.setStage k stage).stage j = if k = j then (s.stage j).map fun _ => stage else s.stage j := by
  unfold TaskProcess.stage TaskProcess.setStage
  rw [List.getElem?_modify]
  split
  · cases s.tasks[j]? with
    | none => rfl
    | some task => rfl
  · cases s.tasks[j]? with
    | none => rfl
    | some task => rfl

/-- The stage of one task is another one. -/
lemma setStage_spec {before : Stage α} (after : Stage α) (at_ : s.stage k = some before) (j : Nat) :
    (s.setStage k after).stage j = some after ∧ j = k ∨ (s.setStage k after).stage j = s.stage j ∧ j ≠ k := by
  rw [stage_setStage]
  by_cases same : k = j
  · subst same
    rw [if_pos rfl, at_]
    exact .inl ⟨rfl, rfl⟩
  · rw [if_neg same]
    exact .inr ⟨rfl, fun other => same other.symm⟩

/-- A value that is there stays. -/
lemma setStage_result {before : Stage α} (after : Stage α) (at_ : s.stage k = some before)
    (keeps : ∀ value, before.result = some value → after.result = some value) (j : Nat) (value : α)
    (found : s.result j = some value) : (s.setStage k after).result j = some value := by
  unfold TaskProcess.result at found ⊢
  rcases setStage_spec after at_ j with ⟨here, rfl⟩ | ⟨there, -⟩
  · rw [at_] at found
    rw [here]
    exact keeps value found
  · rw [there]
    exact found

/-- A task that goes on changes nothing that was told. -/
lemma Told.setStage {before after : Stage α} (told : Told s) (at_ : s.stage k = some before)
    (keeps : ∀ value, before.result = some value → after.result = some value)
    (going : ∀ value, before ≠ .ended value) (goes : ∀ value, after ≠ .ended value) : Told (s.setStage k after) := by
  refine told.update rfl (List.length_modify _ _ _) (setStage_result after at_ keeps) (fun j value => ?_)
    (fun _ mem => mem) (fun _ mem => .inl mem) fun _ some => some.imp_right .inl
  rcases setStage_spec after at_ j with ⟨here, rfl⟩ | ⟨there, -⟩
  · rw [here, at_]
    exact iff_of_false (fun same => goes value (Option.some.inj same)) fun same => going value (Option.some.inj same)
  · rw [there]

/-- The callback of a task, whose value is there -/
lemma Told.callback {value : α} (told : Told s) (at_ : s.stage k = some (.ready value)) :
    Told { s.setStage k (.ended value) with log := s.log ++ [(k, .callback)] } := by
  have result := setStage_result (.ended value) at_ fun _ found => found
  have now : (s.setStage k (.ended value)).result k = some value :=
    result k value (congrArg (·.bind Stage.result) at_)
  have log : (s.log ++ [(k, (Entry.callback : Entry α))]).filterMap calledBack = s.log.filterMap calledBack ++ [k] :=
    List.filterMap_append
  have first : k ∉ s.log.filterMap calledBack := by
    intro mem
    obtain ⟨other, ended⟩ := (told.ended k).mp mem
    rw [at_] at ended
    cases ended
  refine ⟨⟨?_, ?_, ?_, ?_, ?_⟩, ?_, ?_, ?_⟩
  · rw [log]
    exact List.nodup_append.mpr ⟨told.once, List.nodup_singleton k, fun j mem other mem' same => first <| by
      rw [← List.mem_singleton.mp mem', ← same]
      exact mem⟩
  · intro j call found err mem
    cases List.mem_append.mp mem with
    | inl mem => exact result j found (told.value j call found err mem)
    | inr mem => cases List.mem_singleton.mp mem
  · intro j entry mem tells
    cases List.mem_append.mp mem with
    | inl mem =>
      obtain ⟨found, there⟩ := Option.isSome_iff_exists.mp (told.told j entry mem tells)
      exact Option.isSome_iff_exists.mpr ⟨found, result j found there⟩
    | inr mem =>
      cases List.mem_singleton.mp mem
      exact Option.isSome_iff_exists.mpr ⟨value, now⟩
  · refine List.pairwise_append.mpr ⟨told.lasting, List.pairwise_singleton _ _, fun before _ after mem => ?_⟩
    rw [List.mem_singleton.mp mem]
    exact fun _ _ _ _ => nofun
  · intro j lt here there
    change j ∈ (s.log ++ [(k, (Entry.callback : Entry α))]).filterMap calledBack
    rw [log]
    exact List.mem_append_left _ (told.gone j (List.length_modify _ _ _ ▸ lt) here there)
  · intro j
    change j ∈ (s.log ++ [(k, (Entry.callback : Entry α))]).filterMap calledBack ↔
      ∃ value', (s.setStage k (.ended value)).stage j = some (.ended value')
    rw [log, List.mem_append, List.mem_singleton]
    rcases setStage_spec (.ended value) at_ j with ⟨here, rfl⟩ | ⟨there, other⟩
    · exact iff_of_true (.inr rfl) ⟨value, here⟩
    · rw [there, ← told.ended]
      exact or_iff_left other
  · exact fun j mem => (List.length_modify _ _ _).symm ▸ told.current j mem
  · exact fun j mem => (List.length_modify _ _ _).symm ▸ told.leaver j mem

/-- An answer that agrees with the value of its task, as far as that is there. -/
lemma Told.answer {tasks : List (ThreadedTask α)} {call : TaskCall} {answer : Answer α} (told : Told s)
    (length : tasks.length = s.tasks.length) (same : ∀ j : Nat, tasks[j]?.map (·.stage) = s.stage j)
    (agrees : Agrees (s.result k) call answer) :
    Told { s with tasks, log := s.log ++ [(k, .answer call answer)] } := by
  have stage : TaskProcess.stage { s with tasks, log := s.log ++ [(k, .answer call answer)] } = s.stage := funext same
  have result : TaskProcess.result { s with tasks, log := s.log ++ [(k, .answer call answer)] } = s.result := by
    unfold TaskProcess.result
    rw [stage]
  have log : (s.log ++ [(k, Entry.answer call answer)]).filterMap calledBack = s.log.filterMap calledBack := by
    rw [List.filterMap_append]
    exact List.append_nil _
  refine ⟨⟨?_, ?_, ?_, ?_, ?_⟩, ?_, ?_, ?_⟩
  · rw [log]
    exact told.once
  · rw [result]
    intro j call' value err mem
    cases List.mem_append.mp mem with
    | inl mem => exact told.value j call' value err mem
    | inr mem =>
      cases List.mem_singleton.mp mem
      exact agrees.value value err rfl
  · rw [result]
    intro j entry mem tells
    cases List.mem_append.mp mem with
    | inl mem => exact told.told j entry mem tells
    | inr mem =>
      cases List.mem_singleton.mp mem
      exact agrees.tells tells
  · refine List.pairwise_append.mpr ⟨told.lasting, List.pairwise_singleton _ _, fun before mem after mem' => ?_⟩
    cases List.mem_singleton.mp mem'
    rintro rfl tells call' answer' entry asks
    cases entry
    exact agrees.keeps (told.told _ _ mem tells) asks
  · rw [log, length]
    exact told.gone
  · rw [log, stage]
    exact told.ended
  · rw [length]
    exact told.current
  · rw [length]
    exact told.leaver

/-- A call tells what is so. -/
lemma Told.call (told : Told s) (call : TaskCall) (at_ : s.tasks[k]? = some task) :
    Told { s with
      tasks := s.tasks.set k (task.act call).2, log := s.log ++ [(k, .answer call (task.act call).1)] } := by
  refine told.answer List.length_set (fun j => ?_) ?_
  · unfold TaskProcess.stage
    rw [List.getElem?_set]
    split
    case isTrue same =>
      subst same
      rw [if_pos (List.getElem?_eq_some_iff.mp at_).1, at_]
      exact congrArg some (act_stage task call)
    case isFalse => rfl
  · have found : s.result k = task.stage.result := by
      rw [TaskProcess.result, TaskProcess.stage, at_]
      rfl
    rw [found]
    exact act_agrees task call

/-- A task that is left goes on as it is. -/
lemma leave_stage (s : TaskProcess α) (j : Nat) : s.leave.stage j = s.stage j := by
  unfold TaskProcess.leave TaskProcess.stage
  cases s.task with
  | none => rfl
  | some k =>
    dsimp only
    rw [List.getElem?_modify]
    cases s.tasks[j]? with
    | none => rfl
    | some task =>
      split
      · rfl
      · rfl

/-- Leaving a task keeps all tasks. -/
lemma leave_length (s : TaskProcess α) : s.leave.tasks.length = s.tasks.length := by
  unfold TaskProcess.leave
  cases s.task with
  | none => rfl
  | some k => exact List.length_modify _ _ _

/-- The task that is left is no longer the current one. -/
lemma leave_task (s : TaskProcess α) : s.leave.task = none := by
  unfold TaskProcess.leave
  split
  case h_1 none => exact none
  case h_2 => rfl

/-- Leaving a task tells nothing. -/
lemma leave_log (s : TaskProcess α) : s.leave.log = s.log := by
  unfold TaskProcess.leave
  split
  · rfl
  · rfl

/-- The task that was the current one is being left. -/
lemma leave_leaving (free : s.leaving = none) : s.leave.leaving = s.task := by
  unfold TaskProcess.leave
  split
  case h_1 none => rw [free, none]
  case h_2 some => exact some.symm

/-- Leaving a task changes nothing that was told. -/
lemma Told.leave (told : Told s) (free : s.leaving = none) : Told s.leave := by
  refine told.update (leave_log s) (leave_length s) (fun j value found => ?_) (fun j value => by rw [leave_stage])
    ?_ ?_ ?_
  · unfold TaskProcess.result at found ⊢
    rw [leave_stage]
    exact found
  · rw [leave_task]
    exact nofun
  · rw [leave_leaving free]
    exact fun j mem => .inr mem
  · rw [leave_leaving free, free]
    exact fun j some => .inr (.inl (some.elim id nofun))

/-- A new task is at its start. -/
lemma stage_start (s : TaskProcess α) (j : Nat) :
    TaskProcess.stage { s with tasks := s.tasks ++ [{}], task := some s.tasks.length } j =
      if j = s.tasks.length then some .running else s.stage j := by
  unfold TaskProcess.stage
  split
  case isTrue same =>
    rw [same, List.getElem?_concat_length]
    rfl
  case isFalse other =>
    rcases Nat.lt_or_ge j s.tasks.length with lt | ge
    · rw [List.getElem?_append_left lt]
    · rw [List.getElem?_eq_none ge, List.getElem?_eq_none]
      rw [List.length_append]
      exact Nat.lt_of_le_of_ne ge (Ne.symm other)

/-- There is no task behind the last one. -/
lemma stage_length (s : TaskProcess α) : s.stage s.tasks.length = none := by
  unfold TaskProcess.stage
  rw [List.getElem?_eq_none (Nat.le_refl _)]
  rfl

/-- A new task, where there is no current one -/
lemma Told.start (told : Told s) (none : s.task = none) :
    Told { s with tasks := s.tasks ++ [{}], task := some s.tasks.length } := by
  have length : (s.tasks ++ [({} : ThreadedTask α)]).length = s.tasks.length + 1 := List.length_append
  have kept (j : Nat) (value : α) (found : s.result j = some value) :
      TaskProcess.result { s with tasks := s.tasks ++ [{}], task := some s.tasks.length } j = some value := by
    unfold TaskProcess.result at found ⊢
    rw [stage_start, if_neg]
    · exact found
    · rintro rfl
      rw [stage_length] at found
      cases found
  refine ⟨⟨told.once, fun j call value err mem => kept j value (told.value j call value err mem), ?_, told.lasting, ?_⟩,
    ?_, ?_, ?_⟩
  · intro j entry mem tells
    obtain ⟨value, found⟩ := Option.isSome_iff_exists.mp (told.told j entry mem tells)
    exact Option.isSome_iff_exists.mpr ⟨value, kept j value found⟩
  · intro j lt here there
    rw [length] at lt
    have other : j ≠ s.tasks.length := by
      rintro rfl
      exact here rfl
    exact told.gone j (Nat.lt_of_le_of_ne (Nat.le_of_lt_succ lt) other) (by rw [none]; exact nofun) there
  · intro j
    rw [told.ended]
    rw [stage_start]
    split
    case isTrue same =>
      rw [same, stage_length]
      exact exists_congr fun value => iff_of_false nofun nofun
    case isFalse => exact Iff.rfl
  · intro j mem
    rw [length]
    cases mem
    exact Nat.lt_succ_self _
  · intro j mem
    rw [length]
    exact Nat.lt_succ_of_lt (told.leaver j mem)

/-- The thread of a task that is left has come to its end. -/
lemma Told.join {value : α} (told : Told s) (at_ : s.leaving.bind s.stage = some (.ended value)) :
    Told { s with leaving := none } := by
  obtain ⟨k, leaving, ended⟩ := Option.bind_eq_some_iff.mp at_
  refine told.update rfl rfl (fun _ _ found => found) (fun _ _ => Iff.rfl) (fun _ mem => mem) nofun fun j some => ?_
  cases some with
  | inl here => exact .inl here
  | inr there =>
    rw [leaving] at there
    cases there
    exact .inr (.inr ((told.ended k).mpr ⟨value, ended⟩))

/-- Every move keeps what was told true. -/
lemma Told.step (told : Told s) (move : TaskMove α) : Told (s.step move) := by
  unfold TaskProcess.step
  split
  · exact told
  case isFalse =>
    cases move with
    | emplaceTask =>
      dsimp only
      split
      case isTrue free => exact (told.leave free).start (leave_task s)
      case isFalse => exact told
    | reset =>
      dsimp only
      split
      case isTrue free => exact told.leave free
      case isFalse => exact told
    | join =>
      dsimp only
      split
      case h_1 value ended => exact told.join ended
      case h_2 => exact told
    | invoke k outcome =>
      dsimp only
      split
      case h_1 value running => exact told.setStage running nofun nofun nofun
      case h_2 => exact { told with }
      case h_3 => exact told
    | setValue k =>
      dsimp only
      split
      case h_1 value returned => exact told.setStage returned nofun nofun nofun
      case h_2 => exact told
    | callback k =>
      dsimp only
      split
      case h_1 value ready => exact told.callback ready
      case h_2 => exact told
    | call call =>
      dsimp only
      split
      case h_1 k current free =>
        split
        case h_1 => exact told
        case h_2 task at_ => exact told.call call at_
      case h_2 => exact told

end steps

/-- Whatever the threads do, and whatever is called, a process tells the truth about its tasks. -/
theorem run_truthful (moves : List (TaskMove α)) : Truthful (run TaskProcess.step {} moves) := by
  refine (run_of_keep (P := Told) (fun s move told => told.step move) moves ?_).toTruthful
  refine ⟨⟨.nil, nofun, nofun, .nil, fun k lt => absurd lt (Nat.not_lt_zero k)⟩, fun k => ?_, nofun, nofun⟩
  exact iff_of_false List.not_mem_nil fun ended => ended.elim fun _ => nofun

end OsterLib.Network.ThreadTask
