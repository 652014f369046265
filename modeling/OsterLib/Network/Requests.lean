import OsterLib.Lib.Run
import OsterLib.Network.Worker
import Mathlib.Data.List.ReduceOption
import Mathlib.Data.List.Nodup

/-!
# Requests

`AbstractRequestableConnectionProcess` of `network/abstractprocess.cpp` and the commands that hand it
requests (`network/worker/command.cpp`). A process has a queue of requests and one slot for the request
that is active; a request is complete when the result of its command is set, which may happen once only,
since a second `set_value` throws inside of a `noexcept` function.

`push_request` ends with a call of `on_write`. What the user's `on_write` does is a sequence of calls of
these operations, so it is a part of the run: the steps that follow the push.

A request has one place at a time: `places` lists the completed requests, the active one and the queued
ones. Every operation but `reset_requests` keeps them in their order (`run_accounted_iff`), and
`reset_requests` forgets the queued ones.
-/

namespace OsterLib.Network
open OsterLib.Lib

namespace Errc

/-- `EINTR` -/
def interrupted : Errc := .other 4

/-- `ESRCH` -/
def noSuchProcess : Errc := .other 3

/-- `EOPNOTSUPP` -/
def operationNotSupported : Errc := .other 95

end Errc

/-- A `Command<RequestData>`, by its identity. -/
abbrev RequestId := Nat

/-- `RequestableProcess`: the requests that wait, and the active one -/
structure RequestableProcess where
  requests : List (Option RequestId) := []
  activeRequest : Option RequestId := none
  /-- The calls of `set_error` so far. -/
  results : List (RequestId × ErrorCode) := []

namespace RequestableProcess

/-- `BaseCommand::ready` -/
def ready (p : RequestableProcess) (request : RequestId) : Bool :=
  p.results.any fun result => result.1 == request

/-- `BaseCommand::set_error` -/
def setError (p : RequestableProcess) (request : RequestId) (err : ErrorCode) : RequestableProcess :=
  { p with results := p.results ++ [(request, err)] }

/-- `is_active_request` -/
def isActiveRequest (p : RequestableProcess) : Bool :=
  match p.activeRequest with
  | some request => !p.ready request
  | none => false

/-- `complete_current_request` -/
def completeCurrentRequest (p : RequestableProcess) (err : ErrorCode) : RequestableProcess :=
  let p := match p.activeRequest with
    | some request => p.setError request err
    | none => p
  { p with activeRequest := none }

/-- The queued requests are dropped. -/
def resetRequests (p : RequestableProcess) : RequestableProcess × ErrorCode :=
  (({ p with requests := [] }).completeCurrentRequest (some .interrupted), none)

/-- The loop of `next_request`: null pointers are passed over. -/
def nextLoop (active : Option RequestId) : List (Option RequestId) →
    Option RequestId × List (Option RequestId)
  | [] => (active, [])
  | none :: requests => nextLoop none requests
  | some request :: requests => (some request, requests)

/-- `next_request` -/
def nextRequest (p : RequestableProcess) : RequestableProcess × Bool :=
  if p.isActiveRequest then (p, false)
  else
    let (activeRequest, requests) := nextLoop p.activeRequest p.requests
    ({ p with activeRequest, requests }, activeRequest.isSome)

/-- `push_request`, up to the call of `on_write`. -/
def pushRequest (p : RequestableProcess) (request : Option RequestId) : RequestableProcess :=
  { p with requests := p.requests ++ [request] }

/-- `at_fatal_error` -/
def atFatalError (p : RequestableProcess) (err : ErrorCode) : RequestableProcess × ErrorCode :=
  (p.completeCurrentRequest err, none)

/-- `handle_receive_error` -/
def handleReceiveError (p : RequestableProcess) (err : ErrorCode) :
    RequestableProcess × Bool × ErrorCode :=
  if err.isSet then
    match err with
    | some .operationInProgress | some .resourceUnavailableTryAgain | some .noBufferSpace =>
      (p, true, none)
    | _ =>
      let (p, err) := p.atFatalError err
      (p, false, err)
  else (p, true, err)

/-- It does the same as `handle_receive_error`, but for `no_buffer_space`, where it disables writing. -/
def handleSendingError (p : RequestableProcess) (err : ErrorCode) :
    RequestableProcess × Bool × ErrorCode :=
  p.handleReceiveError err

/-! ## Where the requests are -/

/-- The completed requests, the active one and the queued ones. -/
def places (p : RequestableProcess) : List RequestId :=
  p.results.map Prod.fst ++ p.activeRequest.toList ++ p.requests.reduceOption

/-- An operation of the process other than a push. -/
inductive Op where
  | nextRequest
  | completeCurrentRequest (err : ErrorCode)
  | atFatalError (err : ErrorCode)
  | handleReceiveError (err : ErrorCode)
  | handleSendingError (err : ErrorCode)
  | resetRequests

/-- A call of the process -/
def perform (p : RequestableProcess) : Op → RequestableProcess
  | .nextRequest => p.nextRequest.1
  | .completeCurrentRequest err => p.completeCurrentRequest err
  | .atFatalError err => (p.atFatalError err).1
  | .handleReceiveError err => (p.handleReceiveError err).1
  | .handleSendingError err => (p.handleSendingError err).1
  | .resetRequests => p.resetRequests.1

variable {p : RequestableProcess}

/-- A pushed request is in the last place. -/
lemma places_pushRequest (p : RequestableProcess) (request : Option RequestId) :
    (p.pushRequest request).places = p.places ++ request.toList := by
  cases request <;> simp [places, pushRequest, List.reduceOption]

/-- A request that gets a result is in one more place. -/
lemma places_setError (p : RequestableProcess) (request : RequestId) (err : ErrorCode) :
    (p.setError request err).places.Perm (request :: p.places) := by
  unfold places setError
  rw [List.map_append, List.append_assoc, List.append_assoc, List.append_assoc]
  exact List.perm_middle

/-- Completing the active request leaves every request at its place in the order. -/
lemma places_complete (p : RequestableProcess) (err : ErrorCode) :
    (p.completeCurrentRequest err).places = p.places := by
  unfold completeCurrentRequest places
  cases p.activeRequest with
  | none => rfl
  | some request => simp [setError]

/-- The next request is the first one that is not null, and the others stay. -/
lemma nextLoop_places (requests : List (Option RequestId)) :
    (nextLoop none requests).1.toList ++ (nextLoop none requests).2.reduceOption =
      requests.reduceOption := by
  induction requests with
  | nil => rfl
  | cons request requests ih =>
    cases request with
    | none => exact ih
    | some request => rfl

/-- As long as no request is in two places, the active one is unfinished. -/
lemma active_unfinished (nodup : p.places.Nodup) {request : RequestId}
    (active : p.activeRequest = some request) : p.ready request = false := by
  unfold places at nodup
  rw [active] at nodup
  have apart := (List.nodup_append.1 (List.nodup_append.1 nodup).1).2.2
  unfold ready
  rw [List.any_eq_false]
  intro result mem same
  exact apart result.1 (List.mem_map_of_mem mem) request (List.mem_singleton.2 rfl) (by simpa using same)

/-- The next request becomes the active one. -/
lemma places_next (nodup : p.places.Nodup) : p.nextRequest.1.places = p.places := by
  unfold nextRequest isActiveRequest
  cases active : p.activeRequest with
  | some request => simp [active_unfinished nodup active]
  | none =>
    have same := nextLoop_places p.requests
    simp only [Bool.false_eq_true, if_false]
    unfold places
    rw [active, List.append_assoc, List.append_assoc]
    exact congrArg (p.results.map Prod.fst ++ ·) same

/-- A receive error moves no request. -/
lemma places_handleReceiveError (p : RequestableProcess) (err : ErrorCode) :
    (p.handleReceiveError err).1.places = p.places := by
  unfold handleReceiveError
  split
  · split
    · rfl
    · rfl
    · rfl
    · exact places_complete p err
  · rfl

/-- What `reset_requests` leaves is what was not queued. -/
lemma places_reset (p : RequestableProcess) :
    p.places = p.resetRequests.1.places ++ p.requests.reduceOption := by
  have kept := places_complete { p with requests := [] } (some .interrupted)
  unfold resetRequests
  rw [kept]
  simp [places]

/-- Every operation but `reset_requests` leaves every request at its place in the order. -/
lemma places_perform (nodup : p.places.Nodup) {op : Op} (other : op ≠ .resetRequests) :
    (p.perform op).places = p.places := by
  cases op with
  | nextRequest => exact places_next nodup
  | completeCurrentRequest err => exact places_complete p err
  | atFatalError err => exact places_complete p err
  | handleReceiveError err => exact places_handleReceiveError p err
  | handleSendingError err => exact places_handleReceiveError p err
  | resetRequests => exact absurd rfl other

end RequestableProcess

open RequestableProcess

/-! ## The life cycle -/

/-- A step of a run: a push, or another operation, be it called by `on_write` or by anyone else. -/
inductive RequestStep where
  | push (request : Option RequestId)
  | other (op : Op)

/-- A process, with the requests that were pushed, in this order, and whether `reset_requests` was the
    last operation. -/
structure LifeCycleLog where
  process : RequestableProcess := {}
  pushed : List RequestId := []
  justReset : Bool := false

namespace LifeCycleLog

/-- A request is pushed, or another call is made. -/
def step (l : LifeCycleLog) : RequestStep → LifeCycleLog
  | .push request =>
    { process := l.process.pushRequest request, pushed := l.pushed ++ request.toList
      justReset := false }
  | .other op =>
    { l with
      process := l.process.perform op
      justReset := match op with
        | .resetRequests => true
        | _ => false }

/-- Every request that was pushed is at one place, once: among the completed ones, active and unfinished,
    or queued. Those that have become active are the first ones that were pushed, in this order. Behind
    `reset_requests` all of them are completed. -/
structure Accounted (l : LifeCycleLog) : Prop where
  once : ∀ request ∈ l.pushed, l.process.places.count request = 1
  unfinished : ∀ request, l.process.activeRequest = some request → l.process.ready request = false
  inOrder : l.process.results.map Prod.fst ++ l.process.activeRequest.toList <+: l.pushed
  completed : l.justReset = true → ∀ request ∈ l.pushed, l.process.ready request = true

/-- No request is pushed a second time, and the queue is reset when no request is in it. -/
def Allowed (l : LifeCycleLog) : RequestStep → Prop
  | .push request => ∀ r ∈ request, r ∉ l.pushed
  | .other .resetRequests => ∀ request ∈ l.process.requests, request = none
  | .other _ => True

/-- The requests have come to their places in the order in which they were pushed. -/
structure Ordered (l : LifeCycleLog) : Prop where
  places : l.process.places = l.pushed
  nodup : l.pushed.Nodup
  drained : l.justReset = true → l.process.activeRequest = none ∧ l.process.requests.reduceOption = []

/-- A request with a result is ready. -/
lemma ready_of_mem {p : RequestableProcess} {request : RequestId}
    (mem : request ∈ p.results.map Prod.fst) : p.ready request = true := by
  obtain ⟨result, there, rfl⟩ := List.mem_map.1 mem
  exact List.any_eq_true.2 ⟨result, there, beq_self_eq_true _⟩

/-- What is in order is accounted for. -/
lemma Ordered.accounted {l : LifeCycleLog} (ordered : Ordered l) : Accounted l := by
  have nodup : l.process.places.Nodup := ordered.places ▸ ordered.nodup
  refine ⟨fun request mem => ?_, fun request active => active_unfinished nodup active, ?_,
    fun reset request mem => ?_⟩
  · exact List.count_eq_one_of_mem nodup (ordered.places.symm ▸ mem)
  · exact ⟨l.process.requests.reduceOption, ordered.places⟩
  · obtain ⟨active, queued⟩ := ordered.drained reset
    rw [← ordered.places] at mem
    unfold RequestableProcess.places at mem
    rw [active, queued, List.append_nil, Option.toList_none, List.append_nil] at mem
    exact ready_of_mem mem

/-- A new request keeps the order. -/
lemma Ordered.push {l : LifeCycleLog} (ordered : Ordered l) {request : Option RequestId}
    (fresh : ∀ r ∈ request, r ∉ l.pushed) : Ordered (l.step (.push request)) := by
  refine ⟨?_, ?_, nofun⟩
  · show (l.process.pushRequest request).places = l.pushed ++ request.toList
    rw [places_pushRequest, ordered.places]
  · refine List.nodup_append.2 ⟨ordered.nodup, by cases request <;> simp, fun a there b new => ?_⟩
    rintro rfl
    exact fresh a (Option.mem_toList.1 new) there

/-- Without requests that are not null nothing is left. -/
lemma reduceOption_nil_iff (requests : List (Option RequestId)) :
    requests.reduceOption = [] ↔ ∀ request ∈ requests, request = none := by
  induction requests with
  | nil => simp
  | cons request requests ih => cases request <;> simp [ih]

/-- Resetting an empty queue keeps the order. -/
lemma Ordered.reset {l : LifeCycleLog} (ordered : Ordered l)
    (empty : ∀ request ∈ l.process.requests, request = none) :
    Ordered (l.step (.other .resetRequests)) := by
  have parts := places_reset l.process
  rw [(reduceOption_nil_iff _).2 empty, List.append_nil] at parts
  exact ⟨parts.symm.trans ordered.places, ordered.nodup, fun _ => ⟨rfl, by
    unfold step perform resetRequests completeCurrentRequest
    cases l.process.activeRequest <;> rfl⟩⟩

/-- Every allowed step keeps the order. -/
lemma Ordered.step {l : LifeCycleLog} (ordered : Ordered l) {s : RequestStep} (allowed : l.Allowed s) :
    Ordered (l.step s) := by
  cases s with
  | push request => exact ordered.push allowed
  | other op =>
    by_cases reset : op = .resetRequests
    · subst reset
      exact ordered.reset allowed
    · have kept := places_perform (ordered.places ▸ ordered.nodup) reset
      refine ⟨kept.trans ordered.places, ordered.nodup, fun just => absurd just ?_⟩
      cases op with
      | resetRequests => exact absurd rfl reset
      | _ => exact Bool.false_ne_true

/-- A push of a request that is somewhere already, and a reset of a queue that holds one, are seen at
    once. -/
lemma Ordered.needed {l : LifeCycleLog} (ordered : Ordered l) {s : RequestStep}
    (after : Accounted (l.step s)) : l.Allowed s := by
  cases s with
  | push request =>
    intro r new there
    obtain rfl : request = some r := new
    have one := after.once r (List.mem_append_left _ there)
    change (l.process.pushRequest (some r)).places.count r = 1 at one
    have before : 0 < l.pushed.count r := List.count_pos_iff.2 there
    rw [places_pushRequest, ordered.places, List.count_append] at one
    simp at one
    omega
  | other op =>
    cases op with
    | resetRequests =>
      refine (reduceOption_nil_iff _).1 (List.eq_nil_iff_forall_not_mem.2 fun r queued => ?_)
      have parts := places_reset l.process
      have there : r ∈ l.pushed := by
        rw [← ordered.places, parts]
        exact List.mem_append_right _ queued
      have one := after.once r there
      change l.process.resetRequests.1.places.count r = 1 at one
      have total := List.count_eq_one_of_mem ordered.nodup there
      rw [← ordered.places, parts, List.count_append, one] at total
      have some : 0 < l.process.requests.reduceOption.count r := List.count_pos_iff.2 queued
      omega
    | _ => trivial

/-- The requests are accounted for all along a run exactly as long as none is pushed a second time and
    no queue is reset that holds one. -/
theorem run_accounted_iff (steps : List RequestStep) :
    Always step Accounted {} steps ↔ Guarded step Allowed {} steps := by
  refine always_iff_guarded (J := Ordered) (L := fun _ _ => True) (fun _ => Ordered.accounted)
    (fun l s ordered _ => ordered.step) (fun l s ordered _ => ordered.needed)
    ⟨rfl, List.nodup_nil, nofun⟩ (.of_forall (fun _ _ => trivial) _ _)

/-- A request that waits behind another one is dropped by `reset_requests`. -/
theorem reset_drops_queued : ¬ ∀ steps : List RequestStep, Always step Accounted {} steps := by
  intro all
  have last := (all [.push (some 1), .push (some 2), .other .nextRequest,
    .other .resetRequests]).last
  exact absurd (last.completed rfl 2 (by decide)) (by decide)

end LifeCycleLog

/-! ## The commands that hand over a request -/

/-- What `emplace_request_to_process` finds under the id of the command's handle. -/
inductive RequestTarget where
  | noConnection
  | noProcess
  | notRequestable
  | process

/-- A call of `set_error`, of a process operation or of `on_write` as the worker's thread makes them. -/
inductive SessionStep where
  /-- `RequestCommandSpec::execute_internal` begins. -/
  | execute (request : RequestId) (target : RequestTarget)
  /-- `on_write`, called for the command in execution, returns. -/
  | onWriteReturns (err : ErrorCode)
  | operation (s : RequestStep)

/-- `executing` are the commands whose `on_write` runs, the last one first, each with whether it is the
    second call. `seen` are the requests that were executed or pushed. -/
structure RequestSession where
  process : RequestableProcess := {}
  executing : List (RequestId × Bool) := []
  seen : List RequestId := []

namespace RequestSession

/-- `execute_internal`, up to the first call of `on_write` -/
def execute (s : RequestSession) (request : RequestId) (target : RequestTarget) : RequestSession :=
  let s := { s with seen := request :: s.seen }
  match target with
  | .noConnection => { s with process := s.process.setError request (some .noSuchDevice) }
  | .noProcess => { s with process := s.process.setError request (some .noSuchProcess) }
  | .notRequestable => { s with process := s.process.setError request (some .operationNotSupported) }
  | .process =>
    { s with
      process := s.process.pushRequest (some request)
      executing := (request, false) :: s.executing }

/-- `on_push_request` is called by `push_request`, and by `emplace_request_to_process` once more. -/
def onWriteReturns (s : RequestSession) (err : ErrorCode) : RequestSession :=
  match s.executing with
  | [] => s
  | (request, again) :: executing =>
    if err.isSet then { s with process := s.process.setError request err, executing }
    else if again then { s with executing }
    else { s with executing := (request, true) :: executing }

/-- A command is executed, a write returns, or another call is made. -/
def step (s : RequestSession) : SessionStep → RequestSession
  | .execute request target => s.execute request target
  | .onWriteReturns err => s.onWriteReturns err
  | .operation (.push request) =>
    { s with process := s.process.pushRequest request, seen := request.toList ++ s.seen }
  | .operation (.other op) => { s with process := s.process.perform op }

/-- No result is set a second time. -/
def SetOnce (s : RequestSession) : Prop :=
  (s.process.results.map Prod.fst).Nodup

/-- No request is executed or pushed a second time, and `on_write` returns an error only when the request
    is not queued, active or completed any more. -/
def Allowed (s : RequestSession) : SessionStep → Prop
  | .execute request _ => request ∉ s.seen
  | .onWriteReturns err =>
    err.isSet = true → ∀ command ∈ s.executing.head?, command.1 ∉ s.process.places
  | .operation (.push request) => ∀ r ∈ request, r ∉ s.seen
  | .operation (.other _) => True

/-- Every request has at most one place. -/
structure Placed (s : RequestSession) : Prop where
  nodup : s.process.places.Nodup
  places : s.process.places ⊆ s.seen
  executing : s.executing.map Prod.fst ⊆ s.seen

variable {s : RequestSession}

/-- What has its place is set once. -/
lemma Placed.setOnce (placed : Placed s) : SetOnce s := by
  have parts := placed.nodup
  unfold RequestableProcess.places at parts
  exact (List.nodup_append.1 (List.nodup_append.1 parts).1).1

/-- Setting the result of a request that has no place gives it one. -/
lemma Placed.setError (placed : Placed s) {request : RequestId} (err : ErrorCode)
    {executing : List (RequestId × Bool)} (apart : request ∉ s.process.places)
    (kept : executing.map Prod.fst ⊆ s.seen) :
    Placed
      { process := s.process.setError request err, executing
        seen := request :: s.seen } := by
  have moved := places_setError s.process request err
  refine ⟨moved.nodup_iff.2 (List.nodup_cons.2 ⟨apart, placed.nodup⟩), fun r there => ?_,
    fun r there => List.mem_cons_of_mem _ (kept there)⟩
  obtain rfl | there := List.mem_cons.1 (moved.subset there)
  · exact List.mem_cons_self
  · exact List.mem_cons_of_mem _ (placed.places there)

/-- A pushed request has its place. -/
lemma Placed.push (placed : Placed s) (request : Option RequestId) (fresh : ∀ r ∈ request, r ∉ s.seen)
    {executing : List (RequestId × Bool)}
    (kept : executing.map Prod.fst ⊆ request.toList ++ s.seen) :
    Placed
      { process := s.process.pushRequest request, executing
        seen := request.toList ++ s.seen } := by
  refine ⟨?_, fun r there => ?_, kept⟩
  · show (s.process.pushRequest request).places.Nodup
    rw [places_pushRequest]
    refine List.nodup_append.2 ⟨placed.nodup, by cases request <;> simp, fun a there b new => ?_⟩
    rintro rfl
    exact fresh a (Option.mem_toList.1 new) (placed.places there)
  · change r ∈ (s.process.pushRequest request).places at there
    rw [places_pushRequest] at there
    exact List.mem_append.2 ((List.mem_append.1 there).symm.imp_right fun there => placed.places there)

/-- An executed command has its place. -/
lemma Placed.execute (placed : Placed s) {request : RequestId} {target : RequestTarget}
    (fresh : request ∉ s.seen) : Placed (s.execute request target) := by
  have apart : request ∉ s.process.places := fun there => fresh (placed.places there)
  cases target with
  | noConnection => exact placed.setError _ apart placed.executing
  | noProcess => exact placed.setError _ apart placed.executing
  | notRequestable => exact placed.setError _ apart placed.executing
  | process =>
    refine placed.push (some request) (by simpa using fresh) fun r there => ?_
    obtain rfl | there := List.mem_cons.1 there
    · exact List.mem_cons_self
    · exact List.mem_cons_of_mem _ (placed.executing there)

/-- A write that returns leaves every request its place. -/
lemma Placed.onWriteReturns (placed : Placed s) {err : ErrorCode}
    (apart : err.isSet = true → ∀ command ∈ s.executing.head?, command.1 ∉ s.process.places) :
    Placed (s.onWriteReturns err) := by
  obtain ⟨process, executing, seen⟩ := s
  cases executing with
  | nil => exact placed
  | cons command executing =>
    obtain ⟨request, again⟩ := command
    have known : request ∈ seen := placed.executing List.mem_cons_self
    have rest : executing.map Prod.fst ⊆ seen :=
      fun r there => placed.executing (List.mem_cons_of_mem _ there)
    unfold RequestSession.onWriteReturns
    dsimp only
    split
    · next set =>
      have set' := placed.setError err (apart set (request, again) rfl) rest
      exact ⟨set'.nodup, fun r there => by
        obtain rfl | there := List.mem_cons.1 (set'.places there)
        · exact known
        · exact there, rest⟩
    · split
      · exact ⟨placed.nodup, placed.places, rest⟩
      · exact ⟨placed.nodup, placed.places, placed.executing⟩

/-- Other calls leave every request its place. -/
lemma Placed.operation (placed : Placed s) (op : Op) : Placed (s.step (.operation (.other op))) := by
  by_cases reset : op = .resetRequests
  · subst reset
    have parts := places_reset s.process
    have fewer : s.process.resetRequests.1.places.Sublist s.process.places :=
      parts ▸ List.sublist_append_left _ _
    exact ⟨placed.nodup.sublist fewer, fun r there => placed.places (fewer.subset there),
      placed.executing⟩
  · have kept := places_perform placed.nodup reset
    exact ⟨kept.symm ▸ placed.nodup, kept.symm ▸ placed.places, placed.executing⟩

/-- Every allowed step leaves every request its place. -/
lemma Placed.step (placed : Placed s) {e : SessionStep} (allowed : s.Allowed e) :
    Placed (s.step e) := by
  cases e with
  | execute request target => exact placed.execute allowed
  | onWriteReturns err => exact placed.onWriteReturns allowed
  | operation e =>
    cases e with
    | push request =>
      exact placed.push _ allowed fun r there => List.mem_append_right _ (placed.executing there)
    | other op => exact placed.operation op

/-- In a run where `on_write` returns an error only for a request that it has not left anywhere, every
    result is set at most once. -/
theorem run_setOnce (steps : List SessionStep) (guard : Guarded step Allowed {} steps) :
    Always step SetOnce {} steps := by
  have start : Placed {} := ⟨List.nodup_nil, nofun, nofun⟩
  exact (always_of_guarded (fun _ _ placed allowed => placed.step allowed) start guard).imp
    fun _ => Placed.setOnce

/-- `on_write` starts the request and both its calls return without an error; the request is completed
    later. -/
theorem run_setOnce_started : Always step SetOnce {} [.execute 1 .process,
    .operation (.other .nextRequest), .onWriteReturns none, .onWriteReturns none,
    .operation (.other (.completeCurrentRequest none))] :=
  run_setOnce _ ⟨List.not_mem_nil, trivial, nofun, nofun, trivial, trivial⟩

/-- A request whose `on_write` has failed stays in the queue, so that it is completed once more. -/
theorem failed_set_twice : ¬ ∀ steps : List SessionStep, Always step SetOnce {} steps := by
  intro all
  have last := (all [.execute 1 .process, .onWriteReturns (some (.other 5)),
    .operation (.other .nextRequest), .operation (.other (.completeCurrentRequest none))]).last
  exact absurd last (by unfold SetOnce; decide)

end RequestSession
end OsterLib.Network
