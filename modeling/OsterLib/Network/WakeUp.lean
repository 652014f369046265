import OsterLib.Lib.Compact
import OsterLib.Network.CommandQueue
import OsterLib.Network.Worker

/-!
# The loop of a worker

`AbstractWorker::__thread_launch__` and `handle_worker_commands`, with `Multiplexor::wait` and `Multiplexor::interrupt`
of `network/multiplexor.cpp`. Other threads push a command under the mutex and then write to the interruptor, an
`eventfd`, which are two steps here; what the loop does between two accesses of shared state is one step. A worker that
finds no descriptor ready sleeps in `epoll_wait`, until the interruptor is written or the time is over.

No wake-up is lost: where a worker sleeps and no push is under way, all commands have been executed (`run_asleep`). Only
one command for the worker itself is taken in each round, which is enough as long as all of them are `Stop`. The events
of the sockets are handed over in order, each once, without those of the interruptor (`run_delivers`).
-/

namespace OsterLib.Network
open OsterLib.Lib

/-- `AbstractWorker::WorkerCommand` -/
inductive WorkerCommand where
  | none
  | stop
  deriving DecidableEq, Repr

/-- `epoll_event` as `epoll_wait` hands it over, with the 64 bits of the user data. -/
structure ReadyEvent where
  events : Event
  data : UInt64
  deriving DecidableEq, Repr

/-- `si_ctrl`, the user data of the interruptor -/
def siCtrl : UInt64 := 0x100000000

/-- `EventHandle(uint32_t, Event)` writes the lower half of the user data only, and no connection has the id 0. -/
def ReadyEvent.OfConnection (ev : ReadyEvent) : Prop := ev.data.toUInt32 ≠ 0

instance (ev : ReadyEvent) : Decidable ev.OfConnection := inferInstanceAs (Decidable (_ ≠ _))

/-- Where the thread of the worker is: in `epoll_wait`, in the loop of `wait` over the events, before
    `handle_worker_commands`, in `handle_pending`, in the loop over the events, or at the end. -/
inductive Phase where
  | waiting
  | scanning (events : List ReadyEvent) (i valid : Nat)
  | workerCommands (events : List ReadyEvent)
  | pending (events : List ReadyEvent)
  | running (events : List ReadyEvent)
  | stopped
  deriving DecidableEq, Repr

/-- Between the last read of the interruptor and the next `epoll_wait`, behind `handle_worker_commands` -/
def Phase.Drained : Phase → Prop
  | .pending _ | .running _ | .waiting => True
  | _ => False

/-- A worker and the threads that use it: `owed` pushes have not called `wake_event` yet. The events of connections that
    `epoll_wait` has returned, and those that `run` was called for, are recorded. -/
structure WorkerLoop (Cmd : Type) where
  queue : CommandQueue Cmd := {}
  workerCmds : List WorkerCommand := []
  counter : Nat := 0
  owed : Nat := 0
  stopRequested : Bool := false
  phase : Phase := .waiting
  reported : List ReadyEvent := []
  handled : List ReadyEvent := []

/-- The moves of any thread, and those of the thread of the worker. `epollWait` returns no event at the end of the time,
    and `scan` gets the `errno` of a read that takes nothing. -/
inductive LoopMove (Cmd : Type) where
  | pushCommand (cmd : Option Cmd)
  | pushCommands (cmds : List (Option Cmd))
  | commandWorker (cmd : WorkerCommand)
  | wakeEvent
  | epollWait (events : List ReadyEvent)
  | scan (errno : Errc)
  | handleWorkerCommands
  | advance
  | runEvent

/-- What a thread pushes with a move -/
def LoopMove.pushes {Cmd : Type} : LoopMove Cmd → List (List (Option Cmd))
  | .pushCommand cmd => [[cmd]]
  | .pushCommands cmds => [cmds]
  | _ => []

/-- The pushes of a run, in their order -/
def LoopMove.pushesOf {Cmd : Type} (moves : List (LoopMove Cmd)) : List (List (Option Cmd)) :=
  moves.flatMap LoopMove.pushes

namespace WorkerLoop
variable {Cmd : Type} {s : WorkerLoop Cmd}

/-- The greatest count of an `eventfd` -/
def counterMax : Nat := 2 ^ 64 - 2

/-- The interruptor does not block: a write that would pass the greatest count is refused. -/
def interrupt (s : WorkerLoop Cmd) : WorkerLoop Cmd :=
  { s with counter := if s.counter < counterMax then s.counter + 1 else s.counter }

/-- `wake_event` of a push that has not called it yet -/
def wakeEvent (s : WorkerLoop Cmd) : WorkerLoop Cmd :=
  match s.owed with
  | 0 => s
  | owed + 1 => { s with owed }.interrupt

/-- `push_command`, before the interruptor is woken -/
def pushCommand (cmd : Option Cmd) (s : WorkerLoop Cmd) : WorkerLoop Cmd :=
  { s with queue := s.queue.pushCommand cmd, owed := s.owed + 1 }

/-- `push_commands`, before the interruptor is woken -/
def pushCommands (cmds : List (Option Cmd)) (s : WorkerLoop Cmd) : WorkerLoop Cmd :=
  if cmds.isEmpty then s else { s with queue := s.queue.pushCommands cmds, owed := s.owed + 1 }

/-- `command_worker`, before the interruptor is woken -/
def commandWorker (cmd : WorkerCommand) (s : WorkerLoop Cmd) : WorkerLoop Cmd :=
  { s with workerCmds := s.workerCmds ++ [cmd], owed := s.owed + 1 }

/-- `epoll_wait` returns with events. -/
def epollWait (events : List ReadyEvent) (s : WorkerLoop Cmd) : WorkerLoop Cmd :=
  match s.phase with
  | .waiting =>
    { s with phase := .scanning events 0 0, reported := s.reported ++ events.filter (·.OfConnection) }
  | _ => s

/-- One read of the interruptor, or one other round of the loop of `wait`, which moves the events of the sockets to the
    front of the array. A read sets the count to zero, and is repeated until it takes nothing. -/
def scan (errno : Errc) (s : WorkerLoop Cmd) : WorkerLoop Cmd :=
  match s.phase with
  | .scanning events i valid =>
    match events[i]? with
    | none => { s with phase := .workerCommands (events.take valid) }
    | some ev =>
      if ev.data = siCtrl then
        if 0 < s.counter then { s with counter := 0 }
        else if errno ≠ .resourceUnavailableTryAgain then { s with phase := .workerCommands [] }
        else { s with phase := .scanning events (i + 1) valid }
      else { s with phase := .scanning (events.set valid ev) (i + 1) (valid + 1) }
  | _ => s

/-- `stop`, without what it asks of the processes -/
def stop (s : WorkerLoop Cmd) : WorkerLoop Cmd := { s with stopRequested := true }.interrupt

/-- What follows `handle_worker_commands` -/
def proceed (events : List ReadyEvent) (s : WorkerLoop Cmd) : WorkerLoop Cmd :=
  if s.stopRequested then { s with phase := .stopped }
  else { s with phase := .pending events, queue := s.queue.step .handlePending }

/-- One command at most is taken. -/
def handleWorkerCommands (s : WorkerLoop Cmd) : WorkerLoop Cmd :=
  match s.phase with
  | .workerCommands events =>
    match s.workerCmds with
    | [] => s.proceed events
    | .none :: workerCmds => { s with workerCmds }.proceed events
    | .stop :: workerCmds => { s with workerCmds }.stop.proceed events
  | _ => s

/-- One round of one of the loops of `handle_pending` -/
def advance (s : WorkerLoop Cmd) : WorkerLoop Cmd :=
  match s.phase with
  | .pending events =>
    match s.queue.advance.pass with
    | .outside => { s with queue := s.queue.advance, phase := .running events }
    | _ => { s with queue := s.queue.advance }
  | _ => s

/-- The next event is handled, or the round ends. -/
def runEvent (s : WorkerLoop Cmd) : WorkerLoop Cmd :=
  match s.phase with
  | .running (ev :: events) => { s with phase := .running events, handled := s.handled ++ [ev] }
  | .running [] => { s with phase := if s.stopRequested then .stopped else .waiting }
  | _ => s

/-- A move of the loop, or of a thread that pushes -/
def step (s : WorkerLoop Cmd) : LoopMove Cmd → WorkerLoop Cmd
  | .pushCommand cmd => s.pushCommand cmd
  | .pushCommands cmds => s.pushCommands cmds
  | .commandWorker cmd => s.commandWorker cmd
  | .wakeEvent => s.wakeEvent
  | .epollWait events => s.epollWait events
  | .scan errno => s.scan errno
  | .handleWorkerCommands => s.handleWorkerCommands
  | .advance => s.advance
  | .runEvent => s.runEvent

/-! ## Wake-ups -/

/-- The worker is in `epoll_wait`, nothing has been written to the interruptor, and no push is under way. -/
structure Asleep (s : WorkerLoop Cmd) : Prop where
  waiting : s.phase = .waiting
  unwritten : s.counter = 0
  settled : s.owed = 0

/-- The queue is empty, every command of the pushes has been executed, in order, and none is left for the worker
    itself. -/
structure Finished (pushes : List (List (Option Cmd))) (s : WorkerLoop Cmd) : Prop where
  empty : s.queue.cmds = []
  executed : s.queue.executed = commandsOf pushes
  workerCmds : s.workerCmds = []

/-- The extraction does not come to a null command, and the worker is only told to stop. -/
def Regular (s : WorkerLoop Cmd) : LoopMove Cmd → Prop
  | .advance => s.queue.FindsNoNull .advance
  | .commandWorker cmd => cmd = .stop
  | _ => True

/-- The worker will be woken. -/
def Signalled (s : WorkerLoop Cmd) : Prop := 0 < s.counter ∨ 0 < s.owed

/-- What a worker has not seen once it has read the interruptor is signalled again. -/
structure Alert (s : WorkerLoop Cmd) : Prop where
  outside : (∀ events, s.phase ≠ .pending events) → s.queue.pass = .outside
  stops : ∀ cmd ∈ s.workerCmds, cmd = .stop
  commands : s.phase.Drained → (∀ cmds, s.queue.pass ≠ .extracting cmds) → s.queue.cmds ≠ [] → s.Signalled
  workers : s.phase.Drained → s.workerCmds ≠ [] → s.Signalled

/-- An interrupt is counted. -/
lemma interrupt_counter (s : WorkerLoop Cmd) : 0 < s.interrupt.counter := by
  unfold interrupt
  dsimp only
  split
  · exact Nat.succ_pos _
  · rename_i full
    have most : counterMax ≤ s.counter := Nat.le_of_not_lt full
    exact Nat.lt_of_lt_of_le (by decide) most

/-- Whatever is pushed signals itself. -/
lemma Alert.push (alert : s.Alert) (cmds : List (Option Cmd)) :
    Alert { s with
      queue := { s.queue with cmds := s.queue.cmds ++ cmds }
      owed := s.owed + 1 } := by
  have signalled : 0 < s.owed + 1 := Nat.succ_pos _
  exact ⟨alert.outside, alert.stops, fun _ _ _ => .inr signalled, fun _ _ => .inr signalled⟩

/-- A push owes a wake-up. -/
lemma Alert.pushCommands (alert : s.Alert) (cmds : List (Option Cmd)) : (s.pushCommands cmds).Alert := by
  unfold WorkerLoop.pushCommands CommandQueue.pushCommands
  split
  · exact alert
  · exact alert.push cmds

/-- A command to stop owes a wake-up. -/
lemma Alert.commandWorker (alert : s.Alert) : (s.commandWorker .stop).Alert := by
  have signalled : 0 < s.owed + 1 := Nat.succ_pos _
  refine ⟨alert.outside, ?_, fun _ _ _ => .inr signalled, fun _ _ => .inr signalled⟩
  intro cmd mem
  cases List.mem_append.1 mem with
  | inl old => exact alert.stops cmd old
  | inr new => exact List.mem_singleton.1 new

/-- A push that is under way becomes a count of the interruptor. -/
lemma Alert.wakeEvent (alert : s.Alert) : s.wakeEvent.Alert := by
  unfold WorkerLoop.wakeEvent
  cases owed : s.owed with
  | zero => exact alert
  | succ n =>
    have signalled := interrupt_counter { s with owed := n }
    exact ⟨alert.outside, alert.stops, fun _ _ _ => .inl signalled, fun _ _ => .inl signalled⟩

/-- Before the interruptor is read for the last time, nothing is asked of the counts. -/
lemma Alert.undrained {t : WorkerLoop Cmd} (alert : s.Alert) (queue : t.queue = s.queue)
    (workerCmds : t.workerCmds = s.workerCmds) (before : ∀ events, s.phase ≠ .pending events)
    (undrained : ¬ t.phase.Drained) : t.Alert := by
  refine ⟨fun _ => queue ▸ alert.outside before, workerCmds ▸ alert.stops, ?_, ?_⟩
  · exact fun drained => absurd drained undrained
  · exact fun drained => absurd drained undrained

/-- Events that are returned keep it alert. -/
lemma Alert.epollWait (alert : s.Alert) (events : List ReadyEvent) : (s.epollWait events).Alert := by
  unfold WorkerLoop.epollWait
  cases phase : s.phase with
  | waiting => exact alert.undrained rfl rfl (by rw [phase]; nofun) id
  | _ => exact alert

/-- What a round of the loop of `wait` changes -/
lemma scan_cases (errno : Errc) (s : WorkerLoop Cmd) :
    s.scan errno = s ∨
      (∃ events i valid, s.phase = .scanning events i valid) ∧
        ((∃ events i valid, (s.scan errno).phase = .scanning events i valid) ∨
          ∃ events, (s.scan errno).phase = .workerCommands events) ∧
        (s.scan errno).queue = s.queue ∧ (s.scan errno).workerCmds = s.workerCmds := by
  unfold scan
  cases phase : s.phase with
  | scanning events i valid =>
    right
    refine ⟨⟨events, i, valid, rfl⟩, ?_⟩
    dsimp only
    cases events[i]? with
    | none => exact ⟨.inr ⟨_, rfl⟩, rfl, rfl⟩
    | some ev =>
      dsimp only
      split_ifs
      · exact ⟨.inl ⟨_, _, _, rfl⟩, rfl, rfl⟩
      · exact ⟨.inr ⟨_, rfl⟩, rfl, rfl⟩
      · exact ⟨.inl ⟨_, _, _, rfl⟩, rfl, rfl⟩
      · exact ⟨.inl ⟨_, _, _, rfl⟩, rfl, rfl⟩
  | _ => exact .inl rfl

/-- Looking at an event keeps it alert. -/
lemma Alert.scan (alert : s.Alert) (errno : Errc) : (s.scan errno).Alert := by
  rcases s.scan_cases errno with same | ⟨⟨events, i, valid, phase⟩, after, queue, workerCmds⟩
  · rw [same]
    exact alert
  · refine alert.undrained queue workerCmds (by rw [phase]; nofun) ?_
    rcases after with ⟨_, _, _, after⟩ | ⟨_, after⟩
    · rw [after]
      exact id
    · rw [after]
      exact id

/-- A pass of `handle_pending` begins, or the loop ends. -/
lemma Alert.proceed (alert : s.Alert) (before : ∀ events, s.phase ≠ .pending events)
    (all : s.stopRequested = false → s.workerCmds = []) (events : List ReadyEvent) : (s.proceed events).Alert := by
  have outside := alert.outside before
  unfold WorkerLoop.proceed
  cases stopped : s.stopRequested with
  | true => exact ⟨fun _ => outside, alert.stops, nofun, nofun⟩
  | false =>
    have begun : (s.queue.step .handlePending).pass = .extracting [] := by
      unfold CommandQueue.step
      rw [outside]
    refine ⟨fun away => absurd rfl (away events), alert.stops, ?_, ?_⟩
    · exact fun _ passed => absurd begun (passed _)
    · exact fun _ some => absurd (all stopped) some

/-- The worker takes a single command, which is to stop. -/
lemma Alert.handleWorkerCommands (alert : s.Alert) : s.handleWorkerCommands.Alert := by
  unfold WorkerLoop.handleWorkerCommands
  cases phase : s.phase with
  | workerCommands events =>
    have before : ∀ events, s.phase ≠ .pending events := by
      rw [phase]
      nofun
    cases queued : s.workerCmds with
    | nil => exact alert.proceed before (fun _ => queued) events
    | cons cmd workerCmds =>
      obtain rfl := alert.stops cmd (queued ▸ List.mem_cons_self)
      have rest : ∀ cmd ∈ workerCmds, cmd = .stop := fun cmd mem =>
        alert.stops cmd (queued ▸ List.mem_cons_of_mem _ mem)
      have taken : Alert { s with workerCmds, phase := .workerCommands events } :=
        ⟨fun _ => alert.outside before, rest, nofun, nofun⟩
      have stopped : Alert { s with workerCmds, phase := .workerCommands events }.stop :=
        taken.undrained rfl rfl nofun id
      have after := stopped.proceed nofun nofun events
      rw [show s = { s with phase := .workerCommands events } by rw [← phase]]
      exact after
  | _ => exact alert

/-- A turn of the extraction keeps it alert. -/
lemma Alert.advance (alert : s.Alert) (finds : s.queue.FindsNoNull .advance) : s.advance.Alert := by
  unfold WorkerLoop.advance
  cases phase : s.phase with
  | pending events =>
    have drained : s.phase.Drained := by
      rw [phase]
      trivial
    have commands : (∀ cmds, s.queue.advance.pass ≠ .extracting cmds) → s.queue.advance.cmds ≠ [] → s.Signalled := by
      intro passed some
      obtain ⟨-, same⟩ | ⟨cmds, pass, queue, same⟩ | ⟨cmds, rest, pass, queue, same⟩ |
        ⟨cmds, cmd, rest, pass, queue, same⟩ | ⟨cmd, cmds, pass, same⟩ | ⟨pass, same⟩ := s.queue.advance_cases
      · rw [same] at passed some
        exact alert.commands drained passed some
      -- the extraction ends where the queue is empty
      · rw [same] at some
        exact absurd queue some
      · exact absurd (congrArg List.head? queue) (finds cmds pass)
      · rw [same] at passed
        exact absurd rfl (passed _)
      · rw [same] at some
        exact alert.commands drained (by rw [pass]; nofun) some
      · rw [same] at some
        exact alert.commands drained (by rw [pass]; nofun) some
    cases pass : s.queue.advance.pass with
    | outside =>
      exact ⟨fun _ => pass, alert.stops, fun _ => commands, fun _ => alert.workers drained⟩
    | _ =>
      exact ⟨fun away => absurd rfl (away events), alert.stops, fun _ => commands,
        fun _ => alert.workers drained⟩
  | _ => exact alert

/-- Handling an event keeps it alert. -/
lemma Alert.runEvent (alert : s.Alert) : s.runEvent.Alert := by
  unfold WorkerLoop.runEvent
  cases phase : s.phase with
  | running events =>
    have drained : s.phase.Drained := by
      rw [phase]
      trivial
    have outside := alert.outside (by rw [phase]; nofun)
    cases events with
    | nil =>
      exact ⟨fun _ => outside, alert.stops, fun _ => alert.commands drained,
        fun _ => alert.workers drained⟩
    | cons ev events =>
      exact ⟨fun _ => outside, alert.stops, fun _ => alert.commands drained,
        fun _ => alert.workers drained⟩
  | _ => exact alert

/-- Every regular move keeps it alert. -/
lemma Alert.step (alert : s.Alert) {move : LoopMove Cmd} (regular : s.Regular move) : (s.step move).Alert := by
  cases move with
  | pushCommand cmd => exact alert.push [cmd]
  | pushCommands cmds => exact alert.pushCommands cmds
  | commandWorker cmd =>
    obtain rfl : cmd = .stop := regular
    exact alert.commandWorker
  | wakeEvent => exact alert.wakeEvent
  | epollWait events => exact alert.epollWait events
  | scan errno => exact alert.scan errno
  | handleWorkerCommands => exact alert.handleWorkerCommands
  | advance => exact alert.advance regular
  | runEvent => exact alert.runEvent

/-- The queue of a step, by the commands of it -/
lemma commands_step (s : WorkerLoop Cmd) (move : LoopMove Cmd) :
    (s.step move).queue.commands = s.queue.commands ++ commandsOf move.pushes := by
  have kept {q : CommandQueue Cmd} (same : q.commands = s.queue.commands) :
      q.commands = s.queue.commands ++ commandsOf [] := same.trans (List.append_nil _).symm
  cases move with
  | pushCommand cmd => exact s.queue.commands_step (.pushCommand cmd)
  | pushCommands cmds =>
    have pushed := s.queue.commands_step (.pushCommands cmds)
    unfold WorkerLoop.step WorkerLoop.pushCommands
    dsimp only
    split
    case isTrue empty =>
      rw [CommandQueue.step, CommandQueue.pushCommands, if_pos empty] at pushed
      exact pushed
    case isFalse => exact pushed
  | commandWorker cmd => exact kept rfl
  | wakeEvent =>
    refine kept ?_
    unfold WorkerLoop.step wakeEvent
    cases s.owed with
    | _ => rfl
  | epollWait events =>
    refine kept ?_
    unfold WorkerLoop.step epollWait
    cases s.phase with
    | _ => rfl
  | scan errno =>
    refine kept ?_
    rcases s.scan_cases errno with same | ⟨-, -, queue, -⟩
    · exact congrArg (·.queue.commands) same
    · exact congrArg CommandQueue.commands queue
  | handleWorkerCommands =>
    have proceeds (t : WorkerLoop Cmd) (same : t.queue = s.queue) (events : List ReadyEvent) :
        (t.proceed events).queue.commands = s.queue.commands := by
      unfold proceed
      split
      · exact congrArg CommandQueue.commands same
      · exact (congrArg (fun q => (q.step .handlePending).commands) same).trans s.queue.commands_handlePending
    refine kept ?_
    unfold WorkerLoop.step handleWorkerCommands
    cases s.phase with
    | workerCommands events =>
      rcases s.workerCmds with _ | ⟨_ | _, workerCmds⟩
      · exact proceeds s rfl events
      · refine proceeds _ ?_ events
        rfl
      · refine proceeds _ ?_ events
        rfl
    | _ => rfl
  | advance =>
    refine kept ?_
    unfold WorkerLoop.step WorkerLoop.advance
    cases s.phase with
    | pending events =>
      dsimp only
      split
      · exact s.queue.commands_advance
      · exact s.queue.commands_advance
    | _ => rfl
  | runEvent =>
    refine kept ?_
    unfold WorkerLoop.step WorkerLoop.runEvent
    rcases s.phase with _ | _ | _ | _ | (_ | _) | _
    all_goals rfl

/-- The commands of a run, by its pushes -/
lemma commands_run (s : WorkerLoop Cmd) (moves : List (LoopMove Cmd)) :
    (run step s moves).queue.commands = s.queue.commands ++ commandsOf (LoopMove.pushesOf moves) := by
  induction moves generalizing s with
  | nil => exact (List.append_nil _).symm
  | cons move moves ih =>
    rw [run_cons, ih, commands_step, List.append_assoc, ← CommandQueue.commandsOf_append]
    rfl

/-- A worker that sleeps has nothing left to do. -/
lemma Alert.finished {pushes : List (List (Option Cmd))} (alert : s.Alert) (asleep : s.Asleep)
    (all : s.queue.commands = commandsOf pushes) : s.Finished pushes := by
  have drained : s.phase.Drained := by
    rw [asleep.waiting]
    trivial
  have outside : s.queue.pass = .outside := alert.outside (by rw [asleep.waiting]; nofun)
  have unsignalled : ¬ s.Signalled := by
    rintro (written | underWay)
    · exact absurd asleep.unwritten (Nat.ne_of_gt written)
    · exact absurd asleep.settled (Nat.ne_of_gt underWay)
  have empty : s.queue.cmds = [] := by
    by_contra some
    exact unsignalled (alert.commands drained (by rw [outside]; nofun) some)
  have none : s.workerCmds = [] := by
    by_contra some
    exact unsignalled (alert.workers drained some)
  refine ⟨empty, ?_, none⟩
  unfold CommandQueue.commands CommandQueue.extracted at all
  rwa [outside, empty, List.reduceOption_nil, List.append_nil, List.append_nil] at all

/-- No wake-up is lost: in every run, where the worker sleeps and no push is under way, the queue is empty, all commands
    that were ever pushed have been executed in their order, and the worker has not been told to stop. -/
theorem run_asleep {moves : List (LoopMove Cmd)} (regular : Guarded step Regular ({} : WorkerLoop Cmd) moves)
    (asleep : (run step ({} : WorkerLoop Cmd) moves).Asleep) :
    (run step ({} : WorkerLoop Cmd) moves).Finished (LoopMove.pushesOf moves) := by
  have start : Alert ({} : WorkerLoop Cmd) := ⟨fun _ => rfl, nofun, fun _ _ none => absurd rfl none,
    fun _ none => absurd rfl none⟩
  have alert := (always_of_guarded (fun _ _ alert regular => alert.step regular) start regular).last
  exact alert.finished asleep (commands_run {} moves)

/-- A command is pushed, and another one while the first one is executed; then the worker reads the interruptor for the
    second one, finds nothing and sleeps. -/
theorem run_asleep_pushed_between :
    let moves : List (LoopMove Nat) :=
      [.pushCommand (some 1), .wakeEvent, .epollWait [⟨.In, siCtrl⟩], .scan .resourceUnavailableTryAgain,
        .scan .resourceUnavailableTryAgain, .scan .resourceUnavailableTryAgain, .handleWorkerCommands, .advance,
        .pushCommand (some 2), .advance, .wakeEvent, .advance, .advance, .advance, .advance, .advance, .runEvent,
        .epollWait [⟨.In, siCtrl⟩], .scan .resourceUnavailableTryAgain, .scan .resourceUnavailableTryAgain,
        .scan .resourceUnavailableTryAgain, .handleWorkerCommands, .advance, .advance, .runEvent]
    Finished [[some 1], [some 2]] (run step ({} : WorkerLoop Nat) moves) := by
  intro moves
  have asleep : Asleep (run step ({} : WorkerLoop Nat) moves) := ⟨rfl, rfl, rfl⟩
  refine run_asleep ?_ asleep
  simp only [moves, Guarded, Regular, CommandQueue.FindsNoNull, true_and, and_true]
  refine ⟨fun _ _ => ?_, fun _ _ => ?_, fun _ _ => ?_, fun _ _ => ?_, fun _ _ => ?_, fun _ _ => ?_, fun _ _ => ?_,
    fun _ _ => ?_, fun _ _ => ?_⟩
  all_goals decide

/-! ## Events -/

/-- The descriptors that are tracked are the interruptor and those of the connections, and a read of the interruptor
    that takes nothing ends with `EAGAIN`. -/
def Legal (_ : WorkerLoop Cmd) : LoopMove Cmd → Prop
  | .epollWait events => ∀ ev ∈ events, ev.data = siCtrl ∨ ev.OfConnection
  | .scan errno => errno = .resourceUnavailableTryAgain
  | _ => True

/-- The events that were handled are the first ones that were reported, in order, and in `epoll_wait` none is left. -/
structure Delivered (s : WorkerLoop Cmd) : Prop where
  inOrder : s.handled <+: s.reported
  all : s.phase = .waiting → s.handled = s.reported

/-- What is left of the reported events, by the place where the worker is. -/
def Hands (s : WorkerLoop Cmd) : Prop :=
  match s.phase with
  | .waiting => s.handled = s.reported
  | .scanning events i valid => ∃ ready, Compacting (fun ev => decide ev.OfConnection) ready events i valid ∧
      (∀ ev ∈ ready, ev.data = siCtrl ∨ ev.OfConnection) ∧
      s.handled ++ ready.filter (·.OfConnection) = s.reported
  | .workerCommands events | .pending events | .running events => s.handled ++ events = s.reported
  | .stopped => s.handled <+: s.reported

/-- The events of connections are delivered. -/
lemma Hands.delivered (hands : s.Hands) : s.Delivered := by
  unfold Hands at hands
  cases phase : s.phase with
  | waiting =>
    rw [phase] at hands
    exact ⟨hands ▸ List.prefix_rfl, fun _ => hands⟩
  | scanning events i valid =>
    rw [phase] at hands
    obtain ⟨ready, -, -, same⟩ := hands
    exact ⟨⟨_, same⟩, by rw [phase]; nofun⟩
  | stopped =>
    rw [phase] at hands
    exact ⟨hands, by rw [phase]; nofun⟩
  | _ =>
    rw [phase] at hands
    exact ⟨⟨_, hands⟩, by rw [phase]; nofun⟩

/-- A step that leaves the place and the events alone -/
lemma Hands.of_same {t : WorkerLoop Cmd} (hands : s.Hands) (phase : t.phase = s.phase) (handled : t.handled = s.handled)
    (reported : t.reported = s.reported) : t.Hands := by
  unfold Hands at hands ⊢
  rw [phase, handled, reported]
  exact hands

/-- Reported events are to be handed on. -/
lemma Hands.epollWait (hands : s.Hands) {events : List ReadyEvent}
    (legal : ∀ ev ∈ events, ev.data = siCtrl ∨ ev.OfConnection) : (s.epollWait events).Hands := by
  unfold WorkerLoop.epollWait
  cases phase : s.phase with
  | waiting =>
    unfold Hands at hands
    rw [phase] at hands
    refine ⟨events, .start _ events, legal, ?_⟩
    dsimp only
    rw [hands]
  | _ => exact hands

/-- The interruptor's user data are not those of a connection. -/
lemma not_ofConnection {ev : ReadyEvent} (same : ev.data = siCtrl) : decide ev.OfConnection = false := by
  rw [decide_eq_false_iff_not]
  unfold ReadyEvent.OfConnection
  rw [same]
  decide

/-- An event is kept for its connection, or was the interruptor's. -/
lemma Hands.scan (hands : s.Hands) : (s.scan .resourceUnavailableTryAgain).Hands := by
  cases phase : s.phase with
  | scanning events i valid =>
    have before := hands
    unfold Hands at hands
    rw [phase] at hands
    obtain ⟨ready, inv, legal, same⟩ := hands
    unfold WorkerLoop.scan
    rw [phase]
    dsimp only
    cases item : events[i]? with
    | none =>
      unfold Hands
      dsimp only
      rw [inv.done item]
      exact same
    | some ev =>
      dsimp only
      by_cases interruptor : ev.data = siCtrl
      · rw [if_pos interruptor]
        by_cases written : 0 < s.counter
        · rw [if_pos written]
          exact before.of_same phase.symm rfl rfl
        · rw [if_neg written, if_neg (not_not_intro rfl)]
          exact ⟨ready, inv.skipped item (not_ofConnection interruptor), legal, same⟩
      · rw [if_neg interruptor]
        have listed : ev ∈ ready := List.mem_of_getElem? (inv.getElem?_eq ▸ item)
        have keeps := decide_eq_true ((legal ev listed).resolve_left interruptor)
        exact ⟨ready, inv.kept item keeps, legal, same⟩
  | _ =>
    unfold WorkerLoop.scan
    rw [phase]
    exact hands

/-- The events that were kept are handed on. -/
lemma Hands.proceed {events : List ReadyEvent} (all : s.handled ++ events = s.reported) : (s.proceed events).Hands := by
  unfold WorkerLoop.proceed
  split
  · exact ⟨events, all⟩
  · exact all

/-- Worker commands hand on nothing. -/
lemma Hands.handleWorkerCommands (hands : s.Hands) : s.handleWorkerCommands.Hands := by
  unfold WorkerLoop.handleWorkerCommands
  cases phase : s.phase with
  | workerCommands events =>
    unfold Hands at hands
    rw [phase] at hands
    have all : s.handled ++ events = s.reported := hands
    rcases s.workerCmds with _ | ⟨_ | _, workerCmds⟩
    · exact .proceed all
    · exact .proceed all
    · exact .proceed all
  | _ => exact hands

/-- The extraction hands on nothing. -/
lemma Hands.advance (hands : s.Hands) : s.advance.Hands := by
  unfold WorkerLoop.advance
  cases phase : s.phase with
  | pending events =>
    have before := hands
    unfold Hands at hands
    rw [phase] at hands
    cases s.queue.advance.pass with
    | outside => exact hands
    | _ => exact before.of_same phase.symm rfl rfl
  | _ => exact hands

/-- The first event is handed on. -/
lemma Hands.runEvent (hands : s.Hands) : s.runEvent.Hands := by
  unfold WorkerLoop.runEvent
  cases phase : s.phase with
  | running events =>
    unfold Hands at hands
    rw [phase] at hands
    cases events with
    | nil =>
      have hands : s.handled = s.reported := (List.append_nil _).symm.trans hands
      cases s.stopRequested with
      | true => exact hands ▸ List.prefix_rfl
      | false => exact hands
    | cons ev events =>
      unfold Hands
      dsimp only
      rw [List.append_assoc, List.singleton_append]
      exact hands
  | _ => exact hands

/-- Every legal move hands events on in their order. -/
lemma Hands.step (hands : s.Hands) {move : LoopMove Cmd} (legal : s.Legal move) : (s.step move).Hands := by
  cases move with
  | pushCommand cmd => exact hands.of_same rfl rfl rfl
  | pushCommands cmds =>
    unfold WorkerLoop.step pushCommands
    dsimp only
    split
    · exact hands
    · exact hands.of_same rfl rfl rfl
  | commandWorker cmd => exact hands.of_same rfl rfl rfl
  | wakeEvent =>
    unfold WorkerLoop.step wakeEvent
    cases s.owed with
    | zero => exact hands
    | succ n => exact hands.of_same rfl rfl rfl
  | epollWait events => exact hands.epollWait legal
  | scan errno =>
    obtain rfl : errno = .resourceUnavailableTryAgain := legal
    exact hands.scan
  | handleWorkerCommands => exact hands.handleWorkerCommands
  | advance => exact hands.advance
  | runEvent => exact hands.runEvent

/-- In every run, the events of the connections are handed to `run` in the order in which `epoll_wait` reports them,
    each once, and all of them before the worker waits again; those of the interruptor are not. -/
theorem run_delivers {moves : List (LoopMove Cmd)} (legal : Guarded step Legal ({} : WorkerLoop Cmd) moves) :
    Always step Delivered ({} : WorkerLoop Cmd) moves := by
  have start : Hands ({} : WorkerLoop Cmd) := rfl
  exact (always_of_guarded (fun _ _ hands legal => hands.step legal) start legal).imp fun _ hands => hands.delivered

/-- The interruptor is reported between two connections, the upper half of whose user data is arbitrary. -/
theorem run_delivers_between :
    let first : ReadyEvent := ⟨.In, 0x100000007⟩
    let second : ReadyEvent := ⟨.Out, 8⟩
    let moves : List (LoopMove Nat) :=
      [.epollWait [first, ⟨.In, siCtrl⟩, second], .scan .resourceUnavailableTryAgain, .wakeEvent,
        .scan .resourceUnavailableTryAgain, .scan .resourceUnavailableTryAgain, .scan .resourceUnavailableTryAgain,
        .handleWorkerCommands, .advance, .advance, .runEvent, .runEvent, .runEvent]
    (run step ({} : WorkerLoop Nat) moves).handled = [first, second] ∧
      Always step Delivered ({} : WorkerLoop Nat) moves := by
  intro first second moves
  refine ⟨by decide, run_delivers ?_⟩
  simp only [moves, Guarded, Legal, and_true]
  decide

end WorkerLoop
end OsterLib.Network
