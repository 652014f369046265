import OsterLib.Network.EventMask

/-!
# The life of an asynchronous connect

A connection whose `::connect` returned `EINPROGRESS` waits for `Event::Out`, and a process is attached
to it by a command that may be executed before or after that event. `Legal` says that no operation of
the run reports an error, `Proper` is what the connection should look like, and `Stage` lists the stages
it goes through when the process comes second.

If `addConnectionProcessInternal` finds the connection still connecting, it tells the process of a
connection that is not there yet, and takes `Out` out of the mask. A run is `Proper` all along exactly
if that does not happen (`proper_iff_attachedLater`).
-/

namespace OsterLib.Network
open OsterLib.Lib

/-- One connection of a worker, with what happened to it. -/
structure LifeCycle where
  worker : Worker := {}
  /-- An event turned the connection from connecting to active. -/
  completed : Bool := false
  /-- The process that `AttachProcess` brought. -/
  attached : Option Nat := none

/-- What happens to a connection from its command to its events -/
inductive Progress where
  | addConnection (socket : Socket) (env : Worker.ConnectEnv) (err : ErrorCode)
  | attachProcess (proc : Nat) (env : Worker.AttachEnv) (err : ErrorCode)
  | ready (events : Event) (env : Worker.RunEnv) (err : ErrorCode)

namespace LifeCycle
open Worker

/-- The state of the connection -/
def stateOf (w : Worker) (id : ConnectionId) : Option State :=
  (w.connections id).map (·.state)

/-- The connection progresses. -/
def step (id : ConnectionId) (l : LifeCycle) : Progress → LifeCycle
  | .addConnection socket env err =>
    { l with worker := (l.worker.connectInternal id true socket env err).1 }
  | .attachProcess proc env err =>
    { l with
      worker := (l.worker.addConnectionProcessInternal id proc env err).1
      attached := some proc }
  | .ready events env err =>
    let worker := (l.worker.run id events env err).1
    { l with
      worker
      completed := l.completed ||
        (stateOf l.worker id == some .connecting && stateOf worker id == some .active) }

/-- The connection is added once, before anything else happens to it, and one process is attached. No
    operation reports an error: the calls of the kernel, the hooks and the handlers succeed, and the
    events are `In` and `Out`. -/
def Legal (id : ConnectionId) (l : LifeCycle) : Progress → Prop
  | .addConnection socket env _ =>
    l.worker.connections id = none ∧ socket.isOpen = true ∧ env.setNoBlock = none ∧
      env.add.res = none ∧ env.connect = some .operationInProgress ∧ env.modify.res = none
  | .attachProcess _ env _ =>
    (l.worker.connections id).isSome = true ∧ l.attached = none ∧ env.ctl.res = none ∧
      (env.afterAdd none).isSet = false ∧ env.onInit.err.isSet = false
  | .ready events env _ =>
    (l.worker.connections id).isSome = true ∧ events.has .CanReadButHangUp = false ∧
      events.has .Error = false ∧ events.has .HangUp = false ∧ env.sockError = none ∧
      env.ctl.res = none ∧ env.onInit.err.isSet = false ∧ env.handleEvent.err.isSet = false

/-- While the connection is connecting it waits for `Out`. -/
def WaitsForOut (id : ConnectionId) (l : LifeCycle) : Prop :=
  ∀ conn, l.worker.connections id = some conn → conn.state = .connecting →
    ∃ mask, conn.socket.interest = some mask ∧ mask.has .Out = true

/-- `on_init_connection` is called at most once, and on an active connection. -/
def ToldOnce (l : LifeCycle) : Prop :=
  l.worker.initCalls.length ≤ 1 ∧ ∀ call ∈ l.worker.initCalls, call.2 = .active

/-- Once the connect is completed and a process is attached, the connection works with it. -/
def Works (id : ConnectionId) (l : LifeCycle) : Prop :=
  ∀ proc, l.completed = true → l.attached = some proc →
    (∃ conn, l.worker.connections id = some conn ∧ conn.state = .active ∧
      conn.proc = some proc ∧ conn.connIO = true) ∧
    .removeConnection id ∉ l.worker.cmds ∧ l.worker.initCalls = [(id, .active)]

/-- The process waits for the connection, is told of it once, and then works. -/
structure Proper (id : ConnectionId) (l : LifeCycle) : Prop where
  waits : l.WaitsForOut id
  told : l.ToldOnce
  works : l.Works id

/-- A process is not attached to a connection that is still connecting. -/
def AttachedLater (id : ConnectionId) (l : LifeCycle) : Progress → Prop
  | .attachProcess .. => stateOf l.worker id ≠ some .connecting
  | _ => True

/-! ## Handlers and the rest of the state -/

/-- The two connections differ at most in their masks. -/
structure SameButMasks (a b : ConnectionState) : Prop where
  state : b.state = a.state
  proc : b.proc = a.proc
  connIO : b.connIO = a.connIO
  isOpen : b.socket.isOpen = a.socket.isOpen

/-- `w'` differs from `w` at most in the masks of the connection `conn`. -/
structure Untouched (id : ConnectionId) (conn : ConnectionState) (w w' : Worker) : Prop where
  found : ∃ conn', w'.connections id = some conn' ∧ SameButMasks conn conn'
  epoll : w'.epoll = w.epoll
  stopRequested : w'.stopRequested = w.stopRequested
  cmds : w'.cmds = w.cmds
  initCalls : w'.initCalls = w.initCalls

/-- Nothing was touched. -/
lemma Untouched.refl {id : ConnectionId} {conn : ConnectionState} {w : Worker}
    (found : w.connections id = some conn) : Untouched id conn w w :=
  ⟨⟨conn, found, ⟨rfl, rfl, rfl, rfl⟩⟩, rfl, rfl, rfl, rfl⟩

/-- Enabling events leaves the state and the process. -/
lemma Untouched.enableCall {id : ConnectionId} {conn : ConnectionState} {w w' : Worker}
    (same : Untouched id conn w w') (call : EnableCall) :
    Untouched id conn w (Worker.enableCall id w' call) := by
  obtain ⟨conn', found, masks⟩ := same.found
  unfold Worker.enableCall enableFlag
  simp only [found]
  split
  · generalize (if call.enable = true then conn'.eventsHandled ||| call.flag
      else conn'.eventsHandled &&& ~~~call.flag) = events
    have isOpen := conn'.socket.modify_isOpen w'.epoll events call.ctl call.err
    generalize conn'.socket.modify w'.epoll events call.ctl call.err = result at isOpen ⊢
    obtain ⟨socket, done, code⟩ := result
    refine ⟨⟨_, Function.update_self .., ?_⟩, same.epoll, same.stopRequested, same.cmds, same.initCalls⟩
    exact ⟨masks.state, masks.proc, masks.connIO, isOpen.trans masks.isOpen⟩
  · exact same

/-- A handler changes nothing but the masks of its connection. -/
lemma callback_untouched {id : ConnectionId} {conn : ConnectionState} {w : Worker}
    (found : w.connections id = some conn) (handler : Callback) :
    Untouched id conn w (w.callback id handler).1 :=
  run_of_keep (P := Untouched id conn w) (fun _ call same => same.enableCall call) handler.calls
    (.refl found)

/-- Where no handler fails, `dispatch` changes nothing but masks. -/
lemma dispatch_untouched {id : ConnectionId} {conn : ConnectionState} {w : Worker}
    (found : w.connections id = some conn) {handler : Callback}
    (quiet : handler.err.isSet = false) : Untouched id conn w (w.dispatch id handler) := by
  unfold Worker.dispatch
  simp only [found]
  split
  · have handled := callback_untouched found handler
    have code : (w.callback id handler).2 = handler.err := rfl
    simp only [code, quiet, Bool.false_eq_true, if_false]
    exact handled
  · exact .refl found

/-! ## The stages of a connection -/

/-- The worker runs, and has not queued anything. -/
structure Calm (w : Worker) : Prop where
  epoll : w.epoll = true
  stopRequested : w.stopRequested = false
  cmds : w.cmds = []

/-- The worker holds the connection in this state, with its socket and its `ConnectionIO`. -/
structure Holds (w : Worker) (id : ConnectionId) (conn : ConnectionState) (state : State)
    (proc : Option Nat) : Prop where
  found : w.connections id = some conn
  state : conn.state = state
  proc : conn.proc = proc
  connIO : conn.connIO = true
  isOpen : conn.socket.isOpen = true

/-- The stages of a connection whose process is attached after the connect is completed. -/
inductive Stage (id : ConnectionId) : LifeCycle → Prop where
  | absent {w : Worker} (calm : Calm w) (new : w.connections id = none) (calls : w.initCalls = []) :
    Stage id ⟨w, false, none⟩
  | connecting {w : Worker} {conn : ConnectionState} {mask : Event} (calm : Calm w)
    (holds : Holds w id conn .connecting none) (interest : conn.socket.interest = some mask)
    (out : mask.has .Out = true) (calls : w.initCalls = []) : Stage id ⟨w, false, none⟩
  | active {w : Worker} {conn : ConnectionState} (calm : Calm w)
    (holds : Holds w id conn .active none) (calls : w.initCalls = []) : Stage id ⟨w, true, none⟩
  | working {w : Worker} {conn : ConnectionState} {proc : Nat} (calm : Calm w)
    (holds : Holds w id conn .active (some proc)) (calls : w.initCalls = [(id, .active)]) :
    Stage id ⟨w, true, some proc⟩

/-- A worker stays calm where nothing is touched. -/
lemma Calm.untouched {id : ConnectionId} {conn : ConnectionState} {w w' : Worker} (calm : Calm w)
    (same : Untouched id conn w w') : Calm w' :=
  ⟨same.epoll.trans calm.epoll, same.stopRequested.trans calm.stopRequested,
    same.cmds.trans calm.cmds⟩

/-- What holds of the connection holds where nothing is touched. -/
lemma Holds.untouched {id : ConnectionId} {conn : ConnectionState} {w w' : Worker} {state : State}
    {proc : Option Nat} (holds : Holds w id conn state proc) (same : Untouched id conn w w') :
    ∃ conn', Holds w' id conn' state proc := by
  obtain ⟨conn', found, masks⟩ := same.found
  exact ⟨conn', found, masks.state.trans holds.state, masks.proc.trans holds.proc,
    masks.connIO.trans holds.connIO, masks.isOpen.trans holds.isOpen⟩

/-- Every stage is proper. -/
lemma Stage.proper {id : ConnectionId} {l : LifeCycle} (stage : Stage id l) : l.Proper id := by
  cases stage with
  | absent calm new calls =>
    refine ⟨fun conn found => ?_, ?_, ?_⟩
    · simp [new] at found
    · simp [ToldOnce, calls]
    · simp [Works]
  | connecting calm holds interest out calls =>
    refine ⟨fun conn found _ => ?_, ?_, ?_⟩
    · rw [holds.found] at found
      cases found
      exact ⟨_, interest, out⟩
    · simp [ToldOnce, calls]
    · simp [Works]
  | active calm holds calls =>
    refine ⟨fun conn found state => ?_, ?_, ?_⟩
    · rw [holds.found] at found
      cases found
      simp [holds.state] at state
    · simp [ToldOnce, calls]
    · simp [Works]
  | working calm holds calls =>
    refine ⟨fun conn found state => ?_, ?_, ?_⟩
    · rw [holds.found] at found
      cases found
      simp [holds.state] at state
    · simp [ToldOnce, calls]
    · intro p _ e
      cases e
      refine ⟨⟨_, holds.found, holds.state, holds.proc, holds.connIO⟩, ?_, calls⟩
      simp [calm.cmds]

/-! ## The steps of the connection -/

/-- A registration is granted. -/
lemma add_granted {s : Socket} (isOpen : s.isOpen = true) (events : Event) {ctl : Ctl}
    (res : ctl.res = none) : s.add true events ctl = ({ s with interest := some events }, true, none) := by
  simp [Socket.add, isOpen, res]

/-- A modification is granted. -/
lemma modify_granted {s : Socket} (isOpen : s.isOpen = true) (events : Event) {ctl : Ctl}
    (res : ctl.res = none) (err : ErrorCode) :
    s.modify true events ctl err = ({ s with interest := some events }, true, err) := by
  simp [Socket.modify, isOpen, res]

/-- Being told of its connection, a process changes nothing but masks. -/
lemma onInitConnection_spec {id : ConnectionId} {conn : ConnectionState} {w : Worker}
    (found : w.connections id = some conn) (state : State) (handler : Callback) :
    let (w', err) := w.onInitConnection id state handler
    err = handler.err ∧ Untouched id conn { w with initCalls := w.initCalls ++ [(id, state)] } w' :=
  ⟨rfl, callback_untouched (w := { w with initCalls := w.initCalls ++ [(id, state)] }) found handler⟩

/-- The command leads to the next stage. -/
lemma Stage.addConnection {id : ConnectionId} {l : LifeCycle} (stage : Stage id l)
    {socket : Socket} {env : ConnectEnv} {err : ErrorCode}
    (legal : l.Legal id (.addConnection socket env err)) :
    Stage id (l.step id (.addConnection socket env err)) := by
  obtain ⟨new, isOpen, block, add, connect, modify⟩ := legal
  cases stage with
  | @absent w calm absent calls =>
    have second := modify_granted (s := { socket with interest := some (.In ||| .HangUp ||| .Error) })
      isOpen (.Out ||| .Error ||| .HangUp) modify none
    have added : (w.connectInternal id true socket env err).1 =
        w.put id ⟨.connecting, none, true, ⟨socket.isOpen, some (.Out ||| .Error ||| .HangUp)⟩,
          .Out ||| .Error ||| .HangUp⟩ := by
      simp [connectInternal, calm.stopRequested, calm.epoll, block, connect,
        add_granted isOpen _ add, second, absent]
    have after : step id ⟨w, false, none⟩ (.addConnection socket env err) =
        ⟨(w.connectInternal id true socket env err).1, false, none⟩ := rfl
    rw [after, added]
    exact .connecting ⟨calm.epoll, calm.stopRequested, calm.cmds⟩
      ⟨Function.update_self .., rfl, rfl, rfl, isOpen⟩ rfl (by decide) calls
  | connecting calm holds => simp [holds.found] at new
  | active calm holds => simp [holds.found] at new
  | working calm holds => simp [holds.found] at new

/-- What a successful `AttachProcess` leaves, whatever the state of the connection is. -/
lemma attachProcess_spec {w : Worker} {id : ConnectionId} {conn : ConnectionState} {state : State}
    (calm : Calm w) (holds : Holds w id conn state none)
    (live : state = .active ∨ state = .connecting) (proc : Nat) {env : AttachEnv}
    (err : ErrorCode) (ctl : env.ctl.res = none) (hook : (env.afterAdd none).isSet = false)
    (quiet : env.onInit.err.isSet = false) :
    let w' := (w.addConnectionProcessInternal id proc env err).1
    Calm w' ∧ (∃ conn', Holds w' id conn' state (some proc)) ∧
      w'.initCalls = w.initCalls ++ [(id, state)] := by
  have live' : conn.state = .active ∨ conn.state = .connecting := by rw [holds.state]; exact live
  let events : Event := (conn.eventsHandled &&& ~~~.Out) ||| .In
  let conn' : ConnectionState :=
    { conn with
      proc := some proc, socket := { conn.socket with interest := some events }
      eventsHandled := events }
  have set : w.setProcess id conn proc env.ctl err = (w.put id conn', true, err) := by
    simp only [setProcess, calm.epoll, modify_granted holds.isOpen _ ctl]
    rfl
  have found : (w.put id conn').connections id = some conn' := Function.update_self ..
  have told := onInitConnection_spec found conn.state env.onInit
  have holds' : Holds (w.put id conn') id conn' state (some proc) :=
    ⟨found, holds.state, rfl, holds.connIO, holds.isOpen⟩
  unfold addConnectionProcessInternal
  simp only [calm.stopRequested, holds.found, if_pos live', set, hook, Bool.false_eq_true,
    if_false, Bool.not_true]
  generalize (w.put id conn').onInitConnection id conn.state env.onInit = result at told ⊢
  obtain ⟨w', code⟩ := result
  obtain ⟨rfl, same⟩ := told
  simp only [quiet, Bool.false_eq_true, if_false]
  have logged : Holds { w.put id conn' with initCalls := w.initCalls ++ [(id, conn.state)] } id conn'
      state (some proc) := ⟨found, holds'.state, rfl, holds'.connIO, holds'.isOpen⟩
  refine ⟨?_, logged.untouched same, ?_⟩
  · have calm' : Calm { w.put id conn' with initCalls := w.initCalls ++ [(id, conn.state)] } :=
      ⟨calm.epoll, calm.stopRequested, calm.cmds⟩
    exact calm'.untouched same
  · rw [← holds.state]
    exact same.initCalls

/-- A process that is attached later leads to the next stage. -/
lemma Stage.attachProcess {id : ConnectionId} {l : LifeCycle} (stage : Stage id l) {proc : Nat}
    {env : AttachEnv} {err : ErrorCode} (legal : l.Legal id (.attachProcess proc env err))
    (later : l.AttachedLater id (.attachProcess proc env err)) :
    Stage id (l.step id (.attachProcess proc env err)) := by
  obtain ⟨present, unattached, ctl, hook, quiet⟩ := legal
  cases stage with
  | absent calm new calls => simp [new] at present
  | connecting calm holds interest out calls =>
    exact absurd (by simp [stateOf, holds.found, holds.state]) later
  | active calm holds calls =>
    obtain ⟨calm', ⟨conn', holds'⟩, calls'⟩ :=
      attachProcess_spec calm holds (.inl rfl) proc err ctl hook quiet
    exact .working calm' holds' (by rw [calls', calls]; rfl)
  | working calm holds calls => simp at unattached

/-- Attached too early, the process is told of a connection that is still connecting. -/
lemma Stage.attachedEarly {id : ConnectionId} {l : LifeCycle} (stage : Stage id l) {proc : Nat}
    {env : AttachEnv} {err : ErrorCode} (legal : l.Legal id (.attachProcess proc env err))
    (early : stateOf l.worker id = some .connecting) :
    ¬ (l.step id (.attachProcess proc env err)).Proper id := by
  obtain ⟨present, unattached, ctl, hook, quiet⟩ := legal
  cases stage with
  | absent calm new calls => simp [new] at present
  | connecting calm holds interest out calls =>
    obtain ⟨_, _, calls'⟩ := attachProcess_spec calm holds (.inr rfl) proc err ctl hook quiet
    intro proper
    have told := proper.told.2 (id, .connecting) (by
      show (id, State.connecting) ∈ (Worker.addConnectionProcessInternal _ id proc env err).1.initCalls
      rw [calls']
      simp)
    cases told
  | active calm holds calls => simp [stateOf, holds.found, holds.state] at early
  | working calm holds calls => simp at unattached

/-- Without a process there is nobody to hand an event to. -/
lemma dispatch_noProc {w : Worker} {id : ConnectionId} {conn : ConnectionState}
    (found : w.connections id = some conn) (proc : conn.proc = none) (handler : Callback) :
    w.dispatch id handler = w := by
  simp [Worker.dispatch, found, proc]

/-- An active connection handles its events. -/
lemma run_active {w : Worker} {id : ConnectionId} {conn : ConnectionState} {proc : Option Nat}
    (env : RunEnv) (err : ErrorCode) (holds : Holds w id conn .active proc) {events : Event}
    (rdhup : events.has .CanReadButHangUp = false) (error : events.has .Error = false)
    (hup : events.has .HangUp = false) :
    (w.run id events env err).1 = w.dispatch id env.handleEvent := by
  simp [Worker.run, holds.found, handleEvents, rdhup, error, hup, holds.state]

/-- An event for a connection that is still connecting and has no process: `Out` completes the
    connect, and nothing else happens. -/
lemma run_connecting {w : Worker} {id : ConnectionId} {conn : ConnectionState} {env : RunEnv}
    (err : ErrorCode) (calm : Calm w) (holds : Holds w id conn .connecting none) {events : Event}
    (rdhup : events.has .CanReadButHangUp = false) (error : events.has .Error = false)
    (hup : events.has .HangUp = false) (sock : env.sockError = none) (ctl : env.ctl.res = none) :
    (w.run id events env err).1 = if events.has .Out
      then (w.put id { conn with
        state := .active
        socket := { conn.socket with interest := some (.HangUp ||| .Error) }
        eventsHandled := .HangUp ||| .Error })
      else w := by
  cases out : events.has .Out with
  | true =>
    let conn' : ConnectionState :=
      { conn with
        state := .active
        socket := { conn.socket with interest := some (.HangUp ||| .Error) }
        eventsHandled := .HangUp ||| .Error }
    have set : w.setActive id conn env.ctl none = (w.put id conn', true, none) := by
      simp only [setActive, calm.epoll, modify_granted holds.isOpen _ ctl]
      rfl
    have complete : w.completeConnect id conn env none = (w.put id conn', none) := by
      simp [completeConnect, set, holds.proc]
    have found : (w.put id conn').connections id = some conn' := Function.update_self ..
    have idle : (w.put id conn').dispatch id env.handleEvent = w.put id conn' :=
      dispatch_noProc found holds.proc env.handleEvent
    simp [Worker.run, holds.found, handleEvents, rdhup, error, hup, holds.state, out, sock,
      complete, idle, conn']
  | false =>
    have idle := dispatch_noProc holds.found holds.proc env.handleEvent
    simp [Worker.run, holds.found, handleEvents, rdhup, error, hup, out, idle]

/-- An event leads to the next stage. -/
lemma Stage.ready {id : ConnectionId} {l : LifeCycle} (stage : Stage id l) {events : Event}
    {env : RunEnv} {err : ErrorCode} (legal : l.Legal id (.ready events env err)) :
    Stage id (l.step id (.ready events env err)) := by
  obtain ⟨present, rdhup, error, hup, sock, ctl, _, quiet⟩ := legal
  cases stage with
  | absent calm new calls => simp [new] at present
  | @connecting w conn mask calm holds interest out calls =>
    have ran := run_connecting err calm holds rdhup error hup sock ctl
    unfold step
    dsimp only
    rw [ran]
    cases e : events.has .Out with
    | true =>
      let conn' : ConnectionState :=
        { conn with
          state := .active
          socket := { conn.socket with interest := some (.HangUp ||| .Error) }
          eventsHandled := .HangUp ||| .Error }
      -- a ready output makes the connection active, and is the only thing that does
      have now : (false || (stateOf w id == some .connecting &&
          stateOf (w.put id conn') id == some .active)) = true := by
        simp [stateOf, holds.found, holds.state, put, conn']
      show Stage id ⟨w.put id conn', false || (stateOf w id == some .connecting &&
        stateOf (w.put id conn') id == some .active), none⟩
      rw [now]
      have holds' : Holds (w.put id conn') id conn' .active none :=
        ⟨Function.update_self .., rfl, holds.proc, holds.connIO, holds.isOpen⟩
      exact .active ⟨calm.epoll, calm.stopRequested, calm.cmds⟩ holds' calls
    | false =>
      have still : (stateOf w id == some .connecting && stateOf w id == some .active) = false := by
        simp [stateOf, holds.found, holds.state]
      simp only [Bool.false_eq_true, if_false, still]
      exact .connecting calm holds interest out calls
  | active calm holds calls =>
    have ran := run_active env err holds rdhup error hup
    have same := dispatch_untouched holds.found quiet
    unfold step
    dsimp only
    rw [ran, Bool.true_or]
    obtain ⟨conn', holds'⟩ := holds.untouched same
    exact .active (calm.untouched same) holds' (same.initCalls.trans calls)
  | working calm holds calls =>
    have ran := run_active env err holds rdhup error hup
    have same := dispatch_untouched holds.found quiet
    unfold step
    dsimp only
    rw [ran, Bool.true_or]
    obtain ⟨conn', holds'⟩ := holds.untouched same
    exact .working (calm.untouched same) holds' (same.initCalls.trans calls)

/-! ## Runs -/

/-- A run without errors looks as it should all along exactly if its process is not attached while
    the connection is connecting. -/
theorem proper_iff_attachedLater (id : ConnectionId) {ps : List Progress}
    (legal : Guarded (step id) (Legal id) {} ps) :
    Always (step id) (Proper id) {} ps ↔ Guarded (step id) (AttachedLater id) {} ps := by
  refine always_iff_guarded (fun _ stage => Stage.proper stage) ?_ ?_
    (.absent ⟨rfl, rfl, rfl⟩ rfl rfl) legal
  · intro l p stage legal later
    cases p with
    | addConnection socket env err => exact stage.addConnection legal
    | attachProcess proc env err => exact stage.attachProcess legal later
    | ready events env err => exact stage.ready legal
  · intro l p stage legal proper
    cases p with
    | addConnection socket env err => trivial
    | attachProcess proc env err =>
      intro early
      exact stage.attachedEarly legal early proper
    | ready events env err => trivial

/-- The connect is completed by an `Out` event, then a process is attached. -/
theorem proper_attached_later :
    let ps := [Progress.addConnection {} { connect := some .operationInProgress } none,
      .ready .Out {} none, .attachProcess 7 {} none]
    Guarded (step 1) (Legal 1) {} ps ∧ Always (step 1) (Proper 1) {} ps := by
  intro ps
  have legal : Guarded (step 1) (Legal 1) {} ps := by
    simp only [ps, Guarded, Legal, and_true]
    decide
  have later : Guarded (step 1) (AttachedLater 1) {} ps := by
    simp only [ps, Guarded, AttachedLater, and_true, true_and]
    decide
  exact ⟨legal, (proper_iff_attachedLater 1 legal).2 later⟩

/-- The process is attached before the `Out` event: its `on_init_connection` runs while the connection
    is connecting. -/
theorem attached_early_not_proper :
    ¬ ∀ (id : ConnectionId) (ps : List Progress), Guarded (step id) (Legal id) {} ps →
      Always (step id) (Proper id) {} ps := by
  intro all
  have proper := (all 1 [.addConnection {} { connect := some .operationInProgress } none,
    .attachProcess 7 {} none] (by simp only [Guarded, Legal, and_true]; decide)).last
  exact absurd (proper.told.2 (1, .connecting) (by decide)) (by decide)

end LifeCycle
end OsterLib.Network
