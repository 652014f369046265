import OsterLib.Network.Requests

/-!
# Connection commands

The commands of `network/worker/command.cpp` that work on the connections of a worker, and
`AbstractClient::connect`, which waits for one of them. A command calls one operation of the worker and
sets its own result to the error code that the operation leaves. Every operation also returns whether it
succeeded, which the commands do not look at: where it returns `false` with the code clear, the command
reports success (`executeInternal_reported_iff`).

The outcomes of what a command calls are its arguments. `errno` stands in for a failed system call; the
model allows `0` for it too, which counts as clear.
-/

namespace OsterLib.Network
open OsterLib.Lib
open Worker

/-- `EINVAL` -/
def Errc.invalidArgument : Errc := .other 22

/-- What `Command<AddConnection>` finds on its way: the code after `make_address` and after `socket`,
    whether `make_connection` returned a connection and the code after it. -/
structure AddConnectionEnv where
  address : ErrorCode := none
  socket : ErrorCode := none
  conn : Bool := true
  connection : ErrorCode := none
  connect : ConnectEnv

/-- What `::shutdown` leaves: its `errno`, or, where it succeeds, one that an earlier call has left. -/
structure ShutdownEnv where
  failed : Option Errc := none
  stale : Option Errc := none

/-- A command with the outcomes of what it calls. -/
inductive ConnectionCommand where
  | addConnection (validHandler sameOwner : Bool) (env : AddConnectionEnv)
  | attachConnection (socket : Socket) (ctl : Ctl) (afterAttach : ErrorCode → ErrorCode)
  | removeConnection (shutdown : ShutdownEnv) (del : Option Errc) (afterRemove : ErrorCode → ErrorCode)
  | modifyConnection (options : ErrorCode) (afterModify : ErrorCode → ErrorCode)
  | attachProcess (proc : Nat) (env : AttachEnv)
  | removeProcess (ctl : Ctl) (afterRemove : ErrorCode → ErrorCode)
  | requestStop (handler : Callback)
  | shutDownConnection (shutdown : ShutdownEnv)
  | taskDone (hasTask : Bool) (ready : ErrorCode) (handler : Callback)

/-- What executing a command comes to: the calls of `set_error`, and what the operation of the worker
    returned, where it was called. -/
structure Report where
  worker : Worker
  results : List ErrorCode
  returned : Option Bool

/-- An operation was called, and its error code is the result. -/
def Report.ofOperation (result : Worker × Bool × ErrorCode) : Report :=
  { worker := result.1, results := [result.2.2], returned := some result.2.1 }

/-- A result is set, and no operation was called. -/
def Report.ofError (w : Worker) (err : ErrorCode) : Report :=
  { worker := w, results := [err], returned := none }

namespace Worker

/-- `Socket::shutdown_all` -/
def shutdownAll (env : ShutdownEnv) (err : ErrorCode) : Bool × ErrorCode :=
  match env.failed, env.stale with
  | some errno, _ => (false, some errno)
  | none, some errno => (true, some errno)
  | none, none => (true, err)

/-- What `set_options` returns is not looked at. -/
def modifyConnectionInternal (w : Worker) (id : ConnectionId) (options : ErrorCode)
    (afterModify : ErrorCode → ErrorCode) : Worker × Bool × ErrorCode :=
  match w.connections id with
  | none => (w, false, afterModify (some .noSuchDevice))
  | some _ => (w, true, afterModify options)

/-- `stop_process` -/
def stopProcess (w : Worker) (id : ConnectionId) (requestStop : Callback) : Worker × Bool × ErrorCode :=
  match w.connections id with
  | none => (w, false, some .noSuchDevice)
  | some conn =>
    if conn.proc.isSome then
      let (w, err) := w.callback id requestStop
      (w, err == none, err)
    else (w, false, some .noSuchProcess)

/-- `shutdown_connection` -/
def shutdownConnection (w : Worker) (id : ConnectionId) (env : ShutdownEnv) (err : ErrorCode) :
    Worker × Bool × ErrorCode :=
  match w.connections id with
  | none => (w, false, some .noSuchDevice)
  | some conn => (w.put id { conn with state := .shutdowned }, shutdownAll env err)

/-- `execute_internal` of `Command<AddConnection>`. Where there is no connection to insert, it returns
    without a result. -/
def addConnection (w : Worker) (id : ConnectionId) (validHandler sameOwner : Bool)
    (env : AddConnectionEnv) : Report :=
  if !validHandler || !sameOwner then .ofError w (some .invalidArgument)
  else if env.address = none then
    if !env.socket.isSet then
      if env.conn && !env.connection.isSet then
        .ofOperation (w.connectInternal id validHandler {} env.connect env.connection)
      else { worker := w, results := [], returned := none }
    else .ofError w env.socket
  else .ofError w env.address

/-- `execute_internal` of `Command<TaskDone>` -/
def taskDone (w : Worker) (id : ConnectionId) (hasTask : Bool) (ready : ErrorCode) (handler : Callback) :
    Report :=
  match w.connections id with
  | some conn =>
    if conn.proc.isSome && hasTask then
      if !ready.isSet then
        let (w, err) := w.callback id handler
        .ofError w err
      else .ofError w (some .operationCanceled)
    else .ofError w (some .noSuchProcess)
  | none => .ofError w (some .noSuchProcess)

/-- `execute_internal` -/
def executeInternal (w : Worker) (id : ConnectionId) : ConnectionCommand → Report
  | .addConnection validHandler sameOwner env => w.addConnection id validHandler sameOwner env
  | .attachConnection socket ctl afterAttach =>
    .ofOperation (w.attachConnectionInternal id socket ctl afterAttach)
  | .removeConnection shutdown del afterRemove =>
    .ofOperation (w.removeConnectionInternal id (shutdownAll shutdown none).2 del afterRemove)
  | .modifyConnection options afterModify => .ofOperation (w.modifyConnectionInternal id options afterModify)
  | .attachProcess proc env => .ofOperation (w.addConnectionProcessInternal id proc env none)
  | .removeProcess ctl afterRemove =>
    .ofOperation (w.removeConnectionProcessInternal id ctl afterRemove none)
  | .requestStop handler => .ofOperation (w.stopProcess id handler)
  | .shutDownConnection shutdown => .ofOperation (w.shutdownConnection id shutdown none)
  | .taskDone hasTask ready handler => w.taskDone id hasTask ready handler

end Worker

/-! ## What is reported -/

/-- The result is set once, and it is an error if the operation of the worker returned `false`. -/
def Reported (r : Report) : Prop :=
  r.results.length = 1 ∧ (r.returned = some false → ∀ err ∈ r.results, err.isSet = true)

/-- An operation that returns `false` leaves an error. -/
def Tells (result : Worker × Bool × ErrorCode) : Prop :=
  result.2.1 = false → result.2.2.isSet = true

/-- `add` was refused with an error, and the `remove` behind it did not take the `errno`. -/
def Ctl.AddTold (ctl : Ctl) : Prop :=
  ∀ errno ∈ ctl.res, ctl.del = none ∧ ErrorCode.isSet (some errno) = true

/-- `modify` was refused with an error, which after `EBADF` is the one of `remove`. -/
def Ctl.ModifyTold (ctl : Ctl) : Prop :=
  ∀ errno ∈ ctl.res, ErrorCode.isSet
    (some (if errno = .badFileDescriptor then ctl.del.getD errno else errno)) = true

/-- `connectInternal` is not kept from its work by a stop, and ends well or with an error that it does
    not store in a variable of its own. -/
structure Worker.ConnectEnv.Told (w : Worker) (env : ConnectEnv) : Prop where
  running : w.stopRequested = false
  noBlock : ∀ errno ∈ env.setNoBlock, ErrorCode.isSet (some errno) = true
  add : env.setNoBlock = none → w.epoll = true → env.add.AddTold
  connect : env.setNoBlock = none → w.epoll = true → env.add.res = none →
    ∀ errno ∈ env.connect, errno = .operationInProgress ∧ env.modify.ModifyTold

/-- The condition on a command, the state of the worker and the outcomes of what the command calls. -/
def ConnectionCommand.Told (w : Worker) (id : ConnectionId) : ConnectionCommand → Prop
  | .addConnection validHandler sameOwner env =>
    validHandler = true → sameOwner = true → env.address = none → env.socket.isSet = false →
      env.conn = true ∧ env.connection.isSet = false ∧ env.connect.Told w
  | .attachConnection _ _ afterAttach =>
    (w.connections id).isSome = true → (afterAttach (some .alreadyConnected)).isSet = true
  | .removeConnection shutdown del afterRemove =>
    (w.connections id).isSome = true →
      if (Worker.shutdownAll shutdown none).2.isSet then
        (afterRemove (Worker.shutdownAll shutdown none).2).isSet = true
      else ∀ errno ∈ del, (afterRemove (some errno)).isSet = true
  | .modifyConnection _ afterModify =>
    w.connections id = none → (afterModify (some .noSuchDevice)).isSet = true
  | .attachProcess _ env =>
    w.stopRequested = false ∧
      match w.connections id with
      | none => (env.afterAdd (some .notConnected)).isSet = true
      | some conn =>
        if conn.state = .active ∨ conn.state = .connecting then
          w.epoll = true → conn.socket.isOpen = true → env.ctl.ModifyTold
        else (env.afterAdd (some .notConnected)).isSet = true
  | .removeProcess ctl afterRemove =>
    match w.connections id with
    | none => (afterRemove (some .notConnected)).isSet = true
    | some conn => w.epoll = true → conn.socket.isOpen = true → ctl.ModifyTold
  | .requestStop handler =>
    ∀ conn ∈ w.connections id, conn.proc.isSome = true → handler.err ≠ none → handler.err.isSet = true
  | .shutDownConnection shutdown =>
    (w.connections id).isSome = true → ∀ errno ∈ shutdown.failed, ErrorCode.isSet (some errno) = true
  | .taskDone _ _ _ => True

/-- What an operation returns is reported if it tells its error. -/
lemma reported_ofOperation (result : Worker × Bool × ErrorCode) :
    Reported (.ofOperation result) ↔ Tells result := by
  simp [Reported, Tells, Report.ofOperation]

/-- A command that returns an error reports it. -/
lemma reported_ofError (w : Worker) (err : ErrorCode) : Reported (.ofError w err) :=
  ⟨rfl, nofun⟩

namespace Socket

/-- A registration is granted. -/
lemma add_granted {epoll : Bool} {s : Socket} {ctl : Ctl} (there : epoll = true)
    (valid : s.isOpen = true) (granted : ctl.res = none) (events : Event) :
    s.add epoll events ctl = ({ s with interest := some events }, true, none) := by
  simp [add, there, valid, granted]

/-- A registration is refused without a multiplexor or by the kernel. -/
lemma add_refused {epoll : Bool} {s : Socket} {ctl : Ctl} (refused : ¬(epoll = true ∧ ctl.res = none))
    (events : Event) : (s.add epoll events ctl).2.1 = false := by
  obtain ⟨res, del⟩ := ctl
  unfold add
  cases epoll <;> cases s.isOpen <;> cases res <;> cases del <;> simp_all

/-- A registration tells its error where the kernel does. -/
lemma add_tells (epoll : Bool) (s : Socket) (events : Event) (ctl : Ctl) :
    ((s.add epoll events ctl).2.1 = false → (s.add epoll events ctl).2.2.isSet = true) ↔
      (epoll = true → s.isOpen = true → ctl.AddTold) := by
  obtain ⟨res, del⟩ := ctl
  unfold add Ctl.AddTold
  cases epoll <;> cases s.isOpen <;> cases res <;> cases del <;> simp [ErrorCode.isSet]

/-- A modification tells its error where the kernel does. -/
lemma modify_tells (epoll : Bool) (s : Socket) (events : Event) (ctl : Ctl) (err : ErrorCode) :
    ((s.modify epoll events ctl err).2.1 = false →
        (s.modify epoll events ctl err).2.2.isSet = true) ↔
      (epoll = true → s.isOpen = true → ctl.ModifyTold) := by
  obtain ⟨res, del⟩ := ctl
  unfold modify Ctl.ModifyTold
  cases epoll <;> cases s.isOpen <;> cases res with
  | none => simp [ErrorCode.isSet]
  | some errno => by_cases bad : errno = .badFileDescriptor <;> cases del <;> simp [bad, ErrorCode.isSet]

/-- A modification that is made leaves the error as it was. -/
lemma modify_kept {epoll : Bool} {s : Socket} {events : Event} {ctl : Ctl} {err : ErrorCode}
    (modified : (s.modify epoll events ctl err).2.1 = true) :
    (s.modify epoll events ctl err).2.2 = err := by
  revert modified
  unfold modify
  split
  · exact nofun
  · split
    · exact fun _ => rfl
    · split
      · split <;> exact nofun
      · exact nofun

/-- A modification of an open socket is made exactly if the kernel takes it. -/
lemma modify_granted_iff (s : Socket) (events : Event) (ctl : Ctl) (err : ErrorCode)
    (valid : s.isOpen = true) : (s.modify true events ctl err).2.1 = true ↔ ctl.res = none := by
  obtain ⟨res, del⟩ := ctl
  unfold modify
  cases res with
  | none => simp [valid]
  | some errno => cases del <;> by_cases bad : errno = .badFileDescriptor <;> simp [valid, bad]

end Socket

namespace Worker
variable (w : Worker) (id : ConnectionId)

/-- A successful `add` clears the code, so that the code stays clear when `::connect` fails. -/
lemma connectInternal_tells (env : ConnectEnv) {err : ErrorCode} (clear : err.isSet = false) :
    Tells (w.connectInternal id true {} env err) ↔ env.Told w := by
  unfold connectInternal Tells
  by_cases stop : w.stopRequested = true
  · simp only [stop, Bool.true_or, if_true, clear, Bool.false_eq_true, imp_false, not_true,
      false_iff]
    exact fun told => absurd (told.running.symm.trans stop) Bool.false_ne_true
  · rw [Bool.not_eq_true] at stop
    simp only [stop, Bool.not_true, Bool.or_self, Bool.false_eq_true, if_false]
    cases noBlock : env.setNoBlock with
    | some errno =>
      refine ⟨fun tells => ⟨stop, fun e same => ?_, fun no => ?_, fun no => ?_⟩, fun told _ => ?_⟩
      · obtain rfl : errno = e := by simpa [noBlock] using same
        exact tells rfl
      · exact absurd (noBlock.symm.trans no) nofun
      · exact absurd (noBlock.symm.trans no) nofun
      · exact told.noBlock errno noBlock
    | none =>
      dsimp only
      have addTells := Socket.add_tells w.epoll {} (.In ||| .HangUp ||| .Error) env.add
      have split : env.Told w ↔ (w.epoll = true → env.add.AddTold) ∧
          (w.epoll = true → env.add.res = none →
            ∀ errno ∈ env.connect, errno = .operationInProgress ∧ env.modify.ModifyTold) :=
        ⟨fun told => ⟨told.add noBlock, told.connect noBlock⟩,
          fun parts => ⟨stop, fun e no => absurd (noBlock.symm.trans no) nofun, fun _ => parts.1,
            fun _ => parts.2⟩⟩
      rw [split]
      -- where the `add` is granted the code is clear, and what `::connect` and `modify` do to it decides
      by_cases granted : w.epoll = true ∧ env.add.res = none
      · obtain ⟨there, granted⟩ := granted
        have told : env.add.AddTold := by simp [Ctl.AddTold, granted]
        rw [Socket.add_granted there rfl granted]
        simp only [Bool.not_true, Bool.false_eq_true, if_false, there, told, granted, true_and,
          forall_const]
        split
        · next done => split <;> simp [done, ErrorCode.isSet]
        · next inProgress =>
          have modifyTells := Socket.modify_tells true
            { interest := some (Event.In ||| .HangUp ||| .Error) } (.Out ||| .Error ||| .HangUp)
            env.modify none
          simp only [forall_const] at modifyTells
          simp only [inProgress, Option.mem_def, Option.some.injEq, forall_eq', true_and]
          rw [← modifyTells]
          split
          · next failed => simp [Bool.not_eq_true' _ ▸ failed]
          · next modified => split <;> simp_all [ErrorCode.isSet]
        · next errno other failed =>
          simp only [failed, Option.mem_def, Option.some.injEq, forall_eq', ErrorCode.isSet,
            Bool.false_eq_true, imp_false, not_true, false_iff]
          exact fun told => other told.1
      · have refused := Socket.add_refused (s := {}) granted (.In ||| .HangUp ||| .Error)
        rw [refused] at addTells ⊢
        simp only [Bool.not_false, if_true, forall_const] at addTells ⊢
        exact ⟨fun tells => ⟨addTells.1 tells, fun there none => absurd ⟨there, none⟩ granted⟩,
          fun parts => addTells.2 parts.1⟩

/-- `attachConnectionInternal` tells its error exactly if the command is told. -/
lemma attachConnectionInternal_tells (socket : Socket) (ctl : Ctl) (afterAttach : ErrorCode → ErrorCode) :
    Tells (w.attachConnectionInternal id socket ctl afterAttach) ↔
      (ConnectionCommand.attachConnection socket ctl afterAttach).Told w id := by
  unfold attachConnectionInternal Tells ConnectionCommand.Told
  cases w.connections id with
  | some conn => simp
  | none =>
    simp only [Option.isSome_none, Bool.false_eq_true, false_imp_iff, iff_true]
    split
    · next set => exact fun _ => set
    · exact nofun

/-- `removeConnectionInternal` tells its error exactly if the command is told. -/
lemma removeConnectionInternal_tells (shutdown : ShutdownEnv) (del : Option Errc)
    (afterRemove : ErrorCode → ErrorCode) :
    Tells (w.removeConnectionInternal id (shutdownAll shutdown none).2 del afterRemove) ↔
      (ConnectionCommand.removeConnection shutdown del afterRemove).Told w id := by
  unfold removeConnectionInternal Tells ConnectionCommand.Told
  cases w.connections id with
  | none => simp [ErrorCode.isSet]
  | some conn =>
    simp only [Option.isSome_some, forall_const]
    split
    · simp
    · cases del <;> simp

/-- `modifyConnectionInternal` tells its error exactly if the command is told. -/
lemma modifyConnectionInternal_tells (options : ErrorCode) (afterModify : ErrorCode → ErrorCode) :
    Tells (w.modifyConnectionInternal id options afterModify) ↔
      (ConnectionCommand.modifyConnection options afterModify).Told w id := by
  unfold modifyConnectionInternal Tells ConnectionCommand.Told
  cases w.connections id <;> simp

/-- `addConnectionProcessInternal` tells its error exactly if the command is told. -/
lemma addConnectionProcessInternal_tells (proc : Nat) (env : AttachEnv) :
    Tells (w.addConnectionProcessInternal id proc env none) ↔
      (ConnectionCommand.attachProcess proc env).Told w id := by
  unfold addConnectionProcessInternal Tells ConnectionCommand.Told
  by_cases stop : w.stopRequested = true
  · simp [stop, ErrorCode.isSet]
  · rw [Bool.not_eq_true] at stop
    simp only [stop, Bool.false_eq_true, if_false, true_and]
    cases w.connections id with
    | none => simp
    | some conn =>
      dsimp only
      split
      · have modifyTells := Socket.modify_tells w.epoll conn.socket
          ((conn.eventsHandled &&& ~~~.Out) ||| .In) env.ctl none
        rw [← modifyTells]
        unfold setProcess
        split
        · next failed => simp_all
        · next modified =>
          split
          · next set => simp_all
          · split <;> simp_all
      · simp

/-- `removeConnectionProcessInternal` tells its error exactly if the command is told. -/
lemma removeConnectionProcessInternal_tells (ctl : Ctl) (afterRemove : ErrorCode → ErrorCode) :
    Tells (w.removeConnectionProcessInternal id ctl afterRemove none) ↔
      (ConnectionCommand.removeProcess ctl afterRemove).Told w id := by
  unfold removeConnectionProcessInternal Tells ConnectionCommand.Told
  cases w.connections id with
  | none => simp
  | some conn =>
    have modifyTells := Socket.modify_tells w.epoll conn.socket (conn.eventsHandled ^^^ .In) ctl none
    dsimp only
    rw [← modifyTells]
    split
    · next failed =>
      rw [Bool.not_eq_true'] at failed
      simp [failed]
    · next modified =>
      rw [Bool.not_eq_true, Bool.not_eq_false'] at modified
      rw [modified, Socket.modify_kept modified]
      simp [ErrorCode.isSet]

/-- `stop_process` tells its error exactly if the command is told. -/
lemma stopProcess_tells (handler : Callback) :
    Tells (w.stopProcess id handler) ↔ (ConnectionCommand.requestStop handler).Told w id := by
  unfold stopProcess Tells ConnectionCommand.Told
  cases w.connections id with
  | none => simp [ErrorCode.isSet]
  | some conn =>
    dsimp only
    split
    · next there => cases set : handler.err <;> simp [there, callback, set]
    · next gone => simp [gone, ErrorCode.isSet, Errc.noSuchProcess]

/-- `shutdown_connection` tells its error exactly if the command is told. -/
lemma shutdownConnection_tells (shutdown : ShutdownEnv) :
    Tells (w.shutdownConnection id shutdown none) ↔
      (ConnectionCommand.shutDownConnection shutdown).Told w id := by
  obtain ⟨failed, stale⟩ := shutdown
  unfold shutdownConnection Tells ConnectionCommand.Told shutdownAll
  cases w.connections id <;> cases failed <;> cases stale <;> simp [ErrorCode.isSet]

/-- `AddConnection` is reported exactly if it is told. -/
lemma addConnection_reported (validHandler sameOwner : Bool) (env : AddConnectionEnv) :
    Reported (w.addConnection id validHandler sameOwner env) ↔
      (ConnectionCommand.addConnection validHandler sameOwner env).Told w id := by
  unfold addConnection ConnectionCommand.Told
  split
  · next rejected =>
    refine ⟨fun _ valid same => absurd rejected (by simp [valid, same]), fun _ => reported_ofError _ _⟩
  · next handler =>
    have owned : validHandler = true ∧ sameOwner = true := by simpa using handler
    simp only [owned, forall_const]
    split
    · next address =>
      simp only [address, forall_const]
      split
      · next socket =>
        rw [Bool.not_eq_true'] at socket
        simp only [socket, forall_const]
        split
        · next made =>
          rw [Bool.and_eq_true, Bool.not_eq_true'] at made
          rw [reported_ofOperation, connectInternal_tells w id env.connect made.2]
          exact ⟨fun told => ⟨made.1, made.2, told⟩, fun told => told.2.2⟩
        · next failed =>
          refine ⟨fun reported => absurd reported.1 nofun, fun told => absurd ?_ failed⟩
          simp [told.1, told.2.1]
      · next socket =>
        exact ⟨fun _ clear => absurd clear (by simpa using socket), fun _ => reported_ofError _ _⟩
    · next address =>
      exact ⟨fun _ clear => absurd clear address, fun _ => reported_ofError _ _⟩

/-- `TaskDone` is always reported. -/
lemma taskDone_reported (hasTask : Bool) (ready : ErrorCode) (handler : Callback) :
    Reported (w.taskDone id hasTask ready handler) := by
  unfold taskDone
  cases w.connections id with
  | none => exact reported_ofError _ _
  | some conn =>
    dsimp only
    split
    · split
      · exact reported_ofError _ _
      · exact reported_ofError _ _
    · exact reported_ofError _ _

end Worker

/-- A command reports once, and tells a failure, exactly under its condition. -/
theorem executeInternal_reported_iff (w : Worker) (id : ConnectionId) (cmd : ConnectionCommand) :
    Reported (w.executeInternal id cmd) ↔ cmd.Told w id := by
  cases cmd with
  | addConnection validHandler sameOwner env => exact w.addConnection_reported id validHandler sameOwner env
  | attachConnection socket ctl afterAttach =>
    exact (reported_ofOperation _).trans (w.attachConnectionInternal_tells id socket ctl afterAttach)
  | removeConnection shutdown del afterRemove =>
    exact (reported_ofOperation _).trans (w.removeConnectionInternal_tells id shutdown del afterRemove)
  | modifyConnection options afterModify =>
    exact (reported_ofOperation _).trans (w.modifyConnectionInternal_tells id options afterModify)
  | attachProcess proc env =>
    exact (reported_ofOperation _).trans (w.addConnectionProcessInternal_tells id proc env)
  | removeProcess ctl afterRemove =>
    exact (reported_ofOperation _).trans (w.removeConnectionProcessInternal_tells id ctl afterRemove)
  | requestStop handler => exact (reported_ofOperation _).trans (w.stopProcess_tells id handler)
  | shutDownConnection shutdown =>
    exact (reported_ofOperation _).trans (w.shutdownConnection_tells id shutdown)
  | taskDone hasTask ready handler =>
    exact iff_of_true (w.taskDone_reported id hasTask ready handler) trivial

/-- A refused connect is stored in a variable of its own, and the command reports success. -/
theorem refused_connect_reports_success :
    ¬ ∀ (w : Worker) (id : ConnectionId) (cmd : ConnectionCommand),
      Reported (w.executeInternal id cmd) := by
  intro all
  have reported := all {} 1 (.addConnection true true { connect := { connect := some .connectionReset } })
  exact absurd (reported.2 rfl none (by decide)) (by decide)

/-! ## `AbstractClient::connect` -/

/-- `BaseCommand::successed`, with the results that are seen. -/
def successed (results : List ErrorCode) : Option Bool :=
  results.head?.map fun err => !err.isSet

/-- `AbstractClient`, with its worker where it is launched -/
structure AbstractClient where
  connections : Option Worker

namespace AbstractClient

/-- `id` is the one that the new handle takes, and `inTime` whether the command is executed within the
    wait. The handle is valid or null. The `if` asks whether `successed` has a value, not which. -/
def connect (client : AbstractClient) (id : ConnectionId) (env : AddConnectionEnv) (inTime : Bool)
    (err : ErrorCode) : AbstractClient × Option ConnectionId × ErrorCode :=
  match client.connections with
  | none => (client, none, err)
  | some w =>
    let report := w.executeInternal id (.addConnection true true env)
    let results := if inTime then report.results else []
    let client := { connections := some report.worker }
    if (successed results).isSome then (client, some id, none)
    else (client, none, results.head?.getD (some .notConnected))

/-- The worker has a connection under this id. -/
def Holds (client : AbstractClient) (id : ConnectionId) : Prop :=
  ∃ w ∈ client.connections, (w.connections id).isSome = true

/-- What `connect` returns for the handle `id` is what the worker has. -/
def Truthful (id : ConnectionId) (result : AbstractClient × Option ConnectionId × ErrorCode) : Prop :=
  (result.2.1 = some id ∧ result.2.2 = none ↔ result.1.Holds id) ∧
    (¬result.1.Holds id → result.2.1 = none ∧ result.2.2.isSet = true)

end AbstractClient

/-- Nothing fails on the way, but `::connect` may be in progress. -/
structure AddConnectionEnv.Succeeds (w : Worker) (env : AddConnectionEnv) : Prop where
  address : env.address = none
  socket : env.socket.isSet = false
  conn : env.conn = true
  connection : env.connection.isSet = false
  running : w.stopRequested = false
  noBlock : env.connect.setNoBlock = none
  epoll : w.epoll = true
  add : env.connect.add.res = none
  connect : env.connect.connect = none ∨
    env.connect.connect = some .operationInProgress ∧ env.connect.modify.res = none

namespace Worker
variable (w : Worker) (id : ConnectionId)

/-- The connection that was put is there. -/
lemma isSome_put (conn : ConnectionState) : ((w.put id conn).connections id).isSome = true := by
  simp [put]

/-- A connection is inserted where nothing fails; where an id is taken, its entry stays. -/
lemma connectInternal_holds (env : ConnectEnv) (err : ErrorCode) :
    ((w.connectInternal id true {} env err).1.connections id).isSome = true ↔
      (w.connections id).isSome = true ∨
        w.stopRequested = false ∧ env.setNoBlock = none ∧ w.epoll = true ∧ env.add.res = none ∧
          (env.connect = none ∨ env.connect = some .operationInProgress ∧ env.modify.res = none) := by
  unfold connectInternal
  by_cases stop : w.stopRequested = true
  · simp [stop]
  · rw [Bool.not_eq_true] at stop
    simp only [stop, Bool.not_true, Bool.or_self, Bool.false_eq_true, if_false, true_and]
    cases noBlock : env.setNoBlock with
    | some errno => simp
    | none =>
      dsimp only
      by_cases granted : w.epoll = true ∧ env.add.res = none
      · rw [Socket.add_granted granted.1 rfl granted.2]
        simp only [Bool.not_true, Bool.false_eq_true, if_false, granted, true_and]
        split
        · next done =>
          split
          · next taken => simp [taken]
          · exact iff_of_true (isSome_put w id _) (.inr (.inl done))
        · next inProgress =>
          have modified := Socket.modify_granted_iff
            { interest := some (Event.In ||| .HangUp ||| .Error) } (.Out ||| .Error ||| .HangUp)
            env.modify none rfl
          simp only [inProgress, reduceCtorEq, false_or, true_and]
          rw [← modified]
          split
          · next failed => simp_all
          · next modified =>
            split
            · next taken => simp [taken]
            · rw [Bool.not_eq_true', Bool.not_eq_false] at modified
              exact iff_of_true (isSome_put w id _) (.inr modified)
        · next errno other failed => simp_all
      · have refused := Socket.add_refused (s := {}) granted (.In ||| .HangUp ||| .Error)
        rw [refused]
        simp only [Bool.not_false, if_true]
        exact ⟨.inl, Or.rec (fun there => there) fun parts => absurd ⟨parts.2.1, parts.2.2.1⟩ granted⟩

/-- What a finished command leaves in the table. -/
lemma addConnection_holds {env : AddConnectionEnv}
    (finished : (w.addConnection id true true env).results ≠ []) :
    ((w.addConnection id true true env).worker.connections id).isSome = true ↔
      (w.connections id).isSome = true ∨ env.Succeeds w := by
  revert finished
  unfold addConnection
  simp only [Bool.not_true, Bool.or_self, Bool.false_eq_true, if_false]
  split
  · next address =>
    split
    · next socket =>
      split
      · next made =>
        rw [Bool.and_eq_true, Bool.not_eq_true'] at made
        rw [Bool.not_eq_true'] at socket
        intro _
        refine (w.connectInternal_holds id env.connect env.connection).trans (or_congr_right ⟨?_, ?_⟩)
        · exact fun ⟨running, noBlock, epoll, add, connect⟩ =>
            ⟨address, socket, made.1, made.2, running, noBlock, epoll, add, connect⟩
        · exact fun good => ⟨good.running, good.noBlock, good.epoll, good.add, good.connect⟩
      · exact fun finished => absurd rfl finished
    · next socket =>
      exact fun _ => ⟨.inl, Or.rec (fun there => there)
        fun good => absurd good.socket (by simpa using socket)⟩
  · next address =>
    exact fun _ => ⟨.inl, Or.rec (fun there => there) fun good => absurd good.address address⟩

end Worker

namespace AbstractClient

/-- A command that has finished within the wait counts as a success, so that `connect` tells the truth
    exactly where nothing has failed, or an entry was there already. -/
theorem connect_truthful_iff (w : Worker) (id : ConnectionId) (env : AddConnectionEnv) (err : ErrorCode)
    (finished : (w.executeInternal id (.addConnection true true env)).results ≠ []) :
    Truthful id (connect { connections := some w } id env true err) ↔
      (w.connections id).isSome = true ∨ env.Succeeds w := by
  rw [← w.addConnection_holds id finished]
  change (w.addConnection id true true env).results ≠ [] at finished
  unfold Truthful Holds connect executeInternal
  obtain ⟨result, results, same⟩ := List.exists_cons_of_ne_nil finished
  simp [same, successed, Option.isSome_iff_ne_none]

/-- An asynchronous connect. -/
theorem connect_truthful_inProgress : Truthful 1 (connect { connections := some {} } 1
    { connect := { connect := some .operationInProgress } } true none) :=
  (connect_truthful_iff {} 1 _ none (by decide)).2
    (.inr ⟨rfl, rfl, rfl, rfl, rfl, rfl, rfl, rfl, .inr ⟨rfl, rfl⟩⟩)

/-- The handle of a refused connection is valid, and no error is set. -/
theorem refused_connect_valid : ¬ ∀ (w : Worker) (id : ConnectionId) (env : AddConnectionEnv)
    (err : ErrorCode), (w.executeInternal id (.addConnection true true env)).results ≠ [] →
    Truthful id (connect { connections := some w } id env true err) := by
  intro all
  have truthful := all {} 1 { connect := { connect := some .connectionReset } } none (by decide)
  obtain ⟨w, same, held⟩ := truthful.1.1 ⟨rfl, rfl⟩
  obtain rfl := Option.some.inj same
  exact absurd held (by decide)

end AbstractClient
end OsterLib.Network
