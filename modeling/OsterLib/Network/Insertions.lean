import OsterLib.Network.Commands

/-!
# Where connections come from

Which operations of a worker bring a connection to its table. An event, and every command but `AddConnection` and
`AttachConnection`, leaves the ids that are not in the table out of it (`Within`), and these two bring no other id to it
than that of their handle (`Inserts`).
-/

namespace OsterLib.Network
open OsterLib.Lib

namespace Worker

/-- No connection has come to the table. -/
def Within (w w' : Worker) : Prop := ∀ id, w.connections id = none → w'.connections id = none

variable {w w' w'' : Worker}

/-- Nothing is inserted. -/
lemma Within.refl (w : Worker) : w.Within w := fun _ absent => absent

/-- Nothing is inserted by either. -/
lemma Within.trans (first : w.Within w') (second : w'.Within w'') : w.Within w'' :=
  fun id absent => second id (first id absent)

/-- An entry that is changed is not inserted. -/
lemma within_update (w : Worker) (id : ConnectionId) {entry : Option ConnectionState}
    (there : w.connections id = none → entry = none) :
    w.Within { w with connections := Function.update w.connections id entry } := by
  intro id' absent
  by_cases same : id' = id
  · cases same
    exact (Function.update_self ..).trans (there absent)
  · exact (Function.update_of_ne same ..).trans absent

/-- A connection that is there is not inserted. -/
lemma within_put {id : ConnectionId} {conn : ConnectionState} (found : w.connections id = some conn)
    (conn' : ConnectionState) : w.Within (w.put id conn') :=
  within_update w id fun absent => absurd (absent.symm.trans found) nofun

/-- A changed entry is not inserted. -/
lemma within_modifyState (w : Worker) (id : ConnectionId) (f : ConnectionState → ConnectionState) :
    w.Within (w.modifyState id f) :=
  within_update w id fun absent => congrArg (Option.map f) absent

/-- An erased entry is not inserted. -/
lemma within_erase (w : Worker) (id : ConnectionId) : w.Within (w.erase id) := within_update w id fun _ => rfl

/-- Abandoning inserts nothing. -/
lemma within_abandon (w : Worker) (id : ConnectionId) : w.Within (w.abandon id) := w.within_modifyState id _

/-- Enabling events inserts nothing. -/
lemma within_enableCall (id : ConnectionId) (w : Worker) (call : EnableCall) : w.Within (enableCall id w call) := by
  unfold enableCall enableFlag
  cases found : w.connections id with
  | none => exact .refl w
  | some conn =>
    dsimp only
    split
    · exact within_put found _
    · exact .refl w

/-- A callback inserts nothing. -/
lemma within_callback (w : Worker) (id : ConnectionId) (handler : Callback) : w.Within (w.callback id handler).1 :=
  run_of_keep (P := w.Within) (fun w' call within => within.trans (within_enableCall id w' call)) handler.calls
    (.refl w)

/-- `on_init_connection` inserts nothing. -/
lemma within_onInitConnection (w : Worker) (id : ConnectionId) (state : State) (handler : Callback) :
    w.Within (w.onInitConnection id state handler).1 :=
  within_callback { w with initCalls := w.initCalls ++ [(id, state)] } id handler

/-- Hanging up inserts nothing. -/
lemma within_hangUp (w : Worker) (id : ConnectionId) (err : ErrorCode) : w.Within (w.hangUp id err) := by
  have closed := (w.within_modifyState id fun conn => { conn with state := .closed }).trans (within_abandon _ id)
  unfold hangUp
  dsimp only
  split
  · exact closed.trans (within_erase _ id)
  · exact closed

/-- Dispatching an event inserts nothing. -/
lemma within_dispatch (w : Worker) (id : ConnectionId) (handler : Callback) : w.Within (w.dispatch id handler) := by
  have handled := w.within_callback id handler
  unfold dispatch
  cases w.connections id with
  | none => exact .refl w
  | some conn =>
    dsimp only
    split
    · split
      · split
        · exact handled
        · exact handled
        · exact handled
        · exact handled.trans (within_abandon _ id)
      · exact handled
    · exact .refl w

/-- Completing a connect inserts nothing. -/
lemma within_completeConnect {id : ConnectionId} {conn : ConnectionState} (found : w.connections id = some conn)
    (env : RunEnv) (err : ErrorCode) : w.Within (w.completeConnect id conn env err).1 := by
  have active : w.Within (w.setActive id conn env.ctl err).1 := within_put found _
  unfold completeConnect
  generalize w.setActive id conn env.ctl err = result at active ⊢
  obtain ⟨w', modified, code⟩ := result
  have told := active.trans (within_onInitConnection w' id .active env.onInit)
  dsimp only
  split
  · exact active
  · split
    · refine Within.trans ?_ (within_modifyState _ id _)
      split
      · exact told.trans (within_modifyState _ id _)
      · exact told
    · exact active

/-- `run` inserts nothing. -/
lemma within_run (w : Worker) (id : ConnectionId) (events : Event) (env : RunEnv) (err : ErrorCode) :
    w.Within (w.run id events env err).1 := by
  unfold run
  cases found : w.connections id with
  | none => exact .refl w
  | some conn =>
    unfold handleEvents
    cases events.has .CanReadButHangUp with
    | true =>
      have read : w.Within (if conn.proc.isSome = true then w.callback id env.onRead else (w, err)).1 := by
        split
        · exact w.within_callback id env.onRead
        · exact .refl w
      exact read.trans (within_hangUp _ id _)
    | false =>
      cases events.has .Error || events.has .HangUp with
      | true => exact w.within_hangUp id err
      | false =>
        simp only [Bool.false_eq_true, if_false, Bool.not_true]
        split
        · split
          · exact (within_completeConnect found env none).trans (within_dispatch _ id env.handleEvent)
          · exact .refl w
        · exact w.within_dispatch id env.handleEvent

/-- `addConnectionProcessInternal` inserts nothing. -/
lemma within_addConnectionProcessInternal (w : Worker) (id : ConnectionId) (proc : Nat) (env : AttachEnv)
    (err : ErrorCode) : w.Within (w.addConnectionProcessInternal id proc env err).1 := by
  unfold addConnectionProcessInternal
  split
  · exact .refl w
  · cases found : w.connections id with
    | none => exact .refl w
    | some conn =>
      dsimp only
      split
      · have attached : w.Within (w.setProcess id conn proc env.ctl err).1 := within_put found _
        generalize w.setProcess id conn proc env.ctl err = result at attached ⊢
        obtain ⟨w', modified, code⟩ := result
        have told := attached.trans (within_onInitConnection w' id conn.state env.onInit)
        dsimp only
        split
        · exact attached
        · split
          · exact attached
          · split
            · exact told.trans (within_abandon _ id)
            · exact told
      · exact .refl w

/-- `removeConnectionProcessInternal` inserts nothing. -/
lemma within_removeConnectionProcessInternal (w : Worker) (id : ConnectionId) (ctl : Ctl)
    (afterRemove : ErrorCode → ErrorCode) (err : ErrorCode) :
    w.Within (w.removeConnectionProcessInternal id ctl afterRemove err).1 := by
  unfold removeConnectionProcessInternal
  cases found : w.connections id with
  | none => exact .refl w
  | some conn =>
    dsimp only
    split
    · exact within_put found _
    · split
      · exact within_put found _
      · exact within_put found _

/-- `removeConnectionInternal` inserts nothing. -/
lemma within_removeConnectionInternal (w : Worker) (id : ConnectionId) (shutdown : ErrorCode) (del : Option Errc)
    (afterRemove : ErrorCode → ErrorCode) : w.Within (w.removeConnectionInternal id shutdown del afterRemove).1 := by
  unfold removeConnectionInternal
  cases w.connections id with
  | none => exact .refl w
  | some conn =>
    dsimp only
    split
    · exact w.within_erase id
    · cases del with
      | none => exact w.within_erase id
      | some errno => exact w.within_erase id

/-- Only the connection with this id may have come to the table. -/
def Inserts (id : ConnectionId) (w w' : Worker) : Prop :=
  ∀ id', id' ≠ id → w.connections id' = none → w'.connections id' = none

/-- Only that connection is inserted. -/
lemma inserts_put (w : Worker) (id : ConnectionId) (conn : ConnectionState) : Inserts id w (w.put id conn) :=
  fun _ other absent => (Function.update_of_ne other ..).trans absent

/-- `attachConnectionInternal` inserts its connection at most. -/
lemma attachConnectionInternal_inserts (w : Worker) (id : ConnectionId) (socket : Socket) (ctl : Ctl)
    (afterAttach : ErrorCode → ErrorCode) : Inserts id w (w.attachConnectionInternal id socket ctl afterAttach).1 := by
  unfold attachConnectionInternal
  cases w.connections id with
  | some conn => exact fun _ _ absent => absent
  | none =>
    dsimp only
    split
    · exact fun _ _ absent => absent
    · exact w.inserts_put id _

/-- `connectInternal` inserts its connection at most. -/
lemma connectInternal_inserts (w : Worker) (id : ConnectionId) (validHandler : Bool) (socket : Socket)
    (env : ConnectEnv) (err : ErrorCode) : Inserts id w (w.connectInternal id validHandler socket env err).1 := by
  unfold connectInternal
  split
  · exact fun _ _ absent => absent
  · cases env.setNoBlock with
    | some errno => exact fun _ _ absent => absent
    | none =>
      dsimp only
      split
      · exact fun _ _ absent => absent
      · split
        · split
          · exact fun _ _ absent => absent
          · exact w.inserts_put id _
        · split
          · exact fun _ _ absent => absent
          · split
            · exact fun _ _ absent => absent
            · exact w.inserts_put id _
        · exact fun _ _ absent => absent

end Worker

/-- The command inserts a connection. -/
def ConnectionCommand.inserts : ConnectionCommand → Bool
  | addConnection .. | attachConnection .. => true
  | _ => false

namespace Worker

/-- `AddConnection` inserts its connection at most. -/
lemma addConnection_inserts (w : Worker) (id : ConnectionId) (validHandler sameOwner : Bool) (env : AddConnectionEnv) :
    Inserts id w (w.addConnection id validHandler sameOwner env).worker := by
  unfold addConnection
  split
  · exact fun _ _ absent => absent
  · split
    · split
      · split
        · exact w.connectInternal_inserts id validHandler {} env.connect env.connection
        · exact fun _ _ absent => absent
      · exact fun _ _ absent => absent
    · exact fun _ _ absent => absent

/-- `modifyConnectionInternal` inserts nothing. -/
lemma within_modifyConnectionInternal (w : Worker) (id : ConnectionId) (options : ErrorCode)
    (afterModify : ErrorCode → ErrorCode) : w.Within (w.modifyConnectionInternal id options afterModify).1 := by
  unfold modifyConnectionInternal
  cases w.connections id with
  | none => exact .refl w
  | some conn => exact .refl w

/-- `stop_process` inserts nothing. -/
lemma within_stopProcess (w : Worker) (id : ConnectionId) (handler : Callback) :
    w.Within (w.stopProcess id handler).1 := by
  unfold stopProcess
  cases w.connections id with
  | none => exact .refl w
  | some conn =>
    dsimp only
    split
    · exact w.within_callback id handler
    · exact .refl w

/-- `shutdown_connection` inserts nothing. -/
lemma within_shutdownConnection (w : Worker) (id : ConnectionId) (shutdown : ShutdownEnv) (err : ErrorCode) :
    w.Within (w.shutdownConnection id shutdown err).1 := by
  unfold shutdownConnection
  cases found : w.connections id with
  | none => exact .refl w
  | some conn => exact within_put found _

/-- `TaskDone` inserts nothing. -/
lemma within_taskDone (w : Worker) (id : ConnectionId) (hasTask : Bool) (ready : ErrorCode) (handler : Callback) :
    w.Within (w.taskDone id hasTask ready handler).worker := by
  unfold taskDone
  cases w.connections id with
  | none => exact .refl w
  | some conn =>
    dsimp only
    split
    · split
      · exact w.within_callback id handler
      · exact .refl w
    · exact .refl w

/-- A connection comes to the table only by a command that inserts one, under the id of its handle. -/
lemma executeInternal_connections (w : Worker) (id : ConnectionId) (cmd : ConnectionCommand) :
    if cmd.inserts then Inserts id w (w.executeInternal id cmd).worker
    else w.Within (w.executeInternal id cmd).worker := by
  cases cmd with
  | addConnection validHandler sameOwner env => exact w.addConnection_inserts id validHandler sameOwner env
  | attachConnection socket ctl afterAttach => exact w.attachConnectionInternal_inserts id socket ctl afterAttach
  | removeConnection shutdown del afterRemove => exact w.within_removeConnectionInternal id _ del afterRemove
  | modifyConnection options afterModify => exact w.within_modifyConnectionInternal id options afterModify
  | attachProcess proc env => exact w.within_addConnectionProcessInternal id proc env none
  | removeProcess ctl afterRemove => exact w.within_removeConnectionProcessInternal id ctl afterRemove none
  | requestStop handler => exact w.within_stopProcess id handler
  | shutDownConnection shutdown => exact w.within_shutdownConnection id shutdown none
  | taskDone hasTask ready handler => exact w.within_taskDone id hasTask ready handler

end Worker

end OsterLib.Network
