import OsterLib.Network.EventMask

/-!
# The removal of connections

A connection that cannot be used any more stays in the table until its `RemoveConnection` is executed: `handle_events`,
`run` and `addConnectionProcessInternal` close the socket, drop process and `ConnectionIO` and queue the command, which
`handle_pending` executes in a later round. Other threads queue the same command.

No connection is left behind: in every state, one that is closed, or has lost its socket or its `ConnectionIO`, awaits
its removal, and an execution of the queue leaves exactly the connections that did not, each of them as it was
(`run_executed`). The operations go through states in which this fails for the connection that they work on, and hold
for the others (`TendedBut`).
-/

namespace OsterLib.Network
open OsterLib.Lib

/-- The connection can be used: it is not closed, and has its socket and its `ConnectionIO`. -/
structure ConnectionState.Settled (conn : ConnectionState) : Prop where
  isOpen : conn.socket.isOpen = true
  connIO : conn.connIO = true
  state : conn.state ≠ .closed

/-- An entry that differs in its process and its masks can be used as before. -/
lemma ConnectionState.Settled.modify {conn conn' : ConnectionState} (settled : conn.Settled) {epoll : Bool}
    {events : Event} {ctl : Ctl} {err : ErrorCode} (socket : conn'.socket = (conn.socket.modify epoll events ctl err).1)
    (kept : conn'.connIO = conn.connIO) (state : conn'.state ≠ .closed) : conn'.Settled := by
  refine ⟨?_, kept.trans settled.connIO, state⟩
  rw [socket, conn.socket.modify_isOpen]
  exact settled.isOpen

/-- A registration leaves the socket open or closed. -/
lemma Socket.add_isOpen (epoll : Bool) (s : Socket) (events : Event) (ctl : Ctl) :
    (s.add epoll events ctl).1.isOpen = s.isOpen := by
  unfold Socket.add
  split
  · rfl
  · cases ctl.res with
    | none => rfl
    | some errno => cases ctl.del with
      | none => rfl
      | some _ => rfl

/-- A socket that is not open is reported. -/
lemma Socket.add_open (epoll : Bool) (s : Socket) (events : Event) (ctl : Ctl)
    (clear : (s.add epoll events ctl).2.1 = true ∨ (s.add epoll events ctl).2.2.isSet = false) : s.isOpen = true := by
  cases isOpen : s.isOpen with
  | true => rfl
  | false =>
    unfold Socket.add at clear
    rw [isOpen, Bool.not_false, Bool.or_true, if_pos rfl] at clear
    rcases clear with clear | clear
    · cases clear
    · cases clear

/-- The outside world of `removeConnectionInternal` -/
structure RemoveEnv where
  shutdown : ErrorCode := none
  del : Option Errc := none
  afterRemove : ErrorCode → ErrorCode := id

namespace Worker
variable {w : Worker} {id : ConnectionId}

/-- The removal of the connection is queued. -/
def Awaits (w : Worker) (id : ConnectionId) : Prop := .removeConnection id ∈ w.cmds

instance (w : Worker) (id : ConnectionId) : Decidable (w.Awaits id) := inferInstanceAs (Decidable (_ ∈ _))

/-- The connection can be used or awaits its removal. -/
def Tended (w : Worker) (id : ConnectionId) : Prop :=
  ∀ conn, w.connections id = some conn → conn.Settled ∨ w.Awaits id

/-- Every connection is tended. -/
def AllTended (w : Worker) : Prop := ∀ id, w.Tended id

/-- Every other connection is tended. -/
def TendedBut (w : Worker) (id : ConnectionId) : Prop := ∀ id', id' ≠ id → w.Tended id'

/-! ## The table of connections -/

/-- All connections are tended, but one need not be. -/
lemma AllTended.but (all : w.AllTended) (id : ConnectionId) : w.TendedBut id := fun id' _ => all id'

/-- A change of the entry of one connection -/
lemma TendedBut.update (but : w.TendedBut id) (entry : Option ConnectionState) :
    ({ w with connections := Function.update w.connections id entry } : Worker).TendedBut id := by
  intro id' other conn found
  dsimp only at found
  rw [Function.update_of_ne other] at found
  exact but id' other conn found

/-- A tended entry makes all of them tended. -/
lemma TendedBut.replace (but : w.TendedBut id) {entry : Option ConnectionState}
    (this : ∀ conn, entry = some conn → conn.Settled ∨ w.Awaits id) :
    ({ w with connections := Function.update w.connections id entry } : Worker).AllTended := by
  intro id'
  by_cases same : id' = id
  · intro conn found
    dsimp only at found
    rw [same, Function.update_self] at found
    exact same ▸ this conn found
  · exact but.update entry id' same

/-- An erased connection needs no tending. -/
lemma AllTended.erase (all : w.AllTended) (id : ConnectionId) : (w.erase id).AllTended := (all.but id).replace nofun

/-- A settled connection is tended. -/
lemma AllTended.put (all : w.AllTended) {conn : ConnectionState} (settled : conn.Settled) :
    (w.put id conn).AllTended := by
  refine (all.but id).replace fun conn' same => ?_
  cases same
  exact .inl settled

/-- An entry is changed that could be used before only if it can afterwards. -/
lemma AllTended.change (all : w.AllTended) {conn conn' : ConnectionState} (found : w.connections id = some conn)
    (keep : conn.Settled → conn'.Settled) : (w.put id conn').AllTended := by
  refine (all.but id).replace fun conn'' same => ?_
  cases same
  exact (all id conn found).imp_left keep

/-- Nothing else has to be known of a connection whose removal is queued. -/
lemma TendedBut.push (but : w.TendedBut id) : (w.pushCommand (.removeConnection id)).AllTended := by
  intro id' conn found
  by_cases same : id' = id
  · rw [same]
    exact .inr List.mem_concat_self
  · exact (but id' same conn found).imp_right (List.mem_append_left _)

/-- A connection whose removal is queued is tended. -/
lemma AllTended.push (all : w.AllTended) (id : ConnectionId) : (w.pushCommand (.removeConnection id)).AllTended :=
  (all.but id).push

/-- An abandoned connection is tended. -/
lemma TendedBut.abandon (but : w.TendedBut id) : (w.abandon id).AllTended := (but.update _).push

/-- A connection that is hung up is tended. -/
lemma AllTended.hangUp (all : w.AllTended) (id : ConnectionId) (err : ErrorCode) : (w.hangUp id err).AllTended := by
  have closed := ((all.but id).update ((w.connections id).map fun conn => { conn with state := .closed })).abandon
  unfold Worker.hangUp
  cases err.isSet with
  | true => exact closed.erase id
  | false => exact closed

/-! ## The operations of the worker -/

/-- Enabling events leaves all tended. -/
lemma AllTended.enableCall (all : w.AllTended) (id : ConnectionId) (call : EnableCall) :
    (Worker.enableCall id w call).AllTended := by
  unfold Worker.enableCall enableFlag
  cases found : w.connections id with
  | none => exact all
  | some conn =>
    dsimp only
    split
    · exact all.change found fun settled => settled.modify rfl rfl settled.state
    · exact all

/-- A callback leaves all tended. -/
lemma AllTended.callback (all : w.AllTended) (id : ConnectionId) (handler : Callback) :
    (w.callback id handler).1.AllTended :=
  run_of_keep (P := AllTended) (fun _ call all => all.enableCall id call) handler.calls all

/-- `on_init_connection` leaves all tended. -/
lemma AllTended.onInitConnection (all : w.AllTended) (id : ConnectionId) (state : State) (handler : Callback) :
    (w.onInitConnection id state handler).1.AllTended := by
  have logged : ({ w with initCalls := w.initCalls ++ [(id, state)] } : Worker).AllTended := all
  exact logged.callback id handler

/-- `connectInternal` leaves all tended. -/
lemma AllTended.connectInternal (all : w.AllTended) (id : ConnectionId) (validHandler : Bool) (socket : Socket)
    (env : ConnectEnv) (err : ErrorCode) : (w.connectInternal id validHandler socket env err).1.AllTended := by
  unfold Worker.connectInternal
  split
  · exact all
  · cases env.setNoBlock with
    | some errno => exact all
    | none =>
      have isOpen := socket.add_isOpen w.epoll (.In ||| .HangUp ||| .Error) env.add
      have opened := socket.add_open w.epoll (.In ||| .HangUp ||| .Error) env.add
      dsimp only
      generalize socket.add w.epoll (.In ||| .HangUp ||| .Error) env.add = result at isOpen opened ⊢
      obtain ⟨tracked, added, code⟩ := result
      cases added with
      | false => exact all
      | true =>
        have tracked_open : tracked.isOpen = true := isOpen.trans (opened (.inl rfl))
        rw [Bool.not_true, if_neg Bool.false_ne_true]
        split
        · split
          · exact all
          · exact all.put ⟨tracked_open, rfl, nofun⟩
        · split
          · exact all
          · split
            · exact all
            · exact all.put ⟨(tracked.modify_isOpen ..).trans tracked_open, rfl, nofun⟩
        · exact all

/-- `attachConnectionInternal` leaves all tended. -/
lemma AllTended.attachConnectionInternal (all : w.AllTended) (id : ConnectionId) (socket : Socket) (ctl : Ctl)
    (afterAttach : ErrorCode → ErrorCode) : (w.attachConnectionInternal id socket ctl afterAttach).1.AllTended := by
  unfold Worker.attachConnectionInternal
  cases w.connections id with
  | some conn => exact all
  | none =>
    dsimp only
    cases set : (socket.add w.epoll (.Error ||| .HangUp) ctl).2.2.isSet with
    | true => exact all
    | false =>
      have isOpen := socket.add_isOpen w.epoll (.Error ||| .HangUp) ctl
      exact all.put ⟨isOpen.trans (socket.add_open _ _ _ (.inr set)), rfl, nofun⟩

/-- Setting a process leaves all tended. -/
lemma AllTended.setProcess (all : w.AllTended) {conn : ConnectionState} (found : w.connections id = some conn)
    (proc : Nat) (ctl : Ctl) (err : ErrorCode) : (w.setProcess id conn proc ctl err).1.AllTended :=
  all.change found fun settled => settled.modify rfl rfl settled.state

/-- `addConnectionProcessInternal` leaves all tended. -/
lemma AllTended.addConnectionProcessInternal (all : w.AllTended) (id : ConnectionId) (proc : Nat) (env : AttachEnv)
    (err : ErrorCode) : (w.addConnectionProcessInternal id proc env err).1.AllTended := by
  unfold Worker.addConnectionProcessInternal
  split
  · exact all
  · cases found : w.connections id with
    | none => exact all
    | some conn =>
      have set := all.setProcess found proc env.ctl err
      dsimp only
      generalize w.setProcess id conn proc env.ctl err = result at set ⊢
      obtain ⟨w', modified, code⟩ := result
      split
      · split
        · exact set
        · split
          · exact set
          · have told := set.onInitConnection id conn.state env.onInit
            split
            · exact (told.but id).abandon
            · exact told
      · exact all

/-- `removeConnectionProcessInternal` leaves all tended. -/
lemma AllTended.removeConnectionProcessInternal (all : w.AllTended) (id : ConnectionId) (ctl : Ctl)
    (afterRemove : ErrorCode → ErrorCode) (err : ErrorCode) :
    (w.removeConnectionProcessInternal id ctl afterRemove err).1.AllTended := by
  unfold Worker.removeConnectionProcessInternal
  cases found : w.connections id with
  | none => exact all
  | some conn =>
    dsimp only
    split
    · exact all.change found fun settled => settled.modify rfl rfl settled.state
    · split
      · exact all.change found fun settled => settled.modify rfl rfl settled.state
      · exact all.change found fun settled => settled.modify rfl rfl settled.state

/-- Whatever it reports, `removeConnectionInternal` erases the connection. -/
lemma removeConnectionInternal_eq (w : Worker) (id : ConnectionId) (shutdown : ErrorCode) (del : Option Errc)
    (afterRemove : ErrorCode → ErrorCode) :
    (w.removeConnectionInternal id shutdown del afterRemove).1 = w.erase id := by
  unfold Worker.removeConnectionInternal
  cases found : w.connections id with
  | none =>
    unfold erase
    dsimp only
    rw [Function.update_eq_self_iff.2 found.symm]
  | some conn =>
    dsimp only
    split
    · rfl
    · cases del with
      | none => rfl
      | some errno => rfl

/-! ## One event -/

/-- Completing a connect leaves all tended. -/
lemma AllTended.completeConnect (all : w.AllTended) {conn : ConnectionState} (found : w.connections id = some conn)
    (env : RunEnv) (err : ErrorCode) : (w.completeConnect id conn env err).1.AllTended := by
  have active : (w.setActive id conn env.ctl err).1.AllTended :=
    all.change found fun settled => settled.modify rfl rfl nofun
  unfold Worker.completeConnect
  generalize w.setActive id conn env.ctl err = result at active ⊢
  obtain ⟨w', modified, code⟩ := result
  dsimp only
  split
  · exact active.push id
  · split
    · have told := active.onInitConnection id .active env.onInit
      generalize w'.onInitConnection id .active env.onInit = result at told ⊢
      obtain ⟨w'', code'⟩ := result
      dsimp only
      -- in between the connection is without its socket and nothing is queued yet
      split
      · exact (((told.but id).update _).update _).push
      · exact ((told.but id).update _).push
    · exact active

/-- Dispatching an event leaves all tended. -/
lemma AllTended.dispatch (all : w.AllTended) (id : ConnectionId) (handler : Callback) :
    (w.dispatch id handler).AllTended := by
  unfold Worker.dispatch
  cases w.connections id with
  | none => exact all
  | some conn =>
    have handled := all.callback id handler
    dsimp only
    split
    · split
      · split
        · exact handled
        · exact handled
        · exact handled
        · exact (handled.but id).abandon
      · exact handled
    · exact all

/-- `run` leaves all tended. -/
lemma AllTended.run (all : w.AllTended) (id : ConnectionId) (events : Event) (env : RunEnv) (err : ErrorCode) :
    (w.run id events env err).1.AllTended := by
  unfold Worker.run
  cases found : w.connections id with
  | none => exact all
  | some conn =>
    unfold Worker.handleEvents
    cases events.has .CanReadButHangUp with
    | true =>
      have read : (if conn.proc.isSome = true then w.callback id env.onRead else (w, err)).1.AllTended := by
        split
        · exact all.callback id env.onRead
        · exact all
      exact read.hangUp id _
    | false =>
      cases events.has .Error || events.has .HangUp with
      | true => exact all.hangUp id err
      | false =>
        simp only [Bool.false_eq_true, if_false, Bool.not_true]
        split
        · split
          · exact (all.completeConnect found env none).dispatch id env.handleEvent
          · exact all.push id
        · exact all.dispatch id env.handleEvent

/-- Every operation leaves all tended. -/
lemma AllTended.step (all : w.AllTended) (op : Op) : (w.step op).AllTended := by
  cases op with
  | connect id validHandler socket env err => exact all.connectInternal id validHandler socket env err
  | attachConnection id socket ctl afterAttach => exact all.attachConnectionInternal id socket ctl afterAttach
  | addProcess id proc env err => exact all.addConnectionProcessInternal id proc env err
  | removeProcess id ctl afterRemove err => exact all.removeConnectionProcessInternal id ctl afterRemove err
  | removeConnection id shutdown del afterRemove =>
    unfold Worker.step
    dsimp only
    rw [removeConnectionInternal_eq]
    exact all.erase id
  | enable id call => exact all.enableCall id call
  | event id events env err => exact all.run id events env err
  | requestStop => exact all

/-! ## The queue -/

/-- The first command of the queue is executed. -/
def executeNext (w : Worker) (env : RemoveEnv) : Worker :=
  match w.cmds with
  | [] => w
  | .removeConnection id :: cmds =>
    ({ w with cmds }.removeConnectionInternal id env.shutdown env.del env.afterRemove).1

/-- The thread of the worker executes an operation or the next command of its queue, or another thread queues a
    removal. -/
inductive RemovalMove where
  | op (op : Op)
  | push (id : ConnectionId)
  | execute (env : RemoveEnv)

/-- An operation, a push, or the execution of the next command -/
def removalStep (w : Worker) : RemovalMove → Worker
  | .op op => w.step op
  | .push id => w.pushCommand (.removeConnection id)
  | .execute env => w.executeNext env

/-- A removal waits in the queue, first or behind the first. -/
lemma awaits_cons {cmds : List Command} (queue : w.cmds = .removeConnection id :: cmds) (id' : ConnectionId) :
    w.Awaits id' ↔ id' = id ∨ .removeConnection id' ∈ cmds := by
  unfold Awaits
  rw [queue, List.mem_cons, Command.removeConnection.injEq]

/-- The first command removes its connection, whatever fails. -/
lemma executeNext_cons {cmds : List Command} (queue : w.cmds = .removeConnection id :: cmds) (env : RemoveEnv) :
    w.executeNext env = { w with cmds, connections := Function.update w.connections id none } := by
  unfold executeNext
  rw [queue]
  exact removeConnectionInternal_eq ..

/-- Executing the next command leaves all tended. -/
lemma AllTended.executeNext (all : w.AllTended) (env : RemoveEnv) : (w.executeNext env).AllTended := by
  cases queue : w.cmds with
  | nil =>
    unfold Worker.executeNext
    rw [queue]
    exact all
  | cons cmd cmds =>
    obtain ⟨id⟩ := cmd
    rw [executeNext_cons queue]
    intro id' conn found
    dsimp only at found
    by_cases same : id' = id
    · rw [same, Function.update_self] at found
      cases found
    · rw [Function.update_of_ne same] at found
      exact (all id' conn found).imp_right fun awaits => ((awaits_cons queue id').1 awaits).resolve_left same

/-- Every move leaves all tended. -/
lemma AllTended.removalStep (all : w.AllTended) (move : RemovalMove) : (w.removalStep move).AllTended := by
  cases move with
  | op op => exact all.step op
  | push id => exact all.push id
  | execute env => exact all.executeNext env

/-- What an execution of as many commands as are queued leaves -/
lemma executed_spec (envs : List RemoveEnv) {w : Worker} (every : envs.length = w.cmds.length) :
    (Lib.run executeNext w envs).cmds = [] ∧
      ∀ id, (Lib.run executeNext w envs).connections id = if w.Awaits id then none else w.connections id := by
  induction envs generalizing w with
  | nil =>
    have queue : w.cmds = [] := List.eq_nil_of_length_eq_zero every.symm
    refine ⟨queue, fun id => ?_⟩
    rw [if_neg (by unfold Awaits; rw [queue]; exact List.not_mem_nil)]
    rfl
  | cons env envs ih =>
    rw [run_cons]
    cases queue : w.cmds with
    | nil =>
      rw [queue] at every
      cases every
    | cons cmd cmds =>
      obtain ⟨id⟩ := cmd
      rw [queue] at every
      have next := executeNext_cons queue env
      have shorter : envs.length = (w.executeNext env).cmds.length := by
        rw [next]
        exact Nat.succ.inj every
      obtain ⟨empty, left⟩ := ih shorter
      refine ⟨empty, fun id' => ?_⟩
      rw [left id']
      have awaits := awaits_cons queue id'
      have later : (w.executeNext env).Awaits id' ↔ .removeConnection id' ∈ cmds := by rw [next]; rfl
      by_cases same : id' = id
      · have gone : (w.executeNext env).connections id' = none := by rw [next, same]; exact Function.update_self ..
        rw [gone, ite_self, if_pos (awaits.2 (.inl same))]
      · have kept : (w.executeNext env).connections id' = w.connections id' := by
          rw [next]
          exact Function.update_of_ne same ..
        have iff := awaits.trans ((or_iff_right same).trans later.symm)
        rw [kept, if_congr iff rfl rfl]

/-- No connection is left behind: after every run of operations, of removals that other threads queue and of executed
    commands, an execution of the queue erases exactly the connections that await their removal, leaves the others as
    they were, and all that are left can be used. -/
theorem run_executed (epoll : Bool) (moves : List RemovalMove) (envs : List RemoveEnv)
    (every : envs.length = (Lib.run removalStep { epoll } moves).cmds.length) :
    let before := Lib.run removalStep { epoll } moves
    let after := Lib.run executeNext before envs
    after.cmds = [] ∧ (∀ id, after.connections id = if before.Awaits id then none else before.connections id) ∧
      ∀ id conn, after.connections id = some conn → conn.Settled := by
  intro before after
  have start : ({ epoll } : Worker).AllTended := nofun
  have all : before.AllTended := run_of_keep (P := AllTended) (fun _ move all => all.removalStep move) moves start
  obtain ⟨empty, left⟩ := executed_spec envs every
  refine ⟨empty, left, fun id conn found => ?_⟩
  rw [left id] at found
  split at found
  · cases found
  · rename_i awaits
    exact (all id conn found).resolve_right awaits

/-- Of two connections, the one that hangs up while it is read is erased, although its `shutdown_all` fails. -/
theorem run_executed_hang_up :
    let moves : List RemovalMove :=
      [.op (.attachConnection 1 {} {} fun err => err), .op (.attachConnection 2 {} {} fun err => err),
        .op (.event 1 Event.CanReadButHangUp {} none)]
    let before := Lib.run removalStep { epoll := true } moves
    let after := Lib.run executeNext before [{ shutdown := some .badFileDescriptor }]
    before.cmds = [.removeConnection 1] ∧ (before.connections 1).isSome ∧ (after.connections 2).isSome ∧
      after.cmds = [] ∧ (∀ id, after.connections id = if before.Awaits id then none else before.connections id) ∧
        ∀ id conn, after.connections id = some conn → conn.Settled := by
  intro moves before after
  exact ⟨rfl, rfl, rfl, run_executed true moves _ rfl⟩

end Worker
end OsterLib.Network
