import OsterLib.Network.Worker

/-!
# The recorded event mask

The worker keeps the event mask of a connection twice: `events_handled_` is its own record, and the
multiplexor has the mask that is in force. `MasksAgree` says that the two are equal for every connection
with an open socket.

Three places let them drift apart. The record of `enable_writing` and `enable_readable` follows only if
the error code is clear afterwards, although a `MOD` that succeeds does not clear it; the same holds of
`removeConnectionProcessInternal`. `addConnectionProcessInternal` changes the record before it asks the
multiplexor, and `attachConnectionInternal` takes a connection whose `ADD` failed whenever the error
code reads as clear. `Op.Safe` names these cases, and a run without them keeps `MasksAgree`
(`run_masksAgree`).
-/

namespace OsterLib.Network
open OsterLib.Lib

/-- The mask that is registered for an open socket is the recorded one. -/
def ConnectionState.Agrees (conn : ConnectionState) : Prop :=
  conn.socket.isOpen = true → conn.socket.interest = some conn.eventsHandled

namespace Worker

/-- The recorded masks of all connections agree with the kernel's. -/
def MasksAgree (w : Worker) : Prop :=
  ∀ id conn, w.connections id = some conn → conn.Agrees

/-- A call of `modify` reaches the kernel. -/
def Reaches (w : Worker) (conn : ConnectionState) : Prop :=
  w.epoll = true ∧ conn.socket.isOpen = true

/-- A call of `modify` reaches the kernel and is granted. -/
def Granted (w : Worker) (conn : ConnectionState) (ctl : Ctl) : Prop :=
  w.Reaches conn ∧ ctl.res = none

end Worker

/-- A `MOD` that fails leaves the registration as it was: no `DEL` that follows it succeeds. -/
def Ctl.Keeps (ctl : Ctl) : Prop :=
  ctl.res = some .badFileDescriptor → ctl.del ≠ none

/-- An `ADD` that fails is reported by the error code: the `DEL` that follows leaves `errno` alone. -/
def Ctl.Reported (ctl : Ctl) : Prop :=
  ctl.res ≠ none → ctl.del = none ∧ ErrorCode.isSet ctl.res = true

/-! ## One call of the multiplexor -/

/-- What `Multiplexor::modify` does to a socket. -/
lemma Socket.modify_cases (epoll : Bool) (s : Socket) (events : Event) (ctl : Ctl)
    (err : ErrorCode) :
    let (after, done, code) := s.modify epoll events ctl err
    after.isOpen = s.isOpen ∧
      ((done = true ∧ (epoll = true ∧ s.isOpen = true) ∧ ctl.res = none ∧ code = err ∧
          after.interest = some events) ∨
        (done = false ∧ code ≠ none ∧
          ((epoll = true → s.isOpen = true → ctl.Keeps) → after.interest = s.interest))) := by
  unfold Socket.modify
  cases epoll with
  | false => simp
  | true =>
    cases isOpen : s.isOpen with
    | false => simp [isOpen]
    | true =>
      cases res : ctl.res with
      | none => simp
      | some errno =>
        by_cases bad : errno = .badFileDescriptor
        · cases del : ctl.del with
          | none => simp [bad, Ctl.Keeps, res, del]
          | some code => simp [isOpen, bad]
        · simp [isOpen, bad]

/-- A registration that is granted is the interest. -/
lemma Socket.add_done (epoll : Bool) (s : Socket) (events : Event) (ctl : Ctl)
    (done : (s.add epoll events ctl).2.1 = true) :
    (s.add epoll events ctl).1.interest = some events := by
  unfold Socket.add at *
  split at done
  · cases done
  · rename_i reaches
    cases res : ctl.res with
    | none => simp [reaches]
    | some errno =>
      cases del : ctl.del with
      | none => simp [res, del] at done
      | some code => simp [res, del] at done

/-- Where the error code does not report a failed `ADD`, the `ADD` worked. -/
lemma Socket.add_clear (epoll : Bool) (s : Socket) (events : Event) {ctl : Ctl}
    (reported : epoll = true → s.isOpen = true → ctl.Reported) :
    let (after, _, code) := s.add epoll events ctl
    code.isSet = false → after.interest = some events := by
  unfold Socket.add
  cases epoll with
  | false => simp [ErrorCode.isSet]
  | true =>
    cases isOpen : s.isOpen with
    | false => simp [ErrorCode.isSet]
    | true =>
      cases res : ctl.res with
      | none => simp
      | some errno =>
        obtain ⟨del, set⟩ := reported rfl isOpen (by simp [res])
        rw [res] at set
        simp [del, set]

/-- A modification is granted exactly if there is a socket and the kernel takes it. -/
lemma Socket.modify_done (epoll : Bool) (s : Socket) (events : Event) (ctl : Ctl)
    (err : ErrorCode) : (s.modify epoll events ctl err).2.1 = true ↔
      (epoll = true ∧ s.isOpen = true) ∧ ctl.res = none := by
  unfold Socket.modify
  cases epoll with
  | false => simp
  | true =>
    cases isOpen : s.isOpen with
    | false => simp
    | true =>
      cases res : ctl.res with
      | none => simp
      | some errno =>
        by_cases bad : errno = .badFileDescriptor
        · cases ctl.del with
          | none => simp [bad]
          | some code => simp [bad]
        · simp [bad]

/-- A modification leaves the socket open or closed. -/
lemma Socket.modify_isOpen (epoll : Bool) (s : Socket) (events : Event) (ctl : Ctl)
    (err : ErrorCode) : (s.modify epoll events ctl err).1.isOpen = s.isOpen := by
  have cases := s.modify_cases epoll events ctl err
  generalize s.modify epoll events ctl err = after at cases ⊢
  exact cases.1

/-- A successful `modify` installs the mask, a failed one loses nothing. -/
lemma ConnectionState.Agrees.modify {conn : ConnectionState} (agr : conn.Agrees) (epoll : Bool)
    (events : Event) {ctl : Ctl} (err : ErrorCode)
    (keeps : epoll = true → conn.socket.isOpen = true → ctl.Keeps) :
    let (socket, done, code) := conn.socket.modify epoll events ctl err
    (done = true ∧ (epoll = true ∧ conn.socket.isOpen = true) ∧ ctl.res = none ∧ code = err ∧
        ∀ c : ConnectionState, c.socket = socket → c.eventsHandled = events → c.Agrees) ∨
      (done = false ∧ code ≠ none ∧ ∀ c : ConnectionState, c.socket = socket →
        c.eventsHandled = conn.eventsHandled → c.Agrees) := by
  have cases := conn.socket.modify_cases epoll events ctl err
  generalize conn.socket.modify epoll events ctl err = after at cases ⊢
  obtain ⟨socket, done, code⟩ := after
  obtain ⟨isOpen, ⟨worked, reaches, res, same_err, interest⟩ | ⟨failed, set, interest⟩⟩ := cases
  · refine .inl ⟨worked, reaches, res, same_err, ?_⟩
    intro c same mask _
    rw [same, mask]
    exact interest
  · refine .inr ⟨failed, set, ?_⟩
    intro c same mask stillOpen
    rw [same] at stillOpen ⊢
    rw [mask, interest keeps]
    exact agr (isOpen ▸ stillOpen)

/-! ## The table of connections -/

namespace Worker

/-- A connection that agrees can be put in the table. -/
lemma MasksAgree.put {w : Worker} (agr : w.MasksAgree) {id : ConnectionId}
    {conn : ConnectionState} (h : conn.Agrees) : (w.put id conn).MasksAgree := by
  intro id' conn' found
  by_cases same : id' = id
  · subst same
    have e : conn = conn' := by simpa [Worker.put] using found
    exact e ▸ h
  · exact agr id' conn' (by simpa [Worker.put, same] using found)

/-- A connection can be erased. -/
lemma MasksAgree.erase {w : Worker} (agr : w.MasksAgree) (id : ConnectionId) :
    (w.erase id).MasksAgree := by
  intro id' conn' found
  by_cases same : id' = id
  · subst same
    simp [Worker.erase] at found
  · exact agr id' conn' (by simpa [Worker.erase, same] using found)

/-- A change that keeps agreement can be made. -/
lemma MasksAgree.modifyState {w : Worker} (agr : w.MasksAgree) (id : ConnectionId)
    {f : ConnectionState → ConnectionState} (keep : ∀ conn, conn.Agrees → (f conn).Agrees) :
    (w.modifyState id f).MasksAgree := by
  intro id' conn' found
  by_cases same : id' = id
  · subst same
    obtain ⟨conn, here, e⟩ : ∃ conn, w.connections id' = some conn ∧ f conn = conn' := by
      simpa [Worker.modifyState] using found
    exact e ▸ keep conn (agr id' conn here)
  · exact agr id' conn' (by simpa [Worker.modifyState, same] using found)

/-- A connection can be abandoned. -/
lemma MasksAgree.abandon {w : Worker} (agr : w.MasksAgree) (id : ConnectionId) :
    (w.abandon id).MasksAgree := by
  refine MasksAgree.modifyState agr id fun conn _ => ?_
  intro stillOpen
  simp [Socket.close] at stillOpen

/-- A connection can be hung up. -/
lemma MasksAgree.hangUp {w : Worker} (agr : w.MasksAgree) (id : ConnectionId) (err : ErrorCode) :
    (w.hangUp id err).MasksAgree := by
  have closed : ((w.modifyState id fun conn => { conn with state := .closed }).abandon
      id).MasksAgree := by
    refine MasksAgree.abandon (MasksAgree.modifyState agr id ?_) id
    intro conn h
    exact h
  unfold Worker.hangUp
  dsimp only
  split
  · exact closed.erase id
  · exact closed

/-! ## Handlers of a process -/

/-- The call asks the multiplexor for another mask. -/
def Asks (w : Worker) (conn : ConnectionState) (call : EnableCall) : Prop :=
  w.Reaches conn ∧ call.enable ≠ conn.eventsHandled.has call.flag

/-- If the call asks the multiplexor and gets its will, it was made with a clear error code. -/
def EnableSafe (id : ConnectionId) (w : Worker) (call : EnableCall) : Prop :=
  ∀ conn, w.connections id = some conn → w.Asks conn call →
    (call.ctl.res = none → call.err = none) ∧ call.ctl.Keeps

/-- Every call that a handler makes is safe where it is made. -/
def CallbackSafe (w : Worker) (id : ConnectionId) (handler : Callback) : Prop :=
  Guarded (enableCall id) (EnableSafe id) w handler.calls

/-- The process may enable and disable what the kernel grants. -/
lemma MasksAgree.enableCall {w : Worker} (agr : w.MasksAgree) {id : ConnectionId}
    {call : EnableCall} (safe : EnableSafe id w call) : (enableCall id w call).MasksAgree := by
  unfold Worker.enableCall enableFlag
  cases found : w.connections id with
  | none => exact agr
  | some conn =>
    by_cases change : call.enable = conn.eventsHandled.has call.flag
    · simpa [change] using agr
    · simp only [bne_iff_ne, ne_eq, change, not_false_eq_true, if_true]
      generalize (if call.enable = true then conn.eventsHandled ||| call.flag
        else conn.eventsHandled &&& ~~~call.flag) = events
      have asks : w.epoll = true → conn.socket.isOpen = true →
          (call.ctl.res = none → call.err = none) ∧ call.ctl.Keeps :=
        fun epoll isOpen => safe conn found ⟨⟨epoll, isOpen⟩, change⟩
      have after := (agr id conn found).modify w.epoll events call.err
        fun epoll isOpen => (asks epoll isOpen).2
      generalize conn.socket.modify w.epoll events call.ctl call.err = result at after ⊢
      obtain ⟨socket, done, code⟩ := result
      refine agr.put ?_
      obtain ⟨_, reaches, res, same, agrees⟩ | ⟨_, set, agrees⟩ := after
      · have clear : call.err = none := (asks reaches.1 reaches.2).1 res
        exact agrees _ rfl (by simp [same, clear])
      · exact agrees _ rfl (by simp [set])

/-- A callback keeps agreement. -/
lemma MasksAgree.callback {w : Worker} (agr : w.MasksAgree) {id : ConnectionId}
    {handler : Callback} (safe : w.CallbackSafe id handler) :
    (w.callback id handler).1.MasksAgree :=
  have keep : ∀ w call, w.MasksAgree → EnableSafe id w call →
      (Worker.enableCall id w call).MasksAgree := fun _ _ agr safe => agr.enableCall safe
  (always_of_guarded keep agr safe).last

/-! ## The operations of the worker -/

/-- `on_init_connection` is reached with a process that makes only safe calls. -/
def InitSafe (w : Worker) (id : ConnectionId) (state : State) (handler : Callback) : Prop :=
  { w with initCalls := w.initCalls ++ [(id, state)] }.CallbackSafe id handler

/-- `on_init_connection` keeps agreement. -/
lemma MasksAgree.onInitConnection {w : Worker} (agr : w.MasksAgree) {id : ConnectionId}
    {state : State} {handler : Callback} (safe : w.InitSafe id state handler) :
    (w.onInitConnection id state handler).1.MasksAgree := by
  have logged : { w with initCalls := w.initCalls ++ [(id, state)] }.MasksAgree := agr
  exact logged.callback safe

/-- `connectInternal` keeps agreement. -/
lemma MasksAgree.connectInternal {w : Worker} (agr : w.MasksAgree) (id : ConnectionId)
    (validHandler : Bool) (socket : Socket) (env : ConnectEnv) (err : ErrorCode) :
    (w.connectInternal id validHandler socket env err).1.MasksAgree := by
  unfold Worker.connectInternal
  split
  · exact agr
  · cases env.setNoBlock with
    | some errno => exact agr
    | none =>
      have add := socket.add_done w.epoll (.In ||| .HangUp ||| .Error) env.add
      dsimp only
      generalize socket.add w.epoll (.In ||| .HangUp ||| .Error) env.add = result at add ⊢
      obtain ⟨tracked, added, code⟩ := result
      cases added with
      | false => exact agr
      | true =>
        have modify := tracked.modify_cases w.epoll (.Out ||| .Error ||| .HangUp) env.modify code
        simp only [Bool.not_true, Bool.false_eq_true, if_false]
        generalize tracked.modify w.epoll (.Out ||| .Error ||| .HangUp) env.modify code = result
          at modify ⊢
        obtain ⟨changed, modified, code'⟩ := result
        split
        · split
          · exact agr
          · exact agr.put fun _ => add rfl
        · cases modified with
          | false => exact agr
          | true =>
            simp only [Bool.not_true, Bool.false_eq_true, if_false]
            split
            · exact agr
            · refine agr.put fun _ => ?_
              obtain ⟨_, worked | failed⟩ := modify
              · exact worked.2.2.2.2
              · exact absurd failed.1 (by simp)
        · exact agr

/-- An `ADD` for a new connection that fails is reported. -/
def AttachSafe (w : Worker) (id : ConnectionId) (socket : Socket) (ctl : Ctl) : Prop :=
  w.connections id = none → w.epoll = true → socket.isOpen = true → ctl.Reported

/-- `attachConnectionInternal` keeps agreement. -/
lemma MasksAgree.attachConnectionInternal {w : Worker} (agr : w.MasksAgree) {id : ConnectionId}
    {socket : Socket} {ctl : Ctl} (safe : w.AttachSafe id socket ctl)
    (afterAttach : ErrorCode → ErrorCode) :
    (w.attachConnectionInternal id socket ctl afterAttach).1.MasksAgree := by
  unfold Worker.attachConnectionInternal
  cases found : w.connections id with
  | some conn => exact agr
  | none =>
    have added := socket.add_clear w.epoll (.Error ||| .HangUp) (safe found)
    dsimp only
    generalize socket.add w.epoll (.Error ||| .HangUp) ctl = result at added ⊢
    obtain ⟨after, done, code⟩ := result
    cases set : code.isSet with
    | true => simpa [set] using agr
    | false =>
      simp only [Bool.false_eq_true, if_false]
      refine agr.put ?_
      intro _
      exact added set

/-- If the multiplexor refuses the mask with `In`, it is the recorded one already, and the process
    makes only safe calls when it is told of its connection. -/
def AddProcessSafe (w : Worker) (id : ConnectionId) (proc : Nat) (env : AttachEnv)
    (err : ErrorCode) : Prop :=
  ∀ conn, w.connections id = some conn → w.stopRequested = false →
    (conn.state = .active ∨ conn.state = .connecting) →
      (w.Reaches conn → env.ctl.Keeps) ∧
      (conn.socket.isOpen = true → ¬ w.Granted conn env.ctl →
        (conn.eventsHandled &&& ~~~.Out) ||| .In = conn.eventsHandled) ∧
      (w.Granted conn env.ctl → (env.afterAdd none).isSet = false →
        (w.setProcess id conn proc env.ctl err).1.InitSafe id conn.state env.onInit)

/-- A process is set exactly if the kernel grants its mask. -/
lemma setProcess_granted (w : Worker) (id : ConnectionId) (conn : ConnectionState) (proc : Nat)
    (ctl : Ctl) (err : ErrorCode) :
    (w.setProcess id conn proc ctl err).2.1 = true ↔ w.Granted conn ctl :=
  conn.socket.modify_done w.epoll _ ctl err

/-- Setting a process keeps agreement. -/
lemma MasksAgree.setProcess {w : Worker} (agr : w.MasksAgree) {id : ConnectionId}
    {conn : ConnectionState} (found : w.connections id = some conn) (proc : Nat) {ctl : Ctl}
    (err : ErrorCode) (keeps : w.Reaches conn → ctl.Keeps)
    (same : conn.socket.isOpen = true → ¬ w.Granted conn ctl →
      (conn.eventsHandled &&& ~~~.Out) ||| .In = conn.eventsHandled) :
    (w.setProcess id conn proc ctl err).1.MasksAgree := by
  unfold Worker.setProcess
  have granted := conn.socket.modify_done w.epoll ((conn.eventsHandled &&& ~~~.Out) ||| .In) ctl err
  have isOpen := conn.socket.modify_isOpen w.epoll ((conn.eventsHandled &&& ~~~.Out) ||| .In)
    ctl err
  have after := (agr id conn found).modify w.epoll ((conn.eventsHandled &&& ~~~.Out) ||| .In) err
    fun epoll isOpen => keeps ⟨epoll, isOpen⟩
  dsimp only
  generalize conn.socket.modify w.epoll ((conn.eventsHandled &&& ~~~.Out) ||| .In) ctl err =
    result at granted isOpen after ⊢
  obtain ⟨socket, done, code⟩ := result
  refine agr.put ?_
  obtain ⟨_, _, _, _, agrees⟩ | ⟨failed, _, agrees⟩ := after
  · exact agrees _ rfl rfl
  · intro stillOpen
    have refused : ¬ w.Granted conn ctl := fun ok => by
      have done_eq := granted.2 ok
      simp [failed] at done_eq
    have mask := same (isOpen ▸ stillOpen) refused
    have agr' := agrees { conn with socket } rfl rfl
    exact (agr' stillOpen).trans (congrArg some mask.symm)

/-- `addConnectionProcessInternal` keeps agreement. -/
lemma MasksAgree.addConnectionProcessInternal {w : Worker} (agr : w.MasksAgree)
    {id : ConnectionId} {proc : Nat} {env : AttachEnv} {err : ErrorCode}
    (safe : w.AddProcessSafe id proc env err) :
    (w.addConnectionProcessInternal id proc env err).1.MasksAgree := by
  unfold Worker.addConnectionProcessInternal
  cases stop : w.stopRequested with
  | true => exact agr
  | false =>
    cases found : w.connections id with
    | none => exact agr
    | some conn =>
      by_cases live : conn.state = .active ∨ conn.state = .connecting
      · obtain ⟨keeps, same, init⟩ := safe conn found stop live
        have set := agr.setProcess found proc err keeps same
        have granted := w.setProcess_granted id conn proc env.ctl err
        simp only [live, if_true, Bool.false_eq_true, if_false]
        generalize w.setProcess id conn proc env.ctl err = result at init set granted ⊢
        obtain ⟨w', modified, code⟩ := result
        cases modified with
        | false => exact set
        | true =>
          simp only [Bool.not_true, Bool.false_eq_true, if_false]
          cases hook : (env.afterAdd none).isSet with
          | true => exact set
          | false =>
            have told := set.onInitConnection (init (granted.1 rfl) hook)
            generalize w'.onInitConnection id conn.state env.onInit = result at told ⊢
            obtain ⟨w'', code'⟩ := result
            simp only [Bool.false_eq_true, if_false]
            split
            · exact told.abandon id
            · exact told
      · simpa [live] using agr

/-- A `MOD` without the process is made with a clear error code. -/
def RemoveProcessSafe (w : Worker) (id : ConnectionId) (ctl : Ctl) (err : ErrorCode) : Prop :=
  ∀ conn, w.connections id = some conn → w.Reaches conn →
    (ctl.res = none → err.isSet = false) ∧ ctl.Keeps

/-- `removeConnectionProcessInternal` keeps agreement. -/
lemma MasksAgree.removeConnectionProcessInternal {w : Worker} (agr : w.MasksAgree)
    {id : ConnectionId} {ctl : Ctl} {err : ErrorCode} (safe : w.RemoveProcessSafe id ctl err)
    (afterRemove : ErrorCode → ErrorCode) :
    (w.removeConnectionProcessInternal id ctl afterRemove err).1.MasksAgree := by
  unfold Worker.removeConnectionProcessInternal
  cases found : w.connections id with
  | none => exact agr
  | some conn =>
    have after := (agr id conn found).modify w.epoll (conn.eventsHandled ^^^ .In) err
      fun epoll isOpen => (safe conn found ⟨epoll, isOpen⟩).2
    dsimp only
    generalize conn.socket.modify w.epoll (conn.eventsHandled ^^^ .In) ctl err = result at after ⊢
    obtain ⟨socket, done, code⟩ := result
    obtain ⟨rfl, reaches, res, same, agrees⟩ | ⟨rfl, _, agrees⟩ := after
    · have clear : code.isSet = false := by
        rw [same]
        exact (safe conn found reaches).1 res
      simp only [clear, Bool.not_true, Bool.false_eq_true, if_false]
      exact agr.put (agrees _ rfl rfl)
    · exact agr.put (agrees _ rfl rfl)

/-- `removeConnectionInternal` keeps agreement. -/
lemma MasksAgree.removeConnectionInternal {w : Worker} (agr : w.MasksAgree) (id : ConnectionId)
    (shutdown : ErrorCode) (del : Option Errc) (afterRemove : ErrorCode → ErrorCode) :
    (w.removeConnectionInternal id shutdown del afterRemove).1.MasksAgree := by
  unfold Worker.removeConnectionInternal
  cases w.connections id with
  | none => exact agr
  | some conn =>
    dsimp only
    split
    · exact agr.erase id
    · split
      · exact agr.erase id
      · exact agr.erase id

/-! ## One event -/

/-- If there is a process, it makes only safe calls when it handles the event. -/
def DispatchSafe (w : Worker) (id : ConnectionId) (handler : Callback) : Prop :=
  ∀ conn, w.connections id = some conn → conn.proc.isSome = true → w.CallbackSafe id handler

/-- Dispatching an event keeps agreement. -/
lemma MasksAgree.dispatch {w : Worker} (agr : w.MasksAgree) {id : ConnectionId}
    {handler : Callback} (safe : w.DispatchSafe id handler) :
    (w.dispatch id handler).MasksAgree := by
  unfold Worker.dispatch
  cases found : w.connections id with
  | none => exact agr
  | some conn =>
    cases proc : conn.proc.isSome with
    | false => simpa [proc] using agr
    | true =>
      have handled := agr.callback (safe conn found proc)
      simp only [proc, if_true]
      generalize w.callback id handler = result at handled ⊢
      obtain ⟨w', code⟩ := result
      dsimp only
      split
      · split
        · exact handled
        · exact handled
        · exact handled
        · exact handled.abandon id
      · exact handled

/-- A connect is completed with a registration that is kept, and the process makes only safe calls
    when it is told. -/
def CompleteSafe (w : Worker) (id : ConnectionId) (conn : ConnectionState) (env : RunEnv) : Prop :=
  (w.Reaches conn → env.ctl.Keeps) ∧
    (w.Granted conn env.ctl → conn.proc.isSome = true →
      (w.setActive id conn env.ctl none).1.InitSafe id .active env.onInit)

/-- A connection is made active exactly if the kernel grants its mask. -/
lemma setActive_granted (w : Worker) (id : ConnectionId) (conn : ConnectionState) (ctl : Ctl)
    (err : ErrorCode) : (w.setActive id conn ctl err).2.1 = true ↔ w.Granted conn ctl :=
  conn.socket.modify_done w.epoll _ ctl err

/-- Making a connection active keeps agreement. -/
lemma MasksAgree.setActive {w : Worker} (agr : w.MasksAgree) {id : ConnectionId}
    {conn : ConnectionState} (found : w.connections id = some conn) {ctl : Ctl} (err : ErrorCode)
    (keeps : w.Reaches conn → ctl.Keeps) : (w.setActive id conn ctl err).1.MasksAgree := by
  unfold Worker.setActive
  have after := (agr id conn found).modify w.epoll (.HangUp ||| .Error) err
    fun epoll isOpen => keeps ⟨epoll, isOpen⟩
  dsimp only
  generalize conn.socket.modify w.epoll (.HangUp ||| .Error) ctl err = result at after ⊢
  obtain ⟨socket, done, code⟩ := result
  refine agr.put ?_
  obtain ⟨rfl, _, _, _, agrees⟩ | ⟨rfl, _, agrees⟩ := after
  · exact agrees _ rfl rfl
  · exact agrees _ rfl rfl

/-- Completing a connect keeps agreement. -/
lemma MasksAgree.completeConnect {w : Worker} (agr : w.MasksAgree) {id : ConnectionId}
    {conn : ConnectionState} (found : w.connections id = some conn) {env : RunEnv}
    (safe : w.CompleteSafe id conn env) : (w.completeConnect id conn env none).1.MasksAgree := by
  obtain ⟨keeps, init⟩ := safe
  have active := agr.setActive found none keeps
  have granted := w.setActive_granted id conn env.ctl none
  unfold Worker.completeConnect
  generalize w.setActive id conn env.ctl none = result at active granted init ⊢
  obtain ⟨w', modified, code⟩ := result
  cases modified with
  | false => exact active
  | true =>
    cases proc : conn.proc.isSome with
    | false => simpa [proc] using active
    | true =>
      have told := active.onInitConnection (init (granted.1 rfl) proc)
      simp only [Bool.not_true, Bool.false_eq_true, if_false, if_true]
      generalize w'.onInitConnection id .active env.onInit = result at told ⊢
      obtain ⟨w'', code'⟩ := result
      dsimp only
      have closed : (if code'.isSet = true then w''.modifyState id fun conn =>
          { conn with socket := conn.socket.close } else w'').MasksAgree := by
        split
        · refine told.modifyState id fun conn _ stillOpen => ?_
          simp [Socket.close] at stillOpen
        · exact told
      exact closed.modifyState id fun _ h => h

/-- The process makes only safe calls while the event is handled. -/
def RunSafe (w : Worker) (id : ConnectionId) (events : Event) (env : RunEnv) : Prop :=
  ∀ conn, w.connections id = some conn →
    if events.has .CanReadButHangUp then conn.proc.isSome = true → w.CallbackSafe id env.onRead
    else if events.has .Error || events.has .HangUp then True
    else if conn.state = .connecting ∧ events.has .Out then
      env.sockError = none → w.CompleteSafe id conn env ∧
        (w.completeConnect id conn env none).1.DispatchSafe id env.handleEvent
    else w.DispatchSafe id env.handleEvent

/-- `run` keeps agreement. -/
lemma MasksAgree.run {w : Worker} (agr : w.MasksAgree) {id : ConnectionId} {events : Event}
    {env : RunEnv} (safe : w.RunSafe id events env) (err : ErrorCode) :
    (w.run id events env err).1.MasksAgree := by
  unfold Worker.run
  cases found : w.connections id with
  | none => exact agr
  | some conn =>
    have safe := safe conn found
    unfold Worker.handleEvents
    cases hup : events.has .CanReadButHangUp with
    | true =>
      simp only [hup, if_true] at safe ⊢
      cases proc : conn.proc.isSome with
      | true =>
        have handled := agr.callback (safe proc)
        exact handled.hangUp id _
      | false => exact agr.hangUp id err
    | false =>
      cases bad : (events.has .Error || events.has .HangUp) with
      | true => simpa [bad] using agr.hangUp id err
      | false =>
        simp only [hup, bad, Bool.false_eq_true, if_false, Bool.not_true] at safe ⊢
        split
        · rename_i completes
          simp only [completes, and_self, if_true] at safe
          split
          · rename_i clear
            obtain ⟨complete, dispatch⟩ := safe clear
            exact (agr.completeConnect found complete).dispatch dispatch
          · exact agr
        · rename_i other
          simp only [other, if_false] at safe
          exact agr.dispatch safe

/-! ## Runs -/

/-- What the worker's thread executes: commands, calls made for a `ConnectionIO`, and events. -/
inductive Op where
  | connect (id : ConnectionId) (validHandler : Bool) (socket : Socket) (env : ConnectEnv)
      (err : ErrorCode)
  | attachConnection (id : ConnectionId) (socket : Socket) (ctl : Ctl)
      (afterAttach : ErrorCode → ErrorCode)
  | addProcess (id : ConnectionId) (proc : Nat) (env : AttachEnv) (err : ErrorCode)
  | removeProcess (id : ConnectionId) (ctl : Ctl) (afterRemove : ErrorCode → ErrorCode)
      (err : ErrorCode)
  | removeConnection (id : ConnectionId) (shutdown : ErrorCode) (del : Option Errc)
      (afterRemove : ErrorCode → ErrorCode)
  | enable (id : ConnectionId) (call : EnableCall)
  | event (id : ConnectionId) (events : Event) (env : RunEnv) (err : ErrorCode)
  | requestStop

/-- An operation on the worker -/
def step (w : Worker) : Op → Worker
  | .connect id validHandler socket env err =>
    (w.connectInternal id validHandler socket env err).1
  | .attachConnection id socket ctl afterAttach =>
    (w.attachConnectionInternal id socket ctl afterAttach).1
  | .addProcess id proc env err => (w.addConnectionProcessInternal id proc env err).1
  | .removeProcess id ctl afterRemove err =>
    (w.removeConnectionProcessInternal id ctl afterRemove err).1
  | .removeConnection id shutdown del afterRemove =>
    (w.removeConnectionInternal id shutdown del afterRemove).1
  | .enable id call => enableCall id w call
  | .event id events env err => (w.run id events env err).1
  | .requestStop => { w with stopRequested := true }

/-- The operation does not let the two masks of a connection drift apart. -/
def Safe (w : Worker) : Op → Prop
  | .attachConnection id socket ctl _ => w.AttachSafe id socket ctl
  | .addProcess id proc env err => w.AddProcessSafe id proc env err
  | .removeProcess id ctl _ err => w.RemoveProcessSafe id ctl err
  | .enable id call => EnableSafe id w call
  | .event id events env _ => w.RunSafe id events env
  | .connect .. | .removeConnection .. | .requestStop => True

/-- Every safe operation keeps agreement. -/
lemma MasksAgree.step {w : Worker} (agr : w.MasksAgree) {op : Op} (safe : w.Safe op) :
    (w.step op).MasksAgree := by
  cases op with
  | connect id validHandler socket env err =>
    exact agr.connectInternal id validHandler socket env err
  | attachConnection id socket ctl afterAttach =>
    exact agr.attachConnectionInternal safe afterAttach
  | addProcess id proc env err => exact agr.addConnectionProcessInternal safe
  | removeProcess id ctl afterRemove err =>
    exact agr.removeConnectionProcessInternal safe afterRemove
  | removeConnection id shutdown del afterRemove =>
    exact agr.removeConnectionInternal id shutdown del afterRemove
  | enable id call => exact agr.enableCall safe
  | event id events env err => exact agr.run safe err
  | requestStop => exact agr

/-- In a run of safe operations the recorded and the registered masks agree all along. -/
theorem run_masksAgree (epoll : Bool) {ops : List Op} (safe : Guarded step Safe { epoll } ops) :
    Always step MasksAgree { epoll } ops := by
  refine always_of_guarded (fun _ _ agr safe => MasksAgree.step agr safe) ?_ safe
  intro id conn found
  cases found

/-- A connection gets a process, which asks for `Out` with a clear error code. -/
theorem run_masksAgree_writing :
    let ops := [Op.attachConnection 1 {} {} id, .addProcess 1 7 {} none,
      .enable 1 ⟨.Out, true, none, {}⟩]
    Guarded step Safe { epoll := true } ops ∧ Always step MasksAgree { epoll := true } ops := by
  intro ops
  have safe : Guarded step Safe { epoll := true } ops := by
    refine ⟨?_, ?_, ?_, trivial⟩
    · intro _ _ _ refused
      exact absurd rfl refused
    · intro conn _ _ _
      refine ⟨fun _ => nofun, fun isOpen refused => ?_, fun _ _ => trivial⟩
      exact absurd ⟨⟨rfl, isOpen⟩, rfl⟩ refused
    · intro conn _ _
      exact ⟨fun _ => rfl, nofun⟩
  exact ⟨safe, run_masksAgree true safe⟩

/-- The receive ring of a connection is full: `__recv_internal__` stores `no_buffer_space` and disables
    reading with that code. The multiplexor drops `In`, the record keeps it. -/
theorem full_ring_masks_disagree :
    ¬ ∀ (epoll : Bool) (ops : List Op), Always step MasksAgree { epoll } ops := by
  intro all
  have agr := (all true [.attachConnection 1 {} {} id, .addProcess 1 7 {} none,
    .enable 1 ⟨.In, false, some .noBufferSpace, {}⟩]).last
  have found : (Lib.run step { epoll := true } [.attachConnection 1 {} {} id,
      .addProcess 1 7 {} none, .enable 1 ⟨.In, false, some .noBufferSpace, {}⟩]).connections 1 =
      some ⟨.active, some 7, true, ⟨true, some 0x18⟩, 0x19⟩ := by decide
  exact absurd (agr 1 _ found rfl) (by decide)

end Worker
end OsterLib.Network
