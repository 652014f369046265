import OsterLib.Lib.Run
import OsterLib.Network.Definitions
import Mathlib.Logic.Function.Basic
import Mathlib.Tactic.Lemma

/-!
# The worker

`Worker` of `network/threadpool.cpp` with the parts of `AbstractWorker`, `Multiplexor` and `Socket`
that it uses: the table of connections, and for each of them the event mask twice, as the worker
records it (`eventsHandled`) and as the multiplexor has it registered (`Socket.interest`). The entry of
the multiplexor for a descriptor is kept with the socket that owns the descriptor, and is gone when the
socket is closed.

The outcomes of system calls and the code of the process are inputs. A handler of the process is a
`Callback`: the calls of `enable_writing` and `enable_readable` that it makes through its
`ConnectionIO`, each with the error code it passes in, and the error code with which it returns.
-/

namespace OsterLib.Network
open OsterLib.Lib

/-- `enum Event : uint32_t`, a set of `EPOLL` flags. -/
abbrev Event := UInt32

namespace Event

/-- `EPOLLIN` -/
def In : Event := 0x1

/-- `EPOLLOUT` -/
def Out : Event := 0x4

/-- `EPOLLERR` -/
def Error : Event := 0x8

/-- `EPOLLHUP` -/
def HangUp : Event := 0x10

/-- `EPOLLRDHUP` -/
def CanReadButHangUp : Event := 0x2000

/-- `(mask & flag) != 0` -/
def has (mask flag : Event) : Bool := mask &&& flag != 0

end Event

/-- `if(err)`: the code `0` of an `errno` that was already taken counts as clear. -/
def ErrorCode.isSet : ErrorCode → Bool
  | none | some (.other 0) => false
  | some _ => true

/-- How `epoll_ctl` answers: the `ADD` or `MOD`, and the `DEL` that may follow when it fails. -/
structure Ctl where
  res : Option Errc := none
  del : Option Errc := none
  deriving DecidableEq, Repr

/-- A socket: whether its descriptor is open, and the mask under which the multiplexor tracks it. -/
structure Socket where
  isOpen : Bool := true
  interest : Option Event := none
  deriving DecidableEq, Repr

namespace Socket

/-- Closing a descriptor ends its tracking. -/
def close (_ : Socket) : Socket := { isOpen := false, interest := none }

/-- `Multiplexor::add`. The `remove` after a failed `ADD` takes `errno` if it fails as well, so that
    the code stored afterwards is `0`. -/
def add (epoll : Bool) (s : Socket) (events : Event) (ctl : Ctl) : Socket × Bool × ErrorCode :=
  if !epoll || !s.isOpen then (s, false, some .badFileDescriptor)
  else
    match ctl.res with
    | none => ({ s with interest := some events }, true, none)
    | some errno =>
      match ctl.del with
      | none => ({ s with interest := none }, false, some errno)
      | some _ => (s, false, some (.other 0))

/-- `Multiplexor::modify`. Success leaves the error code as it was. -/
def modify (epoll : Bool) (s : Socket) (events : Event) (ctl : Ctl) (err : ErrorCode) :
    Socket × Bool × ErrorCode :=
  if !epoll || !s.isOpen then (s, false, some .badFileDescriptor)
  else
    match ctl.res with
    | none => ({ s with interest := some events }, true, err)
    | some errno =>
      if errno = .badFileDescriptor then
        match ctl.del with
        | none => ({ s with interest := none }, false, some errno)
        | some errno => (s, false, some errno)
      else (s, false, some errno)

end Socket

/-- `Connection::State` -/
inductive State where
  | closed
  | connecting
  | active
  | shutdowned
  | closing
  deriving DecidableEq, Repr

/-- The id of a `ConnectionHandle` -/
abbrev ConnectionId := Nat

/-- `AbstractWorker::ConnectionState`; `proc` tells process objects apart. -/
structure ConnectionState where
  state : State
  proc : Option Nat := none
  connIO : Bool
  socket : Socket
  eventsHandled : Event
  deriving DecidableEq, Repr

/-- The commands that the worker queues for itself. -/
inductive Command where
  | removeConnection (id : ConnectionId)
  deriving DecidableEq, Repr

/-- `Worker` -/
structure Worker where
  connections : ConnectionId → Option ConnectionState := fun _ => none
  /-- Whether the multiplexor has a descriptor of its own. -/
  epoll : Bool := true
  stopRequested : Bool := false
  cmds : List Command := []
  /-- The calls of `on_init_connection` so far, with the state of the connection at the call. -/
  initCalls : List (ConnectionId × State) := []

/-- One call of `enable_writing` (`flag` is `Out`) or `enable_readable` (`flag` is `In`). -/
structure EnableCall where
  flag : Event
  enable : Bool
  err : ErrorCode
  ctl : Ctl
  deriving DecidableEq, Repr

/-- What a handler of a process does. -/
structure Callback where
  calls : List EnableCall := []
  err : ErrorCode := none
  deriving DecidableEq, Repr

namespace Worker

/-- A connection in the table, in place of the one before -/
def put (w : Worker) (id : ConnectionId) (conn : ConnectionState) : Worker :=
  { w with connections := Function.update w.connections id (some conn) }

/-- The id has no connection any more. -/
def erase (w : Worker) (id : ConnectionId) : Worker :=
  { w with connections := Function.update w.connections id none }

/-- The entry of an id is changed where there is one. -/
def modifyState (w : Worker) (id : ConnectionId) (f : ConnectionState → ConnectionState) : Worker :=
  { w with connections := Function.update w.connections id ((w.connections id).map f) }

/-- `push_command` -/
def pushCommand (w : Worker) (cmd : Command) : Worker :=
  { w with cmds := w.cmds ++ [cmd] }

/-- The common body of `enable_writing` and `enable_readable`: the multiplexor is asked only if the
    record has to change, and the record follows only if the error code is clear afterwards. -/
def enableFlag (flag : Event) (w : Worker) (id : ConnectionId) (enable : Bool) (ctl : Ctl)
    (err : ErrorCode) : Worker × Bool × ErrorCode :=
  match w.connections id with
  | none => (w, false, some .noSuchDevice)
  | some conn =>
    if enable != conn.eventsHandled.has flag then
      let newEvents :=
        if enable then conn.eventsHandled ||| flag else conn.eventsHandled &&& ~~~flag
      let (socket, res, err) := conn.socket.modify w.epoll newEvents ctl err
      let events := if err = none then newEvents else conn.eventsHandled
      (w.put id { conn with socket, eventsHandled := events }, res, err)
    else (w, false, err)

/-- `enable_writing` -/
def enableWriting : Worker → ConnectionId → Bool → Ctl → ErrorCode → Worker × Bool × ErrorCode :=
  enableFlag .Out

/-- `enable_readable` -/
def enableReadable : Worker → ConnectionId → Bool → Ctl → ErrorCode → Worker × Bool × ErrorCode :=
  enableFlag .In

/-- A call of `enable_writing` or `enable_readable` by the process -/
def enableCall (id : ConnectionId) (w : Worker) (call : EnableCall) : Worker :=
  (w.enableFlag call.flag id call.enable call.ctl call.err).1

/-- A handler of the process of a connection runs. -/
def callback (w : Worker) (id : ConnectionId) (handler : Callback) : Worker × ErrorCode :=
  (Lib.run (enableCall id) w handler.calls, handler.err)

/-- `on_init_connection` -/
def onInitConnection (w : Worker) (id : ConnectionId) (state : State) (handler : Callback) :
    Worker × ErrorCode :=
  { w with initCalls := w.initCalls ++ [(id, state)] }.callback id handler

/-- The end of a connection after a fatal error: the socket is closed, process and `ConnectionIO` are
    dropped, and the removal is queued. -/
def abandon (w : Worker) (id : ConnectionId) : Worker :=
  (w.modifyState id fun conn =>
    { conn with socket := conn.socket.close, proc := none, connIO := false }).pushCommand
      (.removeConnection id)

/-- The outside world of `connectInternal`. -/
structure ConnectEnv where
  setNoBlock : Option Errc := none
  add : Ctl := {}
  /-- `::connect`; `none` is the result `0`. -/
  connect : Option Errc
  modify : Ctl := {}
  afterConnection : ErrorCode → ErrorCode := id

/-- Where the connection is not inserted, its socket is closed with the local state. -/
def connectInternal (w : Worker) (id : ConnectionId) (validHandler : Bool) (socket : Socket)
    (env : ConnectEnv) (err : ErrorCode) : Worker × Bool × ErrorCode :=
  if w.stopRequested || !validHandler then (w, false, err)
  else
    match env.setNoBlock with
    | some errno => (w, false, some errno)
    | none =>
      let events : Event := .In ||| .HangUp ||| .Error
      let (socket, added, err) := socket.add w.epoll events env.add
      if !added then (w, false, err)
      else
        match env.connect with
        | none =>
          if (w.connections id).isSome then (w, false, some .alreadyConnected)
          else
            let conn :=
              { state := .active, connIO := true, socket := socket, eventsHandled := events }
            (w.put id conn, true, env.afterConnection err)
        | some .operationInProgress =>
          let events : Event := .Out ||| .Error ||| .HangUp
          let (socket, modified, err) := socket.modify w.epoll events env.modify err
          if !modified then (w, false, err)
          else if (w.connections id).isSome then (w, false, some .alreadyConnected)
          else
            let conn :=
              { state := .connecting, connIO := true, socket := socket, eventsHandled := events }
            (w.put id conn, true, env.afterConnection err)
        | some _ => (w, false, err)

/-- The outcome of `add_tracking_event` is read off the error code here, not off its result. -/
def attachConnectionInternal (w : Worker) (id : ConnectionId) (socket : Socket) (ctl : Ctl)
    (afterAttach : ErrorCode → ErrorCode) : Worker × Bool × ErrorCode :=
  match w.connections id with
  | some _ => (w, false, afterAttach (some .alreadyConnected))
  | none =>
    let events : Event := .Error ||| .HangUp
    let (socket, _, err) := socket.add w.epoll events ctl
    if err.isSet then (w, false, err)
    else
      let conn := { state := .active, connIO := true, socket := socket, eventsHandled := events }
      (w.put id conn, true, none)

/-- The outside world of `addConnectionProcessInternal`. -/
structure AttachEnv where
  ctl : Ctl := {}
  afterAdd : ErrorCode → ErrorCode := id
  onInit : Callback := {}

/-- A connection gets its process. The record is changed before the multiplexor is asked. -/
def setProcess (w : Worker) (id : ConnectionId) (conn : ConnectionState) (proc : Nat) (ctl : Ctl)
    (err : ErrorCode) : Worker × Bool × ErrorCode :=
  let events := (conn.eventsHandled &&& ~~~.Out) ||| .In
  let (socket, modified, err) := conn.socket.modify w.epoll events ctl err
  (w.put id { conn with proc := some proc, socket, eventsHandled := events }, modified, err)

/-- `addConnectionProcessInternal` -/
def addConnectionProcessInternal (w : Worker) (id : ConnectionId) (proc : Nat) (env : AttachEnv)
    (err : ErrorCode) : Worker × Bool × ErrorCode :=
  if w.stopRequested then (w, false, err)
  else
    match w.connections id with
    | none => (w, false, env.afterAdd (some .notConnected))
    | some conn =>
      if conn.state = .active ∨ conn.state = .connecting then
        let (w, modified, err) := w.setProcess id conn proc env.ctl err
        if !modified then (w, false, err)
        else
          let err := env.afterAdd none
          if err.isSet then (w, false, err)
          else
            let (w, err) := w.onInitConnection id conn.state env.onInit
            if err.isSet then (w.abandon id, false, err) else (w, true, err)
      else (w, false, env.afterAdd (some .notConnected))

/-- `removeConnectionProcessInternal` -/
def removeConnectionProcessInternal (w : Worker) (id : ConnectionId) (ctl : Ctl)
    (afterRemove : ErrorCode → ErrorCode) (err : ErrorCode) : Worker × Bool × ErrorCode :=
  match w.connections id with
  | none => (w, false, afterRemove (some .notConnected))
  | some conn =>
    let events := conn.eventsHandled ^^^ .In
    let (socket, modified, err) := conn.socket.modify w.epoll events ctl err
    let conn := { conn with proc := none, socket }
    if !modified then (w.put id conn, false, err)
    else if err.isSet then (w.put id conn, false, afterRemove err)
    else (w.put id { conn with eventsHandled := events }, true, afterRemove err)

/-- `shutdown` is the error code after `shutdown_all`; the socket is closed with the entry. -/
def removeConnectionInternal (w : Worker) (id : ConnectionId) (shutdown : ErrorCode)
    (del : Option Errc) (afterRemove : ErrorCode → ErrorCode) : Worker × Bool × ErrorCode :=
  match w.connections id with
  | none => (w, false, some .noSuchDevice)
  | some _ =>
    if shutdown.isSet then (w.erase id, false, afterRemove shutdown)
    else
      match del with
      | none => (w.erase id, true, afterRemove shutdown)
      | some errno => (w.erase id, false, afterRemove (some errno))

/-- The outside world of `Worker::run` for one event. -/
structure RunEnv where
  onRead : Callback := {}
  /-- What `Socket::error` returns, and the code that it stores. -/
  sockError : ErrorCode := none
  sockErr : ErrorCode := none
  ctl : Ctl := {}
  onInit : Callback := {}
  handleEvent : Callback := {}

/-- The connection is given up, and erased at once if the error code is set. -/
def hangUp (w : Worker) (id : ConnectionId) (err : ErrorCode) : Worker :=
  let w := (w.modifyState id fun conn => { conn with state := .closed }).abandon id
  if err.isSet then w.erase id else w

/-- `handle_events`; `true` where `run` goes on. -/
def handleEvents (w : Worker) (id : ConnectionId) (conn : ConnectionState) (events : Event)
    (onRead : Callback) (err : ErrorCode) : Worker × Bool × ErrorCode :=
  if events.has .CanReadButHangUp then
    let (w, err) := if conn.proc.isSome then w.callback id onRead else (w, err)
    (w.hangUp id err, false, err)
  else if events.has .Error || events.has .HangUp then (w.hangUp id err, false, err)
  else (w, true, err)

/-- An asynchronous connect is done: the connection becomes active, and if the multiplexor agrees it
    is watched for errors only. -/
def setActive (w : Worker) (id : ConnectionId) (conn : ConnectionState) (ctl : Ctl)
    (err : ErrorCode) : Worker × Bool × ErrorCode :=
  let events : Event := .HangUp ||| .Error
  let (socket, modified, err) := conn.socket.modify w.epoll events ctl err
  let eventsHandled := if modified then events else conn.eventsHandled
  (w.put id { conn with state := .active, socket, eventsHandled }, modified, err)

/-- The part of `run` that completes an asynchronous connect. The `if(err)` that follows
    `on_init_connection` guards only the closing of the socket: process and `ConnectionIO` are dropped
    and the removal is queued in any case. -/
def completeConnect (w : Worker) (id : ConnectionId) (conn : ConnectionState) (env : RunEnv)
    (err : ErrorCode) : Worker × ErrorCode :=
  let (w, modified, err) := w.setActive id conn env.ctl err
  if !modified then (w.pushCommand (.removeConnection id), err)
  else if conn.proc.isSome then
    let (w, err) := w.onInitConnection id .active env.onInit
    let w := if err.isSet
      then w.modifyState id fun conn => { conn with socket := conn.socket.close } else w
    let w := w.modifyState id fun conn => { conn with proc := none, connIO := false }
    (w.pushCommand (.removeConnection id), err)
  else (w, err)

/-- The part of `run` that hands the event to the process. -/
def dispatch (w : Worker) (id : ConnectionId) (handleEvent : Callback) : Worker :=
  match w.connections id with
  | none => w
  | some conn =>
    if conn.proc.isSome then
      let (w, err) := w.callback id handleEvent
      if err.isSet then
        match err with
        | some .operationInProgress | some .noBufferSpace
        | some .resourceUnavailableTryAgain => w
        | _ => w.abandon id
      else w
    else w

/-- `Worker::run` -/
def run (w : Worker) (id : ConnectionId) (events : Event) (env : RunEnv) (err : ErrorCode) :
    Worker × ErrorCode :=
  match w.connections id with
  | none => (w, some .noSuchDevice)
  | some conn =>
    let (w, goesOn, err) := w.handleEvents id conn events env.onRead err
    if !goesOn then (w, err)
    else if conn.state = .connecting ∧ events.has .Out then
      if env.sockError = none then
        let (w, err) := w.completeConnect id conn env none
        (w.dispatch id env.handleEvent, err)
      else (w.pushCommand (.removeConnection id), env.sockErr)
    else (w.dispatch id env.handleEvent, err)

end Worker
end OsterLib.Network
