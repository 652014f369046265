import OsterLib.Network.Insertions
import OsterLib.Network.CommandQueue

/-!
# Handles and the queue of a worker

`ConnectionHandle` of `network/connectionhandle.h`, and a worker with its queue: `Worker::handle_pending` of
`network/threadpool.cpp` round by round, where a round of the second loop executes a command. The removals that the
worker queues for itself go to the end of the same queue.

Every step keeps `Kept`: where a connection is in the table, the command that inserts it was executed.
-/

namespace OsterLib.Network
open OsterLib.Lib

/-- The workers of the program are numbered. -/
structure ConnectionHandle where
  connId : UInt32
  owner : Option Nat
  deriving DecidableEq, Repr

namespace ConnectionHandle

/-- The id, as the key of the table -/
def id (hconn : ConnectionHandle) : ConnectionId := hconn.connId.toNat

/-- `is_valid_handler` -/
def isValidHandler (hconn : ConnectionHandle) : Bool := hconn.owner.isSome && hconn.connId != 0

/-- The handle is owned by the worker. -/
def sameOwner (hconn : ConnectionHandle) (w : Nat) : Bool := hconn.owner == some w

end ConnectionHandle

/-- A command with its handle, on which depends what `Command<AddConnection>` finds -/
abbrev HandleCommand := ConnectionHandle × ConnectionCommand

/-- The command as the worker executes it -/
def HandleCommand.executed (w : Nat) : HandleCommand → ConnectionCommand
  | (hconn, .addConnection _ _ env) => .addConnection hconn.isValidHandler (hconn.sameOwner w) env
  | (_, cmd) => cmd

/-- A worker of the pool, with its queue -/
structure PoolWorker where
  worker : Worker := {}
  queue : CommandQueue HandleCommand := {}

/-- What the removal finds that a worker queues for itself: `shutdown_all`, and the `DEL` of the multiplexor -/
structure RemovalEnv where
  shutdown : ShutdownEnv := {}
  del : Option Errc := none

namespace PoolWorker

/-- `push_command` -/
def pushCommand (p : PoolWorker) (cmd : HandleCommand) : PoolWorker :=
  { p with queue := p.queue.pushCommand (some cmd) }

/-- The handle is `connection_handle(id)`. -/
def pushRemoval (w : Nat) (env : RemovalEnv) (p : PoolWorker) : Command → PoolWorker
  | .removeConnection id =>
    p.pushCommand (⟨UInt32.ofNat id, some w⟩, .removeConnection env.shutdown env.del fun err => err)

/-- What the worker has queued for itself goes to the queue. -/
def queueOwn (p : PoolWorker) (w : Nat) (env : RemovalEnv) : PoolWorker :=
  Lib.run (pushRemoval w env) { p with worker := { p.worker with cmds := [] } } p.worker.cmds

/-- One round of a loop of `handle_pending`, with the command that it executes -/
def advance (p : PoolWorker) (w : Nat) (env : RemovalEnv) : PoolWorker :=
  match p.queue.pass with
  | .executing (cmd :: _) =>
    queueOwn ⟨(p.worker.executeInternal cmd.1.id (cmd.executed w)).worker, p.queue.advance⟩ w env
  | _ => { p with queue := p.queue.advance }

/-- `handle_pending` begins. -/
def handlePending (p : PoolWorker) : PoolWorker := { p with queue := p.queue.step .handlePending }

/-- Events of a connection are handled. -/
def event (p : PoolWorker) (w : Nat) (id : ConnectionId) (events : Event) (env : Worker.RunEnv)
    (err : ErrorCode) (removal : RemovalEnv) : PoolWorker :=
  queueOwn { p with worker := (p.worker.run id events env err).1 } w removal

/-- The handles of the commands that the worker has or had and that insert their connection -/
def insertions (p : PoolWorker) : List ConnectionHandle := (p.queue.commands.filter (·.2.inserts)).map Prod.fst

/-- Where a connection is in the table, the command that inserts it was executed. -/
structure Kept (p : PoolWorker) : Prop where
  table : ∀ id, (∀ cmd ∈ p.queue.executed, cmd.2.inserts = true → cmd.1.id ≠ id) → p.worker.connections id = none

variable {p : PoolWorker}

/-- Whether a command inserts does not depend on the worker. -/
lemma executed_inserts (w : Nat) (cmd : HandleCommand) : (cmd.executed w).inserts = cmd.2.inserts := by
  obtain ⟨hconn, cmd⟩ := cmd
  cases cmd with
  | _ => rfl

/-- A pushed command keeps it. -/
lemma Kept.pushCommand (kept : p.Kept) (cmd : HandleCommand) : (p.pushCommand cmd).Kept :=
  ⟨kept.table⟩

/-- A pushed command is one more insertion, or none. -/
lemma insertions_pushCommand (p : PoolWorker) (cmd : HandleCommand) :
    (p.pushCommand cmd).insertions = p.insertions ++ if cmd.2.inserts then [cmd.1] else [] := by
  have pushed : (p.pushCommand cmd).queue.commands = p.queue.commands ++ [cmd] := p.queue.commands_push [some cmd]
  unfold insertions
  rw [pushed, List.filter_append, List.map_append, List.filter_singleton]
  cases cmd.2.inserts with
  | _ => rfl

/-- The worker may have changed the table under a command that inserts no connection, or one of the executed ones. -/
lemma Kept.within (kept : p.Kept) {worker : Worker} (within : p.worker.Within worker) : Kept { p with worker } :=
  ⟨fun id new => within id (kept.table id new)⟩

/-- The worker's own removals keep it, and insert nothing. -/
lemma Kept.queueOwn (kept : p.Kept) (w : Nat) (env : RemovalEnv) :
    (p.queueOwn w env).Kept ∧ (p.queueOwn w env).insertions = p.insertions := by
  refine run_of_keep (P := fun p' : PoolWorker => p'.Kept ∧ p'.insertions = p.insertions) ?_ p.worker.cmds
    ⟨⟨kept.table⟩, rfl⟩
  rintro p' ⟨id⟩ ⟨kept, same⟩
  exact ⟨kept.pushCommand _, (p'.insertions_pushCommand _).trans ((List.append_nil _).trans same)⟩

/-- Outside of the loop that executes commands, a round executes none. -/
lemma executed_advance {q : CommandQueue HandleCommand} (other : ∀ cmd cmds, q.pass ≠ .executing (cmd :: cmds)) :
    q.advance.executed = q.executed := by
  obtain ⟨-, same⟩ | ⟨cmds, pass, queue, same⟩ | ⟨cmds, rest, pass, queue, same⟩ |
    ⟨cmds, cmd, rest, pass, queue, same⟩ | ⟨cmd, cmds, pass, same⟩ | ⟨pass, same⟩ := q.advance_cases
  case inr.inr.inr.inr.inl => exact absurd pass (other cmd cmds)
  all_goals exact (congrArg CommandQueue.executed same).trans rfl

/-- A turn of the extraction keeps it, and inserts nothing. -/
lemma Kept.advance (kept : p.Kept) (w : Nat) (env : RemovalEnv) :
    (p.advance w env).Kept ∧ (p.advance w env).insertions = p.insertions := by
  unfold PoolWorker.advance
  split
  · rename_i cmd cmds pass
    have next : p.queue.advance = { p.queue with pass := .executing cmds, executed := p.queue.executed ++ [cmd] } := by
      unfold CommandQueue.advance
      rw [pass]
    have change := p.worker.executeInternal_connections cmd.1.id (cmd.executed w)
    rw [executed_inserts] at change
    have after : Kept ⟨(p.worker.executeInternal cmd.1.id (cmd.executed w)).worker, p.queue.advance⟩ := by
      refine ⟨fun id new => ?_⟩
      rw [next] at new
      have absent := kept.table id fun old mem => new old (List.mem_append_left _ mem)
      split at change
      · rename_i inserts
        exact change id (new cmd (List.mem_append_right _ List.mem_cons_self) inserts).symm absent
      · exact change id absent
    obtain ⟨kept, same⟩ := after.queueOwn w env
    refine ⟨kept, same.trans ?_⟩
    exact congrArg (fun cmds => (cmds.filter fun cmd : HandleCommand => cmd.2.inserts).map Prod.fst)
      p.queue.commands_advance
  · rename_i other
    refine ⟨⟨?_⟩, ?_⟩
    · intro id new
      dsimp only at new
      rw [executed_advance other] at new
      exact kept.table id new
    · exact congrArg (fun cmds => (cmds.filter fun cmd : HandleCommand => cmd.2.inserts).map Prod.fst)
        p.queue.commands_advance

/-- Beginning the extraction keeps it, and inserts nothing. -/
lemma Kept.handlePending (kept : p.Kept) : p.handlePending.Kept ∧ p.handlePending.insertions = p.insertions := by
  have same : p.handlePending.queue.executed = p.queue.executed ∧
      p.handlePending.queue.commands = p.queue.commands := by
    refine ⟨?_, p.queue.commands_handlePending⟩
    unfold PoolWorker.handlePending CommandQueue.step
    cases p.queue.pass with
    | _ => rfl
  refine ⟨⟨?_⟩, ?_⟩
  · intro id new
    rw [same.1] at new
    exact kept.table id new
  · unfold insertions
    rw [same.2]

/-- Handling events keeps it, and inserts nothing. -/
lemma Kept.event (kept : p.Kept) (w : Nat) (id : ConnectionId) (events : Event) (env : Worker.RunEnv)
    (err : ErrorCode) (removal : RemovalEnv) : (p.event w id events env err removal).Kept ∧
      (p.event w id events env err removal).insertions = p.insertions :=
  (kept.within (p.worker.within_run id events env err)).queueOwn w removal

end PoolWorker

end OsterLib.Network
