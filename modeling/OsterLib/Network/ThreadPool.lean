import OsterLib.Network.PoolWorker
import Mathlib.Data.Int.CardIntervalMod

/-!
# The pool of workers

`ThreadPool::attach_connection` of `network/threadpool.cpp` with the handles that it constructs. Any number of threads
attach connections: each call takes the next worker, then the next id, then pushes its command, which are three steps
between which the other threads go on. The handles, with those that are made elsewhere, are used to push commands, to
any worker. The workers execute their queues and get the events of their sockets.

The ids are the values of a counter of 32 bits, of which 0 counts as 1: the handles can be told apart as long as there
are fewer than 2 ^ 32 (`run_identified_iff`). In such a run no connection is with two workers, a worker has only
connections whose handles it owns, and no command finds the id taken under which it inserts a connection (`run_apart`).
Where no call is under way, the workers have got as many connections, up to one (`run_balanced`).
-/

namespace OsterLib.Network
open OsterLib.Lib

/-- A call of `attach_connection`: it has taken the index of its worker, has its handle, or has pushed its command. -/
inductive AttachCall where
  | chosen (index : Nat)
  | holding (hconn : ConnectionHandle)
  | returned (hconn : ConnectionHandle)

namespace AttachCall

/-- The worker of a call, where it is chosen -/
def index : AttachCall → Option Nat
  | chosen index => some index
  | holding hconn | returned hconn => hconn.owner

/-- The call has constructed its handle. -/
def hasHandle : AttachCall → Bool
  | chosen _ => false
  | holding _ | returned _ => true

/-- The call has returned. -/
def hasReturned : AttachCall → Bool
  | returned _ => true
  | _ => false

end AttachCall

/-- The pool in a program, of which the workers below `size` are its own. -/
structure ThreadPool where
  size : Nat
  idCounter : UInt32 := 1
  nextWorker : UInt64 := 0
  workers : Nat → PoolWorker := fun _ => {}
  /-- The handles that have been constructed, in their order -/
  handles : List ConnectionHandle := []
  /-- Those of them that were not constructed by `attach_connection` -/
  made : List ConnectionHandle := []
  calls : List AttachCall := []

/-- What happens in a pool: the steps of `attach_connection`, other handles and commands, and the turns of the
    workers -/
inductive PoolMove where
  | chooseWorker
  | constructHandle (call : Nat)
  | pushAttach (call : Nat) (socket : Socket) (ctl : Ctl) (afterAttach : ErrorCode → ErrorCode)
  | makeHandle (owner : Option Nat)
  | pushCommand (w : Nat) (cmd : HandleCommand)
  | requestStop (w : Nat)
  | handlePending (w : Nat)
  | advance (w : Nat) (env : RemovalEnv)
  | event (w : Nat) (id : ConnectionId) (events : Event) (env : Worker.RunEnv) (err : ErrorCode) (removal : RemovalEnv)

namespace ThreadPool

/-- A worker is changed. -/
def put (s : ThreadPool) (w : Nat) (p : PoolWorker) : ThreadPool := { s with workers := Function.update s.workers w p }

/-- `ConnectionHandle(AbstractWorker*)` -/
def construct (s : ThreadPool) (owner : Option Nat) : ConnectionHandle × ThreadPool :=
  let hconn := { connId := if s.idCounter = 0 then 1 else s.idCounter, owner }
  (hconn, { s with idCounter := s.idCounter + 1, handles := s.handles ++ [hconn] })

/-- `execute_command` -/
def executeCommand (s : ThreadPool) (hconn : ConnectionHandle) (cmd : ConnectionCommand) (err : ErrorCode) :
    ThreadPool × Bool × ErrorCode :=
  match hconn.owner with
  | some w =>
    if hconn.isValidHandler then (s.put w ((s.workers w).pushCommand (hconn, cmd)), true, err)
    else (s, false, some .noSuchDevice)
  | none => (s, false, some .noSuchDevice)

/-- A move of the pool -/
def step (s : ThreadPool) : PoolMove → ThreadPool
  | .chooseWorker =>
    { s with nextWorker := s.nextWorker + 1, calls := s.calls ++ [.chosen (s.nextWorker.toNat % s.size)] }
  | .constructHandle call =>
    match s.calls[call]? with
    | some (.chosen index) =>
      let (hconn, s) := s.construct (some index)
      { s with calls := s.calls.set call (.holding hconn) }
    | _ => s
  | .pushAttach call socket ctl afterAttach =>
    match s.calls[call]? with
    | some (.holding hconn) =>
      let (s, _, _) := s.executeCommand hconn (.attachConnection socket ctl afterAttach) none
      { s with calls := s.calls.set call (.returned hconn) }
    | _ => s
  | .makeHandle owner =>
    let (hconn, s) := s.construct owner
    { s with made := s.made ++ [hconn] }
  | .pushCommand w cmd => s.put w ((s.workers w).pushCommand cmd)
  | .requestStop w => s.put w { s.workers w with worker := { (s.workers w).worker with stopRequested := true } }
  | .handlePending w => s.put w (s.workers w).handlePending
  | .advance w env => s.put w ((s.workers w).advance w env)
  | .event w id events env err removal => s.put w ((s.workers w).event w id events env err removal)

variable {s : ThreadPool}

/-! ## Ids -/

/-- The id of the handle that is constructed when there are `k` of them -/
def idOf (k : Nat) : UInt32 := if UInt32.ofNat (k + 1) = 0 then 1 else UInt32.ofNat (k + 1)

/-- The counter has counted the handles, and the ids are those it gave. -/
structure Counted (s : ThreadPool) : Prop where
  counter : s.idCounter = UInt32.ofNat (s.handles.length + 1)
  ids : s.handles.map ConnectionHandle.connId = (List.range s.handles.length).map idOf

/-- Constructing a handle counts it. -/
lemma Counted.construct (counted : s.Counted) (owner : Option Nat) : (s.construct owner).2.Counted := by
  obtain ⟨counter, ids⟩ := counted
  have id : (s.construct owner).1.connId = idOf s.handles.length := by
    unfold ThreadPool.construct idOf
    rw [counter]
  refine ⟨?_, ?_⟩
  · change s.idCounter + 1 = UInt32.ofNat ((s.handles ++ [(s.construct owner).1]).length + 1)
    rw [counter, List.length_append]
    exact (UInt32.ofNat_add _ 1).symm
  · change (s.handles ++ [(s.construct owner).1]).map _ =
      (List.range (s.handles ++ [(s.construct owner).1]).length).map idOf
    rw [List.length_append, List.length_singleton, List.range_succ, List.map_append, List.map_append, ids]
    exact congrArg (_ ++ [·]) id

/-- A command of a handle changes its worker only. -/
lemma executeCommand_kept (s : ThreadPool) (hconn : ConnectionHandle) (cmd : ConnectionCommand) (err : ErrorCode) :
    (s.executeCommand hconn cmd err).1 = { s with workers := (s.executeCommand hconn cmd err).1.workers } := by
  unfold executeCommand
  cases hconn.owner with
  | none => rfl
  | some w =>
    dsimp only
    split
    · rfl
    · rfl

/-- Every move counts its handles. -/
lemma Counted.step (counted : s.Counted) (move : PoolMove) : (s.step move).Counted := by
  unfold ThreadPool.step
  cases move with
  | constructHandle call =>
    dsimp only
    split
    · rename_i index chosen
      exact ⟨(counted.construct (some index)).counter, (counted.construct (some index)).ids⟩
    · exact counted
  | makeHandle owner => exact ⟨(counted.construct owner).counter, (counted.construct owner).ids⟩
  | pushAttach call socket ctl afterAttach =>
    dsimp only
    split
    · rename_i hconn held
      rw [executeCommand_kept]
      exact ⟨counted.counter, counted.ids⟩
    · exact counted
  | _ => exact ⟨counted.counter, counted.ids⟩

/-- As long as they are few, the ids are the numbers of the handles. -/
lemma idOf_toNat {k : Nat} (few : k + 1 < 2 ^ 32) : (idOf k).toNat = k + 1 := by
  have value : (UInt32.ofNat (k + 1)).toNat = k + 1 := Nat.mod_eq_of_lt few
  unfold idOf
  rw [if_neg, value]
  intro zero
  rw [zero] at value
  cases value

/-- The handles have their own ids exactly if there are fewer than 2 ^ 32 of them. -/
lemma Counted.nodup_iff (counted : s.Counted) :
    (s.handles.map ConnectionHandle.connId).Nodup ↔ s.handles.length < 2 ^ 32 := by
  rw [counted.ids]
  constructor
  · intro nodup
    by_contra many
    rw [Nat.not_lt] at many
    have first : 0 < s.handles.length := Nat.lt_of_lt_of_le (by decide) many
    have last : 2 ^ 32 - 1 < s.handles.length := Nat.lt_of_lt_of_le (by decide) many
    -- the counter is 0 when the last of 2 ^ 32 handles is constructed
    have same : idOf 0 = idOf (2 ^ 32 - 1) := by decide +kernel
    have equal := List.inj_on_of_nodup_map nodup (List.mem_range.2 first) (List.mem_range.2 last) same
    cases equal
  · intro few
    refine List.Nodup.map_on ?_ List.nodup_range
    intro j lt k lt' same
    rw [List.mem_range] at lt lt'
    have value := congrArg UInt32.toNat same
    rw [idOf_toNat (by omega), idOf_toNat (by omega)] at value
    exact Nat.succ.inj value

/-! ## Connections and their workers -/

/-- Handles are constructed as long as their ids are new, those of the pool's workers by `attach_connection` only, and a
    handle that was made elsewhere inserts at most one connection, with its owner. -/
def Regular (s : ThreadPool) : PoolMove → Prop
  | .constructHandle _ => s.handles.length + 1 < 2 ^ 32
  | .makeHandle owner => s.handles.length + 1 < 2 ^ 32 ∧ ∀ w ∈ owner, s.size ≤ w
  | .pushCommand w cmd =>
    cmd.2.inserts = true → cmd.1 ∈ s.made ∧ cmd.1.owner = some w ∧ cmd.1 ∉ (s.workers w).insertions
  | _ => True

/-- Few handles were constructed, and each connection is inserted once, by a handle of its worker. -/
structure Sound (s : ThreadPool) : Prop where
  counted : s.Counted
  few : s.handles.length < 2 ^ 32
  kept : ∀ w, (s.workers w).Kept
  once : ∀ w, (s.workers w).insertions.Nodup
  owned : ∀ w, ∀ hconn ∈ (s.workers w).insertions, hconn ∈ s.handles ∧ hconn.owner = some w
  made : ∀ hconn ∈ s.made, hconn ∈ s.handles
  held : ∀ (call : Nat) (hconn : ConnectionHandle), s.calls[call]? = some (.holding hconn) →
    hconn ∈ s.handles ∧ hconn ∉ s.made ∧ ∀ w, hconn ∉ (s.workers w).insertions
  apart : ∀ (call call' : Nat) (hconn : ConnectionHandle), s.calls[call]? = some (.holding hconn) →
    s.calls[call']? = some (.holding hconn) → call = call'

/-- The handles of different connections can be told apart. -/
lemma Sound.identified (sound : s.Sound) {hconn hconn' : ConnectionHandle} (mem : hconn ∈ s.handles)
    (mem' : hconn' ∈ s.handles) (same : hconn.id = hconn'.id) : hconn = hconn' :=
  List.inj_on_of_nodup_map (sound.counted.nodup_iff.2 sound.few) mem mem' (UInt32.toNat_inj.1 same)

/-- A new handle is new. -/
lemma Sound.fresh (sound : s.Sound) (few : s.handles.length + 1 < 2 ^ 32) (owner : Option Nat) :
    (s.construct owner).1 ∉ s.handles := by
  have counted := sound.counted.construct owner
  have length : (s.construct owner).2.handles = s.handles ++ [(s.construct owner).1] := rfl
  have nodup : ((s.construct owner).2.handles.map ConnectionHandle.connId).Nodup := by
    rw [counted.nodup_iff, length, List.length_append]
    exact few
  rw [length, List.map_append, List.nodup_append] at nodup
  exact fun mem => nodup.2.2 _ (List.mem_map_of_mem mem) _ List.mem_cons_self rfl

/-- A worker goes on, and no command that inserts a connection is pushed to it. -/
lemma Sound.put (sound : s.Sound) (w : Nat) {p : PoolWorker} (kept : p.Kept ∧ p.insertions = (s.workers w).insertions) :
    (s.put w p).Sound := by
  have same (v : Nat) : ((s.put w p).workers v).Kept ∧
      ((s.put w p).workers v).insertions = (s.workers v).insertions := by
    unfold ThreadPool.put
    by_cases v_w : v = w
    · cases v_w
      dsimp only
      rw [Function.update_self]
      exact kept
    · dsimp only
      rw [Function.update_of_ne v_w]
      exact ⟨sound.kept v, rfl⟩
  refine ⟨⟨sound.counted.counter, sound.counted.ids⟩, sound.few, fun v => (same v).1, ?_, ?_, sound.made, ?_,
    sound.apart⟩
  · intro v
    rw [(same v).2]
    exact sound.once v
  · intro v
    rw [(same v).2]
    exact sound.owned v
  · intro call hconn held
    obtain ⟨mem, notMade, notInserted⟩ := sound.held call hconn held
    refine ⟨mem, notMade, fun v => ?_⟩
    rw [(same v).2]
    exact notInserted v

/-- A command that inserts a connection is pushed to the owner of its handle, the first one for it. -/
lemma Sound.insert (sound : s.Sound) {w : Nat} (cmd : HandleCommand) (inserts : cmd.2.inserts = true)
    (mem : cmd.1 ∈ s.handles) (owner : cmd.1.owner = some w) (new : cmd.1 ∉ (s.workers w).insertions)
    (free : ∀ call : Nat, s.calls[call]? ≠ some (.holding cmd.1)) :
    (s.put w ((s.workers w).pushCommand cmd)).Sound := by
  have pushed : ((s.workers w).pushCommand cmd).insertions = (s.workers w).insertions ++ [cmd.1] := by
    rw [PoolWorker.insertions_pushCommand, if_pos inserts]
  have own : (s.put w ((s.workers w).pushCommand cmd)).workers w = (s.workers w).pushCommand cmd :=
    Function.update_self ..
  have others {v : Nat} (other : v ≠ w) : (s.put w ((s.workers w).pushCommand cmd)).workers v = s.workers v :=
    Function.update_of_ne other ..
  refine ⟨⟨sound.counted.counter, sound.counted.ids⟩, sound.few, ?_, ?_, ?_, sound.made, ?_, sound.apart⟩
  · intro v
    by_cases same : v = w
    · cases same
      rw [own]
      exact (sound.kept w).pushCommand cmd
    · rw [others same]
      exact sound.kept v
  · intro v
    by_cases same : v = w
    · cases same
      rw [own, pushed]
      exact List.nodup_append.2 ⟨sound.once w, List.nodup_singleton _, fun hconn old other equal same => by
        rw [List.mem_singleton] at equal
        exact new (equal ▸ same ▸ old)⟩
    · rw [others same]
      exact sound.once v
  · intro v hconn inserted
    by_cases same : v = w
    · cases same
      rw [own, pushed, List.mem_append, List.mem_singleton] at inserted
      rcases inserted with old | rfl
      · exact sound.owned w hconn old
      · exact ⟨mem, owner⟩
    · rw [others same] at inserted
      exact sound.owned v hconn inserted
  · intro call hconn held
    obtain ⟨mem, notMade, notInserted⟩ := sound.held call hconn held
    refine ⟨mem, notMade, fun v => ?_⟩
    by_cases same : v = w
    · cases same
      rw [own, pushed, List.mem_append, List.mem_singleton, not_or]
      exact ⟨notInserted w, fun equal => free call (equal ▸ held)⟩
    · rw [others same]
      exact notInserted v

/-- A call gives up its handle. -/
lemma Sound.release (sound : s.Sound) (call : Nat) {next : AttachCall} (released : ∀ hconn, next ≠ .holding hconn) :
    Sound { s with calls := s.calls.set call next } := by
  have before {call' : Nat} {hconn : ConnectionHandle}
      (held : (s.calls.set call next)[call']? = some (.holding hconn)) :
      call ≠ call' ∧ s.calls[call']? = some (.holding hconn) := by
    rw [List.getElem?_set] at held
    split at held
    · split at held
      · cases held
        exact absurd rfl (released hconn)
      · cases held
    · rename_i other
      exact ⟨other, held⟩
  refine ⟨⟨sound.counted.counter, sound.counted.ids⟩, sound.few, sound.kept, sound.once, sound.owned, sound.made, ?_,
    ?_⟩
  · exact fun call' hconn held => sound.held call' hconn (before held).2
  · exact fun call' call'' hconn held held' => sound.apart call' call'' hconn (before held).2 (before held').2

/-- A handle is constructed for somebody who is not a call of `attach_connection`. -/
lemma Sound.make (sound : s.Sound) (few : s.handles.length + 1 < 2 ^ 32) (owner : Option Nat) :
    (s.step (.makeHandle owner)).Sound := by
  have fresh := sound.fresh few owner
  have more {hconn : ConnectionHandle} (mem : hconn ∈ s.handles) : hconn ∈ s.handles ++ [(s.construct owner).1] :=
    List.mem_append_left _ mem
  refine ⟨sound.counted.step (.makeHandle owner), ?_, sound.kept, sound.once, ?_, ?_, ?_, sound.apart⟩
  · change (s.handles ++ [(s.construct owner).1]).length < 2 ^ 32
    rw [List.length_append]
    exact few
  · exact fun w hconn inserted => (sound.owned w hconn inserted).imp_left more
  · intro hconn mem
    rcases List.mem_append.1 mem with old | new
    · exact more (sound.made hconn old)
    · exact List.mem_append_right _ new
  · intro call hconn held
    obtain ⟨mem, notMade, notInserted⟩ := sound.held call hconn held
    refine ⟨more mem, fun made => ?_, notInserted⟩
    rcases List.mem_append.1 made with old | new
    · exact notMade old
    · rw [List.mem_singleton.1 new] at mem
      exact fresh mem

/-- A call of `attach_connection` constructs its handle. -/
lemma Sound.hold (sound : s.Sound) (few : s.handles.length + 1 < 2 ^ 32) {call index : Nat}
    (chosen : s.calls[call]? = some (.chosen index)) : (s.step (.constructHandle call)).Sound := by
  have fresh := sound.fresh few (some index)
  have counted := sound.counted.step (.constructHandle call)
  have next : s.step (.constructHandle call) = { (s.construct (some index)).2 with
      calls := s.calls.set call (.holding (s.construct (some index)).1) } := by
    unfold ThreadPool.step
    dsimp only
    rw [chosen]
    rfl
  have more {hconn : ConnectionHandle} (mem : hconn ∈ s.handles) :
      hconn ∈ s.handles ++ [(s.construct (some index)).1] := List.mem_append_left _ mem
  have before {call' : Nat} {hconn : ConnectionHandle}
      (held : (s.calls.set call (.holding (s.construct (some index)).1))[call']? = some (.holding hconn)) :
      (call = call' ∧ hconn = (s.construct (some index)).1) ∨ s.calls[call']? = some (.holding hconn) := by
    rw [List.getElem?_set] at held
    split at held
    · split at held
      · rename_i same _
        cases held
        exact .inl ⟨same, rfl⟩
      · cases held
    · exact .inr held
  rw [next] at counted ⊢
  refine ⟨counted, ?_, sound.kept, sound.once, ?_, ?_, ?_, ?_⟩
  · change (s.handles ++ [(s.construct (some index)).1]).length < 2 ^ 32
    rw [List.length_append]
    exact few
  · exact fun w hconn inserted => (sound.owned w hconn inserted).imp_left more
  · exact fun hconn mem => more (sound.made hconn mem)
  · intro call' hconn held
    rcases before held with ⟨-, rfl⟩ | held
    · refine ⟨List.mem_append_right _ List.mem_cons_self, fun made => fresh (sound.made _ made), fun w inserted => ?_⟩
      exact fresh (sound.owned w _ inserted).1
    · exact (sound.held call' hconn held).imp_left more
  · intro call' call'' hconn held held'
    rcases before held with ⟨rfl, rfl⟩ | held
    · rcases before held' with ⟨rfl, -⟩ | held'
      · rfl
      · exact absurd (sound.held call'' _ held').1 fresh
    · rcases before held' with ⟨rfl, rfl⟩ | held'
      · exact absurd (sound.held call' _ held).1 fresh
      · exact sound.apart call' call'' hconn held held'

/-- A command of a new handle keeps it sound. -/
lemma Sound.executeCommand (sound : s.Sound) {hconn : ConnectionHandle} {cmd : ConnectionCommand} (err : ErrorCode)
    (inserts : cmd.inserts = true) (mem : hconn ∈ s.handles) (new : ∀ w, hconn ∉ (s.workers w).insertions)
    (free : ∀ call : Nat, s.calls[call]? ≠ some (.holding hconn)) : (s.executeCommand hconn cmd err).1.Sound := by
  unfold ThreadPool.executeCommand
  cases owner : hconn.owner with
  | none => exact sound
  | some w =>
    dsimp only
    split
    · exact sound.insert (hconn, cmd) inserts mem owner (new w) free
    · exact sound

/-- A call of `attach_connection` pushes its command. -/
lemma Sound.attach (sound : s.Sound) {call : Nat} {hconn : ConnectionHandle}
    (held : s.calls[call]? = some (.holding hconn)) (cmd : ConnectionCommand) (inserts : cmd.inserts = true) :
    Sound { (s.executeCommand hconn cmd none).1 with calls := s.calls.set call (.returned hconn) } := by
  obtain ⟨mem, -, new⟩ := sound.held call hconn held
  have released : Sound { s with calls := s.calls.set call (.returned hconn) } := sound.release call nofun
  have free (call' : Nat) : (s.calls.set call (.returned hconn))[call']? ≠ some (.holding hconn) := by
    intro held'
    rw [List.getElem?_set] at held'
    split at held'
    · split at held'
      · cases held'
      · cases held'
    · rename_i other
      exact other (sound.apart call call' hconn held held')
  have pushed := released.executeCommand none inserts mem new free
  have same : { (s.executeCommand hconn cmd none).1 with calls := s.calls.set call (.returned hconn) } =
      (ThreadPool.executeCommand { s with calls := s.calls.set call (.returned hconn) } hconn cmd none).1 := by
    unfold ThreadPool.executeCommand
    cases hconn.owner with
    | none => rfl
    | some w =>
      dsimp only
      split
      · rfl
      · rfl
  rw [same]
  exact pushed

/-- Every regular move keeps it sound. -/
lemma Sound.step (sound : s.Sound) {move : PoolMove} (regular : s.Regular move) : (s.step move).Sound := by
  cases move with
  | chooseWorker =>
    have before {call : Nat} {hconn : ConnectionHandle}
        (held : (s.calls ++ [.chosen (s.nextWorker.toNat % s.size)])[call]? = some (.holding hconn)) :
        s.calls[call]? = some (.holding hconn) := by
      rw [List.getElem?_append] at held
      split at held
      · exact held
      · have mem := List.mem_of_getElem? held
        rw [List.mem_singleton] at mem
        cases mem
    refine ⟨sound.counted.step .chooseWorker, sound.few, sound.kept, sound.once, sound.owned, sound.made, ?_, ?_⟩
    · exact fun call hconn held => sound.held call hconn (before held)
    · exact fun call call' hconn held held' => sound.apart call call' hconn (before held) (before held')
  | constructHandle call =>
    cases chosen : s.calls[call]? with
    | none =>
      unfold ThreadPool.step
      dsimp only
      rw [chosen]
      exact sound
    | some phase =>
      cases phase with
      | chosen index => exact sound.hold regular chosen
      | _ =>
        unfold ThreadPool.step
        dsimp only
        rw [chosen]
        exact sound
  | pushAttach call socket ctl afterAttach =>
    unfold ThreadPool.step
    dsimp only
    split
    · rename_i hconn held
      have next := sound.attach held (.attachConnection socket ctl afterAttach) rfl
      rw [executeCommand_kept] at next ⊢
      exact next
    · exact sound
  | makeHandle owner => exact sound.make regular.1 owner
  | pushCommand w cmd =>
    cases inserts : cmd.2.inserts with
    | false =>
      refine sound.put w ⟨(sound.kept w).pushCommand cmd, ?_⟩
      rw [PoolWorker.insertions_pushCommand, inserts]
      exact List.append_nil _
    | true =>
      obtain ⟨made, owner, new⟩ := regular inserts
      exact sound.insert cmd inserts (sound.made _ made) owner new fun call held => (sound.held call _ held).2.1 made
  | requestStop w => exact sound.put w ⟨⟨(sound.kept w).table⟩, rfl⟩
  | handlePending w => exact sound.put w (sound.kept w).handlePending
  | advance w env => exact sound.put w ((sound.kept w).advance w env)
  | event w id events env err removal => exact sound.put w ((sound.kept w).event w id events env err removal)

/-- Every connection is with the worker that owns its handle. -/
structure Apart (s : ThreadPool) : Prop where
  identified : (s.handles.map ConnectionHandle.connId).Nodup
  owned : ∀ w id, ((s.workers w).worker.connections id).isSome = true →
    ∃ hconn ∈ s.handles, hconn.id = id ∧ hconn.owner = some w
  once : ∀ v w id, ((s.workers v).worker.connections id).isSome = true →
    ((s.workers w).worker.connections id).isSome = true → v = w
  free : ∀ w cmd cmds, (s.workers w).queue.pass = .executing (cmd :: cmds) → cmd.2.inserts = true →
    (s.workers w).worker.connections cmd.1.id = none

/-- A connection in the table was inserted by an executed command. -/
lemma Sound.inserted (sound : s.Sound) {w : Nat} {id : ConnectionId}
    (there : ((s.workers w).worker.connections id).isSome = true) :
    ∃ cmd ∈ (s.workers w).queue.executed, cmd.2.inserts = true ∧ cmd.1.id = id := by
  by_contra none
  push Not at none
  rw [(sound.kept w).table id none] at there
  cases there

/-- A command in the queue that inserts is an insertion. -/
lemma mem_insertions {p : PoolWorker} {cmd : HandleCommand} (mem : cmd ∈ p.queue.commands)
    (inserts : cmd.2.inserts = true) : cmd.1 ∈ p.insertions :=
  List.mem_map_of_mem (List.mem_filter.2 ⟨mem, inserts⟩)

/-- A connection of a worker has a handle that the worker owns. -/
lemma Sound.owner (sound : s.Sound) {w : Nat} {id : ConnectionId}
    (there : ((s.workers w).worker.connections id).isSome = true) :
    ∃ hconn ∈ s.handles, hconn.id = id ∧ hconn.owner = some w := by
  obtain ⟨cmd, mem, inserts, same⟩ := sound.inserted there
  have placed : cmd ∈ (s.workers w).queue.commands := by
    rw [CommandQueue.commands, List.append_assoc]
    exact List.mem_append_left _ mem
  obtain ⟨known, owner⟩ := sound.owned w cmd.1 (mem_insertions placed inserts)
  exact ⟨cmd.1, known, same, owner⟩

/-- The id of a command that inserts a connection is not taken when it is executed. -/
lemma Sound.free (sound : s.Sound) {w : Nat} {cmd : HandleCommand} {cmds : List HandleCommand}
    (pass : (s.workers w).queue.pass = .executing (cmd :: cmds)) (inserts : cmd.2.inserts = true) :
    (s.workers w).worker.connections cmd.1.id = none := by
  refine (sound.kept w).table cmd.1.id fun old executed insertsOld same => ?_
  have placed : (s.workers w).queue.executed ++ (cmd :: (cmds ++ (s.workers w).queue.cmds.reduceOption)) =
      (s.workers w).queue.commands := by
    unfold CommandQueue.commands CommandQueue.extracted
    rw [pass]
    exact (List.append_assoc _ (cmd :: cmds) _).symm
  have memOld : old ∈ (s.workers w).queue.commands := placed ▸ List.mem_append_left _ executed
  have memCmd : cmd ∈ (s.workers w).queue.commands := placed ▸ List.mem_append_right _ List.mem_cons_self
  have equal := sound.identified (sound.owned w _ (mem_insertions memOld insertsOld)).1
    (sound.owned w _ (mem_insertions memCmd inserts)).1 same
  -- the handle would be there twice
  have once := sound.once w
  unfold PoolWorker.insertions at once
  rw [← placed, List.filter_append, List.map_append, List.filter_cons, if_pos inserts, List.map_cons] at once
  refine (List.nodup_append.1 once).2.2 old.1 ?_ cmd.1 List.mem_cons_self equal
  exact List.mem_map_of_mem (List.mem_filter.2 ⟨executed, insertsOld⟩)

/-- No connection is at two workers. -/
lemma Sound.separate (sound : s.Sound) : s.Apart := by
  refine ⟨sound.counted.nodup_iff.2 sound.few, fun w id => sound.owner, fun v w id there there' => ?_,
    fun w cmd cmds => sound.free⟩
  obtain ⟨hconn, mem, id, owner⟩ := sound.owner there
  obtain ⟨hconn', mem', id', owner'⟩ := sound.owner there'
  have same := sound.identified mem mem' (id.trans id'.symm)
  rw [same, owner'] at owner
  cases owner
  rfl

/-- A new pool has counted no handle. -/
lemma counted_start (size : Nat) : Counted { size } := ⟨rfl, rfl⟩

/-- A new pool is sound. -/
lemma sound_start (size : Nat) : Sound { size } := by
  refine ⟨counted_start size, Nat.two_pow_pos 32, fun _ => ⟨fun _ _ => rfl⟩, fun _ => List.nodup_nil, ?_, ?_, ?_,
    ?_⟩
  all_goals exact nofun

/-- The handles that a program constructs, in any order of all steps, have their own ids exactly if there are fewer than
    2 ^ 32 of them. -/
theorem run_identified_iff (size : Nat) (moves : List PoolMove) :
    ((Lib.run step { size } moves).handles.map ConnectionHandle.connId).Nodup ↔
      (Lib.run step { size } moves).handles.length < 2 ^ 32 :=
  Counted.nodup_iff (run_of_keep (P := Counted) (fun _ move counted => counted.step move) moves (counted_start size))

/-- In every run of regular steps, at all times: no two handles have one id, a worker has only connections whose handles
    it owns, so that no connection is with two workers, and the id under which a command inserts a connection is free
    when the command is executed. -/
theorem run_apart {size : Nat} {moves : List PoolMove} (regular : Guarded step Regular { size } moves) :
    Always step Apart { size } moves :=
  (always_of_guarded (fun _ _ sound regular => sound.step regular) (sound_start size) regular).imp fun _ =>
    Sound.separate

/-- Two calls take their workers and get their handles in different orders, while a client makes a handle of its own and
    connects with it. The first worker executes its command. -/
def attaching : List PoolMove :=
  [.chooseWorker, .chooseWorker, .constructHandle 1, .makeHandle (some 2), .constructHandle 0,
    .pushAttach 1 {} {} fun err => err,
    .pushCommand 2 (⟨2, some 2⟩, .addConnection true true { connect := { connect := none } }),
    .pushAttach 0 {} {} fun err => err, .handlePending 0, .advance 0 {}, .advance 0 {}, .advance 0 {}, .advance 0 {}]

/-- Two calls of `attach_connection` are regular. -/
lemma attaching_regular : Guarded step Regular { size := 2 } attaching := by
  have one : 0 + 1 < 2 ^ 32 := by decide
  have two : 1 + 1 < 2 ^ 32 := by decide
  have three : 2 + 1 < 2 ^ 32 := by decide
  refine ⟨trivial, trivial, one, ⟨two, ?_⟩, three, trivial, ?_, trivial, trivial, trivial, trivial, trivial, trivial,
    trivial⟩
  · intro w owner
    cases owner
    exact Nat.le_refl 2
  · exact fun _ => ⟨List.mem_singleton.2 rfl, rfl, List.not_mem_nil⟩

/-- Two calls of `attach_connection` whose steps alternate -/
theorem run_apart_attaching :
    Always step Apart { size := 2 } attaching ∧
      (((Lib.run step { size := 2 } attaching).workers 0).worker.connections 3).isSome = true :=
  ⟨run_apart attaching_regular, rfl⟩

/-! ## The share of each worker -/

/-- The calls take the workers in turn, and a worker of the pool has got the connections of the calls that returned. -/
structure Shared (size : Nat) (s : ThreadPool) : Prop where
  same : s.size = size
  next : s.nextWorker = UInt64.ofNat s.calls.length
  chosen : s.calls.map AttachCall.index = (List.range s.calls.length).map fun k => some (k % 2 ^ 64 % size)
  made : ∀ hconn ∈ s.made, ∀ w ∈ hconn.owner, size ≤ w
  loads : ∀ w < size, (s.workers w).insertions.length =
    s.calls.countP fun call => call.hasReturned && call.index == some w
  constructed : s.handles.length = s.made.length + s.calls.countP AttachCall.hasHandle

section lists
variable {α β : Type} {l : List α} {k : Nat} {a : α}

/-- One element is counted in place of another. -/
lemma countP_replaced (p : α → Bool) (there : l[k]? = some a) (b : α) :
    (l.set k b).countP p + (if p a then 1 else 0) = l.countP p + if p b then 1 else 0 := by
  induction l generalizing k with
  | nil => cases there
  | cons x l ih =>
    cases k with
    | zero =>
      cases there
      rw [List.set_cons_zero, List.countP_cons, List.countP_cons]
      exact Nat.add_right_comm ..
    | succ k =>
      have rest := ih there
      rw [List.set_cons_succ, List.countP_cons, List.countP_cons]
      omega

/-- An element of the same image changes nothing. -/
lemma map_replaced (f : α → β) (there : l[k]? = some a) {b : α} (same : f b = f a) : (l.set k b).map f = l.map f := by
  induction l generalizing k with
  | nil => rfl
  | cons x l ih =>
    cases k with
    | zero =>
      cases there
      rw [List.set_cons_zero, List.map_cons, List.map_cons, same]
    | succ k => rw [List.set_cons_succ, List.map_cons, List.map_cons, ih there]

end lists

/-- A worker goes on, and no command that inserts a connection is pushed to it, unless it is not one of the pool. -/
lemma Shared.put {size : Nat} (shared : s.Shared size) {w : Nat} {p : PoolWorker}
    (loads : w < size → p.insertions = (s.workers w).insertions) : (s.put w p).Shared size := by
  refine ⟨shared.same, shared.next, shared.chosen, shared.made, ?_, shared.constructed⟩
  intro v lt
  refine Eq.trans ?_ (shared.loads v lt)
  unfold ThreadPool.put
  by_cases same : v = w
  · cases same
    dsimp only
    rw [Function.update_self, loads lt]
  · dsimp only
    rw [Function.update_of_ne same]

/-- Every handle has an id that is not zero. -/
lemma Counted.valid (counted : s.Counted) {hconn : ConnectionHandle} (mem : hconn ∈ s.handles) : hconn.connId ≠ 0 := by
  have there : hconn.connId ∈ s.handles.map ConnectionHandle.connId := List.mem_map_of_mem mem
  rw [counted.ids] at there
  obtain ⟨k, -, id⟩ := List.mem_map.1 there
  rw [← id]
  unfold idOf
  split
  · decide
  · rename_i positive
    exact positive

/-- A call that has taken the index of a worker gets a handle of this worker. -/
lemma Shared.hold {size : Nat} (shared : s.Shared size) {call index : Nat}
    (chosen : s.calls[call]? = some (.chosen index)) : (s.step (.constructHandle call)).Shared size := by
  have next : s.step (.constructHandle call) = { (s.construct (some index)).2 with
      calls := s.calls.set call (.holding (s.construct (some index)).1) } := by
    unfold ThreadPool.step
    dsimp only
    rw [chosen]
    rfl
  have replaced (p : AttachCall → Bool) := countP_replaced p chosen (.holding (s.construct (some index)).1)
  rw [next]
  refine ⟨shared.same, ?_, ?_, shared.made, ?_, ?_⟩
  · dsimp only
    rw [List.length_set]
    exact shared.next
  · dsimp only
    rw [List.length_set, map_replaced (b := .holding (s.construct (some index)).1) AttachCall.index chosen rfl]
    exact shared.chosen
  · intro w lt
    exact (shared.loads w lt).trans (replaced fun call => call.hasReturned && call.index == some w).symm
  · change (s.handles ++ [_]).length = s.made.length + (s.calls.set call _).countP AttachCall.hasHandle
    rw [List.length_append, List.length_singleton, shared.constructed]
    exact congrArg (s.made.length + ·) (replaced AttachCall.hasHandle).symm

/-- A call that returns has pushed its command to the worker whose index it took. -/
lemma Shared.attach {size : Nat} (shared : s.Shared size) (sound : s.Sound) {call : Nat} {hconn : ConnectionHandle}
    (held : s.calls[call]? = some (.holding hconn)) (cmd : ConnectionCommand) (inserts : cmd.inserts = true) :
    Shared size { (s.executeCommand hconn cmd none).1 with calls := s.calls.set call (.returned hconn) } := by
  have replaced (p : AttachCall → Bool) := countP_replaced p held (.returned hconn)
  obtain ⟨index, owner⟩ : ∃ index, hconn.owner = some index := by
    have mem : hconn.owner ∈ s.calls.map AttachCall.index := List.mem_map_of_mem (List.mem_of_getElem? held)
    rw [shared.chosen] at mem
    obtain ⟨k, -, index⟩ := List.mem_map.1 mem
    exact ⟨_, index.symm⟩
  have valid : hconn.isValidHandler = true := by
    unfold ConnectionHandle.isValidHandler
    rw [owner]
    exact bne_iff_ne.2 (sound.counted.valid (sound.held call hconn held).1)
  have pushed : (s.executeCommand hconn cmd none).1 = s.put index ((s.workers index).pushCommand (hconn, cmd)) := by
    unfold ThreadPool.executeCommand
    rw [owner]
    dsimp only
    rw [if_pos valid]
  have more : ((s.workers index).pushCommand (hconn, cmd)).insertions = (s.workers index).insertions ++ [hconn] := by
    rw [PoolWorker.insertions_pushCommand, if_pos inserts]
  rw [pushed]
  refine ⟨shared.same, ?_, ?_, shared.made, ?_, ?_⟩
  · dsimp only
    rw [List.length_set]
    exact shared.next
  · dsimp only
    rw [List.length_set, map_replaced (b := .returned hconn) AttachCall.index held rfl]
    exact shared.chosen
  · intro w lt
    have count : ((s.calls.set call (.returned hconn)).countP fun call => call.hasReturned && call.index == some w) =
        (s.calls.countP fun call => call.hasReturned && call.index == some w) +
          if hconn.owner == some w then 1 else 0 :=
      replaced fun call => call.hasReturned && call.index == some w
    have loads := shared.loads w lt
    dsimp only
    rw [count, owner]
    unfold ThreadPool.put
    by_cases same : w = index
    · cases same
      dsimp only
      rw [Function.update_self, more, List.length_append, loads, if_pos (beq_self_eq_true _)]
      rfl
    · dsimp only
      rw [Function.update_of_ne same, loads, if_neg]
      · rfl
      · exact fun equal => same (Option.some.inj (beq_iff_eq.1 equal)).symm
  · change s.handles.length = s.made.length + (s.calls.set call (.returned hconn)).countP AttachCall.hasHandle
    rw [shared.constructed]
    exact congrArg (s.made.length + ·) (Nat.add_right_cancel (replaced AttachCall.hasHandle)).symm

/-- Every regular move keeps the shares even. -/
lemma Shared.step {size : Nat} (shared : s.Shared size) (sound : s.Sound) {move : PoolMove} (regular : s.Regular move) :
    (s.step move).Shared size := by
  cases move with
  | chooseWorker =>
    have length : (s.calls ++ [AttachCall.chosen (s.nextWorker.toNat % s.size)]).length = s.calls.length + 1 :=
      List.length_append
    refine ⟨shared.same, ?_, ?_, shared.made, ?_, ?_⟩
    · change s.nextWorker + 1 = UInt64.ofNat (s.calls ++ [AttachCall.chosen (s.nextWorker.toNat % s.size)]).length
      rw [length, shared.next]
      exact (UInt64.ofNat_add _ 1).symm
    · change (s.calls ++ [AttachCall.chosen (s.nextWorker.toNat % s.size)]).map AttachCall.index =
        (List.range (s.calls ++ [AttachCall.chosen (s.nextWorker.toNat % s.size)]).length).map _
      rw [length, List.range_succ, List.map_append, List.map_append, shared.chosen, shared.next, shared.same]
      rfl
    · intro w lt
      change _ = (s.calls ++ [AttachCall.chosen (s.nextWorker.toNat % s.size)]).countP _
      rw [List.countP_append]
      exact shared.loads w lt
    · change _ = s.made.length + (s.calls ++ [AttachCall.chosen (s.nextWorker.toNat % s.size)]).countP _
      rw [List.countP_append]
      exact shared.constructed
  | constructHandle call =>
    cases chosen : s.calls[call]? with
    | none =>
      unfold ThreadPool.step
      dsimp only
      rw [chosen]
      exact shared
    | some phase =>
      cases phase with
      | chosen index => exact shared.hold chosen
      | _ =>
        unfold ThreadPool.step
        dsimp only
        rw [chosen]
        exact shared
  | pushAttach call socket ctl afterAttach =>
    unfold ThreadPool.step
    dsimp only
    split
    · rename_i hconn held
      have next := shared.attach sound held (.attachConnection socket ctl afterAttach) rfl
      rw [executeCommand_kept] at next ⊢
      exact next
    · exact shared
  | makeHandle owner =>
    refine ⟨shared.same, shared.next, shared.chosen, ?_, shared.loads, ?_⟩
    · intro hconn mem
      rcases List.mem_append.1 mem with old | new
      · exact shared.made hconn old
      · rw [List.mem_singleton.1 new]
        exact shared.same ▸ regular.2
    · change (s.handles ++ [_]).length = (s.made ++ [_]).length + _
      rw [List.length_append, List.length_append, shared.constructed]
      exact Nat.add_right_comm ..
  | pushCommand w cmd =>
    refine shared.put fun lt => ?_
    rw [PoolWorker.insertions_pushCommand]
    split
    · rename_i inserts
      obtain ⟨made, owner, -⟩ := regular inserts
      exact absurd (shared.made cmd.1 made w owner) (Nat.not_le.2 lt)
    · exact List.append_nil _
  | requestStop w => exact shared.put fun _ => rfl
  | handlePending w => exact shared.put fun _ => (sound.kept w).handlePending.2
  | advance w env => exact shared.put fun _ => ((sound.kept w).advance w env).2
  | event w id events env err removal => exact shared.put fun _ => ((sound.kept w).event w id events env err removal).2

/-- Where all calls have returned, each worker has got its share of their connections. -/
lemma Shared.share {size : Nat} (shared : s.Shared size) (sound : s.Sound)
    (quiet : ∀ call ∈ s.calls, call.hasReturned = true) {w : Nat} (lt : w < size) :
    (s.workers w).insertions.length =
      s.calls.length / size + if w < s.calls.length % size then 1 else 0 := by
  have handles : s.calls.countP AttachCall.hasHandle = s.calls.length := by
    rw [List.countP_eq_length]
    intro call mem
    cases call with
    | chosen index => cases quiet _ mem
    | _ => rfl
  have few : s.calls.length < 2 ^ 64 := by
    have constructed := shared.constructed
    have fewer := sound.few
    rw [handles] at constructed
    omega
  have returned : (s.calls.countP fun call => call.hasReturned && call.index == some w) =
      (s.calls.map AttachCall.index).countP (· == some w) := by
    rw [List.countP_map]
    refine List.countP_congr fun call mem => ?_
    rw [quiet call mem]
    rfl
  have share := Nat.count_modEq_card s.calls.length (Nat.lt_of_le_of_lt (Nat.zero_le w) lt) w
  rw [Nat.mod_eq_of_lt lt] at share
  rw [shared.loads w lt, returned, shared.chosen, List.countP_map, ← share]
  refine List.countP_congr fun k mem => ?_
  have small : k % 2 ^ 64 = k := Nat.mod_eq_of_lt (Nat.lt_trans (List.mem_range.1 mem) few)
  have turn : k ≡ w [MOD size] ↔ k % size = w := by
    unfold Nat.ModEq
    rw [Nat.mod_eq_of_lt lt]
  rw [Function.comp_apply, small, beq_iff_eq, decide_eq_true_iff, Option.some.injEq]
  exact turn.symm

/-- A new pool has given nothing. -/
lemma shared_start (size : Nat) : Shared size { size } := ⟨rfl, rfl, rfl, nofun, fun _ _ => rfl, rfl⟩

/-- Where no call of `attach_connection` is under way, each worker of the pool has got its share of the connections: in
    whatever order the threads take their steps, no worker has got two more than another one. -/
theorem run_balanced {size : Nat} {moves : List PoolMove} (regular : Guarded step Regular { size } moves)
    (quiet : ∀ call ∈ (Lib.run step { size } moves).calls, call.hasReturned = true) {w : Nat} (lt : w < size) :
    let s := Lib.run step { size } moves
    (s.workers w).insertions.length = s.calls.length / size + if w < s.calls.length % size then 1 else 0 := by
  have both : Always step (fun s => s.Sound ∧ s.Shared size) { size } moves :=
    always_of_guarded (fun _ _ both regular => ⟨both.1.step regular, both.2.step both.1 regular⟩)
      ⟨sound_start size, shared_start size⟩ regular
  exact both.last.2.share both.last.1 quiet lt

/-- The second of two workers has one of two connections. -/
theorem run_balanced_attaching :
    ((Lib.run step { size := 2 } attaching).workers 1).insertions.length = 1 :=
  run_balanced attaching_regular (by decide) (by decide)

end ThreadPool
end OsterLib.Network
