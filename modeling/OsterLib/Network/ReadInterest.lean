import OsterLib.Network.EventMask

/-!
# The read interest of a process

A connection is watched for `In` while it has a process. `addConnectionProcessInternal` sets the bit;
`removeConnectionProcessInternal` does not clear it but toggles it, and in the recorded mask, which need not be the
registered one. So a detach ends the watch only where the record has `In`: a connection whose process disabled reading,
that never had a process, or that is detached twice is watched for `In` with nobody to read. What a detach does to the
other bits depends on the record in the same way.
-/

namespace OsterLib.Network
open OsterLib.Lib

namespace Event

/-- A bit of a mask. -/
def bit (mask : Event) (i : ℕ) : Bool := mask.toBitVec.getLsbD i

/-- Masks are equal if they have the same bits. -/
lemma eq_iff_bit {a b : Event} : a = b ↔ ∀ i < 32, a.bit i = b.bit i := by
  rw [← UInt32.toBitVec_inj]
  constructor
  · intro same i _
    exact congrArg (fun v => v.getLsbD i) same
  · exact BitVec.eq_of_getLsbD_eq

/-- A bit of both masks -/
@[simp] lemma bit_and (a b : Event) (i : ℕ) : (a &&& b).bit i = (a.bit i && b.bit i) :=
  BitVec.getLsbD_and

/-- A bit of one of the masks -/
@[simp] lemma bit_or (a b : Event) (i : ℕ) : (a ||| b).bit i = (a.bit i || b.bit i) :=
  BitVec.getLsbD_or

/-- A bit of exactly one of the masks -/
@[simp] lemma bit_xor (a b : Event) (i : ℕ) : (a ^^^ b).bit i = (a.bit i ^^ b.bit i) :=
  BitVec.getLsbD_xor

/-- A bit that the mask does not have -/
lemma bit_not (a : Event) {i : ℕ} (below : i < 32) : (~~~a).bit i = !a.bit i := by
  simp only [bit, UInt32.toBitVec_not, BitVec.getLsbD_not, below, decide_true, Bool.true_and]

/-- The empty mask has no bit. -/
@[simp] lemma bit_zero (i : ℕ) : bit 0 i = false := BitVec.getLsbD_zero

/-- Reading is the first bit. -/
lemma bit_In {i : ℕ} : In.bit i = decide (i = 0) := BitVec.getLsbD_one.trans (Bool.true_and _)

/-- A mask has reading if it has the first bit. -/
lemma has_In (mask : Event) : mask.has In = mask.bit 0 := by
  rw [Event.has, Bool.eq_iff_iff, bne_iff_ne, ne_eq, eq_iff_bit]
  constructor
  · intro other
    by_contra clear
    refine other fun i _ => ?_
    rw [bit_and, bit_In]
    by_cases first : i = 0 <;> simp_all
  · intro set none
    have first := none 0 (by decide)
    rw [bit_and, bit_In, set] at first
    cases first

/-- Reading is set. -/
lemma has_or_In (mask : Event) : (mask ||| In).has In = true := by
  rw [has_In, bit_or, bit_In]
  exact Bool.or_true _

/-- What is set stays set. -/
lemma has_or (mask : Event) {flag : Event} (set : mask.has In = true) : (mask ||| flag).has In = true := by
  rw [has_In] at set ⊢
  rw [bit_or, set, Bool.true_or]

/-- Whatever else is cleared, `In` stays. -/
lemma has_and_not_Out (mask : Event) : (mask &&& ~~~Out).has In = mask.has In := by
  rw [has_In, has_In, bit_and, show (~~~Out).bit 0 = true from by decide, Bool.and_true]

/-- Toggling changes whether reading is set. -/
lemma has_toggle (mask : Event) : (mask ^^^ In).has In = !mask.has In := by
  rw [has_In, has_In, bit_xor, bit_In]
  exact Bool.xor_true _

/-- The other bits are not toggled. -/
lemma toggle_others (mask : Event) : (mask ^^^ In) &&& ~~~In = mask &&& ~~~In := by
  rw [eq_iff_bit]
  intro i below
  rw [bit_and, bit_and, bit_xor, bit_not In below, bit_In]
  by_cases first : i = 0 <;> simp [first]

end Event

namespace ConnectionState

/-- The multiplexor watches the connection for `In`. -/
def Readable (conn : ConnectionState) : Prop :=
  ∃ mask, conn.socket.interest = some mask ∧ mask.has .In = true

/-- The multiplexor watches the connection, but not for `In`, and for everything else as it did before. -/
def Detached (before after : ConnectionState) : Prop :=
  ∃ mask, after.socket.interest = some mask ∧ mask.has .In = false ∧
    mask &&& ~~~.In = before.socket.interest.getD 0 &&& ~~~.In

/-- The connection with a mask that the multiplexor accepted. -/
def watched (conn : ConnectionState) (events : Event) : ConnectionState :=
  { conn with socket := { conn.socket with interest := some events }, eventsHandled := events }

/-- The connection that `on_init_connection` finds. -/
def attached (conn : ConnectionState) (proc : Nat) : ConnectionState :=
  { conn with proc := some proc }.watched ((conn.eventsHandled &&& ~~~Event.Out) ||| Event.In)

/-- The connection after a call of `enable_writing` or `enable_readable`. -/
def enable (epoll : Bool) (conn : ConnectionState) (call : EnableCall) : ConnectionState :=
  if call.enable != conn.eventsHandled.has call.flag then
    let newEvents :=
      if call.enable then conn.eventsHandled ||| call.flag else conn.eventsHandled &&& ~~~call.flag
    let (socket, _, err) := conn.socket.modify epoll newEvents call.ctl call.err
    { conn with socket, eventsHandled := if err = none then newEvents else conn.eventsHandled }
  else conn

end ConnectionState

namespace Worker
open ConnectionState

/-- The connection that was put is there. -/
@[simp] lemma put_connections (w : Worker) (id : ConnectionId) (conn : ConnectionState) :
    (w.put id conn).connections id = some conn :=
  Function.update_self ..

/-- A call changes its connection only. -/
lemma enableCall_found {w : Worker} {id : ConnectionId} {conn : ConnectionState}
    (found : w.connections id = some conn) (call : EnableCall) :
    (enableCall id w call).connections id = some (conn.enable w.epoll call) ∧
      (enableCall id w call).epoll = w.epoll := by
  rw [enableCall, enableFlag, found, ConnectionState.enable]
  dsimp only
  split
  · exact ⟨put_connections .., rfl⟩
  · exact ⟨found, rfl⟩

/-- The calls of a handler are followed through on its connection. -/
lemma calls_found (id : ConnectionId) (calls : List EnableCall) {w : Worker} {conn : ConnectionState}
    (found : w.connections id = some conn) :
    (Lib.run (enableCall id) w calls).connections id = some (calls.foldl (ConnectionState.enable w.epoll) conn) := by
  induction calls generalizing w conn with
  | nil => exact found
  | cons call calls ih =>
    obtain ⟨next, same⟩ := enableCall_found found call
    rw [Lib.run_cons, ih next, same, List.foldl_cons]

/-- A granted `modify` registers the mask. -/
lemma modify_of_granted {w : Worker} {conn : ConnectionState} {ctl : Ctl} (granted : w.Granted conn ctl)
    (events : Event) (err : ErrorCode) :
    conn.socket.modify w.epoll events ctl err = ({ conn.socket with interest := some events }, true, err) := by
  obtain ⟨⟨epoll, isOpen⟩, res⟩ := granted
  simp [Socket.modify, epoll, isOpen, res]

/-! ## Detaching a process -/

/-- A process is removed exactly if there is one and the kernel grants the mask without it. -/
lemma removeProcess_true_iff {w : Worker} {id : ConnectionId} {conn : ConnectionState}
    (found : w.connections id = some conn) (ctl : Ctl) (afterRemove : ErrorCode → ErrorCode) (err : ErrorCode) :
    (w.removeConnectionProcessInternal id ctl afterRemove err).2.1 = true ↔
      w.Granted conn ctl ∧ err.isSet = false := by
  rw [removeConnectionProcessInternal, found]
  by_cases granted : w.Granted conn ctl
  · simp only [modify_of_granted granted, Bool.not_true, Bool.false_eq_true, if_false, granted, true_and]
    cases err.isSet <;> simp
  · have refused : (conn.socket.modify w.epoll (conn.eventsHandled ^^^ .In) ctl err).2.1 = false :=
      Bool.eq_false_iff.2 fun done => granted ((conn.socket.modify_done ..).1 done)
    simp [refused, granted]

/-- The connection has no process any more, and its mask is toggled. -/
lemma removeProcess_found {w : Worker} {id : ConnectionId} {conn : ConnectionState}
    (found : w.connections id = some conn) {ctl : Ctl} (granted : w.Granted conn ctl)
    (afterRemove : ErrorCode → ErrorCode) {err : ErrorCode} (clear : err.isSet = false) :
    (w.removeConnectionProcessInternal id ctl afterRemove err).1.connections id =
      some ({ conn with proc := none }.watched (conn.eventsHandled ^^^ Event.In)) := by
  rw [removeConnectionProcessInternal, found]
  simp only [modify_of_granted granted, clear, Bool.not_true, Bool.false_eq_true, if_false]
  exact put_connections ..

/-- A detach that reports success ends the watch for `In` and nothing else. -/
def Detaches (w : Worker) (id : ConnectionId) (ctl : Ctl) (afterRemove : ErrorCode → ErrorCode)
    (err : ErrorCode) : Prop :=
  ∀ conn, w.connections id = some conn →
    (w.removeConnectionProcessInternal id ctl afterRemove err).2.1 = true →
      ∃ after, (w.removeConnectionProcessInternal id ctl afterRemove err).1.connections id = some after ∧
        conn.Detached after

/-- Where a detach is granted, the record has `In`, and has what is registered besides. -/
def DetachProvided (w : Worker) (id : ConnectionId) (ctl : Ctl) (err : ErrorCode) : Prop :=
  ∀ conn, w.connections id = some conn → w.Granted conn ctl → err.isSet = false →
    conn.eventsHandled.has .In = true ∧
      conn.eventsHandled &&& ~~~.In = conn.socket.interest.getD 0 &&& ~~~.In

/-- A connection is detached exactly if its mask had reading. -/
lemma watched_detached_iff (conn : ConnectionState) :
    conn.Detached ({ conn with proc := none }.watched (conn.eventsHandled ^^^ Event.In)) ↔
      conn.eventsHandled.has .In = true ∧
        conn.eventsHandled &&& ~~~.In = conn.socket.interest.getD 0 &&& ~~~.In := by
  constructor
  · rintro ⟨mask, registered, clear, others⟩
    obtain rfl : conn.eventsHandled ^^^ .In = mask := Option.some.inj registered
    rw [Event.has_toggle, Bool.not_eq_false'] at clear
    rw [Event.toggle_others] at others
    exact ⟨clear, others⟩
  · rintro ⟨set, others⟩
    refine ⟨conn.eventsHandled ^^^ .In, rfl, ?_, ?_⟩
    · rw [Event.has_toggle, set]
      rfl
    · rw [Event.toggle_others]
      exact others

/-- A removal detaches exactly if that is provided for. -/
lemma detaches_iff (w : Worker) (id : ConnectionId) (ctl : Ctl) (afterRemove : ErrorCode → ErrorCode)
    (err : ErrorCode) : w.Detaches id ctl afterRemove err ↔ w.DetachProvided id ctl err := by
  constructor
  · intro detaches conn found granted clear
    obtain ⟨after, here, detached⟩ :=
      detaches conn found ((removeProcess_true_iff found ctl afterRemove err).2 ⟨granted, clear⟩)
    rw [removeProcess_found found granted afterRemove clear] at here
    obtain rfl := Option.some.inj here
    exact (watched_detached_iff conn).1 detached
  · intro provided conn found success
    obtain ⟨granted, clear⟩ := (removeProcess_true_iff found ctl afterRemove err).1 success
    refine ⟨_, removeProcess_found found granted afterRemove clear, ?_⟩
    exact (watched_detached_iff conn).2 (provided conn found granted clear)

/-- While the recorded masks are the registered ones, only the bit `In` of the record matters. -/
theorem MasksAgree.detaches_iff {w : Worker} (agr : w.MasksAgree) (id : ConnectionId) (ctl : Ctl)
    (afterRemove : ErrorCode → ErrorCode) (err : ErrorCode) :
    w.Detaches id ctl afterRemove err ↔
      ∀ conn, w.connections id = some conn → w.Granted conn ctl → err.isSet = false →
        conn.eventsHandled.has .In = true := by
  rw [Worker.detaches_iff]
  constructor
  · intro provided conn found granted clear
    exact (provided conn found granted clear).1
  · intro recorded conn found granted clear
    have same : conn.socket.interest = some conn.eventsHandled := agr id conn found granted.1.2
    refine ⟨recorded conn found granted clear, ?_⟩
    rw [same]
    rfl

/-! ## Attaching a process -/

/-- The environment of an attach reports no error. -/
def AttachEnv.Clear (env : AttachEnv) : Prop :=
  (env.afterAdd none).isSet = false ∧ env.onInit.err.isSet = false

/-- A granted process is attached. -/
lemma setProcess_of_granted {w : Worker} {id : ConnectionId} {conn : ConnectionState} {ctl : Ctl}
    (granted : w.Granted conn ctl) (proc : Nat) (err : ErrorCode) :
    w.setProcess id conn proc ctl err = (w.put id (conn.attached proc), true, err) := by
  rw [setProcess]
  simp only [modify_of_granted granted]
  rfl

/-- A process is added exactly if the worker goes on and the kernel grants its mask. -/
lemma addProcess_true_iff {w : Worker} {id : ConnectionId} {conn : ConnectionState}
    (found : w.connections id = some conn) (active : conn.state = .active) (proc : Nat) (env : AttachEnv)
    (err : ErrorCode) :
    (w.addConnectionProcessInternal id proc env err).2.1 = true ↔
      w.stopRequested = false ∧ w.Granted conn env.ctl ∧ env.Clear := by
  rw [addConnectionProcessInternal, found]
  cases stop : w.stopRequested with
  | true => simp
  | false =>
    simp only [active, true_or, if_true, Bool.false_eq_true, if_false, true_and]
    by_cases granted : w.Granted conn env.ctl
    · simp only [setProcess_of_granted granted, Bool.not_true, Bool.false_eq_true, if_false, granted, true_and,
        AttachEnv.Clear]
      cases (env.afterAdd none).isSet with
      | true => simp
      | false =>
        simp only [onInitConnection, callback, Bool.false_eq_true, if_false, true_and]
        by_cases set : env.onInit.err.isSet = true <;> simp [set]
    · have refused : (w.setProcess id conn proc env.ctl err).2.1 = false :=
        Bool.eq_false_iff.2 fun done => granted ((w.setProcess_granted ..).1 done)
      simp [refused, granted]

/-- The connection has the process. -/
lemma addProcess_found {w : Worker} {id : ConnectionId} {conn : ConnectionState}
    (found : w.connections id = some conn) (active : conn.state = .active) (proc : Nat) {env : AttachEnv}
    (err : ErrorCode) (going : w.stopRequested = false) (granted : w.Granted conn env.ctl)
    (clear : env.Clear) :
    (w.addConnectionProcessInternal id proc env err).1.connections id =
      some (env.onInit.calls.foldl (ConnectionState.enable w.epoll) (conn.attached proc)) := by
  rw [addConnectionProcessInternal, found]
  simp only [going, active, true_or, if_true, Bool.false_eq_true, if_false, setProcess_of_granted granted,
    Bool.not_true, clear.1, onInitConnection, callback, clear.2]
  exact calls_found id env.onInit.calls (put_connections w id _)

/-- An attach to an active connection that reports success leaves it watched for `In`. -/
def Attaches (w : Worker) (id : ConnectionId) (proc : Nat) (env : AttachEnv) (err : ErrorCode) : Prop :=
  ∀ conn, w.connections id = some conn → conn.state = .active →
    (w.addConnectionProcessInternal id proc env err).2.1 = true →
      ∃ after, (w.addConnectionProcessInternal id proc env err).1.connections id = some after ∧ after.Readable

/-- Where an attach is granted, the calls that the process makes in `on_init_connection` leave reading enabled. -/
def AttachProvided (w : Worker) (id : ConnectionId) (proc : Nat) (env : AttachEnv) : Prop :=
  ∀ conn, w.connections id = some conn → conn.state = .active → w.stopRequested = false →
    w.Granted conn env.ctl → env.Clear →
      (env.onInit.calls.foldl (ConnectionState.enable w.epoll) (conn.attached proc)).Readable

/-- An addition attaches exactly if that is provided for. -/
lemma attaches_iff (w : Worker) (id : ConnectionId) (proc : Nat) (env : AttachEnv) (err : ErrorCode) :
    w.Attaches id proc env err ↔ w.AttachProvided id proc env := by
  constructor
  · intro attaches conn found active going granted clear
    obtain ⟨after, here, readable⟩ :=
      attaches conn found active ((addProcess_true_iff found active proc env err).2 ⟨going, granted, clear⟩)
    rw [addProcess_found found active proc err going granted clear] at here
    obtain rfl := Option.some.inj here
    exact readable
  · intro provided conn found active success
    obtain ⟨going, granted, clear⟩ := (addProcess_true_iff found active proc env err).1 success
    exact ⟨_, addProcess_found found active proc err going granted clear,
      provided conn found active going granted clear⟩

/-- A call that is about writing, or enables reading, and does not lose the registration when it fails. -/
def LeavesReading (call : EnableCall) : Prop :=
  (call.flag = .Out ∨ call.flag = .In ∧ call.enable = true) ∧ call.ctl.Keeps

/-- A process that leaves reading on stays readable. -/
lemma enable_readable {conn : ConnectionState} (epoll : Bool) {call : EnableCall} (leaves : LeavesReading call)
    (recorded : conn.eventsHandled.has .In = true) (readable : conn.Readable) :
    (conn.enable epoll call).eventsHandled.has .In = true ∧ (conn.enable epoll call).Readable := by
  obtain ⟨kind, keeps⟩ := leaves
  rw [ConnectionState.enable]
  split
  · generalize asked : (if call.enable = true then conn.eventsHandled ||| call.flag
      else conn.eventsHandled &&& ~~~call.flag) = events
    -- the mask that is asked for has `In`: `Out` is another bit, and `In` is only set
    have stays : events.has .In = true := by
      subst asked
      split
      · exact Event.has_or _ recorded
      · rcases kind with out | ⟨-, on⟩
        · rw [out, Event.has_and_not_Out]
          exact recorded
        · contradiction
    have modified := conn.socket.modify_cases epoll events call.ctl call.err
    dsimp only
    generalize conn.socket.modify epoll events call.ctl call.err = after at modified ⊢
    refine ⟨?_, ?_⟩
    · split
      · exact stays
      · exact recorded
    -- a refused mask leaves the registered one, unless the registration is lost
    · obtain ⟨-, ⟨-, -, -, -, registered⟩ | ⟨-, -, kept⟩⟩ := modified
      · exact ⟨events, registered, stays⟩
      · obtain ⟨mask, registered, set⟩ := readable
        exact ⟨mask, (kept fun _ _ => keeps).trans registered, set⟩
  · exact ⟨recorded, readable⟩

/-- A process that leaves reading alone when it is told of its connection is provided for. -/
theorem attachProvided_of_calls (w : Worker) (id : ConnectionId) (proc : Nat) {env : AttachEnv}
    (leaves : ∀ call ∈ env.onInit.calls, LeavesReading call) : w.AttachProvided id proc env := by
  intro conn _ _ _ _ _
  have set : ((conn.eventsHandled &&& ~~~.Out) ||| Event.In).has .In = true := Event.has_or_In _
  have recorded : (conn.attached proc).eventsHandled.has .In = true := set
  have readable : (conn.attached proc).Readable := ⟨_, rfl, set⟩
  generalize conn.attached proc = attached at recorded readable
  generalize env.onInit.calls = calls at leaves
  induction calls generalizing attached with
  | nil => exact readable
  | cons call calls ih =>
    obtain ⟨recorded, readable⟩ := enable_readable w.epoll (leaves call List.mem_cons_self) recorded readable
    exact ih _ recorded readable fun other mem => leaves other (List.mem_cons_of_mem _ mem)

/-! ## Runs -/

/-- A step that detaches or attaches a process leaves the read interest right. -/
def ReadInterest (w : Worker) : Op → Prop
  | .removeProcess id ctl afterRemove err => w.Detaches id ctl afterRemove err
  | .addProcess id proc env err => w.Attaches id proc env err
  | _ => True

/-- What each operation needs to keep the interest in reading right -/
def ReadProvided (w : Worker) : Op → Prop
  | .removeProcess id ctl _ err => w.DetachProvided id ctl err
  | .addProcess id proc env _ => w.AttachProvided id proc env
  | _ => True

/-- Every detach and attach of a run leaves the read interest right exactly if each is provided for where it is
    executed. -/
theorem run_readInterest_iff (epoll : Bool) (ops : List Op) :
    Guarded step ReadInterest { epoll } ops ↔ Guarded step ReadProvided { epoll } ops := by
  refine guarded_iff_guarded (J := fun _ => True) ?_ (fun _ _ _ _ => trivial) trivial
  intro w op _
  cases op with
  | removeProcess id ctl afterRemove err => exact w.detaches_iff id ctl afterRemove err
  | addProcess id proc env err => exact w.attaches_iff id proc env err
  | _ => exact Iff.rfl

/-- A process disables reading and is detached: the connection without a process is watched for `In` again. -/
theorem detach_enables_reading :
    ¬ ∀ (epoll : Bool) (ops : List Op), Guarded step ReadInterest { epoll } ops := by
  intro all
  have run := all true [.attachConnection 1 {} {} id, .addProcess 1 7 {} none,
    .enable 1 ⟨.In, false, none, {}⟩, .removeProcess 1 {} id none]
  -- 0x18 is `Error` and `HangUp`, and `In` is back in 0x19
  obtain ⟨after, here, mask, registered, clear, -⟩ :=
    run.2.2.2.1 ⟨.active, some 7, true, ⟨true, some 0x18⟩, 0x18⟩ (by decide) (by decide)
  have found : after = ⟨.active, none, true, ⟨true, some 0x19⟩, 0x19⟩ := by
    have evaluated : some after = some ⟨.active, none, true, ⟨true, some 0x19⟩, 0x19⟩ :=
      here.symm.trans (by decide)
    exact Option.some.inj evaluated
  subst found
  obtain rfl := Option.some.inj registered
  exact absurd clear (by decide)

end Worker
end OsterLib.Network
