import OsterLib.Lib.Run
import OsterLib.Network.VectorizedBuffer

/-!
# The sending side of a connection

`send_vectorized` of `network/send.cpp` and `__send_internal__`, `send` and `send_rest` of
`network/connectionIO.h`. The outside world of one call is an `Env`: whether the socket is valid, what
`enable_writable` does to the error code, and how the one `writev` of the call ends.

A `Ledger` runs the calls on one connection and keeps what the socket took and what was serialized.
`Lossless` says that nothing is missing between the two. On a write that would block, the code passes
the result `-1` of `writev` on to `consume`, which drops everything that is pending
(`sendVectorized_wouldBlock`), so a run is lossless exactly as long as no write of it would block
(`run_lossless_iff`).
-/

namespace OsterLib.Network
open OsterLib.Lib OsterLib.Serialization

/-- How a `writev` ends. -/
inductive WriteOutcome where
  /-- The socket takes `n` bytes, or everything if less is pending. -/
  | accepted (n : Nat)
  | failed (errno : Errc)
  deriving DecidableEq, Repr

/-- What a call that sends finds outside of the connection's buffers. -/
structure Env where
  socketValid : Bool
  enableWritable : Bool → ErrorCode → ErrorCode
  outcome : WriteOutcome

/-- What a call that sends returns and leaves behind, and the bytes that the socket took. -/
structure Sent where
  ret : Int
  err : ErrorCode
  buffer : VectorizedBuffer
  wire : List Byte := []

/-- `static_cast<size_t>(-1)` -/
def sizeMax : Nat := 2 ^ 64 - 1

/-- `send_vectorized` -/
def sendVectorized (err : ErrorCode) (outcome : WriteOutcome) (buffer : VectorizedBuffer)
    (stand : Bool := false) : Sent :=
  match buffer.remaining with
  | none => { ret := 0, err, buffer }
  | some _ =>
    match outcome with
    | .failed errno =>
      match errno with
      | .resourceUnavailableTryAgain | .operationInProgress =>
        -- `consume` is called with the result of `writev`, which is `-1` here
        let buffer := buffer.consume sizeMax
        { ret := 0, err := some errno, buffer := if stand then buffer else buffer.compact }
      | _ => { ret := 0, err := some errno, buffer }
    | .accepted n =>
      let res := min n buffer.pending.length
      if res = 0 then { ret := 0, err, buffer }
      else
        let wire := buffer.pending.take res
        let buffer := buffer.consume res
        { ret := res, err := none, buffer := if stand then buffer else buffer.compact, wire }

/-- `clear_send_buffer` only removes what is already written. -/
def clearSendBuffer (buffer : VectorizedBuffer) : VectorizedBuffer := buffer.compact

/-- `__send_internal__` -/
def sendInternal (err : ErrorCode) (env : Env) (buffer : VectorizedBuffer) : Sent :=
  if !env.socketValid then { ret := -1, err := some .badFileDescriptor, buffer }
  else if !buffer.hasToWrite then { ret := 0, err := env.enableWritable false err, buffer }
  else
    let sent := sendVectorized (env.enableWritable true err) env.outcome buffer
    match sent.err with
    | some .resourceUnavailableTryAgain | some .operationInProgress => { sent with err := none }
    | some .noBufferSpace => { sent with err := env.enableWritable false sent.err }
    | some _ => { sent with ret := -1, buffer := clearSendBuffer sent.buffer }
    | none =>
      if !sent.buffer.hasToWrite then
        { sent with
          err := env.enableWritable false sent.err
          buffer := clearSendBuffer sent.buffer }
      else sent

/-- `send`, with the message that it hands to the callback: `none` where serialization failed, and
    where the message is empty and no other is queued, so that there is no last buffer. -/
def send (err : ErrorCode) (env : Env) (values : List Serializer) (buffer : VectorizedBuffer) :
    Sent × Option (List Byte) :=
  match buffer.serialize values with
  | (buffer, .none) => (sendInternal err env buffer, buffer.bufs.getLast?)
  | (buffer, _) =>
    ({ ret := -1, err := some .operationCanceled, buffer := clearSendBuffer buffer }, none)

/-- `send_rest` -/
def sendRest (err : ErrorCode) (env : Env) (buffer : VectorizedBuffer) : Sent :=
  if buffer.hasToWrite then sendInternal err env buffer else { ret := 0, err, buffer }

/-! ## What a write does to the pending bytes -/

/-- The write is refused for now. -/
def WouldBlock : WriteOutcome → Prop
  | .failed errno => errno = .resourceUnavailableTryAgain ∨ errno = .operationInProgress
  | .accepted _ => False

/-- No pending byte is lost: it went to the socket or is still pending, in order. -/
def Sent.Keeps (sent : Sent) (buffer : VectorizedBuffer) : Prop :=
  sent.wire ++ sent.buffer.pending = buffer.pending

/-- What remains to write begins at the active part. -/
lemma remaining_some {buffer : VectorizedBuffer} (has : buffer.hasToWrite = true) :
    buffer.remaining = some (buffer.active, buffer.bufs.length - buffer.active) := by
  have lt : buffer.active < buffer.vbuf.length := by
    simpa [VectorizedBuffer.hasToWrite] using has
  simp [VectorizedBuffer.remaining, lt]

/-- Consuming and compacting keep the buffer in order. -/
lemma VectorizedBuffer.Inv.consume_compact {buffer : VectorizedBuffer} (inv : buffer.Inv)
    (n : Nat) (stand : Bool) :
    let after := if stand then buffer.consume n else (buffer.consume n).compact
    after.Inv ∧ after.pending = buffer.pending.drop n := by
  obtain ⟨inv', pending⟩ := inv.consume n
  cases stand with
  | true => exact ⟨inv', pending⟩
  | false => exact ⟨inv'.compact.1, inv'.compact.2.trans pending⟩

/-- A write that would block leaves nothing of what was pending. -/
lemma sendVectorized_wouldBlock (err : ErrorCode) {outcome : WriteOutcome}
    {buffer : VectorizedBuffer} (stand : Bool) (inv : buffer.Inv)
    (has : buffer.hasToWrite = true) (blocks : WouldBlock outcome) :
    let sent := sendVectorized err outcome buffer stand
    sent.buffer.Inv ∧ sent.wire = [] ∧ sent.buffer.pending = buffer.pending.drop sizeMax := by
  have after := inv.consume_compact sizeMax stand
  unfold sendVectorized
  rw [remaining_some has]
  cases outcome with
  | accepted n => exact absurd blocks id
  | failed errno =>
    rcases blocks with rfl | rfl
    · exact ⟨after.1, rfl, after.2⟩
    · exact ⟨after.1, rfl, after.2⟩

/-- A write that is not told to try later takes what it wrote off the buffer. -/
lemma sendVectorized_keeps (err : ErrorCode) {outcome : WriteOutcome}
    {buffer : VectorizedBuffer} (stand : Bool) (inv : buffer.Inv)
    (has : buffer.hasToWrite = true) (ready : ¬ WouldBlock outcome) :
    let sent := sendVectorized err outcome buffer stand
    sent.buffer.Inv ∧ sent.Keeps buffer := by
  unfold sendVectorized
  rw [remaining_some has]
  cases outcome with
  | accepted n =>
    by_cases zero : min n buffer.pending.length = 0
    · simp only [zero, if_true]
      exact ⟨inv, rfl⟩
    · have after := inv.consume_compact (min n buffer.pending.length) stand
      simp only [zero, if_false]
      refine ⟨after.1, ?_⟩
      unfold Sent.Keeps
      rw [after.2, List.take_append_drop]
  | failed errno =>
    have kept : Sent.Keeps { ret := 0, err := some errno, buffer } buffer := rfl
    cases errno with
    | resourceUnavailableTryAgain => exact absurd (.inl rfl) ready
    | operationInProgress => exact absurd (.inr rfl) ready
    | _ => exact ⟨inv, kept⟩

/-- The write of a call loses nothing exactly if it would not block. -/
lemma sendVectorized_keeps_iff (err : ErrorCode) (outcome : WriteOutcome)
    {buffer : VectorizedBuffer} (stand : Bool) (inv : buffer.Inv)
    (has : buffer.hasToWrite = true) :
    (sendVectorized err outcome buffer stand).Keeps buffer ↔ ¬ WouldBlock outcome := by
  constructor
  · intro keeps blocks
    obtain ⟨_, wire, pending⟩ := sendVectorized_wouldBlock err stand inv has blocks
    have some := List.length_pos_of_ne_nil (inv.hasToWrite_iff.1 has)
    have lengths := congrArg List.length keeps
    rw [wire, pending, List.nil_append, List.length_drop] at lengths
    simp only [sizeMax] at lengths
    omega
  · intro ready
    exact (sendVectorized_keeps err stand inv has ready).2

/-- After `send_vectorized`, `__send_internal__` changes the code and may compact. -/
lemma sendInternal_cases (err : ErrorCode) {env : Env} {buffer : VectorizedBuffer}
    (valid : env.socketValid = true) (has : buffer.hasToWrite = true) :
    let sent := sendInternal err env buffer
    let write := sendVectorized (env.enableWritable true err) env.outcome buffer
    sent.wire = write.wire ∧ (sent.buffer = write.buffer ∨ sent.buffer = write.buffer.compact) := by
  unfold sendInternal
  simp only [valid, has, Bool.not_true, Bool.false_eq_true, if_false]
  generalize sendVectorized (env.enableWritable true err) env.outcome buffer = write
  split
  · exact ⟨rfl, .inl rfl⟩
  · exact ⟨rfl, .inl rfl⟩
  · exact ⟨rfl, .inl rfl⟩
  · exact ⟨rfl, .inr rfl⟩
  · split
    · exact ⟨rfl, .inr rfl⟩
    · exact ⟨rfl, .inl rfl⟩

/-- A send keeps the buffer in order, and what it wrote comes first of what was pending. -/
lemma sendInternal_spec (err : ErrorCode) (env : Env) {buffer : VectorizedBuffer}
    (inv : buffer.Inv) :
    let sent := sendInternal err env buffer
    sent.buffer.Inv ∧ (sent.Keeps buffer ↔
      (env.socketValid = true ∧ buffer.hasToWrite = true → ¬ WouldBlock env.outcome)) := by
  by_cases writes : env.socketValid = true ∧ buffer.hasToWrite = true
  · obtain ⟨wire, same⟩ := sendInternal_cases err writes.1 writes.2
    have exact_write :=
      sendVectorized_keeps_iff (env.enableWritable true err) env.outcome false inv writes.2
    have inv' : (sendVectorized (env.enableWritable true err) env.outcome buffer).buffer.Inv := by
      by_cases blocks : WouldBlock env.outcome
      · exact (sendVectorized_wouldBlock _ _ inv writes.2 blocks).1
      · exact (sendVectorized_keeps _ _ inv writes.2 blocks).1
    have pending : (sendInternal err env buffer).buffer.pending =
        (sendVectorized (env.enableWritable true err) env.outcome buffer).buffer.pending := by
      rcases same with e | e
      · rw [e]
      · rw [e, inv'.compact.2]
    refine ⟨?_, ?_⟩
    · rcases same with e | e
      · rw [e]; exact inv'
      · rw [e]; exact inv'.compact.1
    · unfold Sent.Keeps at exact_write ⊢
      rw [wire, pending, exact_write]
      exact ⟨fun ready _ => ready, fun ready => ready writes⟩
  · have idle : (sendInternal err env buffer).buffer = buffer ∧
        (sendInternal err env buffer).wire = [] := by
      unfold sendInternal
      cases valid : env.socketValid with
      | false => exact ⟨rfl, rfl⟩
      | true =>
        cases has : buffer.hasToWrite with
        | false => exact ⟨rfl, rfl⟩
        | true => exact absurd ⟨valid, has⟩ writes
    refine ⟨by rw [idle.1]; exact inv, ?_⟩
    unfold Sent.Keeps
    rw [idle.1, idle.2]
    exact ⟨fun _ w => absurd w writes, fun _ => rfl⟩

/-! ## Runs -/

/-- A call of the sender -/
inductive Call where
  | send (err : ErrorCode) (env : Env) (values : List Serializer)
  | sendRest (err : ErrorCode) (env : Env)

/-- The send buffer of a connection, what the socket took, and the concatenation of the messages
    whose serialization succeeded. -/
structure Ledger where
  buffer : VectorizedBuffer := {}
  accepted : List Byte := []
  serialized : List Byte := []

namespace Ledger

/-- The bytes that a call serializes, none of them if it fails. -/
def message : Call → List Byte
  | .send _ _ values =>
    match serializeAll values [] with
    | (.none, buffer) => buffer
    | _ => []
  | .sendRest _ _ => []

/-- What a call returns -/
def perform (l : Ledger) : Call → Sent
  | .send err env values => (Network.send err env values l.buffer).1
  | .sendRest err env => Network.sendRest err env l.buffer

/-- A call, with what it wrote and serialized -/
def step (l : Ledger) (call : Call) : Ledger :=
  let sent := l.perform call
  { buffer := sent.buffer
    accepted := l.accepted ++ sent.wire
    serialized := l.serialized ++ message call }

/-- The environment of a call. -/
def env : Call → Env
  | .send _ env _ | .sendRest _ env => env

/-- The call reaches `writev`: it did not fail before, and there is something to write. -/
def Writes (l : Ledger) : Call → Prop
  | .send _ env values => env.socketValid = true ∧ (serializeAll values []).1 = .none ∧
      (l.buffer.pushBuffer (serializeAll values []).2).hasToWrite = true
  | .sendRest _ env => env.socketValid = true ∧ l.buffer.hasToWrite = true

/-- A call that reaches `writev` is not told to try later. -/
def Ready (l : Ledger) (call : Call) : Prop :=
  l.Writes call → ¬ WouldBlock (env call).outcome

/-- A call keeps every byte exactly if it is ready. -/
lemma perform_spec {l : Ledger} (inv : l.buffer.Inv) (call : Call) :
    (l.perform call).buffer.Inv ∧
      ((l.perform call).wire ++ (l.perform call).buffer.pending =
        l.buffer.pending ++ message call ↔ l.Ready call) := by
  cases call with
  | send err env values =>
    cases e : serializeAll values [] with
    | mk code buffer =>
      by_cases done : code = .none
      · subst done
        have performed : l.perform (.send err env values) =
            sendInternal err env (l.buffer.pushBuffer buffer) := by
          simp [perform, send, VectorizedBuffer.serialize, e]
        have text : message (.send err env values) = buffer := by simp [message, e]
        have pushed := inv.pushBuffer buffer
        obtain ⟨inv', keeps⟩ := sendInternal_spec err env pushed
        rw [performed, text, ← inv.pending_pushBuffer buffer]
        refine ⟨inv', keeps.trans ?_⟩
        simp [Ready, Writes, Ledger.env, e]
      -- what was encoded before the failure is taken back, so that the call has no message
      · have performed : l.perform (.send err env values) =
            { ret := -1, err := some .operationCanceled, buffer := l.buffer.compact } := by
          simp only [perform, send, VectorizedBuffer.serialize, e]
          rfl
        have text : message (.send err env values) = [] := by
          simp only [message, e]
          split <;> simp_all
        rw [performed, text]
        refine ⟨inv.compact.1, ?_⟩
        simp [Ready, Writes, e, done, inv.compact.2]
  | sendRest err env =>
    rw [show message (.sendRest err env) = [] from rfl, List.append_nil]
    cases has : l.buffer.hasToWrite with
    | true =>
      obtain ⟨inv', keeps⟩ := sendInternal_spec err env inv
      have performed : l.perform (.sendRest err env) = sendInternal err env l.buffer := by
        simp [perform, sendRest, has]
      rw [performed]
      exact ⟨inv', keeps⟩
    | false =>
      have performed : l.perform (.sendRest err env) = { ret := 0, err, buffer := l.buffer } := by
        simp [perform, sendRest, has]
      rw [performed]
      refine ⟨inv, ?_⟩
      simp [Ready, Writes, has]

end Ledger
end OsterLib.Network
