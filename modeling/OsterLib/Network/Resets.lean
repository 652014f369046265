import OsterLib.Network.Send
import OsterLib.Network.Twins

/-!
# What survives a reset

A `ConnectionIO` keeps unfinished business in three objects: the send buffer, the receive ring, and the serializer with
its spans into the ring. Three events are to clear it: a send that fails for good, `clear_buffers`, and a receive that
finds a bad message. Only the last one does. `clear_send_buffer` and `clear_buffers` remove what is written already and
leave what is pending, and `clear_buffers` does not reset the serializer.

What is left behind by a reset is told by the state (`Renews`), and where nothing is left, the calls that follow return
what they return where nothing was sent or received before (`Unaffected`), as long as none of them decodes an empty
ring.
-/

namespace OsterLib.Network
open OsterLib.Lib OsterLib.Serialization

/-- `ConnectionIO` -/
structure ConnectionIO where
  sendBuffer : VectorizedBuffer := {}
  receiver : Receiver

/-- Destinations of `receive`. -/
abbrev Destinations := {values : List Item // ∀ value ∈ values, Nonempty (Shape value.1)}

/-- A call of the connection -/
inductive ConnectionCall where
  | send (call : Call)
  | receive (env : ReceiveEnv) (values : Destinations)
  | clearBuffers

/-- What a call returns, writes to the socket and hands to its callback. -/
inductive Returned where
  | sent (ret : Int) (err : ErrorCode) (wire : List Byte) (message : Option (List Byte))
  | received (ret : Int) (err : ErrorCode) (values : List Item)
  | cleared
  | terminated (fault : Fault)

/-- What is to be cleared. -/
inductive Part where
  | sending
  | receiving

/-- What ends with a reset: a send that failed for good, `clear_buffers`, or a receive with `bad_message` -/
inductive Reset where
  | sendFailed
  | cleared
  | badMessage

/-- `send` and `send_rest` -/
def Call.perform (call : Call) (buffer : VectorizedBuffer) : Sent × Option (List Byte) :=
  match call with
  | .send err env values => Network.send err env values buffer
  | .sendRest err env => (Network.sendRest err env buffer, none)

namespace ConnectionIO

/-- `ConnectionIO(capacity)` -/
def constructed (capacity : ℕ) : ConnectionIO := { receiver := { recvBuffer := .ofCapacity capacity } }

/-- `clear_buffers` -/
def clearBuffers (c : ConnectionIO) : ConnectionIO where
  sendBuffer := c.sendBuffer.compact
  receiver := { c.receiver with recvBuffer := c.receiver.recvBuffer.clear }

/-- There is no connection behind a fault, which ends the program. -/
def act (f : Format) : Option ConnectionIO → ConnectionCall → Option Returned × Option ConnectionIO
  | none, _ => (none, none)
  | some c, .send call =>
    let (sent, message) := call.perform c.sendBuffer
    (some (.sent sent.ret sent.err sent.wire message), some { c with sendBuffer := sent.buffer })
  | some c, .receive env values =>
    match Network.receive f env values.1 c.receiver with
    | .ok received =>
      (some (.received received.ret received.err received.values), some { c with receiver := received.connection })
    | .error fault => (some (.terminated fault), none)
  | some c, .clearBuffers => (some .cleared, some c.clearBuffers)

/-- The connection behind a call -/
def step (f : Format) (c : Option ConnectionIO) (call : ConnectionCall) : Option ConnectionIO := (act f c call).2

/-! ## Resets -/

/-- The message of the call was serialized. -/
def Serialized : Call → Prop
  | .send _ _ values => (serializeAll values []).1 = .none
  | .sendRest _ _ => True

/-- A call ends with a reset: a send with the result of a fatal socket error, a receive with `bad_message`. -/
def Ends (f : Format) (c : ConnectionIO) : ConnectionCall → Reset → Prop
  | .send call, .sendFailed => Serialized call ∧ (call.perform c.sendBuffer).1.ret = -1
  | .clearBuffers, .cleared => True
  | .receive env values, .badMessage =>
    ∃ received, Network.receive f env values.1 c.receiver = .ok received ∧ received.ret = -1 ∧
      received.err = some .badMessage
  | _, _ => False

/-- No cell is pushed, nothing is registered and no byte is to be passed over. The counts only matter by their
    differences, and `iterator` is set by the next push. -/
def AsNew (s : StreamSerializer Nat) : Prop :=
  s.mbv = {} ∧ s.registered = (fun _ => []) ∧ s.begin = s.end_ ∧ s.level = 0

/-- Nothing is left in a part. -/
def Clean (c : ConnectionIO) : Part → Prop
  | .sending => c.sendBuffer.hasToWrite = false
  | .receiving => c.receiver.recvBuffer.empty = true ∧ AsNew c.receiver.serializer

/-- The connection with nothing in some parts: no message, no byte in the cells of the ring, and a new serializer. -/
def renewed (parts : Part → Bool) (c : ConnectionIO) : ConnectionIO where
  sendBuffer := if parts .sending then {} else c.sendBuffer
  receiver :=
    if parts .receiving then
      let cells := List.replicate c.receiver.recvBuffer.capacity 0
      { recvBuffer := { c.receiver.recvBuffer with buffer := cells } }
    else c.receiver

/-- A later receive does not decode an empty ring. -/
def ReadsNew : Option ConnectionIO → ConnectionCall → Prop
  | some c, .receive env _ => c.receiver.ReadsNew env
  | _, _ => True

/-- The codes that end a send. -/
def fatal : ErrorCode → Bool
  | none | some .resourceUnavailableTryAgain | some .operationInProgress | some .noBufferSpace => false
  | some _ => true

/-- The write fails for good. One that takes no byte ends with the code of `enable_writable`. -/
def Refuses (err : ErrorCode) (env : Env) : Prop :=
  match env.outcome with
  | .failed errno => fatal (some errno) = true
  | .accepted 0 => fatal (env.enableWritable true err) = true
  | .accepted _ => False

/-- The send buffer that a call offers to the socket. -/
def offered (call : Call) (buffer : VectorizedBuffer) : VectorizedBuffer :=
  match call with
  | .send _ _ values => buffer.pushBuffer (serializeAll values []).2
  | .sendRest _ _ => buffer

/-- There is no socket, or what there is to write is refused for good. -/
def WriteFails (err : ErrorCode) (env : Env) (buffer : VectorizedBuffer) : Prop :=
  env.socketValid = false ∨ buffer.hasToWrite = true ∧ Refuses err env

/-- A send fails for good. `send_rest` only looks at the socket if there is something to write. -/
def SendFails (buffer : VectorizedBuffer) (call : Call) : Prop :=
  match call with
  | .send err env _ => Serialized call ∧ WriteFails err env (offered call buffer)
  | .sendRest err env => buffer.hasToWrite = true ∧ WriteFails err env buffer

/-- The `readv` of a receive fails with `bad_message` itself. -/
def ReadFails (c : Receiver) (env : ReceiveEnv) : Prop :=
  env.socketValid = true ∧ c.freeSpace ≠ 0 ∧ env.outcome = .failed .badMessage

/-- Where a send fails for good there is nothing to write, and where the buffers are cleared there is nothing in them
    but unread bytes. -/
def Provided (f : Format) (asked : Reset → Part → Bool) : Option ConnectionIO → ConnectionCall → Prop
  | none, _ => True
  | some c, .send call =>
    SendFails c.sendBuffer call →
      (asked .sendFailed .sending = true → (offered call c.sendBuffer).hasToWrite = false) ∧
        (asked .sendFailed .receiving = true → c.Clean .receiving)
  | some c, .receive env values =>
    (asked .badMessage .receiving = true → ReadFails c.receiver env → c.Clean .receiving) ∧
      (asked .badMessage .sending = true → Ends f c (.receive env values) .badMessage → c.Clean .sending)
  | some c, .clearBuffers =>
    (asked .cleared .sending = true → c.Clean .sending) ∧
      (asked .cleared .receiving = true → AsNew c.receiver.serializer)

/-- What the calls keep. -/
structure Sound (c : ConnectionIO) : Prop where
  inv : c.sendBuffer.Inv
  active : c.sendBuffer.active = 0
  receiver : c.receiver.Sound

end ConnectionIO

/-! ## Sends -/

namespace VectorizedBuffer

/-- Compacting moves the active part to the front. -/
@[simp] lemma compact_active (buffer : VectorizedBuffer) : buffer.compact.active = 0 := by
  rw [compact]
  split
  · rfl
  · omega

/-- A push leaves the active part. -/
@[simp] lemma pushBuffer_active (buffer : VectorizedBuffer) (range : List Byte) :
    (buffer.pushBuffer range).active = buffer.active := by
  rw [pushBuffer]
  split <;> rfl

end VectorizedBuffer

section sends
open ConnectionIO
variable {buffer : VectorizedBuffer}

/-- A write leaves the first part active. -/
lemma sendVectorized_active (err : ErrorCode) (outcome : WriteOutcome) (active : buffer.active = 0) :
    (sendVectorized err outcome buffer).buffer.active = 0 := by
  unfold sendVectorized
  split
  · exact active
  · split
    · split
      · exact VectorizedBuffer.compact_active _
      · exact VectorizedBuffer.compact_active _
      · exact active
    · dsimp only
      split
      · exact active
      · exact VectorizedBuffer.compact_active _

/-- A send leaves the first part active. -/
lemma sendInternal_active (err : ErrorCode) (env : Env) (active : buffer.active = 0) :
    (sendInternal err env buffer).buffer.active = 0 := by
  have written := sendVectorized_active (env.enableWritable true err) env.outcome active
  unfold sendInternal
  split
  · exact active
  · split
    · exact active
    · dsimp only
      generalize sendVectorized (env.enableWritable true err) env.outcome buffer = write at written
      split
      · exact written
      · exact written
      · exact written
      · exact VectorizedBuffer.compact_active _
      · split
        · exact VectorizedBuffer.compact_active _
        · exact written

/-- A call that sends keeps the buffer in order. -/
lemma perform_inv (inv : buffer.Inv) (active : buffer.active = 0) (call : Call) :
    (call.perform buffer).1.buffer.Inv ∧ (call.perform buffer).1.buffer.active = 0 := by
  have kept := (Ledger.perform_spec (l := { buffer }) inv call).1
  cases call with
  | send err env values =>
    refine ⟨kept, ?_⟩
    show (Network.send err env values buffer).1.buffer.active = 0
    rw [Network.send, VectorizedBuffer.serialize]
    obtain ⟨code, message⟩ := serializeAll values []
    cases code with
    | none => exact sendInternal_active err env ((VectorizedBuffer.pushBuffer_active _ _).trans active)
    | _ => exact VectorizedBuffer.compact_active _
  | sendRest err env =>
    refine ⟨kept, ?_⟩
    show (Network.sendRest err env buffer).buffer.active = 0
    rw [Network.sendRest]
    split
    · exact sendInternal_active err env active
    · exact active

end sends

/-! ## Receives -/

section receives
open ConnectionIO
variable {f : Format} {env : ReceiveEnv} {values : List Item} {c : Receiver} {received : Received}

/-- A cleared receiver has nothing in it. -/
lemma clearRecvBuffer_clean (sound : c.Sound) :
    c.clearRecvBuffer.recvBuffer.empty = true ∧ AsNew c.clearRecvBuffer.serializer :=
  ⟨rfl, rfl, rfl, rfl, sound.level⟩

/-- A read ends a receive with `bad_message` only where `readv` failed with it. -/
lemma recvInternal_badMessage (sound : c.Sound) (failed : (c.recvInternal env).1 = -1)
    (code : (c.recvInternal env).2.1 = some .badMessage) : ReadFails c env := by
  unfold Receiver.recvInternal at failed code
  cases valid : env.socketValid with
  | false =>
    rw [valid] at code
    cases code
  | true =>
    simp only [valid, Bool.not_true, Bool.false_eq_true, if_false] at failed code
    by_cases space : c.freeSpace = 0
    · rw [if_pos space] at failed
      cases failed
    · rw [if_neg space] at failed code
      have len := sound.inv.writeVectored_len
      have room : ¬ (c.recvBuffer.writeVectored.1.len = 0 ∧ c.recvBuffer.writeVectored.2.len = 0) := by
        rw [Receiver.freeSpace] at space
        omega
      unfold receiveToRingBuffer at failed code
      rw [if_neg room] at failed code
      refine ⟨valid, space, ?_⟩
      cases read : env.outcome with
      | failed errno =>
        rw [read] at failed code
        cases errno with
        | badMessage => rfl
        | resourceUnavailableTryAgain => cases failed
        | operationInProgress => cases failed
        | noBufferSpace => cases failed
        | _ => cases code
      | received bytes =>
        rw [read] at failed code
        cases bytes with
        | nil => cases code
        | cons byte bytes => cases code

/-- What a receive leaves is in order, and there is nothing left where it could not decode what it read. -/
lemma receive_spec (sound : c.Sound) (shapes : ∀ value ∈ values, Nonempty (Shape value.1))
    (run : Network.receive f env values c = .ok received) :
    received.connection.Sound ∧
      (received.ret = -1 → received.err = some .badMessage → ¬ ReadFails c env →
        received.connection.recvBuffer.empty = true ∧ AsNew received.connection.serializer) := by
  have kept := (sound.recvInternal env).1
  have fails := @recvInternal_badMessage env c sound
  rw [Network.receive] at run
  generalize c.recvInternal env = read at kept fails run
  obtain ⟨ret, err, c'⟩ := read
  by_cases failed : ret = -1
  · simp only [if_pos failed] at run
    cases run
    exact ⟨kept, fun _ code healthy => absurd (fails failed code) healthy⟩
  · simp only [if_neg failed] at run
    cases decode : c'.deserialize f values with
    | error fault =>
      rw [decode] at run
      cases run
    | ok outcome =>
      obtain ⟨code, decoded, d⟩ := outcome
      have sound' : d.Sound := kept.deserialize shapes decode
      rw [decode] at run
      cases code with
      | none =>
        cases run
        exact ⟨sound'.commitFlushed, fun ended => absurd ended failed⟩
      | bufferSizeLesser =>
        cases run
        exact ⟨sound'.commitFlushed, fun ended => absurd ended failed⟩
      | _ =>
        cases run
        exact ⟨sound'.clearRecvBuffer, fun _ _ _ => clearRecvBuffer_clean sound'⟩

end receives

/-! ## Runs -/

namespace ConnectionIO
variable {f : Format} {c d : ConnectionIO}

/-- Every call keeps a connection sound. -/
lemma Sound.step (sound : c.Sound) {call : ConnectionCall} (stepped : step f (some c) call = some d) : d.Sound := by
  cases call with
  | send call =>
    cases stepped
    obtain ⟨inv, active⟩ := perform_inv sound.inv sound.active call
    exact ⟨inv, active, sound.receiver⟩
  | receive env values =>
    rw [ ConnectionIO.step, act] at stepped
    cases run : Network.receive f env values.1 c.receiver with
    | error fault =>
      rw [run] at stepped
      cases stepped
    | ok received =>
      rw [run] at stepped
      cases stepped
      exact ⟨sound.inv, sound.active, (receive_spec sound.receiver values.2 run).1⟩
  | clearBuffers =>
    cases stepped
    have cleared := sound.receiver.clearRecvBuffer
    exact ⟨sound.inv.compact.1, VectorizedBuffer.compact_active _, cleared.inv, sound.receiver.valid,
      sound.receiver.level⟩

/-- A connection, and one that holds the same but in the cells that are not stored. -/
inductive Related : Option ConnectionIO → Option ConnectionIO → Prop
  | none : Related none none
  | some {c d : ConnectionIO} : c.sendBuffer = d.sendBuffer → c.receiver = d.receiver ∨ c.receiver.Twins d.receiver →
      d.Sound → Related (some c) (some d)

/-- Related connections return the same and stay related, as long as no empty ring is decoded. -/
lemma Related.act {o o' : Option ConnectionIO} (related : Related o o') {call : ConnectionCall}
    (news : ReadsNew o' call) : (act f o call).1 = (act f o' call).1 ∧ Related (act f o call).2 (act f o' call).2 := by
  cases related with
  | none => exact ⟨rfl, .none⟩
  | @some c d sending receiving sound =>
    obtain ⟨buffer, receiver⟩ := c
    obtain rfl : buffer = d.sendBuffer := sending
    cases call with
    | send call =>
      obtain ⟨inv, active⟩ := perform_inv sound.inv sound.active call
      exact ⟨rfl, .some rfl receiving ⟨inv, active, sound.receiver⟩⟩
    | clearBuffers =>
      have next : (d.clearBuffers).Sound := sound.step (f := f) (show ConnectionIO.step f _ .clearBuffers = _ from rfl)
      refine ⟨rfl, .some rfl ?_ next⟩
      rcases receiving with same | twins
      · obtain rfl : receiver = d.receiver := same
        exact .inl rfl
      · exact .inr ⟨twins.rings.clear, twins.mbv, twins.registered, twins.level, twins.counts, twins.holds⟩
    | receive env values =>
      rw [ ConnectionIO.act, ConnectionIO.act]
      have kept (received : Received) (run : Network.receive f env values.1 d.receiver = .ok received) :
          received.connection.Sound := (receive_spec sound.receiver values.2 run).1
      rcases receiving with same | twins
      · obtain rfl : receiver = d.receiver := same
        generalize Network.receive f env values.1 d.receiver = right at kept
        cases right with
        | error fault => exact ⟨rfl, .none⟩
        | ok received => exact ⟨rfl, .some rfl (.inl rfl) ⟨sound.inv, sound.active, kept _ rfl⟩⟩
      · have received := twins.receive sound.receiver f news values.2
        generalize Network.receive f env values.1 receiver = left at received
        generalize Network.receive f env values.1 d.receiver = right at kept received
        cases received with
        | error fault => exact ⟨rfl, .none⟩
        | ok ret err decoded twins =>
          exact ⟨rfl, .some rfl (.inr twins) ⟨sound.inv, sound.active, kept _ rfl⟩⟩

/-- What holds of a connection at every point of a run. -/
lemma run_sound {o : Option ConnectionIO} (sound : ∀ c : ConnectionIO, o = some c → c.Sound)
    (calls : List ConnectionCall) :
    ∀ c : ConnectionIO, run (step f) o calls = some c → c.Sound := by
  refine run_of_keep (P := fun o => ∀ c : ConnectionIO, o = some c → c.Sound) ?_ calls sound
  intro o call kept d stepped
  cases o with
  | none => cases stepped
  | some c => exact (kept c rfl).step stepped

/-- Behind a reset, renewing everything makes a new connection. -/
lemma clearBuffers_renewed (c : ConnectionIO) :
    c.clearBuffers.renewed (fun _ => true) = constructed c.receiver.recvBuffer.capacity := by
  rw [constructed, RingBuffer.ofCapacity, RingBuffer.setCapacity, List.take_nil, List.nil_append, List.length_nil,
    Nat.sub_zero]
  rfl

/-- A call that receives a byte. -/
def readByte (byte : Byte) : ConnectionCall :=
  .receive ⟨true, fun _ err => err, .received [byte]⟩
    ⟨[⟨.word 1, (0 : BitVec 8)⟩], fun _ mem => List.mem_singleton.1 mem ▸ ⟨.word 1⟩⟩

end ConnectionIO
end OsterLib.Network
