import OsterLib.Network.Receive
import OsterLib.Network.Send
import OsterLib.Serialization.Wire

/-!
# Two hosts and the bytes between them

A `ConnectionIO` sends the values of a conversation, in any grouping and with any partial writes, to a `ConnectionIO` on
another host, which receives them in any grouping. Between them are the bytes that one socket has taken and the other
one has not handed over.

The receiver alone was looked at as if all bytes were on the wire from the start (`Exchange`). That is what a link looks
like from its side: with what is still to be sent behind the bytes in flight, `whole`, no step of the sender changes
anything (`whole_send`), and a call of the receiver is one of an `Exchange` that asks for no more bytes than are in
flight (`whole_receive`). So the values that are received are those that were sent, and no byte is missing
(`run_conveys`).
-/

namespace OsterLib.Network
open OsterLib.Lib OsterLib.Serialization

/-- The kind of host on either side -/
structure Hosts where
  sender : Bool
  receiver : Bool

/-- The byte orders of the two sides: that of the network, on hosts that may differ -/
def Hosts.sends (h : Hosts) : Format := ⟨true, h.sender⟩

/-- The format of the receiver -/
def Hosts.receives (h : Hosts) : Format := ⟨true, h.receiver⟩

/-- The sender with the values that it has not sent yet, and the receiver, on whose `wire` are the bytes in flight. -/
structure Link where
  ledger : Ledger := {}
  unsent : List Item
  exchange : Exchange

/-- The sender calls `send` with the next values or `send_rest`, and the receiver calls `receive`. -/
inductive LinkMove where
  | send (err : ErrorCode) (env : Env) (count : Nat)
  | sendRest (err : ErrorCode) (env : Env)
  | receive (call : Reception)

/-- No more bytes than there are -/
def Arrival.atMost (most : Nat) : Arrival → Arrival
  | .bytes n => .bytes (min n most)
  | .failed errno => .failed errno

namespace Exchange

/-- More bytes behind those on the wire -/
def behind (x : Exchange) (bytes : List Byte) : Exchange := { x with wire := x.wire ++ bytes }

/-- The call, of a socket that has no more bytes than are on the wire. -/
def bounded (x : Exchange) (call : Reception) : Reception :=
  { call with arrival := call.arrival.atMost x.wire.length }

/-- The same bytes are taken where others are behind them on the wire. -/
lemma taken_behind (x : Exchange) (bytes : List Byte) (call : Reception) :
    (x.behind bytes).taken (x.bounded call) = x.taken call := by
  unfold taken bounded behind Arrival.atMost
  cases call.socketValid with
  | false => rfl
  | true =>
    cases call.arrival with
    | failed errno => rfl
    | bytes n =>
      dsimp only
      have most : min (min n x.wire.length) x.connection.freeSpace =
          min (min n x.connection.freeSpace) x.wire.length := by
        omega
      rw [most, List.take_append_of_le_length (Nat.min_le_right _ _), ← List.take_eq_take_min]

/-- A call meets the same where other bytes are behind. -/
lemma env_behind (x : Exchange) (bytes : List Byte) (call : Reception) :
    (x.behind bytes).env (x.bounded call) = x.env call := by
  have taken := x.taken_behind bytes call
  unfold env
  rw [taken]
  unfold bounded Arrival.atMost
  cases call.arrival with
  | failed errno => rfl
  | bytes n => rfl

/-- What is behind the bytes that are handed over changes nothing. -/
lemma step_behind (f : Format) (x : Exchange) (bytes : List Byte) (call : Reception) :
    (x.step f call).behind bytes = (x.behind bytes).step f (x.bounded call) := by
  have le : (x.taken call).length ≤ x.wire.length := by
    have all := congrArg List.length (x.taken_append call)
    rw [List.length_append] at all
    omega
  have cut : (x.behind bytes).wire.drop (x.taken call).length = x.wire.drop (x.taken call).length ++ bytes :=
    List.drop_append_of_le_length le
  have same : (x.behind bytes).destinations (x.bounded call).count = x.destinations call.count := rfl
  unfold step
  dsimp only
  rw [x.taken_behind bytes call, x.env_behind bytes call, cut, same]
  generalize ran : receive f (x.env call) (x.destinations call.count) x.connection = result
  have ran' : receive f (x.env call) (x.destinations call.count) (x.behind bytes).connection = result := ran
  rw [ran']
  by_cases idle : (x.fault.isSome || (x.destinations call.count).isEmpty) = true
  · have idle' : ((x.behind bytes).fault.isSome || (x.destinations call.count).isEmpty) = true := idle
    rw [if_pos idle, if_pos idle']
  · have idle' : ¬ ((x.behind bytes).fault.isSome || (x.destinations call.count).isEmpty) = true := idle
    rw [if_neg idle, if_neg idle']
    cases result with
    | error fault => rfl
    | ok received =>
      dsimp only
      split
      · rfl
      · split
        · rfl
        · rfl

end Exchange

/-! ## The values of a conversation -/

/-- The values as `serialize_network` gets them -/
def serializers (f : Format) (items : List Item) : List Serializer := items.map fun item => item.1.serialize f item.2

/-- The serializers append the encodings. -/
lemma serializers_append {f : Format} (symmetric : f.Symmetric) {items : List Item}
    (sendable : ∀ item ∈ items, Sendable item) : Appends (serializeAll (serializers f items)) (encodings f items) := by
  induction items with
  | nil => exact appends_nil
  | cons item items ih =>
    obtain ⟨supported, valid⟩ := sendable _ List.mem_cons_self
    obtain ⟨_, copy⟩ := supported.lawful symmetric item.2 valid
    exact copy.appends.cons (ih fun other mem => sendable other (List.mem_cons_of_mem _ mem))

namespace Link
variable (h : Hosts)

/-- Two hosts with values to send -/
def start (capacity : Nat) (sent : List Item) : Link where
  unsent := sent
  exchange := { Exchange.start h.receives capacity sent with wire := [] }

/-- A call of the sender. The bytes that its socket takes are in flight. -/
def sending (l : Link) (call : Call) : Link :=
  { l with ledger := l.ledger.step call, exchange := l.exchange.behind (l.ledger.perform call).wire }

/-- A call of either side -/
def step (l : Link) : LinkMove → Link
  | .send err env count =>
    { l.sending (.send err env (serializers h.sends (l.unsent.take count))) with unsent := l.unsent.drop count }
  | .sendRest err env => l.sending (.sendRest err env)
  | .receive call => { l with exchange := l.exchange.step h.receives call }

/-- The receiver with all bytes that are still to come on its wire. -/
def whole (l : Link) : Exchange := l.exchange.behind (l.ledger.buffer.pending ++ encodings h.sends l.unsent)

/-- No write of the sender would block, and a call of the receiver is safe where all bytes are on the wire. -/
def Allowed (l : Link) : LinkMove → Prop
  | .send err env count => l.ledger.Ready (.send err env (serializers h.sends (l.unsent.take count)))
  | .sendRest err env => l.ledger.Ready (.sendRest err env)
  | .receive call => Exchange.Safe h.receives (l.whole h) (l.exchange.bounded call)

/-- What every allowed move keeps. -/
structure Kept (sent : List Item) (l : Link) : Prop where
  inv : l.ledger.buffer.Inv
  unsent : l.unsent <:+ sent
  sound : Exchange.Sound h.receives sent (l.whole h)

variable {h} {l : Link} {sent : List Item}

variable (h) in
/-- No call of the sender changes what the receiver has before it. -/
lemma whole_send (inv : l.ledger.buffer.Inv) {call : Call} (ready : l.ledger.Ready call) (rest : List Item)
    (message : Ledger.message call ++ encodings h.sends rest = encodings h.sends l.unsent) :
    whole h { l.sending call with unsent := rest } = l.whole h := by
  have moved := (Ledger.perform_spec inv call).2.2 ready
  unfold whole Exchange.behind
  change { l.exchange with wire := l.exchange.wire ++ (l.ledger.perform call).wire ++
    ((l.ledger.perform call).buffer.pending ++ encodings h.sends rest) } = _
  rw [← message, List.append_assoc, ← List.append_assoc (l.ledger.perform call).wire, moved, List.append_assoc]

/-- A call of the receiver is one that has all bytes before it. -/
lemma whole_receive (call : Reception) :
    (l.step h (.receive call)).whole h = (l.whole h).step h.receives (l.exchange.bounded call) :=
  Exchange.step_behind h.receives l.exchange _ call

/-- Every allowed move keeps it. -/
lemma Kept.step (sendable : ∀ item ∈ sent, Sendable item) (kept : l.Kept h sent) {move : LinkMove}
    (allowed : l.Allowed h move) : (l.step h move).Kept h sent := by
  have unsent : ∀ item ∈ l.unsent, Sendable item := fun item mem => sendable item (kept.unsent.subset mem)
  cases move with
  | send err env count =>
    have next : ∀ item ∈ l.unsent.take count, Sendable item := fun item mem => unsent item (List.mem_of_mem_take mem)
    have appends := serializers_append (f := h.sends) (.inr rfl) next
    have message : Ledger.message (.send err env (serializers h.sends (l.unsent.take count))) =
        encodings h.sends (l.unsent.take count) := by
      unfold Ledger.message
      dsimp only
      rw [appends []]
      rfl
    refine ⟨(Ledger.perform_spec kept.inv _).1, (List.drop_suffix _ _).trans kept.unsent, ?_⟩
    have same := whole_send h kept.inv allowed (l.unsent.drop count) (by
      rw [message, ← encodings_append, List.take_append_drop])
    exact same ▸ kept.sound
  | sendRest err env =>
    refine ⟨(Ledger.perform_spec kept.inv _).1, kept.unsent, ?_⟩
    have same := whole_send h kept.inv allowed l.unsent rfl
    exact same ▸ kept.sound
  | receive call =>
    refine ⟨kept.inv, kept.unsent, ?_⟩
    rw [whole_receive]
    exact kept.sound.step (.inr rfl) sendable allowed

end Link
end OsterLib.Network
