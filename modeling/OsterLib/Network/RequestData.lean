import OsterLib.Serialization.SerialType
import OsterLib.Lib.Run

/-!
# The byte counters of a request

`Command<CommandType::RequestData>` holds the frame it sends, the frame it expects back, and how many bytes of either
went through. The frames are shared: a reply is decoded into `to_receive_` while its bytes are counted, so that the
encoded sizes the counts are compared with change between the calls.

The counters do what they are for in a run exactly if every call is `Provided` for: `all_received` measures the reply
with the frame that was sent, and `reset_sent` and `reset_received` only report the count they are to clear.
-/

namespace OsterLib.Network
open Lib Serialization

/-- The template arguments of `Frame`. -/
structure FrameArgs where
  start : SerialType
  data : SerialType
  finish : SerialType

/-- `Frame`, by the `DataFrame` it holds. -/
structure Frame (t : FrameArgs) where
  start : t.start.Val
  data : t.data.Val
  finish : t.finish.Val

/-- The encoded size of a frame. -/
def Frame.serialSize {t : FrameArgs} (frame : Frame t) : UInt64 :=
  t.start.serialSize frame.start + (t.data.serialSize frame.data + t.finish.serialSize frame.finish)

/-- `Min_serial_size<AbstractFrame>`, whatever frame the reference is bound to. -/
def AbstractFrame.minSerialSize : UInt64 := 0

/-- `RequestData`: the frame to send, the one to receive, and how many bytes of each there were -/
structure RequestData (sends receives : FrameArgs) where
  toSend : Frame sends
  toReceive : Frame receives
  bytesSent_ : UInt64 := 0
  bytesRecv_ : UInt64 := 0

namespace RequestData
variable {sends receives : FrameArgs}

/-- `reset_sent`, which resets nothing -/
def resetSent (c : RequestData sends receives) (reset : Bool) : UInt64 × RequestData sends receives :=
  if reset then
    let result := c.bytesSent_
    (result, c)
  else (c.bytesSent_, c)

/-- `reset_received`, which resets nothing -/
def resetReceived (c : RequestData sends receives) (reset : Bool) : UInt64 × RequestData sends receives :=
  if reset then
    let result := c.bytesRecv_
    (result, c)
  else (c.bytesRecv_, c)

/-- `bytes_sent` -/
def bytesSent (c : RequestData sends receives) (sent : UInt64) : UInt64 × RequestData sends receives :=
  let count := c.bytesSent_ + sent
  (count, { c with bytesSent_ := count })

/-- `bytes_received` -/
def bytesReceived (c : RequestData sends receives) (received : UInt64) : UInt64 × RequestData sends receives :=
  let count := c.bytesRecv_ + received
  (count, { c with bytesRecv_ := count })

/-- `all_sent` -/
def allSent (c : RequestData sends receives) (reset : Bool) : Bool × RequestData sends receives :=
  if c.toSend.serialSize ≤ c.bytesSent_ then
    (true, if reset then { c with bytesSent_ := 0 } else c)
  else (false, c)

/-- `all_received`, which looks at the frame that was sent -/
def allReceived (c : RequestData sends receives) (reset : Bool) : Bool × RequestData sends receives :=
  -- the frame that was sent
  if AbstractFrame.minSerialSize ≤ c.bytesRecv_ ∧ c.bytesRecv_ = c.toSend.serialSize then
    (true, if reset then { c with bytesRecv_ := 0 } else c)
  else (false, c)

/-! ## Runs -/

/-- A call on the command, or a write through one of the pointers `sent` and `received` hand out. -/
inductive Call (sends receives : FrameArgs) where
  | bytesSent (sent : UInt64)
  | bytesReceived (received : UInt64)
  | resetSent (reset : Bool)
  | resetReceived (reset : Bool)
  | allSent (reset : Bool)
  | allReceived (reset : Bool)
  | toSend (frame : Frame sends)
  | toReceive (frame : Frame receives)

/-- A command, with the bytes that were counted since the last reset of either count. -/
structure Account (sends receives : FrameArgs) where
  command : RequestData sends receives
  sent : ℕ := 0
  received : ℕ := 0

namespace Account

/-- A count is restarted by a reset with `true`, and by an `all_sent` or `all_received` with `true` that returns
    `true`. -/
def step (a : Account sends receives) : Call sends receives → Account sends receives
  | .bytesSent sent => { a with command := (a.command.bytesSent sent).2, sent := a.sent + sent.toNat }
  | .bytesReceived received =>
    { a with command := (a.command.bytesReceived received).2, received := a.received + received.toNat }
  | .resetSent reset =>
    { a with command := (a.command.resetSent reset).2, sent := if reset then 0 else a.sent }
  | .resetReceived reset =>
    { a with command := (a.command.resetReceived reset).2, received := if reset then 0 else a.received }
  | .allSent reset =>
    let (all, command) := a.command.allSent reset
    { a with command, sent := if all && reset then 0 else a.sent }
  | .allReceived reset =>
    let (all, command) := a.command.allReceived reset
    { a with command, received := if all && reset then 0 else a.received }
  | .toSend frame => { a with command := { a.command with toSend := frame } }
  | .toReceive frame => { a with command := { a.command with toReceive := frame } }

/-- The counters hold what was counted since the last reset. -/
structure Counted (a : Account sends receives) : Prop where
  sent : a.command.bytesSent_.toNat = a.sent
  received : a.command.bytesRecv_.toNat = a.received

/-- The answer of the two questions is right. -/
def Answered (a : Account sends receives) : Call sends receives → Prop
  | .allSent reset => (a.command.allSent reset).1 = true ↔ a.command.toSend.serialSize.toNat ≤ a.sent
  | .allReceived reset => (a.command.allReceived reset).1 = true ↔ a.received = a.command.toReceive.serialSize.toNat
  | _ => True

/-- The call answers right, and leaves the counters right. -/
def Accounts (a : Account sends receives) (call : Call sends receives) : Prop :=
  a.Answered call ∧ (a.step call).Counted

/-- Counts stay below `2 ^ 64`, a count that is reset is zero already, and a reply is asked about while the frames are
    of one size or the count is the size of neither. -/
def Provided (a : Account sends receives) : Call sends receives → Prop
  | .bytesSent sent => a.command.bytesSent_.toNat + sent.toNat < 2 ^ 64
  | .bytesReceived received => a.command.bytesRecv_.toNat + received.toNat < 2 ^ 64
  | .resetSent reset => reset = false ∨ a.command.bytesSent_ = 0
  | .resetReceived reset => reset = false ∨ a.command.bytesRecv_ = 0
  | .allReceived _ =>
    a.command.toSend.serialSize = a.command.toReceive.serialSize ∨
      a.command.bytesRecv_ ≠ a.command.toSend.serialSize ∧ a.command.bytesRecv_ ≠ a.command.toReceive.serialSize
  | _ => True

/-- A counter follows an addition exactly if it does not wrap. -/
lemma add_toNat_iff (count n : UInt64) :
    (count + n).toNat = count.toNat + n.toNat ↔ count.toNat + n.toNat < 2 ^ 64 := by
  rw [UInt64.toNat_add]
  have below : (count.toNat + n.toNat) % 2 ^ 64 < 2 ^ 64 := Nat.mod_lt _ (Nat.two_pow_pos 64)
  constructor
  · intro same
    omega
  · exact Nat.mod_eq_of_lt

/-- A counter that is left as it is holds the restarted count exactly if it was not to be restarted or was zero. -/
lemma restart_iff (count : UInt64) (reset : Bool) :
    count.toNat = (if reset then 0 else count.toNat) ↔ reset = false ∨ count = 0 := by
  cases reset with
  | false => exact ⟨fun _ => .inl rfl, fun _ => rfl⟩
  | true =>
    constructor
    · intro zero
      exact .inr (UInt64.toNat_inj.1 zero)
    · rintro (no | rfl)
      · cases no
      · rfl

/-- Resetting what was sent changes nothing. -/
lemma resetSent_snd (c : RequestData sends receives) (reset : Bool) : (c.resetSent reset).2 = c := by
  cases reset <;> rfl

/-- Resetting what was received changes nothing. -/
lemma resetReceived_snd (c : RequestData sends receives) (reset : Bool) : (c.resetReceived reset).2 = c := by
  cases reset <;> rfl

/-- All is sent if as many bytes were sent as the frame has. -/
lemma allSent_fst (c : RequestData sends receives) (reset : Bool) :
    (c.allSent reset).1 = true ↔ c.toSend.serialSize.toNat ≤ c.bytesSent_.toNat := by
  rw [allSent, ← UInt64.le_iff_toNat_le]
  split <;> simp_all

/-- `all_received` compares with the frame that is sent. -/
lemma allReceived_fst (c : RequestData sends receives) (reset : Bool) :
    (c.allReceived reset).1 = true ↔ c.bytesRecv_ = c.toSend.serialSize := by
  have least : AbstractFrame.minSerialSize ≤ c.bytesRecv_ := UInt64.le_iff_toNat_le.2 (Nat.zero_le _)
  rw [allReceived]
  split <;> simp_all

/-- The count of what was sent is reset where all was and that is asked for. -/
lemma allSent_counts (c : RequestData sends receives) (reset : Bool) :
    (c.allSent reset).2.bytesSent_ = (if (c.allSent reset).1 && reset then 0 else c.bytesSent_) ∧
      (c.allSent reset).2.bytesRecv_ = c.bytesRecv_ := by
  rw [allSent]
  split <;> cases reset <;> exact ⟨rfl, rfl⟩

/-- The count of what was received is reset where all was and that is asked for. -/
lemma allReceived_counts (c : RequestData sends receives) (reset : Bool) :
    (c.allReceived reset).2.bytesSent_ = c.bytesSent_ ∧
      (c.allReceived reset).2.bytesRecv_ = (if (c.allReceived reset).1 && reset then 0 else c.bytesRecv_) := by
  rw [allReceived]
  split <;> cases reset <;> exact ⟨rfl, rfl⟩

/-- What a true question with `true` restarts, the counter and the count, is the same. -/
lemma restarted (b : Bool) {count : UInt64} {n : ℕ} (same : count.toNat = n) :
    (if b then 0 else count).toNat = if b then 0 else n := by
  cases b with
  | false => exact same
  | true => rfl

variable {a : Account sends receives}

/-- `all_sent` needs nothing. -/
lemma accounts_allSent (counted : a.Counted) (reset : Bool) : a.Accounts (.allSent reset) := by
  obtain ⟨sent, received⟩ := allSent_counts a.command reset
  refine ⟨?_, ?_, ?_⟩
  · rw [Answered, ← counted.sent]
    exact allSent_fst a.command reset
  · exact (congrArg UInt64.toNat sent).trans (restarted _ counted.sent)
  · exact (congrArg UInt64.toNat received).trans counted.received

/-- `all_received` is right when both frames would give the same answer. -/
lemma accounts_allReceived_iff (counted : a.Counted) (reset : Bool) :
    a.Accounts (.allReceived reset) ↔ a.Provided (.allReceived reset) := by
  obtain ⟨sent, received⟩ := allReceived_counts a.command reset
  have next : (a.step (.allReceived reset)).Counted :=
    ⟨(congrArg UInt64.toNat sent).trans counted.sent,
      (congrArg UInt64.toNat received).trans (restarted _ counted.received)⟩
  rw [Accounts, Answered, Provided, allReceived_fst, ← counted.received, UInt64.toNat_inj]
  constructor
  · rintro ⟨answer, -⟩
    by_cases same : a.command.toSend.serialSize = a.command.toReceive.serialSize
    · exact .inl same
    · refine .inr ⟨fun sends => same ?_, fun receives => same ?_⟩
      · exact sends.symm.trans (answer.1 sends)
      · exact (answer.2 receives).symm.trans receives
  · rintro (same | ⟨sends, receives⟩)
    · exact ⟨by rw [same], next⟩
    · exact ⟨⟨fun reached => absurd reached sends, fun reached => absurd reached receives⟩, next⟩

/-- From counters that are right, a call is accounted for exactly if it is provided for. -/
lemma accounts_iff (counted : a.Counted) (call : Call sends receives) : a.Accounts call ↔ a.Provided call := by
  cases call with
  | bytesSent sent =>
    rw [Provided, ← add_toNat_iff, counted.sent]
    exact ⟨fun accounts => accounts.2.sent, fun follows => ⟨trivial, follows, counted.received⟩⟩
  | bytesReceived received =>
    rw [Provided, ← add_toNat_iff, counted.received]
    exact ⟨fun accounts => accounts.2.received, fun follows => ⟨trivial, counted.sent, follows⟩⟩
  | resetSent reset =>
    rw [Provided, ← restart_iff, counted.sent]
    constructor
    · intro accounts
      have left := accounts.2.sent
      rwa [step, resetSent_snd, counted.sent] at left
    · intro left
      refine ⟨trivial, ?_, ?_⟩
      · rwa [step, resetSent_snd, counted.sent]
      · rw [step, resetSent_snd]
        exact counted.received
  | resetReceived reset =>
    rw [Provided, ← restart_iff, counted.received]
    constructor
    · intro accounts
      have left := accounts.2.received
      rwa [step, resetReceived_snd, counted.received] at left
    · intro left
      refine ⟨trivial, ?_, ?_⟩
      · rw [step, resetReceived_snd]
        exact counted.sent
      · rwa [step, resetReceived_snd, counted.received]
  | allSent reset => exact ⟨fun _ => trivial, fun _ => accounts_allSent counted reset⟩
  | allReceived reset => exact accounts_allReceived_iff counted reset
  | toSend frame => exact ⟨fun _ => trivial, fun _ => ⟨trivial, counted.sent, counted.received⟩⟩
  | toReceive frame => exact ⟨fun _ => trivial, fun _ => ⟨trivial, counted.sent, counted.received⟩⟩

/-- All calls on a new command are accounted for exactly if each of them is provided for when it is made. -/
theorem run_accounts_iff (toSend : Frame sends) (toReceive : Frame receives) (calls : List (Call sends receives)) :
    Guarded step Accounts { command := { toSend, toReceive } } calls ↔
      Guarded step Provided { command := { toSend, toReceive } } calls := by
  refine guarded_iff_guarded (J := Counted) (fun a call counted => accounts_iff counted call) ?_ ⟨rfl, rfl⟩
  intro a call counted provided
  exact ((accounts_iff counted call).2 provided).2

/-- `all_received` calls a reply of two bytes complete after one, when one byte was sent. -/
theorem one_byte_completes :
    ¬ ∀ (sends receives : FrameArgs) (toSend : Frame sends) (toReceive : Frame receives)
      (calls : List (Call sends receives)), Guarded step Accounts { command := { toSend, toReceive } } calls := by
  intro all
  have run := all ⟨.empty, .word 1, .empty⟩ ⟨.empty, .word 2, .empty⟩ ⟨(), (7 : BitVec 8), ()⟩
    ⟨(), (0 : BitVec 16), ()⟩ [.bytesReceived 1, .allReceived false]
  exact absurd (run.2.1.1.1 rfl) (by decide)

end Account
end RequestData
end OsterLib.Network
