import OsterLib.Network.Worker

/-!
# The multiplexor

The overloads of `Multiplexor::add`, and `Multiplexor::remove`, of `network/multiplexor.cpp`, over the descriptors that
`epoll` tracks for it. How the kernel answers is a `Kernel`.

A failed `ADD` is followed by a `remove`, which ends the tracking of a descriptor that was tracked before, and takes the
code of the failure away where there is nothing to remove. All overloads but one return `true` all the same.
`add_honest_iff` says where an addition is right.
-/

namespace OsterLib.Network

/-- `epoll_data`, by the member that is set -/
inductive UserData where
  | fd (val : Int)
  | u32 (val : UInt32)
  | u64 (val : UInt64)
  | ptr (val : UInt64)
  deriving DecidableEq, Repr

/-- `epoll_event`, and `EventHandle`, which holds one -/
structure EventHandle where
  events : Event
  data : UserData
  deriving DecidableEq, Repr

/-- How `epoll_ctl` answers: what refuses an untracked descriptor, if anything does, and with what an `ADD` fails that
    finds the descriptor tracked, and a `DEL` that does not. -/
structure Kernel where
  refuses : Option Errc := none
  tracked : Errc := .other 17
  untracked : Errc := .other 2
  deriving DecidableEq, Repr

/-- The multiplexor while one of its functions runs: its descriptor, what is tracked, the error code of the caller and
    `errno`, where the code 0 means that there is none. -/
structure Multiplexor where
  epollfd : Int
  interest : Int → Option EventHandle := fun _ => none
  err : ErrorCode := none
  errno : Errc := .other 0

namespace Multiplexor

/-! ## `epoll_ctl` -/

/-- `EPOLL_CTL_ADD` -/
def ctlAdd (k : Kernel) (m : Multiplexor) (fd : Int) (ev : EventHandle) : Multiplexor × Bool :=
  match m.interest fd, k.refuses with
  | some _, _ => ({ m with errno := k.tracked }, false)
  | none, some errno => ({ m with errno }, false)
  | none, none => ({ m with interest := Function.update m.interest fd (some ev) }, true)

/-- `EPOLL_CTL_DEL` -/
def ctlDel (k : Kernel) (m : Multiplexor) (fd : Int) : Multiplexor × Bool :=
  match m.interest fd with
  | some _ => ({ m with interest := Function.update m.interest fd none }, true)
  | none => ({ m with errno := k.untracked }, false)

/-- `__epoll_ctl_throw__` -/
def epollCtlThrow (m : Multiplexor) : Multiplexor := { m with err := some m.errno, errno := .other 0 }

/-- `remove` -/
def remove (k : Kernel) (fd : Int) (m : Multiplexor) : Multiplexor × Bool :=
  if m.epollfd = -1 then ({ m with err := some .badFileDescriptor }, false)
  else
    match m.ctlDel k fd with
    | (m, false) => (m.epollCtlThrow, false)
    | (m, true) => (m, true)

/-! ## The overloads of `add` -/

/-- What the overloads have in common. They differ in what they do to the error code for a negative descriptor and for
    a success, and in what follows a failure. -/
def addWith (negative succeeded : ErrorCode → ErrorCode) (failed : Multiplexor → Multiplexor × Bool) (k : Kernel)
    (fd : Int) (ev : EventHandle) (m : Multiplexor) : Multiplexor × Bool :=
  if m.epollfd = -1 then ({ m with err := some .badFileDescriptor }, false)
  else if fd < 0 then ({ m with err := negative m.err }, false)
  else
    match m.ctlAdd k fd ev with
    | (m, false) => failed m
    | (m, true) => ({ m with err := succeeded m.err }, true)

/-- What follows a failure in three of the overloads -/
def removeAndThrow (k : Kernel) (fd : Int) (m : Multiplexor) : Multiplexor × Bool :=
  ((m.remove k fd).1.epollCtlThrow, true)

/-- The error of a multiplexor without a descriptor -/
def badDescriptor (_ : ErrorCode) : ErrorCode := some .badFileDescriptor

/-- `add(fd, event)` -/
def addEvent (k : Kernel) (fd : Int) (event : Event) : Multiplexor → Multiplexor × Bool :=
  addWith badDescriptor id (fun m => ((m.epollCtlThrow.remove k fd).1, true)) k fd { events := event, data := .fd fd }

/-- `add(fd, EventHandle)` -/
def addHandle (k : Kernel) (fd : Int) (ev : EventHandle) : Multiplexor → Multiplexor × Bool :=
  addWith badDescriptor (fun _ => none) (fun m => ((m.remove k fd).1.epollCtlThrow, false)) k fd ev

/-- `add(fd, uint32_t, event)` -/
def addU32 (k : Kernel) (fd : Int) (val : UInt32) (event : Event) : Multiplexor → Multiplexor × Bool :=
  addWith badDescriptor id (removeAndThrow k fd) k fd { events := event, data := .u32 val }

/-- The error code stays as it was for a negative descriptor. -/
def addU64 (k : Kernel) (fd : Int) (val : UInt64) (event : Event) : Multiplexor → Multiplexor × Bool :=
  addWith id id (removeAndThrow k fd) k fd { events := event, data := .u64 val }

/-- The error code stays as it was for a negative descriptor. -/
def addPtr (k : Kernel) (fd : Int) (ptr : UInt64) (event : Event) : Multiplexor → Multiplexor × Bool :=
  addWith id id (removeAndThrow k fd) k fd { events := event, data := .ptr ptr }

/-- An overload and its arguments besides the descriptor -/
inductive Addition where
  | event (event : Event)
  | handle (ev : EventHandle)
  | u32 (val : UInt32) (event : Event)
  | u64 (val : UInt64) (event : Event)
  | ptr (val : UInt64) (event : Event)
  deriving DecidableEq, Repr

/-- The overloads of `add` -/
def add (k : Kernel) (fd : Int) : Addition → Multiplexor → Multiplexor × Bool
  | .event event => addEvent k fd event
  | .handle ev => addHandle k fd ev
  | .u32 val event => addU32 k fd val event
  | .u64 val event => addU64 k fd val event
  | .ptr val event => addPtr k fd val event

/-! ## What an addition is for -/

/-- The event and the user data that are asked for -/
def Addition.requested (fd : Int) : Addition → EventHandle
  | .event events => { events, data := .fd fd }
  | .handle ev => ev
  | .u32 val events => { events, data := .u32 val }
  | .u64 val events => { events, data := .u64 val }
  | .ptr val events => { events, data := .ptr val }

/-- The overloads that report a negative descriptor -/
def Addition.reports : Addition → Bool
  | .u64 _ _ | .ptr _ _ => false
  | _ => true

/-- An addition is atomic and honest: it returns whether the descriptor was not tracked and now is as requested, and
    where it returns `false`, there is an error code and nothing has changed. -/
structure Honest (fd : Int) (ev : EventHandle) (before after : Multiplexor) (res : Bool) : Prop where
  returns : res = true ↔ before.interest fd = none ∧ after.interest fd = some ev
  reports : res = false → after.err.isSet = true
  unchanged : res = false → after.interest = before.interest

section honest
variable {k : Kernel} {fd : Int} {m : Multiplexor} {ev : EventHandle}
  {negative succeeded : ErrorCode → ErrorCode} {failed : Multiplexor → Multiplexor × Bool}

/-- Removing a descriptor that is not tracked changes no interest. -/
lemma remove_untracked (untracked : m.interest fd = none) : (m.remove k fd).1.interest = m.interest := by
  unfold remove ctlDel
  rw [untracked]
  split
  case isTrue => rfl
  case isFalse => rfl

/-- What was tracked is not any more behind a `remove`. -/
lemma remove_tracked (valid : m.epollfd ≠ -1) {old : EventHandle} (tracked : m.interest fd = some old) :
    (m.remove k fd).1.interest fd = none := by
  unfold remove ctlDel
  rw [if_neg valid, tracked]
  exact Function.update_self _ _ _

/-- Where nothing was tracked, the failed `remove` leaves no code in `errno`. -/
lemma remove_errno (valid : m.epollfd ≠ -1) (untracked : m.interest fd = none) :
    (m.remove k fd).1.errno = .other 0 := by
  unfold remove ctlDel
  rw [if_neg valid, untracked]
  rfl

/-- What an addition returns and leaves behind, by what it finds -/
lemma addWith_cases (m : Multiplexor) (k : Kernel) (fd : Int) (ev : EventHandle)
    (negative succeeded : ErrorCode → ErrorCode) (failed : Multiplexor → Multiplexor × Bool) :
    (m.epollfd = -1 ∧ addWith negative succeeded failed k fd ev m =
      ({ m with err := some .badFileDescriptor }, false)) ∨
    (m.epollfd ≠ -1 ∧ fd < 0 ∧ addWith negative succeeded failed k fd ev m =
      ({ m with err := negative m.err }, false)) ∨
    (m.epollfd ≠ -1 ∧ 0 ≤ fd ∧ m.interest fd = none ∧ k.refuses = none ∧
      addWith negative succeeded failed k fd ev m =
        ({ m with interest := Function.update m.interest fd (some ev), err := succeeded m.err }, true)) ∨
    (m.epollfd ≠ -1 ∧ 0 ≤ fd ∧ (m.interest fd ≠ none ∨ k.refuses ≠ none) ∧
      ∃ errno, addWith negative succeeded failed k fd ev m = failed { m with errno }) := by
  unfold addWith ctlAdd
  by_cases invalid : m.epollfd = -1
  · rw [if_pos invalid]
    exact .inl ⟨invalid, rfl⟩
  rw [if_neg invalid]
  by_cases below : fd < 0
  · rw [if_pos below]
    exact .inr (.inl ⟨invalid, below, rfl⟩)
  rw [if_neg below]
  have nonneg := Int.le_of_not_gt below
  cases old : m.interest fd with
  | some old => exact .inr (.inr (.inr ⟨invalid, nonneg, .inl (Option.some_ne_none _), _, rfl⟩))
  | none =>
    cases refused : k.refuses with
    | some errno => exact .inr (.inr (.inr ⟨invalid, nonneg, .inr (Option.some_ne_none _), _, rfl⟩))
    | none => exact .inr (.inr (.inl ⟨invalid, nonneg, rfl, rfl, rfl⟩))

/-- An addition of which every failure is dishonest is honest exactly where it is refused at once, with an error code,
    or where it succeeds. -/
lemma addWith_honest_iff
    (dishonest : ∀ errno, m.epollfd ≠ -1 → m.interest fd ≠ none ∨ k.refuses ≠ none →
      ¬Honest fd ev m (failed { m with errno }).1 (failed { m with errno }).2) :
    Honest fd ev m (addWith negative succeeded failed k fd ev m).1 (addWith negative succeeded failed k fd ev m).2 ↔
      m.epollfd = -1 ∨ (fd < 0 ∧ (negative m.err).isSet = true) ∨
        (0 ≤ fd ∧ m.interest fd = none ∧ k.refuses = none) := by
  have refused : ¬(m.interest fd = none ∧ m.interest fd = some ev) := by
    rintro ⟨none, some⟩
    rw [none] at some
    cases some
  rcases addWith_cases m k fd ev negative succeeded failed with
    ⟨invalid, result⟩ | ⟨valid, below, result⟩ | ⟨valid, nonneg, untracked, accepted, result⟩ |
      ⟨valid, nonneg, fails, errno, result⟩
  · rw [result]
    refine iff_of_true ⟨iff_of_false Bool.false_ne_true refused, fun _ => rfl, fun _ => rfl⟩ (.inl invalid)
  · rw [result]
    constructor
    · intro honest
      exact .inr (.inl ⟨below, honest.reports rfl⟩)
    · rintro (invalid | ⟨-, set⟩ | ⟨nonneg, -⟩)
      · exact absurd invalid valid
      · exact ⟨iff_of_false Bool.false_ne_true refused, fun _ => set, fun _ => rfl⟩
      · omega
  · rw [result]
    refine iff_of_true ⟨iff_of_true rfl ⟨untracked, Function.update_self _ _ _⟩, ?_, ?_⟩
      (.inr (.inr ⟨nonneg, untracked, accepted⟩))
    · intro impossible
      cases impossible
    · intro impossible
      cases impossible
  · rw [result]
    refine iff_of_false (dishonest errno valid fails) ?_
    rintro (invalid | ⟨below, -⟩ | ⟨-, untracked, accepted⟩)
    · exact valid invalid
    · omega
    · exact fails.elim (fun tracked => tracked untracked) fun refused => refused accepted

/-- A failure that is answered with `true` is dishonest, as nothing is tracked behind it that was not before. -/
lemma dishonest_true {after : Multiplexor} (kept : m.interest fd = none → after.interest = m.interest) :
    ¬Honest fd ev m after true := by
  intro honest
  obtain ⟨untracked, now⟩ := honest.returns.mp rfl
  rw [kept untracked, untracked] at now
  cases now

/-- `add(fd, event)` says that it has added what it has removed. -/
lemma addEvent_dishonest (errno : Errc) :
    ¬Honest fd ev m (({ m with errno } : Multiplexor).epollCtlThrow.remove k fd).1 true :=
  dishonest_true fun untracked => remove_untracked (m := ({ m with errno } : Multiplexor).epollCtlThrow) untracked

/-- The other overloads throw where they have removed. -/
lemma removeAndThrow_dishonest (errno : Errc) :
    ¬Honest fd ev m (removeAndThrow k fd { m with errno }).1 (removeAndThrow k fd { m with errno }).2 :=
  dishonest_true fun untracked => remove_untracked (m := { m with errno }) untracked

/-- The overload that returns `false` behind a failure has ended the tracking, or taken the code of it away. -/
lemma addHandle_dishonest (errno : Errc) (valid : m.epollfd ≠ -1) :
    ¬Honest fd ev m (({ m with errno } : Multiplexor).remove k fd).1.epollCtlThrow false := by
  intro honest
  cases old : m.interest fd with
  | some old =>
    have same : (({ m with errno } : Multiplexor).remove k fd).1.interest = m.interest := honest.unchanged rfl
    have gone := remove_tracked (m := { m with errno }) (k := k) valid old
    rw [same, old] at gone
    cases gone
  | none =>
    have set : ErrorCode.isSet (some (({ m with errno } : Multiplexor).remove k fd).1.errno) = true :=
      honest.reports rfl
    rw [remove_errno (m := { m with errno }) valid old] at set
    cases set

end honest

/-! ## The sockets of a worker -/

/-- The part of the multiplexor that a socket with a descriptor stands for -/
def socket (m : Multiplexor) (fd : Int) : Socket :=
  { isOpen := 0 ≤ fd, interest := (m.interest fd).map EventHandle.events }

/-- How the kernel answers the `ADD` of a descriptor, and the `DEL` that follows its failure -/
def ctl (m : Multiplexor) (k : Kernel) (fd : Int) : Ctl :=
  match m.interest fd with
  | some _ => { res := some k.tracked }
  | none => { res := k.refuses, del := some k.untracked }

/-- A worker, which adds its sockets as handles, finds the multiplexor to do this. -/
lemma addHandle_socket (m : Multiplexor) (k : Kernel) (fd : Int) (ev : EventHandle) :
    (m.socket fd).add (m.epollfd ≠ -1) ev.events (m.ctl k fd) =
      ((addHandle k fd ev m).1.socket fd, (addHandle k fd ev m).2, (addHandle k fd ev m).1.err) := by
  unfold addHandle addWith Socket.add
  by_cases invalid : m.epollfd = -1
  · rw [if_pos invalid, if_pos (by simp [invalid])]
    rfl
  rw [if_neg invalid]
  by_cases below : fd < 0
  · have shut : (m.socket fd).isOpen = false := decide_eq_false (Int.not_le.mpr below)
    rw [if_pos below, if_pos (by rw [shut]; simp)]
    rfl
  have opened : (m.socket fd).isOpen = true := decide_eq_true (Int.le_of_not_gt below)
  rw [if_neg below, if_neg (by rw [opened]; simp [invalid])]
  unfold socket ctl ctlAdd remove ctlDel
  cases old : m.interest fd with
  | some old =>
    dsimp only
    rw [if_neg invalid, old]
    simp [epollCtlThrow]
  | none =>
    cases refused : k.refuses with
    | some errno =>
      dsimp only
      rw [if_neg invalid, old]
      simp [epollCtlThrow, old]
    | none => simp

/-- An addition is atomic and honest exactly where the multiplexor has no descriptor, where the descriptor to add is
    negative and this is reported, or the caller's error code is set from before, and where the descriptor was not
    tracked and the kernel accepts it. -/
theorem add_honest_iff (k : Kernel) (fd : Int) (addition : Addition) (m : Multiplexor) :
    Honest fd (addition.requested fd) m (m.add k fd addition).1 (m.add k fd addition).2 ↔
      m.epollfd = -1 ∨ (fd < 0 ∧ (addition.reports = true ∨ m.err.isSet = true)) ∨
        (0 ≤ fd ∧ m.interest fd = none ∧ k.refuses = none) := by
  have set : (badDescriptor m.err).isSet = true ↔ true = true ∨ m.err.isSet = true := iff_of_true rfl (.inl rfl)
  have kept : m.err.isSet = true ↔ false = true ∨ m.err.isSet = true := (or_iff_right Bool.false_ne_true).symm
  cases addition with
  | event event =>
    rw [show (Addition.event event).reports = true from rfl, ← set]
    exact addWith_honest_iff fun errno _ _ => addEvent_dishonest errno
  | handle ev =>
    rw [show (Addition.handle ev).reports = true from rfl, ← set]
    exact addWith_honest_iff fun errno valid _ => addHandle_dishonest errno valid
  | u32 val event =>
    rw [show (Addition.u32 val event).reports = true from rfl, ← set]
    exact addWith_honest_iff fun errno _ _ => removeAndThrow_dishonest errno
  | u64 val event =>
    rw [show (Addition.u64 val event).reports = false from rfl, ← kept]
    exact addWith_honest_iff fun errno _ _ => removeAndThrow_dishonest errno
  | ptr val event =>
    rw [show (Addition.ptr val event).reports = false from rfl, ← kept]
    exact addWith_honest_iff fun errno _ _ => removeAndThrow_dishonest errno

/-- A descriptor that is tracked already: the addition is answered with `true`, and ends the tracking. One that the
    kernel refuses: the addition of a handle is answered with `false` and no error code. -/
theorem add_untracks :
    (addEvent {} 5 .In { epollfd := 3, interest := fun _ => some ⟨.Out, .fd 5⟩ }).2 = true ∧
      (addEvent {} 5 .In { epollfd := 3, interest := fun _ => some ⟨.Out, .fd 5⟩ }).1.interest 5 = none ∧
      (addHandle { refuses := some (.other 1) } 5 ⟨.In, .fd 5⟩ { epollfd := 3 }).2 = false ∧
      (addHandle { refuses := some (.other 1) } 5 ⟨.In, .fd 5⟩ { epollfd := 3 }).1.err.isSet = false ∧
      ¬Honest 5 ⟨.In, .fd 5⟩ { epollfd := 3, interest := fun _ => some ⟨.Out, .fd 5⟩ }
        (addEvent {} 5 .In { epollfd := 3, interest := fun _ => some ⟨.Out, .fd 5⟩ }).1
        (addEvent {} 5 .In { epollfd := 3, interest := fun _ => some ⟨.Out, .fd 5⟩ }).2 := by
  refine ⟨rfl, rfl, rfl, rfl, ?_⟩
  intro honest
  exact absurd (honest.returns.mp rfl).1 (by decide)

end Multiplexor
end OsterLib.Network
