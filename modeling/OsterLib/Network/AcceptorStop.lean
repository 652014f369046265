import OsterLib.Lib.Run
import Mathlib.Data.List.ReduceOption

/-!
# Stopping the acceptor

`launch`, `stop` and `graceful_close` of `ConnectionAcceptor`, with the thread that `launch` starts. Both `stop` and
`graceful_close` wait for the thread with the mutex taken, and the thread takes the mutex for the process of a
connection that it has accepted.

The thread tests the stop before it accepts, but not between that and the mutex. `stop_returns_iff` says when a call
returns: unless the thread comes to the mutex before it tests the stop again. Where it does, each waits for the other,
however long they run. What the thread accepts is in `Acceptor`, and what is done with the sockets is left out.
-/

namespace OsterLib.Network
open OsterLib.Lib

/-- Where the thread of an acceptor is: in `make_socket`, at `add`, before the mutex in `graceful_close`, at the head of
    the loop of `accept`, in `wait`, at an event of those that are left, behind the test of the stop there, before the
    mutex and behind it, or at the end. -/
inductive AcceptorPhase where
  | making
  | registering
  | closing
  | check
  | waiting
  | handling (events : Nat)
  | accepting (events : Nat)
  | locking (events : Nat)
  | fabricating (events : Nat)
  | returned
  deriving DecidableEq, Repr

/-- Where the thread of the server is: outside, or in `stop` or `graceful_close` before `request_stop`, before
    `interrupt` or in `join`. -/
inductive OwnerPhase where
  | idle
  | requesting
  | interrupting
  | joining
  deriving DecidableEq, Repr

/-- Who has the mutex -/
inductive Holder where
  | acceptor
  | owner
  deriving DecidableEq, Repr

/-- An acceptor, whose thread is joinable from `launch` on. -/
structure AcceptorLife where
  thread : Option AcceptorPhase := none
  stopRequested : Bool := false
  interrupted : Bool := false
  owner : OwnerPhase := .idle
  mutex : Option Holder := none
  terminated : Bool := false
  deriving DecidableEq, Repr

/-- What the system makes of a turn of the thread: whether the socket is made, registered or accepted with its options,
    how many events `wait` has for the socket, and whether it has the one of the interruptor too. -/
structure Luck where
  granted : Bool
  events : Nat
  interruption : Bool
  deriving DecidableEq, Repr

/-- `graceful_close` of the server's thread is the move `stop` as well, up to its `join`. -/
inductive LifeMove where
  | launch
  | stop
  | owner
  | acceptor (luck : Luck)
  deriving DecidableEq, Repr

namespace AcceptorLife
variable {s : AcceptorLife} {phase : AcceptorPhase} {luck : Luck}

/-- `launch`, where no thread is left to be joined -/
def launch (s : AcceptorLife) : AcceptorLife :=
  match s.owner, s.mutex, s.thread with
  | .idle, none, none => { s with thread := some .making, stopRequested := false }
  | _, _, _ => s

/-- `stop` as far as the mutex -/
def stop (s : AcceptorLife) : AcceptorLife :=
  match s.owner, s.mutex, s.thread with
  | .idle, none, some _ => { s with owner := .requesting, mutex := some .owner }
  | _, _, _ => s

/-- The server's thread goes on behind the mutex. -/
def ownerTurn (s : AcceptorLife) : AcceptorLife :=
  match s.owner with
  | .idle => s
  | .requesting => { s with stopRequested := true, owner := .interrupting }
  | .interrupting => { s with interrupted := true, owner := .joining }
  | .joining =>
    if s.thread = some .returned then { s with thread := none, owner := .idle, mutex := none } else s

/-- The acceptor's thread goes on. In its own `graceful_close` it joins itself, which ends the program. -/
def acceptorTurn (luck : Luck) (s : AcceptorLife) : AcceptorLife :=
  match s.thread with
  | none | some .returned => s
  | some .making => { s with thread := some (if luck.granted then .registering else .returned) }
  | some .registering => { s with thread := some (if luck.granted then .check else .closing) }
  | some .closing => if s.mutex = none then { s with terminated := true } else s
  | some .check => { s with thread := some (if s.stopRequested then .returned else .waiting) }
  | some .waiting =>
    if s.interrupted || decide (0 < luck.events) then
      let left := s.interrupted && (decide (0 < luck.events) && !luck.interruption)
      { s with interrupted := left, thread := some (.handling luck.events) }
    else s
  | some (.handling 0) => { s with thread := some .check }
  | some (.handling (events + 1)) =>
    { s with thread := some (if s.stopRequested then .returned else .accepting events) }
  | some (.accepting events) =>
    { s with thread := some (if luck.granted then .locking events else .handling events) }
  | some (.locking events) =>
    if s.mutex = none then { s with thread := some (.fabricating events), mutex := some .acceptor } else s
  | some (.fabricating events) => { s with thread := some (.handling events), mutex := none }

/-- A turn of a thread, or a call of the owner. After `std::terminate` nothing happens. -/
def step (s : AcceptorLife) (move : LifeMove) : AcceptorLife :=
  if s.terminated then s
  else
    match move with
    | .launch => s.launch
    | .stop => s.stop
    | .owner => s.ownerTurn
    | .acceptor luck => s.acceptorTurn luck

/-- The turns of both threads while a call of `stop` runs: one of the acceptor's, or one of the server's -/
def turn : Option Luck → LifeMove
  | some luck => .acceptor luck
  | none => .owner

/-- A call of `stop` returns in the turns, or in the next one of the server's thread. -/
def Returns (s : AcceptorLife) (turns : List (Option Luck)) : Prop :=
  (run step s (turns.map turn ++ [.owner])).owner = .idle

/-- The thread comes to the mutex before it tests the stop. -/
def needsMutex : AcceptorPhase → List Luck → Bool
  | .closing, _ | .locking _, _ => true
  | .accepting _, luck :: _ => luck.granted
  | .registering, luck :: _ => !luck.granted
  | .making, luck :: next :: _ => luck.granted && !next.granted
  | _, _ => false

/-! ## What holds in every state -/

/-- Who holds the mutex, and what has been done for a call that waits -/
structure Sound (s : AcceptorLife) : Prop where
  called : s.owner ≠ .idle → s.mutex = some .owner ∧ s.terminated = false ∧ s.thread ≠ none
  fabricating : ∀ events, s.thread = some (.fabricating events) → s.mutex = some .acceptor
  requested : s.owner = .interrupting ∨ s.owner = .joining → s.stopRequested = true
  woken : s.owner = .joining → s.thread = some .waiting → s.interrupted = true

/-- Launching keeps it sound. -/
lemma Sound.launch (sound : Sound s) : Sound s.launch := by
  unfold AcceptorLife.launch
  split
  case h_1 idle free none =>
    have away {p : OwnerPhase} (other : p ≠ .idle) : ¬s.owner = p := fun same => other (same.symm.trans idle)
    refine ⟨fun called => absurd idle called, fun events thread => ?_, fun called => ?_, fun called => ?_⟩
    · cases thread
    · exact called.elim (fun same => absurd same (away nofun)) fun same => absurd same (away nofun)
    · exact absurd called (away nofun)
  case h_2 => exact sound

/-- A call of `stop` keeps it sound. -/
lemma Sound.stop (alive : s.terminated = false) (sound : Sound s) : Sound s.stop := by
  unfold AcceptorLife.stop
  split
  case h_1 phase idle free thread =>
    refine ⟨fun _ => ⟨rfl, alive, fun none => ?_⟩, fun events fabricating => ?_, fun called => ?_, nofun⟩
    · rw [thread] at none
      cases none
    · have held := sound.fabricating events fabricating
      rw [free] at held
      cases held
    · exact called.elim nofun nofun
  case h_2 => exact sound

/-- A turn of the owner keeps it sound. -/
lemma Sound.ownerTurn (sound : Sound s) : Sound s.ownerTurn := by
  unfold AcceptorLife.ownerTurn
  cases owner : s.owner with
  | idle => exact sound
  | requesting =>
    obtain ⟨held, alive, thread⟩ := sound.called (by rw [owner]; nofun)
    exact ⟨fun _ => ⟨held, alive, thread⟩, sound.fabricating, fun _ => rfl, nofun⟩
  | interrupting =>
    obtain ⟨held, alive, thread⟩ := sound.called (by rw [owner]; nofun)
    exact ⟨fun _ => ⟨held, alive, thread⟩, sound.fabricating, fun _ => sound.requested (.inl owner), fun _ _ => rfl⟩
  | joining =>
    dsimp only
    split
    · exact ⟨fun called => absurd rfl called, nofun, fun called => called.elim nofun nofun, nofun⟩
    · exact sound

/-- The thread goes on without the mutex, and is not left in `wait`. -/
lemma Sound.goesOn (sound : Sound s) (free : ∀ events, phase ≠ .fabricating events)
    (leaves : s.owner = .joining → phase ≠ .waiting) : Sound { s with thread := some phase } := by
  refine ⟨fun called => ?_, fun events fabricating => ?_, sound.requested, fun joining waiting => ?_⟩
  · obtain ⟨held, alive, -⟩ := sound.called called
    exact ⟨held, alive, nofun⟩
  · exact absurd (Option.some.inj fabricating) (free events)
  · exact absurd (Option.some.inj waiting) (leaves joining)

/-- The owner is idle where it does not have the mutex. -/
lemma Sound.idle_of_free (sound : Sound s) (free : s.mutex ≠ some .owner) : s.owner = .idle := by
  by_contra called
  exact free (sound.called called).1

/-- A turn of the thread keeps it sound. -/
lemma Sound.acceptorTurn (luck : Luck) (sound : Sound s) : Sound (s.acceptorTurn luck) := by
  unfold AcceptorLife.acceptorTurn
  split
  case h_1 => exact sound
  case h_2 => exact sound
  case h_3 =>
    split
    · exact sound.goesOn nofun nofun
    · exact sound.goesOn nofun nofun
  case h_4 =>
    split
    · exact sound.goesOn nofun nofun
    · exact sound.goesOn nofun nofun
  case h_5 =>
    split
    case isTrue free =>
      have idle := sound.idle_of_free (by rw [free]; nofun)
      exact ⟨fun called => absurd idle called, sound.fabricating, sound.requested, sound.woken⟩
    case isFalse => exact sound
  case h_6 =>
    split
    · exact sound.goesOn nofun nofun
    case isFalse going =>
      exact sound.goesOn nofun fun joining => absurd (sound.requested (.inr joining)) going
  case h_7 =>
    split
    case isTrue =>
      refine ⟨fun called => ?_, nofun, sound.requested, nofun⟩
      obtain ⟨held, alive, -⟩ := sound.called called
      exact ⟨held, alive, nofun⟩
    case isFalse => exact sound
  case h_8 => exact sound.goesOn nofun nofun
  case h_9 =>
    split
    · exact sound.goesOn nofun nofun
    · exact sound.goesOn nofun nofun
  case h_10 =>
    split
    · exact sound.goesOn nofun nofun
    · exact sound.goesOn nofun nofun
  case h_11 =>
    split
    case isTrue free =>
      have idle := sound.idle_of_free (by rw [free]; nofun)
      exact ⟨fun called => absurd idle called, fun _ _ => rfl, sound.requested, nofun⟩
    case isFalse => exact sound
  case h_12 events thread =>
    have idle := sound.idle_of_free (by rw [sound.fabricating events thread]; nofun)
    exact ⟨fun called => absurd idle called, nofun, sound.requested, nofun⟩

/-- Every turn keeps it sound. -/
lemma Sound.step (sound : Sound s) (move : LifeMove) : Sound (s.step move) := by
  unfold AcceptorLife.step
  split
  · exact sound
  case isFalse alive =>
    cases move with
    | launch => exact sound.launch
    | stop => exact sound.stop (Bool.eq_false_iff.mpr alive)
    | owner => exact sound.ownerTurn
    | acceptor luck => exact sound.acceptorTurn luck

/-- Every run is sound. -/
lemma run_sound (moves : List LifeMove) : Sound (run step {} moves) := by
  refine run_of_keep (fun s move sound => sound.step move) moves ⟨nofun, nofun, fun called => ?_, nofun⟩
  exact called.elim nofun nofun

/-! ## A call that waits -/

/-- The server's thread is in `join`. -/
structure Joining (s : AcceptorLife) (phase : AcceptorPhase) : Prop where
  owner : s.owner = .joining
  thread : s.thread = some phase
  mutex : s.mutex = some .owner
  alive : s.terminated = false
  requested : s.stopRequested = true
  woken : phase = .waiting → s.interrupted = true
  away : ∀ events, phase ≠ .fabricating events

/-- An owner that joins waits for some phase of the thread. -/
lemma Sound.joining (sound : Sound s) (owner : s.owner = .joining) : ∃ phase, Joining s phase := by
  obtain ⟨held, alive, thread⟩ := sound.called (by rw [owner]; nofun)
  obtain ⟨phase, thread⟩ := Option.ne_none_iff_exists'.mp thread
  refine ⟨phase, owner, thread, held, alive, sound.requested (.inr owner), ?_, ?_⟩
  · rintro rfl
    exact sound.woken owner thread
  · rintro events rfl
    have other := sound.fabricating events thread
    rw [held] at other
    cases other

/-- How many turns of its own the thread is away from its end, or from the mutex -/
def distance : AcceptorPhase → Nat
  | .making | .waiting | .accepting _ => 3
  | .registering | .handling 0 => 2
  | .check | .handling (_ + 1) => 1
  | _ => 0

/-- What a turn makes of the thread that has been told to stop and cannot take the mutex -/
def onward (luck : Luck) : AcceptorPhase → AcceptorPhase
  | .making => if luck.granted then .registering else .returned
  | .registering => if luck.granted then .check else .closing
  | .check => .returned
  | .waiting => .handling luck.events
  | .handling 0 => .check
  | .handling (_ + 1) => .returned
  | .accepting events => if luck.granted then .locking events else .handling events
  | phase => phase

/-- The owner joins with the mutex held, and the thread is interrupted. -/
lemma Joining.of {interrupted : Bool} (woken : phase = .waiting → interrupted = true)
    (away : ∀ events, phase ≠ .fabricating events) :
    Joining ⟨some phase, true, interrupted, .joining, some .owner, false⟩ phase :=
  ⟨rfl, rfl, rfl, rfl, rfl, woken, away⟩

/-- A turn of the thread takes it onward while the owner joins. -/
lemma Joining.acceptorTurn (joining : Joining s phase) (luck : Luck) :
    Joining (s.step (.acceptor luck)) (onward luck phase) := by
  obtain ⟨granted, events, interruption⟩ := luck
  obtain ⟨thread, stopRequested, interrupted, owner, mutex, terminated⟩ := s
  obtain ⟨rfl, rfl, rfl, rfl, rfl, woken, away⟩ := joining
  cases phase with
  | making =>
    cases granted with
    | true => exact .of nofun nofun
    | false => exact .of nofun nofun
  | registering =>
    cases granted with
    | true => exact .of nofun nofun
    | false => exact .of nofun nofun
  | closing => exact .of nofun nofun
  | check => exact .of nofun nofun
  | waiting =>
    obtain rfl : interrupted = true := woken rfl
    exact .of nofun nofun
  | handling left =>
    cases left with
    | zero => exact .of nofun nofun
    | succ left => exact .of nofun nofun
  | accepting left =>
    cases granted with
    | true => exact .of nofun nofun
    | false => exact .of nofun nofun
  | locking left => exact .of nofun nofun
  | fabricating left => exact absurd rfl (away left)
  | returned => exact .of nofun nofun

/-- The owner waits while the thread is going. -/
lemma Joining.ownerTurn (joining : Joining s phase) (going : phase ≠ .returned) : s.step .owner = s := by
  unfold AcceptorLife.step AcceptorLife.ownerTurn
  rw [joining.alive, if_neg Bool.false_ne_true]
  dsimp only
  rw [joining.owner, joining.thread]
  exact if_neg fun same => going (Option.some.inj same)

/-- Where the call has returned, the turns that are left change nothing. -/
lemma run_returned {interrupted : Bool} (turns : List (Option Luck)) :
    (run step ⟨none, true, interrupted, .idle, none, false⟩ (turns.map turn)).owner = .idle := by
  induction turns with
  | nil => rfl
  | cons move turns ih =>
    cases move with
    | none => exact ih
    | some luck => exact ih

/-- The owner joins a thread that has returned. -/
lemma Joining.join (joining : Joining s .returned) (turns : List (Option Luck)) :
    (run step (s.step .owner) (turns.map turn)).owner = .idle := by
  obtain ⟨thread, stopRequested, interrupted, owner, mutex, terminated⟩ := s
  obtain ⟨rfl, rfl, rfl, rfl, rfl, -, -⟩ := joining
  exact run_returned turns

/-- Whether the mutex is needed is decided by the turns to come. -/
lemma needsMutex_onward (phase : AcceptorPhase) (luck : Luck) (lucks : List Luck) :
    needsMutex phase (luck :: lucks) = needsMutex (onward luck phase) lucks := by
  obtain ⟨granted, events, interruption⟩ := luck
  cases phase with
  | making =>
    cases granted with
    | true =>
      cases lucks with
      | nil => rfl
      | cons next lucks => rfl
    | false =>
      cases lucks with
      | nil => rfl
      | cons next lucks => rfl
  | registering =>
    cases granted with
    | true => rfl
    | false => rfl
  | accepting left =>
    cases granted with
    | true => rfl
    | false => rfl
  | handling left =>
    cases left with
    | zero => rfl
    | succ left => rfl
  | _ => rfl

/-- Every turn comes nearer to the end. -/
lemma distance_onward (phase : AcceptorPhase) (luck : Luck) : distance (onward luck phase) ≤ distance phase - 1 := by
  obtain ⟨granted, events, interruption⟩ := luck
  cases phase with
  | making =>
    cases granted with
    | true => exact Nat.le_of_ble_eq_true rfl
    | false => exact Nat.le_of_ble_eq_true rfl
  | registering =>
    cases granted with
    | true => exact Nat.le_of_ble_eq_true rfl
    | false => exact Nat.le_of_ble_eq_true rfl
  | waiting =>
    cases events with
    | zero => exact Nat.le_of_ble_eq_true rfl
    | succ events => exact Nat.le_of_ble_eq_true rfl
  | accepting left =>
    cases granted with
    | true => exact Nat.zero_le _
    | false =>
      cases left with
      | zero => exact Nat.le_of_ble_eq_true rfl
      | succ left => exact Nat.le_of_ble_eq_true rfl
  | handling left =>
    cases left with
    | zero => exact Nat.le_of_ble_eq_true rfl
    | succ left => exact Nat.zero_le _
  | _ => exact Nat.zero_le _

/-- At the distance zero, the thread is at its end or before the mutex. -/
lemma Joining.settled (joining : Joining s phase) (near : distance phase = 0) :
    (s.step .owner).owner = .idle ↔ needsMutex phase [] = false := by
  by_cases returned : phase = .returned
  · subst returned
    exact iff_of_true (joining.join []) rfl
  · rw [joining.ownerTurn returned, joining.owner]
    refine iff_of_false nofun fun free => ?_
    cases phase with
    | closing => cases free
    | locking events => cases free
    | returned => exact returned rfl
    | fabricating events => exact joining.away events rfl
    | handling events => cases events <;> cases near
    | _ => cases near

/-- The call returns within enough turns exactly if the thread does not come to the mutex. -/
lemma Joining.returns_iff (joining : Joining s phase) (turns : List (Option Luck))
    (enough : distance phase ≤ turns.reduceOption.length) :
    Returns s turns ↔ needsMutex phase turns.reduceOption = false := by
  induction turns generalizing s phase with
  | nil => exact joining.settled (Nat.le_zero.mp enough)
  | cons move turns ih =>
    cases move with
    | none =>
      rw [List.reduceOption_cons_of_none] at enough ⊢
      by_cases returned : phase = .returned
      · subst returned
        refine iff_of_true ?_ rfl
        have joined := joining.join (turns ++ [none])
        rw [List.map_append] at joined
        exact joined
      · have same := joining.ownerTurn returned
        change (run step (s.step .owner) _).owner = .idle ↔ _
        rw [same]
        exact ih joining enough
    | some luck =>
      rw [List.reduceOption_cons_of_some] at enough ⊢
      rw [needsMutex_onward]
      refine ih (joining.acceptorTurn luck) (Nat.le_trans (distance_onward phase luck) ?_)
      exact Nat.sub_le_of_le_add enough

/-- A call of `stop` that waits for the thread returns exactly if the thread does not come to the mutex before it tests
    the stop, in any turns with three of the thread's or more. -/
theorem stop_returns_iff (moves : List LifeMove) (joining : (run step {} moves).owner = .joining)
    (turns : List (Option Luck)) (enough : 3 ≤ turns.reduceOption.length) :
    Returns (run step {} moves) turns ↔
      ∀ phase ∈ (run step {} moves).thread, needsMutex phase turns.reduceOption = false := by
  obtain ⟨phase, call⟩ := (run_sound moves).joining joining
  have near : distance phase ≤ 3 := by
    cases phase with
    | handling events =>
      cases events with
      | zero => decide
      | succ events => exact Nat.le_of_ble_eq_true rfl
    | _ => exact Nat.le_of_ble_eq_true rfl
  rw [call.returns_iff turns (Nat.le_trans near enough), call.thread]
  exact ⟨fun free phase' same => Option.some.inj same ▸ free, fun all => all phase rfl⟩

/-- The call comes while the thread accepts a connection, and each waits for the other. -/
theorem stop_returns_accepting :
    let luck : Luck := ⟨true, 1, false⟩
    let s := run step {} ([.launch] ++ List.replicate 5 (.acceptor luck) ++ [.stop, .owner, .owner])
    s.thread = some (.accepting 0) ∧ ¬Returns s [none, some luck, some luck, none, some luck] := by
  intro luck s
  refine ⟨rfl, fun returns => ?_⟩
  have joining : s.owner = .joining := rfl
  have free := (stop_returns_iff _ joining [none, some luck, some luck, none, some luck] (Nat.le_refl 3)).mp returns
    (.accepting 0) rfl
  cases free

end AcceptorLife
end OsterLib.Network
