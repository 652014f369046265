import OsterLib.Lib.Run
import Mathlib.Data.List.Nodup
import Mathlib.Data.List.Range

/-!
# The acceptor's loop

`ConnectionAcceptor::accept` of `network/connection.cpp` with the listening socket it waits for. The
socket is registered with `Event::In | Event::EdgeTrigger`: `Multiplexor::wait` reports it once if at
least one connection arrived since the report before, however many arrived.

Connections are numbered in the order in which they complete. The kernel side (`queue`, `armed`) and
the loop take their steps in any order. The loop takes one connection for each report, so a report
that stands for several leaves all but one in the queue when `wait` is called again. `Single` is the
condition that no report does, and a run whose reports are all single serves every connection it was
told of (`served_iff_single`). What the loop does with a socket once it is accepted does not touch the
queue and is left out.
-/

namespace OsterLib.Network
open OsterLib.Lib

/-- Where the acceptor's thread stands in its loop. -/
inductive Loop where
  /-- Before the test of `stop_requested()` in the head of the outer loop. -/
  | check
  | waiting
  /-- In the inner loop, with the descriptors of the events that are still to be handled. -/
  | handling (events : List Int)
  | returned
  deriving DecidableEq, Repr

/-- `ConnectionAcceptor`, with the connections that have arrived at its socket -/
structure Acceptor where
  /-- The completed connections that wait to be accepted, oldest first. -/
  queue : List Nat := []
  arrived : Nat := 0
  /-- A connection arrived since the listening socket was reported last. -/
  armed : Bool := false
  stopRequested : Bool := false
  loop : Loop := .check
  accepted : List Nat := []
  /-- What was queued when the listening socket was reported last. -/
  reported : List Nat := []
  deriving DecidableEq, Repr

/-- What happens to an acceptor -/
inductive Happening where
  /-- A connection completes. -/
  | arrive
  | requestStop
  /-- The acceptor's thread goes on. `interrupted` says whether a call of `wait` that has no event to
      report returns all the same, with no events. -/
  | advance (interrupted : Bool)
  deriving DecidableEq, Repr

namespace Acceptor

/-- `::accept`: the oldest completed connection. It fails where there is none, and the loop goes on. -/
def accept (a : Acceptor) : Acceptor :=
  match a.queue with
  | [] => a
  | c :: queue => { a with queue, accepted := a.accepted ++ [c] }

/-- What `Multiplexor::wait` returns to the loop, or nothing as long as it blocks. -/
def wait (native : Int) (a : Acceptor) (interrupted : Bool) : Acceptor :=
  if a.armed then { a with armed := false, reported := a.queue, loop := .handling [native] }
  else if interrupted then { a with loop := .handling [] }
  else a

/-- A turn of the acceptor's thread -/
def advance (native : Int) (a : Acceptor) (interrupted : Bool) : Acceptor :=
  match a.loop with
  | .check => { a with loop := if a.stopRequested then .returned else .waiting }
  | .waiting => a.wait native interrupted
  | .handling [] => { a with loop := .check }
  | .handling (event :: events) =>
    if a.stopRequested then { a with loop := .returned }
    else if event = native then { a.accept with loop := .handling events }
    else { a with loop := .handling events }
  | .returned => a

/-- What an acceptor becomes when something happens -/
def step (native : Int) (a : Acceptor) : Happening → Acceptor
  | .arrive =>
    { a with queue := a.queue ++ [a.arrived], arrived := a.arrived + 1, armed := true }
  | .requestStop => { a with stopRequested := true }
  | .advance interrupted => a.advance native interrupted

/-- When the loop waits again, all that was queued at the last report is accepted. -/
def Served (a : Acceptor) : Prop :=
  a.loop = .waiting → ∀ c ∈ a.reported, c ∈ a.accepted

/-- If the listening socket is reported in this step, it is for one connection. -/
def Single (a : Acceptor) : Happening → Prop
  | .advance _ => a.loop = .waiting → a.armed = true → a.queue.length ≤ 1
  | _ => True

/-! ## The invariant of the loop -/

/-- The accepted connections are the oldest ones and the queue holds the others. -/
def Fifo (a : Acceptor) : Prop :=
  a.accepted ++ a.queue = List.range a.arrived

/-- Accepting takes the oldest connection. -/
lemma Fifo.accept {a : Acceptor} (fifo : a.Fifo) : a.accept.Fifo := by
  unfold Fifo Acceptor.accept at *
  cases e : a.queue with
  | nil => simpa [e] using fifo
  | cons c queue => simpa [e] using fifo

/-- Going on, the acceptor's thread touches the queue by `::accept` only. -/
lemma advance_queue (native : Int) (a : Acceptor) (interrupted : Bool) :
    ∃ b : Acceptor, (b = a ∨ b = a.accept) ∧ (a.advance native interrupted).queue = b.queue ∧
      (a.advance native interrupted).accepted = b.accepted ∧
      (a.advance native interrupted).arrived = b.arrived := by
  cases loop : a.loop with
  | check => exact ⟨a, .inl rfl, by simp [advance, loop]⟩
  | waiting =>
    refine ⟨a, .inl rfl, ?_⟩
    cases armed : a.armed with
    | true => simp [advance, loop, wait, armed]
    | false =>
      cases interrupted with
      | true => simp [advance, loop, wait, armed]
      | false => simp [advance, loop, wait, armed]
  | handling events =>
    cases events with
    | nil => exact ⟨a, .inl rfl, by simp [advance, loop]⟩
    | cons event events =>
      cases stop : a.stopRequested with
      | true => exact ⟨a, .inl rfl, by simp [advance, loop, stop]⟩
      | false =>
        by_cases own : event = native
        · exact ⟨a.accept, .inr rfl, by simp [advance, loop, stop, own]⟩
        · exact ⟨a, .inl rfl, by simp [advance, loop, stop, own]⟩
  | returned => exact ⟨a, .inl rfl, by simp [advance, loop]⟩

/-- The connections stay in their order, whatever happens. -/
lemma Fifo.step {native : Int} {a : Acceptor} (fifo : a.Fifo) (h : Happening) :
    (a.step native h).Fifo := by
  cases h with
  | arrive =>
    show a.accepted ++ (a.queue ++ [a.arrived]) = List.range (a.arrived + 1)
    rw [← List.append_assoc, List.range_succ]
    exact congrArg (· ++ [a.arrived]) fifo
  | requestStop => exact fifo
  | advance interrupted =>
    obtain ⟨b, same, queue, accepted, arrived⟩ := advance_queue native a interrupted
    show (a.advance native interrupted).accepted ++ (a.advance native interrupted).queue =
      List.range (a.advance native interrupted).arrived
    rw [queue, accepted, arrived]
    cases same with
    | inl e => rw [e]; exact fifo
    | inr e => rw [e]; exact fifo.accept

/-- A connection in the queue is not accepted. -/
lemma Fifo.not_accepted {a : Acceptor} (fifo : a.Fifo) {c : Nat} (mem : c ∈ a.queue) :
    c ∉ a.accepted := by
  have nodup : (a.accepted ++ a.queue).Nodup := by
    rw [fifo]
    exact List.nodup_range
  intro taken
  exact (List.nodup_append.1 nodup).2.2 c taken c mem rfl

/-- Accepting reports nothing. -/
lemma accept_reported (a : Acceptor) : a.accept.reported = a.reported := by
  unfold accept
  split
  · rfl
  · rfl

/-- The oldest connection is accepted. -/
lemma accept_accepted (a : Acceptor) : a.accept.accepted = a.accepted ++ a.queue.take 1 := by
  unfold accept
  split
  · rename_i e
    simp [e]
  · rename_i e
    simp [e]

/-- The accepted connection waits no longer. -/
lemma accept_queue (a : Acceptor) : a.accept.queue = a.queue.drop 1 := by
  unfold accept
  split
  · rename_i e
    simp [e]
  · rename_i e
    simp [e]

/-- What is still to be accepted of the last report, at each place of the loop, if every report is
    single: at most the oldest connection of the queue, and only while its event is unhandled. -/
def OnTrack (native : Int) (a : Acceptor) : Prop :=
  match a.loop with
  | .check | .waiting | .handling [] => ∀ c ∈ a.reported, c ∈ a.accepted
  | .handling events => events = [native] ∧ ∀ c ∈ a.reported, c ∈ a.accepted ++ a.queue.take 1
  | .returned => True

/-- An acceptor on track serves every connection. -/
lemma OnTrack.served {native : Int} {a : Acceptor} (track : a.OnTrack native) : a.Served := by
  intro waiting
  simpa only [OnTrack, waiting] using track

/-- A turn of the thread keeps it on track where single connections arrive. -/
lemma OnTrack.advance {native : Int} {a : Acceptor} (track : a.OnTrack native)
    {interrupted : Bool} (single : a.Single (.advance interrupted)) :
    (a.advance native interrupted).OnTrack native := by
  cases loop : a.loop with
  | check =>
    simp only [OnTrack, loop] at track
    cases stop : a.stopRequested with
    | true => simp [Acceptor.advance, loop, stop, OnTrack]
    | false => simpa [Acceptor.advance, loop, stop, OnTrack] using track
  | waiting =>
    simp only [OnTrack, loop] at track
    cases armed : a.armed with
    | true =>
      have one : a.queue.length ≤ 1 := single loop armed
      have all : a.queue.take 1 = a.queue := List.take_of_length_le one
      simp [Acceptor.advance, Acceptor.wait, loop, armed, OnTrack, all]
      exact fun c mem => .inr mem
    | false =>
      cases interrupted with
      | true => simpa [Acceptor.advance, Acceptor.wait, loop, armed, OnTrack] using track
      | false => simpa [Acceptor.advance, Acceptor.wait, loop, armed, OnTrack] using track
  | handling events =>
    cases events with
    | nil =>
      simp only [OnTrack, loop] at track
      simpa [Acceptor.advance, loop, OnTrack] using track
    | cons event events =>
      simp only [OnTrack, loop] at track
      obtain ⟨only, rest⟩ := track
      cases only
      cases stop : a.stopRequested with
      | true => simp [Acceptor.advance, loop, stop, OnTrack]
      | false =>
        simp only [Acceptor.advance, loop, stop, Bool.false_eq_true, if_true, if_false, OnTrack,
          accept_reported, accept_accepted]
        exact rest
  | returned => simp [Acceptor.advance, loop, OnTrack]

/-- A connection that arrives keeps it on track. -/
lemma OnTrack.arrive {native : Int} {a : Acceptor} (track : a.OnTrack native) :
    (a.step native .arrive).OnTrack native := by
  cases loop : a.loop with
  | handling events =>
    cases events with
    | nil => simpa [Acceptor.step, OnTrack, loop] using track
    | cons event events =>
      simp only [OnTrack, loop, Acceptor.step] at track ⊢
      refine ⟨track.1, fun c mem => ?_⟩
      have old := track.2 c mem
      rw [List.mem_append] at old ⊢
      refine old.imp_right fun front => ?_
      cases e : a.queue with
      | nil => simp [e] at front
      | cons d queue => simpa [e] using front
  | returned => simp [Acceptor.step, OnTrack, loop]
  | _ => simpa [Acceptor.step, OnTrack, loop] using track

/-- Whatever happens keeps it on track where single connections arrive. -/
lemma OnTrack.step {native : Int} {a : Acceptor} (track : a.OnTrack native) {h : Happening}
    (single : a.Single h) : (a.step native h).OnTrack native := by
  cases h with
  | arrive => exact track.arrive
  | requestStop => exact track
  | advance interrupted => exact track.advance single

/-! ## A report that stands for several connections -/

/-- Something that was reported is left in the queue, although no event for it is to be handled. -/
def Behind (native : Int) (a : Acceptor) : Prop :=
  match a.loop with
  | .check | .handling [] => ∃ c ∈ a.reported, c ∈ a.queue
  | .handling events => events = [native] ∧ ∃ c ∈ a.reported, c ∈ a.queue.drop 1
  | .waiting | .returned => False

/-- A report for more than one connection leaves one of them behind. -/
lemma behind_of_not_single {native : Int} {a : Acceptor} {h : Happening}
    (several : ¬ a.Single h) : (a.step native h).Behind native := by
  cases h with
  | arrive => exact absurd trivial several
  | requestStop => exact absurd trivial several
  | advance interrupted =>
    simp only [Single, Classical.not_imp, Nat.not_le] at several
    obtain ⟨loop, armed, more⟩ := several
    obtain ⟨c, d, queue, e⟩ : ∃ c d queue, a.queue = c :: d :: queue := by
      cases e : a.queue with
      | nil => simp [e] at more
      | cons c queue =>
        cases queue with
        | nil => simp [e] at more
        | cons d queue => exact ⟨c, d, queue, rfl⟩
    simp [Acceptor.step, advance, wait, loop, armed, Behind, e]

/-- From there the loop waits again, or is asked to stop. -/
lemma Behind.step {native : Int} {a : Acceptor} (behind : a.Behind native) (fifo : a.Fifo)
    (going : a.stopRequested = false) {h : Happening} :
    (a.step native h).Behind native ∨ ¬ (a.step native h).Served := by
  cases h with
  | arrive =>
    left
    cases loop : a.loop with
    | handling events =>
      cases events with
      | nil =>
        simp only [Behind, loop, Acceptor.step] at behind ⊢
        obtain ⟨c, reported, queued⟩ := behind
        exact ⟨c, reported, List.mem_append_left _ queued⟩
      | cons event events =>
        simp only [Behind, loop, Acceptor.step] at behind ⊢
        obtain ⟨only, c, reported, queued⟩ := behind
        refine ⟨only, c, reported, ?_⟩
        rw [List.drop_append]
        exact List.mem_append_left _ queued
    | check =>
      simp only [Behind, loop, Acceptor.step] at behind ⊢
      obtain ⟨c, reported, queued⟩ := behind
      exact ⟨c, reported, List.mem_append_left _ queued⟩
    | waiting => simp [Behind, loop] at behind
    | returned => simp [Behind, loop] at behind
  | requestStop => exact .inl behind
  | advance interrupted =>
    cases loop : a.loop with
    | check =>
      right
      simp only [Behind, loop] at behind
      obtain ⟨c, reported, queued⟩ := behind
      intro served
      -- it waits again, with a connection reported that is still in the queue
      have taken := served (by simp [Acceptor.step, advance, loop, going]) c
        (by simpa [Acceptor.step, advance, loop] using reported)
      exact fifo.not_accepted queued (by simpa [Acceptor.step, advance, loop] using taken)
    | handling events =>
      left
      cases events with
      | nil => simpa [Acceptor.step, advance, loop, Behind] using behind
      | cons event events =>
        simp only [Behind, loop] at behind
        obtain ⟨only, c, reported, queued⟩ := behind
        cases only
        simp only [Acceptor.step, advance, loop, going, Behind, Bool.false_eq_true, if_false,
          if_true, accept_reported, accept_queue]
        exact ⟨c, reported, queued⟩
    | waiting => simp [Behind, loop] at behind
    | returned => simp [Behind, loop] at behind

/-! ## Runs -/

/-- Only a request to stop ends the loop. -/
lemma step_going (native : Int) {a : Acceptor} (going : a.stopRequested = false) {h : Happening}
    (no_stop : h ≠ .requestStop) : (a.step native h).stopRequested = false := by
  cases h with
  | arrive => exact going
  | requestStop => exact absurd rfl no_stop
  | advance interrupted =>
    have kept : a.accept.stopRequested = a.stopRequested := by
      unfold accept
      split
      · rfl
      · rfl
    cases loop : a.loop with
    | handling events =>
      cases events with
      | nil => simpa [Acceptor.step, advance, loop] using going
      | cons event events =>
        by_cases own : event = native
        · simpa [Acceptor.step, advance, loop, going, own] using kept.trans going
        · simp [Acceptor.step, advance, loop, going, own]
    | waiting =>
      simp only [Acceptor.step, advance, loop, wait]
      split
      · exact going
      · split
        · exact going
        · exact going
    | check => simpa [Acceptor.step, advance, loop] using going
    | returned => simpa [Acceptor.step, advance, loop] using going

/-- A run that is behind and comes to wait again has missed a connection. -/
lemma Behind.run {native : Int} {a : Acceptor} (behind : a.Behind native) (fifo : a.Fifo)
    (going : a.stopRequested = false) {hs : List Happening} (no_stop : .requestStop ∉ hs)
    (waits : (Lib.run (Acceptor.step native) a hs).loop = .waiting) :
    ¬ Always (Acceptor.step native) Served a hs := by
  induction hs generalizing a with
  | nil =>
    rw [run_nil] at waits
    simp [Behind, waits] at behind
  | cons h hs ih =>
    intro served
    have this_stop : h ≠ .requestStop := fun e => no_stop (e ▸ List.mem_cons_self)
    cases behind.step (h := h) fifo going with
    | inl behind' =>
      exact ih behind' (fifo.step h) (step_going native going this_stop)
        (fun mem => no_stop (List.mem_cons_of_mem _ mem)) waits served.2
    | inr missed => exact missed served.2.head

/-- Single reports are enough for every run, and a run that is not asked to stop and ends waiting
    needs them. -/
theorem served_iff_single (native : Int) (hs : List Happening) :
    (Guarded (step native) Single {} hs → Always (step native) Served {} hs) ∧
      (.requestStop ∉ hs → (Lib.run (step native) {} hs).loop = .waiting →
        Always (step native) Served {} hs → Guarded (step native) Single {} hs) := by
  constructor
  · intro single
    have start : OnTrack native {} := by simp [OnTrack]
    exact (always_of_guarded (fun _ _ track ok => track.step ok) start single).imp
      fun _ track => track.served
  · have start : Fifo {} := rfl
    have going : ({} : Acceptor).stopRequested = false := rfl
    generalize ({} : Acceptor) = a at start going
    intro no_stop waits served
    induction hs generalizing a with
    | nil => trivial
    | cons h hs ih =>
      have this_stop : h ≠ .requestStop := fun e => no_stop (e ▸ List.mem_cons_self)
      have later_stop : .requestStop ∉ hs := fun mem => no_stop (List.mem_cons_of_mem _ mem)
      have going' := step_going native going this_stop
      by_cases single : a.Single h
      · exact ⟨single, ih _ (start.step h) going' later_stop waits served.2⟩
      · have behind : (a.step native h).Behind native := behind_of_not_single single
        exact absurd served.2 (behind.run (start.step h) going' later_stop waits)

/-- The second connection completes after the report for the first one: both are served. -/
theorem second_reported_apart :
    let hs := [Happening.arrive, .advance false, .advance false, .arrive, .advance false,
      .advance false, .advance false, .advance false, .advance false, .advance false,
      .advance false]
    Guarded (step 3) Single {} hs ∧ Always (step 3) Served {} hs := by
  intro hs
  have single : Guarded (step 3) Single {} hs := by
    simp only [hs, Guarded, Single, and_true]
    decide
  exact ⟨single, (served_iff_single 3 hs).1 single⟩

/-- Two connections complete before the first `wait` returns: one of them is left behind. -/
theorem two_arrivals_one_accepted :
    ¬ ∀ (native : Int) (hs : List Happening), Always (step native) Served {} hs := by
  intro all
  have served := (all 3 [.arrive, .arrive, .advance false, .advance false, .advance false,
    .advance false, .advance false]).last
  exact absurd (served rfl 1 (by decide)) (by decide)

end Acceptor
end OsterLib.Network
