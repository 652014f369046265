import OsterLib.Lib.Run
import Mathlib.Data.List.ReduceOption

/-!
# The command queue of a worker

`push_command`, `push_commands` and `extract_command` of `network/abstractworker.cpp`, and `Worker::handle_pending` of
`network/threadpool.cpp`. Every access of the queue is made under the mutex and is one step here; the thread of the
worker takes the steps of `handle_pending`, and any thread pushes between them, that of the worker included while it
executes a command. A null command ends the extraction, as an empty queue does.

The commands that are not null are executed in the order in which they were pushed, and a pass that finds no null
command executes all that were there when it began (`run_in_order`).
-/

namespace OsterLib.Network
open OsterLib.Lib

/-- Where the thread of the worker is: outside of `handle_pending`, in the loop that extracts commands, or in the one
    that executes them. -/
inductive Pass (Cmd : Type) where
  | outside
  | extracting (cmds : List Cmd)
  | executing (cmds : List Cmd)
  deriving DecidableEq

/-- The queue, where a null command is `none`, with the executed commands so far. -/
structure CommandQueue (Cmd : Type) where
  cmds : List (Option Cmd) := []
  pass : Pass Cmd := .outside
  executed : List Cmd := []
  deriving DecidableEq

/-- `advance` is a step of the thread of the worker inside `handle_pending`. -/
inductive QueueMove (Cmd : Type) where
  | pushCommand (cmd : Option Cmd)
  | pushCommands (cmds : List (Option Cmd))
  | handlePending
  | advance

namespace CommandQueue
variable {Cmd : Type} {q : CommandQueue Cmd}

/-- `push_command` -/
def pushCommand (cmd : Option Cmd) (q : CommandQueue Cmd) : CommandQueue Cmd :=
  { q with cmds := q.cmds ++ [cmd] }

/-- `push_commands` -/
def pushCommands (cmds : List (Option Cmd)) (q : CommandQueue Cmd) : CommandQueue Cmd :=
  if cmds.isEmpty then q else { q with cmds := q.cmds ++ cmds }

/-- `extract_command` -/
def extractCommand (q : CommandQueue Cmd) : Option Cmd × CommandQueue Cmd :=
  match q.cmds with
  | [] => (none, q)
  | result :: cmds => (result, { q with cmds })

/-- One round of one of the two loops of `handle_pending`. -/
def advance (q : CommandQueue Cmd) : CommandQueue Cmd :=
  match q.pass with
  | .outside => q
  | .extracting cmds =>
    match q.extractCommand with
    | (some cmd, q) => { q with pass := .extracting (cmds ++ [cmd]) }
    | (none, q) => { q with pass := .executing cmds }
  | .executing (cmd :: cmds) => { q with pass := .executing cmds, executed := q.executed ++ [cmd] }
  | .executing [] => { q with pass := .outside }

/-- The thread of the worker calls `handle_pending` only outside of it. -/
def step (q : CommandQueue Cmd) : QueueMove Cmd → CommandQueue Cmd
  | .pushCommand cmd => q.pushCommand cmd
  | .pushCommands cmds => q.pushCommands cmds
  | .handlePending =>
    match q.pass with
    | .outside => { q with pass := .extracting [] }
    | _ => q
  | .advance => q.advance

/-! ## Order -/

/-- The commands that are extracted and not executed yet. -/
def extracted (q : CommandQueue Cmd) : List Cmd :=
  match q.pass with
  | .outside => []
  | .extracting cmds => cmds
  | .executing cmds => cmds

/-- The commands that the worker has or had: executed, extracted or in the queue, in this order -/
def commands (q : CommandQueue Cmd) : List Cmd := q.executed ++ q.extracted ++ q.cmds.reduceOption

end CommandQueue

/-- What a thread hands to the queue with a move -/
def QueueMove.pushes {Cmd : Type} : QueueMove Cmd → List (List (Option Cmd))
  | .pushCommand cmd => [[cmd]]
  | .pushCommands cmds => [cmds]
  | _ => []

/-- The pushes of a run, in their order -/
def QueueMove.pushesOf {Cmd : Type} (moves : List (QueueMove Cmd)) : List (List (Option Cmd)) :=
  moves.flatMap QueueMove.pushes

/-- The commands of some pushes that are not null -/
def commandsOf {Cmd : Type} (pushes : List (List (Option Cmd))) : List Cmd := pushes.flatten.reduceOption

namespace CommandQueue
variable {Cmd : Type} {q : CommandQueue Cmd}

/-- The executed commands are the first ones that were pushed, and those of one push are executed one behind the
    other, in their order. -/
def InOrder (pushes : List (List (Option Cmd))) (q : CommandQueue Cmd) : Prop :=
  q.executed <+: commandsOf pushes ∧ ∀ before batch after, pushes = before ++ batch :: after →
    ∀ i < batch.reduceOption.length, (commandsOf before).length + i < q.executed.length →
      q.executed[(commandsOf before).length + i]? = batch.reduceOption[i]?

/-- The extraction does not come to a null command. -/
def FindsNoNull (q : CommandQueue Cmd) : QueueMove Cmd → Prop
  | .advance => ∀ cmds, q.pass = .extracting cmds → q.cmds.head? ≠ some none
  | _ => True

/-- The commands of two runs of pushes -/
lemma commandsOf_append (pushes later : List (List (Option Cmd))) :
    commandsOf (pushes ++ later) = commandsOf pushes ++ commandsOf later := by
  unfold commandsOf
  rw [List.flatten_append, List.reduceOption_append]

/-- The commands of a single push -/
lemma commandsOf_singleton (cmds : List (Option Cmd)) : commandsOf [cmds] = cmds.reduceOption := by
  unfold commandsOf
  rw [List.flatten_singleton]

/-- A push puts its commands behind all others. -/
lemma commands_push (q : CommandQueue Cmd) (cmds : List (Option Cmd)) :
    commands { q with cmds := q.cmds ++ cmds } = q.commands ++ cmds.reduceOption := by
  unfold commands
  rw [List.reduceOption_append, ← List.append_assoc]
  rfl

/-- What one round of `handle_pending` does. -/
lemma advance_cases (q : CommandQueue Cmd) :
    (q.pass = .outside ∧ q.advance = q) ∨
    (∃ cmds, q.pass = .extracting cmds ∧ q.cmds = [] ∧ q.advance = { q with pass := .executing cmds }) ∨
    (∃ cmds rest, q.pass = .extracting cmds ∧ q.cmds = none :: rest ∧
      q.advance = { q with cmds := rest, pass := .executing cmds }) ∨
    (∃ cmds cmd rest, q.pass = .extracting cmds ∧ q.cmds = some cmd :: rest ∧
      q.advance = { q with cmds := rest, pass := .extracting (cmds ++ [cmd]) }) ∨
    (∃ cmd cmds, q.pass = .executing (cmd :: cmds) ∧
      q.advance = { q with pass := .executing cmds, executed := q.executed ++ [cmd] }) ∨
    (q.pass = .executing [] ∧ q.advance = { q with pass := .outside }) := by
  obtain ⟨queue, pass, executed⟩ := q
  cases pass with
  | outside => exact .inl ⟨rfl, rfl⟩
  | extracting cmds =>
    cases queue with
    | nil => exact .inr (.inl ⟨cmds, rfl, rfl, rfl⟩)
    | cons result rest =>
      cases result with
      | none => exact .inr (.inr (.inl ⟨cmds, rest, rfl, rfl, rfl⟩))
      | some cmd => exact .inr (.inr (.inr (.inl ⟨cmds, cmd, rest, rfl, rfl, rfl⟩)))
  | executing cmds =>
    cases cmds with
    | nil => exact .inr (.inr (.inr (.inr (.inr ⟨rfl, rfl⟩))))
    | cons cmd cmds => exact .inr (.inr (.inr (.inr (.inl ⟨cmd, cmds, rfl, rfl⟩))))

/-- A round moves commands on and neither drops nor adds one. -/
lemma commands_advance (q : CommandQueue Cmd) : q.advance.commands = q.commands := by
  unfold commands extracted
  obtain ⟨-, same⟩ | ⟨cmds, pass, queue, same⟩ | ⟨cmds, rest, pass, queue, same⟩ |
    ⟨cmds, cmd, rest, pass, queue, same⟩ | ⟨cmd, cmds, pass, same⟩ | ⟨pass, same⟩ := q.advance_cases
  · rw [same]
  · rw [same, pass]
  · rw [same, pass, queue]
    rfl
  · rw [same, pass, queue, List.reduceOption_cons_of_some]
    simp only [List.append_assoc, List.singleton_append]
  · rw [same, pass]
    simp only [List.append_assoc, List.nil_append, List.cons_append]
  · rw [same, pass]

/-- A pass begins with nothing extracted. -/
lemma commands_handlePending (q : CommandQueue Cmd) : (q.step .handlePending).commands = q.commands := by
  unfold CommandQueue.step
  cases pass : q.pass with
  | outside =>
    unfold commands extracted
    rw [pass]
  | _ => rfl

/-- A step adds what it pushes to the commands, and a step of the worker keeps them. -/
lemma commands_step (q : CommandQueue Cmd) (move : QueueMove Cmd) :
    (q.step move).commands = q.commands ++ commandsOf move.pushes := by
  cases move with
  | pushCommand cmd =>
    rw [QueueMove.pushes, commandsOf_singleton]
    exact q.commands_push [cmd]
  | pushCommands cmds =>
    rw [QueueMove.pushes, commandsOf_singleton]
    unfold CommandQueue.step pushCommands
    dsimp only
    split
    case isTrue empty =>
      rw [List.isEmpty_iff.mp empty]
      exact (List.append_nil _).symm
    case isFalse => exact q.commands_push cmds
  | handlePending => exact q.commands_handlePending.trans (List.append_nil _).symm
  | advance => exact q.commands_advance.trans (List.append_nil _).symm

/-- Whatever was pushed in a run is executed, extracted or in the queue, in the order of the pushes. -/
lemma commands_run (q : CommandQueue Cmd) (moves : List (QueueMove Cmd)) :
    (run step q moves).commands = q.commands ++ commandsOf (QueueMove.pushesOf moves) := by
  induction moves generalizing q with
  | nil => exact (List.append_nil _).symm
  | cons move moves ih =>
    rw [run_cons, ih, commands_step, List.append_assoc, ← commandsOf_append]
    rfl

/-- A command has its place among the pushes. -/
lemma inOrder_of_commands {pushes : List (List (Option Cmd))} (all : q.commands = commandsOf pushes) :
    q.InOrder pushes := by
  have ahead : q.executed <+: commandsOf pushes := by
    rw [← all, commands, List.append_assoc]
    exact List.prefix_append _ _
  refine ⟨ahead, fun before batch after split i lt done => ?_⟩
  have place : (commandsOf pushes)[(commandsOf before).length + i]? = batch.reduceOption[i]? := by
    rw [split, commandsOf_append, List.getElem?_append_right (Nat.le_add_right _ _), Nat.add_sub_cancel_left,
      ← List.singleton_append, commandsOf_append, commandsOf_singleton, List.getElem?_append_left lt]
  rw [← place]
  obtain ⟨later, same⟩ := ahead
  rw [← same, List.getElem?_append_left done]

/-! ## A pass -/

/-- Inside of passes that began when the queue had got `pushed`, and found no null command: once the extraction is over,
    `pushed` has been extracted or executed. -/
structure Passing (pushed : List Cmd) (q : CommandQueue Cmd) : Prop where
  ahead : pushed <+: q.commands
  taken : (∀ cmds, q.pass ≠ .extracting cmds) → pushed <+: q.executed ++ q.extracted

/-- What is pushed during a pass is behind what was there. -/
lemma Passing.push {pushed : List Cmd} (passing : Passing pushed q) (cmds : List (Option Cmd)) :
    Passing pushed { q with cmds := q.cmds ++ cmds } := by
  refine ⟨?_, passing.taken⟩
  rw [commands_push]
  exact passing.ahead.trans (List.prefix_append _ _)

/-- A round of a pass -/
lemma Passing.advance {pushed : List Cmd} (passing : Passing pushed q) (finds : q.FindsNoNull .advance) :
    Passing pushed q.advance := by
  have ahead := passing.ahead
  have taken := passing.taken
  unfold extracted at taken
  refine ⟨q.commands_advance ▸ ahead, ?_⟩
  · obtain ⟨-, same⟩ | ⟨cmds, pass, queue, same⟩ | ⟨cmds, rest, pass, queue, same⟩ |
      ⟨cmds, cmd, rest, pass, queue, same⟩ | ⟨cmd, cmds, pass, same⟩ | ⟨pass, same⟩ := q.advance_cases
    · rw [same]
      exact passing.taken
    · -- the queue is empty, so that all pushed commands are extracted or executed
      unfold commands extracted at ahead
      rw [pass, queue, List.reduceOption_nil, List.append_nil] at ahead
      rw [same]
      exact fun _ => ahead
    · exact absurd (congrArg List.head? queue) (finds cmds pass)
    · rw [same]
      exact fun passed => absurd rfl (passed _)
    · rw [pass] at taken
      rw [same]
      intro _
      change pushed <+: q.executed ++ [cmd] ++ cmds
      rw [List.append_assoc, List.singleton_append]
      exact taken nofun
    · rw [pass] at taken
      rw [same]
      exact fun _ => taken nofun

/-- A step of any thread during a pass -/
lemma Passing.step {pushed : List Cmd} (passing : Passing pushed q) {move : QueueMove Cmd}
    (finds : q.FindsNoNull move) :
    Passing pushed (q.step move) := by
  cases move with
  | pushCommand cmd => exact passing.push [cmd]
  | pushCommands cmds =>
    unfold CommandQueue.step pushCommands
    dsimp only
    split
    · exact passing
    · exact passing.push cmds
  | handlePending =>
    refine ⟨q.commands_handlePending ▸ passing.ahead, ?_⟩
    · unfold CommandQueue.step
      cases pass : q.pass with
      | outside => exact fun passed => absurd rfl (passed _)
      | _ => exact passing.taken
  | advance => exact passing.advance finds

/-! ## Runs -/

/-- In every run, the commands are executed in the order in which they were pushed, each once, and not before. A pass
    that finds no null command executes all commands that were pushed before it began. -/
theorem run_in_order (moves : List (QueueMove Cmd)) :
    InOrder (QueueMove.pushesOf moves) (run step ({} : CommandQueue Cmd) moves) ∧
      ∀ first later, moves = first ++ .handlePending :: later →
        (run step ({} : CommandQueue Cmd) first).pass = .outside →
        Guarded step FindsNoNull (step (run step {} first) .handlePending) later →
        (run step {} moves).pass = .outside →
        commandsOf (QueueMove.pushesOf first) <+: (run step ({} : CommandQueue Cmd) moves).executed := by
  refine ⟨inOrder_of_commands (commands_run {} moves), ?_⟩
  intro first later split began finds ended
  have before := commands_run ({} : CommandQueue Cmd) first
  rw [split, run_append, run_cons] at ended ⊢
  generalize run step ({} : CommandQueue Cmd) first = q at began before finds ended ⊢
  have start : Passing q.commands (step q .handlePending) := by
    refine ⟨?_, ?_⟩
    · exact q.commands_handlePending ▸ List.prefix_rfl
    · unfold CommandQueue.step
      rw [began]
      exact fun passed => absurd rfl (passed _)
  have passed := (always_of_guarded (fun _ _ passing finds => passing.step finds) start finds).last
  have taken := passed.taken (by rw [ended]; nofun)
  unfold extracted at taken
  rw [ended, List.append_nil] at taken
  have all : q.commands = commandsOf (QueueMove.pushesOf first) := before.trans (List.nil_append _)
  rw [← all]
  exact taken

/-- A command is pushed before a pass, and another one during it. -/
theorem run_in_order_pushed_between :
    let moves : List (QueueMove Nat) :=
      [.pushCommands [some 1, some 2], .handlePending, .advance, .pushCommand (some 3), .advance, .advance, .advance,
        .advance, .advance, .advance, .advance]
    InOrder [[some 1, some 2], [some 3]] (run step ({} : CommandQueue Nat) moves) ∧
      [1, 2] <+: (run step ({} : CommandQueue Nat) moves).executed := by
  intro moves
  obtain ⟨ordered, passes⟩ := run_in_order moves
  refine ⟨ordered, passes [.pushCommands [some 1, some 2]] _ rfl rfl ?_ rfl⟩
  refine ⟨fun _ _ => ?_, trivial, fun _ _ => ?_, fun _ _ => ?_, fun _ _ => ?_, fun _ _ => ?_, fun _ _ => ?_,
    fun _ _ => ?_, fun _ _ => ?_, trivial⟩
  all_goals decide

end CommandQueue
end OsterLib.Network
