import OsterLib.Lib.Run
import Mathlib.Logic.Function.Basic

/-!
# Writing a file

`safe_write_to_file` of `filesystem.h`, called any number of times in one directory, at the same time or one behind the
other. Every access of the file system is a step, so that a call that is never gone on with is one whose process has
ended there. The name of the temporary file is the bytes of a random UUID, up to the first zero among them.

Where these names are those of no other files (`Fresh`), a file has what it had before until a call has removed it. From
then on it has what one call has written as a whole, as far as `close` stored it, which nobody tests, or it is missing,
while a call has not renamed its own yet or could not (`run_whole`).
-/

namespace OsterLib.SafeWrite
open OsterLib.Lib

/-- Where a call is: before the temporary file is open, in the predicate, at `close`, at `remove` and `rename` of a call
    that goes well, at `close` and `remove` of one that does not, or at its end. An exception of `remove` is caught
    where the predicate has returned. -/
inductive Stage where
  | opening
  | writing
  | closing
  | removing
  | moving
  | cancelling (caught : Bool)
  | dropping (caught : Bool)
  | succeeded
  | notOpened
  | cancelled
  | removeThrew
  | renameThrew
  | dropThrew
  deriving DecidableEq, Repr

/-- The name of a file in the directory -/
abbrev Name := List UInt8

/-- A path is handed on as a string that ends with its first zero. -/
def nameOf (str : List UInt8) : Name := str.takeWhile (· ≠ 0)

/-- The file that a call is to write, and the bytes of its random UUID -/
structure Call where
  filename : List UInt8
  genFnStr : List UInt8
  deriving DecidableEq, Repr

/-- The file -/
def Call.target (c : Call) : Name := nameOf c.filename

/-- The temporary file -/
def Call.temp (c : Call) : Name := nameOf c.genFnStr

/-- A call, with what the predicate has written, how much of it is in the file, and whether `close` stored the rest. -/
structure Writer where
  call : Call
  stage : Stage := .opening
  written : List UInt8 := []
  stored : Nat := 0
  flushed : Bool := false
  deriving DecidableEq, Repr

/-- The files of the directory, by their names, and all calls, by their numbers -/
structure Directory where
  files : Name → Option (List UInt8)
  writers : List Writer := []

/-- How the predicate ends -/
inductive Ending where
  | returnsFalse
  | returnsTrue
  | throws
  deriving DecidableEq, Repr

/-- What a call does next, and what the file system makes of it -/
inductive Access where
  | openFile (granted : Bool)
  | write (bytes : List UInt8)
  | store (number : Nat)
  | finish (ending : Ending)
  | close (flushed : Bool)
  | remove (granted : Bool)
  | rename (granted : Bool)
  deriving DecidableEq, Repr

/-- A new call, or a step of one -/
inductive Move where
  | call (call : Call)
  | access (number : Nat) (access : Access)
  deriving DecidableEq, Repr

/-- What an access does to the files -/
inductive Effect where
  | nothing
  | put (bytes : List UInt8)
  | removeTemp
  | removeFile
  | rename
  deriving DecidableEq, Repr

namespace Writer

/-- What a call has in its file -/
def content (w : Writer) : List UInt8 := w.written.take w.stored

/-- What an access makes of a call, and of the files -/
def act (w : Writer) : Access → Writer × Effect
  | .openFile granted =>
    match w.stage, granted with
    | .opening, true => ({ w with stage := .writing }, .put [])
    | .opening, false => ({ w with stage := .notOpened }, .nothing)
    | _, _ => (w, .nothing)
  | .write bytes =>
    match w.stage with
    | .writing => ({ w with written := w.written ++ bytes }, .nothing)
    | _ => (w, .nothing)
  | .store number =>
    match w.stage with
    | .writing =>
      let w := { w with stored := min (w.stored + number) w.written.length }
      (w, .put w.content)
    | _ => (w, .nothing)
  | .finish ending =>
    match w.stage, ending with
    | .writing, .returnsFalse => ({ w with stage := .closing }, .nothing)
    | .writing, .returnsTrue => ({ w with stage := .cancelling false }, .nothing)
    | .writing, .throws => ({ w with stage := .cancelling true }, .nothing)
    | _, _ => (w, .nothing)
  | .close flushed =>
    let stored := if flushed then w.written.length else w.stored
    match w.stage with
    | .closing =>
      let w := { w with stage := .removing, stored, flushed }
      (w, .put w.content)
    | .cancelling caught =>
      let w := { w with stage := .dropping caught, stored, flushed }
      (w, .put w.content)
    | _ => (w, .nothing)
  | .remove granted =>
    match w.stage, granted with
    | .removing, true => ({ w with stage := .moving }, .removeFile)
    | .removing, false => ({ w with stage := .removeThrew }, .nothing)
    | .dropping _, true => ({ w with stage := .cancelled }, .removeTemp)
    | .dropping caught, false => ({ w with stage := if caught then .dropThrew else .dropping true }, .nothing)
    | _, _ => (w, .nothing)
  | .rename granted =>
    match w.stage, granted with
    | .moving, true => ({ w with stage := .succeeded }, .rename)
    | .moving, false => ({ w with stage := .renameThrew }, .nothing)
    | _, _ => (w, .nothing)

end Writer

/-- What becomes of the temporary file of a call, and of the file that it is to write -/
def Effect.apply (call : Call) (files : Name → Option (List UInt8)) : Effect → Name → Option (List UInt8)
  | nothing => files
  | put bytes => Function.update files call.temp (some bytes)
  | removeTemp => Function.update files call.temp none
  | removeFile => Function.update files call.target none
  | rename =>
    if call.temp = call.target then files
    else Function.update (Function.update files call.target (files call.temp)) call.temp none

/-- A file that is not there cannot be renamed. -/
def Directory.allow (d : Directory) (w : Writer) : Access → Access
  | .rename granted => .rename (granted && (d.files w.call.temp).isSome)
  | access => access

/-- A step of the directory -/
def Directory.step (d : Directory) : Move → Directory
  | .call call => { d with writers := d.writers ++ [{ call }] }
  | .access number access =>
    match d.writers[number]? with
    | none => d
    | some w =>
      let (w', effect) := w.act (d.allow w access)
      ⟨effect.apply w.call d.files, d.writers.set number w'⟩

/-- The calls that are made -/
def calls (moves : List Move) : List Call :=
  moves.filterMap fun
    | .call call => some call
    | .access _ _ => none

/-- The names of the temporary files are those of no other files: not of those of other calls, of those that any call is
    to write, nor of those that are there. Without a slash, a name is one of the directory. -/
structure Fresh (initial : Name → Option (List UInt8)) (calls : List Call) : Prop where
  apart : calls.Pairwise fun c c' => c.temp ≠ c'.temp
  targets : ∀ c ∈ calls, ∀ c' ∈ calls, c.temp ≠ c'.target
  unused : ∀ c ∈ calls, initial c.temp = none
  inside : ∀ c ∈ calls, 47 ∉ c.temp ∧ 47 ∉ c.target

/-! ## What a file has -/

/-- Between `remove` and the end of `rename`, or where `rename` has thrown -/
def Stage.between : Stage → Bool
  | moving | renameThrew => true
  | _ => false

/-- A call that has removed the file -/
def Writer.Removed (w : Writer) (f : Name) : Prop :=
  w.call.target = f ∧ (w.stage.between = true ∨ w.stage = .succeeded)

/-- The file is the old one, or what one call has written as a whole, and is missing only between two steps. -/
structure Whole (initial : Name → Option (List UInt8)) (d : Directory) (f : Name) : Prop where
  old : (∀ w ∈ d.writers, ¬ w.Removed f) → d.files f = initial f
  content : (∃ w ∈ d.writers, w.Removed f) → ∀ bytes ∈ d.files f, ∃ w ∈ d.writers,
    w.call.target = f ∧ w.stage = .succeeded ∧ bytes = w.content ∧ (w.flushed = true → bytes = w.written)
  missing : (∃ w ∈ d.writers, w.Removed f) → d.files f = none → ∃ w ∈ d.writers,
    w.call.target = f ∧ w.stage.between = true

/-- A call that has succeeded and is the only one for its file, which `close` has stored -/
lemma Whole.succeeded {initial : Name → Option (List UInt8)} {d : Directory} {w : Writer}
    (whole : Whole initial d w.call.target) (mem : w ∈ d.writers) (stage : w.stage = .succeeded)
    (only : ∀ v ∈ d.writers, v.call.target = w.call.target → v = w) (flushed : w.flushed = true) :
    d.files w.call.target = some w.written := by
  have removed : ∃ v ∈ d.writers, v.Removed w.call.target := ⟨w, mem, rfl, .inr stage⟩
  cases now : d.files w.call.target with
  | none =>
    obtain ⟨v, mem', same, between⟩ := whole.missing removed now
    rw [only v mem' same, stage] at between
    cases between
  | some bytes =>
    obtain ⟨v, mem', same, -, -, stored⟩ := whole.content removed bytes now
    rw [only v mem' same] at stored
    rw [stored flushed]

/-- A file that was removed and that no call has renamed its own to, as where `rename` has thrown, is lost. -/
lemma Whole.lost {initial : Name → Option (List UInt8)} {d : Directory} {f : Name} (whole : Whole initial d f)
    (removed : ∃ w ∈ d.writers, w.Removed f)
    (unrenamed : ∀ w ∈ d.writers, w.call.target = f → w.stage ≠ .succeeded) : d.files f = none := by
  cases now : d.files f with
  | none => rfl
  | some bytes =>
    obtain ⟨w, mem, same, stage, -⟩ := whole.content removed bytes now
    exact absurd stage (unrenamed w mem same)

/-- The calls that leave their temporary file behind -/
def Stage.leaves : Stage → Bool
  | opening | succeeded | notOpened | cancelled => false
  | _ => true

/-- What is in the temporary file of a call -/
def Writer.temp (w : Writer) : Option (List UInt8) := if w.stage.leaves then some w.content else none

/-- What is in the file of a call is a front part of what has been written, and all of it once `close` has stored it. -/
structure Writer.Proper (w : Writer) : Prop where
  fresh : w.stage = .opening → w.stored = 0
  within : w.stored ≤ w.written.length
  whole : w.flushed = true → w.content = w.written ∧ w.stage ≠ .opening ∧ w.stage ≠ .writing

section steps
variable {w w' : Writer} {access : Access} {effect : Effect} {d : Directory} {number : Nat} {call : Call}
  {initial : Name → Option (List UInt8)} {f : Name} {before after : List Call}

/-- What an access of a call leaves, which touches its temporary file only -/
structure Private (w w' : Writer) (effect : Effect) : Prop where
  call : w'.call = w.call
  stages : w.stage ≠ .succeeded ∧ w'.stage ≠ .succeeded ∧ w'.stage.between = w.stage.between
  temp : (effect = .nothing ∧ w'.temp = w.temp) ∨ (∃ bytes, effect = .put bytes ∧ w'.temp = some bytes) ∨
    (effect = .removeTemp ∧ w'.temp = none)

/-- What an access can do -/
inductive Acts (w : Writer) : Writer × Effect → Prop
  | idle : Acts w (w, .nothing)
  | alone {w' : Writer} {effect : Effect} (alone : Private w w' effect) (proper : w'.Proper) : Acts w (w', effect)
  | removes (stage : w.stage = .removing) : Acts w ({ w with stage := .moving }, .removeFile)
  | renames (stage : w.stage = .moving) : Acts w ({ w with stage := .succeeded }, .rename)

/-- A call that goes on to another stage with what it has -/
lemma Writer.Proper.goesOn {stage : Stage} (proper : w.Proper) (opened : stage ≠ .opening)
    (writes : stage = .writing → w.stage = .opening) : Writer.Proper { w with stage } := by
  refine ⟨fun same => absurd same opened, proper.within, fun flushed => ?_⟩
  obtain ⟨whole, old, -⟩ := proper.whole flushed
  exact ⟨whole, opened, fun same => old (writes same)⟩

/-- A stage that leaves the same files behind does nothing to them. -/
lemma Acts.goesOn {old stage : Stage} (proper : w.Proper) (at_ : w.stage = old) (leaves : old.leaves = stage.leaves)
    (stages : old ≠ .succeeded ∧ stage ≠ .succeeded ∧ stage.between = old.between)
    (opened : stage ≠ .opening) (writes : stage = .writing → old = .opening) :
    Acts w ({ w with stage }, .nothing) := by
  subst at_
  refine .alone ⟨rfl, stages, .inl ⟨rfl, ?_⟩⟩ (proper.goesOn opened writes)
  rw [Writer.temp, Writer.temp, leaves]
  rfl

/-- Every access of a writer is one of its acts. -/
lemma act_acts (proper : w.Proper) (access : Access) : Acts w (w.act access) := by
  cases access with
  | openFile granted =>
    unfold Writer.act
    dsimp only
    split
    case h_1 stage =>
      refine .alone ⟨rfl, by rw [stage]; exact ⟨nofun, nofun, rfl⟩, .inr (.inl ⟨[], rfl, ?_⟩)⟩
        (proper.goesOn nofun fun _ => stage)
      exact congrArg (fun stored => some (w.written.take stored)) (proper.fresh stage)
    case h_2 stage => exact .goesOn proper stage rfl ⟨nofun, nofun, rfl⟩ nofun nofun
    case h_3 => exact .idle
  | write bytes =>
    unfold Writer.act
    dsimp only
    split
    case h_1 stage =>
      have front : (w.written ++ bytes).take w.stored = w.written.take w.stored :=
        List.take_append_of_le_length proper.within
      refine .alone ⟨rfl, by rw [stage]; exact ⟨nofun, nofun, rfl⟩, .inl ⟨rfl, ?_⟩⟩ ⟨proper.fresh, ?_, ?_⟩
      · rw [Writer.temp, Writer.temp, Writer.content, front]
        rfl
      · rw [List.length_append]
        exact Nat.le_add_right_of_le proper.within
      · exact fun flushed => absurd stage (proper.whole flushed).2.2
    case h_2 => exact .idle
  | store number =>
    unfold Writer.act
    dsimp only
    split
    case h_1 stage =>
      refine .alone ⟨rfl, by rw [stage]; exact ⟨nofun, nofun, rfl⟩, .inr (.inl ⟨_, rfl, ?_⟩)⟩
        ⟨fun opening => ?_, Nat.min_le_right _ _, fun flushed => absurd stage (proper.whole flushed).2.2⟩
      · rw [Writer.temp, stage]
        rfl
      · rw [stage] at opening
        cases opening
    case h_2 => exact .idle
  | finish ending =>
    unfold Writer.act
    dsimp only
    split
    case h_1 stage => exact .goesOn proper stage rfl ⟨nofun, nofun, rfl⟩ nofun nofun
    case h_2 stage => exact .goesOn proper stage rfl ⟨nofun, nofun, rfl⟩ nofun nofun
    case h_3 stage => exact .goesOn proper stage rfl ⟨nofun, nofun, rfl⟩ nofun nofun
    case h_4 => exact .idle
  | close flushed =>
    have stores {stage : Stage} (stages : w.stage ≠ .succeeded ∧ stage ≠ .succeeded ∧ stage.between = w.stage.between)
        (leaves : stage.leaves = true) (opened : stage ≠ .opening) (ended : stage ≠ .writing) :
        let stored := if flushed then w.written.length else w.stored
        let w' := { w with stage, stored, flushed }
        Acts w (w', .put w'.content) := by
      refine .alone ⟨rfl, stages, .inr (.inl ⟨_, rfl, ?_⟩)⟩
        ⟨fun same => absurd same opened, ?_, fun flushed' => ⟨?_, opened, ended⟩⟩
      · rw [Writer.temp, leaves]
        rfl
      · dsimp only
        split
        · exact Nat.le_refl _
        · exact proper.within
      · obtain rfl : flushed = true := flushed'
        exact List.take_length
    unfold Writer.act
    dsimp only
    split
    case h_1 stage => exact stores (by rw [stage]; exact ⟨nofun, nofun, rfl⟩) rfl nofun nofun
    case h_2 stage => exact stores (by rw [stage]; exact ⟨nofun, nofun, rfl⟩) rfl nofun nofun
    case h_3 => exact .idle
  | remove granted =>
    unfold Writer.act
    dsimp only
    split
    case h_1 stage => exact .removes stage
    case h_2 stage => exact .goesOn proper stage rfl ⟨nofun, nofun, rfl⟩ nofun nofun
    case h_3 stage =>
      exact .alone ⟨rfl, by rw [stage]; exact ⟨nofun, nofun, rfl⟩, .inr (.inr ⟨rfl, rfl⟩)⟩ (proper.goesOn nofun nofun)
    case h_4 caught stage =>
      cases caught with
      | true => exact .goesOn proper stage rfl ⟨nofun, nofun, rfl⟩ nofun nofun
      | false => exact .goesOn proper stage rfl ⟨nofun, nofun, rfl⟩ nofun nofun
    case h_5 => exact .idle
  | rename granted =>
    unfold Writer.act
    dsimp only
    split
    case h_1 stage => exact .renames stage
    case h_2 stage => exact .goesOn proper stage rfl ⟨nofun, nofun, rfl⟩ nofun nofun
    case h_3 => exact .idle

/-- What is known of all files, and of all calls -/
structure Sound (initial : Name → Option (List UInt8)) (d : Directory) : Prop where
  temps : ∀ (n : Nat) (w : Writer), d.writers[n]? = some w → d.files w.call.temp = w.temp
  proper : ∀ w ∈ d.writers, w.Proper
  whole : ∀ f, (∀ w ∈ d.writers, w.call.temp ≠ f) → Whole initial d f

/-- A call stays the same. -/
lemma Acts.sameCall {next : Writer × Effect} (acts : Acts w next) : next.1.call = w.call := by
  cases acts with
  | idle => rfl
  | alone alone proper => exact alone.call
  | removes stage => rfl
  | renames stage => rfl

/-- What is in its file stays a front part of what has been written. -/
lemma Acts.proper {next : Writer × Effect} (proper : w.Proper) (acts : Acts w next) : next.1.Proper := by
  cases acts with
  | idle => exact proper
  | alone alone proper' => exact proper'
  | removes stage => exact proper.goesOn nofun nofun
  | renames stage => exact proper.goesOn nofun nofun

/-- A file that is neither the temporary one of a call nor the one it is to write -/
lemma apply_other (effect : Effect) (files : Name → Option (List UInt8)) (temp : f ≠ call.temp)
    (target : f ≠ call.target) : effect.apply call files f = files f := by
  cases effect with
  | nothing => rfl
  | put bytes => exact Function.update_of_ne temp _ _
  | removeTemp => exact Function.update_of_ne temp _ _
  | removeFile => exact Function.update_of_ne target _ _
  | rename =>
    unfold Effect.apply
    dsimp only
    split
    · rfl
    · exact (Function.update_of_ne temp _ _).trans (Function.update_of_ne target _ _)

/-- What an access leaves of its temporary file -/
lemma apply_temp {next : Writer × Effect} (acts : Acts w next) {files : Name → Option (List UInt8)}
    (apart : call.temp ≠ call.target) (temp : files call.temp = w.temp) :
    next.2.apply call files call.temp = next.1.temp := by
  cases acts with
  | idle => exact temp
  | alone alone proper =>
    rcases alone.temp with ⟨rfl, same⟩ | ⟨bytes, rfl, new⟩ | ⟨rfl, gone⟩
    · exact temp.trans same.symm
    · exact (Function.update_self _ _ _).trans new.symm
    · exact (Function.update_self _ _ _).trans gone.symm
  | removes stage =>
    refine (Function.update_of_ne apart _ _).trans (temp.trans ?_)
    rw [Writer.temp, Writer.temp, stage]
    rfl
  | renames stage =>
    unfold Effect.apply
    dsimp only
    rw [if_neg apart]
    exact Function.update_self _ _ _

/-- An access of the temporary file only -/
lemma Private.apply_target (alone : Private w w' effect) (files : Name → Option (List UInt8)) (other : f ≠ call.temp) :
    effect.apply call files f = files f := by
  rcases alone.temp with ⟨rfl, -⟩ | ⟨bytes, rfl, -⟩ | ⟨rfl, -⟩
  · rfl
  · exact Function.update_of_ne other _ _
  · exact Function.update_of_ne other _ _

/-- A call that is still there when one of them goes on -/
lemma kept {P : Writer → Prop} {writers : List Writer} (at_ : writers[number]? = some w) (same : P w → P w')
    (found : ∃ v ∈ writers, P v) : ∃ v ∈ writers.set number w', P v := by
  obtain ⟨v, mem, holds⟩ := found
  obtain ⟨n, there⟩ := List.mem_iff_getElem?.mp mem
  by_cases here : n = number
  · subst here
    rw [at_] at there
    cases there
    exact ⟨w', List.mem_set (List.getElem?_eq_some_iff.mp at_).1 _, same holds⟩
  · refine ⟨v, List.mem_iff_getElem?.mpr ⟨n, ?_⟩, holds⟩
    rw [List.getElem?_set_ne (Ne.symm here)]
    exact there

/-- A step of a call keeps what is known of each file that is no temporary one. -/
lemma Whole.accessed {next : Writer × Effect} (whole : Whole initial d f) (at_ : d.writers[number]? = some w)
    (proper : w.Proper) (other : f ≠ w.call.temp) (apart : w.call.temp ≠ w.call.target)
    (temp : d.files w.call.temp = w.temp) (acts : Acts w next) :
    Whole initial ⟨next.2.apply w.call d.files, d.writers.set number next.1⟩ f := by
  have there : next.1 ∈ d.writers.set number next.1 := List.mem_set (List.getElem?_eq_some_iff.mp at_).1 _
  have target : next.1.call.target = w.call.target := congrArg Call.target acts.sameCall
  -- where the step leaves the file alone, the same calls account for it
  have rest (keeps : w.call.target = f → w.stage ≠ .succeeded ∧ next.1.stage ≠ .succeeded ∧
        next.1.stage.between = w.stage.between) (same : next.2.apply w.call d.files f = d.files f) :
      Whole initial ⟨next.2.apply w.call d.files, d.writers.set number next.1⟩ f := by
    have forth (removed : w.Removed f) : next.1.Removed f := by
      obtain ⟨differs, -, between⟩ := keeps removed.1
      exact ⟨target.trans removed.1, .inl (between.trans (removed.2.resolve_right differs))⟩
    have back (removed : ∃ v ∈ d.writers.set number next.1, v.Removed f) : ∃ v ∈ d.writers, v.Removed f := by
      obtain ⟨v, mem, removed⟩ := removed
      rcases List.mem_or_eq_of_mem_set mem with old | rfl
      · exact ⟨v, old, removed⟩
      · have own := target.symm.trans removed.1
        obtain ⟨-, differs, between⟩ := keeps own
        exact ⟨w, List.mem_of_getElem? at_, own, .inl (between.symm.trans (removed.2.resolve_right differs))⟩
    refine ⟨fun all => ?_, fun removed bytes mem => ?_, fun removed none => ?_⟩
    · refine same.trans (whole.old fun v mem removed => ?_)
      obtain ⟨v', mem', removed'⟩ := kept (P := (·.Removed f)) at_ forth ⟨v, mem, removed⟩
      exact all v' mem' removed'
    · refine kept at_ (fun holds => ?_) (whole.content (back removed) bytes (same ▸ mem))
      exact absurd holds.2.1 (keeps holds.1).1
    · refine kept at_ (fun holds => ?_) (whole.missing (back removed) (same.symm.trans none))
      exact ⟨target.trans holds.1, (keeps holds.1).2.2.trans holds.2⟩
  cases acts with
  | idle =>
    have here : d.writers.set number w = d.writers := by
      obtain ⟨inside, rfl⟩ := List.getElem?_eq_some_iff.mp at_
      exact List.set_getElem_self inside
    change Whole initial ⟨d.files, d.writers.set number w⟩ f
    rw [here]
    exact whole
  | @alone w' effect alone proper' => exact rest (fun _ => alone.stages) (alone.apply_target _ other)
  | removes stage =>
    by_cases own : f = w.call.target
    · have gone : Effect.removeFile.apply w.call d.files f = none := by
        rw [own]
        exact Function.update_self _ _ _
      refine ⟨fun all => absurd ⟨own.symm, .inl rfl⟩ (all _ there), fun _ bytes mem => ?_, fun _ _ => ?_⟩
      · cases gone.symm.trans mem
      · exact ⟨_, there, own.symm, rfl⟩
    · exact rest (fun same => absurd same.symm own) (apply_other _ _ other own)
  | renames stage =>
    by_cases own : f = w.call.target
    · -- the file is now the temporary one, with all that the call has in it
      have renamed : Effect.rename.apply w.call d.files f = some w.content := by
        unfold Effect.apply
        dsimp only
        rw [own, if_neg apart]
        refine (Function.update_of_ne apart.symm _ _).trans ((Function.update_self _ _ _).trans (temp.trans ?_))
        rw [Writer.temp, stage]
        rfl
      refine ⟨fun all => absurd ⟨own.symm, .inr rfl⟩ (all _ there), fun _ bytes mem => ?_, fun _ none => ?_⟩
      · cases renamed.symm.trans mem
        exact ⟨_, there, own.symm, rfl, rfl, fun flushed => (proper.whole flushed).1⟩
      · cases renamed.symm.trans none
    · exact rest (fun same => absurd same.symm own) (apply_other _ _ other own)

/-- Of calls, those that are made first have fresh names, too. -/
lemma Fresh.left (fresh : Fresh initial (before ++ after)) : Fresh initial before :=
  ⟨(List.pairwise_append.mp fresh.apart).1,
    fun c mem c' mem' => fresh.targets c (List.mem_append_left _ mem) c' (List.mem_append_left _ mem'),
    fun c mem => fresh.unused c (List.mem_append_left _ mem), fun c mem => fresh.inside c (List.mem_append_left _ mem)⟩

/-- Two calls have different temporary files. -/
lemma Fresh.temp_ne {writers : List Writer} (fresh : Fresh initial (writers.map (·.call))) {n m : Nat} {v : Writer}
    (at_ : writers[n]? = some v) (at' : writers[m]? = some w) (other : n ≠ m) : v.call.temp ≠ w.call.temp := by
  obtain ⟨inside, rfl⟩ := List.getElem?_eq_some_iff.mp at_
  obtain ⟨inside', rfl⟩ := List.getElem?_eq_some_iff.mp at'
  have apart := List.pairwise_iff_getElem.mp (List.pairwise_map.mp fresh.apart)
  rcases Nat.lt_or_gt_of_ne other with lt | gt
  · exact apart n m inside inside' lt
  · exact (apart m n inside' inside gt).symm

/-- No call is to write the temporary file of one. -/
lemma Fresh.target_ne {writers : List Writer} (fresh : Fresh initial (writers.map (·.call))) {v : Writer}
    (mem : v ∈ writers) (mem' : w ∈ writers) : v.call.temp ≠ w.call.target :=
  fresh.targets _ (List.mem_map_of_mem mem) _ (List.mem_map_of_mem mem')

/-- A new call has no file yet. -/
lemma Sound.called (sound : Sound initial d) (fresh : Fresh initial (d.writers.map (·.call) ++ [call])) :
    Sound initial (d.step (.call call)) := by
  have mine : call ∈ d.writers.map (·.call) ++ [call] := List.mem_append_right _ List.mem_cons_self
  have theirs {w : Writer} (mem : w ∈ d.writers) : w.call ∈ d.writers.map (·.call) ++ [call] :=
    List.mem_append_left _ (List.mem_map_of_mem mem)
  have idle (f : Name) : ¬ ({ call } : Writer).Removed f := fun removed => by
    rcases removed.2 with between | succeeded
    · cases between
    · cases succeeded
  refine ⟨fun n v at_ => ?_, fun v mem => ?_, fun f others => ?_⟩
  · change (d.writers ++ [({ call } : Writer)])[n]? = some v at at_
    change d.files v.call.temp = v.temp
    rcases Nat.lt_or_ge n d.writers.length with inside | behind
    · rw [List.getElem?_append_left inside] at at_
      exact sound.temps n v at_
    · rw [List.getElem?_append_right behind, List.getElem?_singleton] at at_
      split at at_
      case isTrue last =>
        -- no call has touched the name, which was free at the beginning
        cases at_
        have new (w : Writer) (mem : w ∈ d.writers) : w.call.temp ≠ call.temp :=
          (List.pairwise_append.mp fresh.apart).2.2 w.call (List.mem_map_of_mem mem) call List.mem_cons_self
        have untouched := (sound.whole call.temp new).old fun w mem removed =>
          fresh.targets call mine w.call (theirs mem) removed.1.symm
        exact untouched.trans (fresh.unused call mine)
      case isFalse => cases at_
  · rcases List.mem_append.mp mem with old | new
    · exact sound.proper v old
    · cases List.mem_singleton.mp new
      exact ⟨fun _ => rfl, Nat.le_refl _, nofun⟩
  · have whole := sound.whole f fun w mem => others w (List.mem_append_left _ mem)
    have back (removed : ∃ v ∈ d.writers ++ [({ call } : Writer)], v.Removed f) : ∃ v ∈ d.writers, v.Removed f := by
      obtain ⟨v, mem, removed⟩ := removed
      rcases List.mem_append.mp mem with old | new
      · exact ⟨v, old, removed⟩
      · cases List.mem_singleton.mp new
        exact absurd removed (idle f)
    refine ⟨fun all => ?_, fun removed bytes mem => ?_, fun removed none => ?_⟩
    · exact whole.old fun v mem => all v (List.mem_append_left _ mem)
    · obtain ⟨v, mem, holds⟩ := whole.content (back removed) bytes mem
      exact ⟨v, List.mem_append_left _ mem, holds⟩
    · obtain ⟨v, mem, holds⟩ := whole.missing (back removed) none
      exact ⟨v, List.mem_append_left _ mem, holds⟩

/-- A step of one call leaves the temporary files of the others alone. -/
lemma Sound.accessed (sound : Sound initial d) (fresh : Fresh initial (d.writers.map (·.call)))
    (at_ : d.writers[number]? = some w) (access : Access) :
    Sound initial ⟨(w.act access).2.apply w.call d.files, d.writers.set number (w.act access).1⟩ := by
  have mem := List.mem_of_getElem? at_
  have proper := sound.proper w mem
  have acts := act_acts proper access
  have apart : w.call.temp ≠ w.call.target := fresh.target_ne mem mem
  have temp := sound.temps number w at_
  refine ⟨fun n v at' => ?_, fun v mem' => ?_, fun f others => ?_⟩
  · dsimp only at at' ⊢
    by_cases here : n = number
    · subst here
      rw [List.getElem?_set_self (List.getElem?_eq_some_iff.mp at_).1, Option.some.injEq] at at'
      rw [← at', acts.sameCall]
      exact apply_temp acts apart temp
    · rw [List.getElem?_set_ne (Ne.symm here)] at at'
      rw [apply_other _ _ (fresh.temp_ne at' at_ here) (fresh.target_ne (List.mem_of_getElem? at') mem)]
      exact sound.temps n v at'
  · rcases List.mem_or_eq_of_mem_set mem' with old | rfl
    · exact sound.proper v old
    · exact acts.proper proper
  · have own : f ≠ w.call.temp := by
      have set := others _ (List.mem_set (List.getElem?_eq_some_iff.mp at_).1 _)
      rw [acts.sameCall] at set
      exact set.symm
    refine (sound.whole f fun v mem' => ?_).accessed at_ proper own apart temp acts
    obtain ⟨v', mem'', same⟩ := kept (P := fun v' => v'.call = v.call) at_ acts.sameCall.trans ⟨v, mem', rfl⟩
    rw [← same]
    exact others v' mem''

/-- A step goes on with the calls that there are. -/
lemma step_access (sound : Sound initial d) (fresh : Fresh initial (d.writers.map (·.call))) (access : Access) :
    Sound initial (d.step (.access number access)) ∧
      (d.step (.access number access)).writers.map (·.call) = d.writers.map (·.call) := by
  unfold Directory.step
  dsimp only
  split
  case h_1 => exact ⟨sound, rfl⟩
  case h_2 w at_ =>
    refine ⟨sound.accessed fresh at_ _, ?_⟩
    have acts := act_acts (sound.proper w (List.mem_of_getElem? at_)) (d.allow w access)
    obtain ⟨inside, rfl⟩ := List.getElem?_eq_some_iff.mp at_
    rw [List.map_set, acts.sameCall]
    refine List.ext_getElem? fun n => ?_
    by_cases here : n = number
    · subst here
      rw [List.getElem?_set_self (by rwa [List.length_map]), List.getElem?_map, List.getElem?_eq_getElem inside]
      rfl
    · rw [List.getElem?_set_ne (Ne.symm here)]

/-- What is known of all files and calls is kept along a run. -/
lemma Sound.run {moves : List Move} (sound : Sound initial d)
    (fresh : Fresh initial (d.writers.map (·.call) ++ calls moves)) :
    Sound initial (run Directory.step d moves) ∧
      (run Directory.step d moves).writers.map (·.call) = d.writers.map (·.call) ++ calls moves := by
  induction moves generalizing d with
  | nil => exact ⟨sound, (List.append_nil _).symm⟩
  | cons move moves ih =>
    rw [run_cons]
    cases move with
    | call call =>
      have made : (d.step (.call call)).writers.map (·.call) = d.writers.map (·.call) ++ [call] := List.map_append
      have split : d.writers.map (·.call) ++ calls (.call call :: moves) =
          (d.step (.call call)).writers.map (·.call) ++ calls moves := by
        rw [made, List.append_assoc]
        rfl
      rw [split] at fresh ⊢
      exact ih (sound.called (made ▸ fresh.left)) fresh
    | access number access =>
      obtain ⟨sound', same⟩ := step_access sound fresh.left access
      change Fresh initial (d.writers.map (·.call) ++ calls moves) at fresh
      change _ ∧ _ = d.writers.map (·.call) ++ calls moves
      rw [← same] at fresh ⊢
      exact ih sound' fresh

end steps

/-- Whatever calls are made, and wherever they stop, as long as the names of their temporary files are those of no other
    files: every other file is whole, and a temporary file is left only by a call that has stopped or thrown. -/
theorem run_whole (initial : Name → Option (List UInt8)) (moves : List Move) (fresh : Fresh initial (calls moves)) :
    let d := run Directory.step { files := initial } moves
    (∀ f, (∀ c ∈ calls moves, c.temp ≠ f) → Whole initial d f) ∧
      ∀ w ∈ d.writers, d.files w.call.temp = w.temp := by
  intro d
  have first : Sound initial { files := initial } := by
    refine ⟨nofun, nofun, fun f _ => ⟨fun _ => rfl, fun removed => ?_, fun removed => ?_⟩⟩
    · obtain ⟨v, mem, -⟩ := removed
      cases mem
    · obtain ⟨v, mem, -⟩ := removed
      cases mem
  obtain ⟨sound, made⟩ := first.run fresh
  refine ⟨fun f others => sound.whole f fun w mem => others w.call ?_, fun w mem => ?_⟩
  · have all : d.writers.map (·.call) = calls moves := made
    rw [← all]
    exact List.mem_map_of_mem mem
  · obtain ⟨n, at_⟩ := List.mem_iff_getElem?.mp mem
    exact sound.temps n w at_

/-- One file is written by a call, and the call for another one has stopped while its own file was open. -/
theorem run_whole_stopped :
    (run Directory.step { files := fun _ => none }
      [.call ⟨[97], [1, 2]⟩, .call ⟨[98], [3, 0, 2]⟩, .access 0 (.openFile true), .access 1 (.openFile true),
        .access 0 (.write [7, 8]), .access 1 (.write [9]), .access 1 (.store 1), .access 0 (.finish .returnsFalse),
        .access 0 (.close true), .access 0 (.remove true), .access 0 (.rename true)]).files [97] = some [7, 8] := by
  let moves : List Move :=
    [.call ⟨[97], [1, 2]⟩, .call ⟨[98], [3, 0, 2]⟩, .access 0 (.openFile true), .access 1 (.openFile true),
      .access 0 (.write [7, 8]), .access 1 (.write [9]), .access 1 (.store 1), .access 0 (.finish .returnsFalse),
      .access 0 (.close true), .access 0 (.remove true), .access 0 (.rename true)]
  have fresh : Fresh (fun _ => none) (calls moves) := ⟨by decide, by decide, fun _ _ => rfl, by decide⟩
  have whole := (run_whole (fun _ => none) moves fresh).1 [97] (by decide)
  have writers : (run Directory.step { files := fun _ => none } moves).writers =
      [⟨⟨[97], [1, 2]⟩, .succeeded, [7, 8], 2, true⟩, ⟨⟨[98], [3, 0, 2]⟩, .writing, [9], 1, false⟩] := by
    decide +kernel
  refine Whole.succeeded (w := ⟨⟨[97], [1, 2]⟩, .succeeded, [7, 8], 2, true⟩) whole ?_ rfl ?_ rfl
  · rw [writers]
    exact List.mem_cons_self
  · rw [writers]
    decide

/-- Without fresh names, a file can be emptied whose name is that of a UUID up to a zero. -/
example : (run Directory.step { files := fun name => if name = [65] then some [1] else none }
    [.call ⟨[66], [65, 0, 2]⟩, .access 0 (.openFile true)]).files [65] = some [] := by decide

end OsterLib.SafeWrite
