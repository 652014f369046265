import Mathlib.Logic.Function.Basic
import OsterLib.Lib.Run

/-!
# Errors with context

`ContextedError` of `contexted_error.h`: an error code with a context and fields, and the text of `what`, which is kept
in `cached_string_` until something changes. An empty `cached_string_` means that there is no text yet.

A program has any number of such objects. They are constructed, copied and moved from one another, and `run_what` says
that `what` is right for all of them after every run. Strings and vectors that were moved from are empty, and a code
that was moved from is what it was.
-/

namespace OsterLib.Errors
open Lib

/-- `std::error_code`, with its category by its name -/
structure ErrorCode where
  value : Int := 0
  category : String := "system"
  deriving DecidableEq, Repr

/-- A field of the context: its name and its text -/
structure Field where
  key : String
  value : String
  deriving DecidableEq, Repr

/-- `ContextedError` -/
structure ContextedError where
  context : String := ""
  fields : List Field := []
  code : ErrorCode := {}
  cachedString : String := ""
  deriving DecidableEq, Repr

namespace ContextedError

/-- What is given to `with_field` as the value of a field. An enumeration is given by its underlying value, and a
    floating-point number by the text that `std::to_string` makes of it. -/
inductive FieldValue where
  | text (value : String)
  | integer (value : Int)
  | enumeration (underlying : Int)
  | floating (printed : String)

/-- The text of a field's value -/
def FieldValue.toText : FieldValue → String
  | text value => value
  | integer value => toString value
  | enumeration underlying => toString underlying
  | floating printed => printed

/-! ## The operations -/

/-- `make` -/
def make (ec : ErrorCode) (ctx : String) : ContextedError := { code := ec, context := ctx }

/-- What is left of an object that was moved from -/
def movedFrom (e : ContextedError) : ContextedError := { e with context := "", fields := [], cachedString := "" }

/-- `error` of an object, with a code or an enumeration that a code is made of -/
def error (_ : ContextedError) (code : ErrorCode) (ctx : String) : ContextedError :=
  { cachedString := "", fields := [], code, context := ctx }

/-- `clear` -/
def clear (_ : ContextedError) : ContextedError := { cachedString := "", code := {}, context := "", fields := [] }

/-- All overloads of `with_field` -/
def withField (e : ContextedError) (key : String) (value : FieldValue) : ContextedError :=
  let e := { e with cachedString := "" }
  if key.isEmpty then e else { e with fields := e.fields ++ [⟨key, value.toText⟩] }

/-- `with_context` -/
def withContext (e : ContextedError) (additional : String) : ContextedError :=
  let e := { e with cachedString := "" }
  if e.context.isEmpty then { e with context := additional } else { e with context := e.context ++ "; " ++ additional }

/-- The loop of `what` over the fields from `i` on -/
def appendFields : Nat → String → List Field → String
  | _, msg, [] => msg
  | i, msg, field :: fields =>
    appendFields (i + 1) ((if i > 0 then msg ++ ", " else msg) ++ field.key ++ "=" ++ field.value) fields

/-- The text that `what` makes of the code, the context and the fields. `message` is that of the categories. -/
def formatted (message : ErrorCode → String) (e : ContextedError) : String :=
  let msg := message e.code
  let msg := if e.context.isEmpty then msg else msg ++ ": " ++ e.context
  if e.fields.isEmpty then msg else appendFields 0 (msg ++ "(") e.fields ++ ")"

/-- `what`: the text behind the pointer that it returns, and the object after it -/
def what (message : ErrorCode → String) (e : ContextedError) : String × ContextedError :=
  if e.cachedString.isEmpty then (e.formatted message, { e with cachedString := e.formatted message })
  else (e.cachedString, e)

/-! ## Programs -/

/-- What a program does with its objects, which are numbered -/
inductive Action where
  | construct (id : Nat)
  | constructError (id : Nat) (code : ErrorCode) (ctx : String)
  | constructCopy (id other : Nat)
  | constructMove (id other : Nat)
  | assignCopy (id other : Nat)
  | assignMove (id other : Nat)
  | error (id : Nat) (code : ErrorCode) (ctx : String)
  | clear (id : Nat)
  | withField (id : Nat) (key : String) (value : FieldValue)
  | withContext (id : Nat) (additional : String)
  | what (id : Nat)

/-- The objects that there are -/
abbrev Objects := Nat → Option ContextedError

namespace Objects
variable {message : ErrorCode → String} {objects : Objects} {id other : Nat} {e : ContextedError}

/-- A call on an object changes this object only. -/
def modify (objects : Objects) (id : Nat) (change : ContextedError → ContextedError) : Objects :=
  match objects id with
  | some e => Function.update objects id (some (change e))
  | none => objects

/-- A copy of another object. An object that is assigned to itself stays. -/
def copy (objects : Objects) (id other : Nat) : Objects :=
  if id = other then objects
  else
    match objects other with
    | some e => Function.update objects id (some e)
    | none => objects

/-- The move assignment -/
def move (objects : Objects) (id other : Nat) : Objects :=
  if id = other then objects
  else
    match objects other with
    | some e => Function.update (Function.update objects id (some e)) other (some e.movedFrom)
    | none => objects

/-- What an action makes of the objects -/
def step (message : ErrorCode → String) (objects : Objects) : Action → Objects
  | .construct id => Function.update objects id (some {})
  | .constructError id code ctx => Function.update objects id (some (make code ctx))
  | .constructCopy id other => objects.copy id other
  | .constructMove id other => objects.move id other
  | .assignCopy id other => objects.copy id other
  | .assignMove id other => objects.move id other
  | .error id code ctx => objects.modify id fun e => e.error code ctx
  | .clear id => objects.modify id clear
  | .withField id key value => objects.modify id fun e => e.withField key value
  | .withContext id additional => objects.modify id fun e => e.withContext additional
  | .what id => objects.modify id fun e => (e.what message).2

end Objects

/-! ## The text that is kept -/

variable {message : ErrorCode → String} {e : ContextedError}

/-- There is no text yet, or it is that of the code, the context and the fields. -/
def Current (message : ErrorCode → String) (e : ContextedError) : Prop :=
  e.cachedString = "" ∨ e.cachedString = e.formatted message

/-- What is returned is the text as it is formatted now. -/
lemma what_eq (current : e.Current message) : (e.what message).1 = e.formatted message := by
  unfold what
  rcases current with none | kept
  · rw [none]
    rfl
  · split
    · rfl
    · exact kept

/-- Asking for the text keeps it current. -/
lemma current_what (current : e.Current message) : (e.what message).2.Current message := by
  unfold what
  split
  · exact .inr rfl
  · exact current

/-- A field clears the text. -/
lemma withField_cachedString (e : ContextedError) (key : String) (value : FieldValue) :
    (e.withField key value).cachedString = "" := by
  unfold withField
  dsimp only
  split <;> rfl

/-- A context clears the text. -/
lemma withContext_cachedString (e : ContextedError) (additional : String) :
    (e.withContext additional).cachedString = "" := by
  unfold withContext
  dsimp only
  split <;> rfl

namespace Objects
variable {objects : Objects} {id other : Nat}

/-- The texts of all objects are current. -/
def AllCurrent (message : ErrorCode → String) (objects : Objects) : Prop :=
  ∀ id e, objects id = some e → e.Current message

/-- A current error may take the place of another one. -/
lemma AllCurrent.update (all : objects.AllCurrent message) (id : Nat) (current : e.Current message) :
    AllCurrent message (Function.update objects id (some e)) := by
  intro id' e' here
  by_cases same : id' = id
  · rw [same, Function.update_self] at here
    cases here
    exact current
  · rw [Function.update_of_ne same] at here
    exact all id' e' here

/-- A change that keeps an error current may be made. -/
lemma AllCurrent.modify {change : ContextedError → ContextedError} (all : objects.AllCurrent message) (id : Nat)
    (keeps : ∀ e : ContextedError, e.Current message → (change e).Current message) :
    (objects.modify id change).AllCurrent message := by
  unfold Objects.modify
  cases there : objects id with
  | none => exact all
  | some e => exact all.update id (keeps e (all id e there))

/-- A copy is as current as the original. -/
lemma AllCurrent.copy (all : objects.AllCurrent message) (id other : Nat) :
    (objects.copy id other).AllCurrent message := by
  unfold Objects.copy
  split
  · exact all
  · cases there : objects other with
    | none => exact all
    | some e => exact all.update id (all other e there)

/-- What was moved from has no text, and what was moved to has that of the other object. -/
lemma AllCurrent.move (all : objects.AllCurrent message) (id other : Nat) :
    (objects.move id other).AllCurrent message := by
  unfold Objects.move
  split
  · exact all
  · cases there : objects other with
    | none => exact all
    | some e => exact (all.update id (all other e there)).update other (.inl rfl)

/-- Every action keeps all errors current. -/
lemma AllCurrent.step (all : objects.AllCurrent message) (action : Action) :
    (objects.step message action).AllCurrent message := by
  cases action with
  | construct id => exact all.update id (.inl rfl)
  | constructError id code ctx => exact all.update id (.inl rfl)
  | constructCopy id other => exact all.copy id other
  | constructMove id other => exact all.move id other
  | assignCopy id other => exact all.copy id other
  | assignMove id other => exact all.move id other
  | error id code ctx => exact all.modify id fun _ _ => .inl rfl
  | clear id => exact all.modify id fun _ _ => .inl rfl
  | withField id key value => exact all.modify id fun e _ => .inl (e.withField_cachedString key value)
  | withContext id additional => exact all.modify id fun e _ => .inl (e.withContext_cachedString additional)
  | what id => exact all.modify id fun _ current => current_what current

/-- In every state of a program, `what` of any object returns the text of its code, its context and its fields. -/
theorem run_what (message : ErrorCode → String) (actions : List Action) :
    Always (step message) (fun objects => ∀ id e, objects id = some e → (e.what message).1 = e.formatted message)
      (fun _ => none) actions := by
  have always : Always (step message) (AllCurrent message) (fun _ => none) actions := by
    refine always_of_guarded (C := fun _ _ => True) (fun _ action all _ => all.step action) ?_
      (Guarded.of_forall (fun _ _ => trivial) _ _)
    intro id e here
    cases here
  exact always.imp fun objects all id e here => what_eq (all id e here)

end Objects
end ContextedError
end OsterLib.Errors
