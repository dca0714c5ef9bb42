import RequestFlow.Text.Quoted

/-!
# Failures of a request

A `Failure` is what a pipeline run ends with when an action or a hook gives up on a request. It is
classified by its kind and by where it was raised, carries a message, and may have another error as
its source: an application's own error or a failure raised further in.
-/

namespace RequestFlow

/-- What went wrong during a run. -/
inductive Failure.Kind where
  /-- An action or a hook met an unexpected error. -/
  | action
  /-- A look-up in a store found no record. -/
  | notFound
  /-- No handler has the name that was asked for. -/
  | unknownHandler
deriving DecidableEq, Repr

inductive Failure.Origin where
  | action
  | hook
  | store
  | pipeline
deriving DecidableEq, Repr

mutual

/-- A classified error of one request. -/
inductive Failure where
  | mk (kind : Failure.Kind) (origin : Failure.Origin) (message : String) (source : Failure.Source)

/-- The error behind a failure. -/
inductive Failure.Source where
  | none
  /-- An application's own error: its text and the form a developer sees. -/
  | foreign (text shown : String)
  | failure (inner : Failure)

end

namespace Failure

instance : Inhabited Failure := ⟨.mk .action .action "" .none⟩

def Kind.word : Kind → String
  | .action => "Action"
  | .notFound => "NotFound"
  | .unknownHandler => "UnknownHandler"

def Origin.word : Origin → String
  | .action => "Action"
  | .hook => "Hook"
  | .store => "Store"
  | .pipeline => "Pipeline"

def kind : Failure → Kind
  | .mk kind _ _ _ => kind

def origin : Failure → Origin
  | .mk _ origin _ _ => origin

/-- The message, which is also the failure's text. -/
def message : Failure → String
  | .mk _ _ message _ => message

def source : Failure → Source
  | .mk _ _ _ source => source

/-- A failure raised by an action. -/
def new (message : String) : Failure := .mk .action .action message .none

def fromHook (message : String) : Failure := .mk .action .hook message .none

/-- A look-up of an entity by id found nothing. -/
def missing (entity id : String) : Failure :=
  .mk .notFound .store ("couldn't find " ++ entity ++ " with id=" ++ id) .none

/-- No handler has the given name. -/
def unknown (name : String) : Failure :=
  .mk .unknownHandler .pipeline ("no handler named `" ++ name ++ "`") .none

/-- A failure of an action that wraps an application's error and takes over its text. -/
def wrap (text shown : String) : Failure := .mk .action .action text (.foreign text shown)

def wrapFailure (inner : Failure) : Failure :=
  .mk .action .action inner.message (.failure inner)

def Source.text? : Source → Option String
  | .none => Option.none
  | .foreign text _ => some text
  | .failure inner => some inner.message

mutual

/-- The form of a failure that a developer sees. -/
def shown : Failure → String
  | .mk kind origin message source =>
    Quoted.record "Failure"
      [("kind", kind.word), ("origin", origin.word), ("message", Quoted.quote message),
        ("source", source.shown)] true

def Source.shown : Source → String
  | .none => "None"
  | .foreign _ text => "Some(" ++ text ++ ")"
  | .failure inner => "Some(" ++ inner.shown ++ ")"

end

mutual

/-- How many errors lie behind a failure. -/
def sourceCount : Failure → Nat
  | .mk _ _ _ source => source.count

def Source.count : Source → Nat
  | .none => 0
  | .foreign _ _ => 1
  | .failure inner => inner.sourceCount + 1

end

end Failure

end RequestFlow
