import RequestFlow.Hook.Identity
import RequestFlow.Run

/-!
# Layers

A layer, also called a wrapping-hook, surrounds the rest of a pipeline. An application's own layer
(`Layer.hook`) runs on the way in and then makes one `Move`: it answers by itself, or it passes a
context inward, once, and treats the result on the way out. Three layers come with the library:

* `trace` opens a request span around the inner chain and logs what it ended with;
* `catchAll true` turns failures and panics of the inner chain into a response, `catchAll false`
  changes nothing;
* `timeout` drops the inner chain at its deadline and answers in its place.

`Layer.around` says what each layer makes of the inner chain. It announces how that chain came back
to the layer (`Layer.Return`), if it did.
-/

namespace RequestFlow

/-- What a layer can see of the chain inside it. -/
structure Ahead where
  handler : String
  /-- The names of the layers inside, the outermost first. -/
  remaining : List String
deriving DecidableEq, Repr

/-- The form in which a layer's view of the inner chain is shown. -/
def Ahead.shown (a : Ahead) : String :=
  Quoted.record "Next"
    [("handler", Quoted.quote a.handler), ("remaining", Quoted.list a.remaining)] false

inductive Layer.Move where
  /-- Answer without entering the inner chain. -/
  | answer (result : Handled)
  /-- Enter the inner chain with a context, then treat its result. -/
  | delegate (context : Context) (wayOut : Handled → Run Handled)

inductive Layer where
  /-- A layer of the application. -/
  | hook (enter : Ahead → Context → Run Layer.Move)
  /-- Log how the inner chain ended, inside a span. -/
  | trace
  /-- Turn failures and panics into responses, if enabled. -/
  | catchAll (enabled : Bool)
  /-- Answer in place of an inner chain that takes longer than a limit in milliseconds. -/
  | timeout (limit : Nat)

/-- A layer as it is written down: what it does, and its type. -/
structure Wrap where
  type : HookType
  layer : Layer

structure LayerEntry where
  id : HookId
  layer : Layer

namespace Wrap

def entry (w : Wrap) : SetUp LayerEntry := do
  pure ⟨← w.type.identify, w.layer⟩

/-- The type of a layer of the library: the only closure of a function, which makes the path a
symbol of its own. -/
def libraryType (function : String) (stateful : Bool) : HookType :=
  let path := "railyard::middleware::" ++ function ++ "::\x7b\x7bclosure\x7d\x7d"
  ⟨⟨path⟩, path, stateful⟩

/-- The `trace` layer. It has no state of its own, so all its mentions are one hook. -/
def trace : Wrap := ⟨libraryType "trace" false, .trace⟩

def catchAll (enabled : Bool) : Wrap := ⟨libraryType "catch_all" true, .catchAll enabled⟩

def timeout (limit : Nat) : Wrap := ⟨libraryType "timeout" true, .timeout limit⟩

end Wrap

/-- A terminal action: what it does for a handler with a context. -/
structure Action where
  call : String → Context → Run Handled

/-- The action of a function into any type that stands for a result. -/
def Action.of {α : Type} [ToHandled α] (f : Context → Run α) : Action :=
  ⟨fun handler c => do pure (toHandled handler (← f c))⟩

namespace Layer

/-- How the inner chain of a layer came to its end. -/
inductive Return where
  /-- It returned a result. -/
  | result (result : Handled)
  /-- It panicked, and the layer caught that. -/
  | panic (p : Panic)
  /-- The time limit of the layer expired, and the chain was dropped. -/
  | expiry

variable {μ : Type}

/-- Report a failure and answer with its message. -/
def answerFailure (handler : String) (f : Failure) : Marked μ Handled := do
  Run.notice (.failureCaught handler f.kind f.origin f.message)
  Run.notice (.traceDisabled handler)
  pure (.ok (.respond ⟨.internalServerError, [], .json (.string f.message)⟩))

def failureOfPanic (p : Panic) : Failure := .new (p.message.getD "panic in request pipeline")

/-- Turn the failures of a run into answers. -/
def answerFailures (handler : String) (r : Marked μ Handled) : Marked μ Handled := do
  match ← r with
  | .ok o => pure (.ok o)
  | .error f => answerFailure handler f

/-- Turn failures and panics of a run into answers. -/
def contain (handler : String) (caught : Panic → Marked μ Unit) (r : Marked μ Handled) :
    Marked μ Handled :=
  answerFailures handler (r.rescue fun p => do
    caught p
    pure (.error (failureOfPanic p)))

/-- Put a run into a request span and log what it ended with. -/
def observe (handler : String) (r : Marked μ Handled) : Marked μ Handled :=
  Marked.within ⟨handler⟩ do
    let result ← r
    Run.notice (.ofHandled result)
    pure result

/-- Milliseconds as they are reported. A time that fits no 64-bit word counts as the longest that
does. -/
def reportedMillis (time : Nat) : Nat := min time (Nat.pow 2 64 - 1)

/-- A time that fits a 64-bit word is reported as it is. -/
theorem reportedMillis_of_lt {time : Nat} (fits : time < Nat.pow 2 64) :
    reportedMillis time = time := by
  rw [reportedMillis]
  omega

/-- What follows when a time limit has expired. -/
def expired (handler : String) (limit : Nat) : Marked μ Handled := do
  Run.notice (.timedOut handler (reportedMillis limit))
  pure (.ok (.respond (.bare .gatewayTimeout)))

/-- Announce the result with which a chain comes back. -/
def returning (announce : Return → Marked μ Unit) (r : Marked μ Handled) : Marked μ Handled := do
  let result ← r
  announce (.result result)
  pure result

/-- What a layer makes of the chain inside it. -/
def around (announce : Return → Marked μ Unit) (ahead : Ahead)
    (inner : Context → Marked μ Handled) (c : Context) : Layer → Marked μ Handled
  | .hook enter => do
    match ← Marked.ofRun (enter ahead c) with
    | .answer result => pure result
    | .delegate c wayOut => do
      let result ← returning announce (inner c)
      Marked.ofRun (wayOut result)
  | .trace => observe ahead.handler (returning announce (inner c))
  | .catchAll true =>
    contain ahead.handler (fun p => announce (.panic p)) (returning announce (inner c))
  | .catchAll false => returning announce (inner c)
  | .timeout limit =>
    (returning announce (inner c)).limit limit do
      announce .expiry
      expired ahead.handler limit

end Layer

end RequestFlow
