import RequestFlow.Context
import RequestFlow.Outcome

/-!
# What is logged

The library reports what an operator should know about a request; each report is a `Notice`, with a
level, a message and fields. Hooks and actions may write entries of their own next to them. Every
event carries the request spans that were open when it was logged, the outermost first.
-/

namespace RequestFlow

inductive Level where
  | error
  | warn
  | info
  | debug
deriving DecidableEq, Repr

def Level.word : Level → String
  | .error => "error"
  | .warn => "warn"
  | .info => "info"
  | .debug => "debug"

/-- A report of the library. The three reports on the end of a traced run (`completed`, `halted` and
`failed`) also tell its latency, the field `latency_ms`. It is read from the wall clock, so it is no
part of the report here and `fields` leaves it out. -/
inductive Notice where
  /-- A pre-hook stopped the run. -/
  | guardHalted (handler hook : String) (withResponse : Bool)
  /-- A failure was turned into a response. -/
  | failureCaught (handler : String) (kind : Failure.Kind) (origin : Failure.Origin)
      (message : String)
  /-- The place where the failure arose is not recorded. -/
  | traceDisabled (handler : String)
  /-- A traced run ended with a response. -/
  | completed (status : Status)
  /-- A traced run was halted. -/
  | halted (party : String)
  /-- A traced run failed. -/
  | failed (message : String)
  /-- A time limit in milliseconds expired. -/
  | timedOut (handler : String) (limit : Nat)
  /-- A handler runs the same hook more than once. -/
  | hookRepeated (handler hook : String) (count : Nat)
  /-- A run halted without a response and no status is configured for that. -/
  | haltUnanswered (handler party : String)
  /-- No layer turned a failure into a response. -/
  | failureUnhandled (handler : String) (kind : Failure.Kind) (origin : Failure.Origin)
      (message : String)
  /-- The body of a request could not be read. -/
  | bodyUnreadable (handler : String)
  /-- A response header is not valid and is left out. -/
  | headerDropped (name : String)
  /-- A response body has no JSON form. -/
  | bodyNotSerialised (error : SerializeError)
deriving DecidableEq

namespace Notice

def level : Notice → Level
  | .guardHalted .. | .bodyUnreadable .. => .debug
  | .completed .. | .halted .. | .failed .. => .info
  | .timedOut .. | .hookRepeated .. | .headerDropped .. | .bodyNotSerialised .. => .warn
  | .failureCaught .. | .traceDisabled .. | .haltUnanswered .. | .failureUnhandled .. => .error

def message : Notice → String
  | .guardHalted .. => "halted by pre-hook"
  | .failureCaught _ _ _ message => "caught failure: " ++ message
  | .traceDisabled _ => "disabled backtrace"
  | .completed _ => "completed"
  | .halted _ => "halted"
  | .failed _ => "failed"
  | .timedOut .. => "timed out"
  | .hookRepeated .. => "hook registered more than once"
  | .haltUnanswered .. => "request halted without a response and no halt_status is configured"
  | .failureUnhandled _ _ _ message => "unhandled failure: " ++ message
  | .bodyUnreadable _ =>
    "failed to read request body: error reading a body from connection"
  | .headerDropped _ => "dropping invalid response header"
  | .bodyNotSerialised _ => "response body failed to serialise"

def fields : Notice → List (String × Json)
  | .guardHalted handler hook withResponse =>
    [("handler", .string handler), ("hook", .string hook), ("with_response", .bool withResponse)]
  | .failureCaught handler kind origin _ | .failureUnhandled handler kind origin _ =>
    [("handler", .string handler), ("kind", .string kind.word), ("origin", .string origin.word)]
  | .traceDisabled handler | .bodyUnreadable handler => [("handler", .string handler)]
  | .completed status => [("status", .ofNat status.code)]
  | .halted party => [("halted_by", .string party)]
  | .failed message => [("error", .string message)]
  | .timedOut handler limit => [("handler", .string handler), ("limit_ms", .ofNat limit)]
  | .hookRepeated handler hook count =>
    [("handler", .string handler), ("hook", .string hook), ("count", .ofNat count)]
  | .haltUnanswered handler party =>
    [("handler", .string handler), ("halted_by", .string party)]
  | .headerDropped name => [("header", .string name)]
  | .bodyNotSerialised error => [("error", .string error.message)]

/-- What a traced run ended with. -/
def ofHandled : Handled → Notice
  | .ok (.respond r) => .completed r.status
  | .ok (.halted party _) => .halted party
  | .error f => .failed f.message

end Notice

/-- What an event says. -/
inductive Entry where
  /-- A report of the library. -/
  | notice (n : Notice)
  /-- A line written by a hook or an action. -/
  | note (line : String)
  /-- The context as a hook or an action saw it. -/
  | context (c : Context)
  /-- A result as a layer saw it. -/
  | result (r : Handled)

/-- A request span; it is named by the handler that it belongs to. -/
structure Span where
  handler : String
deriving DecidableEq, Repr

namespace Span

/-- The name under which request spans are reported. -/
def name : String := "request"

end Span

/-- One logged event with the spans that were open around it. -/
structure Event where
  spans : List Span
  entry : Entry

/-- The event inside more spans, the outermost first. -/
def Event.inside (spans : List Span) (e : Event) : Event := { e with spans := spans ++ e.spans }

@[simp] theorem Event.inside_inside (outer spans : List Span) (e : Event) :
    (e.inside spans).inside outer = e.inside (outer ++ spans) := by
  simp [inside]

end RequestFlow
