import RequestFlow.Http.Request
import RequestFlow.Registry
import RequestFlow.Response.Render
import RequestFlow.Router
import RequestFlow.Server.Decode

/-!
# Answering requests

An `Application` is what answers requests: a router, the handlers, and the status for halts without
a response. `Application.dispatch` gives every request exactly one response. A request that is
routed nowhere, whose body cannot be read or whose body is refused is answered before any pipeline
runs; every other request runs the pipeline of its handler once, and `settle` turns the result into
a response. A failure that no layer has answered is logged and never shown to the client.
-/

namespace RequestFlow

namespace Server

/-- The response to a result. A halt without a response is answered with the configured status. -/
def settle {μ : Type} (handler : String) (haltStatus : Option Status) :
    Handled → Marked μ Response
  | .ok (.respond r) => pure r
  | .ok (.halted _ (some r)) => pure r
  | .ok (.halted party none) =>
    match haltStatus with
    | some status => pure (.bare status)
    | none => do
      Run.notice (.haltUnanswered handler party)
      pure (.bare .internalServerError)
  | .error f => do
    Run.notice (.failureUnhandled handler f.kind f.origin f.message)
    pure (.bare .internalServerError)

end Server

/-- What answers requests. -/
structure Application where
  router : Router
  handlers : Handlers
  haltStatus : Option Status

namespace Application

variable {μ : Type} [Records μ]

/-- Run the pipeline of a handler and settle its result. -/
def run (a : Application) (handler : String) (c : Context) : Marked μ Response := do
  Server.settle handler a.haltStatus (← a.handlers.handle handler c)

def respond (a : Application) (r : Http.Request) : Marked μ Response :=
  match a.router.find? r.method r.target.path with
  | none => pure (.bare .notFound)
  | some (handler, params) =>
    match r.body with
    | none => do
      Run.notice (.bodyUnreadable handler)
      pure (.bare .badRequest)
    | some body =>
      match Server.decode? params r.target.query (if r.isJson then some body else none) with
      | none => pure (.bare .badRequest)
      | some c => a.run handler c

def dispatch (a : Application) (r : Http.Request) : Marked μ Rendered := do
  (← a.respond r).render

end Application

end RequestFlow
