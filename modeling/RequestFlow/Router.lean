import RequestFlow.Route.Insert
import RequestFlow.SortedMap

/-!
# Routers

A router leads a request to the name of its handler. It keeps one tree of templates per method, so
methods never share routes, and the names of all handlers it leads to.
-/

namespace RequestFlow

structure RouteError where
  path : String
  cause : Route.Error
deriving DecidableEq, Repr

def Route.Error.message : Route.Error → String
  | .conflict other =>
    "Insertion failed due to conflict with previously registered route: " ++ other
  | .crowdedSegment => "Only one parameter is allowed per path segment"
  | .badName => "Parameters must be registered with a valid name"
  | .restNotLast => "Catch-all parameters are only allowed at the end of a route"
  | .tooManyParameters => "Too many route parameters."

def RouteError.message (e : RouteError) : String :=
  match e.cause with
  | .tooManyParameters => e.cause.message
  | cause => "invalid route `" ++ e.path ++ "`: " ++ cause.message

/-- Routes by method. -/
structure Router where
  trees : SortedMap Route.Tree
  handlers : SortedMap Unit

namespace Router

def empty : Router := ⟨∅, ∅⟩

instance : EmptyCollection Router := ⟨empty⟩

/-- Lead requests with a method and a matching path to a handler. -/
def on (r : Router) (method path handler : String) : Except RouteError Router :=
  match ((r.trees.get? method).getD .empty).add path handler with
  | .ok tree => .ok ⟨r.trees.insert method tree, r.handlers.insert handler ()⟩
  | .error cause => .error ⟨path, cause⟩

/-- The names of all handlers, sorted. -/
def handlerNames (r : Router) : List String := r.handlers.keys

/-- The parameters of a match: plain ones by the names of the template, then the one for the
rest. -/
def params (m : Route.Tree.Match) : List (String × String) :=
  let all := m.entry.names.zip m.values ++ m.rest.toList
  all.map fun p => (Route.text p.1, Route.text p.2)

/-- The handler of a request and the parameters in its path. -/
def find? (r : Router) (method path : String) : Option (String × List (String × String)) := do
  let m ← (← r.trees.get? method).find? (Utf8.encode path)
  some (m.entry.handler, params m)

end Router

end RequestFlow
