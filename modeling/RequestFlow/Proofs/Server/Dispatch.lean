import RequestFlow.Proofs.Pipeline.Journal
import RequestFlow.Server.Dispatch

/-!
# Every request is answered once

A request is answered before any pipeline runs if it is routed nowhere, if its body cannot be read
or if its body is refused. Each other request is one run of the pipeline of its handler, on the
context that was decoded, and then the answer to the result of that run: `Server.Settles` says which
answer that is and what is reported about it.

Reports and rendering take no time and never panic. So a run with an answer is that of the pipeline
with a row of reports behind it (`Run.reports`), and the only way to give no answer is a panic of
the pipeline.
-/

namespace RequestFlow

/-! ### The answer to a result -/

namespace Server

/-- What a result is answered with, and what is reported about it. -/
inductive Settles (handler : String) (haltStatus : Option Status) :
    Handled → Response → List Notice → Prop where
  /-- An outcome with a response of its own is answered with that, whatever is configured. -/
  | own (o : Outcome) (r : Response) (given : o.response? = some r) :
      Settles handler haltStatus (.ok o) r []
  /-- A halt without a response is answered with the configured status. -/
  | configured (party : String) (status : Status) (set : haltStatus = some status) :
      Settles handler haltStatus (.ok (.halted party none)) (.bare status) []
  /-- If no status is configured, such a halt is an error of the application. -/
  | unanswered (party : String) (unset : haltStatus = none) :
      Settles handler haltStatus (.ok (.halted party none)) (.bare .internalServerError)
        [.haltUnanswered handler party]
  /-- A failure is reported and not shown. -/
  | failed (f : Failure) :
      Settles handler haltStatus (.error f) (.bare .internalServerError)
        [.failureUnhandled handler f.kind f.origin f.message]

variable {handler : String} {haltStatus : Option Status} {result : Handled} {response : Response}
variable {notices : List Notice}

/-- Whatever is reported about a result is an error. -/
theorem Settles.level (h : Settles handler haltStatus result response notices) :
    ∀ n ∈ notices, n.level = .error := by
  cases h with
  | own o r given => simp
  | configured party status set => simp
  | unanswered party unset => simp [Notice.level]
  | failed f => simp [Notice.level]

theorem settle_eq {μ : Type} (h : Settles handler haltStatus result response notices) :
    (settle handler haltStatus result : Marked μ Response) =
      ⟨Run.reports notices, .ok response⟩ := by
  cases h with
  | own o r given =>
      cases o with
      | respond r' =>
          obtain rfl := Option.some.inj given
          rfl
      | halted party r' =>
          obtain rfl : r' = some response := given
          rfl
  | configured party status set => rw [set]; rfl
  | unanswered party unset => rw [unset]; rfl
  | failed f => rfl

/-- Every result has an answer. -/
theorem exists_settles (handler : String) (haltStatus : Option Status) (result : Handled) :
    ∃ response notices, Settles handler haltStatus result response notices := by
  cases result with
  | error f => exact ⟨_, _, .failed f⟩
  | ok o =>
      cases given : o.response? with
      | some r => exact ⟨r, [], .own o r given⟩
      | none =>
          cases o with
          | respond r => simp [Outcome.response?] at given
          | halted party r =>
              obtain rfl : r = none := given
              cases haltStatus with
              | some status => exact ⟨_, _, .configured party status rfl⟩
              | none => exact ⟨_, _, .unanswered party rfl⟩

/-- The answer to a request that reaches no pipeline: a bare status behind some reports. -/
def bareAnswer {μ : Type} (status : Status) (notices : List Notice) : Marked μ Rendered :=
  ⟨Run.reports notices, .ok ⟨status, ∅, []⟩⟩

theorem marks_bareAnswer (status : Status) (notices : List Notice) :
    (bareAnswer status notices : Marked Visit Rendered).marks = [] :=
  Run.marks_reports notices

end Server

/-! ### Dispatch -/

section Unmark

variable {μ : Type}

theorem Server.unmark_settle (handler : String) (haltStatus : Option Status) (result : Handled) :
    (settle handler haltStatus result : Marked μ Response).unmark =
      settle handler haltStatus result := by
  obtain ⟨response, notices, settles⟩ := exists_settles handler haltStatus result
  rw [settle_eq settles, settle_eq settles, Marked.unmark, Run.unmark_reports]

theorem Response.unmark_render (r : Response) :
    (r.render : Marked μ Rendered).unmark = r.render := by
  rw [render_eq, render_eq, Marked.unmark, Run.unmark_reports]

variable [Records μ]

theorem Handlers.unmark_handle (hs : Handlers) (name : String) (c : Context) :
    (hs.handle name c : Marked μ Handled).unmark = hs.handle name c := by
  rw [handle, handle]
  cases hs.get? name with
  | some h => exact h.unmark_handle c
  | none => rfl

theorem Application.unmark_run (a : Application) (handler : String) (c : Context) :
    (a.run handler c : Marked μ Response).unmark = a.run handler c := by
  simp only [run, Marked.unmark_bind, Handlers.unmark_handle, Server.unmark_settle]

/-- Recording how a request is answered does not change the answer. -/
theorem Application.unmark_dispatch (a : Application) (r : Http.Request) :
    (a.dispatch r : Marked μ Rendered).unmark = a.dispatch r := by
  have same : (a.respond r : Marked μ Response).unmark = a.respond r := by
    rw [respond, respond]
    cases a.router.find? r.method r.target.path with
    | none => rfl
    | some route =>
        obtain ⟨handler, params⟩ := route
        cases r.body with
        | none => rfl
        | some body =>
            simp only
            cases Server.decode? params r.target.query (if r.isJson then some body else none) with
            | none => rfl
            | some c => exact a.unmark_run handler c
  simp only [dispatch, Marked.unmark_bind, same, Response.unmark_render]

end Unmark

namespace Application

variable {μ : Type} [Records μ] {a : Application} {r : Http.Request} {handler : String}
variable {params : List (String × String)} {body : List UInt8} {c : Context}

theorem dispatch_unrouted (unrouted : a.router.find? r.method r.target.path = none) :
    (a.dispatch r : Marked μ Rendered) = Server.bareAnswer .notFound [] := by
  rw [dispatch, respond, unrouted]
  rfl

section Routed

variable (routed : a.router.find? r.method r.target.path = some (handler, params))
include routed

theorem dispatch_unreadable (unreadable : r.body = none) :
    (a.dispatch r : Marked μ Rendered) =
      Server.bareAnswer .badRequest [.bodyUnreadable handler] := by
  rw [dispatch, respond, routed, unreadable]
  rfl

variable (readable : r.body = some body)
include readable

theorem dispatch_refused
    (refused : Server.decode? params r.target.query (if r.isJson then some body else none) = none) :
    (a.dispatch r : Marked μ Rendered) = Server.bareAnswer .badRequest [] := by
  simp only [dispatch, respond, routed, readable, refused]
  rfl

variable (decoded :
  Server.decode? params r.target.query (if r.isJson then some body else none) = some c)
include decoded

theorem dispatch_decoded :
    (a.dispatch r : Marked μ Rendered) =
      a.handlers.handle handler c >>= fun result =>
        Server.settle handler a.haltStatus result >>= Response.render := by
  simp only [dispatch, respond, routed, readable, decoded, run, Marked.bind_assoc]

/-- A panic of the pipeline is the only way to leave a request without an answer. -/
theorem dispatch_of_panic {p : Panic}
    (ends : (a.handlers.handle handler c : Marked μ Handled).ending = .error p) :
    (a.dispatch r : Marked μ Rendered) =
      ⟨(a.handlers.handle handler c : Marked μ Handled).steps, .error p⟩ := by
  rw [dispatch_decoded routed readable decoded, Marked.bind_error ends]

theorem dispatch_of_result {result : Handled} {response : Response} {notices : List Notice}
    (ends : (a.handlers.handle handler c : Marked μ Handled).ending = .ok result)
    (settles : Server.Settles handler a.haltStatus result response notices) :
    (a.dispatch r : Marked μ Rendered) =
      ⟨(a.handlers.handle handler c : Marked μ Handled).steps ++
          Run.reports (notices ++ response.dropped),
        .ok ⟨response.status, response.sentHeaders, response.body.content⟩⟩ := by
  rw [dispatch_decoded routed readable decoded, Marked.bind_ok ends, Server.settle_eq settles,
    Marked.bind_ok rfl, Response.render_eq, Run.reports_append]

end Routed

end Application

/-- Every request is answered once. If the router knows no handler for it, if its body cannot be
read or if its body is declared to be JSON and refused, the answer is a bare status, nothing of any
pipeline is visited, and only an unreadable body is reported. Otherwise the run is that of the
handler, once and on the decoded context; unless it panics, one answer to its result follows: its
own response, if it has one, else the configured status for a halt, else an empty internal error and
one report. A handler that is not in the table counts as a failure. -/
theorem dispatch_answers_once (a : Application) (r : Http.Request) :
    let run : Marked Visit Rendered := a.dispatch r
    run.unmark = a.dispatch r ∧
    (a.router.find? r.method r.target.path = none →
      run = Server.bareAnswer .notFound [] ∧ run.marks = []) ∧
    ∀ handler params, a.router.find? r.method r.target.path = some (handler, params) →
      (r.body = none →
        run = Server.bareAnswer .badRequest [.bodyUnreadable handler] ∧
          (Notice.bodyUnreadable handler).level = .debug ∧ run.marks = []) ∧
      ∀ body, r.body = some body →
        let decoded :=
          Server.decode? params r.target.query (if r.isJson then some body else none)
        (decoded = none →
          r.isJson = true ∧ run = Server.bareAnswer .badRequest [] ∧ run.marks = []) ∧
        ∀ c, decoded = some c →
          let inner : Marked Visit Handled := a.handlers.handle handler c
          (∀ h, a.handlers.get? handler = some h → inner = h.handle c) ∧
          (a.handlers.get? handler = none →
            run = Server.bareAnswer .internalServerError
              [.failureUnhandled handler .unknownHandler .pipeline
                ("no handler named `" ++ handler ++ "`")]) ∧
          (∀ p, inner.ending = .error p → run = ⟨inner.steps, .error p⟩) ∧
          ∀ result, inner.ending = .ok result →
            ∃ response notices, Server.Settles handler a.haltStatus result response notices ∧
              (∀ n ∈ notices, n.level = .error) ∧
              run = ⟨inner.steps ++ Run.reports (notices ++ response.dropped),
                .ok ⟨response.status, response.sentHeaders, response.body.content⟩⟩ := by
  intro run
  refine ⟨a.unmark_dispatch r, ?_, ?_⟩
  · intro unrouted
    have answer : run = _ := Application.dispatch_unrouted unrouted
    exact ⟨answer, answer ▸ Server.marks_bareAnswer _ _⟩
  intro handler params routed
  refine ⟨?_, ?_⟩
  · intro unreadable
    have answer : run = _ := Application.dispatch_unreadable routed unreadable
    exact ⟨answer, rfl, answer ▸ Server.marks_bareAnswer _ _⟩
  intro body readable decoded
  refine ⟨?_, ?_⟩
  · intro refused
    have answer : run = _ := Application.dispatch_refused routed readable refused
    refine ⟨?_, answer, answer ▸ Server.marks_bareAnswer _ _⟩
    cases json : r.isJson with
    | true => rfl
    | false =>
        -- A body that is not declared to be JSON is not looked at, so nothing in it is refused.
        simp only [decoded, json, Bool.false_eq_true, if_false] at refused
        cases refused
  intro c accepted inner
  refine ⟨?_, ?_, ?_, ?_⟩
  · intro h held
    simp only [inner, Handlers.handle, held]
  · intro missing
    have unknown : inner = pure (.error (.unknown handler)) := by
      simp only [inner, Handlers.handle, missing]
    have answer : run = _ := Application.dispatch_of_result routed readable accepted
      (congrArg Marked.ending unknown) (.failed (.unknown handler))
    rw [answer, show (a.handlers.handle handler c : Marked Visit Handled) = _ from unknown]
    rfl
  · intro p ends
    exact Application.dispatch_of_panic routed readable accepted ends
  · intro result ends
    obtain ⟨response, notices, settles⟩ := Server.exists_settles handler a.haltStatus result
    exact ⟨response, notices, settles, settles.level,
      Application.dispatch_of_result routed readable accepted ends settles⟩

/-- One route, and requests that are stopped at every point on their way: by the router, by their
body in two ways, by a missing handler, by a panic and by a guard. -/
theorem dispatch_answers_once_at_every_gate :
    let action : Action := ⟨fun handler _ => pure (.ok (.halted handler none))⟩
    let torn : Handler :=
      ⟨"users#show", [⟨.ofName "torn", fun _ => Run.raise ⟨none⟩⟩], [], action, []⟩
    let closed : Handler :=
      ⟨"users#show", [⟨.ofName "closed", fun c => pure (c, .halt none)⟩], [], action, []⟩
    let request (path : String) (body : Option (List UInt8)) : Http.Request :=
      ⟨"GET", ⟨path, none⟩, [("content-type", "application/json")], body⟩
    let label (s : String) : Route.Template := s.toList.map Route.Symbol.plain
    let user : Route.Tree :=
      .leaf (label "\x7ba\x7d") .param (some ⟨"users#show", [Utf8.encode "id"]⟩)
    let routes : Route.Tree := { Route.Tree.leaf (label "/u/") .static none with wild := some user }
    let router : Router := ⟨SortedMap.insert ∅ "GET" routes, SortedMap.insert ∅ "users#show" ()⟩
    let run (hs : Handlers) (path : String) (body : Option (List UInt8)) : Marked Visit Rendered :=
      (⟨router, hs, some .serviceUnavailable⟩ : Application).dispatch (request path body)
    run ∅ "/v" none = Server.bareAnswer .notFound [] ∧
    run ∅ "/u/7" none = Server.bareAnswer .badRequest [.bodyUnreadable "users#show"] ∧
    run ∅ "/u/7" (some (Utf8.encode "[]")) = Server.bareAnswer .badRequest [] ∧
    run ∅ "/u/7" (some []) = Server.bareAnswer .internalServerError
      [.failureUnhandled "users#show" .unknownHandler .pipeline
        "no handler named `users#show`"] ∧
    (run (SortedMap.insert ∅ "users#show" torn) "/u/7" (some [])).ending = .error ⟨none⟩ ∧
    (run (SortedMap.insert ∅ "users#show" closed) "/u/7" (some [])).ending =
      .ok ⟨.serviceUnavailable, ∅, []⟩ := by
  intro action torn closed request label user routes router run
  have unrouted : router.find? "GET" "/v" = none := by decide +kernel
  have routed : router.find? "GET" "/u/7" = some ("users#show", [("id", "7")]) := by
    decide +kernel
  have json (body : Option (List UInt8)) : (request "/u/7" body).isJson = true := by
    have declared : (request "/u/7" none).isJson = true := by decide +kernel
    exact declared
  have accepted : Server.decode? [("id", "7")] none
      (if (request "/u/7" (some [])).isJson then some [] else none) =
        some (.ofParams [("id", "7")]) := by
    rw [json]
    rfl
  have refused : Server.decode? [("id", "7")] none
      (if (request "/u/7" (some (Utf8.encode "[]"))).isJson then some (Utf8.encode "[]")
        else none) = none := by
    rw [json]
    decide +kernel
  -- The four requests on the route share their look-up; the last three also share their context.
  have onRoute (hs : Handlers) (body : Option (List UInt8)) :=
    (dispatch_answers_once ⟨router, hs, some .serviceUnavailable⟩
      (request "/u/7" body)).2.2 "users#show" [("id", "7")] routed
  have onContext (hs : Handlers) := ((onRoute hs (some [])).2 [] rfl).2 _ accepted
  refine ⟨?_, ((onRoute ∅ none).1 rfl).1, (((onRoute ∅ _).2 _ rfl).1 refused).2.1,
    (onContext ∅).2.1 rfl, ?_, ?_⟩
  · exact ((dispatch_answers_once ⟨router, ∅, some .serviceUnavailable⟩
      (request "/v" none)).2.1 unrouted).1
  · obtain ⟨own, _, panics, _⟩ := onContext (SortedMap.insert ∅ "users#show" torn)
    have inner := own torn rfl
    have stopped : (torn.handle (.ofParams [("id", "7")]) : Marked Visit Handled).ending =
        .error ⟨none⟩ := rfl
    exact congrArg Marked.ending (panics ⟨none⟩ (inner ▸ stopped))
  · obtain ⟨own, _, _, returns⟩ := onContext (SortedMap.insert ∅ "users#show" closed)
    have inner := own closed rfl
    have stopped : (closed.handle (.ofParams [("id", "7")]) : Marked Visit Handled).ending =
        .ok (.ok (.halted "closed" none)) := rfl
    obtain ⟨response, notices, settles, _, answer⟩ := returns _ (inner ▸ stopped)
    refine (congrArg Marked.ending answer).trans ?_
    cases settles with
    | own o r given => cases given
    | configured party status set =>
        obtain rfl := Option.some.inj set
        rfl
    | unanswered party unset => cases unset

end RequestFlow
