import RequestFlow.Proofs.Pipeline.Observers
import RequestFlow.Proofs.Server.Dispatch

/-!
# Failures stay inside

An action that fails tells its failure to the layers around it and to the log, and to nobody else.
Here that is said of handlers whose layers pass failures on: observers, time limits and layers
`catchAll false`, in any number and order (`Layer.PassesFailures`). Such layers either hand the
failure out as it is, or a time limit drops the action and answers in its place
(`Layer.Passes`); which of the two happens depends on nothing but when the action comes to its end.

So two requests whose actions fail at the same time are answered alike, whatever the failures say.
The same time on the clock is not quite enough: if a time limit expires at the very moment at which
an action would end, it makes a difference whether the action yields once more at that moment.
-/

namespace RequestFlow

namespace Layer

/-- A layer hands failures of the chain inside it out, unless it is dropped before. -/
def PassesFailures : Layer → Prop
  | .hook _ => False
  | .trace => True
  | .catchAll enabled => enabled = false
  | .timeout _ => True

def limit? : Layer → Option Nat
  | .timeout limit => some limit
  | _ => none

/-- What layers with some time limits make of an action that fails. -/
inductive Passes (limits : List Nat) (work : Run Handled) (f : Failure) (run : Run Handled) :
    Prop where
  /-- The failure is handed out unchanged and at the time at which it was raised. -/
  | handed (whole : ∀ limit ∈ limits, Step.cut? limit work.steps = none)
      (ending : run.ending = .ok (.error f)) (elapsed : run.elapsed = work.elapsed)
      (lingers : Step.lingers run.steps = Step.lingers work.steps)
  /-- A time limit cuts the action, and its answer takes the place of the failure. -/
  | dropped (limit : Nat) (mem : limit ∈ limits) (kept : List (Step Empty))
      (cut : Step.cut? limit work.steps = some kept)
      (ending : run.ending = .ok (.ok (.respond (.bare .gatewayTimeout))))

end Layer

/-- The time limits of a handler, the outermost first. -/
def Handler.limits (h : Handler) : List Nat := h.layers.filterMap fun e => e.layer.limit?

/-- A request comes to the action of a handler: it is routed to the handler's name, its body can be
read and is decoded, and the guards let it through. The first context is the one that was decoded,
the second the one with which the action is called. -/
structure Application.Reaches (a : Application) (r : Http.Request) (name : String) (h : Handler)
    (c c' : Context) : Prop where
  accepted : ∃ params body, a.router.find? r.method r.target.path = some (name, params) ∧
    r.body = some body ∧
    Server.decode? params r.target.query (if r.isJson then some body else none) = some c
  found : a.handlers.get? name = some h
  cleared : Guard.thread h.guards c = some c'

/-! ### Lingering -/

theorem Step.lingers_inside (spans : List Span) (steps : List (Step Empty)) :
    lingers (steps.map (inside spans)) = lingers steps := by
  induction steps with
  | nil => rfl
  | cons step rest ih => cases step <;> simp [lingers, inside, ih]

theorem Run.lingers_reportsInside (spans : List Span) (ns : List Notice) :
    Step.lingers (reportsInside spans ns) = false := by
  induction ns with
  | nil => rfl
  | cons n rest ih => exact ih

theorem Layer.lingers_observe (handler : String) (r : Run Handled) :
    Step.lingers (observe handler r).steps = Step.lingers r.steps := by
  rw [observe_eq, Step.lingers_append, Step.lingers_inside, Run.lingers_reportsInside,
    Run.duration_reportsInside]
  simp

/-! ### Layers around a failing action -/

namespace Layer.Passes

variable {limits : List Nat} {work run : Run Handled} {f : Failure}

/-- An observer does not come between a failure and what is outside. -/
theorem observe (handler : String) (passes : Passes limits work f run) :
    Passes limits work f (Layer.observe handler run) := by
  cases passes with
  | handed whole ending elapsed lingers =>
      exact .handed whole ((Layer.ending_observe handler run).trans ending)
        ((Layer.elapsed_observe handler run).trans elapsed)
        ((Layer.lingers_observe handler run).trans lingers)
  | dropped limit mem kept cut ending =>
      exact .dropped limit mem kept cut ((Layer.ending_observe handler run).trans ending)

/-- A time limit cuts a run that hands a failure out exactly where it would cut the action. -/
theorem limit (handler : String) (left : Nat) (passes : Passes limits work f run) :
    Passes (left :: limits) work f (run.limit left (expired handler left)) := by
  cases passes with
  | handed whole ending elapsed lingers =>
      -- The steps of the two runs differ in their events, which no limit looks at.
      have same : Step.cut? left run.steps = none ↔ Step.cut? left work.steps = none := by
        rw [Step.cut?_eq_none_iff, Step.cut?_eq_none_iff, lingers]
        change run.elapsed < left ∨ run.elapsed = left ∧ _ ↔ _
        rw [elapsed]
        rfl
      cases cut : Step.cut? left work.steps with
      | none =>
          rw [Marked.limit_of_none (same.2 cut)]
          exact .handed (List.forall_mem_cons.2 ⟨cut, whole⟩) ending elapsed lingers
      | some kept =>
          refine .dropped left List.mem_cons_self kept cut ?_
          cases cut' : Step.cut? left run.steps with
          | none => cases cut.symm.trans (same.1 cut')
          | some kept' => rw [Marked.limit, cut']; rfl
  | dropped limit mem kept cut ending =>
      refine .dropped limit (List.mem_cons_of_mem _ mem) kept cut ?_
      cases cut' : Step.cut? left run.steps with
      | none => rw [Marked.limit_of_none cut', ending]
      | some kept' => rw [Marked.limit, cut']; rfl

end Layer.Passes

/-- However many layers pass failures on, all of them together do. -/
theorem Next.passes_run (handler : String) {layers : List LayerEntry}
    (passing : ∀ e ∈ layers, e.layer.PassesFailures) {a : Action} {c : Context} {f : Failure}
    (fails : (a.call handler c).ending = .ok (.error f)) :
    Layer.Passes (layers.filterMap fun e => e.layer.limit?) (a.call handler c) f
      ((ofLayers handler layers a).run c) := by
  induction layers with
  | nil =>
      rw [run_nil]
      exact .handed nofun fails rfl rfl
  | cons e rest ih =>
      obtain ⟨here, inside⟩ := List.forall_mem_cons.1 passing
      have inner := ih inside
      rw [run_cons]
      obtain ⟨id, layer⟩ := e
      cases layer with
      | hook enter => cases here
      | trace =>
          rw [Layer.around, Layer.returning_silent]
          exact inner.observe handler
      | catchAll enabled =>
          obtain rfl : enabled = false := here
          rw [Layer.around, Layer.returning_silent]
          exact inner
      | timeout limit =>
          rw [Layer.around, Layer.returning_silent]
          exact inner.limit handler limit

/-! ### The answer to a failing action -/

/-- Behind guards that let a run go on, it ends as its layers do. -/
theorem Handler.ending_handle {h : Handler} {c c' : Context}
    (cleared : Guard.thread h.guards c = some c') :
    (h.handle c : Run Handled).ending =
      ((Next.ofLayers h.name h.layers h.action).run c' : Run Handled).ending := by
  let rest : Next := Next.ofLayers h.name h.layers h.action
  calc
    (h.handle c : Run Handled).ending = (h.handle c : Marked Visit Handled).ending :=
      congrArg Marked.ending (unmark_handle h c).symm
    _ = (rest.run c' : Marked Visit Handled).ending := (handle_of_thread cleared).1
    _ = (rest.run c' : Run Handled).ending := congrArg Marked.ending (Next.unmark_run rest c')

/-- What is done about a request whose action fails: either the failure is reported and the answer
says nothing of it, or a time limit has cut the action, and the answer says just that. -/
inductive Application.Conceals (a : Application) (r : Http.Request) (name : String) (c : Context)
    (limits : List Nat) (work : Run Handled) (f : Failure) : Rendered → Prop where
  | failed (whole : ∀ limit ∈ limits, Step.cut? limit work.steps = none)
      (result : (a.handlers.handle name c : Run Handled).ending = .ok (.error f))
      (events : (a.dispatch r : Run Rendered).events =
        (a.handlers.handle name c : Run Handled).events ++
          [⟨[], .notice (.failureUnhandled name f.kind f.origin f.message)⟩]) :
      Conceals a r name c limits work f ⟨.internalServerError, ∅, []⟩
  | dropped (limit : Nat) (mem : limit ∈ limits) (kept : List (Step Empty))
      (cut : Step.cut? limit work.steps = some kept) :
      Conceals a r name c limits work f ⟨.gatewayTimeout, ∅, []⟩

theorem Application.conceals_failure {a : Application} {r : Http.Request} {name : String}
    {h : Handler} {c c' : Context} {f : Failure} (reaches : a.Reaches r name h c c')
    (passing : ∀ e ∈ h.layers, e.layer.PassesFailures)
    (fails : (h.action.call h.name c').ending = .ok (.error f)) :
    ∃ answer, (a.dispatch r : Run Rendered).ending = .ok answer ∧
      a.Conceals r name c h.limits (h.action.call h.name c') f answer := by
  obtain ⟨⟨params, body, routed, readable, decoded⟩, found, cleared⟩ := reaches
  have handled : (a.handlers.handle name c : Run Handled) = h.handle c := by
    simp only [Handlers.handle, found]
  have ends := congrArg Marked.ending handled
  rw [Handler.ending_handle cleared] at ends
  have passes := Next.passes_run h.name passing fails
  cases passes with
  | handed whole ending elapsed lingers =>
      have result := ends.trans ending
      have answer := dispatch_of_result routed readable decoded result (.failed f)
      refine ⟨_, congrArg Marked.ending answer, .failed whole result ?_⟩
      rw [answer, Marked.events, List.filterMap_append]
      rfl
  | dropped limit mem kept cut ending =>
      have result := ends.trans ending
      have answer := dispatch_of_result routed readable decoded result (.own _ _ rfl)
      exact ⟨_, congrArg Marked.ending answer, .dropped limit mem kept cut⟩

/-- Two actions come to their ends at the same time, as far as some time limits can tell: at the
same time on the clock and, if a limit expires just then, both or neither with one more yield. -/
structure Run.SameTime (limits : List Nat) (work work' : Run Handled) : Prop where
  elapsed : work.elapsed = work'.elapsed
  lingers : work.elapsed ∈ limits → Step.lingers work.steps = Step.lingers work'.steps

theorem Run.SameTime.cut?_iff {limits : List Nat} {work work' : Run Handled}
    (same : SameTime limits work work') {limit : Nat} (mem : limit ∈ limits) :
    Step.cut? limit work.steps = none ↔ Step.cut? limit work'.steps = none := by
  have elapsed : Step.duration work.steps = Step.duration work'.steps := same.elapsed
  rw [Step.cut?_eq_none_iff, Step.cut?_eq_none_iff, ← elapsed]
  refine or_congr_right (and_congr_right fun now => ?_)
  rw [same.lingers (show Step.duration work.steps ∈ limits from now ▸ mem)]

/-- A failure that no layer answers tells the client nothing. Take two requests that come to the
actions of two handlers with the same layers, all of which pass failures on, and let the actions
fail at the same time, with any two failures. Then both are answered, and alike, whatever status is
configured for halts. If no time limit cuts the action, the answer is an internal error without
headers and without a body, the result of the handler is the failure itself, and the last report of
the request names its kind, its origin and its message. -/
theorem failures_stay_inside {a a' : Application} {r r' : Http.Request} {name name' : String}
    {h h' : Handler} {c c' d d' : Context} {f f' : Failure}
    (reaches : a.Reaches r name h c d) (reaches' : a'.Reaches r' name' h' c' d')
    (passing : ∀ e ∈ h.layers, e.layer.PassesFailures) (layers : h'.layers = h.layers)
    (fails : (h.action.call h.name d).ending = .ok (.error f))
    (fails' : (h'.action.call h'.name d').ending = .ok (.error f'))
    (same : Run.SameTime h.limits (h.action.call h.name d) (h'.action.call h'.name d')) :
    ∃ answer,
      (a.dispatch r : Run Rendered).ending = .ok answer ∧
      (a'.dispatch r' : Run Rendered).ending = .ok answer ∧
      a.Conceals r name c h.limits (h.action.call h.name d) f answer ∧
      a'.Conceals r' name' c' h.limits (h'.action.call h'.name d') f' answer := by
  have limits : h'.limits = h.limits := congrArg (List.filterMap _) layers
  obtain ⟨answer, ends, conceals⟩ := Application.conceals_failure reaches passing fails
  obtain ⟨answer', ends', conceals'⟩ :=
    Application.conceals_failure reaches' (layers ▸ passing) fails'
  rw [limits] at conceals'
  obtain rfl : answer = answer' := by
    cases conceals with
    | failed whole result events =>
        cases conceals' with
        | failed whole' result' events' => rfl
        | dropped limit mem kept cut =>
            cases cut.symm.trans ((same.cut?_iff mem).1 (whole limit mem))
    | dropped limit mem kept cut =>
        cases conceals' with
        | failed whole' result' events' =>
            cases cut.symm.trans ((same.cut?_iff mem).2 (whole' limit mem))
        | dropped limit' mem' kept' cut' => rfl
  exact ⟨answer, ends, ends', conceals, conceals'⟩

/-- The router that leads the path `/h` to a handler of the name `h`. -/
def Router.single : Router :=
  let tree : Route.Tree := .leaf ("/h".toList.map Route.Symbol.plain) .static (some ⟨"h", []⟩)
  ⟨SortedMap.insert ∅ "GET" tree, SortedMap.insert ∅ "h" ()⟩

/-- The application that has one handler, behind one route. -/
def Application.single (h : Handler) (haltStatus : Option Status) : Application :=
  ⟨.single, SortedMap.insert ∅ "h" h, haltStatus⟩

/-- A request without a query and a body comes to an action with an empty context, if there are no
guards. -/
theorem Application.reaches_single {h : Handler} (unguarded : h.guards = [])
    (haltStatus : Option Status) :
    (single h haltStatus).Reaches ⟨"GET", ⟨"/h", none⟩, [], some []⟩ "h" h ∅ ∅ := by
  have routed : Router.single.find? "GET" "/h" = some ("h", []) := by decide +kernel
  exact ⟨⟨[], [], routed, rfl, rfl⟩, rfl, unguarded ▸ rfl⟩

/-- Two failures that differ in everything, raised at the very moment at which a time limit expires,
below an observer. -/
theorem failures_stay_inside_at_deadline :
    let layers : List LayerEntry :=
      [⟨.ofName "observer", .trace⟩, ⟨.ofName "deadline", .timeout 5⟩,
        ⟨.ofName "catcher", .catchAll false⟩]
    let fail (f : Failure) : Handler :=
      ⟨"h", [], layers, ⟨fun _ _ => do Run.sleep 5; pure (.error f)⟩, []⟩
    let run (f : Failure) (haltStatus : Option Status) : Run Rendered :=
      (Application.single (fail f) haltStatus).dispatch ⟨"GET", ⟨"/h", none⟩, [], some []⟩
    let answer : Rendered := ⟨.internalServerError, ∅, []⟩
    (run (.new "secret") none).ending = .ok answer ∧
      (run (.missing "user" "7") (some .ok)).ending = .ok answer := by
  intro layers fail run answer
  have reaches (f : Failure) (haltStatus : Option Status) :=
    Application.reaches_single (h := fail f) rfl haltStatus
  have passing : ∀ e ∈ layers, e.layer.PassesFailures := by
    simp [layers, Layer.PassesFailures]
  obtain ⟨same, ends, ends', conceals, _⟩ := failures_stay_inside (reaches (.new "secret") none)
    (reaches (.missing "user" "7") (some .ok)) passing rfl rfl rfl ⟨rfl, fun _ => rfl⟩
  cases conceals with
  | failed whole result events => exact ⟨ends, ends'⟩
  | dropped limit mem kept cut =>
      obtain rfl : limit = 5 := List.mem_singleton.1 mem
      cases cut

/-- An action that yields once more at the moment at which a time limit expires is dropped, and one
that takes the same time without that is not. -/
theorem failures_told_apart_by_yield :
    let fail (pause : Run Unit) : Handler :=
      ⟨"h", [], [⟨.ofName "deadline", .timeout 5⟩],
        ⟨fun _ _ => do Run.sleep 5; pause; pure (.error (.new "lost"))⟩, []⟩
    let work (pause : Run Unit) : Run Handled := (fail pause).action.call "h" ∅
    let run (pause : Run Unit) : Run Rendered :=
      (Application.single (fail pause) none).dispatch ⟨"GET", ⟨"/h", none⟩, [], some []⟩
    (work (pure ())).elapsed = (work Run.yield).elapsed ∧
      (work (pure ())).ending = .ok (.error (.new "lost")) ∧
      (work Run.yield).ending = .ok (.error (.new "lost")) ∧
      (run (pure ())).ending = .ok ⟨.internalServerError, ∅, []⟩ ∧
      (run Run.yield).ending = .ok ⟨.gatewayTimeout, ∅, []⟩ := by
  intro fail work run
  have reaches (pause : Run Unit) := Application.reaches_single (h := fail pause) rfl none
  have passing (pause : Run Unit) : ∀ e ∈ (fail pause).layers, e.layer.PassesFailures := by
    simp [fail, Layer.PassesFailures]
  refine ⟨rfl, rfl, rfl, ?_, ?_⟩
  · obtain ⟨answer, ends, conceals⟩ :=
      Application.conceals_failure (reaches (pure ())) (passing _) rfl
    cases conceals with
    | failed whole result events => exact ends
    | dropped limit mem kept cut =>
        obtain rfl : limit = 5 := List.mem_singleton.1 mem
        cases cut
  · obtain ⟨answer, ends, conceals⟩ :=
      Application.conceals_failure (reaches Run.yield) (passing _) rfl
    cases conceals with
    | failed whole result events => cases whole 5 List.mem_cons_self
    | dropped limit mem kept cut => exact ends

end RequestFlow
