import RequestFlow.Proofs.Pipeline.Surroundings

/-!
# Observers are transparent

A layer `trace` looks at the chain inside it and reports what it sees; a layer `catchAll false` does
not even that. Put into a pipeline at any place, neither of them changes how a run ends or how long
it takes. The second changes nothing at all. The first opens its span around the events of the chain
inside it and adds one report of its own, if that chain returns a result.

Everything that the layers outside do to the chain inside them is told by its `Surroundings`, and
those see the ending and the time of a chain only. One thing escapes them: a layer of the
application can see the names of the layers ahead of it, and a layer put in between adds a name. So
what is said here is said for layers outside that overlook that name.
-/

namespace RequestFlow

/-- A layer does the same whether or not it sees a name among those of the layers inside it. -/
def Layer.Overlooks (name : String) : Layer → Prop
  | .hook enter => ∀ handler before behind,
    enter ⟨handler, before ++ name :: behind⟩ = enter ⟨handler, before ++ behind⟩
  | _ => True

/-- What an observer makes of a chain in some surroundings: the part of the chain's steps that come
to pass, and the reports that the observer adds. -/
inductive Surroundings.Shows (s : Surroundings) (r : Run Handled) :
    List (Step Empty) → List Notice → Prop where
  /-- The chain returns a result, which is reported. -/
  | result (result : Handled) (uncut : s.cut? r.steps = .none) (ends : r.ending = .ok result) :
      Shows s r r.steps [.ofHandled result]
  /-- The chain panics. -/
  | panic (p : Panic) (uncut : s.cut? r.steps = .none) (ends : r.ending = .error p) :
      Shows s r r.steps []
  /-- The nearest deadline drops the chain. -/
  | expiry (kept : List (Step Empty)) (expired : Run Handled)
      (cut : s.cut? r.steps = some (kept, expired)) : Shows s r kept []

def Run.reportsInside (spans : List Span) (ns : List Notice) : List (Step Empty) :=
  (Run.reports ns).map (Step.inside spans)

/-! ### What layers cannot tell apart -/

/-- To overlook a name is to confuse it with no name. -/
theorem Layer.Overlooks.confuses {l : Layer} {name : String} (overlooked : l.Overlooks name) :
    l.Confuses [name] [] := by
  cases l with
  | hook enter => exact overlooked
  | _ => trivial

/-- Layers that overlook a name take the same course with and without it. -/
theorem Chain.course_of_overlooks (handler : String) {name : String} {names : List String}
    {outside : List LayerEntry} (overlooked : ∀ e ∈ outside, e.layer.Overlooks name) (c : Context) :
    course handler (name :: names) outside c = course handler names outside c :=
  course_of_confuses handler (fun e mem => (overlooked e mem).confuses) names c

/-! ### One observer -/

/-- What an observer reports about the end of a chain. -/
def Layer.observed : Except Panic Handled → List Notice
  | .ok result => [.ofHandled result]
  | .error _ => []

namespace Run

variable (spans : List Span) (ns : List Notice)

theorem duration_reportsInside : Step.duration (reportsInside spans ns) = 0 := by
  induction ns with
  | nil => rfl
  | cons n rest ih => exact ih

/-- No deadline that the steps before them meet falls into reports. -/
theorem cut?_append_reportsInside {left : Nat} {steps : List (Step Empty)}
    (whole : Step.cut? left steps = none) :
    Step.cut? left (steps ++ reportsInside spans ns) = none := by
  rw [Step.cut?_append, whole, reportsInside, Step.cut?_inside, cut?_reports]
  rfl

theorem reportsInside_inside (outer : List Span) :
    (reportsInside spans ns).map (Step.inside outer) = reportsInside (outer ++ spans) ns := by
  simp only [reportsInside, List.map_map, Function.comp_def, Step.inside_inside]

theorem events_reportsInside :
    (reportsInside spans ns).filterMap Step.event? = ns.map fun n => ⟨spans, .notice n⟩ := by
  induction ns with
  | nil => rfl
  | cons n rest ih =>
      rw [List.map_cons, ← ih]
      simp [reportsInside, reports, Step.inside, Step.event?, Event.inside]

end Run

namespace Layer

variable (handler : String) (r : Run Handled)

/-- An observed chain does what the chain does, inside a span, and what is observed is reported. -/
theorem observe_eq :
    observe handler r =
      ⟨r.steps.map (Step.inside [⟨handler⟩]) ++ Run.reportsInside [⟨handler⟩] (observed r.ending),
        r.ending⟩ := by
  cases ends : r.ending with
  | ok result =>
      rw [observe, Marked.bind_ok ends, Marked.within, List.map_append]
      rfl
  | error p =>
      rw [observe, Marked.bind_error ends, Marked.within]
      exact congrArg (Marked.mk · _) (List.append_nil _).symm

theorem elapsed_observe : (observe handler r).elapsed = r.elapsed := by
  rw [observe_eq, Marked.elapsed, Step.duration_append, Step.duration_inside,
    Run.duration_reportsInside, Marked.elapsed, Nat.add_zero]

theorem level_observed (ending : Except Panic Handled) :
    ∀ n ∈ observed ending, n.level = .info := by
  intro n reported
  cases ending with
  | error p => cases reported
  | ok result =>
      obtain rfl := List.mem_singleton.1 reported
      rcases result with f | o
      · rfl
      · cases o <;> rfl

end Layer

namespace Surroundings

variable (s : Surroundings) (handler : String) (r : Run Handled)

/-- A deadline falls into an observed chain where it falls into the chain. -/
theorem cut?_observe :
    s.cut? (Layer.observe handler r).steps =
      (s.cut? r.steps).map fun k => (k.1.map (Step.inside [⟨handler⟩]), k.2) := by
  rw [Layer.observe_eq]
  obtain ⟨c, before, spans, deadline, after⟩ := s
  cases deadline with
  | none => rfl
  | some d =>
      obtain ⟨left, expired⟩ := d
      simp only [cut?, Option.bind_some]
      cases cut : Step.cut? left r.steps with
      | none =>
          rw [Run.cut?_append_reportsInside _ _ (by rw [Step.cut?_inside, cut]; rfl)]
          rfl
      | some kept =>
          rw [Step.cut?_append, Step.cut?_inside, cut]
          rfl

/-- Observed or not, the same part of a chain comes to pass, and the same follows. -/
theorem onward_observe :
    ∃ kept own rest, s.Shows r kept own ∧
      s.onward r = .prepend (kept.map (Step.inside s.spans)) rest ∧
      s.onward (Layer.observe handler r) =
        .prepend (kept.map (Step.inside (s.spans ++ [⟨handler⟩])) ++
          Run.reportsInside (s.spans ++ [⟨handler⟩]) own) rest := by
  have nested (steps : List (Step Empty)) :
      (steps.map (Step.inside [⟨handler⟩])).map (Step.inside s.spans) =
        steps.map (Step.inside (s.spans ++ [⟨handler⟩])) := by
    simp only [List.map_map, Function.comp_def, Step.inside_inside]
  have seen := s.cut?_observe handler r
  -- A deadline drops the observer together with the chain, before it reports anything.
  cases cut : s.cut? r.steps with
  | some k =>
      obtain ⟨kept, expired⟩ := k
      rw [cut, Option.map_some] at seen
      refine ⟨kept, [], expired, .expiry kept expired cut, by rw [onward, cut], ?_⟩
      rw [onward, seen, Run.reportsInside]
      simp only [nested, Run.reports, List.map_nil, List.append_nil]
  | none =>
      rw [cut, Option.map_none] at seen
      have shows : s.Shows r r.steps (Layer.observed r.ending) := by
        cases ends : r.ending with
        | ok result => exact .result result cut ends
        | error p => exact .panic p cut ends
      refine ⟨r.steps, _, s.after r.ending r.elapsed, shows, by rw [onward, cut], ?_⟩
      rw [onward, seen]
      simp only [Layer.elapsed_observe]
      rw [Layer.observe_eq, List.map_append, nested, Run.reportsInside_inside]

end Surroundings

/-! ### A pipeline with an observer in it -/

/-- A handler without guards is the fold of its layers. -/
theorem Handler.handle_of_no_guards (name : String) (layers : List LayerEntry) (a : Action)
    (duplicates : List (HookId × Nat)) (c : Context) :
    ((⟨name, [], layers, a, duplicates⟩ : Handler).handle c : Run Handled) =
      (Chain.ofLayers name layers a).run c :=
  (Marked.pure_bind _ _).trans (Next.run_eq_foldr _ _)

/-- A layer put in behind layers that overlook its name is run on their course. -/
theorem Next.run_insert (handler : String) {outside : List LayerEntry} {e : LayerEntry}
    (overlooked : ∀ o ∈ outside, o.layer.Overlooks e.id.name) (inside : List LayerEntry)
    (a : Action) (c : Context) :
    ((ofLayers handler (outside ++ e :: inside) a).run c : Run Handled) =
      (Chain.course handler (inside.map fun e => e.id.name) outside c).run
        (e.layer.around (fun _ => pure ()) ⟨handler, inside.map fun e => e.id.name⟩
          (ofLayers handler inside a).run) := by
  rw [run_append_eq_course, List.map_cons, Chain.course_of_overlooks handler overlooked]
  exact congrArg (Course.run · _) (funext fun c => run_cons handler e inside a c)

/-- The surroundings of a place among the layers of a handler, if a run comes to that place. The
names are those of the layers further in. -/
def Handler.surroundings? (h : Handler) (outside : List LayerEntry) (names : List String)
    (c : Context) : Option Surroundings :=
  match (Guard.checkAll h.name h.guards c : Run (Context ⊕ Outcome)).ending with
  | .ok (.inl c') => (Chain.course h.name names outside c').surroundings?
  | _ => none

/-- What a run with an observer in it has in common with the run without, and what it adds, when the
observer stands in some surroundings, if it is reached at all. -/
inductive Observed (handler : String) (inner : Context → Run Handled) (plain traced : Run Handled) :
    Option Surroundings → Prop where
  /-- The observer is not reached, and nothing is added. -/
  | unreached (same : traced = plain) : Observed handler inner plain traced none
  /-- The events of the chain inside are the same under one more span, and what is reported follows
  them. -/
  | reached (s : Surroundings) (kept : List (Step Empty)) (own : List Notice)
      (before after : List Event)
      (shows : s.Shows (inner s.context) kept own)
      (level : ∀ n ∈ own, n.level = .info)
      (ending : traced.ending = plain.ending)
      (elapsed : traced.elapsed = plain.elapsed)
      (without : plain.events =
        before ++ (kept.filterMap Step.event?).map (Event.inside s.spans) ++ after)
      (under : traced.events =
        before ++ (kept.filterMap Step.event?).map (Event.inside (s.spans ++ [⟨handler⟩])) ++
          own.map (fun n => ⟨s.spans ++ [⟨handler⟩], .notice n⟩) ++ after) :
      Observed handler inner plain traced (some s)

namespace Observed

variable {handler : String} {inner : Context → Run Handled} {plain traced : Run Handled}
variable {s? : Option Surroundings}

theorem result_eq (seen : Observed handler inner plain traced s?) :
    traced.ending = plain.ending ∧ traced.elapsed = plain.elapsed := by
  cases seen with
  | unreached same => exact same ▸ ⟨rfl, rfl⟩
  | reached s kept own before after shows level ending elapsed without under =>
      exact ⟨ending, elapsed⟩

/-- What both runs do before does not matter. -/
theorem prepend (steps : List (Step Empty)) (seen : Observed handler inner plain traced s?) :
    Observed handler inner (.prepend steps plain) (.prepend steps traced) s? := by
  cases seen with
  | unreached same => exact .unreached (congrArg _ same)
  | reached s kept own before after shows level ending elapsed without under =>
      refine .reached s kept own (steps.filterMap Step.event? ++ before) after shows level
        ending ?_ ?_ ?_
      · rw [Marked.elapsed_prepend, Marked.elapsed_prepend, elapsed]
      · rw [Marked.events_prepend, without]
        simp only [List.append_assoc]
      · rw [Marked.events_prepend, under]
        simp only [List.append_assoc]

/-- An observer under a course is seen only if the course enters the chain. -/
theorem of_course (handler : String) (inner : Context → Run Handled) (course : Course) :
    Observed handler inner (course.run inner)
      (course.run fun c => Layer.observe handler (inner c)) course.surroundings? := by
  cases course with
  | stays whole => exact .unreached rfl
  | enters s =>
      obtain ⟨kept, own, rest, shows, plain, traced⟩ := s.onward_observe handler (inner s.context)
      simp only [Course.run, Course.surroundings?, Surroundings.plug, plain, traced]
      apply prepend
      refine .reached s kept own [] rest.events shows ?_ rfl ?_ ?_ ?_
      · intro n reported
        cases shows with
        | result result uncut ends => exact Layer.level_observed (.ok result) n reported
        | panic p uncut ends => cases reported
        | expiry kept expired cut => cases reported
      · simp only [Marked.elapsed_prepend, Step.duration_append, Step.duration_inside,
          Run.duration_reportsInside, Nat.add_zero]
      · rw [Marked.events_prepend, Step.events_inside, List.nil_append]
      · rw [Marked.events_prepend, List.filterMap_append, Step.events_inside,
          Run.events_reportsInside, List.nil_append]

end Observed

/-- Observers are transparent. Put at any place among the layers of a handler whose layers outside
of that place overlook its name, a layer `catchAll false` changes nothing, and a layer `trace`
changes neither the ending of a run nor its time. If `trace` is not reached, nothing is added;
otherwise the events of the chain inside it stand under one more span, at the place of the layer,
and all other events are as they were. One report at the level of information follows the chain if
it returns, and none does if it panics or if a time limit around it expires. -/
theorem observers_transparent (h : Handler) (outside inside : List LayerEntry) (id : HookId)
    (c : Context) (overlooked : ∀ e ∈ outside, e.layer.Overlooks id.name) :
    let run (layers : List LayerEntry) : Run Handled := { h with layers }.handle c
    let plain := run (outside ++ inside)
    let traced := run (outside ++ ⟨id, .trace⟩ :: inside)
    run (outside ++ ⟨id, .catchAll false⟩ :: inside) = plain ∧
      traced.ending = plain.ending ∧ traced.elapsed = plain.elapsed ∧
      Observed h.name (Next.ofLayers h.name inside h.action).run plain traced
        (h.surroundings? outside (inside.map fun e => e.id.name) c) := by
  intro run plain traced
  have handled (layers : List LayerEntry) : run layers =
      (Guard.checkAll h.name h.guards c : Run _) >>=
        Sum.elim (Next.ofLayers h.name layers h.action).run fun outcome => pure (.ok outcome) :=
    congrArg (_ >>= ·) (funext fun s => by cases s <;> rfl)
  have silent : ((Next.ofLayers h.name (outside ++ ⟨id, .catchAll false⟩ :: inside) h.action).run :
      Context → Run Handled) = (Next.ofLayers h.name (outside ++ inside) h.action).run := by
    funext c'
    rw [Next.run_insert h.name overlooked, Next.run_append_eq_course]
    exact congrArg (Course.run · _) (funext fun c => Layer.returning_silent _)
  have entered (c' : Context) : Observed h.name (Next.ofLayers h.name inside h.action).run
      ((Next.ofLayers h.name (outside ++ inside) h.action).run c')
      ((Next.ofLayers h.name (outside ++ ⟨id, .trace⟩ :: inside) h.action).run c')
      (Chain.course h.name (inside.map fun e => e.id.name) outside c').surroundings? := by
    rw [Next.run_insert h.name overlooked, Next.run_append_eq_course]
    simp only [Layer.around, Layer.returning_silent]
    exact Observed.of_course _ _ _
  have seen : Observed h.name (Next.ofLayers h.name inside h.action).run plain traced
      (h.surroundings? outside (inside.map fun e => e.id.name) c) := by
    simp only [plain, traced, handled, Handler.surroundings?]
    rcases ends : (Guard.checkAll h.name h.guards c : Run _).ending with p | c' | outcome
    · rw [Marked.bind_error ends, Marked.bind_error ends]
      exact .unreached rfl
    · rw [Marked.bind_ok ends, Marked.bind_ok ends]
      exact (entered c').prepend _
    · rw [Marked.bind_ok ends, Marked.bind_ok ends]
      exact .unreached rfl
  refine ⟨?_, seen.result_eq.1, seen.result_eq.2, seen⟩
  rw [handled]
  simp only [plain, handled, silent]

/-- A failing action that takes all the time that a layer around it leaves, and an observer in
between. The failure is still what the run ends with, and it is reported behind what the action
wrote. -/
theorem observers_transparent_at_deadline :
    let deadline : LayerEntry := ⟨.ofName "deadline", .timeout 5⟩
    let relay : LayerEntry := ⟨.ofName "relay", .hook fun _ c => pure (.delegate c pure)⟩
    let action : Action := ⟨fun _ _ => do
      Run.log (.note "working")
      Run.sleep 5
      pure (.error (.new "lost"))⟩
    let traced : Run Handled :=
      (⟨"h", [], [deadline, relay, ⟨.ofName "observer", .trace⟩], action, []⟩ : Handler).handle ∅
    (∀ e ∈ [deadline, relay], e.layer.Overlooks "observer") ∧
      traced.ending = .ok (.error (.new "lost")) ∧
      traced.events = [⟨[⟨"h"⟩], .note "working"⟩, ⟨[⟨"h"⟩], .notice (.failed "lost")⟩] := by
  intro deadline relay action traced
  have overlooked : ∀ e ∈ [deadline, relay], e.layer.Overlooks "observer" := by
    simp [deadline, relay, Layer.Overlooks]
  have plain : ((⟨"h", [], [deadline, relay], action, []⟩ : Handler).handle ∅ : Run Handled) =
      ⟨[.log ⟨[], .note "working"⟩, .sleep 5], .ok (.error (.new "lost"))⟩ :=
    (Handler.handle_of_no_guards _ _ _ _ _).trans rfl
  have same := (observers_transparent ⟨"h", [], [], action, []⟩ [deadline, relay] []
    (.ofName "observer") ∅ overlooked).2.1
  refine ⟨overlooked, same.trans (congrArg Marked.ending plain), ?_⟩
  rw [show traced = _ from Handler.handle_of_no_guards _ _ _ _ _]
  rfl

/-- A layer of the application that writes down how it sees the layers inside it tells an observer
from nothing. -/
theorem observers_seen_by_name :
    let peek : LayerEntry := ⟨.ofName "peek", .hook fun ahead c => do
      Run.log (.note ahead.shown)
      pure (.delegate c pure)⟩
    let run (layers : List LayerEntry) : Run Handled :=
      (⟨"h", [], layers, .of fun _ => pure "done", []⟩ : Handler).handle ∅
    let alone : Event := ⟨[], .note "Next \x7b handler: \"h\", remaining: [] \x7d"⟩
    let watched : Event := ⟨[], .note "Next \x7b handler: \"h\", remaining: [watch] \x7d"⟩
    (run [peek]).events = [alone] ∧
      (run [peek, ⟨.ofName "watch", .catchAll false⟩]).events = [watched] ∧
      (run [peek, ⟨.ofName "watch", .trace⟩]).events =
        [watched, ⟨[⟨"h"⟩], .notice (.completed .ok)⟩] ∧
      watched ≠ alone := by
  intro peek run alone watched
  have fold (layers : List LayerEntry) : run layers = _ :=
    Handler.handle_of_no_guards "h" layers _ [] ∅
  refine ⟨?_, ?_, ?_, ?_⟩
  · rw [fold]
    rfl
  · rw [fold]
    rfl
  · rw [fold]
    rfl
  · simp [watched, alone]

end RequestFlow
