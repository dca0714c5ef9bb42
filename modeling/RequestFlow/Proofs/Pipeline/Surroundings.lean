import RequestFlow.Proofs.Pipeline.Containment
import RequestFlow.Proofs.Pipeline.Deadlines

/-!
# What layers make of the chain inside them

Layers know nothing of the chain inside them but when and how it comes to its end. Here that is made
a definition. Entered with a context, layers take a `Course`: either they stay and come to an end of
their own, or they enter the chain, and then all that they do around it is told by `Surroundings`.
These hold the context that is passed on, the steps before, the spans and the nearest deadline
around the chain, and what follows, as a function of the chain's ending and of the time that it
took.

`Chain.course` finds the course of layers without a look at what is inside, and
`Chain.run_eq_course` says that filling it with any chain gives the run of the layers around it.
-/

namespace RequestFlow

namespace Step

variable {μ : Type}

theorem inside_inside (spans spans' : List Span) (step : Step μ) :
    (step.inside spans').inside spans = step.inside (spans ++ spans') := by
  cases step with
  | log e => exact congrArg log (e.inside_inside spans spans')
  | _ => rfl

theorem inside_nil (step : Step μ) : step.inside [] = step := by
  cases step <;> rfl

theorem event?_inside (spans : List Span) (step : Step μ) :
    (step.inside spans).event? = step.event?.map (Event.inside spans) := by
  cases step <;> rfl

/-- Spans move no deadline. -/
theorem cut?_inside (left : Nat) (spans : List Span) (steps : List (Step μ)) :
    cut? left (steps.map (inside spans)) = (cut? left steps).map (List.map (inside spans)) := by
  induction steps generalizing left with
  | nil => rfl
  | cons step rest ih =>
      cases step with
      | sleep d =>
          simp only [List.map_cons, inside, cut?, ih]
          split
          · simp [Function.comp_def, inside]
          · rfl
      | yield =>
          simp only [List.map_cons, inside, cut?, ih]
          split
          · rfl
          · simp [Function.comp_def, inside]
      | _ => simp [inside, cut?, ih, Function.comp_def]

theorem events_inside (spans : List Span) (steps : List (Step μ)) :
    (steps.map (inside spans)).filterMap event? =
      (steps.filterMap event?).map (Event.inside spans) := by
  rw [List.filterMap_map, List.map_filterMap]
  exact congrArg (steps.filterMap ·) (funext fun step => event?_inside spans step)

end Step

/-! ### Operations of layers behind some steps -/

namespace Layer

variable {μ : Type} (handler : String) (steps : List (Step μ)) (r : Marked μ Handled)

theorem observe_prepend :
    observe handler (.prepend steps r) =
      .prepend (steps.map (Step.inside [⟨handler⟩])) (observe handler r) := by
  rw [observe, Marked.bind_prepend, Marked.within_prepend]
  rfl

theorem contain_prepend (caught : Panic → Marked μ Unit) :
    contain handler caught (.prepend steps r) = .prepend steps (contain handler caught r) := by
  rw [contain, Marked.rescue_prepend, answerFailures, Marked.bind_prepend]
  rfl

end Layer

/-- What layers do around a chain. -/
structure Surroundings where
  /-- The context with which the chain is entered. -/
  context : Context
  /-- The steps before. -/
  before : List (Step Empty)
  /-- The spans that are open around the chain, the outermost first. -/
  spans : List Span
  /-- The nearest deadline, if there is one: the time that is left, and what follows when the chain
  is dropped. -/
  deadline : Option (Nat × Run Handled)
  /-- What follows when the chain has come to its end in some time. -/
  after : Except Panic Handled → Nat → Run Handled

namespace Surroundings

def none (c : Context) : Surroundings := ⟨c, [], [], .none, fun ending _ => ⟨[], ending⟩⟩

/-- What the nearest deadline leaves of the steps of a chain, and what follows, if it cuts them. -/
def cut? (s : Surroundings) (steps : List (Step Empty)) :
    Option (List (Step Empty) × Run Handled) :=
  s.deadline.bind fun d => (Step.cut? d.1 steps).map fun kept => (kept, d.2)

/-- What a chain and all that follows it come to. -/
def onward (s : Surroundings) (r : Run Handled) : Run Handled :=
  match s.cut? r.steps with
  | some (kept, expired) => .prepend (kept.map (Step.inside s.spans)) expired
  | .none => .prepend (r.steps.map (Step.inside s.spans)) (s.after r.ending r.elapsed)

/-- The run in which a chain stands in its surroundings. -/
def plug (s : Surroundings) (r : Run Handled) : Run Handled := .prepend s.before (s.onward r)

def preceded (s : Surroundings) (steps : List (Step Empty)) : Surroundings :=
  { s with before := steps ++ s.before }

/-- Surroundings in which something more is done about the end of the run. -/
def followed (s : Surroundings) (f : Run Handled → Run Handled) : Surroundings :=
  { s with
    deadline := s.deadline.map fun d => (d.1, f d.2)
    after := fun ending time => f (s.after ending time) }

/-- One more span around everything. -/
def spanned (s : Surroundings) (span : Span) : Surroundings :=
  { s with before := s.before.map (Step.inside [span]), spans := span :: s.spans }

/-- The nearer one of a deadline and the one that there is, if any. The one that comes first
decides; the other one, if it is around it, still holds for what follows. -/
def nearer (left : Nat) (expired : Run Handled) : Option (Nat × Run Handled) → Nat × Run Handled
  | .none => (left, expired)
  | some (left', expired') =>
    if left < left' then (left, expired) else (left', expired'.limit (left - left') expired)

/-- Surroundings in which a time limit is open that leaves some time when the chain is entered. -/
def hurried (s : Surroundings) (left : Nat) (expired : Run Handled) : Surroundings :=
  { s with
    deadline := some (nearer left expired s.deadline)
    after := fun ending time => (s.after ending time).limit (left - time) expired }

variable (s : Surroundings) (r : Run Handled)

theorem plug_none (c : Context) : (none c).plug r = r := by
  have same : r.steps.map (Step.inside []) = r.steps := by
    simp [funext (Step.inside_nil (μ := Empty))]
  simp only [plug, onward, none, cut?, Option.bind_none, same, Marked.prepend, List.nil_append,
    List.append_nil]

theorem plug_preceded (steps : List (Step Empty)) :
    (s.preceded steps).plug r = .prepend steps (s.plug r) :=
  Marked.prepend_append _ _ _

theorem cut?_followed (f : Run Handled → Run Handled) (steps : List (Step Empty)) :
    (s.followed f).cut? steps = (s.cut? steps).map fun k => (k.1, f k.2) := by
  obtain ⟨c, before, spans, deadline, after⟩ := s
  cases deadline with
  | none => rfl
  | some d =>
      simp only [followed, cut?, Option.map_some, Option.bind_some, Option.map_map,
        Function.comp_def]

/-- What is done about the end of a run leaves its steps alone. -/
theorem plug_followed {f : Run Handled → Run Handled}
    (passes : ∀ steps r, f (.prepend steps r) = .prepend steps (f r)) :
    (s.followed f).plug r = f (s.plug r) := by
  rw [plug, plug, passes, onward, onward, cut?_followed]
  cases s.cut? r.steps with
  | none => simp only [Option.map_none, passes]; rfl
  | some k => simp only [Option.map_some, passes]; rfl

/-- An observing layer opens its span around all that is there, and observes the end. -/
theorem plug_observed (handler : String) :
    ((s.followed (Layer.observe handler)).spanned ⟨handler⟩).plug r =
      Layer.observe handler (s.plug r) := by
  have deeper (steps : List (Step Empty)) :
      steps.map (Step.inside (⟨handler⟩ :: s.spans)) =
        (steps.map (Step.inside s.spans)).map (Step.inside [⟨handler⟩]) := by
    simp only [List.map_map, Function.comp_def, Step.inside_inside, List.singleton_append]
  have same : ((s.followed (Layer.observe handler)).spanned ⟨handler⟩).cut? r.steps =
      (s.cut? r.steps).map fun k => (k.1, Layer.observe handler k.2) :=
    cut?_followed s (Layer.observe handler) r.steps
  rw [plug, plug, Layer.observe_prepend, onward, onward, same]
  cases s.cut? r.steps with
  | none => simp only [Option.map_none, Layer.observe_prepend, ← deeper]; rfl
  | some k => simp only [Option.map_some, Layer.observe_prepend, ← deeper]; rfl

section Limit

variable {left : Nat} {steps kept : List (Step Empty)} {r expired : Run Handled}

theorem limit_inside (spans : List Span) (whole : Step.cut? left steps = .none) :
    Marked.limit left (.prepend (steps.map (Step.inside spans)) r) expired =
      .prepend (steps.map (Step.inside spans)) (r.limit (left - Step.duration steps) expired) := by
  rw [Marked.limit_prepend (by rw [Step.cut?_inside, whole]; rfl), Step.duration_inside]

theorem limit_inside_of_cut (spans : List Span) (cut : Step.cut? left steps = some kept) :
    Marked.limit left (.prepend (steps.map (Step.inside spans)) r) expired =
      .prepend (kept.map (Step.inside spans)) expired :=
  Marked.limit_prepend_of_cut (by rw [Step.cut?_inside, cut]; rfl)

/-- Where a chain stands alone in its surroundings, a time limit cuts it or holds for what
follows. -/
theorem onward_hurried_of_free (s : Surroundings) (left : Nat) (r expired : Run Handled)
    (free : s.deadline = .none) :
    (s.hurried left expired).onward r = (s.onward r).limit left expired := by
  have uncut : s.cut? r.steps = .none := by rw [Surroundings.cut?, free]; rfl
  rw [onward, onward, uncut, Surroundings.cut?, hurried, free]
  simp only [nearer, Option.bind_some]
  cases cut : Step.cut? left r.steps with
  | none => exact (limit_inside s.spans cut).symm
  | some kept => exact (limit_inside_of_cut s.spans cut).symm

/-- Of two time limits around a chain the nearer one counts, and the inner one if both are equal. -/
theorem onward_hurried (s : Surroundings) (left : Nat) (r expired : Run Handled) :
    (s.hurried left expired).onward r = (s.onward r).limit left expired := by
  cases open_ : s.deadline with
  | none => exact onward_hurried_of_free s left r expired open_
  | some d =>
      obtain ⟨left', expired'⟩ := d
      rw [onward, onward, Surroundings.cut?, Surroundings.cut?, hurried, open_]
      simp only [nearer, Option.bind_some]
      by_cases outer : left < left'
      -- The limit around everything comes first, so it does not matter where the other one cuts.
      · rw [if_pos outer]
        cases cut : Step.cut? left r.steps with
        | none =>
            rw [Step.cut?_eq_none_of_le cut (by omega)]
            exact (limit_inside s.spans cut).symm
        | some kept =>
            cases cut' : Step.cut? left' r.steps with
            | none => exact (limit_inside_of_cut s.spans cut).symm
            | some kept' =>
                have same := (Step.cut?_eq_some_iff.1 cut').cut?_of_lt outer
                exact (limit_inside_of_cut s.spans (same.trans cut)).symm
      -- The inner deadline cuts first, and what it leaves ends in time for the outer one. What
      -- follows then has the rest of the outer limit.
      · rw [if_neg outer]
        cases cut' : Step.cut? left' r.steps with
        | none =>
            have cut := Step.cut?_eq_none_of_le cut' (by omega : left' ≤ left)
            exact (limit_inside s.spans cut).symm
        | some kept' =>
            have whole := (Step.cut?_eq_some_iff.1 cut').cut?_of_le (by omega : left' ≤ left)
            have ends := Step.duration_cut? cut'
            simp only [Option.map_some]
            rw [limit_inside s.spans whole, ends]

end Limit

end Surroundings

/-- What layers do when they are entered. -/
inductive Course where
  /-- They come to an end without the chain inside them. -/
  | stays (whole : Run Handled)
  /-- They enter the chain inside them. -/
  | enters (s : Surroundings)

namespace Course

def run (inner : Context → Run Handled) : Course → Run Handled
  | .stays whole => whole
  | .enters s => s.plug (inner s.context)

/-- The surroundings of the chain, if it is entered. -/
def surroundings? : Course → Option Surroundings
  | .stays _ => none
  | .enters s => some s

/-- A course behind some steps, with something more done about the end of the run. -/
def amend (steps : List (Step Empty)) (f : Run Handled → Run Handled) : Course → Course
  | .stays whole => .stays (.prepend steps (f whole))
  | .enters s => .enters ((s.followed f).preceded steps)

def observe (handler : String) : Course → Course
  | .stays whole => .stays (Layer.observe handler whole)
  | .enters s => .enters ((s.followed (Layer.observe handler)).spanned ⟨handler⟩)

/-- A course under a time limit. If it expires before the chain is entered, it never is. -/
def limit (left : Nat) (expired : Run Handled) : Course → Course
  | .stays whole => .stays (whole.limit left expired)
  | .enters s =>
    match Step.cut? left s.before with
    | some kept => .stays (.prepend kept expired)
    | none => .enters (s.hurried (left - Step.duration s.before) expired)

variable {inner : Context → Run Handled}

theorem run_amend (steps : List (Step Empty)) {f : Run Handled → Run Handled}
    (passes : ∀ steps r, f (.prepend steps r) = .prepend steps (f r)) (course : Course) :
    (course.amend steps f).run inner = .prepend steps (f (course.run inner)) := by
  cases course with
  | stays whole => rfl
  | enters s =>
      simp only [amend, run, Surroundings.plug_preceded, Surroundings.plug_followed _ _ passes]
      rfl

theorem run_observe (handler : String) (course : Course) :
    (course.observe handler).run inner = Layer.observe handler (course.run inner) := by
  cases course with
  | stays whole => rfl
  | enters s => exact s.plug_observed _ handler

theorem run_limit (left : Nat) (expired : Run Handled) (course : Course) :
    (course.limit left expired).run inner = (course.run inner).limit left expired := by
  cases course with
  | stays whole => rfl
  | enters s =>
      simp only [limit, run, Surroundings.plug]
      cases cut : Step.cut? left s.before with
      | none =>
          rw [Marked.limit_prepend cut, ← Surroundings.onward_hurried]
          rfl
      | some kept => rw [Marked.limit_prepend_of_cut cut]

end Course

/-! ### The course of layers -/

/-- What a layer does, given what the chain inside it would do with a context. -/
def Layer.course (ahead : Ahead) (c : Context) (inside : Context → Course) : Layer → Course
  | .hook enter =>
    match (enter ahead c).ending with
    | .error p => .stays ⟨(enter ahead c).steps, .error p⟩
    | .ok (.answer result) => .stays ⟨(enter ahead c).steps, .ok result⟩
    | .ok (.delegate c' wayOut) => (inside c').amend (enter ahead c).steps (· >>= wayOut)
  | .trace => (inside c).observe ahead.handler
  | .catchAll true => (inside c).amend [] (contain ahead.handler fun _ => pure ())
  | .catchAll false => inside c
  | .timeout limit => (inside c).limit limit (expired ahead.handler limit)

/-- What layers do around a chain with some names. -/
def Chain.course (handler : String) (names : List String) : List LayerEntry → Context → Course
  | [], c => .enters (.none c)
  | e :: rest, c =>
    e.layer.course ⟨handler, rest.map (fun e => e.id.name) ++ names⟩ c (course handler names rest)

/-! Layers of the application see the names of the layers inside them, and nothing else of those. -/

/-- A layer does the same whichever of two rows of names it sees among those of the layers inside
it. -/
def Layer.Confuses (row row' : List String) : Layer → Prop
  | .hook enter => ∀ handler before behind,
    enter ⟨handler, before ++ (row ++ behind)⟩ = enter ⟨handler, before ++ (row' ++ behind)⟩
  | _ => True

theorem Layer.course_of_confuses {l : Layer} {row row' : List String}
    (confused : l.Confuses row row')
    (handler : String) (before behind : List String) (c : Context) (inside : Context → Course) :
    l.course ⟨handler, before ++ (row ++ behind)⟩ c inside =
      l.course ⟨handler, before ++ (row' ++ behind)⟩ c inside := by
  cases l with
  | hook enter => simp only [course, confused handler before behind]
  | trace => rfl
  | catchAll enabled => cases enabled <;> rfl
  | timeout limit => rfl

/-- Layers that confuse two rows of names take the same course around both. -/
theorem Chain.course_of_confuses (handler : String) {row row' : List String}
    {outside : List LayerEntry} (confused : ∀ e ∈ outside, e.layer.Confuses row row')
    (names : List String) (c : Context) :
    course handler (row ++ names) outside c = course handler (row' ++ names) outside c := by
  induction outside generalizing c with
  | nil => rfl
  | cons e rest ih =>
      have further : course handler (row ++ names) rest = course handler (row' ++ names) rest :=
        funext fun c => ih (fun e mem => confused e (List.mem_cons_of_mem _ mem)) c
      rw [course, course, further]
      exact Layer.course_of_confuses (confused e List.mem_cons_self) handler _ names c _

/-- A layer does with a chain what its course says. -/
theorem Layer.around_eq_course (ahead : Ahead) (c : Context) {inside : Context → Course}
    {chain inner : Context → Run Handled} (fills : ∀ c, chain c = (inside c).run inner)
    (l : Layer) :
    l.around (fun _ => pure ()) ahead chain c = (l.course ahead c inside).run inner := by
  cases l with
  | hook enter =>
      rw [around, course, Marked.ofRun_plain]
      cases ends : (enter ahead c).ending with
      | error p => rw [Marked.bind_error ends]; rfl
      | ok move =>
          rw [Marked.bind_ok ends]
          cases move with
          | answer result => simp only [Marked.steps_pure, List.append_nil]; rfl
          | delegate c' wayOut =>
              simp only [returning_silent, Marked.ofRun_plain, fills]
              rw [Course.run_amend _ fun steps r => Marked.bind_prepend steps r wayOut]
              rfl
  | trace => rw [around, course, returning_silent, fills, Course.run_observe]
  | catchAll enabled =>
      cases enabled with
      | true =>
          rw [around, course, returning_silent, fills,
            Course.run_amend _ fun steps r => contain_prepend _ steps r _]
          rfl
      | false => rw [around, course, returning_silent, fills]
  | timeout limit =>
      rw [around, course, returning_silent, fills, Course.run_limit]
      rfl

theorem Chain.names_foldr_wrap {μ : Type} [Records μ] (handler : String) (outside : List LayerEntry)
    (chain : Chain μ) :
    (outside.foldr (wrap handler) chain).names =
      outside.map (fun e => e.id.name) ++ chain.names := by
  induction outside with
  | nil => rfl
  | cons e rest ih => exact congrArg (e.id.name :: ·) ih

/-- Layers do with any chain inside them what their course says. -/
theorem Chain.run_eq_course (handler : String) (names : List String) (inner : Context → Run Handled)
    (outside : List LayerEntry) (c : Context) :
    (outside.foldr (wrap handler) ⟨names, inner⟩).run c =
      (course handler names outside c).run inner := by
  induction outside generalizing c with
  | nil => exact (Surroundings.plug_none (inner c) c).symm
  | cons e rest ih =>
      rw [List.foldr_cons, course, wrap, names_foldr_wrap]
      exact (LayerEntry.visit_plain e _ _ c).trans (Layer.around_eq_course _ c ih e.layer)

/-- A pipeline is the course of some of its layers, filled with the pipeline of the others. -/
theorem Next.run_append_eq_course (handler : String) (outside inside : List LayerEntry) (a : Action)
    (c : Context) :
    ((ofLayers handler (outside ++ inside) a).run c : Run Handled) =
      (Chain.course handler (inside.map fun e => e.id.name) outside c).run
        (ofLayers handler inside a).run := by
  rw [run_append_eq_foldr, Chain.run_eq_course]

end RequestFlow
