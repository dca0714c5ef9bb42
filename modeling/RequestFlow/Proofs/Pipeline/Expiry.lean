import RequestFlow.Proofs.Pipeline.Surroundings

/-!
# What a time limit leaves of the chain inside it

A layer `timeout` lets the chain inside it run until its deadline. When steps are taken is told by
their timeline, and the chain is late if it is still running behind the deadline or if it yields
just then. A chain that is not late is left as it is. Of a late chain everything that comes in front
of the first pause that reaches the deadline has come to pass, which is what the timeline places up
to the deadline; the rest never happens, and one report and an empty response with status 504 take
its place (`Layer.Limits`).

The layers outside are put around the result as around any other chain: their course depends on its
ending and its time only.
-/

namespace RequestFlow

namespace Step

variable {μ : Type}

def time : Step μ → Nat
  | .sleep d => d
  | _ => 0

/-- Steps, each with the time at which it is taken, from some time on. -/
def timeline : Nat → List (Step μ) → List (Nat × Step μ)
  | _, [] => []
  | now, step :: rest => (now, step) :: timeline (now + step.time) rest

/-- A pause that begins at some time reaches a deadline: a sleep goes on for longer, or a yield
comes just then. -/
def Reaches (deadline now : Nat) : Step μ → Prop
  | .sleep d => now ≤ deadline ∧ deadline < now + d
  | .yield => now = deadline
  | _ => False

/-- Steps are late for a deadline: they go on for longer, or they yield just then. -/
def Late (deadline : Nat) (steps : List (Step μ)) : Prop :=
  deadline < duration steps ∨ (deadline, .yield) ∈ timeline 0 steps

/-- A deadline falls into a pause of some steps. -/
structure Interrupts (deadline : Nat) (front : List (Step μ)) (pause : Step μ)
    (back : List (Step μ)) : Prop where
  reaches : pause.Reaches deadline (duration front)
  /-- What is in front of the pause is not late itself. -/
  first : ¬ Late deadline front
  /-- What is in front of the pause comes up to the deadline. -/
  past : ∀ x ∈ timeline 0 front, x.1 ≤ deadline
  /-- What is behind the pause would come after the deadline, or just then if the pause is a
  yield. -/
  future : ∀ x ∈ timeline (duration front + pause.time) back,
    deadline ≤ x.1 ∧ (pause ≠ .yield → deadline < x.1)

variable {left now : Nat} {steps kept : List (Step μ)}

theorem le_of_mem_timeline {x : Nat × Step μ} (mem : x ∈ timeline now steps) :
    now ≤ x.1 ∧ x.1 ≤ now + duration steps := by
  induction steps generalizing now with
  | nil => cases mem
  | cons step rest ih =>
      have whole : duration (step :: rest) = step.time + duration rest := by
        cases step <;> simp [duration, time]
      rcases List.mem_cons.1 mem with rfl | later
      · exact ⟨Nat.le_refl now, Nat.le_add_right now _⟩
      · have bounds := ih later
        omega

/-- A deadline cuts steps if and only if they are late. -/
theorem cut?_eq_none_iff_not_late : cut? left steps = none ↔ ¬ Late left steps := by
  -- The time at which the steps begin moves in the induction, and the deadline stands still.
  suffices h : ∀ now, cut? left steps = none ↔
      duration steps ≤ left ∧ (now + left, .yield) ∉ timeline now steps by
    rw [h 0, Late, Nat.zero_add, not_or, Nat.not_lt]
  induction steps generalizing left with
  | nil => simp [cut?, duration, timeline]
  | cons step rest ih =>
      intro now
      cases step with
      | log e => simp [cut?, duration, timeline, time, ih now]
      | mark m => simp [cut?, duration, timeline, time, ih now]
      | sleep d =>
          simp only [cut?, duration, timeline, time]
          split
          next fits =>
            have same : now + d + (left - d) = now + left := by omega
            rw [Option.map_eq_none_iff, ih (now + d), same]
            simp only [List.mem_cons, Prod.mk.injEq, reduceCtorEq, and_false, false_or]
            exact and_congr_left fun _ => by omega
          next long =>
            simp only [reduceCtorEq, false_iff, not_and]
            intro short
            omega
      | yield =>
          simp only [cut?, duration, timeline, time, List.mem_cons, Prod.mk.injEq, and_true]
          split
          next now => simp [now]
          next later => simp [Option.map_eq_none_iff, ih now, later]

/-- What is kept of some steps is the part in front of the first pause that reaches the deadline,
and of a sleep the time up to there. -/
def Breaks (left : Nat) (steps kept : List (Step μ)) : Prop :=
  ∃ front pause back, steps = front ++ pause :: back ∧ pause.Reaches left (duration front) ∧
    cut? left front = none ∧ (kept = front ∨ ∃ d, kept = front ++ [.sleep d])

/-- A step that ends before the deadline is kept. -/
theorem Breaks.cons {step : Step μ} (fits : step.time ≤ left)
    (whole : ∀ front, cut? (left - step.time) front = none → cut? left (step :: front) = none)
    (breaks : Breaks (left - step.time) steps kept) :
    Breaks left (step :: steps) (step :: kept) := by
  obtain ⟨front, pause, back, rfl, reaches, still, shape⟩ := breaks
  refine ⟨step :: front, pause, back, rfl, ?_, whole front still, ?_⟩
  · have longer : duration (step :: front) = step.time + duration front := by
      cases step <;> simp [duration, time]
    rw [longer]
    cases pause with
    | sleep d =>
        obtain ⟨begun, goes_on⟩ := reaches
        exact ⟨by omega, by omega⟩
    | yield =>
        have now : duration front = left - step.time := reaches
        exact (by omega : step.time + duration front = left)
    | log e => exact reaches
    | mark m => exact reaches
  · rcases shape with rfl | ⟨d, rfl⟩
    · exact .inl rfl
    · exact .inr ⟨d, rfl⟩

theorem Cut.breaks (cut : Cut left steps kept) : Breaks left steps kept := by
  induction cut with
  | log e _ ih => exact ih.cons (Nat.zero_le _) fun _ still => Option.map_eq_none_iff.2 still
  | mark m _ ih => exact ih.cons (Nat.zero_le _) fun _ still => Option.map_eq_none_iff.2 still
  | sleep fits _ ih =>
      refine Breaks.cons fits (fun front still => ?_) ih
      rw [cut?, if_pos fits]
      exact Option.map_eq_none_iff.2 still
  | yield later _ ih =>
      refine Breaks.cons (Nat.zero_le _) (fun front still => ?_) ih
      rw [cut?, if_neg later]
      exact Option.map_eq_none_iff.2 still
  | @asleep left d late rest =>
      exact ⟨[], .sleep d, rest, rfl, ⟨Nat.zero_le left, by simpa [duration] using late⟩, rfl,
        .inr ⟨left, rfl⟩⟩
  | yielding rest => exact ⟨[], .yield, rest, rfl, rfl, rfl, .inl rfl⟩

/-- A pause that reaches a deadline separates what comes up to it from what would come later. -/
theorem Reaches.interrupts {pause : Step μ} {front : List (Step μ)}
    (reaches : pause.Reaches left (duration front)) (whole : cut? left front = none)
    (back : List (Step μ)) : Interrupts left front pause back := by
  refine ⟨reaches, cut?_eq_none_iff_not_late.1 whole, ?_, ?_⟩
  · intro x mem
    have bounds := le_of_mem_timeline mem
    have ends : ¬ left < duration front :=
      fun longer => cut?_eq_none_iff_not_late.1 whole (.inl longer)
    omega
  · intro x mem
    have bounds := le_of_mem_timeline mem
    cases pause with
    | sleep d =>
        have goes_on : left < duration front + d := reaches.2
        have slept : (sleep d : Step μ).time = d := rfl
        exact ⟨by omega, fun _ => by omega⟩
    | yield =>
        have now : duration front = left := reaches
        exact ⟨by omega, fun other => absurd rfl other⟩
    | log e => exact reaches.elim
    | mark m => exact reaches.elim

/-- What a deadline leaves of late steps: the events and the marks in front of a pause. -/
theorem exists_interrupts (cut : cut? left steps = some kept) :
    ∃ front pause back, steps = front ++ pause :: back ∧ Interrupts left front pause back ∧
      kept.filterMap event? = front.filterMap event? ∧
      kept.filterMap mark? = front.filterMap mark? := by
  obtain ⟨front, pause, back, split, reaches, whole, shape⟩ := (cut?_eq_some_iff.1 cut).breaks
  refine ⟨front, pause, back, split, reaches.interrupts whole back, ?_⟩
  rcases shape with rfl | ⟨d, rfl⟩
  · exact ⟨rfl, rfl⟩
  · rw [List.filterMap_append, List.filterMap_append]
    exact ⟨List.append_nil _, List.append_nil _⟩

end Step

/-! ### The layer -/

/-- What a time limit makes of the chain inside it, which is entered with a context. -/
inductive Layer.Limits (e : LayerEntry) (handler : String) (limit : Nat) (c : Context)
    (inner whole : Marked Visit Handled) : Prop where
  /-- A chain that is not late is left as it is: its steps and its ending are those of the layer. -/
  | returned (intime : ¬ Step.Late limit inner.steps) (same : whole.unmark = inner.unmark)
  /-- Of a late chain there is what comes up to the deadline. Then the layer reports and answers. -/
  | dropped (late : Step.Late limit inner.steps) (front : List (Step Visit)) (pause : Step Visit)
      (back : List (Step Visit)) (split : inner.steps = front ++ pause :: back)
      (interrupts : Step.Interrupts limit front pause back)
      (events : whole.events = front.filterMap Step.event? ++
        [⟨[], .notice (.timedOut handler (reportedMillis limit))⟩])
      (visits : whole.marks = .enter e c :: front.filterMap Step.mark? ++
        [.resume e .expiry, .leave e (.ok (.respond (.bare .gatewayTimeout)))])
      (elapsed : whole.elapsed = limit)
      (ending : whole.ending = .ok (.ok (.respond (.bare .gatewayTimeout))))

namespace LayerEntry

variable {e : LayerEntry} {ahead : Ahead} {inner : Context → Marked Visit Handled} {c : Context}
variable {limit : Nat} {kept : List (Step Visit)}

/-- The announcement of a result moves no deadline. -/
theorem cut?_returning_of_cut {r : Marked Visit Handled}
    (cut : Step.cut? limit r.steps = some kept) :
    Step.cut? limit (Layer.returning e.resume r).steps = some kept := by
  cases ends : r.ending with
  | error p => rwa [Layer.returning, Marked.bind_error ends]
  | ok result =>
      rw [Layer.returning, Marked.bind_ok ends]
      change Step.cut? limit (r.steps ++ [.mark (.resume e (.result result))]) = some kept
      rw [Step.cut?_append, cut]

theorem limits_visit (ahead : Ahead) (inner : Context → Marked Visit Handled) (c : Context)
    (here : e.layer = .timeout limit) :
    Layer.Limits e ahead.handler limit c (inner c) (e.visit ahead inner c) := by
  cases cut : Step.cut? limit (inner c).steps with
  | none =>
      refine .returned (Step.cut?_eq_none_iff_not_late.1 cut) ?_
      have uncut : Step.cut? limit (inner c).unmark.steps = none := by
        rw [Marked.unmark, Step.cut?_unmark, cut]
        rfl
      rw [unmark_visit, visit_plain, here, Layer.around, Layer.returning_silent,
        Marked.limit_of_none uncut]
  | some kept =>
      obtain ⟨front, pause, back, split, interrupts, events, marks⟩ := Step.exists_interrupts cut
      have late : Step.Late limit (inner c).steps := Classical.byContradiction fun intime => by
        rw [Step.cut?_eq_none_iff_not_late.2 intime] at cut
        cases cut
      have whole : e.visit ahead inner c =
          ⟨.mark (.enter e c) :: (kept ++ [.mark (.resume e .expiry),
              .log ⟨[], .notice (.timedOut ahead.handler (Layer.reportedMillis limit))⟩,
              .mark (.leave e (.ok (.respond (.bare .gatewayTimeout))))]),
            .ok (.ok (.respond (.bare .gatewayTimeout)))⟩ := by
        rw [visit, here, Layer.around, Marked.limit, cut?_returning_of_cut cut]
        rw [Visit.enclose, Marked.bind_ok rfl, Marked.bind_ok rfl]
        change (⟨[.mark _] ++ ((kept ++ _) ++ _), _⟩ : Marked Visit Handled) = _
        rw [List.append_assoc]
        rfl
      rw [whole]
      refine .dropped late front pause back split interrupts ?_ ?_ ?_ rfl
      · rw [← events]
        exact List.filterMap_append
      · rw [← marks]
        exact congrArg (Visit.enter e c :: ·) List.filterMap_append
      · have ends := Step.duration_cut? cut
        simpa [Marked.elapsed, Step.duration, Step.duration_append] using ends

end LayerEntry

/-- The walk gives a time limit at its depth the walk from the next depth on. -/
theorem Next.limits_of_timeout (n : Next) (c : Context) {id : HookId} {limit : Nat}
    (here : n.layers[n.depth]? = some ⟨id, .timeout limit⟩) :
    Layer.Limits ⟨id, .timeout limit⟩ n.handler limit c (n.inner.run c) (n.run c) := by
  obtain ⟨inside, found⟩ := List.getElem?_eq_some_iff.1 here
  have entered : (n.run c : Marked Visit Handled) =
      n.layers[n.depth].visit n.ahead n.inner.run c := by rw [Next.run, dif_pos inside]
  rw [entered, found]
  exact LayerEntry.limits_visit n.ahead n.inner.run c rfl

/-- A time limit cuts the chain inside it at its deadline and is otherwise invisible. Wherever it
stands in a pipeline, the chain inside it is the pipeline of the layers inside it and the action. If
that chain on its own is not late, its run is that of the layer. If it is late, what comes in front
of the pause at the deadline has come to pass, and nothing behind it does: one report with the limit
and an empty response with status 504 follow, exactly at the deadline. The layers outside are put
around the result by a course that depends on them alone, so they go on with it as with any other
result. -/
theorem timeout_cuts_at_deadline (handler : String) (outside inside : List LayerEntry) (id : HookId)
    (limit : Nat) (a : Action) :
    let layers := outside ++ ⟨id, .timeout limit⟩ :: inside
    let walk (depth : Nat) (c : Context) : Marked Visit Handled :=
      (⟨handler, layers, depth, a⟩ : Next).run c
    let names := (layers.drop outside.length).map fun e => e.id.name
    (∀ depth c, (walk depth c).unmark = (⟨handler, layers, depth, a⟩ : Next).run c) ∧
    (∀ c, walk (outside.length + 1) c = (Next.ofLayers handler inside a).run c) ∧
    (∀ c, Layer.Limits ⟨id, .timeout limit⟩ handler limit c
      (walk (outside.length + 1) c) (walk outside.length c)) ∧
    (∀ c, (walk 0 c).unmark =
      (Chain.course handler names outside c).run fun c => (walk outside.length c).unmark) ∧
    (limit < Nat.pow 2 64 → Layer.reportedMillis limit = limit) := by
  intro layers walk names
  have fromHere : layers.drop outside.length = ⟨id, .timeout limit⟩ :: inside := List.drop_left
  have behind : layers.drop (outside.length + 1) = inside := by
    rw [← List.drop_drop, fromHere]
    rfl
  have here : layers[outside.length]? = some ⟨id, .timeout limit⟩ := by
    simp [layers]
  have plain (depth : Nat) (c : Context) :
      (walk depth c).unmark = (⟨handler, layers, depth, a⟩ : Next).run c := Next.unmark_run _ c
  refine ⟨plain, ?_, ?_, ?_, Layer.reportedMillis_of_lt⟩
  · intro c
    simp only [walk, Next.run_eq_foldr, behind]
    rfl
  · intro c
    exact Next.limits_of_timeout ⟨handler, layers, outside.length, a⟩ c here
  · intro c
    have front : (fun c => (walk outside.length c).unmark) =
        (Next.ofLayers handler (⟨id, .timeout limit⟩ :: inside) a).run := by
      funext c
      simp only [plain, Next.run_eq_foldr, fromHere]
      rfl
    rw [plain, front, show names = _ from congrArg (List.map fun e => e.id.name) fromHere]
    exact Next.run_append_eq_course handler outside _ a c

/-- A deadline that falls into a sleep on the way out of a layer inside, when the action has long
returned, and an observer around it all. -/
theorem timeout_cuts_on_the_way_out :
    let observer : LayerEntry := ⟨.ofName "observer", .trace⟩
    let lazy : LayerEntry := ⟨.ofName "lazy", .hook fun _ c => do
      Run.sleep 3
      pure (.delegate c fun result => do Run.sleep 3; pure result)⟩
    let layers := [observer, ⟨.ofName "deadline", .timeout 5⟩, lazy]
    let walk (depth : Nat) : Marked Visit Handled :=
      (⟨"h", layers, depth, .of fun _ => pure "done"⟩ : Next).run ∅
    5 < Nat.pow 2 64 ∧ (walk 2).elapsed = 6 ∧
    (walk 2).ending = .ok (.ok (.respond (.text "done"))) ∧
      (walk 1).elapsed = 5 ∧ (walk 1).ending = .ok (.ok (.respond (.bare .gatewayTimeout))) ∧
      Layer.reportedMillis 5 = 5 := by
  intro observer lazy layers walk
  have word : 5 < Nat.pow 2 64 := by decide
  obtain ⟨_, own, limits, _, reported⟩ := timeout_cuts_at_deadline "h" [observer] [lazy]
    (.ofName "deadline") 5 (.of fun _ => pure "done")
  have alone : walk 2 = (Next.ofLayers "h" [lazy] (.of fun _ => pure "done")).run ∅ := own ∅
  rw [Next.run_eq_foldr] at alone
  have takes : (walk 2).elapsed = 6 := by
    rw [alone]
    rfl
  have result : (walk 2).ending = .ok (.ok (.respond (.text "done"))) := by
    rw [alone]
    rfl
  refine ⟨word, takes, result, ?_⟩
  cases limits ∅ with
  | returned intime same =>
      have late : 5 < (walk 2).elapsed := takes ▸ by decide
      exact absurd (.inl late) intime
  | dropped late front pause back split interrupts events visits elapsed ending =>
      exact ⟨elapsed, ending, reported word⟩

/-- A chain that ends at the deadline is dropped all the same if it yields once more just then. -/
theorem yield_at_deadline_dropped :
    let action : Action := ⟨fun _ _ => do
      Run.sleep 5
      Run.yield
      pure (.ok (.respond (.text "done")))⟩
    let walk (depth : Nat) : Run Handled :=
      (⟨"h", [⟨.ofName "deadline", .timeout 5⟩], depth, action⟩ : Next).run ∅
    (walk 1).elapsed ≤ 5 ∧ (walk 1).ending = .ok (.ok (.respond (.text "done"))) ∧
      (walk 0).ending = .ok (.ok (.respond (.bare .gatewayTimeout))) := by
  intro action walk
  have inner : walk 1 = ⟨[.sleep 5, .yield], .ok (.ok (.respond (.text "done")))⟩ :=
    (Next.run_eq_foldr _ _).trans rfl
  have whole : walk 0 = ⟨[.sleep 5] ++ Run.reports [.timedOut "h" 5],
      .ok (.ok (.respond (.bare .gatewayTimeout)))⟩ := (Next.run_eq_foldr _ _).trans rfl
  rw [inner, whole]
  exact ⟨Nat.le_refl 5, rfl, rfl⟩

end RequestFlow
