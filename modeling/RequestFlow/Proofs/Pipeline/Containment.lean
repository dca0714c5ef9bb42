import RequestFlow.Proofs.Pipeline.Guards
import RequestFlow.Proofs.Pipeline.Nesting

/-!
# What a catching layer contains

A layer `catchAll true` splits a pipeline in two. Whatever the chain inside it comes to, be it an
outcome, a failure or a panic, the layer returns an outcome (`Layer.Contains`). The layers outside
of it, and the guards before all layers, are none of its business: what they raise ends the run as
if the layer were not there. So a handler with such a layer outermost never fails, and it panics
only if one of its guards does.
-/

namespace RequestFlow

/-- A run is answered for a failure: after everything that it did before, two reports and the
message as a JSON body. -/
structure Layer.AnswersFor (handler : String) (kind : Failure.Kind) (origin : Failure.Origin)
    (message : String) (inner whole : Run Handled) : Prop where
  steps : whole.steps = inner.steps ++
    Run.reports [.failureCaught handler kind origin message, .traceDisabled handler]
  ending : whole.ending =
    .ok (.ok (.respond ⟨.internalServerError, [], .json (.string message)⟩))

/-- What a catching layer makes of the chain inside it. -/
inductive Layer.Contains (handler : String) (inner whole : Run Handled) : Prop where
  /-- An outcome is passed on, and nothing is added. -/
  | passed (o : Outcome) (ends : inner.ending = .ok (.ok o)) (same : whole = inner)
  /-- A failure is answered under its own kind and origin. -/
  | failed (f : Failure) (ends : inner.ending = .ok (.error f))
      (answers : AnswersFor handler f.kind f.origin f.message inner whole)
  /-- A panic is answered like a failure of an action with its text. -/
  | panicked (p : Panic) (ends : inner.ending = .error p)
      (answers : AnswersFor handler .action .action
        (p.message.getD "panic in request pipeline") inner whole)

/-- How a layer of an application ends: on its way in, on its way out, or by a panic from within. -/
inductive Layer.HookEnds (enter : Ahead → Context → Run Layer.Move) (ahead : Ahead)
    (inner : Context → Run Handled) (c : Context) : Except Panic Handled → Prop where
  | panics (p : Panic) (ends : (enter ahead c).ending = .error p) :
      HookEnds enter ahead inner c (.error p)
  | answers (result : Handled) (ends : (enter ahead c).ending = .ok (.answer result)) :
      HookEnds enter ahead inner c (.ok result)
  | returns (c' : Context) (wayOut : Handled → Run Handled) (result : Handled)
      (ends : (enter ahead c).ending = .ok (.delegate c' wayOut))
      (returned : (inner c').ending = .ok result) :
      HookEnds enter ahead inner c (wayOut result).ending
  | unwinds (c' : Context) (wayOut : Handled → Run Handled) (p : Panic)
      (ends : (enter ahead c).ending = .ok (.delegate c' wayOut))
      (panicked : (inner c').ending = .error p) :
      HookEnds enter ahead inner c (.error p)

/-! ### One layer -/

namespace Layer

variable {r : Run Handled}

/-- To announce nothing is to do nothing. -/
theorem returning_silent (r : Run Handled) : returning (fun _ => pure ()) r = r := by
  simp only [returning, Marked.pure_bind, Marked.bind_pure]

theorem answerFailures_of_outcome (handler : String) {o : Outcome} (ends : r.ending = .ok (.ok o)) :
    answerFailures handler r = r := by
  rw [answerFailures, Marked.bind_ok ends]
  change (⟨r.steps ++ [], .ok (.ok o)⟩ : Run Handled) = r
  rw [List.append_nil, ← ends]

theorem answerFailures_of_failure (handler : String) {f : Failure}
    (ends : r.ending = .ok (.error f)) :
    AnswersFor handler f.kind f.origin f.message r (answerFailures handler r) := by
  rw [answerFailures, Marked.bind_ok ends]
  exact ⟨rfl, rfl⟩

theorem contains_contain (handler : String) (r : Run Handled) :
    Contains handler r (contain handler (fun _ => pure ()) r) := by
  simp only [contain, Marked.pure_bind]
  cases ends : r.ending with
  | ok result =>
      rw [Marked.rescue_ok ends]
      cases result with
      | ok o => exact .passed o ends (answerFailures_of_outcome handler ends)
      | error f => exact .failed f ends (answerFailures_of_failure handler ends)
  | error p =>
      -- Once it is caught, a panic is no more than a failure after the same steps.
      let failing : Run Handled := ⟨r.steps, .ok (.error (failureOfPanic p))⟩
      have caught : (r.rescue fun p => pure (.error (failureOfPanic p))) = failing := by
        simp [Marked.rescue, ends, failing]
      have ends' : failing.ending = .ok (.error (failureOfPanic p)) := rfl
      have answers := answerFailures_of_failure handler ends'
      rw [caught]
      exact .panicked p ends ⟨answers.steps, answers.ending⟩

/-- A catching layer always has an outcome. -/
theorem Contains.outcome {handler : String} {inner whole : Run Handled}
    (h : Contains handler inner whole) : ∃ o, whole.ending = .ok (.ok o) := by
  cases h with
  | passed o ends same => exact ⟨o, same ▸ ends⟩
  | failed f _ answers => exact ⟨_, answers.ending⟩
  | panicked p _ answers => exact ⟨_, answers.ending⟩

theorem hookEnds_around (enter : Ahead → Context → Run Move) (ahead : Ahead)
    (inner : Context → Run Handled) (c : Context) :
    HookEnds enter ahead inner c ((hook enter).around (fun _ => pure ()) ahead inner c).ending := by
  rw [around, Marked.ofRun_plain]
  cases ends : (enter ahead c).ending with
  | error p =>
      rw [Marked.ending_bind_error ends]
      exact .panics p ends
  | ok move =>
      rw [Marked.ending_bind_ok ends]
      cases move with
      | answer result => exact .answers result ends
      | delegate c' wayOut =>
          simp only [returning_silent, Marked.ofRun_plain]
          cases returned : (inner c').ending with
          | error p =>
              rw [Marked.ending_bind_error returned]
              exact .unwinds c' wayOut p ends returned
          | ok result =>
              rw [Marked.ending_bind_ok returned]
              exact .returns c' wayOut result ends returned

end Layer

/-! ### A pipeline with a catching layer in it -/

namespace Next

/-- The walk runs the layer at its depth around the walk from the next depth on. -/
theorem run_eq_around (n : Next) (c : Context) {e : LayerEntry}
    (here : n.layers[n.depth]? = some e) :
    (n.run c : Run Handled) = e.layer.around (fun _ => pure ()) n.ahead n.inner.run c := by
  obtain ⟨inside, rfl⟩ := List.getElem?_eq_some_iff.1 here
  rw [run, dif_pos inside, LayerEntry.visit_plain]

theorem contains_of_catchAll (n : Next) (c : Context) {id : HookId}
    (here : n.layers[n.depth]? = some ⟨id, .catchAll true⟩) :
    Layer.Contains n.handler (n.inner.run c) (n.run c) := by
  rw [run_eq_around n c here, Layer.around, Layer.returning_silent]
  exact Layer.contains_contain n.handler (n.inner.run c)

/-- A whole pipeline is a part of its layers around the walk through the others. -/
theorem run_append_eq_foldr (handler : String) (outside inside : List LayerEntry) (a : Action)
    (c : Context) :
    ((ofLayers handler (outside ++ inside) a).run c : Run Handled) =
      (outside.foldr (Chain.wrap handler)
        ⟨inside.map fun e => e.id.name, (ofLayers handler inside a).run⟩).run c := by
  have chain : (Chain.ofLayers handler inside a : Chain Empty) =
      ⟨inside.map fun e => e.id.name, (ofLayers handler inside a).run⟩ := by
    rw [← Chain.names_ofLayers (μ := Empty) handler inside a,
      show (ofLayers handler inside a).run = _ from funext fun c => run_eq_foldr _ c]
    rfl
  rw [run_eq_foldr, ← chain]
  exact congrFun (congrArg Chain.run List.foldr_append) c

/-- A pipeline is its first layer around the pipeline of the others. -/
theorem run_cons (handler : String) (e : LayerEntry) (inside : List LayerEntry) (a : Action)
    (c : Context) :
    ((ofLayers handler (e :: inside) a).run c : Run Handled) =
      e.layer.around (fun _ => pure ()) ⟨handler, inside.map fun e => e.id.name⟩
        (ofLayers handler inside a).run c :=
  (run_append_eq_foldr handler [e] inside a c).trans (LayerEntry.visit_plain ..)

/-- A pipeline without layers is its action. -/
theorem run_nil (handler : String) (a : Action) (c : Context) :
    ((ofLayers handler [] a).run c : Run Handled) = a.call handler c :=
  (run_eq_foldr _ c).trans (a.visit_plain handler c)

end Next

/-! ### A handler with a catching layer outermost -/

namespace Handler

variable {h : Handler} {c : Context} {id : HookId} {inside : List LayerEntry}

/-- The checks of a run are those that its guards make. -/
theorem check_mem_handle {g : GuardEntry} {c' : Context} :
    .check g c' ∈ (h.handle c : Marked Visit Handled).marks ↔
      .check g c' ∈
        (Guard.checkAll h.name h.guards c : Marked Visit (Context ⊕ Outcome)).marks := by
  cases ends : (Guard.checkAll h.name h.guards c : Marked Visit _).ending with
  | error p => rw [(handle_of_panicked ends).2.2]
  | ok checked =>
      cases checked with
      | inr outcome => rw [(handle_of_halted ends).2.2]
      | inl c'' =>
          rw [(handle_of_cleared ends).2.2, List.mem_append, or_iff_left]
          intro mem
          have shown := List.mem_filterMap.2 ⟨_, mem, (rfl : (Visit.check g c').checks? = some g)⟩
          rw [Next.run_eq_foldr] at shown
          change g ∈ List.filterMap Visit.checks?
            (Marked.marks ((Chain.ofLayers h.name h.layers h.action).run c'')) at shown
          rw [Chain.run_ofGuards Visit.ofGuards_checks] at shown
          exact List.not_mem_nil shown

/-- With a catching layer outermost, what follows the guards has an outcome. -/
theorem layers_have_outcome (outermost : h.layers = ⟨id, .catchAll true⟩ :: inside) (c : Context) :
    ∃ o, ((Next.ofLayers h.name h.layers h.action).run c : Marked Visit Handled).ending =
      .ok (.ok o) := by
  have here : (Next.ofLayers h.name h.layers h.action).layers[0]? =
      some ⟨id, .catchAll true⟩ := by
    rw [Next.ofLayers, outermost]
    rfl
  obtain ⟨o, ending⟩ := (Next.contains_of_catchAll _ c here).outcome
  rw [← Next.unmark_run (μ := Visit)] at ending
  exact ⟨o, ending⟩

/-- A handler with a catching layer outermost has an outcome unless its guards panic. -/
theorem outcome_or_guards_panic (outermost : h.layers = ⟨id, .catchAll true⟩ :: inside)
    (c : Context) :
    let run : Marked Visit Handled := h.handle c
    let checked : Marked Visit (Context ⊕ Outcome) := Guard.checkAll h.name h.guards c
    (∃ o, run.ending = .ok (.ok o) ∧ ∀ p, checked.ending ≠ .error p) ∨
      ∃ p, run.ending = .error p ∧ checked.ending = .error p := by
  intro run checked
  cases ends : checked.ending with
  | error p => exact .inr ⟨p, (handle_of_panicked ends).1, rfl⟩
  | ok verdict =>
      left
      cases verdict with
      | inr outcome => exact ⟨outcome, (handle_of_halted ends).1, fun p => nofun⟩
      | inl c' =>
          obtain ⟨o, ending⟩ := layers_have_outcome outermost c'
          exact ⟨o, (handle_of_cleared ends).1.trans ending, fun p => nofun⟩

theorem never_fails (outermost : h.layers = ⟨id, .catchAll true⟩ :: inside) (c : Context)
    (f : Failure) : (h.handle c : Marked Visit Handled).ending ≠ .ok (.error f) := by
  intro failed
  rcases outcome_or_guards_panic outermost c with ⟨o, ending, _⟩ | ⟨p, ending, _⟩
  · cases ending.symm.trans failed
  · cases ending.symm.trans failed

theorem panics_iff (outermost : h.layers = ⟨id, .catchAll true⟩ :: inside) (c : Context)
    (p : Panic) :
    let run : Marked Visit Handled := h.handle c
    run.ending = .error p ↔
      ∃ g c', .check g c' ∈ run.marks ∧ (g.check c').ending = .error p := by
  intro run
  simp only [run, check_mem_handle]
  refine Iff.trans ?_ (Guard.checkAll_panics_iff h.name h.guards c p)
  rcases outcome_or_guards_panic outermost c with ⟨o, ending, calm⟩ | ⟨q, ending, panics⟩
  · rw [ending]
    exact ⟨nofun, fun panics => absurd panics (calm p)⟩
  · rw [ending, panics, Except.error.injEq, Except.error.injEq]

end Handler

/-- A catching layer contains everything inside it and nothing else. Wherever it stands in a
pipeline, the chain inside it is the pipeline of the layers inside it and the action; an outcome of
that chain is passed on as it is, and a failure or a panic is answered with two reports and an
internal error that shows its message. The layers outside are put around the result, as around any
other chain, and what a layer of the application among them raises or answers by itself is how it
ends. So a handler with a catching layer outermost never fails, and it panics exactly if one of the
guards that it checks does. -/
theorem catchAll_contains (handler : String) (outside inside : List LayerEntry) (id : HookId)
    (a : Action) :
    let layers := outside ++ ⟨id, .catchAll true⟩ :: inside
    let walk (depth : Nat) (c : Context) : Run Handled :=
      (⟨handler, layers, depth, a⟩ : Next).run c
    let names (depth : Nat) := (layers.drop depth).map fun e => e.id.name
    (∀ c, walk (outside.length + 1) c = (Next.ofLayers handler inside a).run c ∧
      Layer.Contains handler (walk (outside.length + 1) c) (walk outside.length c)) ∧
    (∀ c, walk 0 c =
      (outside.foldr (Chain.wrap handler) ⟨names outside.length, walk outside.length⟩).run c) ∧
    (∀ i id' enter, outside[i]? = some ⟨id', .hook enter⟩ → ∀ c,
      Layer.HookEnds enter ⟨handler, names (i + 1)⟩ (walk (i + 1)) c (walk i c).ending) ∧
    ∀ h : Handler, h.layers = ⟨id, .catchAll true⟩ :: inside → ∀ c,
      let run : Marked Visit Handled := h.handle c
      run.unmark = h.handle c ∧ (∀ f, run.ending ≠ .ok (.error f)) ∧
      ∀ p, run.ending = .error p ↔
        ∃ g c', .check g c' ∈ run.marks ∧ (g.check c').ending = .error p := by
  intro layers walk names
  have fromCatch : layers.drop outside.length = ⟨id, .catchAll true⟩ :: inside :=
    List.drop_left
  have behind : layers.drop (outside.length + 1) = inside := by
    rw [← List.drop_drop, fromCatch]
    rfl
  have here : layers[outside.length]? = some ⟨id, .catchAll true⟩ := by
    simp [layers]
  refine ⟨fun c => ⟨?_, Next.contains_of_catchAll ⟨handler, layers, outside.length, a⟩ c here⟩,
    ?_, ?_, ?_⟩
  · simp only [walk, Next.run_eq_foldr, behind]
    rfl
  · intro c
    have front : walk outside.length =
        (Next.ofLayers handler (⟨id, .catchAll true⟩ :: inside) a).run := by
      funext c
      simp only [walk, Next.run_eq_foldr, fromCatch]
      rfl
    have named : names outside.length = _ := congrArg (List.map fun e => e.id.name) fromCatch
    rw [front, named]
    exact Next.run_append_eq_foldr handler outside _ a c
  · intro i id' enter found c
    have at_i : layers[i]? = some ⟨id', .hook enter⟩ := by
      rw [List.getElem?_append_left (List.getElem?_eq_some_iff.1 found).1, found]
    simp only [walk]
    rw [Next.run_eq_around ⟨handler, layers, i, a⟩ c at_i]
    exact Layer.hookEnds_around enter _ _ c
  · intro h outermost c run
    exact ⟨Handler.unmark_handle h c, Handler.never_fails outermost c,
      Handler.panics_iff outermost c⟩

/-- An action that panics without a text, and around the catching layer a layer that fails on its
way out. The panic is answered, the failure from outside is not, and neither is the panic of a
guard. -/
theorem catchAll_contains_between_raisers :
    let late : LayerEntry :=
      ⟨.ofName "late",
        .hook fun _ c => pure (.delegate c fun _ => pure (.error (.fromHook "late")))⟩
    let catcher : LayerEntry := ⟨.ofName "catcher", .catchAll true⟩
    let action : Action := ⟨fun _ _ => Run.raise ⟨none⟩⟩
    let walk (depth : Nat) : Run Handled :=
      (⟨"h", [late, catcher], depth, action⟩ : Next).run ∅
    let torn : GuardEntry := ⟨.ofName "torn", fun _ => Run.raise ⟨some "torn"⟩⟩
    let guarded : Marked Visit Handled :=
      (⟨"h", [torn], [catcher], action, []⟩ : Handler).handle ∅
    (walk 1).ending = .ok (.ok (.respond
      ⟨.internalServerError, [], .json (.string "panic in request pipeline")⟩)) ∧
    (walk 0).ending = .ok (.error (.fromHook "late")) ∧
    guarded.ending = .error ⟨some "torn"⟩ := by
  intro late catcher action walk torn guarded
  obtain ⟨contained, _, hooks, handlers⟩ :=
    catchAll_contains "h" [late] [] (.ofName "catcher") action
  have raised : (walk 2).ending = .error ⟨none⟩ := by
    have same : walk 2 = (Next.ofLayers "h" [] action).run ∅ := (contained ∅).1
    rw [same, Next.run_eq_foldr]
    rfl
  have answered : (walk 1).ending = .ok (.ok (.respond
      ⟨.internalServerError, [], .json (.string "panic in request pipeline")⟩)) := by
    cases (contained ∅).2 with
    | passed o ends same => cases raised.symm.trans ends
    | failed f ends answers => cases raised.symm.trans ends
    | panicked p ends answers =>
        obtain rfl : ⟨none⟩ = p := Except.error.inj (raised.symm.trans ends)
        exact answers.ending
  refine ⟨answered, ?_, ?_⟩
  · have outer : Layer.HookEnds _ ⟨"h", ["catcher"]⟩ _ ∅ (walk 0).ending := hooks 0 _ _ rfl ∅
    generalize ended : (walk 0).ending = ending
    rw [ended] at outer
    cases outer with
    | panics p ends => cases ends
    | answers result ends => cases ends
    | returns c' wayOut result ends returned =>
        cases ends
        rfl
    | unwinds c' wayOut p ends panicked =>
        cases ends
        cases answered.symm.trans panicked
  · have checked : .check torn ∅ ∈ guarded.marks := by
      refine Handler.check_mem_handle.2 ?_
      rw [(Guard.checkAll_of_panics "h" [] rfl).2.2]
      exact List.mem_singleton_self _
    exact ((handlers ⟨"h", [torn], [catcher], action, []⟩ rfl ∅).2.2 _).2 ⟨torn, ∅, checked, rfl⟩

end RequestFlow
