import RequestFlow.Proofs.Pipeline.Journal

/-!
# Layers nest like parentheses

`Next.run` counts its way through a shared list of layers. Here the same pipeline is composed
instead: `Chain.wrap` puts one layer around a finished inner chain, and a pipeline is the right fold
of its layers around the action. `Next.run_eq_foldr` says that both are one, from every depth.

What follows about the journal of a run is read off that fold. The layers and the action are invoked
at most once and from the outside in; each of them only if all layers around it delegate, and with
the context that was handed to it (`Chain.path`). Unless something panics or is cut by a time limit,
the log of entries and returns is a row of matched parentheses.
-/

namespace RequestFlow

/-- A chain that is composed already: the names of its layers, and how it runs. -/
structure Chain (μ : Type) where
  names : List String
  run : Context → Marked μ Handled

/-- The context that a layer passes inward, if it delegates. -/
def Layer.passes? (ahead : Ahead) (c : Context) : Layer → Option Context
  | .hook enter =>
    match (enter ahead c).ending with
    | .ok (.delegate c' _) => some c'
    | _ => none
  | _ => some c

namespace Chain

section Fold

variable {μ : Type} [Records μ]

def ofAction (handler : String) (a : Action) : Chain μ := ⟨[], a.visit handler⟩

def wrap (handler : String) (e : LayerEntry) (inner : Chain μ) : Chain μ :=
  ⟨e.id.name :: inner.names, fun c => e.visit ⟨handler, inner.names⟩ inner.run c⟩

/-- The layers of a pipeline around its action, the first one outermost. -/
def ofLayers (handler : String) (layers : List LayerEntry) (a : Action) : Chain μ :=
  layers.foldr (wrap handler) (ofAction handler a)

@[simp] theorem names_ofLayers (handler : String) (layers : List LayerEntry) (a : Action) :
    (ofLayers handler layers a : Chain μ).names = layers.map fun e => e.id.name := by
  induction layers with
  | nil => rfl
  | cons e rest ih => simpa [ofLayers, wrap] using ih

/-- The outermost layer sees the names of the layers inside it and runs around all of them. -/
theorem run_ofLayers_cons (handler : String) (e : LayerEntry) (rest : List LayerEntry) (a : Action)
    (c : Context) :
    (ofLayers handler (e :: rest) a : Chain μ).run c =
      e.visit ⟨handler, rest.map fun e => e.id.name⟩ (ofLayers handler rest a).run c := by
  rw [← names_ofLayers (μ := μ) handler rest a]
  rfl

end Fold

/-- The layers that a context reaches and the action, each with the context that it gets, as long
as every layer delegates. -/
def path (handler : String) : List LayerEntry → Context → List Visit
  | [], c => [.call c]
  | e :: rest, c =>
    .enter e c ::
      match e.layer.passes? ⟨handler, rest.map fun e => e.id.name⟩ c with
      | some c' => path handler rest c'
      | none => []

/-- How many layers delegate before the first that does not. -/
def delegations (handler : String) : List LayerEntry → Context → Nat
  | [], _ => 0
  | e :: rest, c =>
    match e.layer.passes? ⟨handler, rest.map fun e => e.id.name⟩ c with
    | some c' => delegations handler rest c' + 1
    | none => 0

end Chain

/-- Counting the depth is composing the layers. The walk from any depth is the right fold of the
layers from there on, around the action, in the name of one handler. -/
theorem Next.run_eq_foldr {μ : Type} [Records μ] (n : Next) (c : Context) :
    (n.run c : Marked μ Handled) =
      (Chain.ofLayers n.handler (n.layers.drop n.depth) n.action).run c := by
  induction remaining : n.layers.length - n.depth generalizing n c with
  | zero =>
      have outside : ¬ n.depth < n.layers.length := by omega
      have innermost : n.layers.drop n.depth = [] := List.drop_eq_nil_of_le (by omega)
      rw [run, dif_neg outside, innermost]
      rfl
  | succ k ih =>
      have inside : n.depth < n.layers.length := by omega
      have further : n.inner.layers.length - n.inner.depth = k := by
        simp only [inner]
        omega
      have chain : (n.inner.run : Context → Marked μ Handled) =
          (Chain.ofLayers n.handler (n.layers.drop (n.depth + 1)) n.action).run :=
        funext fun c => ih n.inner c further
      rw [run, dif_pos inside, List.drop_eq_getElem_cons inside, Chain.run_ofLayers_cons, chain]
      rfl

/-! ### What the journal of one layer looks like -/

namespace Layer

section

variable {μ : Type} (handler : String) (r : Marked μ Handled)

@[simp] theorem marks_answerFailures : (answerFailures handler r).marks = r.marks := by
  cases ends : r.ending with
  | error p => rw [answerFailures, Marked.marks_bind_error ends]
  | ok result =>
      rw [answerFailures, Marked.marks_bind_ok ends]
      cases result <;> exact List.append_nil r.marks

@[simp] theorem marks_observe : (observe handler r).marks = r.marks := by
  rw [observe, Marked.marks_within]
  cases ends : r.ending with
  | error p => rw [Marked.marks_bind_error ends]
  | ok result =>
      rw [Marked.marks_bind_ok ends]
      exact List.append_nil r.marks

@[simp] theorem ending_observe : (observe handler r).ending = r.ending := by
  rw [observe, Marked.ending_within]
  cases ends : r.ending with
  | error p => rw [Marked.ending_bind_error ends]
  | ok result =>
      rw [Marked.ending_bind_ok ends]
      rfl

end

/-- A layer that does not delegate leaves no marks of an inner chain. -/
theorem marks_around_of_stays {l : Layer} {announce : Return → Marked Visit Unit} {ahead : Ahead}
    {inner : Context → Marked Visit Handled} {c : Context} (stays : l.passes? ahead c = none) :
    (l.around announce ahead inner c).marks = [] := by
  cases l with
  | hook enter =>
      simp only [passes?] at stays
      rw [around]
      cases ends : (enter ahead c).ending with
      | error p =>
          rw [Marked.marks_bind_error (Marked.ending_ofRun _ ▸ ends), Marked.marks_ofRun]
      | ok move =>
          cases move with
          | answer result =>
              rw [Marked.marks_bind_ok (Marked.ending_ofRun _ ▸ ends), Marked.marks_ofRun]
              rfl
          | delegate c' wayOut => simp [ends] at stays
  | trace => simp [passes?] at stays
  | catchAll enabled => simp [passes?] at stays
  | timeout limit => simp [passes?] at stays

end Layer

namespace LayerEntry

/-- How a layer gets the control back from the chain inside it, if it does. -/
inductive Regains (e : LayerEntry) (inner whole : Marked Visit Handled) : Prop where
  /-- The chain returned. -/
  | returned (result : Handled) (ends : inner.ending = .ok result)
      (marks : whole.marks = inner.marks ++ [.resume e (.result result)])
  /-- The chain panicked, and so does the layer. -/
  | unwound (p : Panic) (ends : inner.ending = .error p) (passes : whole.ending = .error p)
      (marks : whole.marks = inner.marks)
  /-- The chain panicked, and the layer caught that. -/
  | caught (p : Panic) (ends : inner.ending = .error p)
      (marks : whole.marks = inner.marks ++ [.resume e (.panic p)])
  /-- The chain was dropped at a deadline. -/
  | expired (kept : List Visit) (before : kept <+: inner.marks)
      (marks : whole.marks = kept ++ [.resume e .expiry])

variable {e : LayerEntry} {ahead : Ahead} {inner : Context → Marked Visit Handled}
variable {c c' : Context}

/-- Announcing a result only adds the mark for it. -/
theorem regains_returning (r : Marked Visit Handled) :
    e.Regains r (Layer.returning e.resume r) := by
  cases ends : r.ending with
  | ok result =>
      refine .returned result ends ?_
      rw [Layer.returning, Marked.marks_bind_ok ends]
      rfl
  | error p =>
      refine .unwound p ends ?_ ?_
      · rw [Layer.returning, Marked.ending_bind_error ends]
      · rw [Layer.returning, Marked.marks_bind_error ends]

/-- What a layer does after its inner chain may end it differently, but a panic stays. -/
theorem Regains.trans {r whole whole' : Marked Visit Handled} (h : e.Regains r whole)
    (marks : whole'.marks = whole.marks)
    (panics : ∀ p, whole.ending = .error p → whole'.ending = .error p) : e.Regains r whole' := by
  cases h with
  | returned result ends m => exact .returned result ends (marks.trans m)
  | unwound p ends passes m => exact .unwound p ends (panics p passes) (marks.trans m)
  | caught p ends m => exact .caught p ends (marks.trans m)
  | expired kept before m => exact .expired kept before (marks.trans m)

theorem regains_hook (r : Marked Visit Handled) (wayOut : Handled → Run Handled) :
    e.Regains r (Layer.returning e.resume r >>= fun result => Marked.ofRun (wayOut result)) := by
  refine (regains_returning r).trans ?_ fun p ends => Marked.ending_bind_error ends _
  cases ends : (Layer.returning e.resume r).ending with
  | error p => exact Marked.marks_bind_error ends _
  | ok result => rw [Marked.marks_bind_ok ends, Marked.marks_ofRun, List.append_nil]

theorem regains_contain (handler : String) (r : Marked Visit Handled) :
    e.Regains r
      (Layer.contain handler (fun p => e.resume (.panic p)) (Layer.returning e.resume r)) := by
  rw [Layer.contain]
  cases ends : r.ending with
  | ok result =>
      refine .returned result ends ?_
      have returned : (Layer.returning e.resume r).ending = .ok result :=
        Marked.ending_bind_ok ends _
      rw [Layer.marks_answerFailures, Marked.rescue_ok returned, Layer.returning,
        Marked.marks_bind_ok ends]
      rfl
  | error p =>
      refine .caught p ends ?_
      have panicked : (Layer.returning e.resume r).ending = .error p :=
        Marked.ending_bind_error ends _
      rw [Layer.marks_answerFailures, Marked.marks_rescue_error panicked, Layer.returning,
        Marked.marks_bind_error ends]
      rfl

/-- A deadline in a chain that announces its result falls into the chain itself, for an
announcement takes no time. -/
theorem cut?_returning {left : Nat} {r : Marked Visit Handled} {kept : List (Step Visit)}
    (cut : Step.cut? left (Layer.returning e.resume r).steps = some kept) :
    Step.cut? left r.steps = some kept := by
  cases ends : r.ending with
  | error p => rwa [Layer.returning, Marked.bind_error ends] at cut
  | ok result =>
      rw [Layer.returning, Marked.bind_ok ends] at cut
      change Step.cut? left (r.steps ++ [.mark (.resume e (.result result))]) = some kept at cut
      rw [Step.cut?_append] at cut
      cases own : Step.cut? left r.steps with
      | some kept' => simpa [own] using cut
      | none => simp [own, Step.cut?] at cut

theorem regains_limit (handler : String) (limit : Nat) (r : Marked Visit Handled) :
    e.Regains r ((Layer.returning e.resume r).limit limit do
      e.resume .expiry
      Layer.expired handler limit) := by
  cases cut : Step.cut? limit (Layer.returning e.resume r).steps with
  | none =>
      rw [Marked.limit_of_none cut]
      exact regains_returning r
  | some kept =>
      refine .expired _ (Step.marks_cut?_prefix (cut?_returning cut)) ?_
      rw [Marked.marks_limit_of_some cut]
      rfl

/-- What a delegating layer makes of the chain inside it, in all cases at once. -/
theorem regains_around {l : Layer} (passes : l.passes? ahead c = some c') :
    e.Regains (inner c') (l.around e.resume ahead inner c) := by
  cases l with
  | hook enter =>
      simp only [Layer.passes?] at passes
      split at passes
      next context wayOut ends =>
        obtain rfl := Option.some.inj passes
        refine (regains_hook (inner context) wayOut).trans ?_ ?_
        · rw [Layer.around, Marked.marks_bind_ok (Marked.ending_ofRun _ ▸ ends), Marked.marks_ofRun]
          rfl
        · intro p panics
          rw [Layer.around, Marked.ending_bind_ok (Marked.ending_ofRun _ ▸ ends)]
          exact panics
      next => simp at passes
  | trace =>
      obtain rfl := Option.some.inj passes
      refine (regains_returning (inner c)).trans ?_ ?_
      · rw [Layer.around, Layer.marks_observe]
      · intro p panics
        rw [Layer.around, Layer.ending_observe, panics]
  | catchAll enabled =>
      obtain rfl := Option.some.inj passes
      cases enabled with
      | true => exact regains_contain ahead.handler (inner c)
      | false => exact regains_returning (inner c)
  | timeout limit =>
      obtain rfl := Option.some.inj passes
      exact regains_limit ahead.handler limit (inner c)

/-- In each of these cases a part of the inner journal from its start, and then the return. -/
theorem Regains.split {r whole : Marked Visit Handled} (h : e.Regains r whole) :
    ∃ kept back, whole.marks = kept ++ back ∧ kept <+: r.marks ∧
      ∀ v ∈ back, ∃ b, v = .resume e b := by
  cases h with
  | returned result _ marks => exact ⟨_, _, marks, List.prefix_rfl, by simp⟩
  | unwound p _ _ marks => exact ⟨r.marks, [], by simpa using marks, List.prefix_rfl, by simp⟩
  | caught p _ marks => exact ⟨_, _, marks, List.prefix_rfl, by simp⟩
  | expired kept before marks => exact ⟨_, _, marks, before, by simp⟩

/-- In a calm run the chain inside a layer returned and kept its whole journal. -/
theorem Regains.of_calm {r whole : Marked Visit Handled} (h : e.Regains r whole)
    (returns : ∃ result, whole.ending = .ok result) (uncut : ∀ v ∈ whole.marks, v.isCut = false) :
    ∃ result, r.ending = .ok result ∧ whole.marks = r.marks ++ [.resume e (.result result)] := by
  cases h with
  | returned result ends marks => exact ⟨result, ends, marks⟩
  | unwound p _ passes _ =>
      obtain ⟨result, ends⟩ := returns
      simp [ends] at passes
  | caught p _ marks => simpa [Visit.isCut] using uncut (.resume e (.panic p)) (by simp [marks])
  | expired kept _ marks => simpa [Visit.isCut] using uncut (.resume e .expiry) (by simp [marks])

/-- The journal of a layer: it is entered, does its work, and is left if it returns. -/
theorem marks_visit (e : LayerEntry) (ahead : Ahead) (inner : Context → Marked Visit Handled)
    (c : Context) :
    (e.visit ahead inner c).marks =
      .enter e c :: (e.layer.around e.resume ahead inner c).marks ++
        Visit.departure (.leave e) (e.layer.around e.resume ahead inner c).ending :=
  Visit.marks_enclose _ _ _

end LayerEntry

/-! ### What the journal of a chain looks like -/

namespace Chain

variable (handler : String) (a : Action)

theorem marks_action (c : Context) :
    (a.visit handler c : Marked Visit Handled).marks =
      .call c :: Visit.departure .done (a.call handler c).ending := by
  rw [Action.visit, Visit.marks_enclose, Marked.marks_ofRun]
  rfl

/-- Whatever view is taken of the invocations in a run, it shows a part of the path from its
start. -/
theorem view_prefix {β : Type} {view : Visit → Option β}
    (resume : ∀ e b, view (.resume e b) = none) (leave : ∀ e result, view (.leave e result) = none)
    (done : ∀ result, view (.done result) = none) (layers : List LayerEntry) (c : Context) :
    ((ofLayers handler layers a).run c).marks.filterMap view <+:
      (path handler layers c).filterMap view := by
  induction layers generalizing c with
  | nil =>
      change (a.visit handler c : Marked Visit Handled).marks.filterMap view <+: _
      rw [marks_action]
      cases (a.call handler c).ending <;> simp [path, List.filterMap_cons, done]
  | cons e rest ih =>
      have tail (ending : Except Panic Handled) :
          (Visit.departure (.leave e) ending).filterMap view = [] := by
        cases ending <;> simp [leave]
      rw [run_ofLayers_cons, LayerEntry.marks_visit, List.filterMap_append, tail, List.append_nil]
      cases passes : e.layer.passes? ⟨handler, rest.map fun e => e.id.name⟩ c with
      | none =>
          rw [Layer.marks_around_of_stays passes]
          simp [path, passes]
      | some c' =>
          have regains : e.Regains ((ofLayers handler rest a).run c') _ :=
            LayerEntry.regains_around passes
          obtain ⟨kept, back, marks, before, returns⟩ := regains.split
          have back_nil : back.filterMap view = [] := by
            refine List.filterMap_eq_nil_iff.2 fun v hv => ?_
            obtain ⟨b, rfl⟩ := returns v hv
            exact resume e b
          have inward : kept.filterMap view <+: (path handler rest c').filterMap view :=
            (before.filterMap view).trans (ih c')
          rw [marks, path, passes]
          change ([Visit.enter e c] ++ (kept ++ back)).filterMap view <+:
            ([Visit.enter e c] ++ path handler rest c').filterMap view
          rw [List.filterMap_append, List.filterMap_append, List.filterMap_append, back_nil,
            List.append_nil]
          exact (List.prefix_append_right_inj _).2 inward

/-- The path is entered from the outside in, and its parts are the layers and then the action. -/
theorem path_parts (layers : List LayerEntry) (c : Context) :
    (path handler layers c).filterMap Visit.invokes? <+:
      layers.map Visit.Part.layer ++ [.action] := by
  induction layers generalizing c with
  | nil => exact List.prefix_rfl
  | cons e rest ih =>
      rw [path]
      cases e.layer.passes? ⟨handler, rest.map fun e => e.id.name⟩ c with
      | none => exact (List.prefix_cons_inj _).2 List.nil_prefix
      | some c' => exact (List.prefix_cons_inj _).2 (ih c')

theorem path_arrivals (layers : List LayerEntry) (c : Context) :
    (path handler layers c).filterMap Visit.arrival? = path handler layers c := by
  induction layers generalizing c with
  | nil => rfl
  | cons e rest ih =>
      rw [path]
      cases e.layer.passes? ⟨handler, rest.map fun e => e.id.name⟩ c with
      | none => rfl
      | some c' => exact congrArg (Visit.enter e c :: ·) (ih c')

/-- The log of a run in which the first `k` layers delegate: the entries from the outside in, the
action if no layer is left to refuse, and the returns in reverse. -/
def log (layers : List LayerEntry) (k : Nat) : List Visit.Turn :=
  (layers.take (k + 1)).map .entered ++ (if k = layers.length then [.acted] else []) ++
    (layers.take (k + 1)).reverse.map .left

theorem log_cons (e : LayerEntry) (rest : List LayerEntry) (k : Nat) :
    log (e :: rest) (k + 1) = .entered e :: log rest k ++ [.left e] := by
  simp [log]

/-- In a calm run the log is a row of matched parentheses, as deep as the layers delegate. -/
theorem turns_of_calm (layers : List LayerEntry) (c : Context)
    (calm : Calm ((ofLayers handler layers a).run c)) :
    ((ofLayers handler layers a).run c).marks.filterMap Visit.turn? =
      log layers (delegations handler layers c) := by
  induction layers generalizing c with
  | nil =>
      change (a.visit handler c : Marked Visit Handled).marks.filterMap Visit.turn? = [.acted]
      rw [marks_action]
      cases (a.call handler c).ending <;> rfl
  | cons e rest ih =>
      rw [run_ofLayers_cons] at calm ⊢
      obtain ⟨result, ends⟩ := calm.returns
      rw [LayerEntry.visit, Visit.ending_enclose] at ends
      have marks := LayerEntry.marks_visit e ⟨handler, rest.map fun e => e.id.name⟩
        (ofLayers handler rest a).run c
      rw [ends] at marks
      rw [marks, delegations]
      cases passes : e.layer.passes? ⟨handler, rest.map fun e => e.id.name⟩ c with
      | none =>
          rw [Layer.marks_around_of_stays passes]
          simp [log, Visit.turn?]
      | some c' =>
          have regains : e.Regains ((ofLayers handler rest a).run c') _ :=
            LayerEntry.regains_around passes
          obtain ⟨inward, returned, around⟩ := regains.of_calm ⟨result, ends⟩ fun v hv =>
            calm.uncut v (by simp [marks, hv])
          have calm' : Calm ((ofLayers handler rest a).run c') :=
            ⟨⟨inward, returned⟩, fun v hv => calm.uncut v (by simp [marks, around, hv])⟩
          rw [around, log_cons, ← ih c' calm']
          simp [Visit.turn?, List.filterMap_cons]

end Chain

/-! ### Views that show guards only -/

/-- A view of a journal that shows guards and nothing of layers and the action. -/
structure Visit.OfGuards {β : Type} (view : Visit → Option β) : Prop where
  enter : ∀ e c, view (.enter e c) = none
  resume : ∀ e back, view (.resume e back) = none
  leave : ∀ e result, view (.leave e result) = none
  call : ∀ c, view (.call c) = none
  done : ∀ result, view (.done result) = none

theorem Visit.ofGuards_checks : OfGuards checks? :=
  ⟨fun _ _ => rfl, fun _ _ => rfl, fun _ _ => rfl, fun _ => rfl, fun _ => rfl⟩

theorem Visit.ofGuards_clears : OfGuards clears? :=
  ⟨fun _ _ => rfl, fun _ _ => rfl, fun _ _ => rfl, fun _ => rfl, fun _ => rfl⟩

section Views

variable {β : Type} {view : Visit → Option β}

theorem Chain.path_ofGuards (ofGuards : Visit.OfGuards view) (handler : String)
    (layers : List LayerEntry) (c : Context) : (path handler layers c).filterMap view = [] := by
  induction layers generalizing c with
  | nil => simp [path, ofGuards.call]
  | cons e rest ih =>
      rw [path, List.filterMap_cons_none (ofGuards.enter e c)]
      cases e.layer.passes? ⟨handler, rest.map fun e => e.id.name⟩ c with
      | none => rfl
      | some c' => exact ih c'

/-- The layers and the action check no guards. -/
theorem Chain.run_ofGuards (ofGuards : Visit.OfGuards view) (handler : String)
    (layers : List LayerEntry) (a : Action) (c : Context) :
    ((ofLayers handler layers a).run c).marks.filterMap view = [] := by
  have shown := view_prefix handler a ofGuards.resume ofGuards.leave ofGuards.done layers c
  rw [path_ofGuards ofGuards] at shown
  exact List.prefix_nil.1 shown

end Views

/-- Layers nest like matched parentheses. The walk of a pipeline is the right fold of its layers
around its action, at every depth, and recording its journal does not change it. The layers and the
action are invoked at most once, from the outside in, each only if all layers around it delegate and
with the context that was passed to it. If nothing panics and no time limit expires, the log of
entries and returns is that of matched parentheses around the first layer that does not delegate, or
around the action if all do. -/
theorem layers_nest (handler : String) (layers : List LayerEntry) (a : Action) (c : Context) :
    (∀ (depth : Nat) (c : Context),
      ((⟨handler, layers, depth, a⟩ : Next).run c : Run Handled) =
        ((layers.drop depth).foldr (Chain.wrap handler) (Chain.ofAction handler a)).run c) ∧
    let run : Marked Visit Handled := (Next.ofLayers handler layers a).run c
    run.unmark = (Next.ofLayers handler layers a).run c ∧
    run.marks.filterMap Visit.invokes? <+: layers.map .layer ++ [.action] ∧
    run.marks.filterMap Visit.arrival? <+: Chain.path handler layers c ∧
    (Calm run →
      run.marks.filterMap Visit.turn? = Chain.log layers (Chain.delegations handler layers c)) := by
  refine ⟨fun depth c => Next.run_eq_foldr _ c, Next.unmark_run _ c, ?_⟩
  rw [Next.run_eq_foldr]
  change (Marked.marks ((Chain.ofLayers handler layers a).run c)).filterMap _ <+: _ ∧ _
  refine ⟨?_, ?_, Chain.turns_of_calm handler a layers c⟩
  · exact (Chain.view_prefix handler a (fun _ _ => rfl) (fun _ _ => rfl) (fun _ => rfl)
      layers c).trans (Chain.path_parts handler layers c)
  · rw [← Chain.path_arrivals handler layers c]
    exact Chain.view_prefix handler a (fun _ _ => rfl) (fun _ _ => rfl) (fun _ => rfl) layers c

/-- A second layer that answers by itself: the third layer and the action are not entered, and the
returns close what was opened. -/
theorem layers_nest_at_refusal :
    let outer : LayerEntry := ⟨.ofName "outer", .hook fun _ c => pure (.delegate c pure)⟩
    let inner : LayerEntry :=
      ⟨.ofName "inner", .hook fun _ _ => pure (.answer (.ok (.halted "inner" none)))⟩
    let run : Marked Visit Handled :=
      (Next.ofLayers "h" [outer, inner, ⟨.ofName "unseen", .trace⟩]
        ⟨fun handler _ => pure (.ok (.halted handler none))⟩).run ∅
    Calm run ∧
      run.marks.filterMap Visit.turn? =
        [.entered outer, .entered inner, .left inner, .left outer] := by
  intro outer inner run
  have calm : Calm run := by
    have fold : run = _ := Next.run_eq_foldr _ _
    refine ⟨⟨.ok (.halted "inner" none), by rw [fold]; rfl⟩, ?_⟩
    have uncut : (run.marks.all fun v => !v.isCut) = true := by
      rw [fold]
      rfl
    intro v hv
    simpa using List.all_eq_true.1 uncut v hv
  exact ⟨calm, (layers_nest _ _ _ _).2.2.2.2 calm⟩

end RequestFlow
