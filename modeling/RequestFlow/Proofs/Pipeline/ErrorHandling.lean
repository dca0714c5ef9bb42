import RequestFlow.Config.Basic
import RequestFlow.Proofs.Pipeline.Observers

/-!
# The algebra of error handling

The layers that treat failures and long runs obey a few laws. Of two catching layers in a row one is
enough, of two time limits in a row the shorter one counts, and a catching layer and a time limit
may change places. The laws hold for the runs of any chain (`Layer.contain_contain`,
`Layer.limit_limit`, `Layer.contain_limit`), steps and time included, so that they hold in every
handler, whatever is around the layers and inside them (`Layer.Interchangeable`). As with observers,
a layer of the application further out must not mind the names that it sees.

So the error handling of a configuration may be included twice in a row, or with its layers swapped,
and does what it does once.
-/

namespace RequestFlow

namespace Layer

/-! ### What library layers make of a run -/

/-- A layer that comes with the library. It knows neither the names of the layers inside it nor the
context. -/
def IsLibrary : Layer → Prop
  | .hook _ => False
  | _ => True

/-- What a layer of the library makes of the run of the chain inside it. -/
def treat (handler : String) (l : Layer) (r : Run Handled) : Run Handled :=
  l.around (fun _ => pure ()) ⟨handler, []⟩ (fun _ => r) ∅

/-- What a row of library layers makes of a run, the first one outermost. -/
def treatAll (handler : String) (row : List Layer) (r : Run Handled) : Run Handled :=
  row.foldr (treat handler) r

section Treat

variable (handler : String) (r : Run Handled)

theorem around_eq_treat {l : Layer} (library : l.IsLibrary) (ahead : Ahead)
    (inner : Context → Run Handled) (c : Context) :
    l.around (fun _ => pure ()) ahead inner c = l.treat ahead.handler (inner c) := by
  cases l with
  | hook enter => exact library.elim
  | trace => rfl
  | catchAll enabled => cases enabled <;> rfl
  | timeout limit => rfl

theorem treat_catchAll_false : (catchAll false).treat handler r = r := returning_silent r

theorem treat_catchAll_true :
    (catchAll true).treat handler r = contain handler (fun _ => pure ()) r := by
  rw [treat, around, returning_silent]

theorem treat_timeout (limit : Nat) :
    (timeout limit).treat handler r = r.limit limit (expired handler limit) := by
  rw [treat, around, returning_silent]
  rfl

/-! ### The laws -/

/-- An expired time limit is a report and an answer. -/
theorem expired_eq (limit : Nat) :
    (expired handler limit : Run Handled) =
      ⟨Run.reports [.timedOut handler (reportedMillis limit)],
        .ok (.ok (.respond (.bare .gatewayTimeout)))⟩ := rfl

theorem contain_of_outcome {r : Run Handled} {o : Outcome} (ends : r.ending = .ok (.ok o)) :
    contain handler (fun _ => pure ()) r = r := by
  cases contains_contain handler r with
  | passed o ends same => exact same
  | failed f failed answers => cases ends.symm.trans failed
  | panicked p panicked answers => cases ends.symm.trans panicked

/-- What is caught once is not caught again. -/
theorem contain_contain :
    contain handler (fun _ => pure ()) (contain handler (fun _ => pure ()) r) =
      contain handler (fun _ => pure ()) r := by
  obtain ⟨o, ends⟩ := (contains_contain handler r).outcome
  exact contain_of_outcome handler ends

/-- To catch adds reports behind a run and nothing else. -/
theorem exists_steps_contain :
    ∃ ns, (contain handler (fun _ => pure ()) r).steps = r.steps ++ Run.reports ns := by
  cases contains_contain handler r with
  | passed o ends same => exact ⟨[], by rw [same]; exact (List.append_nil _).symm⟩
  | failed f failed answers => exact ⟨_, answers.steps⟩
  | panicked p panicked answers => exact ⟨_, answers.steps⟩

/-- A run is caught and cut in any order: what cuts a run leaves nothing to catch, and what is
caught takes no time. -/
theorem contain_limit (limit : Nat) :
    contain handler (fun _ => pure ()) (r.limit limit (expired handler limit)) =
      (contain handler (fun _ => pure ()) r).limit limit (expired handler limit) := by
  obtain ⟨ns, steps⟩ := exists_steps_contain handler r
  cases cut : Step.cut? limit r.steps with
  | none =>
      have whole : Step.cut? limit (contain handler (fun _ => pure ()) r).steps = none := by
        rw [steps, Step.cut?_append, cut, Run.cut?_reports]
        rfl
      rw [Marked.limit_of_none cut, Marked.limit_of_none whole]
  | some kept =>
      have same : Step.cut? limit (contain handler (fun _ => pure ()) r).steps = some kept := by
        rw [steps, Step.cut?_append, cut]
      rw [Marked.limit, Marked.limit, cut, same]
      exact contain_of_outcome handler rfl

/-- Of two time limits in a row the shorter one cuts and is reported. -/
theorem limit_limit (a b : Nat) :
    (r.limit b (expired handler b)).limit a (expired handler a) =
      r.limit (min a b) (expired handler (min a b)) := by
  cases cut : Step.cut? b r.steps with
  | none =>
      rw [Marked.limit_of_none cut]
      rcases Nat.le_total a b with shorter | longer
      · rw [Nat.min_eq_left shorter]
      · rw [Nat.min_eq_right longer, Marked.limit_of_none cut,
          Marked.limit_of_none (Step.cut?_eq_none_of_le cut longer)]
  | some kept =>
      have cuts := Step.cut?_eq_some_iff.1 cut
      have inner : r.limit b (expired handler b) = .prepend kept (expired handler b) := by
        rw [Marked.limit, cut]
        rfl
      rw [inner]
      rcases Nat.lt_or_ge a b with shorter | longer
      -- The outer limit comes first, so it does not see that the inner one would have cut.
      · obtain ⟨kept', cut'⟩ : ∃ kept', Step.cut? a r.steps = some kept' := by
          cases cut' : Step.cut? a r.steps with
          | some kept' => exact ⟨kept', rfl⟩
          | none => cases cut.symm.trans (Step.cut?_eq_none_of_le cut' (by omega))
        have same : Step.cut? a kept = some kept' := (cuts.cut?_of_lt shorter).trans cut'
        rw [Nat.min_eq_left (by omega), Marked.limit_prepend_of_cut same, Marked.limit, cut']
        rfl
      -- The inner limit comes first, and all of its answer is in time for the outer one.
      · have whole : Step.cut? (a - Step.duration kept) (expired handler b : Run Handled).steps =
            none := by
          rw [expired_eq]
          exact Run.cut?_reports _ _
        rw [Nat.min_eq_right longer, Marked.limit_prepend (cuts.cut?_of_le longer),
          Marked.limit_of_none whole, inner]

/-! The same for layers. -/

theorem treat_catchAll_catchAll (x y : Bool) :
    (catchAll x).treat handler ((catchAll y).treat handler r) =
      (catchAll (x || y)).treat handler r := by
  cases x with
  | false => rw [treat_catchAll_false, Bool.false_or]
  | true =>
      cases y with
      | false => rw [treat_catchAll_false, Bool.or_false]
      | true => simp only [treat_catchAll_true, contain_contain, Bool.or_self]

theorem treat_timeout_timeout (a b : Nat) :
    (timeout a).treat handler ((timeout b).treat handler r) =
      (timeout (min a b)).treat handler r := by
  simp only [treat_timeout, limit_limit]

theorem treat_catchAll_timeout (x : Bool) (limit : Nat) :
    (catchAll x).treat handler ((timeout limit).treat handler r) =
      (timeout limit).treat handler ((catchAll x).treat handler r) := by
  cases x with
  | false => rw [treat_catchAll_false, treat_catchAll_false]
  | true => simp only [treat_catchAll_true, treat_timeout, contain_limit]

end Treat

/-! ### Rows of layers inside a handler -/

/-- Two rows of layers may replace each other in every handler, at any place where the layers
outside of them confuse their names. -/
def Interchangeable (row row' : List Layer) : Prop :=
  ∀ (name : String) (guards : List GuardEntry) (outside inside entries entries' : List LayerEntry)
    (a : Action) (duplicates duplicates' : List (HookId × Nat)) (c : Context),
    entries.map LayerEntry.layer = row → entries'.map LayerEntry.layer = row' →
    (∀ e ∈ outside, e.layer.Confuses (entries.map fun e => e.id.name)
      (entries'.map fun e => e.id.name)) →
    ((⟨name, guards, outside ++ (entries ++ inside), a, duplicates⟩ : Handler).handle c :
      Run Handled) =
      (⟨name, guards, outside ++ (entries' ++ inside), a, duplicates'⟩ : Handler).handle c

end Layer

/-- Whatever stands inside library layers, they treat its run. -/
theorem Next.run_append_eq_treatAll (handler : String) {entries : List LayerEntry}
    (library : ∀ e ∈ entries, e.layer.IsLibrary) (inside : List LayerEntry) (a : Action)
    (c : Context) :
    ((ofLayers handler (entries ++ inside) a).run c : Run Handled) =
      Layer.treatAll handler (entries.map LayerEntry.layer)
        ((ofLayers handler inside a).run c) := by
  induction entries with
  | nil => rfl
  | cons e rest ih =>
      rw [List.cons_append, run_cons, Layer.around_eq_treat (library e List.mem_cons_self),
        ih fun e mem => library e (List.mem_cons_of_mem _ mem)]
      rfl

/-- Handlers with the same guards are the same if their layers are. -/
theorem Handler.handle_congr (name : String) (guards : List GuardEntry)
    {layers layers' : List LayerEntry} {a : Action} (duplicates duplicates' : List (HookId × Nat))
    (same : ∀ c, ((Next.ofLayers name layers a).run c : Run Handled) =
      (Next.ofLayers name layers' a).run c) (c : Context) :
    ((⟨name, guards, layers, a, duplicates⟩ : Handler).handle c : Run Handled) =
      (⟨name, guards, layers', a, duplicates'⟩ : Handler).handle c := by
  refine congrArg (Guard.checkAll name guards c >>= ·) (funext fun checked => ?_)
  cases checked with
  | inl c' => exact same c'
  | inr outcome => rfl

namespace Layer

/-- Rows of library layers that make the same of every run are interchangeable. -/
theorem Interchangeable.of_treatAll {row row' : List Layer} (library : ∀ l ∈ row, l.IsLibrary)
    (library' : ∀ l ∈ row', l.IsLibrary)
    (same : ∀ handler r, treatAll handler row r = treatAll handler row' r) :
    Interchangeable row row' := by
  rintro name guards outside inside entries entries' a duplicates duplicates' c rfl rfl confused
  refine Handler.handle_congr name guards duplicates duplicates' (fun c => ?_) c
  have inner : ((Next.ofLayers name (entries ++ inside) a).run : Context → Run Handled) =
      (Next.ofLayers name (entries' ++ inside) a).run := by
    funext c
    rw [Next.run_append_eq_treatAll name fun e mem => library _ (List.mem_map_of_mem mem), same,
      Next.run_append_eq_treatAll name fun e mem => library' _ (List.mem_map_of_mem mem)]
  rw [Next.run_append_eq_course, Next.run_append_eq_course, inner, List.map_append,
    List.map_append, Chain.course_of_confuses name confused]

end Layer

/-! ### The error handling of a configuration -/

namespace Config

/-- The layers for the error handling of a configuration, the outermost first. -/
def errorLayers (config : Config) : List Layer :=
  .catchAll config.catchAll :: (config.requestTimeout.map Layer.timeout).toList

variable (config : Config) (handler : String) (r : Run Handled)

theorem layers_errorHandling (serial : UInt64) :
    (config.errorHandling serial).1.layers.map LayerEntry.layer = config.errorLayers := by
  obtain ⟨bind, haltStatus, enabled, requestTimeout⟩ := config
  cases requestTimeout with
  | none => rfl
  | some limit => rfl

theorem isLibrary_of_mem_errorLayers {l : Layer} (mem : l ∈ config.errorLayers) :
    l.IsLibrary := by
  simp only [errorLayers, List.mem_cons, Option.mem_toList, Option.map_eq_some_iff] at mem
  obtain rfl | ⟨limit, _, rfl⟩ := mem <;> trivial

theorem treatAll_errorLayers_twice :
    Layer.treatAll handler (config.errorLayers ++ config.errorLayers) r =
      Layer.treatAll handler config.errorLayers r := by
  let caught := (Layer.catchAll config.catchAll).treat handler
  have caught_caught (r : Run Handled) : caught (caught r) = caught r := by
    simpa using Layer.treat_catchAll_catchAll handler r config.catchAll config.catchAll
  rw [errorLayers]
  cases config.requestTimeout with
  | none => exact caught_caught r
  | some limit =>
      let limited := (Layer.timeout limit).treat handler
      have limited_limited (r : Run Handled) : limited (limited r) = limited r := by
        simpa using Layer.treat_timeout_timeout handler r limit limit
      have swap (r : Run Handled) : caught (limited r) = limited (caught r) :=
        Layer.treat_catchAll_timeout handler r config.catchAll limit
      calc caught (limited (caught (limited r)))
        _ = caught (caught (limited (limited r))) := by rw [← swap]
        _ = caught (limited r) := by rw [caught_caught, limited_limited]

theorem treatAll_errorLayers_reverse :
    Layer.treatAll handler config.errorLayers.reverse r =
      Layer.treatAll handler config.errorLayers r := by
  simp only [errorLayers]
  cases config.requestTimeout with
  | none => rfl
  | some limit => exact (Layer.treat_catchAll_timeout handler r config.catchAll limit).symm

end Config

/-- The algebra of error handling. In every handler, around every action and for every context,
these rows of layers do the same at a place where the layers outside of them confuse their names:
two catching layers, one of them enabled, and one that is enabled; two time limits and the shorter
one; a catching layer and a time limit in either order. So the error handling of a configuration,
included twice in a row or with its layers swapped, does what it does once. -/
theorem error_handling_algebra :
    (∀ x, Layer.Interchangeable [.catchAll true, .catchAll x] [.catchAll true]) ∧
    (∀ x, Layer.Interchangeable [.catchAll x, .catchAll true] [.catchAll true]) ∧
    (∀ a b, Layer.Interchangeable [.timeout a, .timeout b] [.timeout (min a b)]) ∧
    (∀ x a, Layer.Interchangeable [.catchAll x, .timeout a] [.timeout a, .catchAll x]) ∧
    ∀ (config : Config) (serial : UInt64),
      let row := (config.errorHandling serial).1.layers.map LayerEntry.layer
      Layer.Interchangeable (row ++ row) row ∧ Layer.Interchangeable row.reverse row := by
  have caught (x y : Bool) :
      Layer.Interchangeable [.catchAll x, .catchAll y] [.catchAll (x || y)] :=
    .of_treatAll (by simp [Layer.IsLibrary]) (by simp [Layer.IsLibrary]) fun handler r =>
      Layer.treat_catchAll_catchAll handler r x y
  have limited (a b : Nat) :
      Layer.Interchangeable [.timeout a, .timeout b] [.timeout (min a b)] :=
    .of_treatAll (by simp [Layer.IsLibrary]) (by simp [Layer.IsLibrary]) fun handler r =>
      Layer.treat_timeout_timeout handler r a b
  have swapped (x : Bool) (a : Nat) :
      Layer.Interchangeable [.catchAll x, .timeout a] [.timeout a, .catchAll x] :=
    .of_treatAll (by simp [Layer.IsLibrary]) (by simp [Layer.IsLibrary]) fun handler r =>
      Layer.treat_catchAll_timeout handler r x a
  refine ⟨caught true, fun x => by simpa using caught x true, limited, swapped, ?_⟩
  intro config serial row
  have library : ∀ l ∈ config.errorLayers, l.IsLibrary := fun l =>
    config.isLibrary_of_mem_errorLayers
  simp only [row, config.layers_errorHandling serial]
  constructor
  · exact .of_treatAll (by simpa using library) library config.treatAll_errorLayers_twice
  · exact .of_treatAll (by simpa using library) library config.treatAll_errorLayers_reverse

/-- An action that takes all the time that a configuration leaves and then waits on. With the error
handling included twice, behind a layer that does not look at what is inside it, there is one answer
and one report. -/
theorem error_handling_algebra_at_deadline :
    let config : Config := ⟨"0.0.0.0:3000", none, true, some 5⟩
    let layers := (config.errorHandling 0).1.layers
    let relay : LayerEntry := ⟨.ofName "relay", .hook fun _ c => pure (.delegate c pure)⟩
    let action : Action := ⟨fun _ _ => do
      Run.log (.note "working")
      Run.sleep 5
      Run.yield
      pure (.error (.new "lost"))⟩
    let twice : Run Handled :=
      (⟨"h", [], [relay] ++ (layers ++ layers ++ []), action, []⟩ : Handler).handle ∅
    (∀ e ∈ [relay], e.layer.Confuses ((layers ++ layers).map fun e => e.id.name)
      (layers.map fun e => e.id.name)) ∧
      twice.ending = .ok (.ok (.respond (.bare .gatewayTimeout))) ∧
      twice.events = [⟨[], .note "working"⟩, ⟨[], .notice (.timedOut "h" 5)⟩] := by
  intro config layers relay action twice
  have confused : ∀ e ∈ [relay], e.layer.Confuses ((layers ++ layers).map fun e => e.id.name)
      (layers.map fun e => e.id.name) := by
    simp [relay, Layer.Confuses]
  have once : twice = _ := (error_handling_algebra.2.2.2.2 config 0).1 "h" [] [relay] []
    (layers ++ layers) layers action [] [] ∅ List.map_append rfl confused
  rw [once, Handler.handle_of_no_guards]
  exact ⟨confused, rfl, rfl⟩

/-- A layer of the application that writes down how it sees the layers inside it tells two catching
layers from one. -/
theorem error_handling_seen_by_name :
    let peek : LayerEntry := ⟨.ofName "peek", .hook fun ahead c => do
      Run.log (.note ahead.shown)
      pure (.delegate c pure)⟩
    let caught : LayerEntry := ⟨.ofName "caught", .catchAll true⟩
    let run (layers : List LayerEntry) : Run Handled :=
      (⟨"h", [], layers, .of fun _ => pure "done", []⟩ : Handler).handle ∅
    let twice : Event := ⟨[], .note "Next \x7b handler: \"h\", remaining: [caught, caught] \x7d"⟩
    let once : Event := ⟨[], .note "Next \x7b handler: \"h\", remaining: [caught] \x7d"⟩
    (run [peek, caught, caught]).events = [twice] ∧ (run [peek, caught]).events = [once] ∧
      twice ≠ once := by
  intro peek caught run twice once
  have seen (layers : List LayerEntry) : run layers = _ :=
    Handler.handle_of_no_guards "h" layers _ [] ∅
  have shown_twice : twice = ⟨[], .note (Ahead.shown ⟨"h", ["caught", "caught"]⟩)⟩ := rfl
  have shown_once : once = ⟨[], .note (Ahead.shown ⟨"h", ["caught"]⟩)⟩ := rfl
  refine ⟨?_, ?_, ?_⟩
  · rw [seen, shown_twice]
    rfl
  · rw [seen, shown_once]
    rfl
  · simp [twice, once]

end RequestFlow
