import RequestFlow.Proofs.Pipeline.Journal

/-!
# Guards come first

A handler checks its guards in a loop that writes to one context and may leave early. Here that loop
is compared with a search: thread the context through the guards (`Guard.thread`) and look for the
first one that does not let the run go on (`Guard.StopsAt`). The search decides everything about the
run. If it finds a guard that halts, the run ends with that guard's name and response; if it finds
one that panics, the run ends with the panic, whatever layers there are; if it finds none, the
layers and the action follow on the context that the last guard left.
-/

namespace RequestFlow

namespace Guard

/-- The context that a guard leaves if it lets the run go on. -/
def passes? (g : GuardEntry) (c : Context) : Option Context :=
  match (g.check c).ending with
  | .ok (c', .proceed) => some c'
  | _ => none

/-- The context that guards leave if all of them let the run go on, each checked on what the one
before it left. -/
def thread (guards : List GuardEntry) (c : Context) : Option Context :=
  guards.foldlM (fun c g => passes? g c) c

/-- What guards log themselves, up to the first that does not let the run go on. -/
def ownEvents : List GuardEntry → Context → List Event
  | [], _ => []
  | g :: rest, c =>
    (g.check c).events ++
      match passes? g c with
      | some c' => ownEvents rest c'
      | none => []

/-- The guard with number `i` is the first that does not let the run go on, and it is checked on
`reached`, which the guards before it left. -/
structure StopsAt (guards : List GuardEntry) (c : Context) (i : Nat) (g : GuardEntry)
    (reached : Context) : Prop where
  found : guards[i]? = some g
  threaded : thread (guards.take i) c = some reached
  stops : passes? g reached = none

variable {g g' : GuardEntry} {rest guards : List GuardEntry} {c c' reached : Context} {i : Nat}

theorem passes?_eq_some_iff :
    passes? g c = some c' ↔ (g.check c).ending = .ok (c', .proceed) := by
  rw [passes?]
  split
  next ends => simp [ends]
  next other =>
    constructor
    · intro stopped
      simp at stopped
    · intro ends
      exact absurd ends (other c')

@[simp] theorem thread_nil : thread [] c = some c := rfl

theorem thread_cons : thread (g :: rest) c = (passes? g c).bind (thread rest) := rfl

theorem thread_cons_eq_some_iff :
    thread (g :: rest) c = some c' ↔
      ∃ next, passes? g c = some next ∧ thread rest next = some c' := by
  rw [thread_cons, Option.bind_eq_some_iff]

theorem stopsAt_zero :
    StopsAt (g :: rest) c 0 g' reached ↔ g = g' ∧ c = reached ∧ passes? g c = none := by
  constructor
  · rintro ⟨found, threaded, stops⟩
    obtain rfl : g = g' := by simpa using found
    obtain rfl : c = reached := by simpa using threaded
    exact ⟨rfl, rfl, stops⟩
  · rintro ⟨rfl, rfl, stops⟩
    exact ⟨rfl, rfl, stops⟩

theorem stopsAt_succ :
    StopsAt (g :: rest) c (i + 1) g' reached ↔
      ∃ c', passes? g c = some c' ∧ StopsAt rest c' i g' reached := by
  constructor
  · rintro ⟨found, threaded, stops⟩
    rw [List.take_succ_cons] at threaded
    obtain ⟨c', passes, threaded⟩ := thread_cons_eq_some_iff.1 threaded
    exact ⟨c', passes, by simpa using found, threaded, stops⟩
  · rintro ⟨c', passes, found, threaded, stops⟩
    refine ⟨by simpa using found, ?_, stops⟩
    rw [List.take_succ_cons]
    exact thread_cons_eq_some_iff.2 ⟨c', passes, threaded⟩

/-- The search for a guard that stops the run succeeds unless all of them let it go on. -/
theorem thread_eq_none_iff :
    thread guards c = none ↔ ∃ i g reached, StopsAt guards c i g reached := by
  induction guards generalizing c with
  | nil =>
      constructor
      · intro stopped
        simp at stopped
      · rintro ⟨i, g, reached, found, _, _⟩
        simp at found
  | cons g rest ih =>
      rw [thread_cons]
      cases passes : passes? g c with
      | none =>
          constructor
          · intro _
            exact ⟨0, g, c, stopsAt_zero.2 ⟨rfl, rfl, passes⟩⟩
          · intro _
            rfl
      | some c' =>
          rw [Option.bind_some, ih]
          constructor
          · rintro ⟨i, g', reached, stop⟩
            exact ⟨i + 1, g', reached, stopsAt_succ.2 ⟨c', passes, stop⟩⟩
          · rintro ⟨i, g', reached, stop⟩
            cases i with
            | zero => simp [(stopsAt_zero.1 stop).2.2] at passes
            | succ i =>
                obtain ⟨c'', passes', stop⟩ := stopsAt_succ.1 stop
                obtain rfl := Option.some.inj (passes.symm.trans passes')
                exact ⟨i, g', reached, stop⟩

/-! ### One check -/

section Check

variable {p : Panic} {response : Option Response}

/-- What the loop does when a guard has decided and left a context. -/
def onward (handler : String) (g : GuardEntry) (rest : List GuardEntry) (c : Context) :
    Flow → Marked Visit (Context ⊕ Outcome)
  | .proceed => checkAll handler rest c
  | .halt response => do
    Run.notice (.guardHalted handler g.id.name response.isSome)
    pure (.inr (.halted g.id.name response))

theorem checkAll_of_verdict (handler : String) (rest : List GuardEntry) {flow : Flow}
    (ends : (g.check c).ending = .ok (c', flow)) :
    let run : Marked Visit (Context ⊕ Outcome) := checkAll handler (g :: rest) c
    let rest := onward handler g rest c' flow
    run.ending = rest.ending ∧ run.events = (g.check c).events ++ rest.events ∧
      run.marks = .check g c :: .decide g flow :: rest.marks := by
  have visited : (g.visit c : Marked Visit (Context × Flow)).ending = .ok (c', flow) :=
    (Visit.ending_enclose _ _ _).trans ends
  simp only [checkAll]
  rw [Marked.ending_bind_ok visited, Marked.events_bind_ok visited, Marked.marks_bind_ok visited,
    GuardEntry.visit, Visit.events_enclose, Visit.marks_enclose, Marked.events_ofRun,
    Marked.marks_ofRun, Marked.ending_ofRun, ends]
  cases flow <;> exact ⟨rfl, rfl, rfl⟩

theorem checkAll_of_passes (handler : String) (rest : List GuardEntry)
    (passes : passes? g c = some c') :
    let run : Marked Visit (Context ⊕ Outcome) := checkAll handler (g :: rest) c
    let onward : Marked Visit (Context ⊕ Outcome) := checkAll handler rest c'
    run.ending = onward.ending ∧ run.events = (g.check c).events ++ onward.events ∧
      run.marks = .check g c :: .decide g .proceed :: onward.marks :=
  checkAll_of_verdict handler rest (passes?_eq_some_iff.1 passes)

theorem checkAll_of_halts (handler : String) (rest : List GuardEntry)
    (halts : (g.check c).ending = .ok (c', .halt response)) :
    let run : Marked Visit (Context ⊕ Outcome) := checkAll handler (g :: rest) c
    run.ending = .ok (.inr (.halted g.id.name response)) ∧
      run.events = (g.check c).events ++
        [⟨[], .notice (.guardHalted handler g.id.name response.isSome)⟩] ∧
      run.marks = [.check g c, .decide g (.halt response)] :=
  checkAll_of_verdict handler rest halts

theorem checkAll_of_panics (handler : String) (rest : List GuardEntry)
    (panics : (g.check c).ending = .error p) :
    let run : Marked Visit (Context ⊕ Outcome) := checkAll handler (g :: rest) c
    run.ending = .error p ∧ run.events = (g.check c).events ∧ run.marks = [.check g c] := by
  have visited : (g.visit c : Marked Visit (Context × Flow)).ending = .error p :=
    (Visit.ending_enclose _ _ _).trans panics
  simp only [checkAll]
  rw [Marked.ending_bind_error visited, Marked.events_bind_error visited,
    Marked.marks_bind_error visited, GuardEntry.visit, Visit.events_enclose, Visit.marks_enclose,
    Marked.events_ofRun, Marked.marks_ofRun, Marked.ending_ofRun, panics]
  exact ⟨rfl, rfl, rfl⟩

end Check

/-! ### The loop -/

/-- The journal of guards that let the run go on. -/
def passage : List GuardEntry → Context → List Visit
  | [], _ => []
  | g :: rest, c =>
    .check g c :: .decide g .proceed ::
      match passes? g c with
      | some c' => passage rest c'
      | none => []

variable {front : List GuardEntry}

/-- A view that shows something of every passed guard shows that of all of them, in order. -/
theorem passage_view {β : Type} {view : Visit → Option β} {shown : GuardEntry → β}
    (one : ∀ g c, [Visit.check g c, .decide g .proceed].filterMap view = [shown g])
    (threaded : thread front c = some c') : (passage front c).filterMap view = front.map shown := by
  induction front generalizing c with
  | nil => rfl
  | cons g rest ih =>
      obtain ⟨next, passes, threaded⟩ := thread_cons_eq_some_iff.1 threaded
      rw [passage, passes]
      change ([Visit.check g c, .decide g .proceed] ++ passage rest next).filterMap view = _
      rw [List.filterMap_append, one, ih threaded]
      rfl

theorem passage_invokes (threaded : thread front c = some c') :
    (passage front c).filterMap Visit.invokes? = front.map Visit.Part.guard :=
  passage_view (fun _ _ => rfl) threaded

theorem passage_checks (threaded : thread front c = some c') :
    (passage front c).filterMap Visit.checks? = front := by
  have shown : (passage front c).filterMap Visit.checks? = front.map id :=
    passage_view (fun _ _ => rfl) threaded
  rw [shown, List.map_id]

theorem passage_clears (threaded : thread front c = some c') :
    (passage front c).filterMap Visit.clears? = front := by
  have shown : (passage front c).filterMap Visit.clears? = front.map id :=
    passage_view (fun _ _ => rfl) threaded
  rw [shown, List.map_id]

/-- Among guards, nothing else is invoked. -/
theorem passage_arrivals (front : List GuardEntry) (c : Context) :
    (passage front c).filterMap Visit.arrival? = [] := by
  induction front generalizing c with
  | nil => rfl
  | cons g rest ih =>
      rw [passage]
      cases passes? g c with
      | none => rfl
      | some c' => exact ih c'

/-- Once guards have let the run go on, what is left is to check the rest on what they left. -/
theorem checkAll_append (handler : String) (back : List GuardEntry)
    (threaded : thread front c = some c') :
    let run : Marked Visit (Context ⊕ Outcome) := checkAll handler (front ++ back) c
    let onward : Marked Visit (Context ⊕ Outcome) := checkAll handler back c'
    run.ending = onward.ending ∧ run.events = ownEvents front c ++ onward.events ∧
      run.marks = passage front c ++ onward.marks := by
  induction front generalizing c with
  | nil =>
      obtain rfl := Option.some.inj threaded
      exact ⟨rfl, rfl, rfl⟩
  | cons g rest ih =>
      obtain ⟨next, passes, threaded⟩ := thread_cons_eq_some_iff.1 threaded
      obtain ⟨ending, events, marks⟩ := checkAll_of_passes handler (rest ++ back) passes
      obtain ⟨ending', events', marks'⟩ := ih threaded
      refine ⟨ending.trans ending', events.trans ?_, marks.trans ?_⟩
      · rw [events', ownEvents, passes, List.append_assoc]
      · rw [marks', passage, passes]
        rfl

theorem ownEvents_append (back : List GuardEntry) (threaded : thread front c = some c') :
    ownEvents (front ++ back) c = ownEvents front c ++ ownEvents back c' := by
  induction front generalizing c with
  | nil =>
      obtain rfl := Option.some.inj threaded
      rfl
  | cons g rest ih =>
      obtain ⟨next, passes, threaded⟩ := thread_cons_eq_some_iff.1 threaded
      simp only [List.cons_append, ownEvents, passes, ih threaded, List.append_assoc]

/-- Guards that all let the run go on leave their context to what follows. -/
theorem checkAll_of_thread (handler : String) (threaded : thread guards c = some c') :
    let run : Marked Visit (Context ⊕ Outcome) := checkAll handler guards c
    run.ending = .ok (.inl c') ∧ run.events = ownEvents guards c ∧
      run.marks = passage guards c := by
  have whole := checkAll_append handler [] threaded
  simpa only [List.append_nil, checkAll_nil, Marked.ending_pure, Marked.events_pure,
    Marked.marks_pure] using whole

/-- Guards panic only if one of those that are checked does. -/
theorem checkAll_panics_iff (handler : String) (guards : List GuardEntry) (c : Context)
    (p : Panic) :
    let run : Marked Visit (Context ⊕ Outcome) := checkAll handler guards c
    run.ending = .error p ↔ ∃ g c', .check g c' ∈ run.marks ∧ (g.check c').ending = .error p := by
  induction guards generalizing c with
  | nil => simp
  | cons g rest ih =>
      intro run
      cases ends : (g.check c).ending with
      | error q =>
          obtain ⟨ending, _, marks⟩ := checkAll_of_panics handler rest ends
          simp only [run, ending, marks, List.mem_singleton, Visit.check.injEq]
          constructor
          · intro same
            obtain rfl : q = p := Except.error.inj same
            exact ⟨g, c, ⟨rfl, rfl⟩, ends⟩
          · rintro ⟨_, _, ⟨rfl, rfl⟩, panics⟩
            obtain rfl : q = p := Except.error.inj (ends.symm.trans panics)
            rfl
      | ok verdict =>
          obtain ⟨c', flow⟩ := verdict
          have calm (q : Panic) : (g.check c).ending ≠ .error q := by
            rw [ends]
            exact nofun
          cases flow with
          | proceed =>
              obtain ⟨ending, _, marks⟩ :=
                checkAll_of_passes handler rest (passes?_eq_some_iff.2 ends)
              simp only [run, ending, marks, ih c']
              constructor
              · rintro ⟨g', c'', mem, panics⟩
                exact ⟨g', c'', List.mem_cons_of_mem _ (List.mem_cons_of_mem _ mem), panics⟩
              · rintro ⟨g', c'', mem, panics⟩
                rcases List.mem_cons.1 mem with first | later
                · obtain ⟨rfl, rfl⟩ := Visit.check.inj first
                  exact absurd panics (calm p)
                · exact ⟨g', c'', (List.mem_cons.1 later).resolve_left nofun, panics⟩
          | halt response =>
              obtain ⟨ending, _, marks⟩ := checkAll_of_halts handler rest ends
              simp only [run, ending, marks]
              constructor
              · intro same
                cases same
              · rintro ⟨g', c'', mem, panics⟩
                rcases List.mem_cons.1 mem with first | later
                · obtain ⟨rfl, rfl⟩ := Visit.check.inj first
                  exact absurd panics (calm p)
                · simp at later

namespace StopsAt

variable {response : Option Response} {p : Panic}

theorem split (stop : StopsAt guards c i g reached) :
    guards = guards.take i ++ g :: guards.drop (i + 1) := by
  obtain ⟨inside, rfl⟩ := List.getElem?_eq_some_iff.1 stop.found
  rw [← List.drop_eq_getElem_cons inside, List.take_append_drop]

theorem take_succ (stop : StopsAt guards c i g reached) :
    guards.take (i + 1) = guards.take i ++ [g] := by
  rw [List.take_add_one, stop.found]
  rfl

theorem ownEvents_eq (stop : StopsAt guards c i g reached) :
    ownEvents guards c = ownEvents (guards.take i) c ++ (g.check reached).events := by
  have whole := ownEvents_append (g :: guards.drop (i + 1)) stop.threaded
  rw [← stop.split, ownEvents, stop.stops, List.append_nil] at whole
  exact whole

/-- The loop does at the first guard that stops the run what it would do with that guard alone. -/
theorem checkAll_eq (stop : StopsAt guards c i g reached) (handler : String) :
    let run : Marked Visit (Context ⊕ Outcome) := checkAll handler guards c
    let last : Marked Visit (Context ⊕ Outcome) :=
      checkAll handler (g :: guards.drop (i + 1)) reached
    run.ending = last.ending ∧ run.events = ownEvents (guards.take i) c ++ last.events ∧
      run.marks = passage (guards.take i) c ++ last.marks := by
  have whole := checkAll_append handler (g :: guards.drop (i + 1)) stop.threaded
  rwa [← stop.split] at whole

theorem checkAll_halts (stop : StopsAt guards c i g reached) (handler : String)
    (halts : (g.check reached).ending = .ok (c', .halt response)) :
    let run : Marked Visit (Context ⊕ Outcome) := checkAll handler guards c
    run.ending = .ok (.inr (.halted g.id.name response)) ∧
      run.events = ownEvents guards c ++
        [⟨[], .notice (.guardHalted handler g.id.name response.isSome)⟩] ∧
      run.marks.filterMap Visit.invokes? = (guards.take (i + 1)).map .guard := by
  obtain ⟨ending, events, marks⟩ := stop.checkAll_eq handler
  obtain ⟨ending', events', marks'⟩ := checkAll_of_halts handler (guards.drop (i + 1)) halts
  refine ⟨ending.trans ending', ?_, ?_⟩
  · rw [events, events', stop.ownEvents_eq, List.append_assoc]
  · rw [marks, marks', List.filterMap_append, passage_invokes stop.threaded, stop.take_succ,
      List.map_append]
    rfl

theorem checkAll_panics (stop : StopsAt guards c i g reached) (handler : String)
    (panics : (g.check reached).ending = .error p) :
    let run : Marked Visit (Context ⊕ Outcome) := checkAll handler guards c
    run.ending = .error p ∧ run.events = ownEvents guards c ∧
      run.marks.filterMap Visit.invokes? = (guards.take (i + 1)).map .guard := by
  obtain ⟨ending, events, marks⟩ := stop.checkAll_eq handler
  obtain ⟨ending', events', marks'⟩ := checkAll_of_panics handler (guards.drop (i + 1)) panics
  refine ⟨ending.trans ending', ?_, ?_⟩
  · rw [events, events', stop.ownEvents_eq]
  · rw [marks, marks', List.filterMap_append, passage_invokes stop.threaded, stop.take_succ,
      List.map_append]
    rfl

end StopsAt

end Guard

/-! ### The run of a handler -/

namespace Handler

variable {h : Handler} {c c' : Context} {outcome : Outcome} {p : Panic}

/-- A run that its guards end has nothing after them. -/
theorem handle_of_halted
    (ends : (Guard.checkAll h.name h.guards c : Marked Visit _).ending = .ok (.inr outcome)) :
    let run : Marked Visit Handled := h.handle c
    let checked : Marked Visit (Context ⊕ Outcome) := Guard.checkAll h.name h.guards c
    run.ending = .ok (.ok outcome) ∧ run.events = checked.events ∧ run.marks = checked.marks := by
  simp only [handle]
  rw [Marked.ending_bind_ok ends, Marked.events_bind_ok ends, Marked.marks_bind_ok ends]
  simp

theorem handle_of_panicked
    (ends : (Guard.checkAll h.name h.guards c : Marked Visit _).ending = .error p) :
    let run : Marked Visit Handled := h.handle c
    let checked : Marked Visit (Context ⊕ Outcome) := Guard.checkAll h.name h.guards c
    run.ending = .error p ∧ run.events = checked.events ∧ run.marks = checked.marks := by
  simp only [handle]
  rw [Marked.ending_bind_error ends, Marked.events_bind_error ends, Marked.marks_bind_error ends]
  exact ⟨rfl, rfl, rfl⟩

/-- A run that its guards let go on is theirs, and then that of the layers and the action. -/
theorem handle_of_cleared
    (ends : (Guard.checkAll h.name h.guards c : Marked Visit _).ending = .ok (.inl c')) :
    let run : Marked Visit Handled := h.handle c
    let checked : Marked Visit (Context ⊕ Outcome) := Guard.checkAll h.name h.guards c
    let rest : Marked Visit Handled := (Next.ofLayers h.name h.layers h.action).run c'
    run.ending = rest.ending ∧ run.events = checked.events ++ rest.events ∧
      run.marks = checked.marks ++ rest.marks := by
  simp only [handle]
  rw [Marked.ending_bind_ok ends, Marked.events_bind_ok ends, Marked.marks_bind_ok ends]
  exact ⟨rfl, rfl, rfl⟩

/-- The context with which the layers and the action go on is the one that the last guard left. -/
theorem handle_of_thread (threaded : Guard.thread h.guards c = some c') :
    let run : Marked Visit Handled := h.handle c
    let rest : Marked Visit Handled := (Next.ofLayers h.name h.layers h.action).run c'
    run.ending = rest.ending ∧ run.events = Guard.ownEvents h.guards c ++ rest.events ∧
      run.marks = Guard.passage h.guards c ++ rest.marks := by
  obtain ⟨ends, events, marks⟩ := Guard.checkAll_of_thread h.name threaded
  rw [← events, ← marks]
  exact handle_of_cleared ends

/-- A run that a guard stops is that of the guards up to it, and ends with its verdict. -/
theorem handle_of_stopsAt {i : Nat} {g : GuardEntry} {reached : Context}
    (stop : Guard.StopsAt h.guards c i g reached) :
    let run : Marked Visit Handled := h.handle c
    run.marks.filterMap Visit.invokes? = (h.guards.take (i + 1)).map .guard ∧
      ((∃ c' response, (g.check reached).ending = .ok (c', .halt response) ∧
          run.ending = .ok (.ok (.halted g.id.name response)) ∧
          run.events = Guard.ownEvents h.guards c ++
            [⟨[], .notice (.guardHalted h.name g.id.name response.isSome)⟩]) ∨
        ∃ p, (g.check reached).ending = .error p ∧
          run.ending = .error p ∧ run.events = Guard.ownEvents h.guards c) := by
  cases ends : (g.check reached).ending with
  | error p =>
      obtain ⟨ending, events, invoked⟩ := stop.checkAll_panics h.name ends
      obtain ⟨ending', events', marks'⟩ := handle_of_panicked ending
      exact ⟨marks' ▸ invoked, .inr ⟨p, rfl, ending', events'.trans events⟩⟩
  | ok verdict =>
      obtain ⟨c', flow⟩ := verdict
      cases flow with
      | proceed =>
          have passes := Guard.passes?_eq_some_iff.2 ends
          simp [stop.stops] at passes
      | halt response =>
          obtain ⟨ending, events, invoked⟩ := stop.checkAll_halts h.name ends
          obtain ⟨ending', events', marks'⟩ := handle_of_halted ending
          exact ⟨marks' ▸ invoked, .inl ⟨c', response, rfl, ending', events'.trans events⟩⟩

end Handler

/-- Guards decide before anything else runs. Of the guards in their order, threaded through one
context, take the first that does not let the run go on. If it halts, the run ends with its name and
response and one report of that; if it panics, the run ends with the panic. In both cases the guards
up to it were invoked once each, in order, and nothing else was. If there is no such guard, the run
is that of all guards and then that of the layers and the action, on the context that the last guard
left. -/
theorem guards_decide (h : Handler) (c : Context) :
    let run : Marked Visit Handled := h.handle c
    run.unmark = h.handle c ∧
    (∀ i g reached, Guard.StopsAt h.guards c i g reached →
      run.marks.filterMap Visit.invokes? = (h.guards.take (i + 1)).map .guard ∧
      ((∃ c' response, (g.check reached).ending = .ok (c', .halt response) ∧
          run.ending = .ok (.ok (.halted g.id.name response)) ∧
          run.events = Guard.ownEvents h.guards c ++
            [⟨[], .notice (.guardHalted h.name g.id.name response.isSome)⟩]) ∨
        ∃ p, (g.check reached).ending = .error p ∧
          run.ending = .error p ∧ run.events = Guard.ownEvents h.guards c)) ∧
    ((¬ ∃ i g reached, Guard.StopsAt h.guards c i g reached) →
      ∃ c', Guard.thread h.guards c = some c' ∧
        let rest : Marked Visit Handled := (Next.ofLayers h.name h.layers h.action).run c'
        run.ending = rest.ending ∧
        run.events = Guard.ownEvents h.guards c ++ rest.events ∧
        run.marks.filterMap Visit.invokes? =
          h.guards.map .guard ++ rest.marks.filterMap Visit.invokes?) := by
  intro run
  refine ⟨Handler.unmark_handle h c, fun i g reached stop => Handler.handle_of_stopsAt stop, ?_⟩
  intro unstopped
  obtain ⟨c', threaded⟩ : ∃ c', Guard.thread h.guards c = some c' :=
    Option.ne_none_iff_exists'.1 fun stopped => unstopped (Guard.thread_eq_none_iff.1 stopped)
  obtain ⟨ending, events, marks⟩ := Handler.handle_of_thread threaded
  refine ⟨c', threaded, ending, events, ?_⟩
  rw [marks, List.filterMap_append, Guard.passage_invokes threaded]

/-- A guard that decides by what the one before it wrote: it halts the run, and the third guard is
not checked. Without it the run goes on to the action. -/
theorem guards_decide_at_halt :
    let page : GuardEntry := ⟨.ofName "page", fun c => pure (c.insert "page" .null, .proceed)⟩
    let closed : GuardEntry :=
      ⟨.ofName "closed", fun c => pure (c, .ofBool (!c.contains "page"))⟩
    let unseen : GuardEntry := ⟨.ofName "unseen", closed.check⟩
    let action : Action := ⟨fun handler _ => pure (.ok (.halted handler none))⟩
    let stopping : Handler := ⟨"h", [page, closed, unseen], [], action, []⟩
    let passing : Handler := ⟨"h", [page], [], action, []⟩
    let halted : Marked Visit Handled := stopping.handle ∅
    let passed : Marked Visit Handled := passing.handle ∅
    halted.ending = .ok (.ok (.halted "closed" none)) ∧
      halted.marks.filterMap Visit.invokes? = [.guard page, .guard closed] ∧
      passed.ending = .ok (.ok (.halted "h" none)) := by
  intro page closed unseen action stopping passing halted passed
  have stop : Guard.StopsAt stopping.guards ∅ 1 closed (SortedMap.insert ∅ "page" .null) :=
    ⟨rfl, rfl, rfl⟩
  have going : ¬ ∃ i g reached, Guard.StopsAt passing.guards ∅ i g reached := by
    rw [← Guard.thread_eq_none_iff]
    exact Option.some_ne_none _
  obtain ⟨invoked, ⟨c', response, ends, ending, _⟩ | ⟨p, panics, _⟩⟩ :=
    (guards_decide stopping ∅).2.1 1 closed _ stop
  · obtain ⟨c'', _, ending', _⟩ := (guards_decide passing ∅).2.2 going
    have verdict : (closed.check (SortedMap.insert ∅ "page" .null)).ending =
        .ok (SortedMap.insert ∅ "page" .null, .halt none) := rfl
    have flow := (Prod.mk.inj (Except.ok.inj (verdict.symm.trans ends))).2
    obtain rfl : none = response := Flow.halt.inj flow
    refine ⟨ending, invoked, ?_⟩
    rw [ending', Next.run]
    rfl
  · cases panics

end RequestFlow
