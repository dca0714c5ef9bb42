import RequestFlow.Proofs.Pipeline.Sites

/-!
# Which spans an event carries

A layer `trace` opens a request span around the chain inside it and around its own report, and
closes it when it is left, in whichever way that is. So the site of an event tells how many request
spans it carries: one for each `trace` layer outside of the layer at which it is logged, and one
more if that layer is one itself; one for each `trace` layer of the handler if the action logs it;
and none if a guard does.

`Handler.Logs` says what the code at a site logs by itself: an application's hooks and its action as
they would on their own, the library its reports outside of all spans. An event of a run is one of
these, at the end of the spans that belong to its site (`Handler.InSpans`).
-/

namespace RequestFlow

/-- Whether a layer opens a request span. -/
def Layer.isTrace : Layer → Bool
  | .trace => true
  | _ => false

namespace Handler

/-- How many of the first `n` layers open a request span. -/
def traces (h : Handler) (n : Nat) : Nat := (h.layers.take n).countP fun e => e.layer.isTrace

/-- How many request spans are open at a site: those of the layers up to it, or of all layers if it
is the action. -/
def depthOf (h : Handler) : Site → Nat
  | .guards => 0
  | .layer i => h.traces (i + 1)
  | .action => h.traces h.layers.length

/-- What the layer with number `i` sees of the chain inside it. -/
def aheadOf (h : Handler) (i : Nat) : Ahead :=
  ⟨h.name, (h.layers.drop (i + 1)).map fun e => e.id.name⟩

/-- What the code at a site logs, as it does without anything around it. -/
inductive Logs (h : Handler) : Site → Event → Prop where
  | guard {g : GuardEntry} (among : g ∈ h.guards) (c : Context) {e : Event}
      (logged : e ∈ (g.check c).events) : Logs h .guards e
  | halt {g : GuardEntry} (among : g ∈ h.guards) (withResponse : Bool) :
      Logs h .guards ⟨[], .notice (.guardHalted h.name g.id.name withResponse)⟩
  | wayIn {i : Nat} {id : HookId} {enter : Ahead → Context → Run Layer.Move}
      (here : h.layers[i]? = some ⟨id, .hook enter⟩) (c : Context) {e : Event}
      (logged : e ∈ (enter (h.aheadOf i) c).events) : Logs h (.layer i) e
  | wayOut {i : Nat} {id : HookId} {enter : Ahead → Context → Run Layer.Move}
      (here : h.layers[i]? = some ⟨id, .hook enter⟩) {c c' : Context}
      {wayOut : Handled → Run Handled}
      (passes : (enter (h.aheadOf i) c).ending = .ok (.delegate c' wayOut)) (result : Handled)
      {e : Event} (logged : e ∈ (wayOut result).events) : Logs h (.layer i) e
  | observation {i : Nat} {id : HookId} (here : h.layers[i]? = some ⟨id, .trace⟩)
      (result : Handled) : Logs h (.layer i) ⟨[], .notice (.ofHandled result)⟩
  | failure {i : Nat} {id : HookId} (here : h.layers[i]? = some ⟨id, .catchAll true⟩)
      (f : Failure) :
      Logs h (.layer i) ⟨[], .notice (.failureCaught h.name f.kind f.origin f.message)⟩
  | noTrace {i : Nat} {id : HookId} (here : h.layers[i]? = some ⟨id, .catchAll true⟩) :
      Logs h (.layer i) ⟨[], .notice (.traceDisabled h.name)⟩
  | expiry {i limit : Nat} {id : HookId} (here : h.layers[i]? = some ⟨id, .timeout limit⟩) :
      Logs h (.layer i) ⟨[], .notice (.timedOut h.name (Layer.reportedMillis limit))⟩
  | action (c : Context) {e : Event} (logged : e ∈ (h.action.call h.name c).events) :
      Logs h .action e

/-- The request spans of `n` layers. -/
def spans (h : Handler) (n : Nat) : List Span := List.replicate n ⟨h.name⟩

/-- Inside some more spans, an event is one that the code at its site logs, at the end of the
request spans that are open there. -/
def InSpans (h : Handler) (outer : List Span) (site : Site) (e : Event) : Prop :=
  ∃ own, h.Logs site own ∧ e.inside outer = own.inside (h.spans (h.depthOf site))

variable {h : Handler} {i : Nat} {site : Site} {e : Event} {outer : List Span}

theorem traces_succ_of_trace {l : LayerEntry} (here : h.layers[i]? = some l)
    (opens : l.layer.isTrace = true) : h.traces (i + 1) = h.traces i + 1 := by
  simp [traces, List.take_add_one, here, opens]

theorem traces_succ_of_other {l : LayerEntry} (here : h.layers[i]? = some l)
    (other : l.layer.isTrace = false) : h.traces (i + 1) = h.traces i := by
  simp [traces, List.take_add_one, here, other]

theorem spans_succ (h : Handler) (n : Nat) : h.spans (n + 1) = h.spans n ++ [⟨h.name⟩] :=
  List.replicate_succ'

/-- Code logs its own events inside the spans that are open at its site. -/
theorem Logs.inSpans (logs : h.Logs site e) : h.InSpans (h.spans (h.depthOf site)) site e :=
  ⟨e, logs, rfl⟩

theorem inSpans_inside {spans : List Span} :
    h.InSpans outer site (e.inside spans) ↔ h.InSpans (outer ++ spans) site e := by
  rw [InSpans, InSpans, Event.inside_inside]

end Handler

/-! ### One layer -/

section Layer

variable {h : Handler} {i : Nat} {e : LayerEntry} {P : Site → Event → Prop} {s : Site}
variable {R : Records Site}

/-- Wherever the control is, it comes back to a layer that goes on. -/
theorem LayerEntry.leads_resume (resumes : ∀ back, R.marksOf (.resume e back) = [.layer i])
    (back : Layer.Return) : (e.resume back : Marked Site Unit).Leads P s (.layer i) :=
  .record (by rw [resumes]; rfl)

/-- A layer gets the control back with the result of the chain inside it. -/
theorem LayerEntry.leads_returning (resumes : ∀ back, R.marksOf (.resume e back) = [.layer i])
    {r : Marked Site Handled} (logs : Step.LogOnly P s r.steps) :
    (Layer.returning e.resume r).Leads P s (.layer i) :=
  (Marked.Leads.of_logs logs).bind fun result _ =>
    (leads_resume resumes (.result result)).bind fun _ _ => .pure result

/-- What a catching layer does about a failure it does at its site. -/
theorem Layer.leads_answerFailures {handler : String} {r : Marked Site Handled}
    (inner : r.Leads P s s)
    (reported : ∀ f : Failure, P s ⟨[], .notice (.failureCaught handler f.kind f.origin f.message)⟩)
    (noTrace : P s ⟨[], .notice (.traceDisabled handler)⟩) :
    (answerFailures handler r).Leads P s s := by
  refine inner.bind fun result _ => ?_
  cases result with
  | ok o => exact .pure _
  | error f =>
      exact (Marked.Leads.notice (reported f)).bind fun _ _ =>
        (Marked.Leads.notice noTrace).bind fun _ _ => .pure _

/-- A layer around a chain whose events are in the spans of their sites: so are all events then,
inside the spans of the layers outside only. -/
theorem Handler.leads_around (here : h.layers[i]? = some e)
    (resumes : ∀ back, R.marksOf (.resume e back) = [.layer i])
    {inner : Context → Marked Site Handled}
    (inside : ∀ c s, Step.LogOnly (h.InSpans (h.spans (h.traces (i + 1)))) s (inner c).steps)
    (c : Context) :
    (e.layer.around e.resume (h.aheadOf i) inner c).Leads (h.InSpans (h.spans (h.traces i)))
      (.layer i) (.layer i) := by
  have own {event : Event} (logs : h.Logs (.layer i) event) :
      h.InSpans (h.spans (h.traces (i + 1))) (.layer i) event := logs.inSpans
  obtain ⟨id, l⟩ := e
  cases l with
  | hook enter =>
      rw [Handler.traces_succ_of_other here rfl] at inside own
      refine (Marked.Leads.ofRun fun event logged => own (.wayIn here c logged)).bind
        fun move ends => ?_
      cases move with
      | answer result => exact .pure result
      | delegate c' wayOut =>
          exact (LayerEntry.leads_returning resumes (inside c' _)).bind fun result _ =>
            .ofRun fun event logged => own (.wayOut here ends result logged)
  | trace =>
      -- The span of the layer is the innermost of the spans that were asked for inside.
      rw [Handler.traces_succ_of_trace here rfl, Handler.spans_succ] at inside own
      refine .within (.mono ?_ fun _ _ => Handler.inSpans_inside.2)
      exact (LayerEntry.leads_returning resumes (inside c _)).bind fun result _ =>
        (Marked.Leads.notice (own (.observation here result))).bind fun _ _ => .pure result
  | catchAll enabled =>
      rw [Handler.traces_succ_of_other here rfl] at inside own
      cases enabled with
      | false => exact LayerEntry.leads_returning resumes (inside c _)
      | true =>
          refine Layer.leads_answerFailures ?_ (fun f => own (.failure here f))
            (own (.noTrace here))
          refine (LayerEntry.leads_returning resumes (inside c _)).rescue fun p s' => ?_
          exact (LayerEntry.leads_resume resumes (.panic p)).bind fun _ _ => .pure _
  | timeout limit =>
      rw [Handler.traces_succ_of_other here rfl] at inside own
      refine (LayerEntry.leads_returning resumes (inside c _)).limit fun s' => ?_
      exact (LayerEntry.leads_resume resumes .expiry).bind fun _ _ =>
        (Marked.Leads.notice (own (.expiry here))).bind fun _ _ => .pure _

end Layer

/-! ### A whole pipeline -/

namespace Handler

variable {h : Handler}

/-- The layers from some number on and the action log events that are in the spans of their sites,
inside the spans of the layers outside of them. -/
theorem logOnly_located (i : Nat) {inside : List LayerEntry} (rest : h.layers.drop i = inside)
    (c : Context) (s : Site) :
    Step.LogOnly (h.InSpans (h.spans (h.traces i))) s
      (Chain.located h.name h.action i inside c).steps := by
  induction inside generalizing i c s with
  | nil =>
      have all : h.traces i = h.traces h.layers.length := by
        rw [traces, traces, List.take_of_length_le (List.drop_eq_nil_iff.1 rest), List.take_length]
      have called : (Marked.ofRun (h.action.call h.name c) : Marked Site Handled).Leads
          (h.InSpans (h.spans (h.traces h.layers.length))) .action .action :=
        .ofRun fun e logged => (Logs.action c logged).inSpans
      rw [all]
      exact (called.enclose rfl fun _ => rfl).logs
  | cons e inside ih =>
      have here : h.layers[i]? = some e := by
        rw [← List.head?_drop, rest]
        rfl
      have further : h.layers.drop (i + 1) = inside := by
        rw [← List.drop_drop, rest]
        rfl
      have around :=
        leads_around here (Site.marksOf_resume i e) (fun c s => ih (i + 1) further c s) c
      rw [aheadOf, further] at around
      exact (around.enclose rfl fun _ => rfl).logs

/-- Guards log their own events, and the handler the halt of one of them, all outside of spans. -/
theorem leads_checkAll {R : Records Site} (checks : ∀ g c, R.marksOf (.check g c) = [.guards])
    (decides : ∀ g flow, R.marksOf (.decide g flow) = [.guards]) (guards : List GuardEntry)
    (among : ∀ g ∈ guards, g ∈ h.guards) (c : Context) :
    (Guard.checkAll h.name guards c : Marked Site (Context ⊕ Outcome)).Leads
      (h.InSpans []) .guards .guards := by
  induction guards generalizing c with
  | nil => exact .pure _
  | cons g rest ih =>
      have known : g ∈ h.guards := among g List.mem_cons_self
      have own : (Marked.ofRun (g.check c) : Marked Site (Context × Flow)).Leads
          (h.InSpans []) .guards .guards :=
        .ofRun fun e logged => (Logs.guard known c logged).inSpans
      have visited : (g.visit c : Marked Site (Context × Flow)).Leads
          (h.InSpans []) .guards .guards :=
        own.enclose (checks g c) fun verdict => by rw [decides]; rfl
      refine visited.bind fun verdict _ => ?_
      obtain ⟨c', flow⟩ := verdict
      cases flow with
      | proceed => exact ih (fun g' mem => among g' (List.mem_cons_of_mem _ mem)) c'
      | halt response =>
          exact (Marked.Leads.notice (Logs.halt known response.isSome).inSpans).bind
            fun _ _ => .pure _

/-- All events of a run are in the spans of their sites. -/
theorem inSpans_of_attributed (h : Handler) (c : Context) {site : Site} {e : Event}
    (mem : (site, e) ∈ (h.located c).attributed) : h.InSpans [] site e := by
  have checked := leads_checkAll (Site.marksOf_check 0) (Site.marksOf_decide 0) h.guards
    (fun _ mem => mem) c
  refine checked.logOnly_bind (fun verdict _ => ?_) site e mem
  cases verdict with
  | inl c' => exact logOnly_located 0 rfl c' .guards
  | inr outcome => exact (Marked.Leads.pure _).logs

end Handler

/-- Every event of a run carries the request spans of the `trace` layers around it, and no others
but those that the code which logs it opens itself. The events are those of a run with all visits
recorded by their sites, which is the run of the handler. At a layer an event carries one span,
named by the handler, for each `trace` layer outside of it, and one more if it is one itself; at the
action, one for each `trace` layer; and none at the guards. So nothing that ends a layer leaves a
span open: neither a result, nor a failure, nor a panic that a layer further out catches, nor a time
limit. -/
theorem events_in_spans_of_traces (h : Handler) (c : Context) :
    let run : Marked Site Handled := h.located c
    run.unmark = h.handle c ∧
    run.attributed.map Prod.snd = (h.handle c : Run Handled).events ∧
    ∀ site e, (site, e) ∈ run.attributed → ∃ own, h.Logs site own ∧
      e.entry = own.entry ∧ e.spans = List.replicate (h.depthOf site) ⟨h.name⟩ ++ own.spans := by
  intro run
  have same : run.unmark = h.handle c := h.unmark_located c
  refine ⟨same, ?_, fun site e mem => ?_⟩
  · rw [← same, Marked.events_unmark]
    exact run.map_snd_attributed
  · obtain ⟨own, logs, placed⟩ := h.inSpans_of_attributed c mem
    have whole : e = own.inside (h.spans (h.depthOf site)) := placed
    exact ⟨own, logs, whole ▸ rfl, whole ▸ rfl⟩

/-- A chain that is dropped at a deadline, a layer that panics on its way out, and a layer outside
of both that catches the panic: each event with its site and the number of spans that it carries. -/
example :
    let relay : Layer := .hook fun _ c => do
      Run.log (.note "in")
      pure (.delegate c fun _ => do
        Run.log (.note "out")
        Run.raise ⟨some "torn"⟩)
    let layers : List LayerEntry :=
      [.catchAll true, .trace, relay, .timeout 5, .trace].map fun l => ⟨.ofName "layer", l⟩
    let action : Action := ⟨fun handler _ => do
      Run.log (.note "working")
      Run.sleep 9
      pure (.ok (.halted handler none))⟩
    let run := (⟨"h", [], layers, action, []⟩ : Handler).located ∅
    run.attributed.map (fun p => (p.1, p.2.spans.length)) =
      [(.layer 2, 1), (.action, 2), (.layer 3, 1), (.layer 2, 1), (.layer 0, 0), (.layer 0, 0)] :=
  rfl

end RequestFlow
