import RequestFlow.Proofs.Pipeline.Surroundings

/-!
# Where the control of a pipeline is

The journal of a run tells which guard, layer or action the control comes to, but the same layer can
stand at several places of a pipeline. Here every visit is recorded by its `Site` instead, which
numbers the layers from the outside in. The pipeline is the same: `Handler.located` runs the visits
of `Handler.handle` one by one, and forgetting its marks gives back the plain run
(`Handler.unmark_located`).

In a located run each event has a site, which is the last one that was recorded before it
(`Marked.attributed`). What is logged at which site is then found by going through a run from its
beginning to its end: `Marked.Leads` says what a part of a run logs if the control is at some site
when it begins, and where the control is when it returns.
-/

namespace RequestFlow

/-- A place in a pipeline at which code of its own is run. -/
inductive Site where
  /-- The guards, and the handler while it checks them. -/
  | guards
  /-- The layer with some number; the outermost one has number 0. -/
  | layer (i : Nat)
  | action
deriving DecidableEq, Repr

/-- The site to which the control comes at a visit, if the layer visited has number `i`. When a part
is left no code is run before the control is back at the layer around it. -/
def Visit.site? (i : Nat) : Visit → Option Site
  | .check .. | .decide .. => some .guards
  | .enter .. | .resume .. => some (.layer i)
  | .call _ => some .action
  | .leave .. | .done _ => none

/-- Visits are recorded by their sites. -/
@[reducible] def Site.records (i : Nat) : Records Site := ⟨fun v => (v.site? i).toList⟩

theorem Site.marksOf_check (i : Nat) (g : GuardEntry) (c : Context) :
    (records i).marksOf (.check g c) = [.guards] := rfl

theorem Site.marksOf_decide (i : Nat) (g : GuardEntry) (flow : Flow) :
    (records i).marksOf (.decide g flow) = [.guards] := rfl

theorem Site.marksOf_resume (i : Nat) (e : LayerEntry) (back : Layer.Return) :
    (records i).marksOf (.resume e back) = [.layer i] := rfl

/-- The chain of some layers and an action, with all visits recorded by their sites. The outermost
layer has number `i`. -/
def Chain.located (handler : String) (a : Action) :
    Nat → List LayerEntry → Context → Marked Site Handled
  | i, [], c =>
    letI := Site.records i
    a.visit handler c
  | i, e :: rest, c =>
    letI := Site.records i
    e.visit ⟨handler, rest.map fun e => e.id.name⟩ (located handler a (i + 1) rest) c

/-- Run one request through the pipeline, with all visits recorded by their sites. -/
def Handler.located (h : Handler) (c : Context) : Marked Site Handled :=
  letI := Site.records 0
  do
    match ← (Guard.checkAll h.name h.guards c : Marked Site _) with
    | .inl c => Chain.located h.name h.action 0 h.layers c
    | .inr outcome => pure (.ok outcome)

theorem Chain.unmark_located (handler : String) (a : Action) (i : Nat) (layers : List LayerEntry)
    (c : Context) :
    (located handler a i layers c).unmark = (Next.ofLayers handler layers a).run c := by
  induction layers generalizing i c with
  | nil =>
      rw [Next.run_nil]
      have visited := @Action.unmark_visit Site (Site.records i) a handler c
      exact visited.trans (a.visit_plain handler c)
  | cons e rest ih =>
      have chain : (fun c => (located handler a (i + 1) rest c).unmark) =
          (Next.ofLayers handler rest a).run := funext fun c => ih (i + 1) c
      rw [Next.run_cons, ← chain]
      have visited := @LayerEntry.unmark_visit Site (Site.records i) e
      exact (visited _ _ c).trans (e.visit_plain _ _ c)

/-- Recording the sites of a run does not change it. -/
theorem Handler.unmark_located (h : Handler) (c : Context) :
    (h.located c).unmark = h.handle c := by
  simp only [located, handle, Marked.unmark_bind, Guard.unmark_checkAll]
  refine congrArg _ (funext fun checked => ?_)
  cases checked with
  | inl c => exact Chain.unmark_located h.name h.action 0 h.layers c
  | inr outcome => rfl

/-! ### The sites of events -/

namespace Step

/-- The events that steps log, each with the site of the control. It is at site `s` when the steps
begin. -/
def attributed (s : Site) : List (Step Site) → List (Site × Event)
  | [] => []
  | .log e :: rest => (s, e) :: attributed s rest
  | .mark s' :: rest => attributed s' rest
  | .sleep _ :: rest => attributed s rest
  | .yield :: rest => attributed s rest

/-- The site of the control after some steps: the last one that was recorded. -/
def siteAfter (s : Site) (steps : List (Step Site)) : Site := (steps.filterMap mark?).getLastD s

/-- Every event has a site, and none is made up. -/
theorem map_snd_attributed (s : Site) (steps : List (Step Site)) :
    (attributed s steps).map Prod.snd = steps.filterMap event? := by
  induction steps generalizing s with
  | nil => rfl
  | cons step rest ih =>
      cases step with
      | log e => exact congrArg (e :: ·) (ih s)
      | mark s' => exact ih s'
      | sleep d => exact ih s
      | yield => exact ih s

theorem siteAfter_mark (s s' : Site) (steps : List (Step Site)) :
    siteAfter s (.mark s' :: steps) = siteAfter s' steps := List.getLastD_cons

theorem attributed_append (s : Site) (a b : List (Step Site)) :
    attributed s (a ++ b) = attributed s a ++ attributed (siteAfter s a) b := by
  induction a generalizing s with
  | nil => rfl
  | cons step rest ih =>
      cases step with
      | log e => exact congrArg ((s, e) :: ·) (ih s)
      | mark s' =>
          rw [siteAfter_mark]
          exact ih s'
      | sleep d => exact ih s
      | yield => exact ih s

theorem siteAfter_append (s : Site) (a b : List (Step Site)) :
    siteAfter s (a ++ b) = siteAfter (siteAfter s a) b := by
  simp [siteAfter, List.getLastD_eq_getLast?]

theorem attributed_inside (spans : List Span) (s : Site) (steps : List (Step Site)) :
    attributed s (steps.map (inside spans)) =
      (attributed s steps).map fun p => (p.1, p.2.inside spans) := by
  induction steps generalizing s with
  | nil => rfl
  | cons step rest ih =>
      cases step with
      | log e => exact congrArg ((s, e.inside spans) :: ·) (ih s)
      | mark s' => exact ih s'
      | sleep d => exact ih s
      | yield => exact ih s

theorem attributed_ofPlain (s : Site) (steps : List (Step Empty)) :
    attributed s (steps.map ofPlain) = (steps.filterMap event?).map fun e => (s, e) := by
  induction steps with
  | nil => rfl
  | cons step rest ih =>
      cases step with
      | log e => exact congrArg ((s, e) :: ·) ih
      | sleep d => exact ih
      | yield => exact ih
      | mark m => exact m.elim

/-- A deadline drops events from the end and moves none to another site. -/
theorem Cut.attributed_front {left : Nat} {steps kept : List (Step Site)}
    (cut : Cut left steps kept) (s : Site) : attributed s kept <+: attributed s steps := by
  induction cut generalizing s with
  | log e _ ih => exact (List.prefix_cons_inj _).2 (ih s)
  | mark s' _ ih => exact ih s'
  | sleep _ _ ih => exact ih s
  | yield _ _ ih => exact ih s
  | asleep late rest => exact List.nil_prefix
  | yielding rest => exact List.nil_prefix

/-- All that steps log has a property, if the control is at site `s` when they begin. -/
def LogOnly (P : Site → Event → Prop) (s : Site) (steps : List (Step Site)) : Prop :=
  ∀ site e, (site, e) ∈ attributed s steps → P site e

theorem LogOnly.append {P : Site → Event → Prop} {s : Site} {a b : List (Step Site)}
    (front : LogOnly P s a) (back : LogOnly P (siteAfter s a) b) : LogOnly P s (a ++ b) := by
  intro site e mem
  rw [attributed_append, List.mem_append] at mem
  exact mem.elim (front site e) (back site e)

end Step

namespace Marked

variable {α β : Type} {P Q : Site → Event → Prop} {s t u : Site}

/-- The events of a run, each with its site. At the beginning the control is with the guards. -/
def attributed (r : Marked Site α) : List (Site × Event) := Step.attributed .guards r.steps

theorem map_snd_attributed (r : Marked Site α) : r.attributed.map Prod.snd = r.events :=
  Step.map_snd_attributed _ _

/-- All that a run logs has a property, if the control is at site `s` when it begins, and when it
returns the control is at site `t`. -/
structure Leads (P : Site → Event → Prop) (s t : Site) (r : Marked Site α) : Prop where
  logs : Step.LogOnly P s r.steps
  back : ∀ a, r.ending = .ok a → Step.siteAfter s r.steps = t

namespace Leads

variable {R : Records Site}

theorem of_logs {r : Marked Site α} (logs : Step.LogOnly P s r.steps) :
    r.Leads P s (Step.siteAfter s r.steps) := ⟨logs, fun _ _ => rfl⟩

theorem mono {r : Marked Site α} (leads : r.Leads P s t) (weaker : ∀ site e, P site e → Q site e) :
    r.Leads Q s t := ⟨fun site e mem => weaker site e (leads.logs site e mem), leads.back⟩

theorem pure (a : α) : (pure a : Marked Site α).Leads P s s := ⟨nofun, fun _ _ => rfl⟩

/-- A record moves the control to the last site that it names, if it names one. -/
theorem record {v : Visit} (moves : (Records.marksOf v).getLastD s = t) :
    (v.record : Marked Site Unit).Leads P s t := by
  have silent : ∀ s, Step.attributed s ((Records.marksOf v).map Step.mark) = [] := by
    induction (Records.marksOf v : List Site) with
    | nil => exact fun _ => rfl
    | cons s' rest ih => exact fun _ => ih s'
  refine ⟨fun site e mem => ?_, fun _ _ => ?_⟩
  · rw [Visit.record, silent] at mem
    cases mem
  · rw [Visit.record, Step.siteAfter, List.filterMap_map, ← moves]
    exact congrArg (·.getLastD s) List.filterMap_some

/-- Code that leaves no marks stays at its site. -/
theorem ofRun {r : Run α} (logs : ∀ e ∈ r.events, P s e) :
    (ofRun r : Marked Site α).Leads P s s := by
  refine ⟨fun site e mem => ?_, fun _ _ => congrArg (·.getLastD s) (marks_ofRun r)⟩
  rw [Marked.ofRun, Step.attributed_ofPlain, List.mem_map] at mem
  obtain ⟨e', logged, same⟩ := mem
  cases same
  exact logs e logged

theorem notice {n : Notice} (holds : P s ⟨[], .notice n⟩) :
    (Run.notice n : Marked Site Unit).Leads P s s := by
  refine ⟨fun site e mem => ?_, fun _ _ => rfl⟩
  cases List.mem_singleton.1 mem
  exact holds

theorem logOnly_bind {r : Marked Site α} {f : α → Marked Site β} (first : r.Leads P s t)
    (onward : ∀ a, r.ending = .ok a → Step.LogOnly P t (f a).steps) :
    Step.LogOnly P s (r >>= f).steps := by
  cases ends : r.ending with
  | error p =>
      rw [bind_error ends]
      exact first.logs
  | ok a =>
      obtain rfl := first.back a ends
      rw [bind_ok ends]
      exact first.logs.append (onward a ends)

theorem bind {r : Marked Site α} {f : α → Marked Site β} (first : r.Leads P s t)
    (onward : ∀ a, r.ending = .ok a → (f a).Leads P t u) : (r >>= f).Leads P s u := by
  refine ⟨first.logOnly_bind fun a ends => (onward a ends).logs, fun b returns => ?_⟩
  cases ends : r.ending with
  | error p =>
      rw [bind_error ends] at returns
      cases returns
  | ok a =>
      obtain rfl := first.back a ends
      rw [bind_ok ends] at returns ⊢
      exact (Step.siteAfter_append s _ _).trans ((onward a ends).back b returns)

/-- Between its records, a part of a pipeline begins at the site to which its arrival moves the
control. -/
theorem enclose {arrive : Visit} {r : Marked Site α} {depart : α → Visit}
    (comes : Records.marksOf arrive = [t]) (inner : r.Leads P t u)
    (goes : ∀ a, (Records.marksOf (depart a)).getLastD u = u) :
    (Visit.enclose arrive r depart).Leads P s u := by
  have arrival : (arrive.record : Marked Site Unit).Leads P s t := record (by rw [comes]; rfl)
  refine arrival.bind fun _ _ => inner.bind fun a _ => ?_
  have departure : ((depart a).record : Marked Site Unit).Leads P u u := record (goes a)
  exact departure.bind fun _ _ => .pure a

/-- What is logged inside a span is logged at the same site. -/
theorem within {r : Marked Site α} {span : Span}
    (inner : r.Leads (fun site e => P site (e.inside [span])) s t) :
    (r.within span).Leads P s t := by
  refine ⟨fun site e mem => ?_, fun a ends => ?_⟩
  · rw [steps_within, Step.attributed_inside, List.mem_map] at mem
    obtain ⟨⟨site', e'⟩, logged, same⟩ := mem
    cases same
    exact inner.logs _ _ logged
  · exact (congrArg (·.getLastD s) (marks_within span r)).trans (inner.back a ends)

/-- Wherever the control is when a run panics, it comes to site `t` if the panic is handled
there. -/
theorem rescue {r : Marked Site α} {recover : Panic → Marked Site α} (inner : r.Leads P s t)
    (caught : ∀ p s', (recover p).Leads P s' t) : (r.rescue recover).Leads P s t := by
  cases ends : r.ending with
  | ok a => rwa [rescue_ok ends]
  | error p =>
      simp only [Marked.rescue, ends]
      exact ⟨inner.logs.append (caught p _).logs, fun a returns =>
        (Step.siteAfter_append s _ _).trans ((caught p _).back a returns)⟩

/-- Wherever the control is when a time limit expires, it comes to site `t` if what follows does. -/
theorem limit {left : Nat} {r expired : Marked Site α} (inner : r.Leads P s t)
    (follows : ∀ s', expired.Leads P s' t) : (limit left r expired).Leads P s t := by
  cases cut : Step.cut? left r.steps with
  | none => rwa [limit_of_none cut]
  | some kept =>
      have front : Step.LogOnly P s kept := fun site e mem =>
        inner.logs site e (((Step.cut?_eq_some_iff.1 cut).attributed_front s).subset mem)
      simp only [Marked.limit, cut]
      exact ⟨front.append (follows _).logs, fun a returns =>
        (Step.siteAfter_append s _ _).trans ((follows _).back a returns)⟩

end Leads

end Marked

end RequestFlow
