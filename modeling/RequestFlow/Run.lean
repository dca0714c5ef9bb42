import RequestFlow.Event

/-!
# Runs

Hooks and actions take time, log events and may panic. A `Run` records one such computation: the
steps it takes, in order, and how it ends. A step logs an event, sleeps for some milliseconds, or
yields to the scheduler without taking time.

Time is that of an ideal clock, which only sleeping moves. A computation with a time limit is cut
by `Marked.limit` at its deadline: a sleep up to the deadline is taken in full, a longer one ends
there and a yield at the deadline ends there too.

A pipeline may also leave marks between its steps, which say where it is. `Marked μ` is a run with
marks of type `μ`, and a `Run` is one that has no marks to leave. Marks take no time, nothing that
runs can see them, and `Marked.unmark` forgets them; every operation on runs commutes with that.
-/

namespace RequestFlow

/-- An abrupt end. The text is missing if what was raised carries none. -/
structure Panic where
  message : Option String
deriving DecidableEq, Repr

/-- One step of a run. -/
inductive Step (μ : Type) where
  | log (e : Event)
  | sleep (duration : Nat)
  | yield
  | mark (m : μ)

/-- A computation: its steps, and the value or the panic that it ends with. -/
structure Marked (μ α : Type) where
  steps : List (Step μ)
  ending : Except Panic α

/-- A computation that leaves no marks. -/
abbrev Run := Marked Empty

namespace Step

variable {μ : Type}

def event? : Step μ → Option Event
  | .log e => some e
  | _ => none

def mark? : Step μ → Option μ
  | .mark m => some m
  | _ => none

/-- A step inside more spans, the outermost first. -/
def inside (spans : List Span) : Step μ → Step μ
  | .log e => .log (e.inside spans)
  | step => step

/-- A step that leaves no mark, among steps that may. -/
def ofPlain : Step Empty → Step μ
  | .log e => .log e
  | .sleep d => .sleep d
  | .yield => .yield

/-- A step without its mark. -/
def unmark? : Step μ → Option (Step Empty)
  | .log e => some (.log e)
  | .sleep d => some (.sleep d)
  | .yield => some .yield
  | .mark _ => none

@[simp] theorem mark?_inside (spans : List Span) (step : Step μ) :
    (step.inside spans).mark? = step.mark? := by
  cases step <;> rfl

@[simp] theorem mark?_ofPlain (step : Step Empty) : (ofPlain step : Step μ).mark? = none := by
  cases step with
  | mark m => exact m.elim
  | _ => rfl

@[simp] theorem event?_ofPlain (step : Step Empty) :
    (ofPlain step : Step μ).event? = step.event? := by
  cases step with
  | mark m => exact m.elim
  | _ => rfl

@[simp] theorem unmark?_ofPlain (step : Step Empty) :
    (ofPlain step : Step μ).unmark? = some step := by
  cases step with
  | mark m => exact m.elim
  | _ => rfl

theorem unmark?_inside (spans : List Span) (step : Step μ) :
    (step.inside spans).unmark? = step.unmark?.map (inside spans) := by
  cases step <;> rfl

theorem event?_unmark? (step : Step μ) : step.unmark?.bind event? = step.event? := by
  cases step <;> rfl

def duration : List (Step μ) → Nat
  | [] => 0
  | .sleep d :: rest => d + duration rest
  | .log _ :: rest => duration rest
  | .yield :: rest => duration rest
  | .mark _ :: rest => duration rest

/-- What is left of some steps when a deadline lies `left` milliseconds ahead, if they do not end
before it. -/
def cut? : Nat → List (Step μ) → Option (List (Step μ))
  | _, [] => none
  | left, .log e :: rest => (cut? left rest).map (.log e :: ·)
  | left, .sleep d :: rest =>
    if d ≤ left then (cut? (left - d) rest).map (.sleep d :: ·) else some [.sleep left]
  | left, .yield :: rest => if left = 0 then some [] else (cut? left rest).map (.yield :: ·)
  | left, .mark m :: rest => (cut? left rest).map (.mark m :: ·)

theorem duration_append (a b : List (Step μ)) : duration (a ++ b) = duration a + duration b := by
  induction a with
  | nil => simp [duration]
  | cons step rest ih => cases step <;> simp [duration, ih, Nat.add_assoc]

@[simp] theorem duration_inside (spans : List Span) (steps : List (Step μ)) :
    duration (steps.map (inside spans)) = duration steps := by
  induction steps with
  | nil => rfl
  | cons step rest ih => cases step <;> simp [duration, inside, ih]

/-- An expired run ends exactly at its deadline. -/
theorem duration_cut? {left : Nat} {steps kept : List (Step μ)} (h : cut? left steps = some kept) :
    duration kept = left := by
  induction steps generalizing left kept with
  | nil => simp [cut?] at h
  | cons step rest ih =>
    cases step with
    | log e =>
      simp only [cut?, Option.map_eq_some_iff] at h
      obtain ⟨k, hk, rfl⟩ := h
      simpa [duration] using ih hk
    | sleep d =>
      simp only [cut?] at h
      split at h
      · simp only [Option.map_eq_some_iff] at h
        obtain ⟨k, hk, rfl⟩ := h
        have := ih hk
        simp only [duration]
        omega
      · simp only [Option.some.injEq] at h
        subst h
        simp [duration]
    | yield =>
      simp only [cut?] at h
      split at h
      next zero =>
        simp only [Option.some.injEq] at h
        subst h
        simp [duration, zero]
      · simp only [Option.map_eq_some_iff] at h
        obtain ⟨k, hk, rfl⟩ := h
        simpa [duration] using ih hk
    | mark m =>
      simp only [cut?, Option.map_eq_some_iff] at h
      obtain ⟨k, hk, rfl⟩ := h
      simpa [duration] using ih hk

/-- A deadline falls into the first of two parts, or what the first leaves of it into the second. -/
theorem cut?_append (left : Nat) (a b : List (Step μ)) :
    cut? left (a ++ b) =
      match cut? left a with
      | some kept => some kept
      | none => (cut? (left - duration a) b).map (a ++ ·) := by
  induction a generalizing left with
  | nil => simp [cut?, duration]
  | cons step rest ih =>
    cases step with
    | sleep d =>
      simp only [List.cons_append, cut?, duration, Nat.sub_add_eq]
      split
      · rw [ih]
        cases cut? (left - d) rest <;> simp [Function.comp_def]
      · rfl
    | yield =>
      simp only [List.cons_append, cut?, duration]
      split
      · rfl
      · rw [ih]
        cases cut? left rest <;> simp [Function.comp_def]
    | _ =>
      simp only [List.cons_append, cut?, duration, ih]
      cases cut? left rest <;> simp [Function.comp_def]

/-- A deadline takes no mark back that was left before it. -/
theorem marks_cut?_prefix {left : Nat} {steps kept : List (Step μ)}
    (h : cut? left steps = some kept) : kept.filterMap mark? <+: steps.filterMap mark? := by
  induction steps generalizing left kept with
  | nil => simp [cut?] at h
  | cons step rest ih =>
    cases step with
    | log e =>
      simp only [cut?, Option.map_eq_some_iff] at h
      obtain ⟨k, hk, rfl⟩ := h
      simpa [List.filterMap_cons, mark?] using ih hk
    | sleep d =>
      simp only [cut?] at h
      split at h
      · simp only [Option.map_eq_some_iff] at h
        obtain ⟨k, hk, rfl⟩ := h
        simpa [List.filterMap_cons, mark?] using ih hk
      · simp only [Option.some.injEq] at h
        subst h
        exact List.nil_prefix
    | yield =>
      simp only [cut?] at h
      split at h
      · simp only [Option.some.injEq] at h
        subst h
        exact List.nil_prefix
      · simp only [Option.map_eq_some_iff] at h
        obtain ⟨k, hk, rfl⟩ := h
        simpa [List.filterMap_cons, mark?] using ih hk
    | mark m =>
      simp only [cut?, Option.map_eq_some_iff] at h
      obtain ⟨k, hk, rfl⟩ := h
      simpa [List.filterMap_cons, mark?] using ih hk

/-- Marks move no deadline. -/
theorem cut?_unmark (left : Nat) (steps : List (Step μ)) :
    cut? left (steps.filterMap unmark?) = (cut? left steps).map (List.filterMap unmark?) := by
  induction steps generalizing left with
  | nil => rfl
  | cons step rest ih =>
    cases step with
    | sleep d =>
      simp only [List.filterMap_cons, unmark?, cut?, ih]
      split
      · simp [Function.comp_def, unmark?]
      · rfl
    | yield =>
      simp only [List.filterMap_cons, unmark?, cut?, ih]
      split
      · rfl
      · simp [Function.comp_def, unmark?]
    | _ => simp [List.filterMap_cons, unmark?, cut?, ih, Function.comp_def]

end Step

namespace Marked

variable {μ α β γ : Type}

/-- Go on with the value of a run; a panic ends the whole. -/
def bind (r : Marked μ α) (f : α → Marked μ β) : Marked μ β :=
  match r.ending with
  | .ok a => ⟨r.steps ++ (f a).steps, (f a).ending⟩
  | .error p => ⟨r.steps, .error p⟩

instance : Monad (Marked μ) where
  pure a := ⟨[], .ok a⟩
  bind := bind

@[simp] theorem steps_pure (a : α) : (pure a : Marked μ α).steps = [] := rfl

@[simp] theorem ending_pure (a : α) : (pure a : Marked μ α).ending = .ok a := rfl

theorem bind_ok {r : Marked μ α} {a : α} (h : r.ending = .ok a) (f : α → Marked μ β) :
    r >>= f = ⟨r.steps ++ (f a).steps, (f a).ending⟩ := by
  change r.bind f = _
  simp [bind, h]

theorem bind_error {r : Marked μ α} {p : Panic} (h : r.ending = .error p) (f : α → Marked μ β) :
    r >>= f = ⟨r.steps, .error p⟩ := by
  change r.bind f = _
  simp [bind, h]

@[simp] theorem pure_bind (a : α) (f : α → Marked μ β) : pure a >>= f = f a := by
  rw [bind_ok rfl]
  rfl

@[simp] theorem bind_pure (r : Marked μ α) : r >>= pure = r := by
  cases h : r.ending with
  | ok a => rw [bind_ok h]; cases r; simp_all
  | error p => rw [bind_error h]; cases r; simp_all

theorem bind_assoc (r : Marked μ α) (f : α → Marked μ β) (g : β → Marked μ γ) :
    (r >>= f) >>= g = r >>= fun a => f a >>= g := by
  cases h : r.ending with
  | error p => rw [bind_error h, bind_error rfl, bind_error h]
  | ok a =>
    rw [bind_ok h, bind_ok h]
    cases h' : (f a).ending with
    | error p => rw [bind_error (by rfl), bind_error h']
    | ok b => rw [bind_ok (by rfl), bind_ok h']; simp

def events (r : Marked μ α) : List Event := r.steps.filterMap Step.event?

def marks (r : Marked μ α) : List μ := r.steps.filterMap Step.mark?

def elapsed (r : Marked μ α) : Nat := Step.duration r.steps

/-- The run inside one more span: all of its events carry it. -/
def within (s : Span) (r : Marked μ α) : Marked μ α := ⟨r.steps.map (Step.inside [s]), r.ending⟩

/-- The run with its panic handed to `recover`, which goes on from there. -/
def rescue (r : Marked μ α) (recover : Panic → Marked μ α) : Marked μ α :=
  match r.ending with
  | .ok a => ⟨r.steps, .ok a⟩
  | .error p => ⟨r.steps ++ (recover p).steps, (recover p).ending⟩

/-- Run under a time limit. When it expires the rest of the run is dropped and `expired` follows. -/
def limit (left : Nat) (r expired : Marked μ α) : Marked μ α :=
  match Step.cut? left r.steps with
  | some steps => ⟨steps ++ expired.steps, expired.ending⟩
  | none => r

/-- A run without marks, as part of one that may leave some. -/
def ofRun (r : Run α) : Marked μ α := ⟨r.steps.map Step.ofPlain, r.ending⟩

def unmark (r : Marked μ α) : Run α := ⟨r.steps.filterMap Step.unmark?, r.ending⟩

@[simp] theorem steps_within (s : Span) (r : Marked μ α) :
    (r.within s).steps = r.steps.map (Step.inside [s]) := rfl

@[simp] theorem ending_within (s : Span) (r : Marked μ α) : (r.within s).ending = r.ending := rfl

@[simp] theorem ending_ofRun (r : Run α) : (ofRun r : Marked μ α).ending = r.ending := rfl

@[simp] theorem marks_pure (a : α) : (pure a : Marked μ α).marks = [] := rfl

@[simp] theorem events_pure (a : α) : (pure a : Marked μ α).events = [] := rfl

@[simp] theorem marks_within (s : Span) (r : Marked μ α) : (r.within s).marks = r.marks := by
  rw [marks, steps_within, List.filterMap_map]
  exact congrArg (r.steps.filterMap ·) (funext (Step.mark?_inside [s]))

@[simp] theorem marks_ofRun (r : Run α) : (ofRun r : Marked μ α).marks = [] := by
  rw [marks, ofRun, List.filterMap_map, List.filterMap_eq_nil_iff]
  exact fun step _ => step.mark?_ofPlain

@[simp] theorem events_ofRun (r : Run α) : (ofRun r : Marked μ α).events = r.events := by
  rw [events, ofRun, List.filterMap_map]
  exact congrArg (r.steps.filterMap ·) (funext Step.event?_ofPlain)

@[simp] theorem events_unmark (r : Marked μ α) : r.unmark.events = r.events := by
  simp only [events, unmark, List.filterMap_filterMap]
  exact congrArg (r.steps.filterMap ·) (funext Step.event?_unmark?)

section Bind

variable {r : Marked μ α} {a : α} {p : Panic}

theorem ending_bind_ok (h : r.ending = .ok a) (f : α → Marked μ β) :
    (r >>= f).ending = (f a).ending := by
  rw [bind_ok h]

theorem ending_bind_error (h : r.ending = .error p) (f : α → Marked μ β) :
    (r >>= f).ending = .error p := by
  rw [bind_error h]

theorem marks_bind_ok (h : r.ending = .ok a) (f : α → Marked μ β) :
    (r >>= f).marks = r.marks ++ (f a).marks := by
  simp [bind_ok h, marks]

theorem marks_bind_error (h : r.ending = .error p) (f : α → Marked μ β) :
    (r >>= f).marks = r.marks := by
  simp [bind_error h, marks]

/-- What follows a run takes none of its marks back. -/
theorem marks_prefix_bind (r : Marked μ α) (f : α → Marked μ β) : r.marks <+: (r >>= f).marks := by
  cases h : r.ending with
  | ok a => exact ⟨(f a).marks, (marks_bind_ok h f).symm⟩
  | error p => exact marks_bind_error h f ▸ List.prefix_rfl

theorem events_bind_ok (h : r.ending = .ok a) (f : α → Marked μ β) :
    (r >>= f).events = r.events ++ (f a).events := by
  simp [bind_ok h, events]

theorem events_bind_error (h : r.ending = .error p) (f : α → Marked μ β) :
    (r >>= f).events = r.events := by
  simp [bind_error h, events]

end Bind

section Exits

variable {r expired : Marked μ α} {a : α} {p : Panic} {left : Nat} {kept : List (Step μ)}

theorem rescue_ok (h : r.ending = .ok a) (recover : Panic → Marked μ α) :
    r.rescue recover = r := by
  cases r
  simp_all [rescue]

theorem marks_rescue_error (h : r.ending = .error p) (recover : Panic → Marked μ α) :
    (r.rescue recover).marks = r.marks ++ (recover p).marks := by
  simp [rescue, h, marks]

theorem limit_of_none (h : Step.cut? left r.steps = none) : limit left r expired = r := by
  simp [limit, h]

theorem marks_limit_of_some (h : Step.cut? left r.steps = some kept) :
    (limit left r expired).marks = kept.filterMap Step.mark? ++ expired.marks := by
  simp [limit, h, marks]

end Exits

@[simp] theorem unmark_pure (a : α) : (pure a : Marked μ α).unmark = pure a := rfl

@[simp] theorem unmark_ofRun (r : Run α) : (ofRun r : Marked μ α).unmark = r := by
  have same : (Step.unmark? ∘ (Step.ofPlain : Step Empty → Step μ)) = some :=
    funext Step.unmark?_ofPlain
  rw [unmark, ofRun, List.filterMap_map, same, List.filterMap_some]

@[simp] theorem ofRun_plain (r : Run α) : (ofRun r : Run α) = r := by
  have same : (Step.ofPlain : Step Empty → Step Empty) = id := by
    funext step
    cases step with
    | mark m => exact m.elim
    | _ => rfl
  cases r
  simp [ofRun, same]

theorem unmark_bind (r : Marked μ α) (f : α → Marked μ β) :
    (r >>= f).unmark = r.unmark >>= fun a => (f a).unmark := by
  cases h : r.ending with
  | ok a => rw [bind_ok h, bind_ok (r := r.unmark) h]; simp [unmark]
  | error p => rw [bind_error h, bind_error (r := r.unmark) h]; simp [unmark]

theorem unmark_within (s : Span) (r : Marked μ α) : (r.within s).unmark = r.unmark.within s := by
  simp only [unmark, within, List.filterMap_map, List.map_filterMap, Function.comp_def,
    Step.unmark?_inside]

theorem unmark_rescue (r : Marked μ α) (recover : Panic → Marked μ α) :
    (r.rescue recover).unmark = r.unmark.rescue fun p => (recover p).unmark := by
  cases h : r.ending <;> simp [rescue, unmark, h]

theorem unmark_limit (left : Nat) (r expired : Marked μ α) :
    (limit left r expired).unmark = limit left r.unmark expired.unmark := by
  cases h : Step.cut? left r.steps <;> simp [limit, unmark, Step.cut?_unmark, h]

end Marked

namespace Run

variable {μ α : Type}

/-- Log an event outside of all spans. -/
def log (e : Entry) : Marked μ Unit := ⟨[.log ⟨[], e⟩], .ok ()⟩

def notice (n : Notice) : Marked μ Unit := log (.notice n)

/-- Let time pass. -/
def sleep (duration : Nat) : Marked μ Unit := ⟨[.sleep duration], .ok ()⟩

/-- Give other work a turn. -/
def yield : Marked μ Unit := ⟨[.yield], .ok ()⟩

/-- End abruptly. -/
def raise (p : Panic) : Marked μ α := ⟨[], .error p⟩

@[simp] theorem unmark_notice (n : Notice) : (notice n : Marked μ Unit).unmark = notice n := rfl

/-- Reports, one after the other and outside of all spans. -/
def reports (ns : List Notice) : List (Step μ) := ns.map fun n => .log ⟨[], .notice n⟩

theorem reports_append (ns ms : List Notice) :
    (reports (ns ++ ms) : List (Step μ)) = reports ns ++ reports ms := List.map_append

@[simp] theorem marks_reports (ns : List Notice) :
    (reports ns : List (Step μ)).filterMap Step.mark? = [] := by
  simp [reports, List.filterMap_map, Function.comp_def, Step.mark?]

@[simp] theorem unmark_reports (ns : List Notice) :
    (reports ns : List (Step μ)).filterMap Step.unmark? = reports ns := by
  simp [reports, List.filterMap_map, Function.comp_def, Step.unmark?]

theorem forM_notice (ns : List Notice) :
    (ns.forM notice : Marked μ Unit) = ⟨reports ns, .ok ()⟩ := by
  induction ns with
  | nil => rfl
  | cons n rest ih =>
    change (notice n >>= fun _ => rest.forM notice : Marked μ Unit) = _
    rw [ih, Marked.bind_ok rfl]
    rfl

end Run

end RequestFlow
