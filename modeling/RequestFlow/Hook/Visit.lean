import RequestFlow.Hook.Guard
import RequestFlow.Hook.Layer

/-!
# Visits

A `Visit` says where a pipeline is: a guard is checked or has decided, a layer is entered, gets the
control back or is left, the action is called or is done. Visits are no part of what a request does.
A pipeline is one definition for all types of marks, and `Records μ` says which marks a visit
leaves: none in a plain `Run`, and itself in a run that is marked with visits.
-/

namespace RequestFlow

/-- A point that the control of a pipeline passes. -/
inductive Visit where
  /-- A guard is checked on a context. -/
  | check (g : GuardEntry) (c : Context)
  /-- A guard has decided. -/
  | decide (g : GuardEntry) (flow : Flow)
  /-- A layer is entered with a context. -/
  | enter (e : LayerEntry) (c : Context)
  /-- The chain inside a layer has come to its end, and the layer goes on. -/
  | resume (e : LayerEntry) (back : Layer.Return)
  /-- A layer has returned a result. -/
  | leave (e : LayerEntry) (result : Handled)
  /-- The action is called with a context. -/
  | call (c : Context)
  /-- The action has returned a result. -/
  | done (result : Handled)

/-- Which marks the visits of a pipeline leave. -/
class Records (μ : Type) where
  marksOf : Visit → List μ

/-- A plain run leaves no marks. -/
@[default_instance] instance : Records Empty := ⟨fun _ => []⟩

instance : Records Visit := ⟨fun v => [v]⟩

namespace Visit

variable {μ : Type} [Records μ]

/-- Leave the marks of a visit. -/
def record (v : Visit) : Marked μ Unit := ⟨(Records.marksOf v).map .mark, .ok ()⟩

@[simp] theorem ending_record (v : Visit) : (v.record : Marked μ Unit).ending = .ok () := rfl

@[simp] theorem marks_record (v : Visit) : (v.record : Marked Visit Unit).marks = [v] := rfl

@[simp] theorem events_record (v : Visit) : (v.record : Marked μ Unit).events = [] := by
  simp [record, Marked.events, List.filterMap_map, Function.comp_def, Step.event?]

@[simp] theorem unmark_record (v : Visit) : (v.record : Marked μ Unit).unmark = v.record := by
  simp [record, Marked.unmark, Records.marksOf, List.filterMap_map, Function.comp_def,
    Step.unmark?]

/-- A plain run does not notice that it is recorded. -/
@[simp] theorem record_plain (v : Visit) : (v.record : Run Unit) = pure () := rfl

variable {α : Type}

/-- A part of a pipeline between two records: the control arrives, and it departs with a value. -/
def enclose (arrive : Visit) (r : Marked μ α) (depart : α → Visit) : Marked μ α := do
  arrive.record
  let a ← r
  (depart a).record
  pure a

/-- The record that a part leaves when it departs; a part that panics is not seen to depart. -/
def departure (depart : α → Visit) : Except Panic α → List Visit
  | .ok a => [depart a]
  | .error _ => []

@[simp] theorem departure_ok (depart : α → Visit) (a : α) : departure depart (.ok a) = [depart a] :=
  rfl

@[simp] theorem departure_error (depart : α → Visit) (p : Panic) :
    departure depart (.error p) = [] := rfl

section Enclose

variable (arrive : Visit) (r : Marked μ α) (depart : α → Visit)

@[simp] theorem ending_enclose : (enclose arrive r depart).ending = r.ending := by
  rw [enclose, Marked.ending_bind_ok (ending_record arrive)]
  cases ends : r.ending with
  | error p => rw [Marked.ending_bind_error ends]
  | ok a =>
    rw [Marked.ending_bind_ok ends, Marked.ending_bind_ok (ending_record _)]
    rfl

@[simp] theorem events_enclose : (enclose arrive r depart).events = r.events := by
  rw [enclose, Marked.events_bind_ok (ending_record arrive), events_record, List.nil_append]
  cases ends : r.ending with
  | error p => rw [Marked.events_bind_error ends]
  | ok a =>
    rw [Marked.events_bind_ok ends, Marked.events_bind_ok (ending_record _)]
    simp

theorem marks_enclose (r : Marked Visit α) :
    (enclose arrive r depart).marks = arrive :: r.marks ++ departure depart r.ending := by
  rw [enclose, Marked.marks_bind_ok (ending_record arrive), marks_record]
  cases ends : r.ending with
  | error p =>
    rw [Marked.marks_bind_error ends]
    simp
  | ok a =>
    rw [Marked.marks_bind_ok ends, Marked.marks_bind_ok (ending_record _)]
    simp

theorem unmark_enclose :
    (enclose arrive r depart).unmark = enclose arrive r.unmark depart := by
  simp only [enclose, Marked.unmark_bind, Marked.unmark_pure, unmark_record]

@[simp] theorem enclose_plain (r : Run α) : enclose arrive r depart = r := by
  simp only [enclose, record_plain, Marked.pure_bind, Marked.bind_pure]

end Enclose

end Visit

end RequestFlow
