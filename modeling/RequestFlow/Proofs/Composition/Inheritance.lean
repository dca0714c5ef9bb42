import Mathlib.Data.List.Induction
import RequestFlow.Proofs.Composition.NoBypass

/-!
# What a controller is composed of

A controller is written down as a row of calls (`Controller.Call`). Most of them append to its
lists, but to inherit from a parent puts the lists of the parent in front. `Controller.Composes` is
the form that all controllers have in the end: the lists of the parents, the one that is inherited
last at the front, and behind them what the controller declares itself, in the order in which it is
written.

Parents are composed in the same way. Unfolded to the end, the lists of a controller are the
declarations of its whole lineage (`Controller.History.ancestors`), the controller itself last.
-/

namespace RequestFlow

theorem filterMap_append_singleton {α β : Type} (f : α → Option β) (l : List α) (a : α) :
    (l ++ [a]).filterMap f = l.filterMap f ++ (f a).toList := by
  cases found : f a <;> simp [found]

/-- The hooks of a concern in the order in which they are written. -/
def Concern.History.written : Concern.History → List Contribution
  | .new _ => []
  | .before h g => h.written ++ [.guard g]
  | .surround h l => h.written ++ [.layer l]

namespace Controller

inductive Call where
  | inherit (parent : History)
  | addConcern (concern : Concern.History)
  | before (g : GuardEntry)
  | surround (l : LayerEntry)
  | skip (id : HookId)
  | action (name : String) (a : Action)

namespace Call

def parent? : Call → Option History
  | .inherit parent => some parent
  | _ => none

/-- What a call declares by itself. -/
def own : Call → List Contribution
  | .addConcern concern => concern.written
  | .before g => [.guard g]
  | .surround l => [.layer l]
  | .skip id => [.skip id]
  | _ => []

def included? : Call → Option String
  | .addConcern concern => some concern.build.name
  | _ => none

def action? : Call → Option (String × Action)
  | .action name a => some (name, a)
  | _ => none

end Call

namespace History

/-- A history with one more call. -/
def call (h : History) : Call → History
  | .inherit parent => .inherit h parent
  | .addConcern concern => .addConcern h concern
  | .before g => .before h g
  | .surround l => .surround h l
  | .skip id => .skip h id
  | .action name a => .action h name a

/-- A row of calls on a new controller. -/
def ofCalls (name : String) (calls : List Call) : History := calls.foldl call (.new name)

def calls : History → List Call
  | .new _ => []
  | .inherit h parent => h.calls ++ [.inherit parent]
  | .addConcern h concern => h.calls ++ [.addConcern concern]
  | .before h g => h.calls ++ [.before g]
  | .surround h l => h.calls ++ [.surround l]
  | .skip h id => h.calls ++ [.skip id]
  | .action h name a => h.calls ++ [.action name a]

/-- All controllers from which a controller inherits, directly or through others, each one behind
its own ancestors, and those of the parent that is inherited last at the front. -/
def ancestors : History → List History
  | .new _ => []
  | .inherit h parent => parent.ancestors ++ parent :: h.ancestors
  | .addConcern h _ => h.ancestors
  | .before h _ => h.ancestors
  | .surround h _ => h.ancestors
  | .skip h _ => h.ancestors
  | .action h _ _ => h.ancestors

/-- The ancestors of a controller and the controller itself. -/
def lineage (h : History) : List History := h.ancestors ++ [h]

theorem ofCalls_append_singleton (name : String) (calls : List Call) (call : Call) :
    ofCalls name (calls ++ [call]) = (ofCalls name calls).call call :=
  List.foldl_concat _ _ _ _

theorem calls_call (h : History) (call : Call) : (h.call call).calls = h.calls ++ [call] := by
  cases call <;> rfl

theorem calls_ofCalls (name : String) (calls : List Call) :
    (ofCalls name calls).calls = calls := by
  induction calls using List.reverseRecOn with
  | nil => rfl
  | append_singleton calls call ih => rw [ofCalls_append_singleton, calls_call, ih]

theorem ofCalls_calls_call {h : History} (made : ofCalls h.name h.calls = h) (call : Call) :
    ofCalls h.name (h.calls ++ [call]) = h.call call := by
  rw [ofCalls_append_singleton, made]

/-- Every history is a row of calls on a new controller. -/
theorem ofCalls_calls (h : History) : ofCalls h.name h.calls = h := by
  induction h with
  | new name => rfl
  | inherit h parent ih _ => exact ofCalls_calls_call ih (.inherit parent)
  | addConcern h concern ih => exact ofCalls_calls_call ih (.addConcern concern)
  | before h g ih => exact ofCalls_calls_call ih (.before g)
  | surround h l ih => exact ofCalls_calls_call ih (.surround l)
  | skip h id ih => exact ofCalls_calls_call ih (.skip id)
  | action h name a ih => exact ofCalls_calls_call ih (.action name a)

end History

/-- The lists of a controller are those of some parents in a row, and behind them what some
contributions and the names of some concerns say. -/
structure Composes (c : Controller) (parents : List Controller) (own : List Contribution)
    (included : List String) : Prop where
  guards : c.guards = parents.flatMap guards ++ Contribution.guards own
  layers : c.layers = parents.flatMap layers ++ Contribution.layers own
  skips : c.skips = parents.flatMap skips ++ Contribution.skips own
  includes : c.includes = parents.flatMap includes ++ included

end Controller

/-! ### What is written in a concern -/

namespace Concern.History

variable (h : Concern.History)

theorem guards_build : h.build.guards = Contribution.guards h.written := by
  induction h with
  | new name => rfl
  | before h g ih =>
      rw [written, Contribution.guards_append, ← ih]
      rfl
  | surround h l ih =>
      rw [written, Contribution.guards_append, ← ih]
      exact (List.append_nil _).symm

theorem layers_build : h.build.layers = Contribution.layers h.written := by
  induction h with
  | new name => rfl
  | before h g ih =>
      rw [written, Contribution.layers_append, ← ih]
      exact (List.append_nil _).symm
  | surround h l ih =>
      rw [written, Contribution.layers_append, ← ih]
      rfl

theorem skips_written : Contribution.skips h.written = [] := by
  induction h with
  | new name => rfl
  | before h g ih =>
      rw [written, Contribution.skips_append, ih]
      rfl
  | surround h l ih =>
      rw [written, Contribution.skips_append, ih]
      rfl

/-- The hooks of a concern that is built are those that are written in it. -/
theorem views_given :
    Contribution.guards h.written = Contribution.guards h.build.given ∧
      Contribution.layers h.written = Contribution.layers h.build.given ∧
      Contribution.skips h.written = Contribution.skips h.build.given := by
  rw [← h.guards_build, ← h.layers_build, h.skips_written]
  simp [given, Contribution.guards, Contribution.layers, Contribution.skips, List.filterMap_map]

end Concern.History

namespace Controller

/-! ### One call -/

namespace Composes

variable {c c' : Controller} {parents : List Controller} {own cs : List Contribution}
variable {included names : List String}

/-- To inherit puts one more parent in front. -/
theorem inherit (lists : c.Composes parents own included) (parent : Controller) :
    (c.inherit parent).Composes (parent :: parents) own included where
  guards := by simp [Controller.inherit, lists.guards]
  layers := by simp [Controller.inherit, lists.layers]
  skips := by simp [Controller.inherit, lists.skips]
  includes := by simp [Controller.inherit, lists.includes]

/-- Only the views of the contributions count. -/
theorem own_congr (lists : c.Composes parents own included)
    (guards : Contribution.guards own = Contribution.guards cs)
    (layers : Contribution.layers own = Contribution.layers cs)
    (skips : Contribution.skips own = Contribution.skips cs) : c.Composes parents cs included :=
  ⟨guards ▸ lists.guards, layers ▸ lists.layers, skips ▸ lists.skips, lists.includes⟩

/-- A parent that is unfolded itself leaves nothing to unfold. -/
theorem inherit_unfolded {parent : Controller} (lists : c.Composes [] own included)
    (inherited : parent.Composes [] cs names) :
    (c.inherit parent).Composes [] (cs ++ own) (names ++ included) where
  guards := by simp [Controller.inherit, lists.guards, inherited.guards]
  layers := by simp [Controller.inherit, lists.layers, inherited.layers]
  skips := by simp [Controller.inherit, lists.skips, inherited.skips]
  includes := by simp [Controller.inherit, lists.includes, inherited.includes]

/-- What is appended to the lists of a controller comes behind its own contributions. -/
theorem append (lists : c.Composes parents own included)
    (guards : c'.guards = c.guards ++ Contribution.guards cs)
    (layers : c'.layers = c.layers ++ Contribution.layers cs)
    (skips : c'.skips = c.skips ++ Contribution.skips cs)
    (includes : c'.includes = c.includes ++ names) :
    c'.Composes parents (own ++ cs) (included ++ names) where
  guards := by rw [guards, lists.guards, Contribution.guards_append, List.append_assoc]
  layers := by rw [layers, lists.layers, Contribution.layers_append, List.append_assoc]
  skips := by rw [skips, lists.skips, Contribution.skips_append, List.append_assoc]
  includes := by rw [includes, lists.includes, List.append_assoc]

/-- A call puts its parent in front of the parents, and what it declares itself behind
everything. -/
theorem call {h : History} (lists : h.build.Composes parents own included) (call : Call) :
    (h.call call).build.Composes ((call.parent?.map History.build).toList ++ parents)
      (own ++ call.own) (included ++ call.included?.toList) := by
  have kept {α : Type} (l : List α) : l = l ++ [] := (List.append_nil l).symm
  cases call with
  | inherit parent =>
      have inherited : (h.call (.inherit parent)).build.Composes (parent.build :: parents) own
          included := lists.inherit parent.build
      simpa [Call.own, Call.included?, Call.parent?] using inherited
  | addConcern concern =>
      refine lists.append ?_ ?_ ?_ rfl
      · exact congrArg (h.build.guards ++ ·) concern.guards_build
      · exact congrArg (h.build.layers ++ ·) concern.layers_build
      · rw [Call.own, concern.skips_written]
        exact kept _
  | before g => exact lists.append rfl (kept _) (kept _) (kept _)
  | surround l => exact lists.append (kept _) rfl (kept _) (kept _)
  | skip id => exact lists.append (kept _) (kept _) rfl (kept _)
  | action name a => exact lists.append (kept _) (kept _) (kept _) (kept _)

end Composes

/-! ### A row of calls -/

namespace History

variable (name : String) (calls : List Call)

/-- A row of calls has its parents in front, the last one first, and everything else in order. -/
theorem composes_ofCalls :
    (ofCalls name calls).build.Composes ((calls.filterMap Call.parent?).reverse.map build)
      (calls.flatMap Call.own) (calls.filterMap Call.included?) := by
  induction calls using List.reverseRecOn with
  | nil => exact ⟨rfl, rfl, rfl, rfl⟩
  | append_singleton calls call ih =>
      have parents : ((calls ++ [call]).filterMap Call.parent?).reverse.map build =
          (call.parent?.map build).toList ++ (calls.filterMap Call.parent?).reverse.map build := by
        rw [filterMap_append_singleton, List.reverse_append, List.map_append]
        cases call.parent? <;> rfl
      rw [ofCalls_append_singleton, parents, filterMap_append_singleton, List.flatMap_append,
        List.flatMap_singleton]
      exact ih.call call

theorem name_ofCalls : (ofCalls name calls).name = name := by
  induction calls using List.reverseRecOn with
  | nil => rfl
  | append_singleton calls call ih =>
      rw [ofCalls_append_singleton]
      cases call <;> exact ih

theorem actions_ofCalls : (ofCalls name calls).build.actions = calls.filterMap Call.action? := by
  induction calls using List.reverseRecOn with
  | nil => rfl
  | append_singleton calls call ih =>
      rw [ofCalls_append_singleton, List.filterMap_append, ← ih]
      cases call with
      | action name a => rfl
      | _ => exact (List.append_nil _).symm

end History

/-- Two controllers with the same name, actions and parts are the same. -/
theorem Composes.eq {c c' : Controller} {parents : List Controller} {own : List Contribution}
    {included : List String} (lists : c.Composes parents own included)
    (lists' : c'.Composes parents own included) (name : c.name = c'.name)
    (actions : c.actions = c'.actions) : c = c' := by
  obtain ⟨guards, layers, skips, includes⟩ := lists
  obtain ⟨guards', layers', skips', includes'⟩ := lists'
  cases c
  cases c'
  simp_all

namespace History

/-- Rows of calls with the same parents and the same declarations build the same controller, however
the calls for the parents stand among the others. -/
theorem build_ofCalls_congr (name : String) {calls calls' : List Call}
    (parents : calls.filterMap Call.parent? = calls'.filterMap Call.parent?)
    (own : calls.flatMap Call.own = calls'.flatMap Call.own)
    (included : calls.filterMap Call.included? = calls'.filterMap Call.included?)
    (actions : calls.filterMap Call.action? = calls'.filterMap Call.action?) :
    (ofCalls name calls).build = (ofCalls name calls').build := by
  have lists := composes_ofCalls name calls
  rw [parents, own, included] at lists
  refine lists.eq (composes_ofCalls name calls') ?_ ?_
  · rw [name_build, name_build, name_ofCalls, name_ofCalls]
  · rw [actions_ofCalls, actions_ofCalls, actions]

/-- The only call for a parent may stand anywhere among the others. -/
theorem build_inherit_anywhere (name : String) {front back front' back' : List Call}
    (parent : History) (sole : ∀ call ∈ front ++ back, call.parent? = none)
    (same : front' ++ back' = front ++ back) :
    (ofCalls name (front' ++ .inherit parent :: back')).build =
      (ofCalls name (front ++ .inherit parent :: back)).build := by
  have alone {front back : List Call} (sole : ∀ call ∈ front ++ back, call.parent? = none) :
      (front ++ .inherit parent :: back).filterMap Call.parent? = [parent] := by
    have others := List.filterMap_eq_nil_iff.2 sole
    rw [List.filterMap_append, List.append_eq_nil_iff] at others
    simp [others.1, others.2, Call.parent?]
  have others {β : Type} {view : Call → Option β} (silent : view (.inherit parent) = none) :
      (front' ++ .inherit parent :: back').filterMap view =
        (front ++ .inherit parent :: back).filterMap view := by
    simpa [silent] using congrArg (List.filterMap view) same
  refine build_ofCalls_congr name ?_ ?_ (others rfl) (others rfl)
  · rw [alone sole, alone (same ▸ sole)]
  · simpa [Call.own] using congrArg (List.flatMap Call.own) same

/-! ### The whole lineage -/

/-- What a controller declares itself. -/
def written (h : History) : List Contribution := h.calls.flatMap Call.own

/-- The names of the concerns that a controller includes itself. -/
def concerns (h : History) : List String := h.calls.filterMap Call.included?

/-- A controller is composed of what is written in its lineage. -/
def Unfolds (h : History) : Prop :=
  h.build.Composes [] (h.lineage.flatMap written) (h.lineage.flatMap concerns)

variable {h : History}

/-- A call that inherits from nobody adds to the last controller of the lineage, which is the one
itself. -/
theorem Unfolds.call (unfolds : h.Unfolds) (call : Call) (own : call.parent? = none) :
    (h.call call).Unfolds := by
  have ancestors : (h.call call).ancestors = h.ancestors := by
    cases call with
    | inherit parent => cases own
    | _ => rfl
  have included : (h.call call).concerns = h.concerns ++ call.included?.toList := by
    rw [concerns, calls_call, filterMap_append_singleton, concerns]
  have step := Composes.call unfolds call
  rw [Unfolds, lineage, ancestors]
  simpa [lineage, written, calls_call, included, own] using step

/-- To inherit puts the lineage of the parent in front. -/
theorem Unfolds.inherit {parent : History} (unfolds : h.Unfolds) (inherited : parent.Unfolds) :
    (History.inherit h parent).Unfolds := by
  have own : (History.inherit h parent).written = h.written := by
    simp [written, calls, Call.own]
  have included : (History.inherit h parent).concerns = h.concerns := by
    simp [concerns, calls, Call.included?]
  have behind : (History.inherit h parent).build.Composes [] _ _ :=
    Composes.inherit_unfolded unfolds inherited
  rw [Unfolds, lineage, ancestors]
  simpa [lineage, own, included] using behind

/-- Every controller is composed of what is written in its lineage, and of nothing else. -/
theorem unfolds (h : History) : h.Unfolds := by
  induction h with
  | new name => exact ⟨rfl, rfl, rfl, rfl⟩
  | inherit h parent ih inherited => exact ih.inherit inherited
  | addConcern h concern ih => exact ih.call (.addConcern concern) rfl
  | before h g ih => exact ih.call (.before g) rfl
  | surround h l ih => exact ih.call (.surround l) rfl
  | skip h id ih => exact ih.call (.skip id) rfl
  | action h name a ih => exact ih.call (.action name a) rfl

/-- A concern adds its hooks and its name once, at the place where it is included. -/
theorem composes_at_include (name : String) (front back : List Call) (concern : Concern.History) :
    (ofCalls name (front ++ .addConcern concern :: back)).build.Composes
      (((front ++ .addConcern concern :: back).filterMap Call.parent?).reverse.map build)
      (front.flatMap Call.own ++ concern.build.given ++ back.flatMap Call.own)
      (front.filterMap Call.included? ++ concern.build.name :: back.filterMap Call.included?) := by
  obtain ⟨guards, layers, skips⟩ := concern.views_given
  have lists := composes_ofCalls name (front ++ .addConcern concern :: back)
  have included : (front ++ .addConcern concern :: back).filterMap Call.included? =
      front.filterMap Call.included? ++ concern.build.name :: back.filterMap Call.included? :=
    List.filterMap_append
  rw [included, List.flatMap_append, List.flatMap_cons, Call.own] at lists
  refine lists.own_congr ?_ ?_ ?_
  · simp only [Contribution.guards_append, guards, List.append_assoc]
  · simp only [Contribution.layers_append, layers, List.append_assoc]
  · simp only [Contribution.skips_append, skips, List.append_assoc]

end History
end Controller

/-- The composition of controllers in closed form. A row of calls on a new controller leaves in its
four lists those of the parents that it inherits from, the one of the last call first, and behind
them its own guards, layers, skips and names of concerns as they are written; its actions are its
own. Unfolded to the end, the lists are what is written in the lineage of the controller, each
ancestor of which is a row of calls itself. A concern adds its hooks and its name at the place of
each call that includes it, and the only call for a parent means the same at any place. -/
theorem composition_in_closed_form (name : String) (calls : List Controller.Call) :
    let h := Controller.History.ofCalls name calls
    let parents := (calls.filterMap Controller.Call.parent?).reverse.map Controller.History.build
    h.build.name = name ∧
    h.build.actions = calls.filterMap Controller.Call.action? ∧
    h.build.Composes parents (calls.flatMap Controller.Call.own)
      (calls.filterMap Controller.Call.included?) ∧
    h.build.Composes [] (h.lineage.flatMap Controller.History.written)
      (h.lineage.flatMap Controller.History.concerns) ∧
    (h.calls = calls ∧ ∀ p ∈ h.ancestors, Controller.History.ofCalls p.name p.calls = p) ∧
    (∀ front concern back, calls = front ++ .addConcern concern :: back →
      h.build.Composes parents
        (front.flatMap Controller.Call.own ++ concern.build.given ++
          back.flatMap Controller.Call.own)
        (front.filterMap Controller.Call.included? ++ concern.build.name ::
          back.filterMap Controller.Call.included?)) ∧
    ∀ front parent back, calls = front ++ .inherit parent :: back →
      (∀ call ∈ front ++ back, call.parent? = none) →
      ∀ front' back', front' ++ back' = front ++ back →
        (Controller.History.ofCalls name (front' ++ .inherit parent :: back')).build = h.build := by
  intro h parents
  refine ⟨?_, Controller.History.actions_ofCalls name calls,
    Controller.History.composes_ofCalls name calls, h.unfolds,
    ⟨Controller.History.calls_ofCalls name calls, fun p _ => p.ofCalls_calls⟩, ?_, ?_⟩
  · rw [Controller.History.name_build, Controller.History.name_ofCalls]
  · rintro front concern back rfl
    exact Controller.History.composes_at_include name front back concern
  · rintro front parent back rfl sole front' back' same
    exact Controller.History.build_inherit_anywhere name parent sole same

/-- A controller with two parents, one of which inherits from the other, and a concern that all of
them include. -/
theorem composition_in_closed_form_of_two_parents :
    let guard (name : String) : GuardEntry := ⟨.ofName name, fun c => pure (c, .proceed)⟩
    let auth : Concern.History := .before (.new "Auth") (guard "auth")
    let base : Controller.History := .addConcern (.new "base") auth
    let audited : Controller.History := .before (.inherit (.new "audited") base) (guard "audit")
    let calls : List Controller.Call :=
      [.before (guard "own"), .inherit base, .addConcern auth, .inherit audited,
        .skip (.ofName "audit"), .addConcern auth, .action "index" (.of fun _ => pure "done")]
    let c := (Controller.History.ofCalls "admin" calls).build
    c.guards.map (fun g => g.id.name) = ["auth", "audit", "auth", "own", "auth", "auth"] ∧
      c.includes = ["Auth", "Auth", "Auth", "Auth"] ∧
      c.skips.map HookId.name = ["audit"] ∧
      c.actions.map Prod.fst = ["index"] ∧
      (Controller.History.ofCalls "pages" [.before (guard "page"), .inherit audited]).build =
        (Controller.History.ofCalls "pages" [.inherit audited, .before (guard "page")]).build := by
  intro guard auth base audited calls c
  obtain ⟨_, actions, lists, unfolded, _⟩ := composition_in_closed_form "admin" calls
  have moves := (composition_in_closed_form "pages"
    [.inherit audited, .before (guard "page")]).2.2.2.2.2.2 [] audited [.before (guard "page")] rfl
  refine ⟨?_, ?_, ?_, ?_, ?_⟩
  · rw [unfolded.guards]
    rfl
  · rw [lists.includes]
    rfl
  · rw [lists.skips]
    rfl
  · rw [actions]
    rfl
  · refine moves (fun call mem => ?_) [.before (guard "page")] [] rfl
    obtain rfl := List.mem_singleton.1 mem
    rfl

end RequestFlow
