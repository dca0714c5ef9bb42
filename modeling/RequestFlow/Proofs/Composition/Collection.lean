import Mathlib.Data.List.Basic
import RequestFlow.Proofs.Composition.History

/-!
# What a registry collects

Every call on a registry adds groups of contributions to the drafts of some handlers, and a draft is
nothing but the list of its contributions, sorted by kind (`Contribution.draft`). So what is
collected for a handler can be read off the calls: `Registry.get?_after` says that it is the draft
of all contributions to that handler, in order, whatever stood between them.
-/

namespace RequestFlow

namespace Contribution

variable (cs cs' : List Contribution)

@[simp] theorem actions_append : actions (cs ++ cs') = actions cs ++ actions cs' :=
  List.filterMap_append

@[simp] theorem guards_append : guards (cs ++ cs') = guards cs ++ guards cs' :=
  List.filterMap_append

@[simp] theorem layers_append : layers (cs ++ cs') = layers cs ++ layers cs' :=
  List.filterMap_append

@[simp] theorem skips_append : skips (cs ++ cs') = skips cs ++ skips cs' :=
  List.filterMap_append

/-- The draft that consists of contributions. -/
def draft : Draft := ⟨guards cs, layers cs, skips cs, (actions cs).getLast?⟩

/-- The draft with contributions added to it. -/
def addTo (d : Draft) : Draft :=
  { guards := d.guards ++ guards cs
    layers := d.layers ++ layers cs
    skips := d.skips ++ skips cs
    action := (actions cs).getLast?.or d.action }

theorem addTo_draft : addTo cs' (draft cs) = draft (cs ++ cs') := by
  simp [addTo, draft, List.getLast?_append]

/-- The draft of a handler, which it has as soon as something is contributed to it. -/
def draft? : List Contribution → Option Draft
  | [] => none
  | c :: rest => some (draft (c :: rest))

theorem getD_draft? : (draft? cs).getD .empty = draft cs := by
  cases cs <;> rfl

theorem draft?_of_ne_nil {cs : List Contribution} (filled : cs ≠ []) :
    draft? cs = some (draft cs) := by
  cases cs with
  | nil => exact absurd rfl filled
  | cons c rest => rfl

theorem draft?_eq_some_iff {cs : List Contribution} {d : Draft} :
    draft? cs = some d ↔ cs ≠ [] ∧ draft cs = d := by
  cases cs <;> simp [draft?]

end Contribution

/-! What a controller contributes for an action, by kind. -/

namespace Controller

variable (c : Controller) (a : Action)

@[simp] theorem guards_contributions : Contribution.guards (c.contributions a) = c.guards := by
  simp [contributions, Contribution.guards, List.filterMap_map]

@[simp] theorem layers_contributions : Contribution.layers (c.contributions a) = c.layers := by
  simp [contributions, Contribution.layers, List.filterMap_map]

@[simp] theorem skips_contributions : Contribution.skips (c.contributions a) = c.skips := by
  simp [contributions, Contribution.skips, List.filterMap_map]

@[simp] theorem actions_contributions : Contribution.actions (c.contributions a) = [a] := by
  simp [contributions, Contribution.actions, List.filterMap_map]

end Controller

/-- Mounting a controller adds its contributions. -/
theorem Registry.addController_eq (c : Controller) (a : Action) :
    addController c a = Contribution.addTo (c.contributions a) := by
  funext d
  simp [addController, Contribution.addTo]

namespace Registry

/-- Add a group of contributions to what is collected. -/
def collect (r : Registry) (group : String × List Contribution) : Registry :=
  r.edit group.1 (Contribution.addTo group.2)

/-- What a call does is to collect its groups. -/
theorem Operation.apply_eq_collect (r : Registry) (o : Operation) :
    o.apply r = o.groups.foldl collect r := by
  cases o with
  | mount c =>
      rw [apply, groups, List.foldl_map, Registry.mount]
      refine congrArg (fun step => List.foldl step r c.build.actions) ?_
      funext r a
      rw [collect, addController_eq]
  | _ =>
      refine congrArg (r.edit _) (funext fun d => ?_)
      simp [Contribution.addTo, Contribution.guards, Contribution.layers, Contribution.skips,
        Contribution.actions]

theorem Operation.groups_filled (o : Operation) : ∀ group ∈ o.groups, group.2 ≠ [] := by
  cases o with
  | mount c =>
      intro group mem
      obtain ⟨a, _, rfl⟩ := List.mem_map.1 mem
      simp [Controller.contributions]
  | _ => simp [groups]

/-- A group changes the draft of its handler and no other. -/
theorem get?_collect {r : Registry} {handler : String} {cs : List Contribution}
    {group : String × List Contribution} (filled : group.2 ≠ [])
    (held : r.drafts.get? handler = Contribution.draft? cs) :
    (r.collect group).drafts.get? handler =
      Contribution.draft? (cs ++ contributedTo handler [group]) := by
  rw [collect, get?_edit]
  split
  next same =>
    have more : cs ++ group.2 ≠ [] := by simp [filled]
    rw [← same, held, Contribution.getD_draft?, Contribution.addTo_draft,
      ← Contribution.draft?_of_ne_nil more]
    simp [contributedTo, same]
  next other =>
    rw [held]
    simp [contributedTo, Ne.symm other]

theorem get?_foldl_collect {r : Registry} {handler : String} {cs : List Contribution}
    {groups : List (String × List Contribution)} (filled : ∀ group ∈ groups, group.2 ≠ [])
    (held : r.drafts.get? handler = Contribution.draft? cs) :
    (groups.foldl collect r).drafts.get? handler =
      Contribution.draft? (cs ++ contributedTo handler groups) := by
  induction groups generalizing r cs with
  | nil => simpa [contributedTo] using held
  | cons group rest ih =>
      obtain ⟨first, others⟩ := List.forall_mem_cons.1 filled
      rw [List.foldl_cons, ih others (get?_collect first held)]
      simp [contributedTo]

/-- What is collected for a handler are the contributions of all calls to it, in order. -/
theorem get?_after (ops : List Operation) (handler : String) :
    (after ops).drafts.get? handler = Contribution.draft? (contributions ops handler) := by
  have filled : ∀ group ∈ ops.flatMap Operation.groups, group.2 ≠ [] := by
    intro group mem
    obtain ⟨o, _, mem⟩ := List.mem_flatMap.1 mem
    exact o.groups_filled group mem
  have collected : after ops = (ops.flatMap Operation.groups).foldl collect ∅ := by
    rw [after, List.foldl_flatMap]
    exact congrArg (fun step => List.foldl step ∅ ops)
      (funext fun r => funext fun o => o.apply_eq_collect r)
  have nothing : (∅ : Registry).drafts.get? handler = Contribution.draft? [] := rfl
  rw [collected]
  exact get?_foldl_collect filled nothing

end Registry

end RequestFlow
