import RequestFlow.Proofs.Composition.Resolution

/-!
# What mounting a controller gives to its actions

Mounting adds the hooks of a controller to the handler of an action once for every declaration of
that action. Here a registry is looked at to which one mounted controller has contributed and
nothing else, and the hook lists of its handlers are compared with those of the controller. They
agree if the action is declared once. An action that is declared again is replaced, as it is under
the name of a handler, but the hooks of the controller are then there once more.
-/

namespace RequestFlow

section Repetition

variable {α : Type} {n : Nat} {l : List α}

theorem mem_flatten_replicate {a : α} :
    a ∈ (List.replicate n l).flatten ↔ n ≠ 0 ∧ a ∈ l := by
  rw [List.mem_flatten]
  constructor
  · rintro ⟨l', mem', mem⟩
    obtain ⟨repeated, rfl⟩ := List.mem_replicate.1 mem'
    exact ⟨repeated, mem⟩
  · rintro ⟨repeated, mem⟩
    exact ⟨l, List.mem_replicate.2 ⟨repeated, rfl⟩, mem⟩

/-- Repeating a list changes it, unless it is empty. -/
theorem flatten_replicate_eq_self_iff : (List.replicate n l).flatten = l ↔ n = 1 ∨ l = [] := by
  constructor
  · intro same
    have lengths : n * l.length = l.length := by simpa using congrArg List.length same
    rcases Nat.eq_zero_or_pos l.length with empty | filled
    · exact .inr (List.length_eq_zero_iff.1 empty)
    · exact .inl (Nat.eq_of_mul_eq_mul_right filled (by omega))
  · rintro (rfl | rfl)
    · simp
    · simp

end Repetition

namespace Controller

variable (c : Controller) (name : String) (as : List Action)

/-- The actions that a controller declares under a name, in order. -/
def declared : List Action := (c.actions.filter fun a => a.1 = name).map Prod.snd

def keptGuards : List GuardEntry := c.guards.filter fun g => !c.skips.any fun s => s.same g.id

theorem declared_ne_nil_iff : c.declared name ≠ [] ↔ name ∈ c.actions.map Prod.fst := by
  simp [declared]

/-- Actions that share hooks are given them once each. -/
theorem filterMap_contributions {β : Type} {view : Contribution → Option β} {shared : List β}
    (each : ∀ a, (c.contributions a).filterMap view = shared) :
    (as.flatMap c.contributions).filterMap view = (List.replicate as.length shared).flatten := by
  rw [List.filterMap_flatMap, List.flatMap_def, ← List.map_const']
  exact congrArg (fun f => (as.map f).flatten) (funext each)

theorem guards_declared :
    Contribution.guards (as.flatMap c.contributions) =
      (List.replicate as.length c.guards).flatten :=
  c.filterMap_contributions as c.guards_contributions

theorem layers_declared :
    Contribution.layers (as.flatMap c.contributions) =
      (List.replicate as.length c.layers).flatten :=
  c.filterMap_contributions as c.layers_contributions

theorem skips_declared :
    Contribution.skips (as.flatMap c.contributions) =
      (List.replicate as.length c.skips).flatten :=
  c.filterMap_contributions as c.skips_contributions

theorem actions_declared : Contribution.actions (as.flatMap c.contributions) = as := by
  rw [Contribution.actions, List.filterMap_flatMap]
  calc as.flatMap (fun a => Contribution.actions (c.contributions a))
      = as.flatMap fun a => [a] :=
        congrArg (as.flatMap ·) (funext c.actions_contributions)
    _ = as := by simp

/-- A skip is in force whether it is given once or more often. -/
theorem keptGuards_declared {as : List Action} (acts : as ≠ []) :
    Contribution.keptGuards (as.flatMap c.contributions) =
      (List.replicate as.length c.keptGuards).flatten := by
  have filled : as.length ≠ 0 := fun empty => acts (List.length_eq_zero_iff.1 empty)
  have skipped (g : GuardEntry) :
      ((List.replicate as.length c.skips).flatten.any fun s => s.same g.id) =
        c.skips.any fun s => s.same g.id := by
    rw [Bool.eq_iff_iff, List.any_eq_true, List.any_eq_true]
    simp only [mem_flatten_replicate, filled, ne_eq, not_false_eq_true, true_and]
  rw [Contribution.keptGuards, guards_declared, skips_declared, List.filter_flatten,
    List.map_replicate]
  simp only [skipped]
  rfl

end Controller

namespace Registry

theorem built_of_isOk {r : Registry} (resolves : r.build.isOk = true) :
    ∃ hs, r.build = .ok hs := by
  cases built : r.build with
  | ok hs => exact ⟨hs, rfl⟩
  | error e => simp [built, Except.isOk, Except.toBool] at resolves

theorem actionName_inj {controller a b : String} :
    actionName controller a = actionName controller b ↔ a = b := by
  simp [actionName]

/-- A mounted controller contributes to the handler of an action what the declarations of that
action contribute, and nothing for the other actions. -/
theorem contributions_mount (c : Controller.History) (name : String) :
    contributions [.mount c] (actionName c.build.name name) =
      (c.build.declared name).flatMap c.build.contributions := by
  simp only [contributions, contributedTo, Operation.groups, List.flatMap_cons, List.flatMap_nil,
    List.append_nil, List.flatMap_map, actionName_inj, Controller.declared]
  induction c.build.actions with
  | nil => rfl
  | cons a rest ih =>
      rw [List.flatMap_cons, ih, List.filter_cons]
      by_cases own : a.1 = name
      · simp [own]
      · simp [own]

/-- The handler of an action that a mounted controller declares. -/
theorem handler_of_mount (c : Controller.History) {hs : Handlers}
    (built : (after [.mount c]).build = .ok hs) {name : String}
    (declared : name ∈ c.build.actions.map Prod.fst) :
    let times := (c.build.declared name).length
    ∃ h, hs.get? (actionName c.build.name name) = some h ∧
      h.guards = (List.replicate times c.build.keptGuards).flatten ∧
      h.layers = (List.replicate times c.build.layers).flatten ∧
      (c.build.declared name).getLast? = some h.action := by
  intro times
  have acts : c.build.declared name ≠ [] := (c.build.declared_ne_nil_iff name).2 declared
  have set := c.build.actions_declared (c.build.declared name)
  have touched : contributions [.mount c] (actionName c.build.name name) ≠ [] := by
    intro untouched
    rw [← contributions_mount, untouched] at set
    exact acts set.symm
  obtain ⟨h, held⟩ := exists_of_touched built touched
  have yields := yields_of_build built held
  rw [contributions_mount] at yields
  refine ⟨h, held, ?_, ?_, ?_⟩
  · exact yields.guards.trans (c.build.keptGuards_declared acts)
  · exact yields.layers.trans (c.build.layers_declared _)
  · have action := yields.action
    rwa [set] at action

end Registry

/-- Mounting a controller alone, whatever calls have built it. The handler of a declared action has
the guards of the controller that are not skipped, in order, and then all of them again for every
further declaration of the action; so it is with the layers. The last declaration sets the action.
The lists are exactly those of the controller if the action is declared once, and otherwise only if
they are empty. -/
theorem mount_adds_up (c : Controller.History) {hs : Handlers}
    (built : (Registry.after [.mount c]).build = .ok hs) {name : String}
    (declared : name ∈ c.build.actions.map Prod.fst) :
    let times := (c.build.declared name).length
    ∃ h, hs.get? (Registry.actionName c.build.name name) = some h ∧
      h.guards = (List.replicate times c.build.keptGuards).flatten ∧
      h.layers = (List.replicate times c.build.layers).flatten ∧
      (c.build.declared name).getLast? = some h.action ∧
      (h.guards = c.build.keptGuards ↔ times = 1 ∨ c.build.keptGuards = []) ∧
      (h.layers = c.build.layers ↔ times = 1 ∨ c.build.layers = []) := by
  intro times
  obtain ⟨h, held, guards, layers, action⟩ := Registry.handler_of_mount c built declared
  refine ⟨h, held, guards, layers, action, ?_, ?_⟩
  · rw [guards]
    exact flatten_replicate_eq_self_iff
  · rw [layers]
    exact flatten_replicate_eq_self_iff

/-- An action that is declared twice: the second declaration is in force, behind two rounds of the
controller's guards and layers. -/
theorem mount_adds_up_declared_twice :
    let count : GuardEntry := ⟨.ofName "count", fun c => pure (c, .proceed)⟩
    let trace : LayerEntry := ⟨.ofName "trace", .trace⟩
    let first : Action := ⟨fun handler _ => pure (.ok (.halted handler none))⟩
    let second : Action := ⟨fun _ _ => pure (.ok (.halted "second" none))⟩
    let pages : Controller.History :=
      .action (.action (.surround (.before (.new "pages") count) trace) "index" first)
        "index" second
    ∃ hs h, (Registry.after [.mount pages]).build = .ok hs ∧ hs.get? "pages#index" = some h ∧
      h.guards = [count, count] ∧ h.layers = [trace, trace] ∧ h.action = second := by
  intro count trace first second pages
  obtain ⟨hs, built⟩ := Registry.built_of_isOk (r := .after [.mount pages]) (by decide +kernel)
  have declared : "index" ∈ pages.build.actions.map Prod.fst := List.mem_cons_self
  obtain ⟨h, held, guards, layers, action, _⟩ := mount_adds_up pages built declared
  exact ⟨hs, h, built, held, guards, layers, (Option.some.inj action).symm⟩

/-- It is not so that every declared action has the hook lists of its controller. -/
theorem mount_not_once :
    ¬ ∀ (c : Controller.History) (hs : Handlers), (Registry.after [.mount c]).build = .ok hs →
      ∀ name ∈ c.build.actions.map Prod.fst, ∃ h,
        hs.get? (Registry.actionName c.build.name name) = some h ∧
        h.guards = c.build.keptGuards ∧ h.layers = c.build.layers ∧
        (c.build.declared name).getLast? = some h.action := by
  intro once
  let count : GuardEntry := ⟨.ofName "count", fun c => pure (c, .proceed)⟩
  let a : Action := ⟨fun handler _ => pure (.ok (.halted handler none))⟩
  let pages : Controller.History :=
    .action (.action (.before (.new "pages") count) "index" a) "index" a
  obtain ⟨hs, built⟩ := Registry.built_of_isOk (r := .after [.mount pages]) (by decide +kernel)
  have declared : "index" ∈ pages.build.actions.map Prod.fst := List.mem_cons_self
  obtain ⟨h, held, guards, _⟩ := once pages hs built "index" declared
  obtain ⟨h', held', guards', _⟩ := Registry.handler_of_mount pages built declared
  obtain rfl : h = h' := Option.some.inj (held.symm.trans held')
  have twice : [count, count] = [count] := guards'.symm.trans guards
  simp at twice

end RequestFlow
