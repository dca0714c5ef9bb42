import Mathlib.Data.List.Perm.Basic
import RequestFlow.Proofs.Composition.Resolution
import RequestFlow.Proofs.Pipeline.Guards
import RequestFlow.Proofs.Pipeline.Nesting

/-!
# No guard is bypassed

A guard travels far before it is checked: from a concern to a controller, from a controller to those
that inherit from it, from there to a registry, and through the resolution of the skips to a
handler. `Controller.History.gives` and `Registry.gives` only count what was given on the way, in no
particular order and without the lists that the composition keeps. The theorem of this module closes
the circle: whenever a run of a resolved handler reaches a layer or the action, the guards that it
has checked before are a rearrangement of all that were given and are not skipped, and each of them
let the run go on.
-/

namespace RequestFlow

/-! ### What was given -/

def Concern.History.gives : Concern.History → List Contribution
  | .new _ => []
  | .before h g => .guard g :: h.gives
  | .surround h l => .layer l :: h.gives

namespace Controller.History

/-- Hooks and skips that a controller was given by its own calls, by the concerns that it includes
and by the controllers that it inherits from. -/
def gives : History → List Contribution
  | .new _ => []
  | .inherit h parent => h.gives ++ parent.gives
  | .addConcern h concern => h.gives ++ concern.gives
  | .before h g => .guard g :: h.gives
  | .surround h l => .layer l :: h.gives
  | .skip h id => .skip id :: h.gives
  | .action h _ _ => h.gives

def name : History → String
  | .new name => name
  | .inherit h _ => h.name
  | .addConcern h _ => h.name
  | .before h _ => h.name
  | .surround h _ => h.name
  | .skip h _ => h.name
  | .action h _ _ => h.name

/-- The actions that a controller declares itself. -/
def declares : History → List (String × Action)
  | .new _ => []
  | .inherit h _ => h.declares
  | .addConcern h _ => h.declares
  | .before h _ => h.declares
  | .surround h _ => h.declares
  | .skip h _ => h.declares
  | .action h name a => (name, a) :: h.declares

end Controller.History

namespace Registry

/-- What a call gives to one handler. -/
def Operation.gives (handler : String) : Operation → List Contribution
  | .action name a => if name = handler then [.action a] else []
  | .before name g => if name = handler then [.guard g] else []
  | .surround name l => if name = handler then [.layer l] else []
  | .skip name id => if name = handler then [.skip id] else []
  | .mount c => c.declares.flatMap fun a =>
      if actionName c.name a.1 = handler then .action a.2 :: c.gives else []

def gives (ops : List Operation) (handler : String) : List Contribution :=
  ops.flatMap (Operation.gives handler)

end Registry

/-! ### Nothing is lost on the way -/

/-! Every call moves entries and adds its own. Counting shows that it loses none. -/

namespace Concern

def given (c : Concern) : List Contribution := c.guards.map .guard ++ c.layers.map .layer

theorem given_before (c : Concern) (g : GuardEntry) :
    (c.before g).given.Perm (.guard g :: c.given) := by
  classical
  rw [List.perm_iff_count]
  intro x
  simp only [given, before, List.map_append, List.map_cons, List.map_nil, List.count_append,
    List.count_cons, List.count_nil]
  omega

theorem given_surround (c : Concern) (l : LayerEntry) :
    (c.surround l).given.Perm (.layer l :: c.given) := by
  classical
  rw [List.perm_iff_count]
  intro x
  simp only [given, surround, List.map_append, List.map_cons, List.map_nil, List.count_append,
    List.count_cons, List.count_nil]
  omega

theorem History.given_build (h : History) : h.build.given.Perm h.gives := by
  induction h with
  | new name => exact List.Perm.refl _
  | before h g ih => exact (h.build.given_before g).trans (ih.cons _)
  | surround h l ih => exact (h.build.given_surround l).trans (ih.cons _)

end Concern

namespace Controller

def given (c : Controller) : List Contribution :=
  c.guards.map .guard ++ c.layers.map .layer ++ c.skips.map .skip

theorem given_inherit (c parent : Controller) :
    (c.inherit parent).given.Perm (c.given ++ parent.given) := by
  classical
  rw [List.perm_iff_count]
  intro x
  simp only [given, inherit, List.map_append, List.count_append]
  omega

theorem given_addConcern (c : Controller) (concern : Concern) :
    (c.addConcern concern).given.Perm (c.given ++ concern.given) := by
  classical
  rw [List.perm_iff_count]
  intro x
  simp only [given, Concern.given, addConcern, List.map_append, List.count_append]
  omega

theorem given_before (c : Controller) (g : GuardEntry) :
    (c.before g).given.Perm (.guard g :: c.given) := by
  classical
  rw [List.perm_iff_count]
  intro x
  simp only [given, before, List.map_append, List.map_cons, List.map_nil, List.count_append,
    List.count_cons, List.count_nil]
  omega

theorem given_surround (c : Controller) (l : LayerEntry) :
    (c.surround l).given.Perm (.layer l :: c.given) := by
  classical
  rw [List.perm_iff_count]
  intro x
  simp only [given, surround, List.map_append, List.map_cons, List.map_nil, List.count_append,
    List.count_cons, List.count_nil]
  omega

theorem given_skip (c : Controller) (id : HookId) :
    (c.skip id).given.Perm (.skip id :: c.given) := by
  classical
  rw [List.perm_iff_count]
  intro x
  simp only [given, skip, List.map_append, List.map_cons, List.map_nil, List.count_append,
    List.count_cons, List.count_nil]
  omega

namespace History

/-- No entry is lost or added in a chain of calls, wherever the calls put it. -/
theorem given_build (h : History) : h.build.given.Perm h.gives := by
  induction h with
  | new name => exact List.Perm.refl _
  | inherit h parent own inherited =>
      exact (h.build.given_inherit parent.build).trans (own.append inherited)
  | addConcern h concern ih =>
      exact (h.build.given_addConcern concern.build).trans (ih.append concern.given_build)
  | before h g ih => exact (h.build.given_before g).trans (ih.cons _)
  | surround h l ih => exact (h.build.given_surround l).trans (ih.cons _)
  | skip h id ih => exact (h.build.given_skip id).trans (ih.cons _)
  | action h name a ih => exact ih

theorem name_build (h : History) : h.build.name = h.name := by
  induction h with
  | new name => rfl
  | _ => assumption

theorem actions_build (h : History) : h.build.actions.Perm h.declares := by
  induction h with
  | new name => exact List.Perm.refl _
  | action h name a ih => exact (List.perm_append_singleton _ _).trans (ih.cons _)
  | _ => assumption

end History

end Controller

namespace Registry

theorem Operation.groups_perm (o : Operation) (handler : String) :
    (contributedTo handler o.groups).Perm (o.gives handler) := by
  cases o with
  | mount c =>
      rw [contributedTo, groups, List.flatMap_map, gives]
      refine c.actions_build.flatMap fun a _ => ?_
      have named : actionName c.build.name a.1 = actionName c.name a.1 :=
        congrArg (actionName · a.1) c.name_build
      simp only [named]
      split
      · exact (List.perm_append_singleton _ _).trans (c.given_build.cons _)
      · exact List.Perm.refl _
  | _ => simp [contributedTo, groups, gives]

/-- What reaches a handler is what was given to it, in some order. -/
theorem contributions_perm (ops : List Operation) (handler : String) :
    (contributions ops handler).Perm (gives ops handler) := by
  induction ops with
  | nil => exact List.Perm.refl _
  | cons o rest ih =>
      have split : contributions (o :: rest) handler =
          contributedTo handler o.groups ++ contributions rest handler := by
        simp [contributions, contributedTo]
      rw [split]
      exact (o.groups_perm handler).append ih

end Registry

theorem Contribution.keptGuards_perm {cs cs' : List Contribution} (perm : cs.Perm cs') :
    (keptGuards cs).Perm (keptGuards cs') := by
  have skips_perm : (skips cs).Perm (skips cs') := perm.filterMap _
  have skipped : (fun g : GuardEntry => !(skips cs).any fun s => s.same g.id) =
      fun g => !(skips cs').any fun s => s.same g.id := by
    funext g
    rw [skips_perm.any_eq]
  rw [keptGuards, keptGuards, skipped]
  exact (perm.filterMap _).filter _

/-- The only way for a guard to be left out is a skip of its own identity. -/
theorem Contribution.kept_or_skipped {cs : List Contribution} {g : GuardEntry}
    (mem : g ∈ guards cs) : g ∈ keptGuards cs ∨ ∃ s ∈ skips cs, s.key = g.id.key := by
  by_cases kept : g ∈ keptGuards cs
  · exact .inl kept
  · right
    simpa [keptGuards, mem] using kept

/-! ### Where the action can be reached -/

namespace Handler

variable {h : Handler} {c : Context} {before after : List Visit} {v : Visit}
variable {β : Type} {view : Visit → Option β}

/-- In a run that a guard stops, no layer and no action is reached. -/
theorem thread_of_arrival (mem : v ∈ (h.handle c : Marked Visit Handled).marks)
    (arrives : v.arrival?.isSome) : ∃ c', Guard.thread h.guards c = some c' := by
  refine Option.ne_none_iff_exists'.1 fun stopped => ?_
  obtain ⟨i, g, reached, stop⟩ := Guard.thread_eq_none_iff.1 stopped
  have invoked := (handle_of_stopsAt stop).1
  obtain ⟨part, invokes, other⟩ :
      ∃ part, v.invokes? = some part ∧ ∀ g, part ≠ .guard g := by
    cases v with
    | enter e c => exact ⟨.layer e, rfl, fun g => nofun⟩
    | call c => exact ⟨.action, rfl, fun g => nofun⟩
    | _ => simp [Visit.arrival?] at arrives
  have shown := List.mem_filterMap.2 ⟨v, mem, invokes⟩
  rw [invoked] at shown
  obtain ⟨g, _, same⟩ := List.mem_map.1 shown
  exact other g same.symm

/-- A run that reaches a layer or the action has gone through the guards before, and does not come
back to them. -/
theorem view_of_arrival (ofGuards : Visit.OfGuards view)
    (split : (h.handle c : Marked Visit Handled).marks = before ++ v :: after)
    (arrives : v.arrival?.isSome) :
    before.filterMap view = (Guard.passage h.guards c).filterMap view ∧
      after.filterMap view = [] := by
  have mem : v ∈ (h.handle c : Marked Visit Handled).marks :=
    split ▸ List.mem_append_right before List.mem_cons_self
  obtain ⟨c', threaded⟩ := thread_of_arrival mem arrives
  obtain ⟨_, _, marks⟩ := handle_of_thread threaded
  rw [marks, Next.run_eq_foldr] at split
  have outside : v ∉ Guard.passage h.guards c := by
    intro mem
    obtain ⟨w, arrival⟩ := Option.isSome_iff_exists.1 arrives
    have shown := List.mem_filterMap.2 ⟨v, mem, arrival⟩
    simp [Guard.passage_arrivals] at shown
  -- The journal is cut at a visit of the walk, so all of the guards' part comes before it.
  obtain ⟨onward, front, back⟩ : ∃ onward, before = Guard.passage h.guards c ++ onward ∧
      ((Chain.ofLayers h.name h.layers h.action).run c').marks = onward ++ v :: after := by
    obtain front | ⟨cut, front, back⟩ := List.append_eq_append_iff.1 split
    · exact front
    · cases cut with
      | nil => exact ⟨[], by simpa using front.symm, back.symm⟩
      | cons w cut =>
          obtain ⟨rfl, _⟩ := List.cons.inj back
          exact absurd (front ▸ by simp) outside
  have nothing := Chain.run_ofGuards ofGuards h.name h.layers h.action c'
  rw [back, List.filterMap_append, List.append_eq_nil_iff] at nothing
  constructor
  · rw [front, List.filterMap_append, nothing.1, List.append_nil]
  · have hidden := List.filterMap_eq_nil_iff.1 nothing.2
    apply List.filterMap_eq_nil_iff.2
    intro w mem
    exact hidden w (List.mem_cons_of_mem v mem)

theorem passed_of_arrival
    (split : (h.handle c : Marked Visit Handled).marks = before ++ v :: after)
    (arrives : v.arrival?.isSome) :
    before.filterMap Visit.checks? = h.guards ∧ before.filterMap Visit.clears? = h.guards ∧
      after.filterMap Visit.checks? = [] := by
  have mem : v ∈ (h.handle c : Marked Visit Handled).marks :=
    split ▸ List.mem_append_right before List.mem_cons_self
  obtain ⟨c', threaded⟩ := thread_of_arrival mem arrives
  obtain ⟨checked, later⟩ := view_of_arrival Visit.ofGuards_checks split arrives
  obtain ⟨cleared, _⟩ := view_of_arrival Visit.ofGuards_clears split arrives
  rw [Guard.passage_checks threaded] at checked
  rw [Guard.passage_clears threaded] at cleared
  exact ⟨checked, cleared, later⟩

end Handler

/-- No guard is bypassed. If a run of a resolved handler invokes the action or a layer, then all
guards that the handler was given in whatever way and that no skip names were checked before, each
once for every time that it was given, and each let the run go on; no guard is checked later. A
guard is left out only if there is a skip of its own identity, and a name is never the identity of a
type, whatever name the type is shown under. -/
theorem no_guard_bypassed (ops : List Registry.Operation) {hs : Handlers}
    (built : (Registry.after ops).build = .ok hs) {handler : String} {h : Handler}
    (held : hs.get? handler = some h) (c : Context) :
    let given := Registry.gives ops handler
    let run : Marked Visit Handled := h.handle c
    run.unmark = h.handle c ∧
    (∀ before v after, run.marks = before ++ v :: after → v.arrival?.isSome →
      (before.filterMap Visit.checks?).Perm (Contribution.keptGuards given) ∧
      before.filterMap Visit.clears? = before.filterMap Visit.checks? ∧
      after.filterMap Visit.checks? = []) ∧
    (∀ g ∈ Contribution.guards given,
      g ∈ h.guards ∨ ∃ s ∈ Contribution.skips given, s.key = g.id.key) ∧
    ∀ (name shown : String) (type : TypeId),
      (HookId.ofName name).same ⟨.type type, shown⟩ = false ∧
      HookId.same ⟨.type type, shown⟩ (.ofName name) = false := by
  intro given run
  have kept : h.guards.Perm (Contribution.keptGuards given) := by
    rw [(Registry.yields_of_build built held).guards]
    exact Contribution.keptGuards_perm (Registry.contributions_perm ops handler)
  refine ⟨Handler.unmark_handle h c, ?_, ?_, fun name shown type => ⟨rfl, rfl⟩⟩
  · intro before v after split arrives
    obtain ⟨checked, cleared, later⟩ := Handler.passed_of_arrival split arrives
    exact ⟨checked ▸ kept, cleared.trans checked.symm, later⟩
  · intro g mem
    rcases Contribution.kept_or_skipped mem with left | skipped
    · exact .inl (kept.mem_iff.2 left)
    · exact .inr skipped

/-- A guard of a base controller and a guard of an included concern share the name under which they
are shown. Skipping that name leaves the first one in force. -/
theorem no_guard_bypassed_by_name :
    let auth : GuardEntry := ⟨.ofType ⟨"app::auth"⟩ "app::auth", fun c => pure (c, .proceed)⟩
    let named : GuardEntry := ⟨.ofName "auth", fun c => pure (c, .halt none)⟩
    let a : Action := ⟨fun handler _ => pure (.ok (.halted handler none))⟩
    let base : Controller.History := .before (.new "base") auth
    let pages : Controller.History :=
      .action (.skip (.inherit (.addConcern (.new "pages") (.before (.new "members") named)) base)
        (.ofName "auth")) "index" a
    ∃ hs h, (Registry.after [.mount pages]).build = .ok hs ∧ hs.get? "pages#index" = some h ∧
      (∃ before after, (h.handle ∅ : Marked Visit Handled).marks = before ++ .call ∅ :: after ∧
        (before.filterMap Visit.checks?).Perm [auth]) := by
  intro auth named a base pages
  let h : Handler := ⟨"pages#index", [auth], [], a, []⟩
  let hs : Handlers := ⟨[("pages#index", h)], List.pairwise_singleton _ _⟩
  have built : (Registry.after [.mount pages]).build = .ok hs := rfl
  have held : hs.get? "pages#index" = some h := rfl
  have marks : (h.handle ∅ : Marked Visit Handled).marks =
      [.check auth ∅, .decide auth .proceed] ++
        .call ∅ :: [.done (.ok (.halted "pages#index" none))] := by
    have threaded : Guard.thread h.guards ∅ = some ∅ := rfl
    rw [(Handler.handle_of_thread threaded).2.2, Next.run_eq_foldr]
    rfl
  have passed := (no_guard_bypassed [.mount pages] built held ∅).2.1 _ _ _ marks rfl
  exact ⟨hs, h, built, held, _, _, marks, passed.1⟩

end RequestFlow
