import RequestFlow.Proofs.Composition.Collection

/-!
# What a registry resolves to

A registry resolves all of its drafts in a loop that ends at the first draft that cannot be
resolved. Here the result is read off the contributions to each handler. They are resolved if they
are `Contribution.Resolvable`, to a handler that `Contribution.Yields` describes, and else there is
a `Contribution.Offence`.

The loop is taken in every order in which the drafts could be listed (`SortedMap.gather`). The order
decides at most which of several offending handlers is reported.
-/

namespace RequestFlow

/-! ### Entries in any order -/

namespace SortedMap

variable {α β ε : Type} {f : String → α → Except ε β} {table table' : SortedMap β}
variable {l : List (String × α)} {e : ε}

/-- Apply a function that may fail to entries in the order of a list, and store the results in a
table. The first failure is the result. -/
def gather (f : String → α → Except ε β) (table : SortedMap β) :
    List (String × α) → Except ε (SortedMap β)
  | [] => .ok table
  | (k, v) :: rest =>
    match f k v with
    | .error e => .error e
    | .ok w => gather f (table.insert k w) rest

theorem exists_gather_iff :
    (∃ table', gather f table l = .ok table') ↔ ∀ d ∈ l, ∃ w, f d.1 d.2 = .ok w := by
  induction l generalizing table with
  | nil => simp [gather]
  | cons d rest ih =>
      rw [List.forall_mem_cons, gather]
      cases h : f d.1 d.2 with
      | error e => simp
      | ok w => simp [ih]

/-- The failure of a gathering is that of one of the entries. -/
theorem exists_of_gather_error (h : gather f table l = .error e) :
    ∃ d ∈ l, f d.1 d.2 = .error e := by
  induction l generalizing table with
  | nil => simp [gather] at h
  | cons d rest ih =>
      rw [gather] at h
      cases own : f d.1 d.2 with
      | error e' =>
          simp only [own, Except.error.injEq] at h
          exact ⟨d, List.mem_cons_self, h ▸ own⟩
      | ok w =>
          simp only [own] at h
          obtain ⟨d', mem, fails⟩ := ih h
          exact ⟨d', List.mem_cons_of_mem d mem, fails⟩

/-- Where every key occurs once, the table holds the result of each entry. -/
theorem get?_gather (distinct : (l.map Prod.fst).Nodup) (h : gather f table l = .ok table')
    (k : String) :
    table'.get? k =
      match findEntry k l with
      | some v => (f k v).toOption
      | none => table.get? k := by
  induction l generalizing table with
  | nil =>
      simp only [gather, Except.ok.injEq] at h
      simp [findEntry, h]
  | cons d rest ih =>
      obtain ⟨k', v⟩ := d
      obtain ⟨fresh, unique⟩ := List.nodup_cons.1 distinct
      rw [gather] at h
      cases own : f k' v with
      | error e => simp [own] at h
      | ok w =>
          simp only [own] at h
          rw [ih unique h, findEntry]
          split
          next v' found =>
            have other : k ≠ k' := by
              rintro rfl
              exact fresh (List.mem_map.2 ⟨_, (findEntry_eq_some_iff unique).1 found, rfl⟩)
            simp [other, found]
          next absent =>
            rw [get?_insert]
            split
            next same => simp [same, own, Except.toOption]
            next other => simp [absent]

theorem gather_eq_map :
    gather f table l =
      (traverseEntries f l).map fun l' => l'.foldl (fun m d => m.insert d.1 d.2) table := by
  induction l generalizing table with
  | nil => rfl
  | cons d rest ih =>
      rw [gather, traverseEntries]
      cases f d.1 d.2 with
      | error e => rfl
      | ok w =>
          simp only [ih]
          cases traverseEntries f rest <;> rfl

/-- To go through a map in the order of its keys is one way to gather its entries. -/
theorem traverse_eq_gather (m : SortedMap α) : m.traverse f = gather f ∅ m.toList := by
  rw [gather_eq_map, traverse]
  split
  next e fails => exact (congrArg (Except.map _) fails).symm
  next l' ok =>
    refine Eq.trans ?_ (congrArg (Except.map _) ok).symm
    exact congrArg Except.ok (foldl_insert_toList _).symm

end SortedMap

/-! ### One handler -/

namespace Contribution

/-- A skip that can be honoured: it names no mention of a hook with state, and there is a guard of
its identity, wherever that stands. -/
def Honoured (cs : List Contribution) (s : HookId) : Prop :=
  s.isStateful = false ∧ ∃ g ∈ guards cs, g.id.key = s.key

structure Resolvable (cs : List Contribution) : Prop where
  acts : actions cs ≠ []
  honoured : ∀ s ∈ skips cs, Honoured cs s

/-- Why contributions do not make up a handler: they set no action, or they do and this is the
first skip that cannot be honoured. -/
inductive Offence (handler : String) (cs : List Contribution) : BuildError → Prop where
  | missingAction (unset : actions cs = []) : Offence handler cs (.missingAction handler)
  | statefulSkip (s : HookId) (front back : List HookId) (acts : actions cs ≠ [])
      (first : skips cs = front ++ s :: back) (before : ∀ t ∈ front, Honoured cs t)
      (stateful : s.isStateful = true) : Offence handler cs (.statefulSkip handler s.name)
  | unknownSkip (s : HookId) (front back : List HookId) (acts : actions cs ≠ [])
      (first : skips cs = front ++ s :: back) (before : ∀ t ∈ front, Honoured cs t)
      (plain : s.isStateful = false) (unknown : ∀ g ∈ guards cs, g.id.key ≠ s.key) :
      Offence handler cs (.unknownSkip handler s.name)

/-- The guards among contributions that are not skipped: every guard of a skipped identity is left
out, and the others keep their order. -/
def keptGuards (cs : List Contribution) : List GuardEntry :=
  (guards cs).filter fun g => !(skips cs).any fun s => s.same g.id

/-- The handler that contributions make up. -/
structure Yields (handler : String) (cs : List Contribution) (h : Handler) : Prop where
  name : h.name = handler
  guards : h.guards = keptGuards cs
  layers : h.layers = layers cs
  action : (actions cs).getLast? = some h.action
  duplicates : h.duplicates =
    repeated (h.guards.map fun g => g.id) ++ repeated (h.layers.map fun l => l.id)

variable {handler : String} {cs : List Contribution} {h h' : Handler} {e : BuildError}

theorem Yields.unique (yields : Yields handler cs h) (yields' : Yields handler cs h') : h = h' := by
  have action : h.action = h'.action :=
    Option.some.inj (yields.action.symm.trans yields'.action)
  have guards := yields.guards.trans yields'.guards.symm
  have layers := yields.layers.trans yields'.layers.symm
  have duplicates := yields.duplicates
  rw [guards, layers, ← yields'.duplicates] at duplicates
  have name := yields.name.trans yields'.name.symm
  cases h
  cases h'
  simp_all

theorem Offence.not_resolvable (offence : Offence handler cs e) : ¬ Resolvable cs := by
  intro resolvable
  cases offence with
  | missingAction none => exact resolvable.acts none
  | statefulSkip s front back _ first _ stateful =>
      have plain := (resolvable.honoured s (by simp [first])).1
      simp [stateful] at plain
  | unknownSkip s front back _ first _ _ unknown =>
      obtain ⟨g, mem, same⟩ := (resolvable.honoured s (by simp [first])).2
      exact unknown g mem same

theorem hasGuard_iff (s : HookId) :
    (draft cs).hasGuard s = true ↔ ∃ g ∈ guards cs, g.id.key = s.key := by
  simp [Draft.hasGuard, draft]

/-- A skip is refused unless it can be honoured. -/
theorem skip_accepted_iff (s : HookId) :
    (if s.isStateful then some (BuildError.statefulSkip handler s.name)
      else if (draft cs).hasGuard s then none
      else some (.unknownSkip handler s.name)) = none ↔ Honoured cs s := by
  rw [Honoured, ← hasGuard_iff]
  cases s.isStateful <;> cases (draft cs).hasGuard s <;> simp

theorem badSkip?_eq_none_iff :
    (draft cs).badSkip? handler = none ↔ ∀ s ∈ skips cs, Honoured cs s := by
  rw [Draft.badSkip?, List.findSome?_eq_none_iff]
  exact forall₂_congr fun s _ => skip_accepted_iff s

/-- Contributions that set an action offend with the first skip that is refused. -/
theorem offence_of_badSkip? (acts : actions cs ≠ []) (bad : (draft cs).badSkip? handler = some e) :
    Offence handler cs e := by
  rw [Draft.badSkip?, List.findSome?_eq_some_iff] at bad
  obtain ⟨front, s, back, first, refused, accepted⟩ := bad
  have before : ∀ t ∈ front, Honoured cs t := fun t mem => (skip_accepted_iff t).1 (accepted t mem)
  split at refused
  next stateful =>
    obtain rfl := Option.some.inj refused
    exact .statefulSkip s front back acts first before stateful
  next plain =>
    split at refused
    next => simp at refused
    next unknown =>
      obtain rfl := Option.some.inj refused
      refine .unknownSkip s front back acts first before (by simpa using plain) ?_
      intro g mem same
      exact unknown ((hasGuard_iff s).2 ⟨g, mem, same⟩)

theorem yields_of_resolve (ok : (draft cs).resolve handler = .ok h) :
    Resolvable cs ∧ Yields handler cs h := by
  unfold Draft.resolve at ok
  split at ok
  next => simp at ok
  next a action =>
    split at ok
    next => simp at ok
    next good =>
      obtain rfl := Except.ok.inj ok
      have acts : actions cs ≠ [] := fun unset => by simp [draft, unset] at action
      exact ⟨⟨acts, badSkip?_eq_none_iff.1 good⟩, ⟨rfl, rfl, rfl, action, rfl⟩⟩

theorem offence_of_resolve (fails : (draft cs).resolve handler = .error e) :
    Offence handler cs e := by
  unfold Draft.resolve at fails
  split at fails
  next action =>
    obtain rfl := Except.error.inj fails
    exact .missingAction (List.getLast?_eq_none_iff.1 action)
  next a action =>
    split at fails
    next e' bad =>
      obtain rfl := Except.error.inj fails
      have acts : actions cs ≠ [] := fun unset => by simp [draft, unset] at action
      exact offence_of_badSkip? acts bad
    next => simp at fails

theorem exists_resolve_iff :
    (∃ h, (draft cs).resolve handler = .ok h) ↔ Resolvable cs := by
  constructor
  · rintro ⟨h, ok⟩
    exact (yields_of_resolve ok).1
  · intro resolvable
    cases resolved : (draft cs).resolve handler with
    | ok h => exact ⟨h, rfl⟩
    | error e => exact absurd resolvable (offence_of_resolve resolved).not_resolvable

end Contribution

/-! ### All handlers -/

namespace Registry

variable {ops ops' : List Operation} {order order' : List (String × Draft)} {hs hs' : Handlers}

theorem build_eq_gather (r : Registry) :
    r.build = SortedMap.gather Draft.resolve ∅ r.drafts.toList :=
  SortedMap.traverse_eq_gather r.drafts

section Loop

variable (listed : order.Perm (after ops).drafts.toList)
include listed

/-- The drafts of a registry are those of the contributions to the handlers that are touched. -/
theorem mem_order_iff {handler : String} {d : Draft} :
    (handler, d) ∈ order ↔
      contributions ops handler ≠ [] ∧ Contribution.draft (contributions ops handler) = d := by
  rw [listed.mem_iff, ← SortedMap.get?_eq_some_iff, get?_after, Contribution.draft?_eq_some_iff]

theorem exists_gather_iff_resolvable :
    (∃ hs, SortedMap.gather Draft.resolve ∅ order = .ok hs) ↔
      ∀ handler, contributions ops handler ≠ [] →
        Contribution.Resolvable (contributions ops handler) := by
  rw [SortedMap.exists_gather_iff]
  constructor
  · intro resolved handler touched
    have mem := (mem_order_iff listed).2 ⟨touched, rfl⟩
    exact Contribution.exists_resolve_iff.1 (resolved _ mem)
  · rintro resolvable ⟨handler, d⟩ mem
    obtain ⟨touched, rfl⟩ := (mem_order_iff listed).1 mem
    exact Contribution.exists_resolve_iff.2 (resolvable handler touched)

/-- What the table holds under a name: nothing for a handler that is not touched, and else the
handler that its contributions make up. -/
theorem get?_of_gather (ok : SortedMap.gather Draft.resolve ∅ order = .ok hs) (handler : String) :
    (contributions ops handler = [] ∧ hs.get? handler = none) ∨
      contributions ops handler ≠ [] ∧ ∃ h, hs.get? handler = some h ∧
        Contribution.Yields handler (contributions ops handler) h := by
  have distinct : (order.map Prod.fst).Nodup :=
    ((listed.map Prod.fst).nodup_iff).2 (after ops).drafts.nodup_keys
  have held := SortedMap.get?_gather distinct ok handler
  cases found : SortedMap.findEntry handler order with
  | none =>
      have untouched : contributions ops handler = [] := by
        apply Decidable.byContradiction
        intro touched
        exact SortedMap.findEntry_eq_none.1 found _ ((mem_order_iff listed).2 ⟨touched, rfl⟩) rfl
      exact .inl ⟨untouched, by simpa [found] using held⟩
  | some d =>
      have mem := (SortedMap.findEntry_eq_some_iff distinct).1 found
      obtain ⟨touched, rfl⟩ := (mem_order_iff listed).1 mem
      obtain ⟨h, resolved⟩ := SortedMap.exists_gather_iff.1 ⟨hs, ok⟩ _ mem
      refine .inr ⟨touched, h, ?_, (Contribution.yields_of_resolve resolved).2⟩
      simpa [found, resolved, Except.toOption] using held

theorem offence_of_gather {e : BuildError}
    (fails : SortedMap.gather Draft.resolve ∅ order = .error e) :
    ∃ handler, contributions ops handler ≠ [] ∧
      Contribution.Offence handler (contributions ops handler) e := by
  obtain ⟨⟨handler, d⟩, mem, refused⟩ := SortedMap.exists_of_gather_error fails
  obtain ⟨touched, rfl⟩ := (mem_order_iff listed).1 mem
  exact ⟨handler, touched, Contribution.offence_of_resolve refused⟩

/-- The table depends on what is contributed to each handler, and on nothing else. -/
theorem gather_toOption_eq (listed' : order'.Perm (after ops').drafts.toList)
    (same : ∀ handler, contributions ops' handler = contributions ops handler) :
    (SortedMap.gather Draft.resolve ∅ order').toOption =
      (SortedMap.gather Draft.resolve ∅ order).toOption := by
  have agree : (∃ hs, SortedMap.gather Draft.resolve ∅ order' = .ok hs) ↔
      ∃ hs, SortedMap.gather Draft.resolve ∅ order = .ok hs := by
    rw [exists_gather_iff_resolvable listed, exists_gather_iff_resolvable listed']
    simp only [same]
  cases here : SortedMap.gather Draft.resolve ∅ order with
  | error e =>
      cases there : SortedMap.gather Draft.resolve ∅ order' with
      | error e' => rfl
      | ok hs' =>
          obtain ⟨hs, ok⟩ := agree.1 ⟨hs', there⟩
          simp [here] at ok
  | ok hs =>
      obtain ⟨hs', there⟩ := agree.2 ⟨hs, here⟩
      rw [there]
      apply congrArg some
      apply SortedMap.ext_get?
      intro handler
      have holds := get?_of_gather listed here handler
      have holds' := get?_of_gather listed' there handler
      rw [same] at holds'
      rcases holds with ⟨untouched, absent⟩ | ⟨touched, h, held, yields⟩
      · obtain ⟨_, absent'⟩ | ⟨touched', _⟩ := holds'
        · rw [absent, absent']
        · exact absurd untouched touched'
      · obtain ⟨untouched', _⟩ | ⟨_, h', held', yields'⟩ := holds'
        · exact absurd untouched' touched
        · rw [held, held', yields.unique yields']

end Loop

/-- Every handler of a table is made up of the contributions to it. -/
theorem yields_of_build {handler : String} {h : Handler} (built : (after ops).build = .ok hs)
    (held : hs.get? handler = some h) :
    Contribution.Yields handler (contributions ops handler) h := by
  rw [build_eq_gather] at built
  rcases get?_of_gather (List.Perm.refl _) built handler with ⟨_, absent⟩ | ⟨_, h', held', yields⟩
  · simp [absent] at held
  · obtain rfl := Option.some.inj (held.symm.trans held')
    exact yields

/-- Every handler that is touched is in the table. -/
theorem exists_of_touched {handler : String} (built : (after ops).build = .ok hs)
    (touched : contributions ops handler ≠ []) : ∃ h, hs.get? handler = some h := by
  rw [build_eq_gather] at built
  rcases get?_of_gather (List.Perm.refl _) built handler with ⟨untouched, _⟩ | ⟨_, h, held, _⟩
  · exact absurd untouched touched
  · exact ⟨h, held⟩

theorem mem_names_iff {handler : String} :
    handler ∈ Handlers.names hs ↔ ∃ h, hs.get? handler = some h := by
  rw [Handlers.names, ← SortedMap.contains_iff_mem_keys, SortedMap.contains,
    Option.isSome_iff_exists]

end Registry

/-- A registry is resolved handler by handler, from the contributions that reach each of them. It is
resolved exactly if the contributions to every handler that is touched can be. The table then lists
the touched handlers in the order of their names, each made up of its own contributions, and a
failure is an offence of some handler. Neither the order in which handlers are visited nor the way
in which calls on different handlers are mixed makes a difference to success and to the table. -/
theorem registry_resolves (ops : List Registry.Operation) :
    let given := Registry.contributions ops
    let built := (Registry.after ops).build
    ((∃ hs, built = .ok hs) ↔
      ∀ handler, given handler ≠ [] → Contribution.Resolvable (given handler)) ∧
    (∀ hs, built = .ok hs →
      hs.names.Pairwise (· < ·) ∧
      (∀ handler, handler ∈ hs.names ↔ given handler ≠ []) ∧
      ∀ handler h, hs.get? handler = some h →
        Contribution.Yields handler (given handler) h) ∧
    (∀ e, built = .error e →
      ∃ handler, given handler ≠ [] ∧ Contribution.Offence handler (given handler) e) ∧
    ∀ ops' order, (∀ handler, Registry.contributions ops' handler = given handler) →
      order.Perm (Registry.after ops').drafts.toList →
      let result := SortedMap.gather Draft.resolve ∅ order
      result.toOption = built.toOption ∧
      ∀ e, result = .error e →
        ∃ handler, given handler ≠ [] ∧ Contribution.Offence handler (given handler) e := by
  intro given built
  have loop : built = SortedMap.gather Draft.resolve ∅ (Registry.after ops).drafts.toList :=
    Registry.build_eq_gather _
  have listed := List.Perm.refl (Registry.after ops).drafts.toList
  refine ⟨?_, ?_, ?_, ?_⟩
  · rw [loop]
    exact Registry.exists_gather_iff_resolvable listed
  · intro hs ok
    refine ⟨hs.pairwise_keys, ?_, fun handler h => Registry.yields_of_build ok⟩
    intro handler
    rw [loop] at ok
    rw [Registry.mem_names_iff]
    rcases Registry.get?_of_gather listed ok handler with
      ⟨untouched, absent⟩ | ⟨touched, h, held, _⟩
    · simp [given, untouched, absent]
    · constructor
      · intro _
        exact touched
      · intro _
        exact ⟨h, held⟩
  · intro e fails
    rw [loop] at fails
    exact Registry.offence_of_gather listed fails
  · intro ops' order same listed'
    constructor
    · rw [loop]
      exact Registry.gather_toOption_eq listed listed' same
    · intro e fails
      obtain ⟨handler, touched, offence⟩ := Registry.offence_of_gather listed' fails
      rw [same] at touched offence
      exact ⟨handler, touched, offence⟩

/-- A skip that stands before the guards that it names. Both of them go, and the table is the same
for every order of the drafts. -/
theorem registry_resolves_with_early_skip :
    let auth : GuardEntry := ⟨.ofName "auth", fun c => pure (c, .proceed)⟩
    let page : GuardEntry := ⟨.ofType ⟨"app::page"⟩ "app::page", fun c => pure (c, .proceed)⟩
    let a : Action := ⟨fun handler _ => pure (.ok (.halted handler none))⟩
    let ops : List Registry.Operation :=
      [.skip "h" (.ofName "auth"), .before "h" auth, .before "h" page, .before "h" auth,
        .action "h" a]
    ∃ hs h, (Registry.after ops).build = .ok hs ∧ hs.get? "h" = some h ∧ h.guards = [page] ∧
      h.action = a ∧
      (SortedMap.gather Draft.resolve ∅ (Registry.after ops).drafts.toList.reverse).toOption =
        some hs := by
  intro auth page a ops
  have given : Registry.contributions ops "h" =
      [.skip (.ofName "auth"), .guard auth, .guard page, .guard auth, .action a] := by
    simp [ops, Registry.contributions, Registry.contributedTo, Registry.Operation.groups]
  have others (handler : String) (touched : Registry.contributions ops handler ≠ []) :
      handler = "h" := by
    refine Decidable.byContradiction fun other => touched ?_
    simp [ops, Registry.contributions, Registry.contributedTo, Registry.Operation.groups,
      Ne.symm other]
  have resolvable : Contribution.Resolvable (Registry.contributions ops "h") := by
    rw [given]
    refine ⟨List.cons_ne_nil _ _, fun s mem => ?_⟩
    obtain rfl := List.mem_singleton.1 mem
    exact ⟨rfl, auth, List.mem_cons_self, rfl⟩
  obtain ⟨success, table, _, anyOrder⟩ := registry_resolves ops
  obtain ⟨hs, built⟩ := success.2 fun handler touched => others handler touched ▸ resolvable
  obtain ⟨_, names, yields⟩ := table hs built
  obtain ⟨h, held⟩ := Registry.mem_names_iff.1 ((names "h").2 (by simp [given]))
  have made := yields "h" h held
  rw [given] at made
  refine ⟨hs, h, built, held, made.guards, (Option.some.inj made.action).symm, ?_⟩
  rw [(anyOrder ops _ (fun _ => rfl) (List.reverse_perm _)).1, built]
  rfl

end RequestFlow
