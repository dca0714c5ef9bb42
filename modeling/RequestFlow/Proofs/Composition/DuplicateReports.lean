import RequestFlow.Proofs.Composition.Duplicates
import RequestFlow.Proofs.Composition.Resolution

/-!
# Reports on hooks that run more than once

When a registry is resolved, each handler keeps a list of the hooks that it runs more than once, and
there is one report for each entry of such a list. `Repeats` says which list that is for a row of
hooks: its entries are the hooks mentioned more than once, with the number of their mentions, and
they come in the order of their first mentions. That leaves no choice about the list. The loop that
counts the hooks makes it (`repeats_repeated`), since taking the first hook out of a row does not
change the order of the others.
-/

namespace RequestFlow

/-- The hooks that are mentioned more than once, each as it is mentioned first and with the number
of its mentions, in the order of the first mentions. -/
structure Repeats (ids : List HookId) (counts : List (HookId × Nat)) : Prop where
  mem_iff : ∀ a n, (a, n) ∈ counts ↔ 1 < n ∧ ids.find? a.same = some a ∧ ids.countP a.same = n
  ordered : counts.Pairwise fun d e => ids.findIdx d.1.same < ids.findIdx e.1.same

/-- What comes first among the elements that are kept came first before. -/
theorem findIdx_lt_of_filter {α : Type} {p q keep : α → Bool} {l : List α}
    (p_kept : ∀ a, p a = true → keep a = true) (q_kept : ∀ a, q a = true → keep a = true)
    (earlier : (l.filter keep).findIdx p < (l.filter keep).findIdx q) :
    l.findIdx p < l.findIdx q := by
  induction l with
  | nil => exact absurd earlier (Nat.lt_irrefl _)
  | cons a rest ih =>
      cases kept : keep a with
      | false =>
          have notP : p a = false := Bool.eq_false_iff.2 fun own => by simp [p_kept a own] at kept
          have notQ : q a = false := Bool.eq_false_iff.2 fun own => by simp [q_kept a own] at kept
          rw [List.filter_cons_of_neg (by simp [kept])] at earlier
          have later := ih earlier
          simp only [List.findIdx_cons, notP, notQ, cond_false]
          omega
      | true =>
          rw [List.filter_cons_of_pos kept, List.findIdx_cons, List.findIdx_cons] at earlier
          rw [List.findIdx_cons, List.findIdx_cons]
          cases ownQ : q a with
          | true => simp [ownQ] at earlier
          | false =>
              cases ownP : p a with
              | true => simp
              | false =>
                  simp only [ownP, ownQ, cond_false] at earlier ⊢
                  have later := ih (by omega)
                  omega

/-- Counts are opened in the order of the first mentions. -/
theorem ordered_counts (ids : List HookId) :
    (ids.foldl countMention []).Pairwise fun d e =>
      ids.findIdx d.1.same < ids.findIdx e.1.same := by
  induction h : ids.length using Nat.strongRecOn generalizing ids with
  | ind length ih =>
      cases ids with
      | nil => exact .nil
      | cons a rest =>
          have shorter : (rest.filter fun b => !a.same b).length < length := by
            have fewer := List.length_filter_le (fun b => !a.same b) rest
            rw [← h, List.length_cons]
            omega
          -- The counts behind the first one belong to other hooks, so the first hook is kept out
          -- of their way and does not change their order.
          have others : ∀ e ∈ (rest.filter fun b => !a.same b).foldl countMention [],
              e.1.same a = false := by
            rintro ⟨b, n⟩ mem
            have found := (mem_counts_iff.1 mem).1
            have other := (List.mem_filter.1 (List.mem_of_find?_eq_some found)).2
            rw [HookId.same_comm]
            simpa using other
          have kept (b : HookId) (other : b.same a = false) (c : HookId) (own : b.same c = true) :
              (!a.same c) = true := by
            rw [Bool.not_eq_true', Bool.eq_false_iff]
            intro same
            rw [HookId.same_iff] at own same
            exact Bool.eq_false_iff.1 other (HookId.same_iff.2 (own.trans same.symm))
          rw [counts_cons, List.pairwise_cons]
          constructor
          · intro e mem
            simp [List.findIdx_cons, others e mem, a.same_refl]
          · refine (ih _ shorter _ rfl).imp_of_mem fun {d e} memD memE earlier => ?_
            have lt := findIdx_lt_of_filter (kept d.1 (others d memD)) (kept e.1 (others e memE))
              earlier
            simp only [List.findIdx_cons, others d memD, others e memE, cond_false]
            omega

theorem repeats_repeated (ids : List HookId) : Repeats ids (repeated ids) where
  mem_iff _ _ := mem_repeated_iff
  ordered := (ordered_counts ids).filter _

namespace Repeats

variable {ids : List HookId} {counts : List (HookId × Nat)} {d : HookId × Nat}

theorem mem (repeats : Repeats ids counts) (listed : d ∈ counts) : d.1 ∈ ids :=
  List.mem_of_find?_eq_some ((repeats.mem_iff d.1 d.2).1 listed).2.1

end Repeats

/-! ### Reports by handler -/

/-- Whether a notice reports a repeated hook of a handler. -/
def Notice.reportsRepetition (handler : String) : Notice → Bool
  | .hookRepeated h _ _ => h == handler
  | _ => false

/-- A single entry makes up what is gathered from a map, if no other entry adds to it. -/
theorem SortedMap.flatMap_eq_of_others {α β : Type} {m : SortedMap α} {k : String} {v : α}
    {f : String × α → List β} (held : m.get? k = some v)
    (others : ∀ e ∈ m.toList, e.1 ≠ k → f e = []) : m.toList.flatMap f = f (k, v) := by
  obtain ⟨front, back, entries⟩ := List.append_of_mem (get?_eq_some_iff.1 held)
  have distinct := m.nodup_keys
  rw [keys, entries, List.map_append, List.map_cons, List.nodup_append, List.nodup_cons] at distinct
  obtain ⟨_, ⟨notBehind, _⟩, apart⟩ := distinct
  have ahead : front.flatMap f = [] := by
    rw [List.flatMap_eq_nil_iff]
    intro e mem
    refine others e (entries ▸ List.mem_append_left _ mem) ?_
    exact apart _ (List.mem_map_of_mem mem) _ List.mem_cons_self
  have behind : back.flatMap f = [] := by
    rw [List.flatMap_eq_nil_iff]
    intro e mem
    refine others e (entries ▸ List.mem_append_right _ (List.mem_cons_of_mem _ mem)) ?_
    intro same
    exact notBehind (List.mem_map.2 ⟨e, mem, same⟩)
  rw [entries, List.flatMap_append, List.flatMap_cons, ahead, behind, List.nil_append,
    List.append_nil]

namespace Handlers

variable {hs : Handlers} {name : String} {h : Handler}

theorem mem_notices {n : Notice} : n ∈ hs.notices ↔
    ∃ e ∈ hs.toList, ∃ d ∈ e.2.duplicates, n = .hookRepeated e.2.name d.1.name d.2 := by
  simp only [notices, List.mem_flatMap, List.mem_map, eq_comm]

/-- The reports on one handler, if the handlers stand under their own names. -/
theorem filter_notices (named : ∀ e ∈ hs.toList, e.2.name = e.1) (held : hs.get? name = some h) :
    hs.notices.filter (Notice.reportsRepetition name) =
      h.duplicates.map fun d => .hookRepeated name d.1.name d.2 := by
  have own : h.name = name := named (name, h) (SortedMap.get?_eq_some_iff.1 held)
  rw [notices, List.filter_flatMap, SortedMap.flatMap_eq_of_others held, own]
  · refine List.filter_eq_self.2 fun n mem => ?_
    obtain ⟨d, _, rfl⟩ := List.mem_map.1 mem
    exact beq_self_eq_true name
  · intro e mem other
    refine List.filter_eq_nil_iff.2 fun n mem' => ?_
    obtain ⟨d, _, rfl⟩ := List.mem_map.1 mem'
    simpa [Notice.reportsRepetition, named e mem] using other

end Handlers

/-- What a resolved handler has to say about its hooks: it runs the guards that were contributed
without those that are skipped, and all layers; it lists the guards that run more than once and then
the layers that do; and it lists no guard that is skipped. -/
structure Handler.Accounts (h : Handler) (cs : List Contribution) : Prop where
  guards : h.guards = Contribution.keptGuards cs
  layers : h.layers = Contribution.layers cs
  duplicates : ∃ guards layers, h.duplicates = guards ++ layers ∧
    Repeats (h.guards.map fun g => g.id) guards ∧ Repeats (h.layers.map fun l => l.id) layers ∧
    ∀ s ∈ Contribution.skips cs, ∀ d ∈ guards, s.same d.1 = false

theorem Contribution.Yields.accounts {name : String} {cs : List Contribution} {h : Handler}
    (yields : Yields name cs h) : h.Accounts cs := by
  refine ⟨yields.guards, yields.layers, _, _, yields.duplicates, repeats_repeated _,
    repeats_repeated _, ?_⟩
  intro s skipped d listed
  obtain ⟨g, runs, own⟩ := List.mem_map.1 ((repeats_repeated _).mem listed)
  rw [yields.guards, keptGuards, List.mem_filter, Bool.not_eq_true', List.any_eq_false] at runs
  rw [← own]
  exact Bool.eq_false_iff.2 (runs.2 s skipped)

/-- Whatever calls made a registry, when it is resolved every handler lists the hooks that it runs
more than once, exactly, and keeps all of them in its rows. There is one report for each hook that
is listed, with its name and count, in the order of the list, and there is no other report. -/
theorem repeated_hooks_reported (ops : List Registry.Operation) (hs : Handlers)
    (built : (Registry.after ops).build = .ok hs) :
    (∀ name h, hs.get? name = some h →
      h.Accounts (Registry.contributions ops name) ∧
      hs.notices.filter (Notice.reportsRepetition name) =
        h.duplicates.map fun d => .hookRepeated name d.1.name d.2) ∧
    ∀ n ∈ hs.notices, ∃ name h, hs.get? name = some h ∧
      ∃ d ∈ h.duplicates, n = .hookRepeated name d.1.name d.2 := by
  have yields (name : String) (h : Handler) (held : hs.get? name = some h) :
      Contribution.Yields name (Registry.contributions ops name) h :=
    Registry.yields_of_build built held
  have named : ∀ e ∈ hs.toList, e.2.name = e.1 := fun e mem =>
    (yields e.1 e.2 (SortedMap.get?_eq_some_iff.2 mem)).name
  constructor
  · intro name h held
    exact ⟨(yields name h held).accounts, Handlers.filter_notices named held⟩
  · intro n mem
    obtain ⟨e, listed, d, repeated, rfl⟩ := Handlers.mem_notices.1 mem
    exact ⟨e.1, e.2, SortedMap.get?_eq_some_iff.2 listed, d, repeated, by rw [named e listed]⟩

/-- A guard that stands three times, one that is skipped although it stands twice, and a layer that
stands twice: the first and the last are reported, in that order. -/
theorem repeated_hooks_reported_beside_skips :
    let page : GuardEntry := ⟨.ofName "page", fun c => pure (c, .proceed)⟩
    let auth : GuardEntry := ⟨.ofName "auth", fun c => pure (c, .proceed)⟩
    let trace : LayerEntry := ⟨⟨.serial 0, "trace"⟩, .trace⟩
    let a : Action := ⟨fun handler _ => pure (.ok (.halted handler none))⟩
    let ops : List Registry.Operation :=
      [.before "h" page, .before "h" auth, .surround "h" trace, .before "h" page,
        .before "h" auth, .surround "h" trace, .skip "h" (.ofName "auth"), .before "h" page,
        .action "h" a]
    ∃ hs h, (Registry.after ops).build = .ok hs ∧ hs.get? "h" = some h ∧
      h.guards = [page, page, page] ∧
      hs.notices.filter (Notice.reportsRepetition "h") =
        [.hookRepeated "h" "page" 3, .hookRepeated "h" "trace" 2] := by
  intro page auth trace a ops
  have given : Registry.contributions ops "h" =
      [.guard page, .guard auth, .layer trace, .guard page, .guard auth, .layer trace,
        .skip (.ofName "auth"), .guard page, .action a] := by
    simp [ops, Registry.contributions, Registry.contributedTo, Registry.Operation.groups]
  obtain ⟨hs, built⟩ : ∃ hs, (Registry.after ops).build = .ok hs := ⟨_, rfl⟩
  obtain ⟨table, _⟩ := repeated_hooks_reported ops hs built
  obtain ⟨h, held⟩ := Registry.exists_of_touched built (given ▸ List.cons_ne_nil _ _)
  obtain ⟨accounts, reports⟩ := table "h" h held
  have guards : h.guards = [page, page, page] := accounts.guards.trans (given ▸ rfl)
  have layers : h.layers = [trace, trace] := accounts.layers.trans (given ▸ rfl)
  refine ⟨hs, h, built, held, guards, reports.trans ?_⟩
  rw [(Registry.yields_of_build built held).duplicates, guards, layers]
  rfl

end RequestFlow
