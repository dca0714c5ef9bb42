import Mathlib.Data.Finset.Card
import RequestFlow.SortedMap
import RequestFlow.Store

/-!
# What a store holds after any insertions

A store is filled by insertions alone, so it is described by the list of them. Its ids are those of
the list without repetitions, in the order in which they occur first (`Store.ids_ofList`), and each
id holds what was inserted under it last (`Store.find?_ofList`). Every id occurs once, so the
records of the store are what its ids hold, one by one (`Store.values`); filtering and counting are
read off from that.
-/

namespace RequestFlow.Store

variable {ρ : Type} {entity : String}

/-! ### One more insertion -/

theorem ofList_concat (inserts : List (String × ρ)) (e : String × ρ) :
    ofList entity (inserts ++ [e]) = (ofList entity inserts).insert e.1 e.2 := by
  rw [ofList, List.foldl_append, List.foldl_cons, List.foldl_nil, ofList]

theorem entity_ofList (inserts : List (String × ρ)) : (ofList entity inserts).entity = entity := by
  induction inserts using List.reverseRecOn with
  | nil => rfl
  | append_singleton inserts e ih =>
      rw [ofList_concat]
      exact ih

/-- A known id keeps its place, and a new one comes last. -/
theorem ids_ofList (inserts : List (String × ρ)) :
    (ofList entity inserts).ids = (inserts.map Prod.fst).eraseDups := by
  induction inserts using List.reverseRecOn with
  | nil => rfl
  | append_singleton inserts e ih =>
      rw [ofList_concat, ids_insert, ih, List.map_append, List.map_singleton,
        List.eraseDups_append]
      split
      next known =>
        rw [List.mem_eraseDups] at known
        simp [List.removeAll, known]
      next new =>
        rw [List.mem_eraseDups] at new
        simp [List.removeAll, new, List.eraseDups_cons]

theorem find?_ofList (inserts : List (String × ρ)) (id : String) :
    (ofList entity inserts).find? id = inserts.reverse.lookup id := by
  induction inserts using List.reverseRecOn with
  | nil => rfl
  | append_singleton inserts e ih =>
      rw [ofList_concat, find?_insert, ih, List.reverse_append, List.reverse_singleton,
        List.singleton_append, SortedMap.lookup_entry]

/-! ### The records of a store -/

/-- Where every id occurs once, looking up the ids one by one gives back the records. -/
theorem map_snd_eq_filterMap {l : List (String × ρ)} (distinct : (l.map Prod.fst).Nodup) :
    l.map Prod.snd =
      (l.map Prod.fst).filterMap fun id => (l.find? fun e => e.1 = id).map Prod.snd := by
  induction l with
  | nil => rfl
  | cons d rest ih =>
      obtain ⟨fresh, distinct⟩ := List.nodup_cons.1 distinct
      have first : ((d :: rest).find? fun e => e.1 = d.1) = some d :=
        List.find?_cons_of_pos (by simp)
      have others : ∀ id ∈ rest.map Prod.fst,
          ((d :: rest).find? fun e => e.1 = id) = rest.find? fun e => e.1 = id := by
        intro id mem
        refine List.find?_cons_of_neg ?_
        rw [decide_eq_true_eq]
        rintro rfl
        exact fresh mem
      rw [List.map_cons, List.map_cons, List.filterMap_cons, first, Option.map_some, ih distinct]
      refine congrArg (d.2 :: ·) (List.filterMap_congr fun id mem => ?_)
      rw [others id mem]

theorem values (s : Store ρ) : s.records.map Prod.snd = s.ids.filterMap s.find? :=
  map_snd_eq_filterMap s.distinct

theorem size_eq_card (s : Store ρ) : s.size = s.ids.toFinset.card := by
  have distinct : s.ids.Nodup := s.distinct
  rw [List.toFinset_card_of_nodup distinct, ids, List.length_map, size]

/-! ### Records that must be there -/

theorem findOrFail_eq_ok_iff {s : Store ρ} {id : String} {r : ρ} :
    s.findOrFail id = .ok r ↔ s.find? id = some r := by
  rw [findOrFail]
  cases s.find? id with
  | none => simp
  | some r' => simp

theorem findOrFail_of_absent {s : Store ρ} {id : String} (absent : s.find? id = none) :
    s.findOrFail id = .error (.missing s.entity id) := by
  rw [findOrFail, absent]

end RequestFlow.Store

namespace RequestFlow

/-- After any insertions a store lists every id once, in the order of their first insertions, and
holds under each id the record that was inserted last. It counts the ids, and filters the records in
the order of the ids. A record that must be there is returned exactly if it is there; else the store
fails with the name of its entity and the id. -/
theorem store_keeps_order_of_insertion {ρ : Type} (entity : String)
    (inserts : List (String × ρ)) :
    (Store.ofList entity inserts).ids.Nodup ∧
    (Store.ofList entity inserts).ids = (inserts.map Prod.fst).eraseDups ∧
    (∀ id, (Store.ofList entity inserts).find? id = inserts.reverse.lookup id) ∧
    (∀ id, (Store.ofList entity inserts).find? id = none ↔ id ∉ inserts.map Prod.fst) ∧
    (Store.ofList entity inserts).size = (inserts.map Prod.fst).toFinset.card ∧
    (∀ p, (Store.ofList entity inserts).filter p =
      ((inserts.map Prod.fst).eraseDups.filterMap fun id => inserts.reverse.lookup id).filter p) ∧
    (∀ id r, (Store.ofList entity inserts).findOrFail id = .ok r ↔
      (Store.ofList entity inserts).find? id = some r) ∧
    ∀ id, (Store.ofList entity inserts).find? id = none →
      ∃ e, (Store.ofList entity inserts).findOrFail id = .error e ∧
        e.kind = .notFound ∧ e.origin = .store ∧
        e.message = "couldn't find " ++ entity ++ " with id=" ++ id := by
  have ids : (Store.ofList entity inserts).ids = _ := Store.ids_ofList inserts
  have held : ∀ id, (Store.ofList entity inserts).find? id = _ := Store.find?_ofList inserts
  refine ⟨Store.distinct _, ids, held, fun id => ?_, ?_, fun p => ?_,
    fun id r => Store.findOrFail_eq_ok_iff, fun id absent => ?_⟩
  · have known : (inserts.reverse.lookup id).isSome = true ↔ id ∈ inserts.reverse.map Prod.fst :=
      SortedMap.lookup_isSome_iff
    rw [List.map_reverse, List.mem_reverse] at known
    rw [held, ← Option.not_isSome_iff_eq_none, known]
  · rw [Store.size_eq_card, ids]
    congr 1
    ext id
    simp
  · rw [Store.filter, Store.values, ids]
    exact congrArg _ (List.filterMap_congr fun id _ => held id)
  · refine ⟨_, Store.findOrFail_of_absent absent, rfl, rfl, ?_⟩
    rw [Store.entity_ofList]
    rfl

/-- A record that is replaced keeps its place, and a record that was never inserted is named by the
failure. -/
theorem store_keeps_order_when_replaced :
    let s := Store.ofList "Post" [("1", 'a'), ("2", 'b'), ("1", 'c')]
    s.ids = ["1", "2"] ∧ s.find? "1" = some 'c' ∧ s.size = 2 ∧
    s.filter (fun _ => true) = ['c', 'b'] ∧
    ∃ e, s.findOrFail "9" = .error e ∧ e.kind = .notFound ∧ e.origin = .store ∧
      e.message = "couldn't find Post with id=9" := by
  intro s
  obtain ⟨_, ids, held, _, size, filtered, _, missing⟩ :=
    store_keeps_order_of_insertion "Post" [("1", 'a'), ("2", 'b'), ("1", 'c')]
  refine ⟨ids.trans (by decide), (held "1").trans (by decide), size.trans (by decide),
    (filtered _).trans (by decide), ?_⟩
  obtain ⟨e, fails, kind, origin, message⟩ := missing "9" ((held "9").trans (by decide))
  exact ⟨e, fails, kind, origin, message.trans (by decide)⟩

end RequestFlow
