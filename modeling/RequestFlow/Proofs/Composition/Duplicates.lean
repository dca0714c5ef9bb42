import Mathlib.Data.List.Basic
import RequestFlow.Registry

/-!
# Counting the mentions of hooks

The hooks of a handler that run more than once are found by a loop that keeps a list of counts and
looks every hook up in it. The first mention of a hook opens its count, and all later mentions only
add to that count (`foldl_countMention_cons`), so the loop does the same as taking the first hook,
counting it, and going on with the others. The main statement is `mem_repeated_iff`: the list that
the loop leaves names exactly the hooks that are mentioned more than once, each as it is mentioned
first and with the number of its mentions.
-/

namespace RequestFlow

variable {a : HookId} {n : Nat} {ids : List HookId} {counts : List (HookId × Nat)}

/-- A count that is open takes every mention of its hook, and the others pass it by. -/
theorem foldl_countMention_cons (a : HookId) (n : Nat) (counts : List (HookId × Nat))
    (ids : List HookId) :
    ids.foldl countMention ((a, n) :: counts) =
      (a, n + ids.countP a.same) :: (ids.filter fun b => !a.same b).foldl countMention counts := by
  induction ids generalizing n counts with
  | nil => rfl
  | cons b rest ih =>
      rw [List.foldl_cons, countMention]
      split
      next own =>
        rw [ih, List.countP_cons_of_pos own, List.filter_cons_of_neg (by simp [own])]
        have sum : n + 1 + rest.countP a.same = n + (rest.countP a.same + 1) := by omega
        rw [sum]
      next other =>
        rw [ih, List.countP_cons_of_neg other, List.filter_cons_of_pos (by simp [other]),
          List.foldl_cons]

/-- The count of the first hook, and then those of the hooks that are not the first one. -/
theorem counts_cons (a : HookId) (ids : List HookId) :
    (a :: ids).foldl countMention [] =
      (a, (a :: ids).countP a.same) :: (ids.filter fun b => !a.same b).foldl countMention [] := by
  rw [List.foldl_cons, countMention, foldl_countMention_cons,
    List.countP_cons_of_pos a.same_refl, Nat.add_comm]

/-- Setting the mentions of one hook aside does not touch those of another. -/
theorem mentions_filter {b : HookId} (other : a.same b = false) (ids : List HookId) :
    (ids.filter fun c => !b.same c).find? a.same = ids.find? a.same ∧
      (ids.filter fun c => !b.same c).countP a.same = ids.countP a.same := by
  have kept (c : HookId) (own : a.same c = true) : b.same c = false := by
    rw [Bool.eq_false_iff]
    intro same
    rw [HookId.same_iff] at own same
    exact Bool.eq_false_iff.1 other (HookId.same_iff.2 (own.trans same.symm))
  constructor
  · rw [List.find?_filter]
    congr
    funext c
    cases own : a.same c with
    | true => simp [kept c own]
    | false => simp
  · rw [List.countP_filter]
    congr
    funext c
    cases own : a.same c with
    | true => simp [kept c own]
    | false => simp

/-- Every hook that is mentioned has one count, under its first mention. -/
theorem mem_counts_iff :
    (a, n) ∈ ids.foldl countMention [] ↔ ids.find? a.same = some a ∧ ids.countP a.same = n := by
  induction h : ids.length using Nat.strongRecOn generalizing ids with
  | ind length ih =>
      cases ids with
      | nil => simp
      | cons b rest =>
          have shorter : (rest.filter fun c => !b.same c).length < length := by
            have fewer := List.length_filter_le (fun c => !b.same c) rest
            rw [← h, List.length_cons]
            omega
          rw [counts_cons, List.mem_cons, ih _ shorter rfl, Prod.mk.injEq]
          cases own : a.same b with
          | true =>
              have gone : (rest.filter fun c => !b.same c).find? a.same ≠ some a := fun found => by
                have mem := (List.mem_filter.1 (List.mem_of_find?_eq_some found)).2
                rw [b.same_comm, own] at mem
                cases mem
              have opens : a = b ∧ n = (b :: rest).countP b.same ↔
                  b = a ∧ (b :: rest).countP a.same = n := by
                constructor
                · rintro ⟨rfl, rfl⟩
                  exact ⟨rfl, rfl⟩
                · rintro ⟨rfl, rfl⟩
                  exact ⟨rfl, rfl⟩
              rw [List.find?_cons_of_pos own, Option.some.injEq, opens]
              exact or_iff_left fun found => gone found.1
          | false =>
              obtain ⟨first, count⟩ := mentions_filter own rest
              have differs : ¬ a.same b = true := Bool.eq_false_iff.1 own
              have later : ¬ (a = b ∧ n = (b :: rest).countP b.same) := by
                rintro ⟨rfl, _⟩
                exact differs a.same_refl
              rw [List.find?_cons_of_neg differs, List.countP_cons_of_neg differs, first, count]
              exact or_iff_right later

theorem mem_repeated_iff :
    (a, n) ∈ repeated ids ↔ 1 < n ∧ ids.find? a.same = some a ∧ ids.countP a.same = n := by
  rw [repeated, List.mem_filter, mem_counts_iff, decide_eq_true_eq, and_comm]

/-- Where a hook is shown under one name only, its first mention is like all others. -/
theorem mem_repeated_iff_of_unique (unique : ∀ b ∈ ids, a.same b = true → b = a) :
    (a, n) ∈ repeated ids ↔ 1 < n ∧ ids.countP a.same = n := by
  rw [mem_repeated_iff]
  refine and_congr_right fun several => and_iff_right_of_imp fun count => ?_
  obtain ⟨b, mem, same⟩ := List.countP_pos_iff.1 (by omega : 0 < ids.countP a.same)
  cases found : ids.find? a.same with
  | none => exact absurd same (List.find?_eq_none.1 found b mem)
  | some c => rw [unique c (List.mem_of_find?_eq_some found) (List.find?_some found)]

end RequestFlow
