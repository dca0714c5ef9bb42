import RequestFlow.Run

/-!
# Steps and deadlines

Which deadlines cut a row of steps depends on two things only: how long the steps take, and whether
they yield once more when all of that time has passed (`Step.lingers`). A deadline behind the end
leaves the steps whole, one before the end cuts them, and one exactly at the end cuts them if they
linger (`Step.cut?_eq_none_iff`). So what is cut at one deadline behaves towards another one like
the steps it was cut from, if the other is earlier, and is left whole if it is not.

The second half puts steps in front of a run (`Marked.prepend`) and says how the operations on runs
go past them: whatever treats the end of a run leaves them alone, and a time limit either falls into
them or is shortened by the time that they take.
-/

namespace RequestFlow

namespace Step

variable {μ : Type} {left left' : Nat} {steps kept : List (Step μ)}

/-- Whether steps yield once more when all of their time has passed. -/
def lingers : List (Step μ) → Bool
  | [] => false
  | .yield :: rest => duration rest = 0 || lingers rest
  | .log _ :: rest => lingers rest
  | .sleep _ :: rest => lingers rest
  | .mark _ :: rest => lingers rest

/-- A deadline that lies `left` milliseconds ahead cuts steps down to others. -/
inductive Cut : Nat → List (Step μ) → List (Step μ) → Prop where
  | log {left : Nat} {rest kept : List (Step μ)} (e : Event) (cut : Cut left rest kept) :
      Cut left (.log e :: rest) (.log e :: kept)
  | mark {left : Nat} {rest kept : List (Step μ)} (m : μ) (cut : Cut left rest kept) :
      Cut left (.mark m :: rest) (.mark m :: kept)
  | sleep {left d : Nat} {rest kept : List (Step μ)} (fits : d ≤ left)
      (cut : Cut (left - d) rest kept) : Cut left (.sleep d :: rest) (.sleep d :: kept)
  | yield {left : Nat} {rest kept : List (Step μ)} (later : left ≠ 0)
      (cut : Cut left rest kept) : Cut left (.yield :: rest) (.yield :: kept)
  /-- The deadline falls into a sleep. -/
  | asleep {left d : Nat} (late : left < d) (rest : List (Step μ)) :
      Cut left (.sleep d :: rest) [.sleep left]
  /-- The deadline has come when the steps yield. -/
  | yielding (rest : List (Step μ)) : Cut 0 (.yield :: rest) []

theorem cut?_eq_some_iff : cut? left steps = some kept ↔ Cut left steps kept := by
  constructor
  · intro found
    induction steps generalizing left kept with
    | nil => cases found
    | cons step rest ih =>
        cases step with
        | log e =>
            obtain ⟨k, inner, rfl⟩ := Option.map_eq_some_iff.1 found
            exact .log e (ih inner)
        | mark m =>
            obtain ⟨k, inner, rfl⟩ := Option.map_eq_some_iff.1 found
            exact .mark m (ih inner)
        | sleep d =>
            rw [cut?] at found
            split at found
            next fits =>
              obtain ⟨k, inner, rfl⟩ := Option.map_eq_some_iff.1 found
              exact .sleep fits (ih inner)
            next late =>
              obtain rfl := Option.some.inj found
              exact .asleep (by omega) rest
        | yield =>
            rw [cut?] at found
            split at found
            next now =>
              obtain rfl := Option.some.inj found
              exact now ▸ .yielding rest
            next later =>
              obtain ⟨k, inner, rfl⟩ := Option.map_eq_some_iff.1 found
              exact .yield later (ih inner)
  · intro cut
    induction cut with
    | log e _ ih => rw [cut?, ih]; rfl
    | mark m _ ih => rw [cut?, ih]; rfl
    | sleep fits _ ih => rw [cut?, if_pos fits, ih]; rfl
    | yield later _ ih => rw [cut?, if_neg later, ih]; rfl
    | asleep late rest => rw [cut?, if_neg (by omega)]
    | yielding rest => rfl

/-- A deadline leaves steps whole if it is behind their end, or at their end and they do not
linger. -/
theorem cut?_eq_none_iff :
    cut? left steps = none ↔
      duration steps < left ∨ (duration steps = left ∧ lingers steps = false) := by
  induction steps generalizing left with
  | nil =>
      simp only [cut?, duration, lingers, and_true, true_iff]
      omega
  | cons step rest ih =>
      cases step with
      | log e => simp only [cut?, Option.map_eq_none_iff, ih, duration, lingers]
      | mark m => simp only [cut?, Option.map_eq_none_iff, ih, duration, lingers]
      | sleep d =>
          simp only [cut?, duration, lingers]
          split
          next fits =>
            rw [Option.map_eq_none_iff, ih]
            exact or_congr (by omega) (and_congr_left fun _ => by omega)
          next late =>
            simp only [reduceCtorEq, false_iff]
            rintro (before | ⟨at_end, _⟩) <;> omega
      | yield =>
          simp only [cut?, duration, lingers, Bool.or_eq_false_iff, decide_eq_false_iff_not]
          split
          next now =>
            simp only [reduceCtorEq, false_iff]
            rintro (before | ⟨at_end, waits, _⟩) <;> omega
          next later =>
            rw [Option.map_eq_none_iff, ih]
            exact or_congr_right (and_congr_right fun at_end => (and_iff_right (by omega)).symm)

/-- Steps that end in time for a deadline end in time for every later one. -/
theorem cut?_eq_none_of_le (whole : cut? left steps = none) (later : left ≤ left') :
    cut? left' steps = none := by
  rw [cut?_eq_none_iff] at whole ⊢
  rcases whole with before | ⟨at_end, still⟩
  · exact .inl (by omega)
  · by_cases same : left = left'
    · exact .inr ⟨at_end.trans same, still⟩
    · exact .inl (by omega)

namespace Cut

/-- What is cut at a deadline does not linger: its last yield comes before the deadline. -/
theorem lingers_eq (cut : Cut left steps kept) : lingers kept = false := by
  induction cut with
  | log e _ ih => exact ih
  | mark m _ ih => exact ih
  | sleep fits _ ih => exact ih
  | yield later cut ih =>
      simp only [lingers, Bool.or_eq_false_iff, decide_eq_false_iff_not,
        duration_cut? (cut?_eq_some_iff.2 cut)]
      exact ⟨later, ih⟩
  | asleep late rest => rfl
  | yielding rest => rfl

/-- What is cut at a deadline ends in time for that one and for every later one. -/
theorem cut?_of_le (cut : Cut left steps kept) (later : left ≤ left') : cut? left' kept = none := by
  have here : cut? left kept = none :=
    cut?_eq_none_iff.2 (.inr ⟨duration_cut? (cut?_eq_some_iff.2 cut), cut.lingers_eq⟩)
  exact cut?_eq_none_of_le here later

/-- An earlier deadline cuts what is cut at a later one where it would cut all of it. -/
theorem cut?_of_lt (cut : Cut left steps kept) (earlier : left' < left) :
    cut? left' kept = cut? left' steps := by
  -- Up to the earlier deadline both rows are the same; it falls before the place where they part.
  induction cut generalizing left' with
  | log e _ ih => simp only [cut?, ih earlier]
  | mark m _ ih => simp only [cut?, ih earlier]
  | @sleep left d rest kept fits _ ih =>
      simp only [cut?]
      by_cases inside : d ≤ left'
      · rw [if_pos inside, if_pos inside, ih (by omega)]
      · rw [if_neg inside, if_neg inside]
  | yield later _ ih => simp only [cut?, ih earlier]
  | asleep late rest =>
      simp only [cut?]
      rw [if_neg (by omega), if_neg (by omega)]
  | yielding rest => omega

end Cut

theorem lingers_append (steps steps' : List (Step μ)) :
    lingers (steps ++ steps') = (lingers steps && duration steps' = 0 || lingers steps') := by
  induction steps with
  | nil => simp [lingers]
  | cons step rest ih =>
      cases step with
      | yield =>
          simp only [List.cons_append, lingers, ih, duration_append]
          by_cases rest_zero : duration rest = 0 <;> by_cases zero : duration steps' = 0 <;>
            simp [rest_zero, zero]
      | _ => exact ih

end Step

/-- No deadline falls into reports. -/
theorem Run.cut?_reports {μ : Type} (left : Nat) (ns : List Notice) :
    Step.cut? left (Run.reports ns : List (Step μ)) = none := by
  induction ns with
  | nil => rfl
  | cons n rest ih => exact Option.map_eq_none_iff.2 ih

namespace Marked

variable {μ α β : Type}

def prepend (steps : List (Step μ)) (r : Marked μ α) : Marked μ α := ⟨steps ++ r.steps, r.ending⟩

section

variable (front steps : List (Step μ)) (r : Marked μ α)

theorem prepend_append : prepend (front ++ steps) r = prepend front (prepend steps r) := by
  simp only [prepend, List.append_assoc]

theorem events_prepend : (prepend steps r).events = steps.filterMap Step.event? ++ r.events :=
  List.filterMap_append

theorem elapsed_prepend : (prepend steps r).elapsed = Step.duration steps + r.elapsed :=
  Step.duration_append _ _

/-- What follows a run treats its end, so the steps in front stay in front. -/
theorem bind_prepend (f : α → Marked μ β) : prepend steps r >>= f = prepend steps (r >>= f) := by
  cases ends : r.ending with
  | ok a =>
      rw [bind_ok (r := prepend steps r) ends, bind_ok ends]
      simp only [prepend, List.append_assoc]
  | error p =>
      rw [bind_error (r := prepend steps r) ends, bind_error ends]
      rfl

theorem within_prepend (s : Span) :
    (prepend steps r).within s = prepend (steps.map (Step.inside [s])) (r.within s) := by
  simp only [prepend, within, List.map_append]

theorem rescue_prepend (recover : Panic → Marked μ α) :
    (prepend steps r).rescue recover = prepend steps (r.rescue recover) := by
  cases ends : r.ending <;> simp only [rescue, prepend, ends, List.append_assoc]

end

section

variable {left : Nat} {steps kept : List (Step μ)} {r expired : Marked μ α}

/-- A time limit that does not fall into the steps in front is shortened by their time. -/
theorem limit_prepend (whole : Step.cut? left steps = none) :
    limit left (prepend steps r) expired =
      prepend steps (limit (left - Step.duration steps) r expired) := by
  simp only [limit, prepend, Step.cut?_append, whole]
  cases Step.cut? (left - Step.duration steps) r.steps <;>
    simp only [Option.map_none, Option.map_some, List.append_assoc]

/-- A time limit that falls into the steps in front drops what is behind them. -/
theorem limit_prepend_of_cut (cut : Step.cut? left steps = some kept) :
    limit left (prepend steps r) expired = prepend kept expired := by
  simp only [limit, prepend, Step.cut?_append, cut]

end

end Marked

end RequestFlow
