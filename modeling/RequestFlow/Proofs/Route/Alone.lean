import RequestFlow.Proofs.Route.Shapes

/-!
# Templates that are accepted alone

A tree takes a template with two parameters in one segment only if other templates have led it
astray. What is hung below an empty tree is looked at as a whole, so such a template keeps its
parameters apart (`Normalised.apart`).
-/

namespace RequestFlow.Route

/-! ### The first parameter of a normal form -/

/-- The first parameter of a normal form stands where it stands in the template. -/
theorem Normalised.first {count : Nat} {t u : Template} {names : List Bytes} {p : Param}
    (normal : Normalised count t u names) (first : firstParam u = .ok (some p)) :
    ∃ q, firstParam t = .ok (some q) ∧ q.before = p.before ∧ ∀ s ∈ p.written, s.is '/' = false := by
  cases normal with
  | text ends =>
      rw [ends] at first
      cases first
  | @rest _ _ after q _ own rest =>
      obtain ⟨literal, name, -⟩ := firstParam_eq_some_iff.1 own
      have read : firstParam (q.before ++ q.written ++ after) =
          .ok (some ⟨q.before, q.inside, after⟩) :=
        firstParam_eq_some_iff.2 ⟨literal, name, rfl⟩
      rw [read] at first
      cases first
      exact ⟨q, own, rfl, Tree.noSlash_of_isRest name rest⟩
  | @letter _ _ after q _ own plain letters =>
      obtain ⟨literal, -, -⟩ := firstParam_eq_some_iff.1 own
      have read : firstParam (q.before ++ Route.letter count ++ after) =
          .ok (some ⟨q.before, [letterName count], after⟩) :=
        firstParam_eq_some_iff.2 ⟨literal, isName_letter letters, rfl⟩
      rw [read] at first
      cases first
      exact ⟨q, own, rfl, noSlash_letter count letters⟩

/-- A segment that begins with a parameter has one. -/
theorem Tree.hasParam_cutSegment {p : Param} (name : IsName p.inside)
    (noSlash : ∀ s ∈ p.written, s.is '/' = false) (t : Template) :
    Tree.hasParam (Tree.cutSegment (p.written ++ t)).1 = true := by
  rw [Tree.cutSegment_of_no_slash noSlash, Tree.hasParam_written name]

/-- Where the normal form begins with a segment without parameters, the template does not begin with
a parameter. -/
theorem Normalised.literal_head {count : Nat} {t u : Template} {names : List Bytes}
    (normal : Normalised count t u names)
    (single : Tree.hasParam (Tree.cutSegment u).1 = false) : ∀ s ∈ t.head?, s.Literal := by
  have kept {q : Param} {v : Template} (own : firstParam t = .ok (some q))
      (param : Tree.hasParam (Tree.cutSegment v).1 = true)
      (single : Tree.hasParam (Tree.cutSegment (q.before ++ v)).1 = false) :
      ∀ s ∈ t.head?, s.Literal := by
    rcases before_cases own with ⟨before, -⟩ | ⟨s, front, -, head, literal⟩
    · rw [before, List.nil_append, param] at single
      cases single
    · rw [head]
      rintro _ ⟨rfl⟩
      exact literal
  cases normal with
  | text ends => exact fun s head => firstParam_eq_none_iff.1 ends s (List.mem_of_head? head)
  | rest own rest =>
      have name := (firstParam_eq_some_iff.1 own).2.1
      rw [List.append_assoc] at single
      exact kept own (Tree.hasParam_cutSegment name (Tree.noSlash_of_isRest name rest) _) single
  | letter own plain letters =>
      rw [List.append_assoc] at single
      have name : IsName [letterName count] := isName_letter letters
      exact kept own (Tree.hasParam_cutSegment (p := ⟨[], [letterName count], []⟩) name
        (noSlash_letter count letters) _) single

/-- Where no parameter follows, the marks behind a parameter did not move. -/
theorem gap_of_closeGap {n : Nat} {t : Template} (marked : ∀ s ∈ t, s.Marked)
    (literal : ∀ s ∈ (closeGap n t).head?, s.Literal) :
    ∀ s ∈ t.head?, s.opens = false ∧ (s.escaped = true → n < 2) := by
  cases t with
  | nil => exact nofun
  | cons s rest =>
      rintro _ ⟨rfl⟩
      rw [closeGap] at literal
      split at literal
      next moved =>
        obtain ⟨k, long⟩ : ∃ k, n - 1 = k + 1 := ⟨n - 2, by omega⟩
        rw [long, modifyAt] at literal
        obtain ⟨noOpening, noClosing⟩ := literal _ rfl
        have brace := marked s List.mem_cons_self moved.1
        simp_all [Symbol.opens, Symbol.closes, Symbol.is]
      next stays =>
        refine ⟨(literal s rfl).1, fun escaped => ?_⟩
        exact Nat.lt_of_not_le fun long => stays ⟨escaped, long⟩

/-! ### What is hung below a node as a whole -/

namespace Tree

variable {e : Entry} {n n' s : Tree} {p : Param} {t u v : Template}

/-- The end of a segment without parameters stands in front of the first one. -/
theorem before_cutSegment (literal : Literal u) (param : hasParam (cutSegment v).1 = true)
    (single : hasParam (cutSegment (u ++ v)).1 = false) :
    ∃ back, (∀ s ∈ back, s ∈ u) ∧ (cutSegment (u ++ v)).2 = back ++ v := by
  induction u with
  | nil =>
      rw [List.nil_append, param] at single
      cases single
  | cons s u ih =>
      obtain ⟨own, literal⟩ := literal_cons.1 literal
      rw [List.cons_append, cutSegment] at single ⊢
      split at single
      next slash =>
        rw [if_pos slash]
        exact ⟨u, fun _ mem => List.mem_cons_of_mem _ mem, rfl⟩
      next noSlash =>
        rw [if_neg noSlash]
        have deeper : hasParam (cutSegment (u ++ v)).1 = false :=
          Bool.eq_false_iff.2 fun has => by simp [hasParam_cons own has] at single
        obtain ⟨back, front, rest⟩ := ih literal deeper
        exact ⟨back, fun _ mem => List.mem_cons_of_mem _ (front _ mem), rest⟩

theorem wild_of_graft (ok : graft n e t = .ok n') (first : firstParam t = .ok (some p)) :
    ∃ w, Wild e p w := by
  rcases graft_ok ok with ⟨ends, -⟩ | ⟨q, w, own, node, -⟩
  · rw [ends] at first
    cases first
  · rw [own] at first
    cases first
    exact ⟨w, node⟩

/-- What stands behind a parameter without other parameters in its segment is hung below it. -/
theorem wild_of_suffixNode (noSlash : ∀ s ∈ p.written, s.is '/' = false)
    (single : hasParam (cutSegment t).1 = false)
    (ok : suffixNode (cutSegment t).1 e (cutSegment t).2 = .ok s)
    (first : firstParam t = .ok (some p)) : ∃ w, Wild e p w := by
  obtain ⟨before, inside, after⟩ := p
  obtain ⟨literal, name, rfl⟩ := firstParam_eq_some_iff.1 first
  simp only at literal name
  rw [List.append_assoc] at single ok
  obtain ⟨back, front, rest⟩ :=
    before_cutSegment literal (hasParam_cutSegment name noSlash _) single
  have first' :
      firstParam (cutSegment (before ++ (Param.written ⟨before, inside, after⟩ ++ after))).2 =
        .ok (some ⟨back, inside, after⟩) := by
    refine firstParam_eq_some_iff.2 ⟨fun s mem => literal s (front s mem), name, ?_⟩
    rw [rest, List.append_assoc]
    rfl
  have hung : ∃ w, Wild e ⟨back, inside, after⟩ w := by
    rcases suffixNode_ok ok with ⟨bare, -⟩ | ⟨_, _, grafted⟩ | ⟨_, _, _, _, _, grafted, -⟩
    · rw [bare] at first'
      cases first'
    · exact wild_of_graft grafted first'
    · exact wild_of_graft grafted first'
  obtain ⟨w, node⟩ := hung
  refine ⟨w, ?_⟩
  cases node with
  | rest rest ends => exact .rest rest ends
  | last plain ends => exact .last plain ends
  | suffixed plain goes single suffix => exact .suffixed plain goes single suffix

end Tree

theorem Normalised.apart {count : Nat} {t u : Template} {names : List Bytes} {e : Entry}
    (normal : Normalised count t u names) (marked : ∀ s ∈ t, s.Marked)
    (hung : ∀ p, firstParam u = .ok (some p) → ∃ w, Tree.Wild e p w) : Apart t := by
  induction normal with
  | text ends => exact .text ends
  | @rest _ t after p _ first isRest others =>
      obtain ⟨literal, name, -⟩ := firstParam_eq_some_iff.1 first
      obtain ⟨w, node⟩ := hung ⟨p.before, p.inside, after⟩
        (firstParam_eq_some_iff.2 ⟨literal, name, rfl⟩)
      have last : after = [] := by
        cases node with
        | rest _ ends => exact ends
        | last plain => exact absurd (isRest.symm.trans plain) (by decide)
        | suffixed plain => exact absurd (isRest.symm.trans plain) (by decide)
      obtain ⟨ends, -⟩ := (last ▸ others).of_nil
      exact .param first (by simp [ends]) (by rw [ends]; exact .text rfl)
  | @letter i t after p _ first plain letters others ih =>
      obtain ⟨literal, -, -⟩ := firstParam_eq_some_iff.1 first
      obtain ⟨w, node⟩ := hung ⟨p.before, [letterName i], after⟩
        (firstParam_eq_some_iff.2 ⟨literal, isName_letter letters, rfl⟩)
      have onward : Tree.hasParam (Tree.cutSegment after).1 = false ∧
          ∀ q, firstParam after = .ok (some q) → ∃ w, Tree.Wild e q w := by
        cases node with
        | rest rest => simp [Param.isRest, (letterName_plain i letters).2] at rest
        | last _ ends =>
            simp only at ends
            rw [ends]
            exact ⟨rfl, fun q own => by cases own⟩
        | suffixed _ _ single suffix =>
            refine ⟨single, fun q own => ?_⟩
            obtain ⟨-, -, -, noSlash⟩ := others.first own
            exact Tree.wild_of_suffixNode noSlash single suffix own
      have gap := gap_of_closeGap (marked_after first marked) (others.literal_head onward.1)
      rw [closeGap_eq_self fun s mem => (gap s mem).2] at ih
      exact .param first gap (ih (marked_after first marked) onward.2)

end RequestFlow.Route
