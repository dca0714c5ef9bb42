import RequestFlow.Proofs.Route.Contents

/-!
# Where look-up finds its entries

Look-up strips a label off the path and goes on with a branch or with a parameter, which may take
off a value first. Whatever it finds in the end is the entry of a template that the tree holds,
however the tree has come about (`Tree.holds_of_find?`).
-/

namespace RequestFlow.Route.Tree

@[simp] theorem strip?_append (label path : Bytes) : strip? label (label ++ path) = some path := by
  induction label with
  | nil => rfl
  | cons b label ih => rw [List.cons_append, strip?, if_pos rfl, ih]

theorem strip?_eq_some {label path left : Bytes} (stripped : strip? label path = some left) :
    path = label ++ left := by
  induction label generalizing path with
  | nil => exact Option.some.inj stripped
  | cons b label ih =>
      cases path with
      | nil => cases stripped
      | cons c path =>
          rw [strip?] at stripped
          split at stripped
          next same => rw [same, ih stripped, List.cons_append]
          next => cases stripped

theorem mem_of_findBranch? {branches : List Tree} {b : UInt8} {path : Bytes} {m : Match}
    (found : findBranch? branches b path = some m) : ∃ n ∈ branches, n.find? path = some m := by
  induction branches with
  | nil => cases found
  | cons n others ih =>
      rw [findBranch?] at found
      split at found
      · exact ⟨n, List.mem_cons_self, found⟩
      · obtain ⟨c, mem, found⟩ := ih found
        exact ⟨c, List.mem_cons_of_mem _ mem, found⟩

/-- A segment without a suffix of it, and the path from the suffix on. -/
theorem mem_of_findSuffix? {branches : List Tree} {segment path : Bytes} {r : Option Match}
    (found : findSuffix? branches segment path = some r) :
    ∃ n ∈ branches, (raw n.label).length < segment.length ∧
      r = (n.find? (path.drop (segment.length - (raw n.label).length))).map
        (Match.cons (segment.take (segment.length - (raw n.label).length))) := by
  induction branches with
  | nil => cases found
  | cons n others ih =>
      simp only [findSuffix?] at found
      split at found
      next fits =>
        have length : (segment.take (segment.length - (raw n.label).length)).length =
            segment.length - (raw n.label).length := by
          rw [List.length_take]
          omega
        rw [length] at found
        exact ⟨n, List.mem_cons_self, fits.1, (Option.some.inj found).symm⟩
      next =>
        obtain ⟨c, mem, shorter, same⟩ := ih found
        exact ⟨c, List.mem_cons_of_mem _ mem, shorter, same⟩

/-- A path ends with the label of a node, or leads on from there into a branch or the parameter. -/
theorem find?_cases {n : Tree} {path : Bytes} {m : Match} (found : n.find? path = some m) :
    (∃ e, path = raw n.label ∧ n.entry = some e ∧ m = ⟨e, [], none⟩) ∨
    ∃ path', path = raw n.label ++ path' ∧ path' ≠ [] ∧
      ((∃ b ∈ n.branches, b.find? path' = some m) ∨
        ∃ w, n.wild = some w ∧ findWild? w path' = some m) := by
  obtain ⟨label, kind, weight, branches, wild, entry⟩ := n
  rw [find?] at found
  split at found
  · cases found
  next stripped =>
    obtain ⟨e, rfl, rfl⟩ := Option.map_eq_some_iff.1 found
    rw [strip?_eq_some stripped, List.append_nil]
    exact .inl ⟨e, rfl, rfl, rfl⟩
  next c rest stripped =>
    refine .inr ⟨c :: rest, strip?_eq_some stripped, List.cons_ne_nil _ _, ?_⟩
    cases branch : findBranch? branches c (c :: rest) with
    | some m' =>
        rw [branch] at found
        obtain rfl : m' = m := Option.some.inj found
        exact .inl (mem_of_findBranch? branch)
    | none =>
        rw [branch, Option.orElse_none] at found
        cases wild with
        | none => cases found
        | some w => exact .inr ⟨w, rfl, found⟩

/-- A parameter takes the rest of the path, a segment without a suffix, or the last segment. -/
theorem findWild?_cases {n : Tree} {path : Bytes} {m : Match} (found : findWild? n path = some m) :
    (n.kind = .rest ∧ ∃ e, n.entry = some e ∧ m = ⟨e, [], some (restName n.label, path)⟩) ∨
    (n.kind ≠ .rest ∧ ∃ b ∈ n.branches, ∃ k m', (raw b.label).length + k = (segment path).length ∧
      0 < k ∧ b.find? (path.drop k) = some m' ∧ m = m'.cons ((segment path).take k)) ∨
    n.kind ≠ .rest ∧ 0x2f ∉ path ∧ ∃ e, n.entry = some e ∧ m = ⟨e, [path], none⟩ := by
  obtain ⟨label, kind, weight, branches, wild, entry⟩ := n
  rw [findWild?] at found
  split at found
  next rest =>
    obtain ⟨e, rfl, rfl⟩ := Option.map_eq_some_iff.1 found
    exact .inl ⟨rest, e, rfl, rfl⟩
  next plain =>
    refine .inr ?_
    split at found
    · cases found
    · split at found
      next suffixed =>
        rw [found] at suffixed
        obtain ⟨b, mem, shorter, same⟩ := mem_of_findSuffix? suffixed
        obtain ⟨m', found', rfl⟩ := Option.map_eq_some_iff.1 same.symm
        exact .inl ⟨plain, b, mem, _, m', by omega, by omega, found', rfl⟩
      next =>
        split at found
        · cases found
        next last =>
          obtain ⟨e, rfl, rfl⟩ := Option.map_eq_some_iff.1 found
          exact .inr ⟨plain, by simpa using last, e, rfl, rfl⟩

/-- What is found is held. -/
theorem holds_of_find? (n : Tree) {path : Bytes} {m : Match} :
    (n.find? path = some m → ∃ t, n.Holds t m.entry) ∧
      (findWild? n path = some m → ∃ t, n.Holds t m.entry) := by
  induction n using Tree.induction generalizing path m with
  | step n below belowWild =>
      constructor
      · intro found
        rcases find?_cases found with
          ⟨e, -, ends, rfl⟩ | ⟨path', -, -, ⟨b, mem, found⟩ | ⟨w, is, found⟩⟩
        · exact ⟨_, .entry ends⟩
        · obtain ⟨t, holds⟩ := (below b mem).1 found
          exact ⟨_, .branch mem holds⟩
        · obtain ⟨t, holds⟩ := (belowWild w is).2 found
          exact ⟨_, .wild is holds⟩
      · intro found
        rcases findWild?_cases found with
          ⟨-, e, ends, rfl⟩ | ⟨-, b, mem, k, m', -, -, found', rfl⟩ | ⟨-, -, e, ends, rfl⟩
        · exact ⟨_, .entry ends⟩
        · obtain ⟨t, holds⟩ := (below b mem).1 found'
          exact ⟨_, .branch mem holds⟩
        · exact ⟨_, .entry ends⟩

end RequestFlow.Route.Tree
