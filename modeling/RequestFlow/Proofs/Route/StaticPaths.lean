import RequestFlow.Proofs.Route.Search

/-!
# Paths without parameters

Where static branches lead is decided by their first symbols alone: below every node of text, no two
branches begin alike, and what begins with a brace is a parameter (`Tree.Regular`). Adding a
template keeps that up. So a path that is spelled out in the tree is led through the branches that
spell it and never comes to a parameter (`Tree.find?_of_holds`).
-/

namespace RequestFlow.Route.Tree

/-! ### Matching text -/

/-- Of branches that begin with different bytes, the one is found that begins as the path does. -/
theorem findBranch?_of_mem {branches : List Tree} {n : Tree} {b : UInt8} {path : Bytes}
    (distinct : branches.Pairwise fun c d => (raw c.label).head? ≠ (raw d.label).head?)
    (mem : n ∈ branches) (begins : (raw n.label).head? = some b) :
    findBranch? branches b path = n.find? path := by
  induction branches with
  | nil => cases mem
  | cons c others ih =>
      obtain ⟨apart, distinct⟩ := List.pairwise_cons.1 distinct
      rw [findBranch?]
      rcases List.mem_cons.1 mem with rfl | mem
      · rw [if_pos begins]
      · have other : (raw c.label).head? ≠ some b :=
          fun same => apart n mem (same.trans begins.symm)
        rw [if_neg other, ih distinct mem]

/-! ### Nodes of text -/

/-- A node of text: its branches begin differently and its parameter begins with a brace. -/
inductive Regular : Tree → Prop
  | node {label : Template} {weight : Nat} {branches : List Tree} {wild : Option Tree}
      {entry : Option Entry} (text : IsText label) (below : ∀ b ∈ branches, Regular b)
      (named : ∀ b ∈ branches, b.label ≠ [])
      (distinct : (branches.map fun b => b.label.head?).Nodup)
      (param : ∀ w, wild = some w → w.label.head? = some (.plain '{')) :
      Regular ⟨label, .static, weight, branches, wild, entry⟩

section Single

variable {label : Template} {weight : Nat} {entry : Option Entry}

theorem Regular.ofText (text : IsText label) :
    Regular ⟨label, .static, weight, [], none, entry⟩ :=
  .node text nofun nofun .nil nofun

theorem Regular.ofParam {w : Tree} (text : IsText label)
    (opens : w.label.head? = some (.plain '{')) :
    Regular ⟨label, .static, weight, [], some w, entry⟩ := by
  refine .node text nofun nofun .nil ?_
  rintro _ ⟨rfl⟩
  exact opens

end Single

theorem Regular.text {n : Tree} (regular : n.Regular) : IsText n.label := by
  cases regular with
  | node text => exact text

theorem Regular.kind_eq {n : Tree} (regular : n.Regular) : n.kind = .static := by
  cases regular
  rfl

/-- Text that a tree holds is found there. -/
theorem find?_of_holds {n : Tree} {e : Entry} {u : Template} (regular : n.Regular)
    (holds : n.Holds u e) (text : IsText u) : n.find? (raw u) = some ⟨e, [], none⟩ := by
  induction holds with
  | @entry n e ends =>
      obtain ⟨label, kind, weight, branches, wild, entry⟩ := n
      simp only at ends
      have stripped := strip?_append (raw label) []
      rw [List.append_nil] at stripped
      rw [find?, ends, stripped]
      rfl
  | @branch n b t e mem held ih =>
      obtain @⟨label, weight, branches, wild, entry, own, below, named, distinct, -⟩ := regular
      have found := ih (below b mem) (isText_append.1 text).2
      obtain ⟨v, rfl, -⟩ := Tree.holds_iff.1 held
      have distinct : branches.Pairwise fun c d => (raw c.label).head? ≠ (raw d.label).head? :=
        (List.pairwise_map.1 distinct).imp_of_mem fun {c d} hc hd apart same =>
          apart (head?_eq_of_raw (below c hc).text (below d hd).text same)
      cases begins : b.label with
      | nil => exact absurd begins (named b mem)
      | cons s rest =>
          have first : (raw b.label).head? = some s.byte := by rw [begins]; rfl
          have led : findBranch? branches s.byte (raw (b.label ++ v)) = _ :=
            findBranch?_of_mem distinct mem first
          rw [found, begins] at led
          rw [find?, raw_append, strip?_append, List.cons_append, raw_cons]
          rw [List.cons_append, raw_cons] at led
          simp only [led]
          rfl
  | @wild n w t e is held ih =>
      obtain ⟨-, -, -, -, param⟩ := regular
      obtain ⟨v, rfl, -⟩ := Tree.holds_iff.1 held
      have opens := param w is
      cases begins : w.label with
      | nil => rw [begins] at opens; cases opens
      | cons s rest =>
          rw [begins] at opens text
          obtain rfl := Option.some.inj opens
          exact absurd (text (.plain '{') (by simp)) (by decide)

/-! ### Adding a template -/

theorem Regular.reweigh {label : Template} {kind : Kind} {weight weight' : Nat}
    {branches : List Tree} {wild : Option Tree} {entry entry' : Option Entry}
    (regular : Regular ⟨label, kind, weight, branches, wild, entry⟩) :
    Regular ⟨label, kind, weight', branches, wild, entry'⟩ := by
  obtain ⟨text, below, named, distinct, param⟩ := regular
  exact .node text below named distinct param

section Growth

variable {e : Entry} {n n' : Tree} {t left u : Template}

theorem Wild.head?_label {p : Param} {w : Tree} (node : Wild e p w) :
    w.label.head? = some (.plain '{') := by
  rw [node.label_eq]
  rfl

/-- What is hung below a node as a branch is regular, and begins as the template does. -/
theorem regular_graft {s : Symbol} {b : Tree} (led : Led (s :: t)) (text : s.IsText)
    (ok : graft (leaf [] .static none) e (s :: t) = .ok b) :
    b.Regular ∧ b.label.head? = some s := by
  rcases graft_leaf ok with ⟨literal, rfl⟩ | ⟨p, w, first, node, rfl⟩
  · exact ⟨.ofText (led.isText literal), rfl⟩
  · refine ⟨.ofParam (led.before first) node.head?_label, ?_⟩
    rcases before_cases first with ⟨-, head⟩ | ⟨r, front, before, head, -⟩
    · obtain rfl := Option.some.inj head
      exact absurd text (by decide)
    · rw [leaf, before, List.head?_cons, ← head, List.head?_cons]

theorem Sprouts.regular (sprouts : n.Sprouts e left n') (led : Led left) (regular : n.Regular) :
    n'.Regular := by
  obtain ⟨label, kind, weight, branches, wild, entry⟩ := n
  cases sprouts with
  | entry free => exact regular.reweigh
  | suffix param =>
      cases regular
      cases param
  | @wild w p _ above free first front node =>
      obtain ⟨text, below, named, distinct, -⟩ := regular
      refine .node text below named distinct ?_
      rintro _ ⟨rfl⟩
      exact node.head?_label
  | @static b next rest above noOpening new node =>
      obtain ⟨text, below, named, distinct, param⟩ := regular
      have next_text := led.head noOpening
      obtain ⟨own, begins⟩ := regular_graft led next_text node
      refine .node text ?_ ?_ ?_ param
      · simp only [List.mem_append, List.mem_singleton]
        rintro c (mem | rfl)
        · exact below c mem
        · exact own
      · simp only [List.mem_append, List.mem_singleton]
        rintro c (mem | rfl) unnamed
        · exact named c mem unnamed
        · rw [unnamed] at begins
          cases begins
      · rw [List.map_append, List.map_singleton, begins, List.nodup_append]
        refine ⟨distinct, List.pairwise_singleton _ _, ?_⟩
        simp only [List.mem_map, List.mem_singleton]
        rintro _ ⟨c, mem, rfl⟩ _ rfl
        exact new next_text.literal.2 c mem

theorem Grows.regular (grows : n.Grows e t n') (led : Led t) (regular : n.Regular) :
    n'.Regular := by
  induction grows with
  | stop rest => exact rest.regular (led.of_append regular.text) regular.reweigh
  | divide partly differs rest =>
      obtain ⟨text, below, named, distinct, param⟩ := regular
      obtain ⟨front, back⟩ := isText_append.1 text
      refine rest.regular (led.of_append front) ?_
      refine .node front ?_ ?_ (List.pairwise_singleton _ _) fun _ absent => by cases absent
      · exact List.forall_mem_singleton.2 (.node back below named distinct param)
      · exact List.forall_mem_singleton.2 partly
  | @branch label left _ _ _ b b' front back branches' _ _ _ enters grows same ih =>
      obtain ⟨text, below, named, distinct, param⟩ := regular
      have own := below b (by simp)
      -- The branch was entered because it begins as the rest of the template does, so it keeps its
      -- first symbol.
      have head : b.label.head? = b'.label.head? := by
        obtain ⟨s, first, accepted⟩ := enters (by decide)
        simp only [accepts, Bool.and_eq_true, decide_eq_true_eq, Bool.not_eq_true'] at accepted
        obtain ⟨⟨byte, noOpening⟩, -⟩ := accepted
        have next : s.IsText := by
          cases left with
          | nil => cases first
          | cons r rest =>
              obtain rfl := Option.some.inj first
              exact (led.of_append text).head noOpening
        have begins : b.label.head? = some s :=
          head?_eq_of_raw (u := [s]) own.text (by simpa [IsText] using next) byte
        rw [begins, grows.head?_label begins first]
      refine .node text (forall_mem_grown same below (ih (led.of_append text) own))
        (forall_mem_grown same named fun unnamed => ?_) ?_ param
      · rw [unnamed, List.head?_nil, List.head?_eq_none_iff] at head
        exact named b (by simp) head
      · rw [(same.map _).nodup_iff]
        simpa [head] using distinct
  | @wild label left _ _ _ w w' _ _ above _ opens _ grows ih =>
      obtain ⟨text, below, named, distinct, param⟩ := regular
      refine .node text below named distinct ?_
      rintro _ ⟨rfl⟩
      obtain ⟨t, rfl⟩ := opens
      exact grows.head?_label (param w rfl) rfl

end Growth

end RequestFlow.Route.Tree
