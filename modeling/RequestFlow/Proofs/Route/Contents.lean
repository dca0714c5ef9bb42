import RequestFlow.Proofs.Route.Reading

/-!
# What a tree holds

A tree holds the templates that its labels make up, each with the entry at its end (`Tree.Holds`).
`Tree.Grows` says in which ways a template can come into a tree: it is led through labels that agree
with it, a label that agrees in part is divided, and what is left of the template sprouts from the
node that is reached. What the tree held before it still holds, and the new template is the only one
that is added (`Tree.Grows.holds_iff`).

Weights, the order of branches and the search for conflicts have no part in this.
-/

namespace RequestFlow.Route.Tree

/-- A property holds of every tree if it is passed on from what hangs below a node to the node. -/
theorem induction {P : Tree → Prop} (step : ∀ n : Tree, (∀ b ∈ n.branches, P b) →
    (∀ w, n.wild = some w → P w) → P n) (n : Tree) : P n := by
  induction h : sizeOf n using Nat.strongRecOn generalizing n with
  | ind size ih =>
      obtain ⟨label, kind, weight, branches, wild, entry⟩ := n
      refine step _ (fun b mem => ?_) fun w below => ?_
      · have smaller := List.sizeOf_lt_of_mem mem
        refine ih _ ?_ b rfl
        rw [← h, mk.sizeOf_spec]
        simp only at smaller
        omega
      · simp only at below
        subst below
        refine ih _ ?_ w rfl
        rw [← h, mk.sizeOf_spec, Option.some.sizeOf_spec]
        omega

/-! ### Templates in a tree -/

/-- `n.Holds t e`: from `n` on, the labels down to the entry `e` make up the template `t`. -/
inductive Holds : Tree → Template → Entry → Prop
  | entry {n : Tree} {e : Entry} (ends : n.entry = some e) : Holds n n.label e
  | branch {n b : Tree} {t : Template} {e : Entry} (mem : b ∈ n.branches) (below : Holds b t e) :
      Holds n (n.label ++ t) e
  | wild {n w : Tree} {t : Template} {e : Entry} (is : n.wild = some w) (below : Holds w t e) :
      Holds n (n.label ++ t) e

/-- What a node holds, without its label. -/
def Below (n : Tree) (t : Template) (e : Entry) : Prop :=
  (t = [] ∧ n.entry = some e) ∨ (∃ b ∈ n.branches, b.Holds t e) ∨ ∃ w, n.wild = some w ∧ w.Holds t e

theorem holds_iff {n : Tree} {u : Template} {e : Entry} :
    n.Holds u e ↔ ∃ t, u = n.label ++ t ∧ n.Below t e := by
  constructor
  · intro holds
    cases holds with
    | entry ends => exact ⟨[], (List.append_nil _).symm, .inl ⟨rfl, ends⟩⟩
    | branch mem below => exact ⟨_, rfl, .inr (.inl ⟨_, mem, below⟩)⟩
    | wild is below => exact ⟨_, rfl, .inr (.inr ⟨_, is, below⟩)⟩
  · rintro ⟨t, rfl, ⟨rfl, ends⟩ | ⟨b, mem, below⟩ | ⟨w, is, below⟩⟩
    · rw [List.append_nil]
      exact .entry ends
    · exact .branch mem below
    · exact .wild is below

/-- Nodes of one label hold the same if they do so below. -/
theorem holds_iff_of_below {n n' : Tree} {t u : Template} {e x : Entry} (label : n'.label = n.label)
    (below : ∀ v, n'.Below v x ↔ n.Below v x ∨ v = t ∧ x = e) :
    n'.Holds u x ↔ n.Holds u x ∨ u = n.label ++ t ∧ x = e := by
  rw [holds_iff, holds_iff, label]
  constructor
  · rintro ⟨v, rfl, held⟩
    rcases (below v).1 held with old | ⟨rfl, rfl⟩
    · exact .inl ⟨v, rfl, old⟩
    · exact .inr ⟨rfl, rfl⟩
  · rintro (⟨v, rfl, old⟩ | ⟨rfl, rfl⟩)
    · exact ⟨v, rfl, (below v).2 (.inl old)⟩
    · exact ⟨t, rfl, (below t).2 (.inr ⟨rfl, rfl⟩)⟩

theorem holds_of_below {n : Tree} {t u : Template} {e x : Entry}
    (below : ∀ v, n.Below v x ↔ v = t ∧ x = e) : n.Holds u x ↔ u = n.label ++ t ∧ x = e := by
  simp only [holds_iff, below]
  constructor
  · rintro ⟨_, rfl, rfl, rfl⟩
    exact ⟨rfl, rfl⟩
  · rintro ⟨rfl, rfl⟩
    exact ⟨t, rfl, rfl, rfl⟩

theorem holds_leaf {label u : Template} {kind : Kind} {e x : Entry} :
    (leaf label kind (some e)).Holds u x ↔ u = label ∧ x = e := by
  have holds := holds_of_below (n := leaf label kind (some e)) (t := []) (u := u) (e := e) (x := x)
    fun v => by simp [Below, leaf, eq_comm]
  rwa [List.append_nil] at holds

/-! ### Hanging the rest of a template below a node -/

theorem cutSegment_append (t : Template) : (cutSegment t).1 ++ (cutSegment t).2 = t := by
  induction t with
  | nil => rfl
  | cons s rest ih =>
      rw [cutSegment]
      split
      · rfl
      · exact congrArg (s :: ·) ih

theorem cutSegment_eq_nil {t : Template} (ends : (cutSegment t).1 = []) : t = [] := by
  cases t with
  | nil => rfl
  | cons s rest =>
      rw [cutSegment] at ends
      split at ends <;> cases ends

/-- The nodes that come to stand for the first parameter of what is hung below a node. -/
inductive Wild (e : Entry) (p : Param) : Tree → Prop
  | rest (rest : p.isRest = true) (ends : p.after = []) : Wild e p (leaf p.written .rest (some e))
  | last (plain : p.isRest = false) (ends : p.after = []) :
      Wild e p (leaf p.written .param (some e))
  | suffixed {s : Tree} (plain : p.isRest = false) (goes : p.after ≠ [])
      (single : hasParam (cutSegment p.after).1 = false)
      (suffix : suffixNode (cutSegment p.after).1 e (cutSegment p.after).2 = .ok s) :
      Wild e p { leaf p.written .param none with branches := [s] }

/-- Either the whole is text, or the node gets a parameter and the text in front as its label. -/
theorem graft_ok {n n' : Tree} {e : Entry} {t : Template} (ok : graft n e t = .ok n') :
    (firstParam t = .ok none ∧ n' = { n with label := t, entry := some e }) ∨
      ∃ p w, firstParam t = .ok (some p) ∧ Wild e p w ∧
        n' =
          { n with label := if p.before.isEmpty then n.label else p.before, wild := some w } := by
  rw [graft] at ok
  split at ok
  · cases ok
  next ends => exact .inl ⟨ends, (Except.ok.inj ok).symm⟩
  next p first =>
    refine .inr ⟨p, ?_⟩
    have named : (if p.before.isEmpty then n else { n with label := p.before }) =
        { n with label := if p.before.isEmpty then n.label else p.before } := by
      cases n
      split <;> rfl
    simp only [named] at ok
    split at ok
    next rest =>
      split at ok
      next ends =>
        rw [List.isEmpty_iff] at ends
        exact ⟨_, first, .rest rest ends, (Except.ok.inj ok).symm⟩
      · cases ok
    next plain =>
      rw [Bool.not_eq_true] at plain
      split at ok
      · cases ok
      next single =>
        rw [Bool.not_eq_true] at single
        split at ok
        next ends =>
          rw [List.isEmpty_iff] at ends
          exact ⟨_, first, .last plain (cutSegment_eq_nil ends), (Except.ok.inj ok).symm⟩
        next goes =>
          have goes : p.after ≠ [] := fun ends => goes (by rw [ends]; rfl)
          split at ok
          · cases ok
          next s suffix =>
            exact ⟨_, first, .suffixed plain goes single suffix, (Except.ok.inj ok).symm⟩

theorem graft_leaf {n : Tree} {e : Entry} {t : Template}
    (ok : graft (leaf [] .static none) e t = .ok n) :
    (Literal t ∧ n = leaf t .static (some e)) ∨
      ∃ p w, firstParam t = .ok (some p) ∧ Wild e p w ∧
        n = { leaf p.before .static none with wild := some w } := by
  refine (graft_ok ok).imp (And.imp_left firstParam_eq_none_iff.1) ?_
  rintro ⟨p, w, first, node, rfl⟩
  refine ⟨p, w, first, node, ?_⟩
  cases before : p.before <;> rfl

/-- A parameter that comes first is hung below the node, and the label stays. -/
theorem graft_param {n n' : Tree} {e : Entry} {t : Template}
    (ok : graft n e (.plain '{' :: t) = .ok n') :
    ∃ p w, p.before = [] ∧ .plain '{' :: t = p.written ++ p.after ∧
      firstParam (.plain '{' :: t) = .ok (some p) ∧ Wild e p w ∧
        n' = { n with wild := some w } := by
  rcases graft_ok ok with ⟨ends, -⟩ | ⟨p, w, first, node, rfl⟩
  · exact absurd (firstParam_eq_none_iff.1 ends _ List.mem_cons_self) (by decide)
  · obtain ⟨-, -, whole⟩ := firstParam_eq_some_iff.1 first
    have front : p.before = [] := by
      rcases before_cases first with ⟨before, -⟩ | ⟨s, u, -, head, literal⟩
      · exact before
      · obtain rfl := Option.some.inj head
        exact absurd literal (by decide)
    rw [front, List.nil_append] at whole
    exact ⟨p, w, front, whole, first, node, by rw [front]; rfl⟩

/-- Behind a suffix comes nothing, a parameter or a branch with text. -/
theorem suffixNode_ok {s : Tree} {e : Entry} {suffix rest : Template}
    (ok : suffixNode suffix e rest = .ok s) :
    (rest = [] ∧ s = leaf suffix .static (some e)) ∨
      (∃ t, rest = .plain '{' :: t ∧ graft (leaf suffix .static none) e rest = .ok s) ∨
      ∃ next t b, rest = next :: t ∧ next.opens = false ∧
        graft (leaf [] .static none) e rest = .ok b ∧
        s = { leaf suffix .static none with branches := [b] } := by
  cases rest with
  | nil =>
      rw [suffixNode] at ok
      exact .inl ⟨rfl, (Except.ok.inj ok).symm⟩
  | cons next t =>
      rw [suffixNode] at ok
      split at ok
      next opens =>
        rw [Symbol.opens_iff.1 opens] at ok ⊢
        exact .inr (.inl ⟨t, rfl, ok⟩)
      next text =>
        rw [Bool.not_eq_true] at text
        split at ok
        · cases ok
        next b grafted =>
          exact .inr (.inr ⟨next, t, b, rfl, text, grafted, (Except.ok.inj ok).symm⟩)

theorem Wild.label_eq {e : Entry} {p : Param} {w : Tree} (node : Wild e p w) :
    w.label = p.written := by
  cases node <;> rfl

section Single

variable {e x : Entry} {p : Param} {n s w : Tree} {kind : Kind} {label t suffix rest u : Template}

theorem holds_branch (below : ∀ v, s.Holds v x ↔ v = t ∧ x = e) :
    Holds { leaf label kind none with branches := [s] } u x ↔ u = label ++ t ∧ x = e := by
  refine holds_of_below fun v => ?_
  rw [← below]
  simp [Below, leaf]

theorem holds_wild (below : ∀ v, w.Holds v x ↔ v = t ∧ x = e) :
    Holds { leaf label .static none with wild := some w } u x ↔ u = label ++ t ∧ x = e := by
  refine holds_of_below fun v => ?_
  rw [← below]
  simp [Below, leaf]

theorem holds_graft_of_wild
    (wild : ∀ {p w}, p.after.length < t.length → Wild e p w →
      ∀ v, w.Holds v x ↔ v = p.written ++ p.after ∧ x = e)
    (ok : graft (leaf [] .static none) e t = .ok n) : n.Holds u x ↔ u = t ∧ x = e := by
  rcases graft_leaf ok with ⟨-, rfl⟩ | ⟨p, w, first, node, rfl⟩
  · exact holds_leaf
  · obtain ⟨-, -, whole⟩ := firstParam_eq_some_iff.1 first
    rw [holds_wild (wild (firstParam_length first) node), ← List.append_assoc, ← whole]

theorem holds_suffixNode_of_wild
    (wild : ∀ {p w}, p.after.length < rest.length → Wild e p w →
      ∀ v, w.Holds v x ↔ v = p.written ++ p.after ∧ x = e)
    (ok : suffixNode suffix e rest = .ok s) : s.Holds u x ↔ u = suffix ++ rest ∧ x = e := by
  rcases suffixNode_ok ok with ⟨rfl, rfl⟩ | ⟨t, rfl, ok⟩ | ⟨next, t, b, rfl, -, grafted, rfl⟩
  · rw [List.append_nil]
    exact holds_leaf
  · obtain ⟨p, w, -, whole, first, node, rfl⟩ := graft_param ok
    rw [whole]
    exact holds_wild (wild (firstParam_length first) node)
  · exact holds_branch fun v => holds_graft_of_wild wild grafted

/-- The node of a parameter holds one template. -/
theorem Wild.holds_iff (node : Wild e p w) : w.Holds u x ↔ u = p.written ++ p.after ∧ x = e := by
  induction h : p.after.length using Nat.strongRecOn generalizing p w u with
  | ind length ih =>
      cases node with
      | rest _ ends =>
          rw [ends, List.append_nil]
          exact holds_leaf
      | last _ ends =>
          rw [ends, List.append_nil]
          exact holds_leaf
      | @suffixed s _ goes _ suffix =>
          have cut := cutSegment_append p.after
          have shorter : (cutSegment p.after).2.length ≤ p.after.length := length_cutSegment _
          refine holds_branch fun v => ?_
          rw [holds_suffixNode_of_wild (fun lt node v => ih _ (by omega) node rfl) suffix, cut]

theorem holds_graft (ok : graft (leaf [] .static none) e t = .ok n) :
    n.Holds u x ↔ u = t ∧ x = e :=
  holds_graft_of_wild (fun _ node _ => node.holds_iff) ok

theorem holds_suffixNode (ok : suffixNode suffix e rest = .ok s) :
    s.Holds u x ↔ u = suffix ++ rest ∧ x = e :=
  holds_suffixNode_of_wild (fun _ node _ => node.holds_iff) ok

end Single

/-! ### Ways into a tree -/

/-- `n.Sprouts e left n'`: what is left of a template, nothing of which leads on from `n`, is hung
below `n` and ends in the entry `e`. -/
inductive Sprouts (e : Entry) : Tree → Template → Tree → Prop
  | entry {n : Tree} (free : n.entry = none) : Sprouts e n [] { n with entry := some e }
  | suffix {n s : Tree} {left : Template} {front back : List Tree} (param : n.kind = .param)
      (goes : left ≠ []) (single : hasParam (cutSegment left).1 = false)
      (node : suffixNode (cutSegment left).1 e (cutSegment left).2 = .ok s)
      (place : n.branches = front ++ back) :
      Sprouts e n left { n with branches := front ++ s :: back }
  | wild {n w : Tree} {p : Param} {left : Template} (above : n.kind ≠ .param) (free : n.wild = none)
      (first : firstParam left = .ok (some p)) (front : p.before = []) (node : Wild e p w) :
      Sprouts e n left { n with wild := some w }
  | static {n b : Tree} {next : Symbol} {rest : Template} (above : n.kind ≠ .param)
      (text : next.opens = false)
      (new : next.closes = false → ∀ b ∈ n.branches, b.label.head? ≠ some next)
      (node : graft (leaf [] .static none) e (next :: rest) = .ok b) :
      Sprouts e n (next :: rest) { n with branches := n.branches ++ [b] }

/-- `n.Grows e t n'`: adding `t` with the entry `e` below `n` makes `n'` of it. The template stops
at `n`, or the label of `n` agrees with it in part and is divided, or it leads on into a branch or a
parameter. -/
inductive Grows (e : Entry) : Tree → Template → Tree → Prop
  | stop {label left : Template} {kind : Kind} {weight weight' : Nat} {branches : List Tree}
      {wild : Option Tree} {entry : Option Entry} {n' : Tree}
      (rest : Sprouts e ⟨label, kind, weight', branches, wild, entry⟩ left n') :
      Grows e ⟨label, kind, weight, branches, wild, entry⟩ (label ++ left) n'
  | divide {front back left : Template} {kind : Kind} {weight weight' lower : Nat}
      {branches : List Tree} {wild : Option Tree} {entry : Option Entry} {n' : Tree}
      (partly : back ≠ []) (differs : left.head? ≠ back.head?)
      (rest : Sprouts e ⟨front, kind, weight', [⟨back, .static, lower, branches, wild, entry⟩],
        none, none⟩ left n') :
      Grows e ⟨front ++ back, kind, weight, branches, wild, entry⟩ (front ++ left) n'
  | branch {label left : Template} {kind : Kind} {weight weight' : Nat} {b b' : Tree}
      {front back branches' : List Tree} {wild : Option Tree} {entry : Option Entry}
      (suffix : kind = .param → left ≠ [] ∧ raw b.label = raw (cutSegment left).1)
      (text : kind ≠ .param → ∃ s ∈ left.head?, accepts s b.label = true)
      (below : Grows e b left b') (same : branches'.Perm (front ++ b' :: back)) :
      Grows e ⟨label, kind, weight, front ++ b :: back, wild, entry⟩ (label ++ left)
        ⟨label, kind, weight', branches', wild, entry⟩
  | wild {label left : Template} {kind : Kind} {weight weight' : Nat} {w w' : Tree}
      {branches : List Tree} {entry : Option Entry} (above : kind ≠ .param)
      (param : w.kind = .param)
      (opens : ∃ t, left = .plain '{' :: t) (agrees : raw w.label <+: raw left)
      (below : Grows e w left w') :
      Grows e ⟨label, kind, weight, branches, some w, entry⟩ (label ++ left)
        ⟨label, kind, weight', branches, some w', entry⟩

theorem exists_common (t u : Template) : ∃ front left back, t = front ++ left ∧ u = front ++ back ∧
    commonLength t u = front.length ∧ (back ≠ [] → left.head? ≠ back.head?) := by
  induction t generalizing u with
  | nil =>
      refine ⟨[], [], u, rfl, rfl, rfl, fun goes => ?_⟩
      cases u with
      | nil => exact absurd rfl goes
      | cons r u => nofun
  | cons s t ih =>
      cases u with
      | nil => exact ⟨[], s :: t, [], rfl, rfl, rfl, fun goes => absurd rfl goes⟩
      | cons r u =>
          by_cases same : s = r
          · subst same
            obtain ⟨front, left, back, rfl, rfl, length, differs⟩ := ih u
            refine ⟨s :: front, left, back, rfl, rfl, ?_, differs⟩
            rw [commonLength, if_pos rfl, length, List.length_cons]
          · refine ⟨[], s :: t, r :: u, rfl, rfl, ?_, fun _ => ?_⟩
            · rw [commonLength, if_neg same, List.length_nil]
            · simpa using same

theorem perm_place (b : Tree) (i : Nat) (branches : List Tree) :
    (place b i branches).Perm (b :: branches) := by
  rw [place]
  refine List.perm_middle.trans ?_
  rw [List.take_append_drop]

theorem perm_replace (b c : Tree) (front back : List Tree) :
    (replace b front.length (front ++ c :: back)).Perm (front ++ b :: back) := by
  rw [replace, List.eraseIdx_append_of_length_le (Nat.le_refl _), Nat.sub_self,
    List.eraseIdx_cons_zero]
  exact (perm_place _ _ _).trans List.perm_middle.symm

/-- What holds of all branches still does when one of them has grown. -/
theorem forall_mem_grown {P : Tree → Prop} {b b' : Tree} {front back branches : List Tree}
    (same : branches.Perm (front ++ b' :: back)) (old : ∀ c ∈ front ++ b :: back, P c)
    (grown : P b') : ∀ c ∈ branches, P c := by
  obtain ⟨ahead, behind⟩ := List.forall_mem_append.1 old
  intro c mem
  have placed : c ∈ front ∨ c = b' ∨ c ∈ back := by simpa using same.mem_iff.1 mem
  rcases placed with mem | rfl | mem
  · exact ahead c mem
  · exact grown
  · exact behind c (List.mem_cons_of_mem _ mem)

section Adding

variable {a : Addition} {parent : Option Tree} {n n' : Tree} {t left : Template}

theorem addInto_eq_some {above : Tree} {fits : Template → Bool} {branches : List Tree} {i : Nat}
    {r : Except Error Tree} (found : addInto a above fits t branches = some (i, r)) :
    ∃ front b back, branches = front ++ b :: back ∧ i = front.length ∧ fits b.label = true ∧
      r = addBelow a (some above) b t := by
  induction branches generalizing i with
  | nil =>
      rw [addInto] at found
      cases found
  | cons b others ih =>
      rw [addInto] at found
      split at found
      next own =>
        cases found
        exact ⟨[], b, others, rfl, rfl, own, rfl⟩
      next =>
        obtain ⟨⟨j, r'⟩, deeper, same⟩ := Option.map_eq_some_iff.1 found
        cases same
        obtain ⟨front, c, back, rfl, rfl, own, rfl⟩ := ih deeper
        exact ⟨b :: front, c, back, rfl, rfl, own, rfl⟩

theorem addInto_eq_none {above : Tree} {fits : Template → Bool} {branches : List Tree}
    (missed : addInto a above fits t branches = none) : ∀ b ∈ branches, fits b.label = false := by
  induction branches with
  | nil => simp
  | cons b others ih =>
      rw [addInto] at missed
      split at missed
      · cases missed
      next other =>
        rw [Option.map_eq_none_iff] at missed
        exact List.forall_mem_cons.2 ⟨by simpa using other, ih missed⟩

theorem ok_of_ite {c : Prop} [Decidable c] {e : Error} {r : Except Error Tree}
    (ok : (if c then .error e else r) = .ok n) : ¬c ∧ r = .ok n := by
  split at ok
  · cases ok
  next clear => exact ⟨clear, ok⟩

theorem map_ok {ε α β : Type} {r : Except ε α} {f : α → β} {b : β} (ok : r.map f = .ok b) :
    ∃ a, r = .ok a ∧ b = f a := by
  cases r with
  | error e => cases ok
  | ok a => exact ⟨a, rfl, (Except.ok.inj ok).symm⟩

theorem addStatic_ok (ok : addStatic a n left = .ok n') :
    ∃ b, graft (leaf [] .static none) a.entry left = .ok b ∧
      n' = { n with branches := n.branches ++ [b] } := by
  rw [addStatic] at ok
  obtain ⟨-, ok⟩ := ok_of_ite ok
  split at ok
  · cases ok
  next b grafted => exact ⟨b, grafted, (Except.ok.inj ok).symm⟩

theorem addWild_ok (ok : addWild a parent n t left = .ok n') : graft n a.entry left = .ok n' := by
  rw [addWild.eq_def] at ok
  split at ok
  · obtain ⟨-, ok⟩ := ok_of_ite ok
    split at ok
    · exact (ok_of_ite ok).2
    · exact ok
  · exact ok

theorem addSuffix_ok {suffix rest : Template}
    (ok : addSuffix a parent n t suffix rest = .ok n') :
    hasParam suffix = false ∧ ∃ front back s, n.branches = front ++ back ∧
      suffixNode suffix a.entry rest = .ok s ∧ n' = { n with branches := front ++ s :: back } := by
  simp only [addSuffix] at ok
  split at ok
  · cases ok
  · obtain ⟨single, ok⟩ := ok_of_ite ok
    refine ⟨by simpa using single, ?_⟩
    split at ok
    · cases ok
    next s node =>
      refine ⟨_, _, s, ?_, node, (Except.ok.inj ok).symm⟩
      rw [List.prefix_iff_eq_append.1 (List.takeWhile_prefix _)]

theorem sprouts_of_addNew
    (new : ∀ s ∈ left.head?, n.kind ≠ .param → s.opens = false → s.closes = false →
      ∀ b ∈ n.branches, b.label.head? ≠ some s)
    (free : ∀ s ∈ left.head?, n.kind ≠ .param → s.opens = true → n.wild = none)
    (ok : addNew a parent n t left = .ok n') : n.Sprouts a.entry left n' := by
  cases left with
  | nil =>
      rw [addNew] at ok
      split at ok
      · cases ok
      next open_ =>
        cases ok
        exact .entry (by simpa using open_)
  | cons next rest =>
      rw [addNew] at ok
      split at ok
      next param =>
        obtain ⟨single, front, back, s, place, node, rfl⟩ := addSuffix_ok ok
        exact .suffix param (List.cons_ne_nil _ _) single node place
      next above =>
        split at ok
        next opens =>
          have grafted := addWild_ok ok
          have empty := free next rfl above opens
          obtain rfl := Symbol.opens_iff.1 opens
          obtain ⟨p, w, front, -, first, node, rfl⟩ := graft_param grafted
          exact .wild above empty first front node
        next text =>
          rw [Bool.not_eq_true] at text
          obtain ⟨b, node, rfl⟩ := addStatic_ok ok
          exact .static above text (fun closes => new next rfl above text closes) node

theorem accepts_of_head? {s : Symbol} {label : Template} (first : label.head? = some s)
    (noOpening : s.opens = false) (noClosing : s.closes = false) : accepts s label = true := by
  simp [accepts, raw, first, noOpening, noClosing]

section Deeper

variable {label : Template} {kind : Kind} {weight weight' : Nat} {branches : List Tree}
variable {wild : Option Tree} {entry : Option Entry}

theorem perm_putBack (n b b' : Tree) (front back : List Tree)
    (placed : n.branches = front ++ b :: back) : ∃ branches,
      branches.Perm (front ++ b' :: back) ∧
        n.putBack front.length b' = { n with branches := branches } := by
  rw [putBack, placed]
  split
  · exact ⟨_, by simp, rfl⟩
  · exact ⟨_, perm_replace b' b front back, rfl⟩

/-- A template that leads into a branch. -/
theorem grows_of_addInto {above : Tree} {i : Nat} {r : Except Error Tree}
    (below : ∀ b ∈ branches, ∀ b',
      addBelow a (some above) b left = .ok b' → b.Grows a.entry left b')
    (found : addInto a above (enters kind left) left branches = some (i, r))
    (ok : r.map (putBack ⟨label, kind, weight', branches, wild, entry⟩ i) = .ok n') :
    Grows a.entry ⟨label, kind, weight, branches, wild, entry⟩ (label ++ left) n' := by
  obtain ⟨b', added, rfl⟩ := map_ok ok
  obtain ⟨front, b, back, rfl, rfl, fits, rfl⟩ := addInto_eq_some found
  obtain ⟨branches', same, placed⟩ :=
    perm_putBack ⟨label, kind, weight', front ++ b :: back, wild, entry⟩ b b' front back rfl
  rw [placed]
  cases left with
  | nil => cases fits
  | cons next rest =>
      rw [enters] at fits
      refine .branch (fun param => ?_) (fun above => ?_) (below b (by simp) b' added) same
      · rw [if_pos param, decide_eq_true_eq] at fits
        exact ⟨List.cons_ne_nil _ _, fits⟩
      · rw [if_neg above] at fits
        exact ⟨next, rfl, fits⟩

/-- A template that leads into no branch. -/
theorem grows_of_addBeside
    (belowWild : ∀ w, wild = some w → ∀ w',
      addBelow a (some ⟨label, kind, weight', branches, wild, entry⟩) w left = .ok w' →
        w.Grows a.entry left w')
    (missed : ∀ b ∈ branches, enters kind left b.label = false)
    (ok : addBeside a parent ⟨label, kind, weight', branches, wild, entry⟩ t left wild = .ok n') :
    Grows a.entry ⟨label, kind, weight, branches, wild, entry⟩ (label ++ left) n' := by
  have new : ∀ s ∈ left.head?, kind ≠ .param → s.opens = false → s.closes = false →
      ∀ b ∈ branches, b.label.head? ≠ some s := by
    intro s first above noOpening noClosing b mem same
    have out := missed b mem
    cases left with
    | nil => cases first
    | cons next rest =>
        obtain rfl := Option.some.inj first
        rw [enters, if_neg above, accepts_of_head? same noOpening noClosing] at out
        cases out
  cases wild with
  | none =>
      rw [addBeside] at ok
      exact .stop (sprouts_of_addNew new (fun _ _ _ _ => rfl) ok)
  | some w =>
      rw [addBeside] at ok
      split at ok
      next leads =>
        rw [Bool.and_eq_true, decide_eq_true_eq] at leads
        obtain ⟨opens, above⟩ := leads
        split at ok
        next agrees =>
          obtain ⟨w', added, rfl⟩ := map_ok ok
          cases left with
          | nil => cases opens
          | cons next rest =>
              refine .wild above agrees.1 ⟨rest, ?_⟩ ?_ (belowWild w rfl w' added)
              · rw [Symbol.opens_iff.1 opens]
              · exact List.isPrefixOf_iff_prefix.1 agrees.2
        next => cases ok
      next stops =>
        refine .stop (sprouts_of_addNew new (fun s first above opens => ?_) ok)
        rw [first, Option.any_some, opens] at stops
        exact absurd (by simpa using above) stops

end Deeper

/-- Whatever is added has come in one of the ways. -/
theorem grows_of_addBelow (ok : addBelow a parent n t = .ok n') : n.Grows a.entry t n' := by
  induction n using Tree.induction generalizing parent t n' with
  | step n below belowWild =>
      obtain ⟨label, kind, weight, branches, wild, entry⟩ := n
      obtain ⟨front, left, back, rfl, rfl, length, differs⟩ := exists_common t label
      rw [addBelow] at ok
      simp only [length, List.drop_left, List.length_append] at ok
      split at ok
      next partly =>
        have partly : back ≠ [] := by
          rintro rfl
          simp at partly
        rw [split] at ok
        simp only [List.take_left, List.drop_left] at ok
        refine .divide partly (differs partly) (sprouts_of_addNew ?_ (fun _ _ _ _ => rfl) ok)
        intro s first _ _ _ b mem
        obtain rfl := List.mem_singleton.1 mem
        exact fun same => differs partly (first.trans same.symm)
      next whole =>
        obtain rfl : back = [] := by
          rw [← List.length_eq_zero_iff]
          omega
        rw [List.append_nil] at *
        cases found : addInto a (opened ⟨front, kind, weight + 1, branches, wild, entry⟩ left)
            (enters kind left) left branches with
        | some r =>
            rw [found, Option.elim_some] at ok
            exact grows_of_addInto (fun b mem b' added => below b mem added) found ok
        | none =>
            rw [found, Option.elim_none] at ok
            exact grows_of_addBeside (fun w is w' added => belowWild w is added)
              (addInto_eq_none found) ok

end Adding

/-! ### What is added -/

section Growth

variable {e x : Entry} {n n' : Tree} {t left u : Template}

theorem Sprouts.holds_iff (sprouts : n.Sprouts e left n') :
    n'.Holds u x ↔ n.Holds u x ∨ u = n.label ++ left ∧ x = e := by
  cases sprouts with
  | entry free =>
      refine holds_iff_of_below rfl fun v => ?_
      simp only [Below, free]
      simp only [Option.some.injEq, reduceCtorEq, and_false, false_or]
      rw [or_comm, eq_comm (a := e)]
  | @suffix s _ front back _ _ _ node place =>
      refine holds_iff_of_below rfl fun v => ?_
      have held := holds_suffixNode (u := v) (x := x) node
      rw [cutSegment_append] at held
      simp only [Below, place, ← held, List.mem_append, List.mem_cons]
      grind
  | @wild w p _ _ free first front node =>
      refine holds_iff_of_below rfl fun v => ?_
      obtain ⟨-, -, whole⟩ := firstParam_eq_some_iff.1 first
      rw [front, List.nil_append] at whole
      have held := node.holds_iff (u := v) (x := x)
      rw [← whole] at held
      simp only [Below, free, ← held]
      grind
  | @static b next rest _ _ _ node =>
      refine holds_iff_of_below rfl fun v => ?_
      have held := holds_graft (u := v) (x := x) node
      simp only [Below, ← held, List.mem_append, List.mem_singleton]
      grind

/-- A node whose label is divided holds what it held. -/
theorem holds_divided {front back : Template} {kind : Kind} {weight weight' lower : Nat}
    {branches : List Tree} {wild : Option Tree} {entry : Option Entry} :
    Holds ⟨front, kind, weight', [⟨back, .static, lower, branches, wild, entry⟩], none, none⟩ u x ↔
      Holds ⟨front ++ back, kind, weight, branches, wild, entry⟩ u x := by
  rw [Tree.holds_iff, Tree.holds_iff]
  constructor
  · rintro ⟨t, rfl, ⟨-, ends⟩ | ⟨b, mem, held⟩ | ⟨w, is, -⟩⟩
    · cases ends
    · obtain rfl := List.mem_singleton.1 mem
      obtain ⟨v, rfl, below⟩ := Tree.holds_iff.1 held
      exact ⟨v, (List.append_assoc _ _ _).symm, below⟩
    · cases is
  · rintro ⟨t, rfl, below⟩
    refine ⟨back ++ t, List.append_assoc _ _ _, .inr (.inl ⟨_, List.mem_singleton_self _, ?_⟩)⟩
    exact Tree.holds_iff.2 ⟨t, rfl, below⟩

/-- A tree in which a template was added holds that template and what it held before. -/
theorem Grows.holds_iff (grows : n.Grows e t n') :
    n'.Holds u x ↔ n.Holds u x ∨ u = t ∧ x = e := by
  induction grows generalizing u with
  | stop rest =>
      rw [rest.holds_iff, Tree.holds_iff, Tree.holds_iff]
      rfl
  | divide partly differs rest => rw [rest.holds_iff, holds_divided]
  | @branch label left _ _ _ b b' front back branches' wild entry _ _ below same ih =>
      refine holds_iff_of_below rfl fun v => ?_
      have mem (c : Tree) : c ∈ branches' ↔ c ∈ front ++ b' :: back := same.mem_iff
      simp only [Below, mem, List.mem_append, List.mem_cons]
      have held := ih (u := v)
      grind
  | wild above param opens agrees below ih =>
      refine holds_iff_of_below rfl fun v => ?_
      have held := ih (u := v)
      simp only [Below]
      grind

/-! ### Labels of a grown tree -/

theorem Sprouts.label_eq (sprouts : n.Sprouts e left n') : n'.label = n.label := by
  cases sprouts <;> rfl

theorem Sprouts.kind_eq (sprouts : n.Sprouts e left n') : n'.kind = n.kind := by
  cases sprouts <;> rfl

theorem Grows.kind_eq (grows : n.Grows e t n') : n'.kind = n.kind := by
  cases grows with
  | stop rest => exact rest.kind_eq
  | divide _ _ rest => exact rest.kind_eq
  | branch => rfl
  | wild => rfl

/-- Where a template agrees with the head of a label, that head stays. -/
theorem Grows.head?_label {s : Symbol} (grows : n.Grows e t n') (label : n.label.head? = some s)
    (agrees : t.head? = some s) : n'.label.head? = some s := by
  cases grows with
  | stop rest => rwa [rest.label_eq]
  | @divide front back left _ _ _ _ _ _ _ _ partly differs rest =>
      rw [rest.label_eq]
      cases front with
      | nil => exact absurd (agrees.trans label.symm) differs
      | cons r front => exact label
  | branch => exact label
  | wild => exact label

end Growth

end RequestFlow.Route.Tree
