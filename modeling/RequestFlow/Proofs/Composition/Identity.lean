import Mathlib.Data.List.Induction
import RequestFlow.Proofs.Composition.Duplicates
import RequestFlow.Proofs.Composition.Resolution
import RequestFlow.Proofs.Composition.SetUp

/-!
# Which entries are one hook

The declarations of a set-up are numbered in the order in which they are made, and every entry that
stands anywhere is a copy of what one of them added. `reached` keeps, beside the bench, the number
of the declaration for each entry (`Moment.origins`); it reads no identities for that. Every entry
has the identity that its declaration drew (`Descends`), whatever copies lie in between.

Two declarations draw the identity of one hook if they mention one type without state, or one name,
or if they are one declaration of a hook with state (`Alike`). The paths of types play no part, so
two types with one path are two hooks. Serial numbers wrap around, so that holds as long as fewer
are drawn than there are (`UInt64.size`, which is `2 ^ 64`). What follows for duplicates and skips
is counted in declarations: a hook with state is reported as often as copies of one declaration
reach a handler, and a skip that draws a serial number meets no hook.
-/

namespace RequestFlow

/-! ### The identities of declarations -/

/-- The declarations that statements make, in order. -/
def declarations (p : List Statement) : List Declaration := p.filterMap Statement.declaration?

/-- The number of mentions with state, each of which draws a serial number. -/
def statefulCount (ds : List Declaration) : Nat := ds.countP fun d => d.mention.isStateful

/-- The identities that declarations draw, in order. -/
def identities (serial : UInt64) : List Declaration → List HookId
  | [] => []
  | d :: rest => d.mention.identity serial :: identities (d.mention.next serial) rest

def mentionAt? (ds : List Declaration) (i : Nat) : Option Mention := ds[i]?.map Declaration.mention

/-- Two mentions without state mean one hook. -/
inductive Mention.OneHook : Mention → Mention → Prop where
  /-- Both are values of one type without state, whatever paths it is shown by. -/
  | type {t t' : HookType} (plain : t.stateful = false) (plain' : t'.stateful = false)
      (one : t.id = t'.id) : OneHook (.byValue t) (.byValue t')
  /-- Both are the same explicit name. -/
  | name (name : String) : OneHook (.byName name) (.byName name)

/-- The declarations at two positions mean one hook. -/
inductive Alike (ds : List Declaration) (i j : Nat) : Prop where
  /-- They mention one type without state, or one name. -/
  | oneHook {m m' : Mention} (one : m.OneHook m') (left : mentionAt? ds i = some m)
      (right : mentionAt? ds j = some m')
  /-- They are one declaration of a value with state. -/
  | once (t : HookType) (stateful : t.stateful = true) (left : mentionAt? ds i = some (.byValue t))
      (same : i = j)

section Identities

variable {start : UInt64} {ds : List Declaration} {i j : Nat} {a b : HookId}

theorem serialAfter_eq (serial : UInt64) (ds : List Declaration) :
    serialAfter serial ds = serial + .ofNat (statefulCount ds) := by
  induction ds generalizing serial with
  | nil => simp [serialAfter, statefulCount]
  | cons d rest ih =>
      have first : serialAfter serial (d :: rest) = serialAfter (d.mention.next serial) rest := rfl
      rw [first, ih, Mention.next, statefulCount, statefulCount, List.countP_cons]
      cases d.mention.isStateful with
      | true => simp [UInt64.ofNat_add, UInt64.add_assoc, UInt64.add_comm 1]
      | false => simp

theorem serialAfter_append (serial : UInt64) (ds more : List Declaration) :
    serialAfter serial (ds ++ more) = serialAfter (serialAfter serial ds) more :=
  List.foldl_append

/-- Each declaration draws its identity with the serial number that those before it have left. -/
theorem getElem?_identities (serial : UInt64) (ds : List Declaration) (i : Nat) :
    (identities serial ds)[i]? =
      ds[i]?.map fun d => d.mention.identity (serialAfter serial (ds.take i)) := by
  induction ds generalizing serial i with
  | nil => rfl
  | cons d rest ih =>
      cases i with
      | zero => rfl
      | succ i => exact ih (d.mention.next serial) i

theorem exists_mention_of_identity (drawn : (identities start ds)[i]? = some a) :
    ∃ m, mentionAt? ds i = some m ∧ m.identity (serialAfter start (ds.take i)) = a := by
  rw [getElem?_identities, Option.map_eq_some_iff] at drawn
  obtain ⟨d, held, drawn⟩ := drawn
  exact ⟨d.mention, by rw [mentionAt?, held, Option.map_some], drawn⟩

theorem Mention.isStateful_identity (m : Mention) (serial : UInt64) :
    (m.identity serial).isStateful = m.isStateful := by
  cases m with
  | byName name => rfl
  | byValue t =>
      cases stateful : t.stateful with
      | true => simp [identity, isStateful, stateful, HookId.isStateful]
      | false => simp [identity, isStateful, stateful]

theorem Mention.OneHook.isStateful {m m' : Mention} (one : m.OneHook m') :
    m.isStateful = false := by
  cases one with
  | type plain _ _ => exact plain
  | name name => rfl

theorem Mention.oneHook_byName_iff {name name' : String} :
    (Mention.byName name).OneHook (.byName name') ↔ name = name' := by
  constructor
  · rintro ⟨⟩
    rfl
  · rintro rfl
    exact .name name

theorem Mention.oneHook_byValue_iff {t t' : HookType} :
    (Mention.byValue t).OneHook (.byValue t') ↔
      t.stateful = false ∧ t'.stateful = false ∧ t.id = t'.id := by
  constructor
  · rintro ⟨⟩
    exact ⟨‹_›, ‹_›, ‹_›⟩
  · rintro ⟨plain, plain', one⟩
    exact .type plain plain' one

theorem Mention.not_oneHook_byName_byValue {name : String} {t : HookType} :
    ¬ (Mention.byName name).OneHook (.byValue t) := nofun

theorem Mention.not_oneHook_byValue_byName {name : String} {t : HookType} :
    ¬ (Mention.byValue t).OneHook (.byName name) := nofun

/-- Mentions with state are told apart by their serial numbers, and for all others the serial
numbers do not matter. -/
theorem Mention.key_identity_eq_iff {m m' : Mention} {serial serial' : UInt64} :
    (m.identity serial).key = (m'.identity serial').key ↔
      m.isStateful = true ∧ m'.isStateful = true ∧ serial = serial' ∨ m.OneHook m' := by
  cases m with
  | byName name =>
      cases m' with
      | byName name' => simp [identity, isStateful, HookId.ofName, oneHook_byName_iff]
      | byValue t' =>
          cases stateful : t'.stateful <;>
            simp [identity, isStateful, stateful, HookId.ofName, HookId.ofType,
              not_oneHook_byName_byValue]
  | byValue t =>
      cases m' with
      | byName name' =>
          cases stateful : t.stateful <;>
            simp [identity, isStateful, stateful, HookId.ofName, HookId.ofType,
              not_oneHook_byValue_byName]
      | byValue t' =>
          rw [oneHook_byValue_iff]
          cases stateful : t.stateful <;> cases stateful' : t'.stateful <;>
            simp [identity, isStateful, stateful, stateful', HookId.ofType]

/-- A mention with state is counted from its position on. -/
theorem statefulCount_take_lt {m : Mention} (mentioned : mentionAt? ds i = some m)
    (stateful : m.isStateful = true) (before : i < j) :
    statefulCount (ds.take i) < statefulCount (ds.take j) := by
  obtain ⟨d, held, rfl⟩ := Option.map_eq_some_iff.1 mentioned
  have upTo : ds.take (i + 1) = ds.take i ++ [d] := by rw [List.take_add_one, held]; rfl
  have one : statefulCount (ds.take (i + 1)) = statefulCount (ds.take i) + 1 := by
    rw [upTo, statefulCount, statefulCount, List.countP_append]
    simp [stateful]
  have later : statefulCount (ds.take (i + 1)) ≤ statefulCount (ds.take j) := by
    apply List.Sublist.countP_le
    exact (List.take_prefix_take_left before).sublist
  omega

/-- Serial numbers do not come back while there are not too many of them. -/
theorem serialAfter_injective (few : statefulCount ds < UInt64.size) {m m' : Mention}
    (left : mentionAt? ds i = some m) (right : mentionAt? ds j = some m')
    (stateful : m.isStateful = true) (stateful' : m'.isStateful = true)
    (same : serialAfter start (ds.take i) = serialAfter start (ds.take j)) : i = j := by
  have bound (k : Nat) : statefulCount (ds.take k) < UInt64.size :=
    Nat.lt_of_le_of_lt ((List.take_sublist k ds).countP_le) few
  rw [serialAfter_eq, serialAfter_eq, UInt64.add_right_inj] at same
  have counts := congrArg UInt64.toNat same
  rw [UInt64.toNat_ofNat_of_lt' (bound i), UInt64.toNat_ofNat_of_lt' (bound j)] at counts
  rcases Nat.lt_trichotomy i j with before | here | after
  · have more := statefulCount_take_lt left stateful before
    omega
  · exact here
  · have more := statefulCount_take_lt right stateful' after
    omega

/-- Two declarations draw the identity of one hook exactly if they mean one hook. -/
theorem same_iff_alike (few : statefulCount ds < UInt64.size)
    (here : (identities start ds)[i]? = some a) (there : (identities start ds)[j]? = some b) :
    a.same b = true ↔ Alike ds i j := by
  obtain ⟨m, left, rfl⟩ := exists_mention_of_identity here
  obtain ⟨m', right, rfl⟩ := exists_mention_of_identity there
  rw [HookId.same_iff, Mention.key_identity_eq_iff]
  constructor
  · rintro (⟨stateful, stateful', serials⟩ | one)
    · have same := serialAfter_injective few left right stateful stateful' serials
      cases m with
      | byName name => cases stateful
      | byValue t => exact .once t stateful left same
    · exact .oneHook one left right
  · intro alike
    cases alike with
    | oneHook one left' right' =>
        obtain rfl := Option.some.inj (left.symm.trans left')
        obtain rfl := Option.some.inj (right.symm.trans right')
        exact .inr one
    | once t stateful left' same =>
        subst same
        obtain rfl := Option.some.inj (left.symm.trans left')
        obtain rfl := Option.some.inj (left.symm.trans right)
        exact .inl ⟨stateful, stateful, rfl⟩

/-- A hook with state is met by the copies of its own declaration only. -/
theorem same_iff_of_stateful (few : statefulCount ds < UInt64.size) (stateful : a.isStateful = true)
    (here : (identities start ds)[i]? = some a) (there : (identities start ds)[j]? = some b) :
    a.same b = true ↔ j = i := by
  constructor
  · intro same
    obtain ⟨m, left, rfl⟩ := exists_mention_of_identity here
    obtain ⟨m', right, rfl⟩ := exists_mention_of_identity there
    rw [Mention.isStateful_identity] at stateful
    rw [HookId.same_iff, Mention.key_identity_eq_iff] at same
    rcases same with ⟨_, stateful', serials⟩ | one
    · exact (serialAfter_injective few left right stateful stateful' serials).symm
    · rw [one.isStateful] at stateful
      cases stateful
  · rintro rfl
    obtain rfl := Option.some.inj (here.symm.trans there)
    exact a.same_refl

end Identities

/-! ### The declarations that entries descend from -/

/-- A moment of a set-up: the bench, the next serial number, what has been declared, and for every
entry of the bench the position of the declaration that it descends from. -/
structure Moment where
  bench : Bench
  serial : UInt64
  declared : List Declaration
  origins : Place → Row Nat

namespace Moment

/-- Execute a statement. What it declares is put at the end of what has been declared. -/
def step (m : Moment) (s : Statement) : Moment :=
  let after := (s.run m.bench).run m.serial
  { bench := after.1
    serial := after.2
    declared := m.declared ++ s.declaration?.toList
    origins := s.transfer m.bench m.declared.length m.origins }

/-- The moment before anything is set up. -/
def initial (start : UInt64) : Moment := ⟨.empty, start, [], fun _ => ∅⟩

end Moment

def reached (start : UInt64) (p : List Statement) : Moment := p.foldl Moment.step (.initial start)

theorem reached_append_singleton (start : UInt64) (p : List Statement) (s : Statement) :
    reached start (p ++ [s]) = (reached start p).step s := by
  rw [reached, List.foldl_append]
  rfl

/-- Bench and serial number are those of the execution. -/
theorem reached_run (start : UInt64) (p : List Statement) :
    (p.foldlM Statement.run .empty).run start =
      ((reached start p).bench, (reached start p).serial) := by
  suffices runs : ∀ m : Moment, (p.foldlM Statement.run m.bench).run m.serial =
      ((p.foldl Moment.step m).bench, (p.foldl Moment.step m).serial) from runs (.initial start)
  induction p with
  | nil => exact fun m => rfl
  | cons s rest ih =>
      intro m
      rw [List.foldlM_cons, StateT.run_bind]
      exact ih (m.step s)

theorem declarations_append (p q : List Statement) :
    declarations (p ++ q) = declarations p ++ declarations q :=
  List.filterMap_append

theorem reached_declared (start : UInt64) (p : List Statement) :
    (reached start p).declared = declarations p := by
  induction p using List.reverseRecOn with
  | nil => rfl
  | append_singleton p s ih =>
      rw [reached_append_singleton, declarations_append, Moment.step, ih]
      cases declares : s.declaration? <;> simp [declarations, declares]

theorem reached_serial (start : UInt64) (p : List Statement) :
    (reached start p).serial = serialAfter start (declarations p) := by
  induction p using List.reverseRecOn with
  | nil => rfl
  | append_singleton p s ih =>
      rw [reached_append_singleton, declarations_append, serialAfter_append, Moment.step, ← ih,
        s.serial_run]
      cases declares : s.declaration? <;> simp [declarations, declares]

/-- An entry of a kind, and the position of a declaration of that kind that drew its identity. -/
structure Stems (start : UInt64) (ds : List Declaration) (kind : Row.Kind) (a : HookId) (i : Nat) :
    Prop where
  identity : (identities start ds)[i]? = some a
  kind : ds[i]?.map Declaration.kind = some kind

/-- The entries of a row, one by one, with the positions of their declarations. -/
structure Descends (start : UInt64) (ds : List Declaration) (row : Row HookId)
    (origins : Row Nat) : Prop where
  guards : List.Forall₂ (Stems start ds .guard) row.guards origins.guards
  layers : List.Forall₂ (Stems start ds .layer) row.layers origins.layers
  skips : List.Forall₂ (Stems start ds .skip) row.skips origins.skips

namespace Descends

variable {start : UInt64} {ds : List Declaration}

theorem empty : Descends start ds ∅ ∅ := ⟨.nil, .nil, .nil⟩

theorem append (r r' : Row HookId) (o o' : Row Nat) (left : Descends start ds r o)
    (right : Descends start ds r' o') : Descends start ds (r ++ r') (o ++ o') :=
  ⟨List.rel_append left.guards right.guards, List.rel_append left.layers right.layers,
    List.rel_append left.skips right.skips⟩

theorem single {d : Declaration} {a : HookId} {i : Nat} (held : ds[i]? = some d)
    (drawn : (identities start ds)[i]? = some a) : Descends start ds (d.row a) (d.row i) := by
  have stems : Stems start ds d.kind a i := ⟨drawn, by rw [held, Option.map_some]⟩
  rw [Declaration.row, Declaration.row]
  cases own : d.kind with
  | guard => exact ⟨.cons (own ▸ stems) .nil, .nil, .nil⟩
  | layer => exact ⟨.nil, .cons (own ▸ stems) .nil, .nil⟩
  | skip => exact ⟨.nil, .nil, .cons (own ▸ stems) .nil⟩

end Descends

/-- At every moment of a set-up all entries descend from declarations, as `origins` says. -/
theorem descends_reached (start : UInt64) {p front : List Statement} (earlier : front <+: p)
    (place : Place) :
    Descends start (declarations p) ((reached start front).bench.row place)
      ((reached start front).origins place) := by
  induction front using List.reverseRecOn generalizing place with
  | nil => cases place <;> exact .empty
  | append_singleton front s ih =>
      have held := ih ((List.prefix_append front [s]).trans earlier)
      obtain ⟨back, rfl⟩ := earlier
      rw [reached_append_singleton]
      generalize now : reached start front = m at held ⊢
      obtain ⟨x, own⟩ : ∃ x, ∀ d, s.declaration? = some d → d.mention.identity m.serial = x := by
        cases s.declaration? with
        | none => exact ⟨.ofName "", nofun⟩
        | some d =>
            refine ⟨d.mention.identity m.serial, fun e same => ?_⟩
            rw [Option.some.inj same]
      have moved : (m.step s).bench.row = s.transfer m.bench x m.bench.row :=
        s.row_run m.bench m.serial own
      rw [moved]
      apply s.transfer_related held Descends.append Descends.empty
      intro d declares
      have all : declarations (front ++ [s] ++ back) = m.declared ++ d :: declarations back := by
        rw [declarations_append, declarations_append, ← now, reached_declared]
        simp [declarations, declares]
      have serial : m.serial = serialAfter start m.declared := by
        rw [← now, reached_serial, reached_declared]
      have position : (declarations (front ++ [s] ++ back))[m.declared.length]? = some d := by
        rw [all, List.getElem?_append_right (Nat.le_refl _), Nat.sub_self]
        rfl
      apply Descends.single position
      rw [getElem?_identities, position, Option.map_some, all, List.take_left, ← serial,
        own d declares]

/-! ### What follows for a resolved handler -/

theorem exists_related {α β : Type} {R : α → β → Prop} {as : List α} {bs : List β}
    (related : List.Forall₂ R as bs) {a : α} (mem : a ∈ as) : ∃ b ∈ bs, R a b := by
  induction related with
  | nil => cases mem
  | cons own _ ih =>
      rcases List.mem_cons.1 mem with rfl | mem
      · exact ⟨_, List.mem_cons_self, own⟩
      · obtain ⟨b, mem, here⟩ := ih mem
        exact ⟨b, List.mem_cons_of_mem _ mem, here⟩

section Lists

variable {start : UInt64} {ds : List Declaration} {kind : Row.Kind} {ids : List HookId}
variable {os : List Nat} {i : Nat} {a b : HookId}
variable (few : statefulCount ds < UInt64.size) (stem : List.Forall₂ (Stems start ds kind) ids os)
include few stem

/-- A hook with state is met as often as copies of its declaration stand in a list. -/
theorem countP_same_of_stateful (drawn : (identities start ds)[i]? = some a)
    (stateful : a.isStateful = true) : ids.countP a.same = os.count i := by
  induction stem with
  | nil => rfl
  | cons own _ ih =>
      have meets := same_iff_of_stateful few stateful drawn own.identity
      rw [List.countP_cons, List.count_cons, ih]
      simp [meets]

theorem eq_of_same_of_stateful (drawn : (identities start ds)[i]? = some a)
    (stateful : a.isStateful = true) (mem : b ∈ ids) (same : a.same b = true) : b = a := by
  obtain ⟨j, _, stems⟩ := exists_related stem mem
  obtain rfl := (same_iff_of_stateful few stateful drawn stems.identity).1 same
  exact Option.some.inj (stems.identity.symm.trans drawn)

/-- A skip that draws a serial number meets no hook, since the hook would descend from the skip
itself. -/
theorem not_same_of_stateful_skip (skip : Stems start ds .skip a i) (hook : kind ≠ .skip)
    (stateful : a.isStateful = true) (mem : b ∈ ids) : a.same b = false := by
  rw [Bool.eq_false_iff]
  intro same
  apply hook
  obtain ⟨j, _, own⟩ := exists_related stem mem
  obtain rfl := (same_iff_of_stateful few stateful skip.identity own.identity).1 same
  exact Option.some.inj (own.kind.symm.trans skip.kind)

end Lists

namespace Draft

variable {d : Draft} {name : String} {h : Handler}

/-- A draft that is resolved skips no mention with state, and its duplicates are those of the
guards that are left and those of the layers. -/
theorem duplicates_of_resolve (ok : d.resolve name = .ok h) :
    (∀ s ∈ d.skips, s.isStateful = false) ∧
      h.duplicates =
        repeated (d.row.guards.filter fun id => !d.skipsGuard id) ++ repeated d.row.layers := by
  unfold resolve at ok
  split at ok
  next => cases ok
  next a action =>
    split at ok
    next => cases ok
    next good =>
      obtain rfl := Except.ok.inj ok
      constructor
      · intro s mem
        have accepted := List.findSome?_eq_none_iff.1 good s mem
        cases stateful : s.isStateful with
        | true => simp [stateful] at accepted
        | false => rfl
      · rw [row, List.filter_map]
        rfl

theorem exists_error_of_stateful_skip {s : HookId} (mem : s ∈ d.skips)
    (stateful : s.isStateful = true) (name : String) : ∃ e, d.resolve name = .error e := by
  cases resolved : d.resolve name with
  | error e => exact ⟨e, rfl⟩
  | ok h =>
      have plain := (duplicates_of_resolve resolved).1 s mem
      rw [stateful] at plain
      cases plain

theorem skipsGuard_of_stateful (ok : d.resolve name = .ok h) {a b : HookId}
    (stateful : a.isStateful = true) (same : a.same b = true) : d.skipsGuard b = false := by
  rw [skipsGuard, List.any_eq_false]
  intro s mem meets
  have plain := (duplicates_of_resolve ok).1 s mem
  rw [HookId.same_iff] at same meets
  rw [HookId.isStateful, meets, ← same, ← HookId.isStateful, stateful] at plain
  cases plain

/-- The skips of a draft that is resolved leave all guards with state. -/
theorem countP_kept_of_stateful (ok : d.resolve name = .ok h) {a : HookId}
    (stateful : a.isStateful = true) :
    (d.row.guards.filter fun id => !d.skipsGuard id).countP a.same =
      d.row.guards.countP a.same := by
  rw [List.countP_filter]
  apply List.countP_congr
  intro b _
  rw [Bool.and_eq_true]
  apply and_iff_left_of_imp
  intro same
  rw [skipsGuard_of_stateful ok stateful same]
  rfl

end Draft

namespace Registry

variable {r : Registry} {hs : Handlers} {name : String}

theorem exists_resolve_of_build {d : Draft} (built : r.build = .ok hs)
    (held : r.drafts.get? name = some d) : ∃ h, d.resolve name = .ok h := by
  rw [build_eq_gather] at built
  exact SortedMap.exists_gather_iff.1 ⟨hs, built⟩ _ (SortedMap.get?_eq_some_iff.1 held)

/-- Every handler of the table is a resolved draft. -/
theorem exists_draft_of_build {h : Handler} (built : r.build = .ok hs)
    (resolved : hs.get? name = some h) :
    ∃ d, r.drafts.get? name = some d ∧ d.resolve name = .ok h := by
  have table := built
  rw [build_eq_gather] at table
  have held := SortedMap.get?_gather r.drafts.nodup_keys table name
  rw [resolved] at held
  cases found : r.drafts.get? name with
  | none =>
      rw [SortedMap.get?] at found
      rw [found] at held
      cases held
  | some d =>
      obtain ⟨h', ok⟩ := exists_resolve_of_build built found
      rw [SortedMap.get?] at found
      have own : some h = (d.resolve name).toOption := by simpa only [found] using held
      rw [ok] at own
      obtain rfl : h = h' := Option.some.inj own
      exact ⟨d, rfl, ok⟩

theorem exists_error_of_stateful_skip {d : Draft} {s : HookId}
    (held : r.drafts.get? name = some d) (mem : s ∈ d.skips) (stateful : s.isStateful = true) :
    ∃ e, r.build = .error e := by
  cases built : r.build with
  | error e => exact ⟨e, rfl⟩
  | ok hs =>
      obtain ⟨h, ok⟩ := exists_resolve_of_build built held
      obtain ⟨e, fails⟩ := d.exists_error_of_stateful_skip mem stateful name
      rw [fails] at ok
      cases ok

end Registry

/-- What a resolved handler reports as duplicates: entries that it was given, and of a hook with
state the copies of one declaration, if there are several. -/
structure Reports (start : UInt64) (ds : List Declaration) (given : Row Nat) (h : Handler) :
    Prop where
  entries : ∀ e ∈ h.duplicates, ∃ i ∈ given.guards ++ given.layers,
    (identities start ds)[i]? = some e.1
  copies : ∀ i a, (identities start ds)[i]? = some a → a.isStateful = true →
    ∀ n, (a, n) ∈ h.duplicates ↔ 1 < n ∧ (given.guards.count i = n ∨ given.layers.count i = n)

section Consequences

variable {start : UInt64} {ds : List Declaration} {given : Row Nat}

theorem Draft.reports_of_resolve {d : Draft} {name : String} {h : Handler}
    (few : statefulCount ds < UInt64.size) (ok : d.resolve name = .ok h)
    (held : Descends start ds d.row given) : Reports start ds given h := by
  obtain ⟨_, duplicates⟩ := duplicates_of_resolve ok
  constructor
  · rintro ⟨a, n⟩ reported
    rw [duplicates, List.mem_append, mem_repeated_iff, mem_repeated_iff] at reported
    rcases reported with ⟨_, first, _⟩ | ⟨_, first, _⟩
    · have mem := (List.mem_filter.1 (List.mem_of_find?_eq_some first)).1
      obtain ⟨i, copied, stems⟩ := exists_related held.guards mem
      exact ⟨i, List.mem_append_left _ copied, stems.identity⟩
    · obtain ⟨i, copied, stems⟩ := exists_related held.layers (List.mem_of_find?_eq_some first)
      exact ⟨i, List.mem_append_right _ copied, stems.identity⟩
  · intro i a drawn stateful n
    have guards : ∀ b ∈ d.row.guards.filter fun id => !d.skipsGuard id,
        a.same b = true → b = a := by
      intro b mem same
      exact eq_of_same_of_stateful few held.guards drawn stateful (List.mem_filter.1 mem).1 same
    have layers : ∀ b ∈ d.row.layers, a.same b = true → b = a := by
      intro b mem same
      exact eq_of_same_of_stateful few held.layers drawn stateful mem same
    rw [duplicates, List.mem_append, mem_repeated_iff_of_unique guards,
      mem_repeated_iff_of_unique layers, countP_kept_of_stateful ok stateful,
      countP_same_of_stateful few held.guards drawn stateful,
      countP_same_of_stateful few held.layers drawn stateful, and_or_left]

variable {p front : List Statement}

theorem reports_of_build (few : statefulCount (declarations p) < UInt64.size)
    (earlier : front <+: p) {r : Nat} {hs : Handlers} {name : String} {h : Handler}
    (built : ((reached start front).bench.registries r).build = .ok hs)
    (resolved : hs.get? name = some h) :
    Reports start (declarations p) ((reached start front).origins (.handler r name)) h := by
  obtain ⟨d, held, ok⟩ := Registry.exists_draft_of_build built resolved
  have descends := descends_reached start earlier (.handler r name)
  rw [Bench.row, Registry.row_of_get? held] at descends
  exact d.reports_of_resolve few ok descends

/-- A skip of a hook with state: no guard and no layer has its identity, and the handlers that it
reaches cannot be resolved. -/
structure Refused (a : HookId) (i : Nat) (m : Moment) : Prop where
  foreign : ∀ place, ∀ b ∈ (m.bench.row place).guards ++ (m.bench.row place).layers,
    a.same b = false
  fails : ∀ r name, i ∈ (m.origins (.handler r name)).skips →
    (∃ d e, (m.bench.registries r).drafts.get? name = some d ∧ d.resolve name = .error e) ∧
    ∃ e, (m.bench.registries r).build = .error e

theorem refused_of_stateful (few : statefulCount (declarations p) < UInt64.size)
    (earlier : front <+: p) {i : Nat} {a : HookId} (stems : Stems start (declarations p) .skip a i)
    (stateful : a.isStateful = true) : Refused a i (reached start front) := by
  have descends := descends_reached start earlier
  constructor
  · intro place b mem
    rcases List.mem_append.1 mem with mem | mem
    · exact not_same_of_stateful_skip few (descends place).guards stems nofun stateful mem
    · exact not_same_of_stateful_skip few (descends place).layers stems nofun stateful mem
  · intro r name reaches
    have skips := (descends (.handler r name)).skips
    obtain ⟨a', mem, own⟩ := exists_related (List.Forall₂.flip (R := flip _) skips) reaches
    obtain rfl : a' = a := Option.some.inj (own.identity.symm.trans stems.identity)
    obtain ⟨d, held, mem⟩ := Registry.exists_draft_of_mem_skips mem
    obtain ⟨e, fails⟩ := d.exists_error_of_stateful_skip mem stateful name
    exact ⟨⟨d, e, held, fails⟩, Registry.exists_error_of_stateful_skip held mem stateful⟩

end Consequences

/-- Over a whole set-up, whatever is registered, cloned, inherited, included, mounted and skipped,
two entries have one identity exactly if their declarations are alike, and names play no part. At
every moment each entry has the identity that its declaration drew. A handler that is resolved
reports a hook with state exactly if several copies of one declaration have reached it, and a skip
of a value with state never meets a hook and lets the resolution fail. -/
theorem hooks_told_apart (start : UInt64) (p : List Statement)
    (few : statefulCount (declarations p) < UInt64.size) :
    let ds := declarations p
    let ids := identities start ds
    (∀ i j a b, ids[i]? = some a → ids[j]? = some b → (a.same b = true ↔ Alike ds i j)) ∧
    Equivalence (fun a b : HookId => a.same b = true) ∧
    (∀ (a b : HookId) (name name' : String), HookId.same ⟨a.key, name⟩ ⟨b.key, name'⟩ = a.same b) ∧
    ∀ front, front <+: p →
      let m := reached start front
      (front.foldlM Statement.run .empty).run start = (m.bench, m.serial) ∧
      (∀ place, Descends start ds (m.bench.row place) (m.origins place)) ∧
      (∀ r hs name h, (m.bench.registries r).build = .ok hs → hs.get? name = some h →
        Reports start ds (m.origins (.handler r name)) h) ∧
      ∀ i a t, ds[i]? = some (.skip t) → t.stateful = true → ids[i]? = some a → Refused a i m := by
  intro ds ids
  refine ⟨?_, ?_, ?_, ?_⟩
  · intro i j a b here there
    exact same_iff_alike few here there
  · constructor
    · exact HookId.same_refl
    · intro a b same
      rwa [HookId.same_comm]
    · intro a b c first second
      rw [HookId.same_iff] at first second ⊢
      exact first.trans second
  · intro a b name name'
    rfl
  · intro front earlier
    refine ⟨reached_run start front, descends_reached start earlier, ?_, ?_⟩
    · intro r hs name h built resolved
      exact reports_of_build few earlier built resolved
    · intro i a t skip stateful drawn
      have stems : Stems start ds .skip a i := ⟨drawn, by rw [skip]; rfl⟩
      have own : a.isStateful = true := by
        rw [getElem?_identities, skip] at drawn
        obtain rfl := Option.some.inj drawn
        exact (Mention.isStateful_identity (.byValue t) _).trans stateful
      exact refused_of_stateful few earlier stems own

/-- Two registrations of one type with state, at the moment when serial numbers wrap around. The
first is in a concern that a handler gets from its parent and once more by itself, so it is reported
with two copies, and the second is not reported. In another registry a skip of that type makes the
resolution fail, and in a third one two closures of one function, which are shown by one name, are
two hooks. -/
theorem hooks_told_apart_at_wraparound :
    let guarding (t : HookType) : Hook := .guard ⟨t, fun c => pure (c, .proceed)⟩
    let require : HookType := ⟨⟨"app::require"⟩, "app::require", true⟩
    let guard : Hook := guarding require
    let closure (symbol : String) : HookType :=
      ⟨⟨symbol⟩, "app::checks::\x7b\x7bclosure\x7d\x7d", false⟩
    let loose := closure "app::checks::\x7bclosure#0\x7d"
    let strict := closure "app::checks::\x7bclosure#1\x7d"
    let a : Action := ⟨fun handler _ => pure (.ok (.halted handler none))⟩
    let p : List Statement :=
      [.newConcern 0 "auth", .toConcern 0 guard,
        .newController 0 "application", .addConcern 0 0,
        .newController 1 "pages", .inherit 1 0, .addConcern 1 0, .toController 1 (.hook guard),
        .controllerAction 1 "index" a, .mount 0 1,
        .toHandler 1 "h" (.hook guard), .toHandler 1 "h" (.skip require), .handlerAction 1 "h" a,
        .toHandler 2 "k" (.hook (guarding loose)), .toHandler 2 "k" (.hook (guarding strict))]
    let first := (Mention.byValue require).identity 0xFFFFFFFFFFFFFFFF
    let second := (Mention.byValue require).identity 0
    let m := reached 0xFFFFFFFFFFFFFFFF p
    statefulCount (declarations p) < UInt64.size ∧
    (m.bench.row (.handler 0 "pages#index")).guards = [first, first, second] ∧
    (m.origins (.handler 0 "pages#index")).guards = [0, 0, 1] ∧
    (∃ hs h, (m.bench.registries 0).build = .ok hs ∧ hs.get? "pages#index" = some h ∧
      (first, 2) ∈ h.duplicates ∧ ∀ n, (second, n) ∉ h.duplicates) ∧
    (∃ e, (m.bench.registries 1).build = .error e) ∧
    ∃ l s, (m.bench.row (.handler 2 "k")).guards = [l, s] ∧ l.name = s.name ∧ l.same s = false := by
  intro guarding require guard closure loose strict a p first second m
  have few : statefulCount (declarations p) < UInt64.size := by decide
  obtain ⟨alike, _, _, moments⟩ := hooks_told_apart 0xFFFFFFFFFFFFFFFF p few
  obtain ⟨_, _, reports, refused⟩ := moments p (List.prefix_refl p)
  refine ⟨few, rfl, rfl, ?_, ?_, _, _, rfl, rfl, ?_⟩
  · have report := reports 0 _ "pages#index" _ rfl rfl
    refine ⟨_, _, rfl, rfl, ?_, fun n reported => ?_⟩
    · exact (report.copies 0 first rfl rfl 2).2 ⟨by decide, .inl rfl⟩
    · obtain ⟨several, copies⟩ := (report.copies 1 second rfl rfl n).1 reported
      rcases copies with (rfl : 1 = n) | (rfl : 0 = n) <;> omega
  · exact ((refused 3 ((Mention.byValue require).identity 2) require rfl rfl rfl).fails 1 "h"
      List.mem_cons_self).2
  · rw [Bool.eq_false_iff]
    intro same
    rcases (alike 4 5 _ _ rfl rfl).1 same with ⟨one, left, right⟩ | ⟨_, _, _, once⟩
    · obtain rfl := Option.some.inj left
      obtain rfl := Option.some.inj right
      exact absurd (Mention.oneHook_byValue_iff.1 one).2.2 (by decide)
    · cases once

end RequestFlow
