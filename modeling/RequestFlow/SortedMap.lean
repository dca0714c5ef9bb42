/-!
# Finite maps with text keys

Request contexts, handler tables and JSON objects are all maps whose keys are text and whose
entries are listed in the order of their keys. A `SortedMap` is that list together with the fact
that its keys increase strictly, so every key occurs once and equal maps are equal lists.

Insertion walks the list once and replaces on a collision. What the other modules use is the view
`get?`: `get?_insert` and `get?_erase` say what each operation does to it.
-/

namespace RequestFlow

/-- Entries of a map in the order of their keys. Text is ordered by code point, which is also the
order of its UTF-8 bytes. -/
structure SortedMap (α : Type) where
  toList : List (String × α)
  sorted : toList.Pairwise fun a b => a.1 < b.1

namespace SortedMap

variable {α β : Type}

/-- Insertion into an entry list; an entry with the same key is replaced. -/
def insertEntry (k : String) (v : α) : List (String × α) → List (String × α)
  | [] => [(k, v)]
  | (k', v') :: rest =>
    if k < k' then (k, v) :: (k', v') :: rest
    else if k = k' then (k, v) :: rest
    else (k', v') :: insertEntry k v rest

def findEntry (k : String) : List (String × α) → Option α
  | [] => none
  | (k', v') :: rest => if k = k' then some v' else findEntry k rest

theorem mem_insertEntry {k : String} {v : α} {e : String × α} {l : List (String × α)}
    (h : e ∈ insertEntry k v l) : e = (k, v) ∨ e ∈ l := by
  induction l with
  | nil => simpa [insertEntry] using h
  | cons d rest ih =>
    simp only [insertEntry] at h
    split at h
    · simpa using h
    · split at h
      · simp only [List.mem_cons] at h ⊢
        exact h.imp_right .inr
      · simp only [List.mem_cons] at h ⊢
        rcases h with h | h
        · exact .inr (.inl h)
        · exact (ih h).imp_right .inr

theorem pairwise_insertEntry (k : String) (v : α) {l : List (String × α)}
    (h : l.Pairwise fun a b => a.1 < b.1) :
    (insertEntry k v l).Pairwise fun a b => a.1 < b.1 := by
  induction l with
  | nil => simp [insertEntry]
  | cons d rest ih =>
    obtain ⟨head, tail⟩ := List.pairwise_cons.1 h
    simp only [insertEntry]
    split
    next lt =>
      refine List.pairwise_cons.2 ⟨fun e he => ?_, h⟩
      rcases List.mem_cons.1 he with rfl | he
      · exact lt
      · exact String.lt_trans lt (head e he)
    next nlt =>
      split
      next eq => exact List.pairwise_cons.2 ⟨fun e he => eq ▸ head e he, tail⟩
      next ne =>
        refine List.pairwise_cons.2 ⟨fun e he => ?_, ih tail⟩
        rcases mem_insertEntry he with rfl | he
        · exact Decidable.byContradiction fun nlt' =>
            ne (String.le_antisymm (String.not_lt.1 nlt') (String.not_lt.1 nlt))
        · exact head e he

theorem findEntry_insertEntry (k k' : String) (v : α) (l : List (String × α)) :
    findEntry k' (insertEntry k v l) = if k' = k then some v else findEntry k' l := by
  induction l with
  | nil => simp [insertEntry, findEntry]
  | cons d rest ih =>
    simp only [insertEntry]
    split
    · simp [findEntry]
    · split
      next eq => subst eq; simp only [findEntry]; split <;> rfl
      next ne =>
        simp only [findEntry, ih]
        split
        next eq => subst eq; simp [Ne.symm ne]
        next => rfl

theorem findEntry_eq_none {k : String} {l : List (String × α)} :
    findEntry k l = none ↔ ∀ e ∈ l, e.1 ≠ k := by
  induction l with
  | nil => simp [findEntry]
  | cons d rest ih =>
    simp only [findEntry, List.mem_cons, forall_eq_or_imp]
    split
    next eq => simp [eq]
    next ne => simp [ih, Ne.symm ne]

theorem findEntry_filter_ne (k k' : String) (l : List (String × α)) :
    findEntry k' (l.filter fun e => e.1 ≠ k) = if k' = k then none else findEntry k' l := by
  induction l with
  | nil => simp [findEntry]
  | cons d rest ih =>
    simp only [List.filter_cons, findEntry]
    by_cases hd : d.1 = k
    · simp only [hd, ne_eq, not_true_eq_false, decide_false, Bool.false_eq_true, ↓reduceIte]
      rw [ih]
      split <;> simp_all
    · simp only [ne_eq, hd, not_false_eq_true, decide_true, ↓reduceIte, findEntry]
      rw [ih]
      split <;> simp_all

/-- The first entry of a key counts. -/
theorem lookup_entry (k : String) (e : String × α) (l : List (String × α)) :
    (e :: l).lookup k = if k = e.1 then some e.2 else l.lookup k := by
  rw [List.lookup_cons]
  by_cases same : k = e.1
  · simp [same]
  · simp [same, beq_false_of_ne same]

theorem findEntry_eq_lookup (k : String) (l : List (String × α)) : findEntry k l = l.lookup k := by
  induction l with
  | nil => rfl
  | cons d rest ih => rw [findEntry, ih, lookup_entry]

theorem lookup_isSome_iff {k : String} {l : List (String × α)} :
    (l.lookup k).isSome = true ↔ k ∈ l.map Prod.fst := by
  rw [List.lookup_isSome_iff, List.mem_map]
  constructor
  · rintro ⟨e, mem, same⟩
    exact ⟨e, mem, (eq_of_beq same).symm⟩
  · rintro ⟨e, mem, rfl⟩
    exact ⟨e, mem, beq_self_eq_true _⟩

theorem lookup_mapValues (f : α → β) (l : List (String × α)) (k : String) :
    (l.map fun e => (e.1, f e.2)).lookup k = (l.lookup k).map f := by
  induction l with
  | nil => rfl
  | cons e rest ih =>
    rw [List.map_cons, lookup_entry, lookup_entry, ih]
    split <;> rfl

def empty : SortedMap α := ⟨[], .nil⟩

instance : EmptyCollection (SortedMap α) := ⟨empty⟩

instance : Inhabited (SortedMap α) := ⟨∅⟩

def get? (m : SortedMap α) (k : String) : Option α := findEntry k m.toList

/-- Store a value, replacing what the key held before. -/
def insert (m : SortedMap α) (k : String) (v : α) : SortedMap α :=
  ⟨insertEntry k v m.toList, pairwise_insertEntry k v m.sorted⟩

def erase (m : SortedMap α) (k : String) : SortedMap α :=
  ⟨m.toList.filter fun e => e.1 ≠ k, m.sorted.filter _⟩

def contains (m : SortedMap α) (k : String) : Bool := (m.get? k).isSome

def size (m : SortedMap α) : Nat := m.toList.length

/-- The keys in increasing order. -/
def keys (m : SortedMap α) : List String := m.toList.map Prod.fst

/-- Change the value under a key, starting from `fallback` when there is none. -/
def alter (m : SortedMap α) (k : String) (fallback : α) (f : α → α) : SortedMap α :=
  m.insert k (f ((m.get? k).getD fallback))

/-- Store a value only under a key that is still free: the first writer wins. -/
def insertIfNew (m : SortedMap α) (k : String) (v : α) : SortedMap α :=
  if m.contains k then m else m.insert k v

def map (f : α → β) (m : SortedMap α) : SortedMap β :=
  ⟨m.toList.map fun e => (e.1, f e.2), List.pairwise_map.2 m.sorted⟩

/-- Apply a function that may fail to every entry of a list, from the left. -/
def traverseEntries {ε : Type} (f : String → α → Except ε β) :
    List (String × α) → Except ε (List (String × β))
  | [] => .ok []
  | (k, v) :: rest =>
    match f k v with
    | .error e => .error e
    | .ok w =>
      match traverseEntries f rest with
      | .error e => .error e
      | .ok ws => .ok ((k, w) :: ws)

theorem keys_traverseEntries {ε : Type} {f : String → α → Except ε β} {l : List (String × α)}
    {l' : List (String × β)} (h : traverseEntries f l = .ok l') :
    l'.map Prod.fst = l.map Prod.fst := by
  induction l generalizing l' with
  | nil => simp_all [traverseEntries]
  | cons d rest ih =>
    simp only [traverseEntries] at h
    split at h
    · simp at h
    · split at h
      · simp at h
      next ws hws =>
        simp only [Except.ok.injEq] at h
        subst h
        simp [ih hws]

/-- Apply a function that may fail to every value, in the order of the keys. The first failure is
the result. -/
def traverse {ε : Type} (f : String → α → Except ε β) (m : SortedMap α) :
    Except ε (SortedMap β) :=
  match h : traverseEntries f m.toList with
  | .error e => .error e
  | .ok l =>
    .ok ⟨l, List.pairwise_map.1 (keys_traverseEntries h ▸ List.pairwise_map.2 m.sorted :
      (l.map Prod.fst).Pairwise (· < ·))⟩

/-- The map of a list of entries, inserted from the left: the last value of a key stays. -/
def ofList (entries : List (String × α)) : SortedMap α :=
  entries.foldl (fun m e => m.insert e.1 e.2) ∅

@[simp] theorem get?_empty (k : String) : (∅ : SortedMap α).get? k = none := rfl

@[simp] theorem get?_insert (m : SortedMap α) (k k' : String) (v : α) :
    (m.insert k v).get? k' = if k' = k then some v else m.get? k' :=
  findEntry_insertEntry k k' v m.toList

@[simp] theorem get?_erase (m : SortedMap α) (k k' : String) :
    (m.erase k).get? k' = if k' = k then none else m.get? k' :=
  findEntry_filter_ne k k' m.toList

theorem pairwise_keys (m : SortedMap α) : m.keys.Pairwise (· < ·) :=
  List.pairwise_map.2 m.sorted

theorem contains_iff_mem_keys (m : SortedMap α) (k : String) :
    m.contains k = true ↔ k ∈ m.keys := by
  simp only [contains, get?, keys, List.mem_map]
  rw [Option.isSome_iff_ne_none, ne_eq, findEntry_eq_none]
  simp

theorem nodup_keys (m : SortedMap α) : m.keys.Nodup := by
  refine m.pairwise_keys.imp fun {a b} lt eq => ?_
  subst eq
  exact String.lt_irrefl a lt

/-- Where every key occurs once, looking a key up finds the entry that is there. -/
theorem findEntry_eq_some_iff {k : String} {v : α} {l : List (String × α)}
    (distinct : (l.map Prod.fst).Nodup) : findEntry k l = some v ↔ (k, v) ∈ l := by
  induction l with
  | nil => simp [findEntry]
  | cons d rest ih =>
    obtain ⟨k', v'⟩ := d
    obtain ⟨fresh, distinct⟩ := List.nodup_cons.1 distinct
    simp only [findEntry, List.mem_cons, Prod.mk.injEq]
    split
    next eq =>
      subst eq
      have absent : (k, v) ∉ rest := fun mem => fresh (List.mem_map.2 ⟨_, mem, rfl⟩)
      simp [absent, eq_comm]
    next ne => simp [ne, ih distinct]

theorem get?_eq_some_iff {m : SortedMap α} {k : String} {v : α} :
    m.get? k = some v ↔ (k, v) ∈ m.toList :=
  findEntry_eq_some_iff m.nodup_keys

/-- Maps that hold the same are equal. -/
theorem ext_get? {m m' : SortedMap α} (h : ∀ k, m.get? k = m'.get? k) : m = m' := by
  have distinct (m : SortedMap α) : m.toList.Nodup :=
    (List.pairwise_map.1 m.nodup_keys).imp fun ne eq => ne (congrArg Prod.fst eq)
  have perm : m.toList.Perm m'.toList := by
    refine (List.perm_ext_iff_of_nodup (distinct m) (distinct m')).2 fun e => ?_
    rw [← get?_eq_some_iff, ← get?_eq_some_iff, h]
  have same : m.toList = m'.toList :=
    perm.eq_of_pairwise (fun a b _ _ ab ba => absurd (String.lt_trans ab ba) (String.lt_irrefl _))
      m.sorted m'.sorted
  cases m
  cases m'
  simpa using same

/-- What a key holds after it was altered. -/
theorem get?_alter (m : SortedMap α) (k k' : String) (fallback : α) (f : α → α) :
    (m.alter k fallback f).get? k' =
      if k' = k then some (f ((m.get? k).getD fallback)) else m.get? k' := by
  simp [alter]

theorem get?_insertIfNew (m : SortedMap α) (k k' : String) (v : α) :
    (m.insertIfNew k v).get? k' = if k' = k then some ((m.get? k).getD v) else m.get? k' := by
  cases h : m.get? k with
  | none => simp [insertIfNew, contains, h]
  | some w =>
    simp only [insertIfNew, contains, h, Option.isSome_some, ↓reduceIte, Option.getD_some]
    split
    next eq => subst eq; exact h
    next => rfl

/-- What a key holds after entries were stored one after the other: of a key that was stored more
than once the last value. -/
theorem get?_foldl_insert (m : SortedMap α) (entries : List (String × α)) (k : String) :
    (entries.foldl (fun m e => m.insert e.1 e.2) m).get? k =
      (entries.reverse.lookup k).or (m.get? k) := by
  induction entries generalizing m with
  | nil => rfl
  | cons e rest ih =>
    rw [List.foldl_cons, ih, get?_insert, List.reverse_cons, List.lookup_append, lookup_entry,
      Option.or_assoc]
    split <;> rfl

theorem get?_ofList (entries : List (String × α)) (k : String) :
    (ofList entries).get? k = entries.reverse.lookup k := by
  rw [ofList, get?_foldl_insert, get?_empty, Option.or_none]

/-- Where every key occurs once, it does not matter from which end it is looked up. -/
theorem lookup_reverse {l : List (String × α)} (distinct : (l.map Prod.fst).Nodup) (k : String) :
    l.reverse.lookup k = l.lookup k := by
  have distinct' : (l.reverse.map Prod.fst).Nodup :=
    ((List.reverse_perm l).map Prod.fst).nodup_iff.2 distinct
  ext v
  rw [← findEntry_eq_lookup, ← findEntry_eq_lookup, findEntry_eq_some_iff distinct',
    findEntry_eq_some_iff distinct, List.mem_reverse]

/-- A map is made of its own entries. -/
theorem foldl_insert_toList (m : SortedMap α) :
    m.toList.foldl (fun m d => m.insert d.1 d.2) ∅ = m := by
  apply ext_get?
  intro k
  rw [get?_foldl_insert, get?_empty, Option.or_none, lookup_reverse m.nodup_keys,
    ← findEntry_eq_lookup]
  rfl

end SortedMap

end RequestFlow
