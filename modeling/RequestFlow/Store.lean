import RequestFlow.Failure

/-!
# Record stores

A `Store` keeps the records of one entity under their ids, in the order in which the ids were first
inserted. Inserting under a known id replaces the record and keeps its place, so every id occurs
once; `find?_insert` and `ids_insert` say so through the two views of a store.
-/

namespace RequestFlow

/-- Records of one entity by id. -/
structure Store (ρ : Type) where
  entity : String
  records : List (String × ρ)
  distinct : (records.map Prod.fst).Nodup

namespace Store

variable {ρ : Type}

/-- Put a record in the place of its id, or at the end if the id is new. -/
def put (id : String) (record : ρ) : List (String × ρ) → List (String × ρ)
  | [] => [(id, record)]
  | (k, r) :: rest => if k = id then (k, record) :: rest else (k, r) :: put id record rest

theorem keys_put (id : String) (record : ρ) (l : List (String × ρ)) :
    (put id record l).map Prod.fst =
      if id ∈ l.map Prod.fst then l.map Prod.fst else l.map Prod.fst ++ [id] := by
  induction l with
  | nil => simp [put]
  | cons d rest ih =>
    obtain ⟨k, r⟩ := d
    simp only [put]
    split
    next eq => simp [eq]
    next ne =>
      simp only [List.map_cons, ih, List.mem_cons, Ne.symm ne, false_or]
      split <;> rfl

def new (entity : String) : Store ρ := ⟨entity, [], .nil⟩

/-- Insert or replace the record of an id. -/
def insert (s : Store ρ) (id : String) (record : ρ) : Store ρ where
  entity := s.entity
  records := put id record s.records
  distinct := by
    rw [keys_put]
    split
    · exact s.distinct
    next fresh =>
      refine List.nodup_append.2 ⟨s.distinct, by simp, ?_⟩
      intro a ha b hb
      simp only [List.mem_singleton] at hb
      exact fun eq => fresh (hb ▸ eq ▸ ha)

/-- The store of a list of records, inserted from the left. -/
def ofList (entity : String) (records : List (String × ρ)) : Store ρ :=
  records.foldl (fun s e => s.insert e.1 e.2) (new entity)

/-- The ids in the order of their first insertion. -/
def ids (s : Store ρ) : List String := s.records.map Prod.fst

def size (s : Store ρ) : Nat := s.records.length

def isEmpty (s : Store ρ) : Bool := s.records.isEmpty

def find? (s : Store ρ) (id : String) : Option ρ :=
  (s.records.find? fun e => e.1 = id).map Prod.snd

/-- The records that satisfy a predicate, in order. -/
def filter (s : Store ρ) (p : ρ → Bool) : List ρ := (s.records.map Prod.snd).filter p

/-- The record of an id; a missing one is a failure. -/
def findOrFail (s : Store ρ) (id : String) : Except Failure ρ :=
  match s.find? id with
  | some r => .ok r
  | none => .error (.missing s.entity id)

theorem find?_put (id id' : String) (record : ρ) (l : List (String × ρ)) :
    ((put id record l).find? fun e => e.1 = id').map Prod.snd =
      if id' = id then some record else (l.find? fun e => e.1 = id').map Prod.snd := by
  induction l with
  | nil =>
    by_cases h : id' = id
    · simp [put, h]
    · simp [put, h, Ne.symm h]
  | cons d rest ih =>
    obtain ⟨k, r⟩ := d
    simp only [put]
    split
    next eq =>
      subst eq
      by_cases h : id' = k
      · simp [h]
      · simp [h, Ne.symm h]
    next ne =>
      by_cases h : k = id'
      · subst h
        simp [ne]
      · simpa [h] using ih

@[simp] theorem find?_insert (s : Store ρ) (id id' : String) (record : ρ) :
    (s.insert id record).find? id' = if id' = id then some record else s.find? id' :=
  find?_put id id' record s.records

theorem ids_insert (s : Store ρ) (id : String) (record : ρ) :
    (s.insert id record).ids = if id ∈ s.ids then s.ids else s.ids ++ [id] :=
  keys_put id record s.records

end Store

end RequestFlow
