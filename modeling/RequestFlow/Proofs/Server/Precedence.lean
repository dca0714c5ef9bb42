import Mathlib.Data.List.Dedup
import RequestFlow.Server.Decode

/-!
# Where the parameters of a request come from

The context of a request is gathered from the path, the query and the body. The sources treat
repeated keys in opposite ways: in the path and inside a JSON object the last value counts, in the
query the first. Here every key of the context is traced back to its source with look-ups in the
three lists as they are written (`Server.get?_of_decode?`), so that what one source says is never
changed by a later one.

The list of a body is that of the fields in its text, before an object is made of them
(`Json.WritesObject`).
-/

namespace RequestFlow

/-! ### The fields of a body -/

namespace Json

/-- A text is one JSON object and writes these fields, in this order and with all repetitions. -/
def WritesObject (text : String) (written : List (String × Json)) : Prop :=
  ∃ body rest, Reader.skipBlanks text.toList = '{' :: body ∧
    Reader.objectFields .strict (fun _ => Reader.value .strict (depthLimit - 1)) body =
      some (written, rest) ∧
    Reader.skipBlanks rest = []

namespace Reader

variable {rules : Rules} {s rest : List Char} {v : Json} {fields : List (String × Json)}

theorem number_not_object (read : number rules s = some (v, rest)) : v ≠ .object fields := by
  simp only [number, Option.bind_eq_bind, Option.bind_eq_some_iff] at read
  obtain ⟨_, _, _, _, _, _, read⟩ := read
  split at read
  next =>
    obtain ⟨rfl, _⟩ := Prod.mk.inj (Option.some.inj read)
    exact nofun
  next =>
    split at read
    next => simp at read
    next =>
      obtain ⟨rfl, _⟩ := Prod.mk.inj (Option.some.inj read)
      exact nofun

theorem array_not_object {value : Reader Json} (read : array value s = some (v, rest)) :
    v ≠ .object fields := by
  rw [array] at read
  split at read
  next =>
    obtain ⟨rfl, _⟩ := Prod.mk.inj (Option.some.inj read)
    exact nofun
  next =>
    obtain ⟨_, _, same⟩ := Option.map_eq_some_iff.1 read
    obtain ⟨rfl, _⟩ := Prod.mk.inj same
    exact nofun

/-- Only what stands behind a brace is read as an object. -/
theorem valueWith_eq_object_iff {array object : Reader Json}
    (arrays : ∀ {s v rest}, array s = some (v, rest) → v ≠ .object fields) :
    valueWith rules array object s = some (.object fields, rest) ↔
      ∃ body, skipBlanks s = '{' :: body ∧ object body = some (.object fields, rest) := by
  constructor
  · intro read
    unfold valueWith at read
    split at read
    next => simp at read
    next => simp at read
    next => simp at read
    next => simp at read
    next => exact absurd rfl (arrays read)
    next body opens => exact ⟨body, opens, read⟩
    next => exact absurd rfl (number_not_object read)
  · rintro ⟨body, opens, read⟩
    simp only [valueWith, opens, read]

end Reader

/-- A text that is read as an object writes fields, and of those with one key the last is kept. -/
theorem parse?_eq_object_iff {text : String} {fields : List (String × Json)} :
    parse? text = some (.object fields) ↔
      ∃ written, WritesObject text written ∧ fields = (SortedMap.ofList written).toList := by
  have limit : depthLimit = depthLimit - 1 + 1 := rfl
  rw [parse?, Reader.complete, limit, Reader.value]
  constructor
  · intro parsed
    split at parsed
    next v rest read =>
      split at parsed
      next last =>
        obtain rfl := Option.some.inj parsed
        obtain ⟨body, opens, read⟩ :=
          (Reader.valueWith_eq_object_iff Reader.array_not_object).1 read
        obtain ⟨⟨written, rest'⟩, writes, same⟩ := Option.map_eq_some_iff.1 read
        simp only [ofFields, Prod.mk.injEq, object.injEq] at same
        obtain ⟨rfl, rfl⟩ := same
        exact ⟨written, ⟨body, rest', opens, writes, List.isEmpty_iff.1 last⟩, rfl⟩
      next => simp at parsed
    next => simp at parsed
  · rintro ⟨written, ⟨body, rest, opens, writes, last⟩, rfl⟩
    rw [(Reader.valueWith_eq_object_iff Reader.array_not_object).2
      ⟨body, opens, by rw [writes]; rfl⟩]
    simp [last]

end Json

namespace Server

/-- The bytes of a body are the text of one JSON object that writes these fields. -/
def WritesFields (bytes : List UInt8) (written : List (String × Json)) : Prop :=
  ∃ text, bytes = Utf8.encode text ∧ Json.WritesObject text written

/-- The fields that the body of a request supplies. A body that is missing or empty supplies none,
and any other must be the text of one JSON object. -/
inductive Supplies : Option (List UInt8) → List (String × Json) → Prop where
  | missing : Supplies none []
  | empty : Supplies (some []) []
  | object {bytes : List UInt8} {written : List (String × Json)} (filled : bytes ≠ [])
      (writes : WritesFields bytes written) : Supplies (some bytes) written

variable {path : List (String × String)} {query : Option String} {body : Option (List UInt8)}
variable {bytes : List UInt8} {written fields : List (String × Json)} {c : Context} {key : String}

theorem bodyFields?_eq_some_iff (filled : bytes ≠ []) :
    bodyFields? bytes = some fields ↔
      ∃ written, WritesFields bytes written ∧ fields = (SortedMap.ofList written).toList := by
  have read : bodyFields? bytes = some fields ↔
      ∃ text, bytes = Utf8.encode text ∧ Json.parse? text = some (.object fields) := by
    simp only [← Utf8.decode?_eq_some_iff, ← Option.bind_eq_some_iff]
    rw [bodyFields?.eq_def]
    split
    next => exact absurd rfl filled
    next =>
      split
      next parsed => simp [parsed]
      next other =>
        constructor
        · intro unread
          simp at unread
        · intro parsed
          exact absurd parsed (other fields)
  rw [read]
  constructor
  · rintro ⟨text, rfl, parsed⟩
    obtain ⟨written, writes, same⟩ := Json.parse?_eq_object_iff.1 parsed
    exact ⟨written, ⟨text, rfl, writes⟩, same⟩
  · rintro ⟨written, ⟨text, rfl, writes⟩, same⟩
    exact ⟨text, rfl, Json.parse?_eq_object_iff.2 ⟨written, writes, same⟩⟩

theorem bodyFields?_eq_none_iff :
    bodyFields? (body.getD []) = none ↔
      ∃ bytes, body = some bytes ∧ bytes ≠ [] ∧ ¬ ∃ written, WritesFields bytes written := by
  constructor
  · intro refused
    cases body with
    | none => simp [bodyFields?] at refused
    | some bytes =>
        refine ⟨bytes, rfl, ?_, ?_⟩
        · rintro rfl
          simp [bodyFields?] at refused
        · rintro ⟨written, writes⟩
          have filled : bytes ≠ [] := by
            rintro rfl
            simp [bodyFields?] at refused
          have read := (bodyFields?_eq_some_iff filled).2 ⟨written, writes, rfl⟩
          simp [read] at refused
  · rintro ⟨bytes, rfl, filled, unwritten⟩
    refine Option.eq_none_iff_forall_ne_some.2 fun fields read => ?_
    obtain ⟨written, writes, _⟩ := (bodyFields?_eq_some_iff filled).1 read
    exact unwritten ⟨written, writes⟩

theorem bodyFields?_of_supplies (supplies : Supplies body written) :
    bodyFields? (body.getD []) = some (SortedMap.ofList written).toList := by
  cases supplies with
  | missing => rfl
  | empty => rfl
  | object filled writes => exact (bodyFields?_eq_some_iff filled).2 ⟨written, writes, rfl⟩

/-! ### The context -/

/-- The pairs of a query; a request without query has none. -/
def queryPairs (query : Option String) : List (String × String) := query.elim [] Query.parse

theorem parse_getD (query : Option String) : Query.parse (query.getD "") = queryPairs query := by
  cases query with
  | none => rfl
  | some q => rfl

theorem decode?_eq :
    decode? path query body =
      (bodyFields? (body.getD [])).map fun fields =>
        addFree
          (addFree (.ofParams path) ((queryPairs query).map fun p => (p.1, Json.string p.2)))
          fields := by
  rw [decode?, parse_getD]
  cases bodyFields? (body.getD []) <;> rfl

theorem decode?_eq_none_iff :
    decode? path query body = none ↔
      ∃ bytes, body = some bytes ∧ bytes ≠ [] ∧ ¬ ∃ written, WritesFields bytes written := by
  rw [decode?_eq, Option.map_eq_none_iff, bodyFields?_eq_none_iff]

/-- Each key has the value of the first source that knows it. -/
theorem get?_of_decode? (decoded : decode? path query body = some c)
    (supplies : Supplies body written) (key : String) :
    c.get? key =
      ((path.reverse.lookup key).map .string).or
        ((((queryPairs query).lookup key).map .string).or (written.reverse.lookup key)) := by
  rw [decode?_eq, bodyFields?_of_supplies supplies] at decoded
  obtain rfl := Option.some.inj decoded
  rw [get?_addFree, get?_addFree, Context.get?_ofParams, SortedMap.lookup_mapValues,
    ← SortedMap.findEntry_eq_lookup key (SortedMap.ofList written).toList, Option.or_assoc]
  exact congrArg _ (congrArg _ (SortedMap.get?_ofList written key))

/-- The keys of the context are those of the sources. -/
theorem mem_keys_of_decode? (decoded : decode? path query body = some c)
    (supplies : Supplies body written) (key : String) :
    key ∈ c.keys ↔
      key ∈ path.map Prod.fst ++ (queryPairs query).map Prod.fst ++ written.map Prod.fst := by
  rw [← SortedMap.contains_iff_mem_keys, SortedMap.contains, get?_of_decode? decoded supplies]
  simp only [Option.isSome_or, Option.isSome_map, Bool.or_eq_true, List.mem_append,
    SortedMap.lookup_isSome_iff, List.map_reverse, List.mem_reverse, or_assoc]

theorem size_of_decode? (decoded : decode? path query body = some c)
    (supplies : Supplies body written) :
    c.size =
      (path.map Prod.fst ++ (queryPairs query).map Prod.fst ++
        written.map Prod.fst).dedup.length := by
  have perm : c.keys.Perm
      (path.map Prod.fst ++ (queryPairs query).map Prod.fst ++ written.map Prod.fst).dedup := by
    refine (List.perm_ext_iff_of_nodup c.nodup_keys (List.nodup_dedup _)).2 fun key => ?_
    rw [List.mem_dedup, mem_keys_of_decode? decoded supplies]
  rw [← perm.length_eq, SortedMap.keys, List.length_map, SortedMap.size]

theorem supplies_of_decode? (decoded : decode? path query body = some c) :
    ∃ written, Supplies body written := by
  cases body with
  | none => exact ⟨[], .missing⟩
  | some bytes =>
      by_cases filled : bytes = []
      · subst filled
        exact ⟨[], .empty⟩
      · by_contra unsupplied
        have refused : decode? path query (some bytes) = none := by
          refine decode?_eq_none_iff.2 ⟨bytes, rfl, filled, ?_⟩
          rintro ⟨written, writes⟩
          exact unsupplied ⟨written, .object filled writes⟩
        simp [decoded] at refused

section Frame

variable {query' : Option String} {body' : Option (List UInt8)} {c' : Context}

/-- What the path says holds whatever else a request carries. -/
theorem get?_of_mem_path (decoded : decode? path query body = some c)
    (decoded' : decode? path query' body' = some c') (mem : key ∈ path.map Prod.fst) :
    c'.get? key = c.get? key := by
  obtain ⟨written, supplies⟩ := supplies_of_decode? decoded
  obtain ⟨written', supplies'⟩ := supplies_of_decode? decoded'
  obtain ⟨v, found⟩ : ∃ v, path.reverse.lookup key = some v := by
    rw [← Option.isSome_iff_exists, SortedMap.lookup_isSome_iff, List.map_reverse]
    exact List.mem_reverse.2 mem
  rw [get?_of_decode? decoded supplies, get?_of_decode? decoded' supplies', found]
  rfl

/-- What the query says holds whatever the body carries. -/
theorem get?_of_mem_query (decoded : decode? path query body = some c)
    (decoded' : decode? path query body' = some c') (mem : key ∈ (queryPairs query).map Prod.fst) :
    c'.get? key = c.get? key := by
  obtain ⟨written, supplies⟩ := supplies_of_decode? decoded
  obtain ⟨written', supplies'⟩ := supplies_of_decode? decoded'
  obtain ⟨v, found⟩ : ∃ v, (queryPairs query).lookup key = some v := by
    rw [← Option.isSome_iff_exists, SortedMap.lookup_isSome_iff]
    exact mem
  rw [get?_of_decode? decoded supplies, get?_of_decode? decoded' supplies', found]
  rfl

end Frame

end Server

/-- The path takes precedence over the query and the query over the body. A request is refused
exactly if it has a body that is not empty and not the text of one JSON object. Otherwise every key
has the last value that the path gives it, or else the first value that the query gives it, or else
the last value that the body gives it, and there are no other keys. So no query and no body changes
a parameter of the path, and no body changes one of the query. -/
theorem sources_take_precedence (path : List (String × String)) (query : Option String)
    (body : Option (List UInt8)) :
    let pairs := Server.queryPairs query
    (Server.decode? path query body = none ↔
      ∃ bytes, body = some bytes ∧ bytes ≠ [] ∧ ¬ ∃ written, Server.WritesFields bytes written) ∧
    ∀ c, Server.decode? path query body = some c →
      (∃ written, Server.Supplies body written) ∧
      (∀ written, Server.Supplies body written →
        (∀ key, c.get? key =
          ((path.reverse.lookup key).map .string).or
            (((pairs.lookup key).map .string).or (written.reverse.lookup key))) ∧
        c.size =
          (path.map Prod.fst ++ pairs.map Prod.fst ++ written.map Prod.fst).dedup.length) ∧
      (∀ query' body' c', Server.decode? path query' body' = some c' →
        ∀ key ∈ path.map Prod.fst, c'.get? key = c.get? key) ∧
      ∀ body' c', Server.decode? path query body' = some c' →
        ∀ key ∈ pairs.map Prod.fst, c'.get? key = c.get? key := by
  intro pairs
  refine ⟨Server.decode?_eq_none_iff, ?_⟩
  intro c decoded
  refine ⟨Server.supplies_of_decode? decoded, ?_, ?_, ?_⟩
  · intro written supplies
    exact ⟨Server.get?_of_decode? decoded supplies, Server.size_of_decode? decoded supplies⟩
  · intro query' body' c' decoded' key mem
    exact Server.get?_of_mem_path decoded decoded' mem
  · intro body' c' decoded' key mem
    exact Server.get?_of_mem_query decoded decoded' mem

/-- A request in which every source repeats keys and repeats those of the others. The first pair of
`q` in the query is no UTF-8 text, so the second one counts. -/
theorem sources_take_precedence_at_collisions :
    let path := [("p", "1"), ("p", "2")]
    let query := some "p=3&q=%FF&q=4&q=5"
    let text := "\x7b\"p\":null,\"q\":null,\"b\":true,\"b\":false\x7d"
    let body := Utf8.encode text
    ∃ c bare, Server.decode? path query (some body) = some c ∧
      Server.decode? path query none = some bare ∧
      c.get? "p" = some (.string "2") ∧ c.get? "q" = some (.string "4") ∧
      c.get? "b" = some (.bool false) ∧ c.size = 3 ∧
      bare.get? "p" = c.get? "p" ∧ bare.get? "q" = c.get? "q" := by
  intro path query text body
  have pairs : Server.queryPairs query = [("p", "3"), ("q", "4"), ("q", "5")] := by
    decide +kernel
  -- The evaluated text shows its keys, and which of its values are `false`.
  have read : ((Json.Reader.objectFields .strict
      (fun _ => Json.Reader.value .strict (Json.depthLimit - 1)) text.toList.tail).map fun r =>
        (r.1.map fun f => (f.1, f.2.same (.bool false)), r.2)) =
      some ([("p", false), ("q", false), ("b", false), ("b", true)], []) := by
    decide +kernel
  obtain ⟨⟨written, rest⟩, reads, same⟩ := Option.map_eq_some_iff.1 read
  obtain ⟨shown, rfl⟩ := Prod.mk.inj same
  have writes : Server.WritesFields body written :=
    ⟨text, rfl, text.toList.tail, [], by decide +kernel, reads, rfl⟩
  have keys : written.map Prod.fst = ["p", "q", "b", "b"] := by
    simpa [Function.comp_def] using congrArg (List.map Prod.fst) shown
  have last : written.reverse.lookup "b" = some (.bool false) := by
    have found : (written.reverse.lookup "b").map (fun v => v.same (.bool false)) = some true := by
      rw [← SortedMap.lookup_mapValues, List.map_reverse, shown]
      rfl
    obtain ⟨v, found, isFalse⟩ := Option.map_eq_some_iff.1 found
    rw [found, Json.same_bool_iff.1 isFalse]
  have supplies := Server.Supplies.object (by decide +kernel) writes
  obtain ⟨accepted, sources⟩ := sources_take_precedence path query (some body)
  obtain ⟨c, decoded⟩ : ∃ c, Server.decode? path query (some body) = some c := by
    refine Option.ne_none_iff_exists'.1 fun refused => ?_
    obtain ⟨bytes, same, _, unwritten⟩ := accepted.1 refused
    obtain rfl : body = bytes := Option.some.inj same
    exact unwritten ⟨written, writes⟩
  obtain ⟨bare, decoded'⟩ : ∃ bare, Server.decode? path query none = some bare := ⟨_, rfl⟩
  obtain ⟨_, values, inPath, inQuery⟩ := sources c decoded
  obtain ⟨value, size⟩ := values _ supplies
  rw [pairs] at value inQuery
  rw [pairs, keys] at size
  refine ⟨c, bare, decoded, decoded', value "p", value "q", (value "b").trans last, size, ?_, ?_⟩
  · exact inPath query none bare decoded' "p" (by decide)
  · exact inQuery none bare decoded' "q" (by decide)

end RequestFlow
