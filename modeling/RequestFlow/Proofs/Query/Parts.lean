import RequestFlow.Proofs.Server.Precedence

/-!
# The parts of a query

A query is read part by part. The pairs of two queries that are joined with an ampersand are those
of the one and then those of the other, whatever stands in them: an escape that is cut off at the
end of a part takes nothing from the next one. So a query gives the pairs of its parts in a row
(`Query.parse_intercalate`), and a part gives one pair or none. It gives none if its key or its
value is no UTF-8 after plus and percent signs are undone, and then the request is decoded as it
would be without that part.
-/

namespace RequestFlow

namespace Query

/-- The bytes of a written text with a blank for every plus sign. -/
def spacedBytes (s : List Char) : List UInt8 :=
  s.flatMap fun c => String.utf8EncodeChar (if c = '+' then ' ' else c)

/-- A written key or value is the UTF-8 of a text, once plus and percent signs are undone. -/
def Decodes (s : List Char) (text : String) : Prop :=
  percentDecode (spacedBytes s) = Utf8.encode text

/-- A part is cut at its first equals sign. One without it is all key, and its value is empty. -/
inductive Cuts : List Char → List Char → List Char → Prop where
  | atEquals (key value : List Char) (plain : '=' ∉ key) : Cuts (key ++ '=' :: value) key value
  | whole {key : List Char} (plain : '=' ∉ key) : Cuts key key []

/-- Text between ampersands whose key or value is no UTF-8. -/
structure Undecodable (part : String) : Prop where
  filled : part ≠ ""
  free : '&' ∉ part.toList
  garbled : ∀ key value, Cuts part.toList key value →
    ¬ ∃ k v, Decodes key k ∧ Decodes value v

variable {s part key value : List Char} {text : String}

theorem decodeText?_eq_some_iff : decodeText? s = some text ↔ Decodes s text := by
  rw [decodeText?, Utf8.decode?_eq_some_iff, Utf8.encode, String.toList_ofList, List.flatMap_map]
  rfl

/-! ### One part -/

theorem exists_cuts (part : List Char) : ∃ key value, Cuts part key value := by
  induction part with
  | nil => exact ⟨[], [], .whole List.not_mem_nil⟩
  | cons c rest ih =>
      by_cases equals : c = '='
      · subst equals
        exact ⟨[], rest, .atEquals [] rest List.not_mem_nil⟩
      · obtain ⟨key, value, cuts⟩ := ih
        have longer {key : List Char} (plain : '=' ∉ key) : '=' ∉ c :: key := by
          simp [Ne.symm equals, plain]
        refine ⟨c :: key, value, ?_⟩
        cases cuts with
        | atEquals key value plain => exact .atEquals (c :: key) value (longer plain)
        | whole plain => exact .whole (longer plain)

theorem takeWhile_of_plain (plain : '=' ∉ key) (rest : List Char)
    (ends : ∀ c, rest.head? = some c → c = '=') :
    (key ++ rest).takeWhile (· ≠ '=') = key ∧ (key ++ rest).dropWhile (· ≠ '=') = rest := by
  have passes : ∀ c ∈ key, decide (c ≠ '=') = true := fun c mem =>
    decide_eq_true fun same => plain (same ▸ mem)
  rw [List.takeWhile_append_of_pos passes, List.dropWhile_append_of_pos passes]
  cases rest with
  | nil => simp
  | cons c rest => simp [ends c rfl]

theorem pair?_of_cuts (cuts : Cuts part key value) :
    pair? part = (decodeText? key).bind fun k => (decodeText? value).map fun v => (k, v) := by
  have halves : part.takeWhile (· ≠ '=') = key ∧ (part.dropWhile (· ≠ '=')).drop 1 = value := by
    cases cuts with
    | atEquals key value plain =>
        obtain ⟨front, back⟩ := takeWhile_of_plain plain ('=' :: value) (by simp)
        exact ⟨front, congrArg (List.drop 1) back⟩
    | whole plain =>
        obtain ⟨front, back⟩ := takeWhile_of_plain plain [] (by simp)
        rw [List.append_nil] at front back
        exact ⟨front, congrArg (List.drop 1) back⟩
  rw [pair?, halves.1, halves.2]
  cases decodeText? key <;> cases decodeText? value <;> rfl

theorem pair?_eq_some_iff (cuts : Cuts part key value) {k v : String} :
    pair? part = some (k, v) ↔ Decodes key k ∧ Decodes value v := by
  simp [pair?_of_cuts cuts, Option.bind_eq_some_iff, decodeText?_eq_some_iff]

theorem pair?_eq_none_iff (cuts : Cuts part key value) :
    pair? part = none ↔ ¬ ∃ k v, Decodes key k ∧ Decodes value v := by
  rw [Option.eq_none_iff_forall_ne_some]
  constructor
  · rintro unread ⟨k, v, decodes⟩
    exact unread (k, v) ((pair?_eq_some_iff cuts).2 decodes)
  · rintro garbled ⟨k, v⟩ read
    exact garbled ⟨k, v, (pair?_eq_some_iff cuts).1 read⟩

theorem undecodable_iff {part : String} :
    Undecodable part ↔ part ≠ "" ∧ '&' ∉ part.toList ∧ pair? part.toList = none := by
  obtain ⟨key, value, cuts⟩ := exists_cuts part.toList
  constructor
  · rintro ⟨filled, free, garbled⟩
    exact ⟨filled, free, (pair?_eq_none_iff cuts).2 (garbled key value cuts)⟩
  · rintro ⟨filled, free, unread⟩
    exact ⟨filled, free, fun key' value' cuts' => (pair?_eq_none_iff cuts').1 unread⟩

theorem Undecodable.parse {part : String} (undecodable : Undecodable part) :
    Query.parse part = [] := by
  obtain ⟨filled, free, unread⟩ := undecodable_iff.1 undecodable
  rw [parse_of_not_mem filled free, unread]
  rfl

/-! ### All parts -/

/-- The pairs of a query are those of its parts, in their order. -/
theorem parse_intercalate (parts : List String) :
    parse ("&".intercalate parts) = parts.flatMap parse := by
  induction parts with
  | nil => rw [String.intercalate_nil]; rfl
  | cons part rest ih =>
      cases rest with
      | nil => simp
      | cons next rest =>
          rw [String.intercalate_cons_cons, parse_append, ih]
          exact List.flatMap_cons.symm

end Query

/-- A request is decoded from the pairs of its query alone. -/
theorem Server.decode?_congr {query query' : Option String}
    (same : queryPairs query = queryPairs query') (path : List (String × String))
    (body : Option (List UInt8)) : decode? path query body = decode? path query' body := by
  rw [decode?_eq, decode?_eq, same]

/-- The parts of a query are read independently of each other, whatever they are. Two queries in a
row give the pairs of both. A part that is not empty gives one pair if its key and its value are
UTF-8 after plus and percent signs are undone, and else it gives none. Such a part may stand
anywhere among other parts, or be the whole query, without making a difference to what a request is
decoded to. -/
theorem query_parts_independent :
    (∀ a b : String, Query.parse (a ++ "&" ++ b) = Query.parse a ++ Query.parse b) ∧
    (∀ part : String, part ≠ "" → '&' ∉ part.toList →
      ∃ key value, Query.Cuts part.toList key value ∧
        ((∃ k v, Query.Decodes key k ∧ Query.Decodes value v ∧ Query.parse part = [(k, v)]) ∨
          (¬ ∃ k v, Query.Decodes key k ∧ Query.Decodes value v) ∧ Query.parse part = [])) ∧
    ∀ part : String, Query.Undecodable part →
      ∀ (path : List (String × String)) (body : Option (List UInt8)),
        (∀ front back : List String,
          Server.decode? path (some ("&".intercalate (front ++ part :: back))) body =
            Server.decode? path (some ("&".intercalate (front ++ back))) body) ∧
        Server.decode? path (some part) body = Server.decode? path none body := by
  refine ⟨Query.parse_append, ?_, ?_⟩
  · intro part filled free
    obtain ⟨key, value, cuts⟩ := Query.exists_cuts part.toList
    refine ⟨key, value, cuts, ?_⟩
    rw [Query.parse_of_not_mem filled free]
    cases read : Query.pair? part.toList with
    | none => exact .inr ⟨(Query.pair?_eq_none_iff cuts).1 read, rfl⟩
    | some pair =>
        obtain ⟨decodesKey, decodesValue⟩ := (Query.pair?_eq_some_iff cuts).1 read
        exact .inl ⟨pair.1, pair.2, decodesKey, decodesValue, rfl⟩
  · intro part undecodable path body
    constructor
    · intro front back
      refine Server.decode?_congr ?_ path body
      simp only [Server.queryPairs, Option.elim_some, Query.parse_intercalate, List.flatMap_append,
        List.flatMap_cons, undecodable.parse, List.nil_append]
    · have nothing : Server.queryPairs (some part) = Server.queryPairs none := undecodable.parse
      exact Server.decode?_congr nothing path body

/-- A key that is no UTF-8 stands between a part that ends in the middle of an escape and one that
begins with the digit that the escape lacks. -/
theorem query_parts_independent_at_cut_escape :
    let part := "%FF=1"
    Query.Undecodable part ∧
      Query.parse ("a=%4" ++ "&" ++ "1=b") = [("a", "%4"), ("1", "b")] ∧
      Server.decode? [("p", "0")] (some "a=%4&%FF=1&1=b") none =
        Server.decode? [("p", "0")] (some "a=%4&1=b") none ∧
      ∃ c, Server.decode? [("p", "0")] (some "a=%4&1=b") none = some c ∧ c.size = 3 := by
  intro part
  have undecodable : Query.Undecodable part := Query.undecodable_iff.2 (by decide +kernel)
  obtain ⟨rows, _, dropped⟩ := query_parts_independent
  refine ⟨undecodable, ?_, ?_, ?_⟩
  · rw [rows]
    decide +kernel
  · exact (dropped part undecodable [("p", "0")] none).1 ["a=%4"] ["1=b"]
  · exact ⟨_, rfl, by decide +kernel⟩

end RequestFlow
