import RequestFlow.Proofs.Json.Literal
import RequestFlow.Proofs.Server.Precedence
import RequestFlow.Response.Render

/-!
# JSON that is written is read back

The reader is given what the printer wrote, with more text behind it. It takes exactly the value and
leaves that text, provided that the value is nested no deeper than the reader's limit; otherwise it
refuses (`Json.Reads`). Both cases are one statement, because a value inside an array or an object
is read under a limit that is one lower, and refused exactly if it is nested too deep for that.

This holds of values whose objects are sorted and whose numbers are integers of a word
(`Json.Plain`). A double is left out: the digits that are printed need not be gathered without loss.

At the end both ways through the server are put together: the body of a rendered JSON response, sent
back as the body of a request, gives a context with the same fields.
-/

namespace RequestFlow

namespace Json

mutual

/-- Every number of the value is an integer of a 64-bit word. -/
def integral : Json → Bool
  | .number (.int n) => isWord n
  | .number (.double _) => false
  | .array items => integralItems items
  | .object fields => integralFields fields
  | _ => true

def integralItems : List Json → Bool
  | [] => true
  | v :: rest => v.integral && integralItems rest

def integralFields : List (String × Json) → Bool
  | [] => true
  | (_, v) :: rest => v.integral && integralFields rest

end

/-- A value that the printer and the reader agree on. -/
structure Plain (v : Json) : Prop where
  canonical : v.canonical = true
  integral : v.integral = true

/-- Under a limit on nesting, a value is read from the head of a text that goes on behind it, or it
is refused because it is nested too deep. -/
def Reads (limit : Nat) (v : Json) : Prop :=
  ∀ rest, Delimited rest →
    Reader.value .strict limit (v.chars ++ rest) = if v.depth ≤ limit then some (v, rest) else none

variable {v : Json} {vs : List Json} {fs : List (String × Json)} {limit : Nat} {rest : List Char}

/-! ### The parts of a value -/

theorem canonicalItems_iff : canonicalItems vs = true ↔ ∀ v ∈ vs, v.canonical = true := by
  induction vs with
  | nil => simp [canonicalItems]
  | cons v vs ih => simp [canonicalItems, ih]

theorem canonicalFields_iff : canonicalFields fs = true ↔ ∀ f ∈ fs, f.2.canonical = true := by
  induction fs with
  | nil => simp [canonicalFields]
  | cons f fs ih => simp [canonicalFields, ih]

theorem integralItems_iff : integralItems vs = true ↔ ∀ v ∈ vs, v.integral = true := by
  induction vs with
  | nil => simp [integralItems]
  | cons v vs ih => simp [integralItems, ih]

theorem integralFields_iff : integralFields fs = true ↔ ∀ f ∈ fs, f.2.integral = true := by
  induction fs with
  | nil => simp [integralFields]
  | cons f fs ih => simp [integralFields, ih]

theorem depthItems_cons_le :
    depthItems (v :: vs) ≤ limit ↔ v.depth ≤ limit ∧ depthItems vs ≤ limit :=
  Nat.max_le

theorem depthFields_cons_le {f : String × Json} :
    depthFields (f :: fs) ≤ limit ↔ f.2.depth ≤ limit ∧ depthFields fs ≤ limit :=
  Nat.max_le

namespace Plain

theorem item (plain : (array vs).Plain) (mem : v ∈ vs) : v.Plain :=
  ⟨canonicalItems_iff.1 plain.canonical v mem, integralItems_iff.1 plain.integral v mem⟩

theorem field (plain : (object fs).Plain) {f : String × Json} (mem : f ∈ fs) : f.2.Plain := by
  have canonical := plain.canonical
  simp only [Json.canonical, Bool.and_eq_true] at canonical
  exact ⟨canonicalFields_iff.1 canonical.2 f mem, integralFields_iff.1 plain.integral f mem⟩

theorem sorted (plain : (object fs).Plain) : fs.Pairwise fun a b => a.1 < b.1 := by
  have canonical := plain.canonical
  simp only [Json.canonical, Bool.and_eq_true, decide_eq_true_eq] at canonical
  exact canonical.1

/-- The text of a value begins with no blank, and not like the end of an array or an object. -/
theorem opens (plain : v.Plain) :
    ∃ c cs, v.chars = c :: cs ∧ Reader.isBlank c = false ∧ c ≠ ']' := by
  cases v with
  | null => exact ⟨'n', _, rfl, by decide, by decide⟩
  | bool b => cases b <;> exact ⟨_, _, rfl, by decide, by decide⟩
  | number n =>
      cases n with
      | double x => cases plain.integral
      | int n =>
          obtain ⟨c, cs, text, head⟩ := Number.text_opens n
          refine ⟨c, cs, text, ?_, ?_⟩
          · rcases head with rfl | ⟨d, digit⟩
            · decide
            · simp only [Reader.isBlank, decide_eq_false_iff_not]
              rintro (rfl | rfl | rfl | rfl) <;> cases digit
          · rcases head with rfl | ⟨d, digit⟩
            · decide
            · exact ne_of_digit? digit (by decide)
  | string s => exact ⟨'"', _, rfl, by decide, by decide⟩
  | array vs => exact ⟨'[', _, rfl, by decide, by decide⟩
  | object fs => exact ⟨'{', _, rfl, by decide, by decide⟩

end Plain

/-! ### Lists of values -/

namespace Reader

theorem skipBlanks_of_head {c : Char} (solid : isBlank c = false) (s : List Char) :
    skipBlanks (c :: s) = c :: s := by
  simp [skipBlanks, solid]

section Items

variable (bound : Nat) (before : List Json)

theorem items_more (read : Reads limit v) (t : List Char) :
    items (value .strict limit) (bound + 1) before (v.chars ++ ',' :: t) =
      if v.depth ≤ limit then items (value .strict limit) bound (v :: before) t else none := by
  rw [items, read _ (delimited_comma t)]
  by_cases shallow : v.depth ≤ limit
  · rw [if_pos shallow, if_pos shallow]
    rfl
  · rw [if_neg shallow, if_neg shallow]
    rfl

theorem items_last (read : Reads limit v) :
    items (value .strict limit) (bound + 1) before (v.chars ++ ']' :: rest) =
      if v.depth ≤ limit then some (before.reverse ++ [v], rest) else none := by
  rw [items, read _ (delimited_bracket rest), ← List.reverse_cons]
  by_cases shallow : v.depth ≤ limit
  · rw [if_pos shallow, if_pos shallow]
    rfl
  · rw [if_neg shallow, if_neg shallow]
    rfl

/-- The items of an array are read one after the other, and the first that is nested too deep
refuses all of them. -/
theorem items_itemChars (reads : ∀ v ∈ vs, Reads limit v) (filled : vs ≠ [])
    (enough : vs.length ≤ bound) (rest : List Char) :
    items (value .strict limit) bound before (itemChars vs ++ ']' :: rest) =
      if depthItems vs ≤ limit then some (before.reverse ++ vs, rest) else none := by
  induction vs generalizing bound before with
  | nil => exact absurd rfl filled
  | cons v vs ih =>
      have head := reads v List.mem_cons_self
      obtain ⟨bound, rfl⟩ := Nat.exists_eq_add_one_of_ne_zero (Nat.ne_zero_of_lt enough)
      cases vs with
      | nil => rw [itemChars, depthItems, depthItems, Nat.max_zero, items_last bound before head]
      | cons w vs =>
          have tail := ih bound (v :: before) (fun v mem => reads v (List.mem_cons_of_mem _ mem))
            (List.cons_ne_nil w vs) (Nat.le_of_succ_le_succ enough)
          rw [itemChars, List.append_assoc, List.cons_append, items_more bound before head, tail,
            List.reverse_cons, List.append_assoc]
          · by_cases shallow : v.depth ≤ limit
            · simp only [depthItems_cons_le, shallow, true_and, if_true, List.singleton_append]
            · simp only [depthItems_cons_le, shallow, false_and, if_false]
          · exact List.cons_ne_nil w vs

theorem length_le_itemChars (vs : List Json) : vs.length ≤ (itemChars vs).length + 1 := by
  induction vs with
  | nil => exact Nat.zero_le _
  | cons v vs ih =>
      cases vs with
      | nil => simp
      | cons w vs =>
          rw [itemChars]
          · simp only [List.length_append, List.length_cons] at ih ⊢
            omega
          · exact List.cons_ne_nil w vs

/-- An array is read behind its bracket. -/
theorem array_itemChars (reads : ∀ v ∈ vs, Reads limit v) (plain : ∀ v ∈ vs, v.Plain)
    (rest : List Char) :
    array (value .strict limit) (itemChars vs ++ ']' :: rest) =
      if depthItems vs ≤ limit then some (.array vs, rest) else none := by
  cases vs with
  | nil => rfl
  | cons v vs =>
      have enough : (v :: vs).length ≤ (itemChars (v :: vs) ++ ']' :: rest).length := by
        have bound := length_le_itemChars (v :: vs)
        simp only [List.length_append, List.length_cons] at bound ⊢
        omega
      have all := items_itemChars _ [] reads (List.cons_ne_nil v vs) enough rest
      obtain ⟨c, cs, head, solid, inside⟩ := (plain v List.mem_cons_self).opens
      obtain ⟨cs', text⟩ : ∃ cs', itemChars (v :: vs) ++ ']' :: rest = c :: cs' := by
        cases vs with
        | nil => exact ⟨_, by rw [itemChars, head]; rfl⟩
        | cons w vs => exact ⟨_, by rw [itemChars, head]; rfl; exact List.cons_ne_nil w vs⟩
      rw [text] at all ⊢
      rw [array, skipBlanks_of_head solid]
      split
      next closes => exact absurd (List.cons.inj closes).1 inside
      next =>
        rw [all]
        by_cases shallow : depthItems (v :: vs) ≤ limit
        · rw [if_pos shallow, if_pos shallow]
          rfl
        · rw [if_neg shallow, if_neg shallow]
          rfl

end Items

section Fields

variable (bound : Nat) (before : List (String × Json))

/-- One field is read up to what stands behind its value. -/
theorem field?_chars (read : Reads limit v) (key : String) (ends : Delimited rest) :
    field? .strict (fun _ => value .strict limit) (quote key.toList ++ ':' :: (v.chars ++ rest)) =
      if v.depth ≤ limit then some ((key, v), rest) else none := by
  have name := string_flatMap key (':' :: (v.chars ++ rest))
  rw [quote, List.cons_append, List.append_assoc, List.singleton_append, field?,
    skipBlanks_of_head (by decide)]
  simp only [name, Option.bind_eq_bind, Option.bind_some,
    skipBlanks_of_head (by decide : isBlank ':' = false), read rest ends]
  by_cases shallow : v.depth ≤ limit
  · rw [if_pos shallow, if_pos shallow]
    rfl
  · rw [if_neg shallow, if_neg shallow]
    rfl

theorem fields_more (read : Reads limit v) (key : String) (t : List Char) :
    fields .strict (fun _ => value .strict limit) (bound + 1) before
        (quote key.toList ++ ':' :: (v.chars ++ ',' :: t)) =
      if v.depth ≤ limit then
        fields .strict (fun _ => value .strict limit) bound ((key, v) :: before) t
      else none := by
  rw [fields, field?_chars read key (delimited_comma t)]
  by_cases shallow : v.depth ≤ limit
  · rw [if_pos shallow, if_pos shallow]
    rfl
  · rw [if_neg shallow, if_neg shallow]
    rfl

theorem fields_last (read : Reads limit v) (key : String) :
    fields .strict (fun _ => value .strict limit) (bound + 1) before
        (quote key.toList ++ ':' :: (v.chars ++ '}' :: rest)) =
      if v.depth ≤ limit then some (before.reverse ++ [(key, v)], rest) else none := by
  rw [fields, field?_chars read key (delimited_brace rest), ← List.reverse_cons]
  by_cases shallow : v.depth ≤ limit
  · rw [if_pos shallow, if_pos shallow]
    rfl
  · rw [if_neg shallow, if_neg shallow]
    rfl

/-- The fields of an object are read like the items of an array. -/
theorem fields_fieldChars (reads : ∀ f ∈ fs, Reads limit f.2) (filled : fs ≠ [])
    (enough : fs.length ≤ bound) (rest : List Char) :
    fields .strict (fun _ => value .strict limit) bound before (fieldChars fs ++ '}' :: rest) =
      if depthFields fs ≤ limit then some (before.reverse ++ fs, rest) else none := by
  induction fs generalizing bound before with
  | nil => exact absurd rfl filled
  | cons f fs ih =>
      obtain ⟨key, v⟩ := f
      have head := reads (key, v) List.mem_cons_self
      obtain ⟨bound, rfl⟩ := Nat.exists_eq_add_one_of_ne_zero (Nat.ne_zero_of_lt enough)
      cases fs with
      | nil =>
          rw [fieldChars, depthFields, depthFields, Nat.max_zero, List.append_assoc,
            List.cons_append, fields_last bound before head]
      | cons g fs =>
          have tail := ih bound ((key, v) :: before)
            (fun f mem => reads f (List.mem_cons_of_mem _ mem)) (List.cons_ne_nil g fs)
            (Nat.le_of_succ_le_succ enough)
          rw [fieldChars, List.append_assoc, List.cons_append, List.append_assoc, List.cons_append,
            fields_more bound before head, tail, List.reverse_cons, List.append_assoc]
          · by_cases shallow : v.depth ≤ limit
            · simp only [depthFields_cons_le, shallow, true_and, if_true, List.singleton_append]
            · simp only [depthFields_cons_le, shallow, false_and, if_false]
          · exact List.cons_ne_nil g fs

theorem length_le_fieldChars (fs : List (String × Json)) : fs.length ≤ (fieldChars fs).length := by
  induction fs with
  | nil => exact Nat.zero_le _
  | cons f fs ih =>
      obtain ⟨key, v⟩ := f
      cases fs with
      | nil => simp [fieldChars, quote]
      | cons g fs =>
          rw [fieldChars]
          · simp only [List.length_append, List.length_cons] at ih ⊢
            omega
          · exact List.cons_ne_nil g fs

/-- The fields of an object are read behind its brace. -/
theorem objectFields_fieldChars (reads : ∀ f ∈ fs, Reads limit f.2) (rest : List Char) :
    objectFields .strict (fun _ => value .strict limit) (fieldChars fs ++ '}' :: rest) =
      if depthFields fs ≤ limit then some (fs, rest) else none := by
  cases fs with
  | nil => rfl
  | cons f fs =>
      have enough : (f :: fs).length ≤ (fieldChars (f :: fs) ++ '}' :: rest).length := by
        have bound := length_le_fieldChars (f :: fs)
        simp only [List.length_append, List.length_cons] at bound ⊢
        omega
      have all := fields_fieldChars _ [] reads (List.cons_ne_nil f fs) enough rest
      obtain ⟨cs, text⟩ : ∃ cs, fieldChars (f :: fs) ++ '}' :: rest = '"' :: cs := by
        cases fs with
        | nil => exact ⟨_, rfl⟩
        | cons g fs => exact ⟨_, rfl⟩
      rw [text] at all ⊢
      rw [objectFields, skipBlanks_of_head (by decide)]
      exact all

end Fields

/-! ### Values -/

/-- A number is read wherever a digit or a minus sign stands. -/
theorem valueWith_number {rules : Rules} {array object : Reader Json} {c : Char}
    (head : c = '-' ∨ ∃ d, digit? 10 c = some d) (s : List Char) :
    valueWith rules array object (c :: s) = number rules (c :: s) := by
  have other (x : Char) (minus : x ≠ '-') (digit : digit? 10 x = none) : c ≠ x := by
    rcases head with rfl | ⟨d, value⟩
    · exact minus.symm
    · exact ne_of_digit? value digit
  have solid : isBlank c = false := by
    simp only [isBlank, decide_eq_false_iff_not, not_or]
    exact ⟨other _ (by decide) (by decide), other _ (by decide) (by decide),
      other _ (by decide) (by decide), other _ (by decide) (by decide)⟩
  rw [valueWith, skipBlanks_of_head solid]
  split
  next same => exact absurd (List.cons.inj same).1 (other _ (by decide) (by decide))
  next same => exact absurd (List.cons.inj same).1 (other _ (by decide) (by decide))
  next same => exact absurd (List.cons.inj same).1 (other _ (by decide) (by decide))
  next same => exact absurd (List.cons.inj same).1 (other _ (by decide) (by decide))
  next same => exact absurd (List.cons.inj same).1 (other _ (by decide) (by decide))
  next same => exact absurd (List.cons.inj same).1 (other _ (by decide) (by decide))
  next => rfl

/-- A value without parts is read under any limit. -/
theorem valueWith_chars {array object : Reader Json} (plain : v.Plain) (ends : Delimited rest)
    (single : v.depth = 0) (limit : Nat) :
    valueWith .strict array object (v.chars ++ rest) =
      if v.depth ≤ limit then some (v, rest) else none := by
  rw [single, if_pos (Nat.zero_le limit)]
  cases v with
  | null => rfl
  | bool b => cases b <;> rfl
  | number n =>
      cases n with
      | double x => cases plain.integral
      | int n =>
          obtain ⟨c, cs, text, head⟩ := Number.text_opens n
          have read := number_text plain.integral ends
          rw [text] at read
          rw [chars, text, List.cons_append, valueWith_number head]
          exact read
  | string s =>
      rw [chars, quote, List.cons_append, List.append_assoc, List.singleton_append, valueWith,
        skipBlanks_of_head (by decide)]
      simp only [string_flatMap, Option.map_some]
  | array vs => cases single
  | object fs => cases single

end Reader

/-- The keys of an object that is written are sorted, so reading them in changes nothing. -/
theorem ofFields_of_sorted (sorted : fs.Pairwise fun a b => a.1 < b.1) : ofFields fs = .object fs :=
  congrArg ofMap (SortedMap.foldl_insert_toList ⟨fs, sorted⟩)

/-- Every plain value is read under every limit that its nesting keeps to, and under no other. -/
theorem Plain.reads (plain : v.Plain) (limit : Nat) : Reads limit v := by
  -- The induction follows the reader, which spends the limit, and not the value.
  induction limit generalizing v with
  | zero =>
      intro rest ends
      rw [Reader.value]
      cases v with
      | array vs => rfl
      | object fs => rfl
      | _ => exact Reader.valueWith_chars plain ends rfl 0
  | succ limit ih =>
      intro rest ends
      rw [Reader.value]
      cases v with
      | array vs =>
          have items := Reader.array_itemChars (fun v mem => ih (plain.item mem))
            (fun v mem => plain.item mem) rest
          rw [chars, List.cons_append, List.append_assoc, List.singleton_append, Reader.valueWith,
            Reader.skipBlanks_of_head (by decide)]
          simp only [items, depth, Nat.add_le_add_iff_right]
      | object fs =>
          have fields := Reader.objectFields_fieldChars (fun f mem => ih (plain.field mem)) rest
          rw [chars, List.cons_append, List.append_assoc, List.singleton_append, Reader.valueWith,
            Reader.skipBlanks_of_head (by decide)]
          simp only [fields, depth, Nat.add_le_add_iff_right]
          by_cases shallow : depthFields fs ≤ limit
          · simp only [if_pos shallow, Option.map_some, ofFields_of_sorted plain.sorted]
          · simp only [if_neg shallow, Option.map_none]
      | _ => exact Reader.valueWith_chars plain ends rfl _

/-- What is printed is parsed back, if it is not nested too deep. -/
theorem parse?_text (plain : v.Plain) :
    parse? v.text = if v.depth ≤ depthLimit then some v else none := by
  have read := plain.reads depthLimit [] delimited_nil
  rw [List.append_nil] at read
  rw [parse?, text, String.toList_ofList, Reader.complete, read]
  by_cases shallow : v.depth ≤ depthLimit
  · rw [if_pos shallow, if_pos shallow]
    rfl
  · rw [if_neg shallow, if_neg shallow]

end Json

namespace Server

/-- Adding the entries of a map to nothing gives that map. -/
theorem addFree_toList (c : Context) : addFree ∅ c.toList = c := by
  apply SortedMap.ext_get?
  intro key
  rw [get?_addFree, SortedMap.get?_empty, Option.none_or, ← SortedMap.findEntry_eq_lookup]
  rfl

theorem bodyFields?_text {fs : List (String × Json)} (plain : (Json.object fs).Plain) :
    bodyFields? (Utf8.encode (Json.object fs).text) =
      if (Json.object fs).depth ≤ Json.depthLimit then some fs else none := by
  have filled : Utf8.encode (Json.object fs).text ≠ [] := by
    intro empty
    have text := Utf8.decode?_encode (Json.object fs).text
    rw [empty] at text
    exact List.cons_ne_nil _ _ (String.ofList_eq_empty_iff.1 (Option.some.inj text).symm)
  rw [bodyFields?.eq_def]
  split
  next empty => exact absurd empty filled
  next =>
    rw [Utf8.decode?_encode, Option.bind_some, Json.parse?_text plain]
    by_cases shallow : (Json.object fs).depth ≤ Json.depthLimit
    · rw [if_pos shallow, if_pos shallow]
    · rw [if_neg shallow, if_neg shallow]

end Server

/-- A JSON object that is rendered is decoded to what it was. Building and rendering a response with
the object logs nothing and ends with its text as the body. A request with that body, and with
neither path parameters nor a query, has a context of exactly the object's fields, if arrays and
objects are nested at most 127 deep in it, and is refused if they are nested deeper. -/
theorem rendered_json_decodes (fields : List (String × Json))
    (canonical : (Json.object fields).canonical = true)
    (integral : (Json.object fields).integral = true) :
    ∃ rendered : Rendered,
      (Response.ofJson (.json (.object fields)) >>= Response.render : Run Rendered) =
        ⟨[], .ok rendered⟩ ∧
      ((Json.object fields).depth ≤ 127 →
        ∃ c, Server.decode? [] none (some rendered.body) = some c ∧ c.toList = fields) ∧
      (128 ≤ (Json.object fields).depth →
        Server.decode? [] none (some rendered.body) = none) := by
  have plain : (Json.object fields).Plain := ⟨canonical, integral⟩
  have body := Server.bodyFields?_text plain
  rw [Json.depthLimit] at body
  refine ⟨_, rfl, ?_, ?_⟩
  · intro shallow
    refine ⟨⟨fields, plain.sorted⟩, ?_, rfl⟩
    rw [if_pos shallow] at body
    rw [Server.decode?_eq]
    exact (congrArg (Option.map _) body).trans
      (congrArg some (Server.addFree_toList ⟨fields, plain.sorted⟩))
  · intro deep
    rw [if_neg (Nat.not_le_of_lt deep)] at body
    rw [Server.decode?_eq]
    exact congrArg (Option.map _) body

/-- An object with the extreme integers of a word, and with a quote, a control character and a
character beyond one byte in a nested string. -/
theorem rendered_json_decodes_at_extremes :
    let fields : List (String × Json) :=
      [("a\"b", .array [.number (.int (-9223372036854775808)),
        .number (.int 18446744073709551615), .string "\n\u0001é"]), ("c", .object [])]
    (Json.object fields).canonical = true ∧ (Json.object fields).integral = true ∧
      ∃ rendered : Rendered,
        (Response.ofJson (.json (.object fields)) >>= Response.render : Run Rendered) =
          ⟨[], .ok rendered⟩ ∧
        ∃ c, Server.decode? [] none (some rendered.body) = some c ∧ c.toList = fields := by
  intro fields
  have canonical : (Json.object fields).canonical = true := by decide
  have integral : (Json.object fields).integral = true := by decide
  obtain ⟨rendered, renders, shallow, _⟩ := rendered_json_decodes fields canonical integral
  exact ⟨canonical, integral, rendered, renders, shallow (by decide)⟩

end RequestFlow
