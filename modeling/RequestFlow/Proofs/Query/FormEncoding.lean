import RequestFlow.Proofs.Query.Parts

/-!
# Form encoding

A list of pairs can be written as a query in many ways. `Query.Writes` is the rule for writing: it
leaves open which characters are escaped, in which case the digits of an escape are, how a blank is
written, whether the equals sign before an empty value is there, and how many ampersands stand
between the pairs and around them. What an escape stands for is the UTF-8 of a single character.

Every list of pairs can be written, and reading gives it back from each of its written forms.
-/

namespace RequestFlow

namespace Query

/-! ### The rule -/

inductive Side where
  | key
  | value

/-- The hexadecimal digits in lower and in upper case, with their values. -/
def hexDigits : List (Char × Nat) :=
  "0123456789abcdef".toList.zipIdx ++ "0123456789ABCDEF".toList.zipIdx

/-- Bytes are written as a percent sign and two hexadecimal digits each. -/
inductive WritesBytes : List UInt8 → List Char → Prop where
  | nil : WritesBytes [] []
  | cons {b : UInt8} {bytes : List UInt8} {high low : Char} {s : List Char}
      (upper : (high, b.toNat / 16) ∈ hexDigits) (lower : (low, b.toNat % 16) ∈ hexDigits)
      (rest : WritesBytes bytes s) : WritesBytes (b :: bytes) ('%' :: high :: low :: s)

/-- A blank may be written as a plus sign. A character may stand for itself unless it has a meaning
there, and every character may be escaped. -/
inductive WritesChar (side : Side) : Char → List Char → Prop where
  | plus : WritesChar side ' ' ['+']
  | plain {c : Char} (free : c ∉ ['&', '+', '%']) (inKey : side = .key → c ≠ '=') :
      WritesChar side c [c]
  | escaped {c : Char} {s : List Char} (bytes : WritesBytes (String.utf8EncodeChar c) s) :
      WritesChar side c s

/-- The characters of a text are written one after the other. -/
inductive WritesText (side : Side) : List Char → List Char → Prop where
  | nil : WritesText side [] []
  | cons {c : Char} {text s s' : List Char} (first : WritesChar side c s)
      (rest : WritesText side text s') : WritesText side (c :: text) (s ++ s')

/-- A key and a value are written with an equals sign between them. It may be left out if the value
is empty and the written key is not. -/
inductive WritesPair : String × String → List Char → Prop where
  | equals {k v : String} {key value : List Char} (writesKey : WritesText .key k.toList key)
      (writesValue : WritesText .value v.toList value) : WritesPair (k, v) (key ++ '=' :: value)
  | bare {k : String} {key : List Char} (writesKey : WritesText .key k.toList key)
      (filled : key ≠ []) : WritesPair (k, "") key

/-- Pairs are written with at least one ampersand between them. Further ampersands may stand between
them, before the first and after the last. -/
inductive Writes : List (String × String) → List Char → Prop where
  | nil : Writes [] []
  | ampersand {pairs : List (String × String)} {s : List Char} (rest : Writes pairs s) :
      Writes pairs ('&' :: s)
  | last {pair : String × String} {part : List Char} (writes : WritesPair pair part) :
      Writes [pair] part
  | cons {pair : String × String} {pairs : List (String × String)} {part s : List Char}
      (writes : WritesPair pair part) (rest : Writes pairs s) :
      Writes (pair :: pairs) (part ++ '&' :: s)

/-! ### Every list of pairs can be written -/

theorem exists_writesBytes (bytes : List UInt8) : ∃ s, WritesBytes bytes s := by
  induction bytes with
  | nil => exact ⟨[], .nil⟩
  | cons b rest ih =>
      have digit : ∀ d < 16, ∃ e ∈ hexDigits, e.2 = d := by decide
      obtain ⟨s, writes⟩ := ih
      obtain ⟨⟨high, _⟩, upper, rfl⟩ := digit (b.toNat / 16) (by have := b.toNat_lt; omega)
      obtain ⟨⟨low, _⟩, lower, rfl⟩ := digit (b.toNat % 16) (by omega)
      exact ⟨_, .cons upper lower writes⟩

theorem exists_writesText (side : Side) (text : List Char) : ∃ s, WritesText side text s := by
  induction text with
  | nil => exact ⟨[], .nil⟩
  | cons c rest ih =>
      obtain ⟨first, escapes⟩ := exists_writesBytes (String.utf8EncodeChar c)
      obtain ⟨s, writes⟩ := ih
      exact ⟨first ++ s, .cons (.escaped escapes) writes⟩

theorem exists_writes (pairs : List (String × String)) : ∃ s, Writes pairs s := by
  induction pairs with
  | nil => exact ⟨[], .nil⟩
  | cons pair rest ih =>
      obtain ⟨s, writes⟩ := ih
      obtain ⟨key, writesKey⟩ := exists_writesText .key pair.1.toList
      obtain ⟨value, writesValue⟩ := exists_writesText .value pair.2.toList
      exact ⟨_, .cons (.equals writesKey writesValue) writes⟩

/-! ### Escapes -/

variable {side : Side} {text s : List Char} {bytes : List UInt8}

/-- Only percent signs are undone. -/
theorem percentDecode_append_of_plain (plain : 0x25 ∉ bytes) (rest : List UInt8) :
    percentDecode (bytes ++ rest) = bytes ++ percentDecode rest := by
  induction bytes with
  | nil => rfl
  | cons b bytes ih =>
      obtain ⟨other, plain⟩ := List.ne_and_not_mem_of_not_mem_cons plain
      rw [List.cons_append, percentDecode.eq_def]
      simp only [Ne.symm other, ↓reduceIte, ih plain, List.cons_append]

/-- A hexadecimal digit is an ASCII character with no other meaning, and is read as its value. -/
theorem hexDigit_spec {c : Char} {d : Nat} (digit : (c, d) ∈ hexDigits) :
    c.toNat < 0x80 ∧ c ∉ ['&', '=', '+'] ∧
      hexByte? (UInt8.ofNat c.toNat) = some (UInt8.ofNat d) :=
  (by decide : ∀ e ∈ hexDigits, e.1.toNat < 0x80 ∧ e.1 ∉ ['&', '=', '+'] ∧
    hexByte? (UInt8.ofNat e.1.toNat) = some (UInt8.ofNat e.2)) (c, d) digit

theorem spacedBytes_hexDigit {c : Char} {d : Nat} (digit : (c, d) ∈ hexDigits) (s : List Char) :
    spacedBytes (c :: s) = UInt8.ofNat c.toNat :: spacedBytes s := by
  obtain ⟨ascii, other, _⟩ := hexDigit_spec digit
  have kept : c ≠ '+' := fun same => other (by simp [same])
  rw [spacedBytes, List.flatMap_cons, if_neg kept, Utf8.encodeChar_of_ascii ascii]
  rfl

theorem percentDecode_escape {b : UInt8} {high low : Char}
    (upper : (high, b.toNat / 16) ∈ hexDigits) (lower : (low, b.toNat % 16) ∈ hexDigits)
    (rest : List UInt8) :
    percentDecode (0x25 :: UInt8.ofNat high.toNat :: UInt8.ofNat low.toNat :: rest) =
      b :: percentDecode rest := by
  have byte : UInt8.ofNat (b.toNat / 16) * 16 + UInt8.ofNat (b.toNat % 16) = b := by
    apply UInt8.toNat_inj.1
    have small := b.toNat_lt
    simp only [UInt8.toNat_add, UInt8.toNat_mul, UInt8.toNat_ofNat', UInt8.toNat_ofNat]
    omega
  rw [percentDecode, if_pos rfl]
  simp only [(hexDigit_spec upper).2.2, (hexDigit_spec lower).2.2, byte]

/-- Escaped bytes are read back. -/
theorem percentDecode_writesBytes (writes : WritesBytes bytes s) (rest : List UInt8) :
    percentDecode (spacedBytes s ++ rest) = bytes ++ percentDecode rest := by
  induction writes with
  | nil => rfl
  | @cons b bytes high low s upper lower _ ih =>
      have opens (s : List Char) : spacedBytes ('%' :: s) = 0x25 :: spacedBytes s := rfl
      rw [opens, spacedBytes_hexDigit upper, spacedBytes_hexDigit lower, List.cons_append,
        List.cons_append, List.cons_append, percentDecode_escape upper lower, ih, List.cons_append]

/-! ### Texts -/

theorem percentDecode_writesChar {c : Char} (writes : WritesChar side c s) (rest : List UInt8) :
    percentDecode (spacedBytes s ++ rest) = String.utf8EncodeChar c ++ percentDecode rest := by
  cases writes with
  | plus =>
      have plain : (0x25 : UInt8) ∉ [0x20] := by decide
      exact percentDecode_append_of_plain plain rest
  | plain free _ =>
      have kept : c ≠ '+' := fun same => free (by simp [same])
      have own : spacedBytes [c] = String.utf8EncodeChar c := by
        simp [spacedBytes, kept]
      have unescaped : 0x25 ∉ String.utf8EncodeChar c := by
        intro mem
        have percent : c.toNat = '%'.toNat := (Utf8.mem_encodeChar_iff (by decide)).1 mem
        exact free (by simp [Char.toNat_inj.1 percent])
      rw [own, percentDecode_append_of_plain unescaped]
  | escaped bytes => exact percentDecode_writesBytes bytes rest

theorem percentDecode_writesText (writes : WritesText side text s) (rest : List UInt8) :
    percentDecode (spacedBytes s ++ rest) =
      text.flatMap String.utf8EncodeChar ++ percentDecode rest := by
  induction writes with
  | nil => rfl
  | @cons c text s s' first _ ih =>
      have split : spacedBytes (s ++ s') = spacedBytes s ++ spacedBytes s' := List.flatMap_append
      rw [split, List.append_assoc, percentDecode_writesChar first, ih, List.flatMap_cons,
        List.append_assoc]

/-- A written text is decoded to the text. -/
theorem Decodes.of_writes {t : String} (writes : WritesText side t.toList s) : Decodes s t := by
  have read := percentDecode_writesText writes []
  rw [List.append_nil] at read
  rw [Decodes, read, percentDecode, List.append_nil]
  rfl

/-! ### Pairs -/

theorem not_separator_of_mem_escapes (writes : WritesBytes bytes s) {c : Char} (mem : c ∈ s) :
    c ∉ ['&', '='] := by
  induction writes with
  | nil => exact absurd mem List.not_mem_nil
  | cons upper lower _ ih =>
      simp only [List.mem_cons] at mem
      rcases mem with rfl | rfl | rfl | mem
      · decide
      · intro separator
        exact (hexDigit_spec upper).2.1 (by grind)
      · intro separator
        exact (hexDigit_spec lower).2.1 (by grind)
      · exact ih mem

/-- What is written for a text separates no parts, and in a key it does not cut the part. -/
theorem not_separator_of_mem (writes : WritesText side text s) {c : Char} (mem : c ∈ s) :
    c ≠ '&' ∧ (side = .key → c ≠ '=') := by
  induction writes with
  | nil => exact absurd mem List.not_mem_nil
  | cons first _ ih =>
      rcases List.mem_append.1 mem with mem | mem
      · cases first with
        | plus => grind
        | plain free inKey =>
            obtain rfl := List.mem_singleton.1 mem
            exact ⟨fun same => free (by simp [same]), inKey⟩
        | escaped writes =>
            have other := not_separator_of_mem_escapes writes mem
            exact ⟨by grind, by grind⟩
      · exact ih mem

/-- A written pair is one part, and the pair is read from it. -/
theorem parse_of_writesPair {pair : String × String} (writes : WritesPair pair s) :
    parse (.ofList s) = [pair] := by
  have cut : s ≠ [] ∧ '&' ∉ s ∧ pair? s = some pair := by
    cases writes with
    | @equals k v key value writesKey writesValue =>
        refine ⟨by simp, ?_, ?_⟩
        · intro mem
          simp only [List.mem_append, List.mem_cons] at mem
          rcases mem with mem | mem | mem
          · exact (not_separator_of_mem writesKey mem).1 rfl
          · exact absurd mem (by decide)
          · exact (not_separator_of_mem writesValue mem).1 rfl
        · have plain : '=' ∉ key := fun mem => (not_separator_of_mem writesKey mem).2 rfl rfl
          exact (pair?_eq_some_iff (.atEquals key value plain)).2
            ⟨.of_writes writesKey, .of_writes writesValue⟩
    | @bare k _ writesKey filled =>
        refine ⟨filled, fun mem => (not_separator_of_mem writesKey mem).1 rfl, ?_⟩
        have plain : '=' ∉ s := fun mem => (not_separator_of_mem writesKey mem).2 rfl rfl
        have nothing : WritesText .value "".toList [] := .nil
        exact (pair?_eq_some_iff (.whole plain)).2 ⟨.of_writes writesKey, .of_writes nothing⟩
  obtain ⟨filled, free, read⟩ := cut
  rw [parse_of_not_mem (by simpa using filled) (by simpa using free), String.toList_ofList, read]
  rfl

theorem parse_of_writes {pairs : List (String × String)} (writes : Writes pairs s) :
    parse (.ofList s) = pairs := by
  have joined (part s : List Char) :
      parse (.ofList (part ++ '&' :: s)) = parse (.ofList part) ++ parse (.ofList s) := by
    rw [← parse_append]
    exact congrArg parse (by simp [← String.toList_inj])
  induction writes with
  | nil => rfl
  | ampersand _ ih => exact (joined [] _).trans ih
  | last writes => exact parse_of_writesPair writes
  | cons writes _ ih => rw [joined, parse_of_writesPair writes, ih, List.singleton_append]

end Query

/-- Every list of pairs has a form encoding, and from each of its encodings the list is read back,
in its order and with all repetitions. -/
theorem form_encoding_undone (pairs : List (String × String)) :
    (∃ query : String, Query.Writes pairs query.toList) ∧
      ∀ query : String, Query.Writes pairs query.toList → Query.parse query = pairs := by
  constructor
  · obtain ⟨s, writes⟩ := Query.exists_writes pairs
    exact ⟨.ofList s, by rwa [String.toList_ofList]⟩
  · intro query writes
    rw [← Query.parse_of_writes writes, String.ofList_toList]

/-- A query with a blank as a plus sign, an equals sign that stands for itself in a value, an escape
of two bytes in both cases, a key that is an escaped ampersand, and ampersands to spare. -/
theorem form_encoding_undone_with_spare_ampersands :
    let pairs := [("a ", "=é"), ("&", "")]
    let query := "&a+==%c3%A9&&%26"
    Query.Writes pairs query.toList ∧ Query.parse query = pairs := by
  intro pairs query
  have own : Query.WritesChar .key 'a' ['a'] := .plain (by decide) fun _ => by decide
  have equals : Query.WritesChar .value '=' ['='] := .plain (by decide) nofun
  have accent : Query.WritesChar .value 'é' ['%', 'c', '3', '%', 'A', '9'] := by
    have bytes : String.utf8EncodeChar 'é' = [0xc3, 0xa9] := by decide
    exact .escaped (bytes ▸ .cons (by decide) (by decide) (.cons (by decide) (by decide) .nil))
  have ampersand : Query.WritesChar .key '&' ['%', '2', '6'] := by
    have bytes : String.utf8EncodeChar '&' = [0x26] := by decide
    exact .escaped (bytes ▸ .cons (by decide) (by decide) .nil)
  have key : Query.WritesText .key "a ".toList "a+".toList := .cons own (.cons .plus .nil)
  have value : Query.WritesText .value "=é".toList "=%c3%A9".toList :=
    .cons equals (.cons accent .nil)
  have escape : Query.WritesText .key "&".toList "%26".toList := .cons ampersand .nil
  have text : query.toList =
      '&' :: ("a+".toList ++ '=' :: "=%c3%A9".toList ++ '&' :: '&' :: "%26".toList) := by
    decide
  have writes : Query.Writes pairs query.toList := by
    rw [text]
    exact .ampersand (.cons (.equals key value) (.ampersand (.last (.bare escape (by decide)))))
  exact ⟨writes, (form_encoding_undone pairs).2 query writes⟩

end RequestFlow
