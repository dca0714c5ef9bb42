import RequestFlow.Text.Utf8

/-!
# Where texts can be cut

The bytes of a text can be cut in front of every byte that begins a character, and what is left of
them behind a text is a text again. So text stays text when it is taken apart at ASCII characters.
-/

namespace RequestFlow.Utf8

/-- Bytes that are those of a text. -/
def Valid (b : List UInt8) : Prop := ∃ s, encode s = b

variable {a b : List UInt8} {x : UInt8}

theorem encode_inj {s t : String} (same : encode s = encode t) : s = t := by
  have decoded := decode?_encode s
  rw [same, decode?_encode] at decoded
  exact (Option.some.inj decoded).symm

theorem valid_encode (s : String) : Valid (encode s) := ⟨s, rfl⟩

theorem valid_iff_chars : Valid b ↔ ∃ cs : List Char, cs.flatMap String.utf8EncodeChar = b := by
  constructor
  · rintro ⟨s, rfl⟩
    exact ⟨s.toList, rfl⟩
  · rintro ⟨cs, rfl⟩
    exact ⟨String.ofList cs, by rw [encode, String.toList_ofList]⟩

theorem valid_iff : Valid b ↔ b.toByteArray.IsValidUTF8 := by
  rw [valid_iff_chars]
  constructor
  · rintro ⟨cs, rfl⟩
    exact ⟨cs, rfl⟩
  · rintro ⟨cs, same⟩
    exact ⟨cs, (List.toByteArray_inj.1 same).symm⟩

theorem valid_nil : Valid [] := ⟨"", rfl⟩

theorem Valid.append (front : Valid a) (back : Valid b) : Valid (a ++ b) := by
  obtain ⟨s, rfl⟩ := front
  obtain ⟨t, rfl⟩ := back
  exact ⟨s ++ t, encode_append s t⟩

theorem valid_append_iff (front : Valid a) : Valid (a ++ b) ↔ Valid b := by
  obtain ⟨cs, rfl⟩ := valid_iff_chars.1 front
  induction cs with
  | nil => rfl
  | cons c cs ih =>
      rw [List.flatMap_cons, List.append_assoc, valid_iff, List.toByteArray_append]
      have own : (String.utf8EncodeChar c).toByteArray = [c].utf8Encode := by simp [List.utf8Encode]
      rw [own, ByteArray.isValidUTF8_utf8Encode_singleton_append_iff, ← valid_iff]
      exact ih (valid_iff_chars.2 ⟨cs, rfl⟩)

/-- In the bytes of a character, the first one alone begins a character. -/
theorem encodeChar_first {c : Char} {rest : List UInt8}
    (own : String.utf8EncodeChar c = a ++ x :: rest) : x.IsUTF8FirstByte ↔ a = [] := by
  have bound : a.length < (String.utf8EncodeChar c).length := by
    rw [own, List.length_append, List.length_cons]
    omega
  have here : (String.utf8EncodeChar c)[a.length] = x := by simp [own]
  rw [← here, UInt8.isUTF8FirstByte_getElem_utf8EncodeChar, List.length_eq_zero_iff]

/-- The first byte of a text begins a character. -/
theorem Valid.first (valid : Valid (x :: b)) : x.IsUTF8FirstByte := by
  obtain ⟨cs, whole⟩ := valid_iff_chars.1 valid
  cases cs with
  | nil => cases whole
  | cons c cs =>
      rw [List.flatMap_cons] at whole
      cases own : String.utf8EncodeChar c with
      | nil => exact absurd own String.utf8EncodeChar_ne_nil
      | cons y rest =>
          rw [own] at whole
          obtain rfl : y = x := (List.cons.inj whole).1
          exact (encodeChar_first (a := []) own).2 rfl

/-- What stands in front of a byte that begins a character is a text. -/
theorem Valid.front (valid : Valid (a ++ x :: b)) (first : x.IsUTF8FirstByte) : Valid a := by
  obtain ⟨cs, whole⟩ := valid_iff_chars.1 valid
  induction cs generalizing a with
  | nil => simp at whole
  | cons c cs ih =>
      have single : Valid (String.utf8EncodeChar c) := valid_iff_chars.2 ⟨[c], by simp⟩
      rw [List.flatMap_cons] at whole
      rcases List.append_eq_append_iff.1 whole with ⟨rest, rfl, others⟩ | ⟨rest, own, others⟩
      · rw [List.append_assoc, valid_append_iff single] at valid
        exact single.append (ih valid others)
      · cases rest with
        | nil =>
            rw [List.append_nil] at own
            exact own ▸ single
        | cons y rest =>
            obtain rfl : x = y := (List.cons.inj others).1
            rw [(encodeChar_first own).1 first]
            exact valid_nil

theorem Valid.cut (valid : Valid (a ++ x :: b)) (first : x.IsUTF8FirstByte) :
    Valid a ∧ Valid (x :: b) :=
  ⟨valid.front first, (valid_append_iff (valid.front first)).1 valid⟩

theorem valid_ascii {c : Char} (ascii : c.toNat < 0x80) : Valid [.ofNat c.toNat] :=
  valid_iff_chars.2 ⟨[c], by simp [encodeChar_of_ascii ascii]⟩

/-- A text is taken apart at an ASCII character. -/
theorem Valid.cut_ascii {c : Char} (ascii : c.toNat < 0x80)
    (valid : Valid (a ++ .ofNat c.toNat :: b)) : Valid a ∧ Valid b := by
  obtain ⟨front, back⟩ := valid.cut (valid_ascii ascii).first
  exact ⟨front, (valid_append_iff (valid_ascii ascii)).1 back⟩

end RequestFlow.Utf8
