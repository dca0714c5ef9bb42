/-!
# UTF-8

`encode` gives the bytes of a text, and `decode?` the text of bytes that are well-formed UTF-8.
-/

namespace RequestFlow.Utf8

def encode (s : String) : List UInt8 := s.toList.flatMap String.utf8EncodeChar

/-- The text of well-formed bytes. -/
def decode? (bytes : List UInt8) : Option String := String.fromUTF8? bytes.toByteArray

@[simp] theorem toByteArray_encode (s : String) : (encode s).toByteArray = s.toByteArray := by
  rw [← String.ofList_toList (s := s), String.toByteArray_ofList]
  simp [encode, List.utf8Encode]

/-- Every text is read back from its bytes. -/
@[simp] theorem decode?_encode (s : String) : decode? (encode s) = some s := by
  have valid : s.toByteArray.IsValidUTF8 := s.isValidUTF8
  simp only [decode?, toByteArray_encode, String.fromUTF8?, valid, ↓reduceDIte]
  rfl

/-- Bytes are read as a text exactly if they are its bytes. -/
theorem decode?_eq_some_iff {bytes : List UInt8} {s : String} :
    decode? bytes = some s ↔ bytes = encode s := by
  constructor
  · intro h
    simp only [decode?, String.fromUTF8?] at h
    split at h
    next valid =>
      obtain rfl := Option.some.inj h
      apply List.toByteArray_inj.1
      rw [toByteArray_encode]
      rfl
    next => simp at h
  · rintro rfl
    exact decode?_encode s

theorem encode_append (s t : String) : encode (s ++ t) = encode s ++ encode t := by
  simp [encode]

theorem encodeChar_of_ascii {c : Char} (ascii : c.toNat < 0x80) :
    String.utf8EncodeChar c = [UInt8.ofNat c.toNat] := by
  rw [String.utf8EncodeChar]
  exact if_pos (Nat.le_of_lt_succ ascii)

/-- An ASCII byte stands for the character of that number, and for no other. -/
theorem mem_encodeChar_iff {c : Char} {b : UInt8} (ascii : b.toNat < 0x80) :
    b ∈ String.utf8EncodeChar c ↔ c.toNat = b.toNat := by
  have byte (n : Nat) : b = UInt8.ofNat n ↔ b.toNat = n % 256 := by
    rw [← UInt8.toNat_inj, UInt8.toNat_ofNat']
  rw [String.utf8EncodeChar]
  simp only [Char.toNat]
  split
  · rw [List.mem_singleton, byte]
    omega
  · split
    · simp only [List.mem_cons, List.not_mem_nil, or_false, byte]
      omega
    · split
      · simp only [List.mem_cons, List.not_mem_nil, or_false, byte]
        omega
      · simp only [List.mem_cons, List.not_mem_nil, or_false, byte]
        omega

theorem mem_encode_iff {s : String} {b : UInt8} (ascii : b.toNat < 0x80) :
    b ∈ encode s ↔ ∃ c ∈ s.toList, c.toNat = b.toNat := by
  rw [encode, List.mem_flatMap]
  exact exists_congr fun c => and_congr_right fun _ => mem_encodeChar_iff ascii

end RequestFlow.Utf8
