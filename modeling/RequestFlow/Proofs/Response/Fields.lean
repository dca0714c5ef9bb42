import Mathlib.Data.List.Basic
import RequestFlow.Response.Render

/-!
# The header fields of a rendered response

Rendering goes through the headers of a response and appends them one after the other to a multimap
that may already hold the content type of the body. What comes out is a filter of the list that was
given: the fields of a name are the headers of that name that can be sent, in their order
(`Response.get?_sentHeaders`). A header can be sent if it satisfies `Http.IsField`, and then it
holds no byte with which a field could be ended. Those that cannot be sent leave no trace but a
report.
-/

namespace RequestFlow

namespace Http

/-- ASCII letters, digits and the punctuation that may stand in a token. -/
def IsTokenChar (c : Char) : Prop :=
  ('a' ≤ c ∧ c ≤ 'z') ∨ ('A' ≤ c ∧ c ≤ 'Z') ∨ ('0' ≤ c ∧ c ≤ '9') ∨
    c ∈ "!#$%&'*+-.^_`|~".toList

/-- A header that is valid: its name is a token of at most 65535 characters, and its value has no
control bytes but the tab. -/
structure IsField (header : String × String) : Prop where
  length : 1 ≤ header.1.length ∧ header.1.length ≤ 65535
  token : ∀ c ∈ header.1.toList, IsTokenChar c
  value : ∀ b ∈ Utf8.encode header.2, (0x20 ≤ b.toNat ∨ b.toNat = 0x09) ∧ b.toNat ≠ 0x7f

/-- A text that cannot end a line or a message, whatever it is written into. -/
def IsClean (s : String) : Prop := ∀ b ∈ Utf8.encode s, b ∉ ([0x0d, 0x0a, 0x00] : List UInt8)

instance (s : String) : Decidable (IsClean s) :=
  inferInstanceAs (Decidable (∀ b ∈ Utf8.encode s, b ∉ [0x0d, 0x0a, 0x00]))

variable {s : String} {h : Headers} {fields : List (String × String)} {name : String}

theorem isTokenChar_iff {c : Char} : isTokenChar c = true ↔ IsTokenChar c := by
  unfold isTokenChar IsTokenChar Char.isAlphanum Char.isAlpha Char.isUpper Char.isLower Char.isDigit
  simp only [Bool.or_eq_true, Bool.and_eq_true, decide_eq_true_eq, List.contains_iff_mem,
    Char.le_def]
  tauto

theorem isFieldName_iff :
    isFieldName s = true ↔ (1 ≤ s.length ∧ s.length ≤ 65535) ∧ ∀ c ∈ s.toList, IsTokenChar c := by
  have filled : (!s.isEmpty) = true ↔ 1 ≤ s.length := by
    rw [Bool.not_eq_true', String.isEmpty_eq_false_iff, Nat.one_le_iff_ne_zero, ne_eq, ne_eq,
      String.length_eq_zero_iff]
  simp only [isFieldName, isToken, Bool.and_eq_true, filled, List.all_eq_true, isTokenChar_iff,
    decide_eq_true_eq]
  tauto

/-- The controls of a text are those of its bytes. -/
theorem isFieldValue_iff :
    isFieldValue s = true ↔
      ∀ b ∈ Utf8.encode s, (0x20 ≤ b.toNat ∨ b.toNat = 0x09) ∧ b.toNat ≠ 0x7f := by
  have char {c : Char} : isFieldChar c = true ↔
      (0x20 ≤ c.toNat ∨ c.toNat = 0x09) ∧ c.toNat ≠ 0x7f := by
    have tab : c = '\t' ↔ c.toNat = 0x09 := Char.toNat_inj.symm
    simp only [isFieldChar, Bool.or_eq_true, decide_eq_true_eq, Bool.and_eq_true, tab]
    omega
  rw [isFieldValue, List.all_eq_true]
  constructor
  · intro allowed b mem
    by_cases ascii : b.toNat < 0x80
    · obtain ⟨c, mem, same⟩ := (Utf8.mem_encode_iff ascii).1 mem
      exact same ▸ char.1 (allowed c mem)
    · omega
  · intro allowed c mem
    by_cases ascii : c.toNat < 0x80
    · have number : (UInt8.ofNat c.toNat).toNat = c.toNat := by
        rw [UInt8.toNat_ofNat']
        omega
      have written := (Utf8.mem_encode_iff (by omega)).2 ⟨c, mem, number.symm⟩
      exact char.2 (number ▸ allowed _ written)
    · exact char.2 (by omega)

theorem isSendable_iff {header : String × String} :
    Response.isSendable header = true ↔ IsField header := by
  rw [Response.isSendable, Bool.and_eq_true, isFieldName_iff, isFieldValue_iff]
  constructor
  · rintro ⟨⟨length, token⟩, value⟩
    exact ⟨length, token, value⟩
  · rintro ⟨length, token, value⟩
    exact ⟨⟨length, token⟩, value⟩

/-! ### Clean texts -/

theorem isClean_of_value
    (value : ∀ b ∈ Utf8.encode s, (0x20 ≤ b.toNat ∨ b.toNat = 0x09) ∧ b.toNat ≠ 0x7f) :
    IsClean s := by
  intro b mem ends
  have allowed := (value b mem).1
  have control : b.toNat = 0x0d ∨ b.toNat = 0x0a ∨ b.toNat = 0x00 := by
    simpa [← UInt8.toNat_inj] using ends
  omega

theorem le_toNat_toLower (c : Char) : c.toNat ≤ c.toLower.toNat := by
  unfold Char.toLower
  split
  next upper =>
    have small : c.val.toNat ≤ 90 := UInt32.le_iff_toNat_le.1 upper.2
    have shifted : (c.val + ('a'.val - 'A'.val)).toNat = c.val.toNat + 32 := by
      rw [UInt32.toNat_add]
      have distance : ('a'.val - 'A'.val).toNat = 32 := by decide
      omega
    exact Nat.le_trans (Nat.le_add_right _ 32) (Nat.le_of_eq shifted.symm)
  next => exact Nat.le_refl _

theorem IsTokenChar.le {c : Char} (token : IsTokenChar c) : 0x20 ≤ c.toNat := by
  rcases token with ⟨lower, _⟩ | ⟨upper, _⟩ | ⟨digit, _⟩ | mark
  · exact Nat.le_trans (by decide) (UInt32.le_iff_toNat_le.1 (Char.le_def.1 lower))
  · exact Nat.le_trans (by decide) (UInt32.le_iff_toNat_le.1 (Char.le_def.1 upper))
  · exact Nat.le_trans (by decide) (UInt32.le_iff_toNat_le.1 (Char.le_def.1 digit))
  · have marks : "!#$%&'*+-.^_`|~".toList.all (fun c => 0x20 ≤ c.toNat) = true := by decide +kernel
    exact of_decide_eq_true (List.all_eq_true.1 marks c mark)

/-- The name of a field is clean in lower case as well. -/
theorem isClean_foldCase (token : ∀ c ∈ s.toList, IsTokenChar c) : IsClean (foldCase s) := by
  intro b mem ends
  have control : b.toNat < 0x20 := by
    have numbers : b.toNat = 0x0d ∨ b.toNat = 0x0a ∨ b.toNat = 0x00 := by
      simpa [← UInt8.toNat_inj] using ends
    omega
  obtain ⟨c, folded, same⟩ := (Utf8.mem_encode_iff (by omega)).1 mem
  rw [foldCase, String.toList_ofList, List.mem_map] at folded
  obtain ⟨c, own, rfl⟩ := folded
  have printable := (token c own).le
  have kept := le_toNat_toLower c
  omega

/-! ### The multimap -/

namespace Headers

/-- What a multimap holds under a name with these values. -/
def listed (values : List String) : Option (List String) :=
  if values = [] then none else some values

variable {key value : String} {values : List String}

theorem get?_append (held : h.get? key = listed values) :
    (h.append name value).get? key =
      listed (values ++ if foldCase name = key then [value] else []) := by
  rw [append, SortedMap.get?_alter]
  split
  next same =>
    subst same
    rw [held, listed, listed]
    by_cases first : values = [] <;> simp [first]
  next other => simp [Ne.symm other, held]

/-- To append fields is to append those of each name. -/
theorem get?_foldl_append (held : h.get? key = listed values) :
    (fields.foldl (fun h f => h.append f.1 f.2) h).get? key =
      listed (values ++ (fields.filter fun f => foldCase f.1 = key).map Prod.snd) := by
  induction fields generalizing h values with
  | nil => simpa using held
  | cons f rest ih =>
      rw [List.foldl_cons, ih (get?_append held), List.filter_cons, List.append_assoc]
      by_cases own : foldCase f.1 = key <;> simp [own]

end Headers

end Http

namespace Response

/-- The values that a response gives to a name in lower case: the content type of its body, and then
those of its headers that can be sent. -/
def fieldValues (r : Response) (name : String) : List String :=
  (if name = "content-type" then r.body.contentType?.toList else []) ++
    ((r.headers.filter isSendable).filter fun h => Http.foldCase h.1 = name).map Prod.snd

variable {r : Response} {name v : String}

theorem get?_contentHeaders (body : Body) (name : String) :
    (contentHeaders body).get? name =
      Http.Headers.listed (if name = "content-type" then body.contentType?.toList else []) := by
  have folded : Http.foldCase "content-type" = "content-type" := by decide
  rw [contentHeaders]
  split
  next type held =>
    have nothing : (∅ : Http.Headers).get? name = Http.Headers.listed [] := rfl
    rw [Http.Headers.get?_append nothing, folded]
    by_cases own : name = "content-type"
    · simp [own, held]
    · simp [own, Ne.symm own]
  next held => simp [held, Http.Headers.listed]

/-- The fields of a response are a filter of its headers, behind the content type of its body. -/
theorem get?_sentHeaders (r : Response) (name : String) :
    r.sentHeaders.get? name = Http.Headers.listed (r.fieldValues name) :=
  Http.Headers.get?_foldl_append (get?_contentHeaders r.body name)

theorem mem_fieldValues (mem : v ∈ r.fieldValues name) :
    name = "content-type" ∧ r.body.contentType? = some v ∨
      ∃ h, Http.IsField h ∧ Http.foldCase h.1 = name ∧ h.2 = v := by
  rw [fieldValues, List.mem_append] at mem
  rcases mem with own | given
  · split at own
    next same => exact .inl ⟨same, Option.mem_toList.1 own⟩
    next => exact absurd own List.not_mem_nil
  · obtain ⟨h, mem, rfl⟩ := List.mem_map.1 given
    obtain ⟨sendable, folded⟩ := List.mem_filter.1 mem
    have valid := Http.isSendable_iff.1 (List.mem_filter.1 sendable).2
    exact .inr ⟨h, valid, of_decide_eq_true folded, rfl⟩

theorem isClean_contentType {body : Body} (type : body.contentType? = some v) :
    Http.IsClean v := by
  cases body with
  | empty => simp [Body.contentType?] at type
  | text _ =>
      obtain rfl := Option.some.inj type
      decide +kernel
  | json _ =>
      obtain rfl := Option.some.inj type
      decide +kernel
  | bytes type' _ =>
      obtain rfl := Option.some.inj type
      cases type' <;> decide +kernel

/-- Nothing that is sent ends a line or a message. -/
theorem isClean_of_sentHeaders {values : List String}
    (held : r.sentHeaders.get? name = some values) :
    Http.IsClean name ∧ ∀ v ∈ values, Http.IsClean v := by
  rw [get?_sentHeaders, Http.Headers.listed] at held
  split at held
  next => simp at held
  next filled =>
    obtain rfl := Option.some.inj held
    have clean : ∀ v ∈ r.fieldValues name, Http.IsClean name ∧ Http.IsClean v := by
      intro v mem
      rcases mem_fieldValues mem with ⟨rfl, type⟩ | ⟨h, valid, rfl, rfl⟩
      · exact ⟨by decide +kernel, isClean_contentType type⟩
      · exact ⟨Http.isClean_foldCase valid.token, Http.isClean_of_value valid.value⟩
    obtain ⟨v, mem⟩ := List.exists_mem_of_ne_nil _ filled
    exact ⟨(clean v mem).1, fun v mem => (clean v mem).2⟩

/-- A header that cannot be sent makes no difference to those that can. -/
theorem sentHeaders_of_not_sendable {front back : List (String × String)} {bad : String × String}
    (split : r.headers = front ++ bad :: back) (invalid : isSendable bad = false) :
    { r with headers := front ++ back }.sentHeaders = r.sentHeaders := by
  simp [sentHeaders, split, invalid]

end Response

end RequestFlow
