import RequestFlow.Json.Printer
import RequestFlow.Json.Reader

/-!
# Numbers and strings in JSON text

The printer writes an integer in decimal digits and a string between quotes, with escapes. Here it
is shown that the reader takes both back from the head of a text. It stops where the printer
stopped: an integer ends before a character that cannot go on with it (`Json.Delimited`), a string
at its closing quote, because every quote inside is escaped.

Digits are read in two steps, as a row of values (`decimal`) and then as the number of that row; the
word in which the reader gathers them overflows only beyond 64 bits.
-/

namespace RequestFlow

/-! ### Decimal digits -/

/-- Induction on the decimal digits of a number, the last digit outermost. -/
theorem decimalInduction {motive : Nat → Prop} (single : ∀ n < 10, motive n)
    (more : ∀ n, 10 ≤ n → motive (n / 10) → motive n) (n : Nat) : motive n := by
  induction n using Nat.strongRecOn with
  | ind n ih =>
      by_cases small : n < 10
      · exact single n small
      · exact more n (by omega) (ih (n / 10) (by omega))

/-- The values of the decimal digits of a number, the first of them zero only if it stands alone. -/
def decimal (n : Nat) : List Nat := (Nat.toDigits 10 n).filterMap (digit? 10)

theorem digit?_digitChar {d : Nat} (digit : d < 10) : digit? 10 d.digitChar = some d :=
  (by decide : ∀ d < 10, digit? 10 (Nat.digitChar d) = some d) d digit

/-- A character that is a digit is none that is not. -/
theorem ne_of_digit? {base d : Nat} {c x : Char} (digit : digit? base c = some d)
    (other : digit? base x = none) : c ≠ x := by
  rintro rfl
  cases other.symm.trans digit

theorem decimal_of_lt {n : Nat} (single : n < 10) : decimal n = [n] := by
  rw [decimal, Nat.toDigits_of_lt_base single]
  simp [digit?_digitChar single]

theorem decimal_of_le {n : Nat} (more : 10 ≤ n) : decimal n = decimal (n / 10) ++ [n % 10] := by
  rw [decimal, decimal, Nat.toDigits_of_base_le (by omega) more, List.filterMap_append]
  simp [digit?_digitChar (by omega : n % 10 < 10)]

theorem decimal_ne_nil (n : Nat) : decimal n ≠ [] := by
  by_cases single : n < 10
  · simp [decimal_of_lt single]
  · simp [decimal_of_le (by omega : 10 ≤ n)]

theorem head?_decimal_ne_zero {n : Nat} (positive : 0 < n) : (decimal n).head? ≠ some 0 := by
  induction n using decimalInduction with
  | single n small =>
      rw [decimal_of_lt small]
      simp
      omega
  | more n large ih =>
      obtain ⟨d, ds, front⟩ := List.exists_cons_of_ne_nil (decimal_ne_nil (n / 10))
      have nonzero := ih (by omega)
      rw [front] at nonzero
      rwa [decimal_of_le large, front]

theorem ofDigits_decimal (n : Nat) : ofDigits 10 (decimal n) = n := by
  induction n using decimalInduction with
  | single n small =>
      rw [decimal_of_lt small]
      simp [ofDigits]
  | more n large ih =>
      rw [ofDigits] at ih
      rw [decimal_of_le large, ofDigits, List.foldl_append, ih]
      simp only [List.foldl_cons, List.foldl_nil]
      omega

theorem digit?_of_mem_toDigits {n : Nat} : ∀ c ∈ Nat.toDigits 10 n, ∃ d, digit? 10 c = some d := by
  induction n using decimalInduction with
  | single n small =>
      intro c mem
      rw [Nat.toDigits_of_lt_base small] at mem
      obtain rfl := List.mem_singleton.1 mem
      exact ⟨n, digit?_digitChar small⟩
  | more n large ih =>
      intro c mem
      rw [Nat.toDigits_of_base_le (by omega) large] at mem
      rcases List.mem_append.1 mem with front | last
      · exact ih c front
      · obtain rfl := List.mem_singleton.1 last
        exact ⟨n % 10, digit?_digitChar (by omega)⟩

/-- All digits at the head of a text are taken, if what follows them is no digit. -/
theorem spanDigits_append {base : Nat} {digits rest : List Char}
    (all : ∀ c ∈ digits, ∃ d, digit? base c = some d)
    (ends : ∀ c ∈ rest.head?, digit? base c = none) :
    spanDigits base (digits ++ rest) = (digits.filterMap (digit? base), rest) := by
  induction digits with
  | nil =>
      cases rest with
      | nil => rfl
      | cons c rest => simp [spanDigits, ends c (by simp)]
  | cons c digits ih =>
      obtain ⟨d, value⟩ := all c List.mem_cons_self
      have further := ih fun c mem => all c (List.mem_cons_of_mem _ mem)
      simp [spanDigits, value, further]

namespace Json

theorem Number.text_ofNat (m : Nat) : (int (.ofNat m)).text.toList = Nat.toDigits 10 m :=
  Nat.toList_repr

theorem Number.text_negSucc (m : Nat) :
    (int (.negSucc m)).text.toList = '-' :: Nat.toDigits 10 (m + 1) := by
  change ("-" ++ Nat.repr (m + 1)).toList = _
  rw [String.toList_append, Nat.toList_repr]
  rfl

/-- The text of an integer begins with a digit or a minus sign. -/
theorem Number.text_opens (n : Int) :
    ∃ c cs, (int n).text.toList = c :: cs ∧ (c = '-' ∨ ∃ d, digit? 10 c = some d) := by
  cases n with
  | ofNat m =>
      obtain ⟨c, cs, digits⟩ := List.exists_cons_of_ne_nil (Nat.toDigits_ne_nil (n := m) (b := 10))
      have digit := digit?_of_mem_toDigits (n := m) c (digits ▸ List.mem_cons_self)
      exact ⟨c, cs, (text_ofNat m).trans digits, .inr digit⟩
  | negSucc m => exact ⟨'-', _, text_negSucc m, .inl rfl⟩

/-- What follows a value inside an array or an object, or at the end of a text. -/
def Delimited (rest : List Char) : Prop := ∀ c ∈ rest.head?, c = ',' ∨ c = ']' ∨ c = '}'

theorem delimited_nil : Delimited [] := nofun

theorem delimited_comma (rest : List Char) : Delimited (',' :: rest) := by simp [Delimited]

theorem delimited_bracket (rest : List Char) : Delimited (']' :: rest) := by simp [Delimited]

theorem delimited_brace (rest : List Char) : Delimited ('}' :: rest) := by simp [Delimited]

namespace Reader

variable {rest : List Char}

/-! ### Integers -/

/-- Digits are gathered without loss as long as their number fits the word. -/
theorem addWhole_of_lt {word : Nat} (exponent : Int) {digits : List Nat}
    (fits : digits.foldl (fun n d => 10 * n + d) word < Nat.pow 2 64) :
    Significand.addWhole ⟨word, exponent⟩ digits =
      ⟨digits.foldl (fun n d => 10 * n + d) word, exponent⟩ := by
  induction digits generalizing word with
  | nil => rfl
  | cons d ds ih =>
      -- The word only grows, so it fits already before the last digit.
      have grows (n : Nat) : n ≤ ds.foldl (fun n d => 10 * n + d) n := by
        clear ih fits
        induction ds generalizing n with
        | nil => exact Nat.le_refl n
        | cons d ds ih => exact Nat.le_trans (by omega) (ih (10 * n + d))
      have next : Significand.fits word d = true :=
        decide_eq_true (Nat.lt_of_le_of_lt (grows (10 * word + d)) fits)
      rw [Significand.addWhole, if_pos next]
      exact ih fits

theorem literal?_decimal {negative : Bool} {n : Nat} (fits : n < Nat.pow 2 64)
    (signed : negative = true → 0 < n ∧ n ≤ Nat.pow 2 63) :
    literal? negative (decimal n) none none = some (.int (if negative then -(n : Int) else n)) := by
  have value : (decimal n).foldl (fun n d => 10 * n + d) 0 = n := ofDigits_decimal n
  rw [literal?, addWhole_of_lt 0 (value.symm ▸ fits), value]
  exact if_pos ⟨rfl, signed⟩

theorem wholeDigits?_toDigits (n : Nat) (ends : Delimited rest) :
    wholeDigits? (Nat.toDigits 10 n ++ rest) = some (decimal n, rest) := by
  have stops : ∀ c ∈ rest.head?, digit? 10 c = none := by
    intro c head
    rcases ends c head with rfl | rfl | rfl <;> decide
  have span : spanDigits 10 (Nat.toDigits 10 n ++ rest) = (decimal n, rest) :=
    spanDigits_append (digit?_of_mem_toDigits (n := n)) stops
  rw [wholeDigits?, span]
  split
  next empty => exact absurd (congrArg Prod.fst empty) (decimal_ne_nil n)
  next d ds rest' zero =>
    have digits : decimal n = 0 :: d :: ds := congrArg Prod.fst zero
    by_cases positive : 0 < n
    · exact absurd (by rw [digits]; rfl) (head?_decimal_ne_zero positive)
    · rw [decimal_of_lt (by omega)] at digits
      cases digits
  next found => rw [found]

theorem fractionDigits?_of_delimited (ends : Delimited rest) :
    fractionDigits? rest = some (none, rest) := by
  rw [fractionDigits?.eq_def]
  split
  next => simp [Delimited] at ends
  next => rfl

theorem exponentPart?_of_delimited (ends : Delimited rest) :
    exponentPart? rest = some (none, rest) := by
  rw [exponentPart?.eq_def]
  split
  next => simp [Delimited] at ends
  next => simp [Delimited] at ends
  next => rfl

/-- The digits of a natural number are read as that number. -/
theorem number_toDigits {n : Nat} (fits : n < Nat.pow 2 64) (ends : Delimited rest) :
    number .strict (Nat.toDigits 10 n ++ rest) = some (.number (.int n), rest) := by
  have unsigned (after : List Char) : Nat.toDigits 10 n ++ rest ≠ '-' :: after := by
    obtain ⟨c, cs, digits⟩ := List.exists_cons_of_ne_nil (Nat.toDigits_ne_nil (n := n) (b := 10))
    obtain ⟨d, value⟩ := digit?_of_mem_toDigits (n := n) c (digits ▸ List.mem_cons_self)
    rw [digits, List.cons_append]
    intro minus
    exact ne_of_digit? value (by decide) (List.cons.inj minus).1
  have literal : literal? false (decimal n) none none = some (.int n) :=
    literal?_decimal fits Bool.noConfusion
  rw [number]
  · simp only [wholeDigits?_toDigits n ends, fractionDigits?_of_delimited ends,
      exponentPart?_of_delimited ends, Option.bind_eq_bind, Option.bind_some, literal]
  · exact unsigned

/-- Behind a minus sign they are read as its negative. -/
theorem number_minus_toDigits {n : Nat} (positive : 0 < n) (fits : n ≤ Nat.pow 2 63)
    (ends : Delimited rest) :
    number .strict ('-' :: (Nat.toDigits 10 n ++ rest)) = some (.number (.int (-n)), rest) := by
  have wide : n < Nat.pow 2 64 := Nat.lt_of_le_of_lt fits (by decide)
  have literal : literal? true (decimal n) none none = some (.int (-n)) :=
    literal?_decimal wide fun _ => ⟨positive, fits⟩
  rw [number]
  simp only [wholeDigits?_toDigits n ends, fractionDigits?_of_delimited ends,
    exponentPart?_of_delimited ends, Option.bind_eq_bind, Option.bind_some, literal]

/-- An integer of a word is read from its text. -/
theorem number_text {n : Int} (word : isWord n = true) (ends : Delimited rest) :
    number .strict ((Number.int n).text.toList ++ rest) = some (.number (.int n), rest) := by
  simp only [isWord, Bool.and_eq_true, decide_eq_true_eq] at word
  cases n with
  | ofNat m =>
      rw [Number.text_ofNat]
      exact number_toDigits (Int.ofNat_lt.1 word.2) ends
  | negSucc m =>
      have fits : m + 1 ≤ Nat.pow 2 63 := by
        have least := word.1
        rw [Int.negSucc_eq] at least
        omega
      rw [Number.text_negSucc]
      exact number_minus_toDigits (by omega) fits ends

/-! ### Strings -/

theorem hexValue?_hexDigit {d : Nat} (digit : d < 16) : hexValue? (hexDigit d) = some d :=
  (by decide : ∀ d < 16, hexValue? (hexDigit d) = some d) d digit

/-- A character is read from the four digits of a code unit below the surrogates. -/
theorem escaped?_control {c : Char} (control : c.toNat < 0x20) (rest : List Char) :
    escaped? .strict
      ('u' :: '0' :: '0' :: hexDigit (c.toNat / 16) :: hexDigit (c.toNat % 16) :: rest) =
      some (c, rest) := by
  have high := hexValue?_hexDigit (by omega : c.toNat / 16 < 16)
  have low := hexValue?_hexDigit (by omega : c.toNat % 16 < 16)
  have unit : (0 * 16 + 0) * 16 + c.toNat / 16 = c.toNat / 16 := by omega
  have zero : hexValue? '0' = some 0 := by decide
  have same : ((0 * 16 + 0) * 16 + c.toNat / 16) * 16 + c.toNat % 16 = c.toNat := by omega
  simp only [escaped?, codePoint?, codeUnit?, zero, high, low, Option.bind_eq_bind,
    Option.bind_some, same]
  rw [if_neg (by omega), if_neg (by omega), Char.ofNat_toNat]

/-- How a character is written inside a string. -/
inductive Written (c : Char) : List Char → Prop where
  /-- Behind a backslash, by characters that stand for it. -/
  | escaped (s : List Char) (stands : ∀ rest, escaped? .strict (s ++ rest) = some (c, rest)) :
      Written c ('\\' :: s)
  /-- As it is. -/
  | plain (quote : c ≠ '"') (backslash : c ≠ '\\') (printable : ¬ c.toNat < 0x20) : Written c [c]

theorem written_escape (c : Char) : Written c (escape c) := by
  by_cases short : c = '"' ∨ c = '\\' ∨ c = '\n' ∨ c = '\r' ∨ c = '\t' ∨ c = '\x08' ∨ c = '\x0c'
  · rcases short with rfl | rfl | rfl | rfl | rfl | rfl | rfl <;> exact .escaped _ fun rest => rfl
  · simp only [not_or] at short
    obtain ⟨quote, backslash, lf, cr, tab, backspace, feed⟩ := short
    simp only [escape, quote, backslash, lf, cr, tab, backspace, feed, if_false]
    split
    next control => exact .escaped _ (escaped?_control control)
    next printable => exact .plain quote backslash printable

/-- One character is read from its escaped form. -/
theorem stringChars_escape (c : Char) (read : List Char) (rest : List Char) :
    stringChars .strict read (escape c ++ rest) = stringChars .strict (c :: read) rest := by
  have written := written_escape c
  generalize escape c = text at written ⊢
  cases written with
  | escaped s stands =>
      rw [List.cons_append, stringChars]
      split
      next c' after found =>
        obtain ⟨rfl, rfl⟩ := Prod.mk.inj (Option.some.inj ((stands rest).symm.trans found))
        rfl
      next refused => cases (stands rest).symm.trans refused
  | plain quote backslash printable =>
      rw [List.singleton_append, stringChars, if_neg printable]
      · exact quote
      · exact backslash

theorem stringChars_flatMap (cs read : List Char) (rest : List Char) :
    stringChars .strict read (cs.flatMap escape ++ '"' :: rest) =
      some (read.reverse ++ cs, rest) := by
  induction cs generalizing read with
  | nil => simp [stringChars]
  | cons c cs ih =>
      rw [List.flatMap_cons, List.append_assoc, stringChars_escape, ih]
      simp

/-- A string is read from its quoted form. -/
theorem string_flatMap (s : String) (rest : List Char) :
    string .strict (s.toList.flatMap escape ++ '"' :: rest) = some (s, rest) := by
  rw [string, stringChars_flatMap]
  simp

end Reader

end Json

end RequestFlow
