import RequestFlow.Json.Basic
import RequestFlow.Text.Reader

/-!
# Reading JSON text

The grammar is that of RFC 8259 without any relaxation: blanks are space, tab, line feed and
carriage return, characters below U+0020 may not stand in a string, and no text may follow the
value. Nesting is limited: `value depth` reads at most `depth` arrays and objects inside one
another, and it recurses on that limit.

A number without point and exponent that fits a 64-bit word is an integer. Every other number is a
double, whose digits are gathered in a 64-bit word and then multiplied or divided by a power of ten
(`Significand`). Digits that no longer fit the word are dropped, so the double may miss the
nearest one in its last place. Too large a number is an error.

`Rules.lenient` reads the same grammar for values that are only skipped: there a number may be too
large and a surrogate may stand alone.
-/

namespace RequestFlow.Json

namespace Reader

/-- What is checked beyond the grammar. -/
structure Rules where
  /-- Whether a number must be in the range of a double. -/
  range : Bool
  /-- Whether surrogate escapes must come in pairs. -/
  surrogates : Bool

/-- The rules for values that are kept. -/
def Rules.strict : Rules := ⟨true, true⟩

/-- The rules for values that are skipped. -/
def Rules.lenient : Rules := ⟨false, false⟩

/-- Characters allowed between the parts of a text. -/
def isBlank (c : Char) : Bool := c = ' ' ∨ c = '\t' ∨ c = '\n' ∨ c = '\r'

def skipBlanks (s : List Char) : List Char := s.dropWhile isBlank

/-! ### Numbers -/

/-- Decimal digits gathered in a 64-bit word, and the power of ten they are short of. -/
structure Significand where
  word : Nat
  exponent : Int

namespace Significand

/-- Whether one more digit fits the word. -/
def fits (word digit : Nat) : Bool := 10 * word + digit < Nat.pow 2 64

/-- Gather digits before the point: those from the first that does not fit only count. -/
def addWhole (s : Significand) : List Nat → Significand
  | [] => s
  | d :: ds =>
    if fits s.word d then addWhole ⟨10 * s.word + d, s.exponent⟩ ds
    else ⟨s.word, s.exponent + (ds.length + 1)⟩

/-- Gather digits behind the point: those from the first that does not fit are ignored. -/
def addFraction (s : Significand) : List Nat → Significand
  | [] => s
  | d :: ds =>
    if fits s.word d then addFraction ⟨10 * s.word + d, s.exponent - 1⟩ ds else s

/-- Multiply or divide by a power of ten in steps that a double holds; `none` beyond its range. -/
def scale (x : Binary64) (exponent : Int) : Option Binary64 :=
  if exponent.natAbs ≤ 308 then
    let power := Binary64.ofDecimal false 1 exponent.natAbs
    if 0 ≤ exponent then
      let y := x.mul power
      if y.isFinite then some y else none
    else some (x.div power)
  else if x.magnitude = 0 then some x
  else if 0 ≤ exponent then none
  else scale (x.div (Binary64.ofDecimal false 1 308)) (exponent + 308)
termination_by (-exponent).toNat
decreasing_by omega

def double? (s : Significand) (negative : Bool) : Option Binary64 :=
  (scale (Binary64.ofNat s.word) s.exponent).map fun x => if negative then x.neg else x

end Significand

/-- The number that the parts of a literal stand for. -/
def literal? (negative : Bool) (whole : List Nat) (fraction : Option (List Nat))
    (exponent : Option Int) : Option Number :=
  let s := Significand.addWhole ⟨0, 0⟩ whole
  match fraction, exponent with
  | none, none =>
    if s.exponent = 0 ∧ (negative = true → 0 < s.word ∧ s.word ≤ Nat.pow 2 63) then
      some (.int (if negative then -(s.word : Int) else s.word))
    else (s.double? negative).map .double
  | _, _ =>
    let s := s.addFraction (fraction.getD [])
    (Significand.double? ⟨s.word, s.exponent + exponent.getD 0⟩ negative).map .double

/-- The digits before the point: a zero alone, or digits that begin with no zero. -/
def wholeDigits? (s : List Char) : Option (List Nat × List Char) :=
  match spanDigits 10 s with
  | ([], _) => none
  | (0 :: _ :: _, _) => none
  | (digits, rest) => some (digits, rest)

def fractionDigits? : Reader (Option (List Nat))
  | '.' :: rest =>
    match spanDigits 10 rest with
    | ([], _) => none
    | (digits, rest) => some (some digits, rest)
  | s => some (none, s)

def exponentPart? : Reader (Option Int)
  | 'e' :: rest => (Binary64.readExponent? rest).map fun (e, r) => (some e, r)
  | 'E' :: rest => (Binary64.readExponent? rest).map fun (e, r) => (some e, r)
  | s => some (none, s)

def number (rules : Rules) (s : List Char) : Option (Json × List Char) := do
  let (negative, s) : Bool × List Char :=
    match s with
    | '-' :: rest => (true, rest)
    | s => (false, s)
  let (whole, s) ← wholeDigits? s
  let (fraction, s) ← fractionDigits? s
  let (exponent, s) ← exponentPart? s
  match literal? negative whole fraction exponent with
  | some n => some (.number n, s)
  | none => if rules.range then none else some (.null, s)

/-! ### Strings -/

/-- Four hexadecimal digits. -/
def codeUnit? : Reader Nat
  | a :: b :: c :: d :: rest => do
    let a ← hexValue? a
    let b ← hexValue? b
    let c ← hexValue? c
    let d ← hexValue? d
    some (((a * 16 + b) * 16 + c) * 16 + d, rest)
  | _ => none

/-- The character that stands behind a backslash in a short escape. -/
def shortEscape? : Char → Option Char
  | '"' => some '"'
  | '\\' => some '\\'
  | '/' => some '/'
  | 'b' => some '\x08'
  | 'f' => some '\x0c'
  | 'n' => some '\n'
  | 'r' => some '\r'
  | 't' => some '\t'
  | _ => none

/-- A code unit and, for the first half of a surrogate pair, the second half. -/
def codePoint? (rules : Rules) (s : List Char) : Option (Char × List Char) := do
  let (high, rest) ← codeUnit? s
  if 0xdc00 ≤ high ∧ high < 0xe000 then
    if rules.surrogates then none else some ('\ufffd', rest)
  else if 0xd800 ≤ high ∧ high < 0xdc00 then
    if rules.surrogates then
      match rest with
      | '\\' :: 'u' :: rest =>
        let (low, rest) ← codeUnit? rest
        if 0xdc00 ≤ low ∧ low < 0xe000 then
          some (Char.ofNat (0x10000 + (high - 0xd800) * 0x400 + (low - 0xdc00)), rest)
        else none
      | _ => none
    else some ('\ufffd', rest)
  else some (Char.ofNat high, rest)

/-- What stands behind a backslash. -/
def escaped? (rules : Rules) : Reader Char
  | 'u' :: rest => codePoint? rules rest
  | c :: rest => (shortEscape? c).map fun c => (c, rest)
  | [] => none

theorem codeUnit?_length {s r : List Char} {n : Nat} (h : codeUnit? s = some (n, r)) :
    r.length < s.length := by
  match s, h with
  | a :: b :: c :: d :: rest, h =>
    simp only [codeUnit?, Option.bind_eq_bind, Option.bind_eq_some_iff, Option.some.injEq,
      Prod.mk.injEq] at h
    obtain ⟨_, _, _, _, _, _, _, _, _, rfl⟩ := h
    simp only [List.length_cons]
    omega

theorem codePoint?_length {rules : Rules} {s r : List Char} {c : Char}
    (h : codePoint? rules s = some (c, r)) : r.length < s.length := by
  simp only [codePoint?, Option.bind_eq_bind, Option.bind_eq_some_iff, Prod.exists] at h
  obtain ⟨high, rest, hu, h⟩ := h
  have shorter := codeUnit?_length hu
  split at h
  · split at h
    · simp at h
    · simp only [Option.some.injEq, Prod.mk.injEq] at h
      obtain ⟨_, rfl⟩ := h
      exact shorter
  · split at h
    · split at h
      · split at h
        · simp only [Option.bind_eq_some_iff, Prod.exists] at h
          obtain ⟨low, rest', hl, h⟩ := h
          have shorter' := codeUnit?_length hl
          split at h
          · simp only [Option.some.injEq, Prod.mk.injEq] at h
            obtain ⟨_, rfl⟩ := h
            simp only [List.length_cons] at shorter
            omega
          · simp at h
        · simp at h
      · simp only [Option.some.injEq, Prod.mk.injEq] at h
        obtain ⟨_, rfl⟩ := h
        exact shorter
    · simp only [Option.some.injEq, Prod.mk.injEq] at h
      obtain ⟨_, rfl⟩ := h
      exact shorter

theorem escaped?_length {rules : Rules} {s r : List Char} {c : Char}
    (h : escaped? rules s = some (c, r)) : r.length < s.length := by
  match s, h with
  | d :: rest, h =>
    unfold escaped? at h
    split at h
    next s r' heq =>
      simp only [List.cons.injEq] at heq
      obtain ⟨_, rfl⟩ := heq
      have := codePoint?_length h
      simp only [List.length_cons]
      omega
    next s c' r' _ heq =>
      simp only [List.cons.injEq] at heq
      obtain ⟨_, rfl⟩ := heq
      simp only [Option.map_eq_some_iff, Prod.mk.injEq] at h
      obtain ⟨_, _, _, rfl⟩ := h
      simp
    next heq => simp at heq

/-- The characters of a string up to its closing quote; those already read are passed along in
reverse. -/
def stringChars (rules : Rules) (read : List Char) (s : List Char) :
    Option (List Char × List Char) :=
  match s with
  | [] => none
  | '"' :: rest => some (read.reverse, rest)
  | '\\' :: rest =>
    match _h : escaped? rules rest with
    | some (c, after) => stringChars rules (c :: read) after
    | none => none
  | c :: rest => if c.toNat < 0x20 then none else stringChars rules (c :: read) rest
termination_by s.length
decreasing_by
  · have := escaped?_length _h
    simp only [List.length_cons]
    omega
  · simp

/-- A string behind its opening quote. -/
def string (rules : Rules) : Reader String := fun s =>
  (stringChars rules [] s).map fun (cs, rest) => (String.ofList cs, rest)

/-! ### Values -/

/-- The items of an array behind its bracket, at least one of them. Every item leaves less text, so
the length of the text bounds their number. -/
def items (value : Reader Json) : Nat → List Json → Reader (List Json)
  | 0, _, _ => none
  | bound + 1, read, s => do
    let (v, rest) ← value s
    match skipBlanks rest with
    | ',' :: rest => items value bound (v :: read) rest
    | ']' :: rest => some ((v :: read).reverse, rest)
    | _ => none

def array (value : Reader Json) : Reader Json := fun s =>
  match skipBlanks s with
  | ']' :: rest => some (.array [], rest)
  | s => (items value s.length [] s).map fun (vs, rest) => (.array vs, rest)

/-- One field of an object; how its value is read may depend on the key. -/
def field? {α : Type} (rules : Rules) (value : String → Reader α) : Reader (String × α) := fun s =>
  match skipBlanks s with
  | '"' :: rest => do
    let (key, rest) ← string rules rest
    match skipBlanks rest with
    | ':' :: rest =>
      let (v, rest) ← value key rest
      some ((key, v), rest)
    | _ => none
  | _ => none

/-- The fields of an object behind its brace, at least one of them, in the order of the text. -/
def fields {α : Type} (rules : Rules) (value : String → Reader α) :
    Nat → List (String × α) → Reader (List (String × α))
  | 0, _, _ => none
  | bound + 1, read, s => do
    let (f, rest) ← field? rules value s
    match skipBlanks rest with
    | ',' :: rest => fields rules value bound (f :: read) rest
    | '}' :: rest => some ((f :: read).reverse, rest)
    | _ => none

/-- The fields of an object behind its brace, possibly none. -/
def objectFields {α : Type} (rules : Rules) (value : String → Reader α) :
    Reader (List (String × α)) := fun s =>
  match skipBlanks s with
  | '}' :: rest => some ([], rest)
  | s => fields rules value s.length [] s

/-- A value whose arrays and objects are read by the given readers. -/
def valueWith (rules : Rules) (array object : Reader Json) : Reader Json := fun s =>
  match skipBlanks s with
  | 'n' :: 'u' :: 'l' :: 'l' :: rest => some (.null, rest)
  | 't' :: 'r' :: 'u' :: 'e' :: rest => some (.bool true, rest)
  | 'f' :: 'a' :: 'l' :: 's' :: 'e' :: rest => some (.bool false, rest)
  | '"' :: rest => (string rules rest).map fun (t, rest) => (.string t, rest)
  | '[' :: rest => array rest
  | '{' :: rest => object rest
  | s => number rules s

/-- A value in which at most `depth` arrays and objects are nested. -/
def value (rules : Rules) : Nat → Reader Json
  | 0 => valueWith rules (fun _ => none) (fun _ => none)
  | depth + 1 =>
    valueWith rules (array (value rules depth)) fun s =>
      (objectFields rules (fun _ => value rules depth) s).map fun (fs, rest) => (ofFields fs, rest)

/-- A reader's result if nothing but blanks follows it. -/
def complete {α : Type} (reader : Reader α) (s : List Char) : Option α :=
  match reader s with
  | some (a, rest) => if (skipBlanks rest).isEmpty then some a else none
  | none => none

end Reader

def depthLimit : Nat := 127

def parse? (s : String) : Option Json := Reader.complete (Reader.value .strict depthLimit) s.toList

end RequestFlow.Json
