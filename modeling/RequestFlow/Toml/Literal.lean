import RequestFlow.Number.Text
import RequestFlow.Text.Reader
import RequestFlow.Toml.Value

/-!
# TOML literals

Strings in quotes, of one line or of several; numbers with underscores between their digits; dates
and times. Each reader takes its literal from the head of a text and leaves the rest.
-/

namespace RequestFlow.Toml

namespace Reader

def isBlank (c : Char) : Bool := c = ' ' ∨ c = '\t'

/-- Characters that may stand in a line: the tab and everything that is no control. -/
def isLineChar (c : Char) : Bool := c = '\t' ∨ (0x20 ≤ c.toNat ∧ c.toNat ≠ 0x7f)

def skipBlanks (s : List Char) : List Char := s.dropWhile isBlank

def newline? : List Char → Option (List Char)
  | '\n' :: rest => some rest
  | '\r' :: '\n' :: rest => some rest
  | _ => none

/-! ### Strings -/

/-- A character given by its code in `n` hexadecimal digits. -/
def codePoint? (n : Nat) (s : List Char) : Option Char :=
  match (s.take n).mapM (digit? 16) with
  | some digits =>
    let code := ofDigits 16 digits
    if digits.length = n ∧ code.isValidChar then some (Char.ofNat code) else none
  | none => none

/-- The character that stands behind a backslash, and how much text writes it. -/
def escape? : List Char → Option (Char × Nat)
  | 'b' :: _ => some ('\x08', 1)
  | 'f' :: _ => some ('\x0c', 1)
  | 'n' :: _ => some ('\n', 1)
  | 'r' :: _ => some ('\r', 1)
  | 't' :: _ => some ('\t', 1)
  | '"' :: _ => some ('"', 1)
  | '\\' :: _ => some ('\\', 1)
  | 'u' :: rest => (codePoint? 4 rest).map fun c => (c, 5)
  | 'U' :: rest => (codePoint? 8 rest).map fun c => (c, 9)
  | _ => none

/-- A string of one line with escapes, up to its closing quote. -/
def basicChars (read : List Char) (s : List Char) : Option (List Char × List Char) :=
  match s with
  | [] => none
  | '"' :: rest => some (read.reverse, rest)
  | '\\' :: rest =>
    match escape? rest with
    | some (c, n) => basicChars (c :: read) (rest.drop n)
    | none => none
  | c :: rest => if isLineChar c then basicChars (c :: read) rest else none
termination_by s.length
decreasing_by
  · simp only [List.length_cons, List.length_drop]; omega
  · simp

/-- A string of one line without escapes, up to its closing quote. -/
def literalChars (read : List Char) : List Char → Option (List Char × List Char)
  | [] => none
  | '\'' :: rest => some (read.reverse, rest)
  | c :: rest => if isLineChar c then literalChars (c :: read) rest else none

/-- The end of a string of several lines, behind the three quotes that close it. Up to two more
quotes belong to the string. -/
def closeLines (quote : Char) (read rest : List Char) : List Char × List Char :=
  let inside := (rest.takeWhile (· = quote)).take 2
  (read.reverse ++ inside, rest.drop inside.length)

/-- A string of several lines with escapes, up to its closing quotes. A backslash at the end of a
line drops all blanks and line breaks behind it (`gap`). -/
def basicLines (gap : Bool) (read : List Char) (s : List Char) :
    Option (List Char × List Char) :=
  match s with
  | [] => none
  | '"' :: '"' :: '"' :: rest => some (closeLines '"' read rest)
  | '\\' :: rest =>
    if (newline? (skipBlanks rest)).isSome then basicLines true read rest
    else
      match escape? rest with
      | some (c, n) => basicLines false (c :: read) (rest.drop n)
      | none => none
  | '\n' :: rest => basicLines gap (if gap then read else '\n' :: read) rest
  | '\r' :: '\n' :: rest => basicLines gap (if gap then read else '\n' :: read) rest
  | c :: rest =>
    if gap && isBlank c then basicLines true read rest
    else if isLineChar c then basicLines false (c :: read) rest
    else none
termination_by s.length
decreasing_by
  all_goals simp only [List.length_cons, List.length_drop]
  all_goals omega

/-- A string of several lines without escapes, up to its closing quotes. -/
def literalLines (read : List Char) : List Char → Option (List Char × List Char)
  | [] => none
  | '\'' :: '\'' :: '\'' :: rest => some (closeLines '\'' read rest)
  | '\n' :: rest => literalLines ('\n' :: read) rest
  | '\r' :: '\n' :: rest => literalLines ('\n' :: read) rest
  | c :: rest => if isLineChar c then literalLines (c :: read) rest else none

def asString (r : Option (List Char × List Char)) : Option (String × List Char) :=
  r.map fun (cs, rest) => (String.ofList cs, rest)

def lineString : Reader String
  | '"' :: rest => asString (basicChars [] rest)
  | '\'' :: rest => asString (literalChars [] rest)
  | _ => none

/-- A string. A line break right behind the opening quotes of several lines is dropped. -/
def string : Reader String
  | '"' :: '"' :: '"' :: rest => asString (basicLines false [] ((newline? rest).getD rest))
  | '\'' :: '\'' :: '\'' :: rest => asString (literalLines [] ((newline? rest).getD rest))
  | s => lineString s

/-! ### Numbers -/

/-- Digits behind a first digit; an underscore may stand before each. Underscores are left out. -/
def moreDigits (base : Nat) : List Char → List Char × List Char
  | '_' :: d :: rest =>
    if (digit? base d).isSome then
      let (ds, rest) := moreDigits base rest
      (d :: ds, rest)
    else ([], '_' :: d :: rest)
  | d :: rest =>
    if (digit? base d).isSome then
      let (ds, rest) := moreDigits base rest
      (d :: ds, rest)
    else ([], d :: rest)
  | [] => ([], [])

/-- At least one digit, with underscores between digits. -/
def digits? (base : Nat) : Reader (List Char)
  | d :: rest =>
    if (digit? base d).isSome then
      let (ds, rest) := moreDigits base rest
      some (d :: ds, rest)
    else none
  | [] => none

def sign : List Char → List Char × List Char
  | '+' :: rest => (['+'], rest)
  | '-' :: rest => (['-'], rest)
  | s => ([], s)

/-- A decimal integer: a zero stands alone. -/
def decimal? (s : List Char) : Option (List Char × List Char) :=
  let (sign, s) := sign s
  match s with
  | '0' :: rest => some (sign ++ ['0'], rest)
  | s => (digits? 10 s).map fun (ds, rest) => (sign ++ ds, rest)

def exponent? : Reader (List Char)
  | c :: rest =>
    if c = 'e' ∨ c = 'E' then
      let (sign, rest) := sign rest
      (digits? 10 rest).map fun (ds, rest) => ('e' :: sign ++ ds, rest)
    else none
  | [] => none

/-- A float with a fraction, an exponent or both. Positive numbers that are too large are
refused. -/
def decimalFloat? (s : List Char) : Option (Toml × List Char) := do
  let (whole, rest) ← decimal? s
  let (tail, rest) ←
    match rest with
    | '.' :: rest => do
      let (ds, rest) ← digits? 10 rest
      let (e, rest) := (exponent? rest).getD ([], rest)
      some ('.' :: ds ++ e, rest)
    | rest => exponent? rest
  let x ← Binary64.read? (whole ++ tail)
  if x = .infinity false then none else some (.float x, rest)

def specialFloat? (s : List Char) : Option (Toml × List Char) :=
  let (sign, s) := sign s
  match s with
  | 'i' :: 'n' :: 'f' :: rest => some (.float (.infinity (sign = ['-'])), rest)
  | 'n' :: 'a' :: 'n' :: rest => some (.float .nan, rest)
  | _ => none

def integerType : IntType := ⟨true, 64⟩

/-- An integer in a base that its prefix names. -/
def basedInteger? (base : Nat) (s : List Char) : Option (Toml × List Char) := do
  let (ds, rest) ← digits? base s
  let n := ofDigits base (← ds.mapM (digit? base))
  if integerType.holds n then some (.integer n, rest) else none

def integer? : Reader Toml
  | '0' :: 'x' :: rest => basedInteger? 16 rest
  | '0' :: 'o' :: rest => basedInteger? 8 rest
  | '0' :: 'b' :: rest => basedInteger? 2 rest
  | s => do
    let (ds, rest) ← decimal? s
    some (.integer (← integerType.read? ds), rest)

/-! ### Dates and times -/

/-- A number of exactly `n` digits in a range. -/
def fixed? (n least most : Nat) (s : List Char) : Option (Nat × List Char) := do
  let digits ← (s.take n).mapM (digit? 10)
  let value := ofDigits 10 digits
  if digits.length = n ∧ least ≤ value ∧ value ≤ most then some (value, s.drop n) else none

def daysInMonth (year month : Nat) : Nat :=
  if month = 2 then
    if year % 4 = 0 ∧ (year % 100 ≠ 0 ∨ year % 400 = 0) then 29 else 28
  else if month ∈ [4, 6, 9, 11] then 30
  else 31

def date? (s : List Char) : Option (List Char) := do
  let (year, s) ← fixed? 4 0 9999 s
  let (month, s) ← fixed? 2 1 12 (← expect? '-' s)
  let (_, s) ← fixed? 2 1 (daysInMonth year month) (← expect? '-' s)
  some s

/-- What follows a time of day. A minute may have sixty-one seconds. -/
def timeOfDay? (s : List Char) : Option (List Char) := do
  let (_, s) ← fixed? 2 0 23 s
  let (_, s) ← fixed? 2 0 59 (← expect? ':' s)
  let (_, s) ← fixed? 2 0 60 (← expect? ':' s)
  match s with
  | '.' :: rest =>
    match spanDigits 10 rest with
    | ([], _) => some s
    | (_, rest) => some rest
  | s => some s

/-- What follows the offset of a time from universal time. -/
def offset? : List Char → Option (List Char)
  | c :: rest =>
    if c = 'Z' ∨ c = 'z' then some rest
    else if c = '+' ∨ c = '-' then do
      let (_, rest) ← fixed? 2 0 23 rest
      let (_, rest) ← fixed? 2 0 59 (← expect? ':' rest)
      some rest
    else none
  | [] => none

/-- What follows a time of day behind a date, with an offset or without. -/
def timeBehindDate? : List Char → Option (List Char)
  | c :: rest =>
    if c = 'T' ∨ c = 't' ∨ c = ' ' then
      (timeOfDay? rest).map fun rest => (offset? rest).getD rest
    else none
  | [] => none

/-- A date, a time, or both. -/
def time? (s : List Char) : Option (Toml × List Char) :=
  match date? s with
  | some rest => some (.time, (timeBehindDate? rest).getD rest)
  | none => (timeOfDay? s).map fun rest => (.time, rest)

/-- A number, a date or a time. A literal that is none of them entirely leaves a rest that cannot
follow a value. -/
def quantity? (s : List Char) : Option (Toml × List Char) :=
  (time? s).orElse fun _ => (decimalFloat? s).orElse fun _ =>
    (specialFloat? s).orElse fun _ => integer? s

end Reader

end RequestFlow.Toml
