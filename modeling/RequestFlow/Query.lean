import RequestFlow.Json.Reader
import RequestFlow.Text.Utf8

/-!
# Query strings

A query is a sequence of parts between ampersands. Each part is a key and, behind the first equals
sign, a value; empty parts are skipped. In both a plus sign stands for a space and then `%XX` for a
byte. A percent sign without two hexadecimal digits behind it stands for itself. A part whose key or
value is no UTF-8 text after that is dropped, and no other part is affected.
-/

namespace RequestFlow.Query

def splitAt {α : Type} [DecidableEq α] (sep : α) : List α → List (List α)
  | [] => [[]]
  | c :: rest =>
    if c = sep then [] :: splitAt sep rest
    else
      match splitAt sep rest with
      | [] => [[c]]
      | part :: parts => (c :: part) :: parts

def hexByte? (b : UInt8) : Option UInt8 :=
  (hexValue? (Char.ofNat b.toNat)).map UInt8.ofNat

def percentDecode : List UInt8 → List UInt8
  | [] => []
  | b :: rest =>
    if b = 0x25 then
      match rest with
      | h :: l :: after =>
        match hexByte? h, hexByte? l with
        | some h, some l => (h * 16 + l) :: percentDecode after
        | _, _ => b :: percentDecode (h :: l :: after)
      | rest => b :: percentDecode rest
    else b :: percentDecode rest
termination_by s => s.length

def decodeText? (s : List Char) : Option String :=
  let spaced := s.map fun c => if c = '+' then ' ' else c
  Utf8.decode? (percentDecode (Utf8.encode (String.ofList spaced)))

def pair? (part : List Char) : Option (String × String) := do
  let key ← decodeText? (part.takeWhile (· ≠ '='))
  let value ← decodeText? ((part.dropWhile (· ≠ '=')).drop 1)
  some (key, value)

/-- The pairs of a query, in the order of the text. -/
def parse (query : String) : List (String × String) :=
  ((splitAt '&' query.toList).filter fun part => !part.isEmpty).filterMap pair?

theorem splitAt_ne_nil {α : Type} [DecidableEq α] (sep : α) (s : List α) : splitAt sep s ≠ [] := by
  cases s with
  | nil => simp [splitAt]
  | cons c rest =>
    simp only [splitAt]
    split
    · simp
    · split <;> simp

/-- Cutting at separators distributes over a separator in the text. -/
theorem splitAt_append {α : Type} [DecidableEq α] (sep : α) (s t : List α) :
    splitAt sep (s ++ sep :: t) = splitAt sep s ++ splitAt sep t := by
  induction s with
  | nil => simp [splitAt]
  | cons c rest ih =>
    simp only [List.cons_append, splitAt, ih]
    split
    · rfl
    · cases h : splitAt sep rest with
      | nil => exact absurd h (splitAt_ne_nil sep rest)
      | cons part parts => rfl

theorem splitAt_of_not_mem {α : Type} [DecidableEq α] {sep : α} {s : List α} (free : sep ∉ s) :
    splitAt sep s = [s] := by
  induction s with
  | nil => rfl
  | cons c rest ih =>
    obtain ⟨other, free⟩ := List.ne_and_not_mem_of_not_mem_cons free
    rw [splitAt, if_neg (Ne.symm other), ih free]

/-- The pairs of two queries in a row are those of the first and then those of the second. -/
theorem parse_append (a b : String) : parse (a ++ "&" ++ b) = parse a ++ parse b := by
  have text : (a ++ "&" ++ b).toList = a.toList ++ '&' :: b.toList := by simp
  rw [parse, text, splitAt_append, List.filter_append, List.filterMap_append]
  rfl

/-- Text without an ampersand is one part, unless it is empty. -/
theorem parse_of_not_mem {query : String} (filled : query ≠ "") (free : '&' ∉ query.toList) :
    parse query = (pair? query.toList).toList := by
  have kept : (!query.toList.isEmpty) = true := by simpa using filled
  rw [parse, splitAt_of_not_mem free, List.filter_cons_of_pos (by exact kept)]
  cases read : pair? query.toList <;> simp [read]

end RequestFlow.Query
