import RequestFlow.Json.Basic
import RequestFlow.Number.Shortest

/-!
# JSON text of a value

The text is compact: no blanks, the fields of an object in the order of their list. In a string the
quote, the backslash and the characters below U+0020 are escaped, the latter by their short form or
by four lower-case hexadecimal digits; all other characters stand for themselves.
-/

namespace RequestFlow.Json

/-- One lower-case hexadecimal digit. -/
def hexDigit (n : Nat) : Char :=
  if n < 10 then Char.ofNat (n + '0'.toNat) else Char.ofNat (n - 10 + 'a'.toNat)

def escape (c : Char) : List Char :=
  if c = '"' then ['\\', '"']
  else if c = '\\' then ['\\', '\\']
  else if c = '\n' then ['\\', 'n']
  else if c = '\r' then ['\\', 'r']
  else if c = '\t' then ['\\', 't']
  else if c = '\x08' then ['\\', 'b']
  else if c = '\x0c' then ['\\', 'f']
  else if c.toNat < 0x20 then
    ['\\', 'u', '0', '0', hexDigit (c.toNat / 16), hexDigit (c.toNat % 16)]
  else [c]

def quote (s : List Char) : List Char := '"' :: (s.flatMap escape ++ ['"'])

def Number.text : Number → String
  | .int n => toString n
  | .double x => Layout.json.writeDouble x

mutual

def chars : Json → List Char
  | .null => ['n', 'u', 'l', 'l']
  | .bool true => ['t', 'r', 'u', 'e']
  | .bool false => ['f', 'a', 'l', 's', 'e']
  | .number n => n.text.toList
  | .string s => quote s.toList
  | .array items => '[' :: (itemChars items ++ [']'])
  | .object fields => '{' :: (fieldChars fields ++ ['}'])

def itemChars : List Json → List Char
  | [] => []
  | [v] => v.chars
  | v :: rest => v.chars ++ ',' :: itemChars rest

def fieldChars : List (String × Json) → List Char
  | [] => []
  | [(k, v)] => quote k.toList ++ ':' :: v.chars
  | (k, v) :: rest => quote k.toList ++ ':' :: (v.chars ++ ',' :: fieldChars rest)

end

/-- The compact text of a value. -/
def text (v : Json) : String := String.ofList v.chars

end RequestFlow.Json
