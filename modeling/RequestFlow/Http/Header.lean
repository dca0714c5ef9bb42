import RequestFlow.SortedMap

/-!
# HTTP header fields

A field name is a token of at most 65535 characters and is compared in lower case; a field value may
hold any character except the controls other than the tab. `Headers` is the multimap of a message:
per name, in lower case, its values in the order in which they were appended.
-/

namespace RequestFlow.Http

def isTokenChar (c : Char) : Bool :=
  c.isAlphanum || "!#$%&'*+-.^_`|~".toList.contains c

def isToken (s : String) : Bool := !s.isEmpty && s.toList.all isTokenChar

def isFieldName (s : String) : Bool := isToken s && s.length ≤ 65535

def isFieldChar (c : Char) : Bool := c = '\t' || (0x20 ≤ c.toNat && c.toNat ≠ 0x7f)

def isFieldValue (s : String) : Bool := s.toList.all isFieldChar

/-- The form in which field names are compared: ASCII letters in lower case. -/
def foldCase (s : String) : String := String.ofList (s.toList.map Char.toLower)

abbrev Headers := SortedMap (List String)

namespace Headers

/-- Add a value behind those of the same name. -/
def append (h : Headers) (name value : String) : Headers :=
  h.alter (foldCase name) [] (· ++ [value])

def values (h : Headers) (name : String) : List String := (h.get? (foldCase name)).getD []

end Headers

end RequestFlow.Http
