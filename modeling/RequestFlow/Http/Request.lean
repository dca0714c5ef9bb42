import RequestFlow.Http.Header
import RequestFlow.Text.Reader

/-!
# HTTP requests

A request names a method and a target. The target is a path with a query (`/a/b?c=d`), an absolute
address, of which only path and query matter, the authority of a host, which has no path, or a star.
A fragment is dropped. Nothing is decoded here.

`Request.read?` refuses what cannot be a request: a method or a header name that is no token, a
control character in a header, and a target with a character that may not stand where it stands.
-/

namespace RequestFlow.Http

/-- The part of a target that a server looks at. -/
structure Target where
  path : String
  query : Option String
deriving DecidableEq, Repr

namespace Target

/-- Characters that may be sent in a target at all. -/
def isSendable (c : Char) : Bool :=
  0x21 ≤ c.toNat && c.toNat ≠ 0x7f && c ≠ '"' && c ≠ '<' && c ≠ '>'

def isPathChar (c : Char) : Bool := isSendable c && c ≠ '`'

def isSchemeChar (c : Char) : Bool := c.isAlphanum || c = '+' || c = '-' || c = '.' || c = '~'

/-- Characters of an authority, apart from those that have a meaning of their own there. -/
def isAuthorityChar (c : Char) : Bool :=
  c.isAlphanum || "!$&'()*+,-.;=_~".toList.contains c

/-- Where the authority of an address ends. -/
def endsAuthority (c : Char) : Bool := c = '/' || c = '?' || c = '#'

def dropFragment (s : List Char) : List Char := s.takeWhile (· ≠ '#')

/-- Path and query of a text. An empty path is the root. -/
def ofPathAndQuery? (s : List Char) : Option Target :=
  let s := dropFragment s
  let path := s.takeWhile (· ≠ '?')
  let query := (s.drop path.length).tail
  if path.all isPathChar && query.all isSendable then
    some
      { path := if path.isEmpty then "/" else String.ofList path
        query := if path.length < s.length then some (String.ofList query) else none }
  else none

/-- What has been seen of an authority. -/
structure Authority where
  /-- Colons since the user information or a bracket ended. -/
  colons : Nat
  opened : Bool
  closed : Bool
  /-- Whether a percent sign was seen since then. -/
  percent : Bool
  /-- Whether the user information ends just here. -/
  atSign : Bool

def Authority.step (a : Authority) (c : Char) : Option Authority :=
  let a := { a with atSign := false }
  if c = ':' then if a.colons = 8 then none else some { a with colons := a.colons + 1 }
  else if c = '[' then if a.percent || a.opened then none else some { a with opened := true }
  else if c = ']' then
    if !a.opened || a.closed then none
    else some { a with closed := true, colons := 0, percent := false }
  else if c = '@' then some { a with atSign := true, colons := 0, percent := false }
  else if c = '%' then some { a with percent := true }
  else if isAuthorityChar c then some a
  else none

/-- Whether a text is an authority: a host with at most one port, behind user information or not.
Only the latter and an address in brackets may have percent signs. -/
def isAuthority (s : List Char) : Bool :=
  match s.foldlM Authority.step ⟨0, false, false, false, false⟩ with
  | some a => a.opened == a.closed && a.colons ≤ 1 && !a.atSign && !a.percent
  | none => false

/-- What follows the scheme of an absolute address and the two slashes. The result is `some none` if
there is no scheme, and `none` if it is too long. -/
def afterScheme? (s : List Char) : Option (Option (List Char)) :=
  let scheme := s.takeWhile isSchemeChar
  match s.drop scheme.length with
  | ':' :: '/' :: '/' :: rest =>
    if scheme.length ≤ 64 then some (some rest) else none
  | _ => some none

/-- The longest target in bytes. -/
def lengthLimit : Nat := 65534

/-- The target that a text writes. -/
def read? (text : String) : Option Target :=
  let s := text.toList
  if lengthLimit < text.utf8ByteSize || !s.all isSendable then none
  else
    match s with
    | [] => none
    | ['*'] => some ⟨"*", none⟩
    | '/' :: _ => ofPathAndQuery? s
    | _ =>
      match afterScheme? s with
      | none => none
      | some none => if isAuthority s then some ⟨"", none⟩ else none
      | some (some rest) =>
        let authority := rest.takeWhile fun c => !endsAuthority c
        if authority.isEmpty || !isAuthority authority then none
        else ofPathAndQuery? (rest.drop authority.length)

end Target

structure Request where
  method : String
  target : Target
  headers : List (String × String)
  /-- The bytes of the body, unless the connection ended before all of them had come. -/
  body : Option (List UInt8)

namespace Request

/-- A request from its parts, if they are well-formed. -/
def read? (method target : String) (headers : List (String × String))
    (body : Option (List UInt8)) : Option Request :=
  if isToken method && headers.all fun h => isFieldName h.1 && isFieldValue h.2 then
    (Target.read? target).map fun t => ⟨method, t, headers, body⟩
  else none

/-- Blanks around the value of a header. -/
def isBlank (c : Char) : Bool := c = ' ' || c = '\t'

def trim (value : String) : List Char :=
  ((value.toList.dropWhile isBlank).reverse.dropWhile isBlank).reverse

/-- The value of the first header of a name. -/
def header? (r : Request) (name : String) : Option (List Char) :=
  (r.headers.find? fun h => foldCase h.1 = foldCase name).map fun h => trim h.2

/-- The media type whose bodies are decoded. -/
def jsonType : String := "application/json"

/-- Whether the body of a request is declared to be JSON. The declaration must be visible ASCII and
begin with the media type, which is compared as it is written. -/
def isJson (r : Request) : Bool :=
  match r.header? "content-type" with
  | some value =>
    value.all (fun c => c = '\t' || (0x20 ≤ c.toNat && c.toNat < 0x7f)) &&
      jsonType.toList.isPrefixOf value
  | none => false

end Request

end RequestFlow.Http
