/-!
# Hook identities

Hooks are told apart by an identity, not by the name under which they are shown. A hook without
state of its own is identified by its type, so registering it twice registers the same hook twice.
The path of a type is only shown: the closures of one function share a path, and yet each is a type
of its own. A hook that captures state gets a fresh serial number each time it is written down; the
copies that are made of it keep that number. A hook registered under an explicit name is identified
by the name.

Serial numbers come from a counter that is passed through the set-up of an application (`SetUp`). It
counts in a 64-bit word.
-/

namespace RequestFlow

/-- The identity of a type. No two types share a symbol, while they may share a path. -/
structure TypeId where
  symbol : String
deriving DecidableEq, Repr

/-- What tells hooks apart. -/
inductive HookId.Key where
  /-- The type of a hook without state. -/
  | type (id : TypeId)
  /-- An explicit name. -/
  | named (name : String)
  /-- One mention of a hook with state. -/
  | serial (number : UInt64)
deriving DecidableEq, Repr

/-- The identity of a hook and the name under which it is shown. -/
structure HookId where
  key : HookId.Key
  name : String
deriving Repr

namespace HookId

/-- Whether two identities are one hook's. Names play no part. -/
def same (a b : HookId) : Bool := a.key == b.key

def ofName (name : String) : HookId := ⟨.named name, name⟩

/-- Whether the identity belongs to one mention of a hook with state. Such a hook cannot be skipped
by mentioning it again. -/
def isStateful (a : HookId) : Bool :=
  match a.key with
  | .serial _ => true
  | _ => false

/-- What follows the last double colon, or `best` if there is none. -/
def lastSegment (best : List Char) : List Char → List Char
  | [] => best
  | c :: rest =>
    if c = ':' ∧ rest.head? = some ':' then lastSegment rest.tail rest else lastSegment best rest

/-- Drop one double colon at the end. -/
def dropTrailingColons (s : List Char) : List Char :=
  if [':', ':'].isSuffixOf s then s.dropLast.dropLast else s

/-- The name under which the type of a hook is shown: the last part of its path without type
arguments. A closure has no name of its own and keeps the path of the function around it. -/
def shortName (path : String) : String :=
  if ['}', '}'].isSuffixOf path.toList then path
  else
    let plain := dropTrailingColons (path.toList.takeWhile (· ≠ '<'))
    String.ofList (lastSegment plain plain)

/-- The identity of a hook without state. Of the path only the short name is kept. -/
def ofType (id : TypeId) (path : String) : HookId := ⟨.type id, shortName path⟩

@[simp] theorem same_iff {a b : HookId} : a.same b = true ↔ a.key = b.key := by
  simp [same]

theorem same_refl (a : HookId) : a.same a = true := by simp

theorem same_comm (a b : HookId) : a.same b = b.same a := by
  simp [same, Bool.beq_comm]

@[simp] theorem isStateful_ofType (id : TypeId) (path : String) :
    (ofType id path).isStateful = false := rfl

end HookId

/-- Setting an application up, with the next serial number as its state. -/
abbrev SetUp := StateM UInt64

/-- The type of a hook: its identity, the path by which it is shown, and whether its values capture
state. -/
structure HookType where
  id : TypeId
  path : String
  stateful : Bool
deriving DecidableEq, Repr

/-- The identity under which a mention of a hook is registered. -/
def HookType.identify (t : HookType) : SetUp HookId :=
  if t.stateful then do
    let number ← getModify (· + 1)
    pure ⟨.serial number, HookId.shortName t.path⟩
  else pure (.ofType t.id t.path)

end RequestFlow
