import RequestFlow.Context
import RequestFlow.Query

/-!
# The context of a request

`decode?` gathers the context of a request from three sources: the path parameters, of which the
last of a name counts, then the query, then the fields of a JSON body. A later source only adds keys
that are still free, and so does a later pair of one query. A body that is not one JSON object
rejects the request.
-/

namespace RequestFlow.Server

/-- The fields of a JSON body. An empty body has none, and anything but an object is refused. -/
def bodyFields? : List UInt8 → Option (List (String × Json))
  | [] => some []
  | bytes =>
    match (Utf8.decode? bytes).bind Json.parse? with
    | some (.object fields) => some fields
    | _ => none

/-- Add entries under keys that are still free. -/
def addFree (c : Context) (entries : List (String × Json)) : Context :=
  entries.foldl (fun c e => c.insertIfNew e.1 e.2) c

/-- What a context holds stays, and of new entries the first of a key is added. -/
theorem get?_addFree (c : Context) (entries : List (String × Json)) (key : String) :
    (addFree c entries).get? key = (c.get? key).or (entries.lookup key) := by
  rw [addFree]
  induction entries generalizing c with
  | nil => simp
  | cons e rest ih =>
    rw [List.foldl_cons, ih, SortedMap.get?_insertIfNew, SortedMap.lookup_entry]
    split
    next same => cases held : c.get? e.1 <;> simp [same, held]
    next => rfl

/-- The context of a request, unless its body is refused. -/
def decode? (path : List (String × String)) (query : Option String)
    (body : Option (List UInt8)) : Option Context := do
  let fields ← bodyFields? (body.getD [])
  let pairs := (Query.parse (query.getD "")).map fun p => (p.1, Json.string p.2)
  some (addFree (addFree (.ofParams path) pairs) fields)

end RequestFlow.Server
