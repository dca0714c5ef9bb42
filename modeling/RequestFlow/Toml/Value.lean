import RequestFlow.SortedMap
import RequestFlow.Number.Binary64

/-!
# TOML values and tables

A document is a tree of tables. A table remembers in which form it was written, because that decides
what may still be added to it:

* a table opened by a header of its own, or by braces, is never opened again;
* a table that was only named on the way to another header may be opened once;
* a table made by a dotted key takes further dotted keys, but no header.

`Table.update` goes to the table at the end of a path and makes the tables that are missing on the
way; the three kinds of additions are stated through it.
-/

namespace RequestFlow

/-- How a table came to be. -/
inductive Toml.Form where
  /-- By a header of its own. -/
  | header
  /-- By a longer header. -/
  | implied
  /-- By a dotted key. -/
  | dotted
  /-- In braces. -/
  | braces
deriving DecidableEq, Repr

inductive Toml where
  | string (s : String)
  | integer (n : Int)
  | float (x : Binary64)
  | boolean (b : Bool)
  /-- A date, a time of day, or both. -/
  | time
  | array (items : List Toml)
  | table (form : Toml.Form) (fields : List (String × Toml))
  /-- An array of tables, of which only the last one can still grow. -/
  | tables (earlier : List (List (String × Toml))) (last : List (String × Toml))

namespace Toml

/-- The fields of a table, sorted by key. -/
abbrev Fields := List (String × Toml)

namespace Table

/-- Change the table at the end of a path. The way there leads through the last table of an array of
tables; a dotted key does not lead into a table that has a header. -/
def update (dottedKey : Bool) (change : Form → Fields → Option Fields) :
    List String → Form → Fields → Option Fields
  | [], form, fields => change form fields
  | key :: rest, _, fields =>
    let store (v : Toml) : Fields := SortedMap.insertEntry key v fields
    match SortedMap.findEntry key fields with
    | none =>
      let form := if dottedKey then Form.dotted else Form.implied
      (update dottedKey change rest form []).map fun inner => store (.table form inner)
    | some (.table form inner) =>
      if form = .braces ∨ (dottedKey = true ∧ form = .header) then none
      else (update dottedKey change rest form inner).map fun inner => store (.table form inner)
    | some (.tables earlier last) =>
      (update dottedKey change rest .header last).map fun last => store (.tables earlier last)
    | some _ => none

/-- Change what a table holds under the last key of a path. -/
def updateLast (dottedKey : Bool) (change : String → Form → Fields → Option Fields)
    (path : List String) (form : Form) (fields : Fields) : Option Fields :=
  match path.getLast? with
  | some key => update dottedKey (change key) path.dropLast form fields
  | none => none

/-- Add a value under a dotted key. Every key is given once, and beyond its first part the key leads
only through tables that dotted keys have made. -/
def put (path : List String) (v : Toml) : Form → Fields → Option Fields :=
  updateLast true
    (fun key form fields =>
      if (form = .dotted) = (path.length = 1) then none
      else if (SortedMap.findEntry key fields).isSome then none
      else some (SortedMap.insertEntry key v fields))
    path

/-- Open the table of a header. -/
def openTable (path : List String) (root : Fields) : Option Fields :=
  updateLast false
    (fun key _ fields =>
      match SortedMap.findEntry key fields with
      | none => some (SortedMap.insertEntry key (.table .header []) fields)
      | some (.table .implied inner) =>
        some (SortedMap.insertEntry key (.table .header inner) fields)
      | some _ => none)
    path .header root

/-- Open one more table of an array of tables. -/
def openItem (path : List String) (root : Fields) : Option Fields :=
  updateLast false
    (fun key _ fields =>
      match SortedMap.findEntry key fields with
      | none => some (SortedMap.insertEntry key (.tables [] []) fields)
      | some (.tables earlier last) =>
        some (SortedMap.insertEntry key (.tables (earlier ++ [last]) []) fields)
      | some _ => none)
    path .header root

end Table

end Toml

end RequestFlow
