import RequestFlow.Route.Template

/-!
# Route trees

A tree holds the templates of one method. A node is labelled with a piece of a template: static
text, a plain parameter, or a parameter for the rest of the path. Below static text hang static
branches, which differ in their first byte, and at most one parameter. Below a plain parameter hang
the suffixes with which its segment may end, the longest first; a suffix reaches up to and includes
the slash behind the segment.

`Tree.find?` prefers static branches to parameters and comes back to a parameter when the static
branch leads nowhere.

The weight of a node is the number of templates that lead through it. Branches with greater weight
come first; only the template named in a conflict depends on that order.
-/

namespace RequestFlow.Route

/-- What a label stands for. -/
inductive Kind where
  | static
  | param
  | rest
deriving DecidableEq, Repr

/-- The end of a template: the handler it leads to, and the names of its plain parameters. -/
structure Entry where
  handler : String
  names : List Bytes
deriving DecidableEq, Repr

/-- A node of a route tree with everything below it. -/
structure Tree where
  label : Template
  kind : Kind
  weight : Nat
  branches : List Tree
  wild : Option Tree
  entry : Option Entry

namespace Tree

instance : Inhabited Tree := ⟨⟨[], .static, 0, [], none, none⟩⟩

def empty : Tree := ⟨[], .static, 0, [], none, none⟩

def leaf (label : Template) (kind : Kind) (entry : Option Entry) : Tree :=
  ⟨label, kind, 1, [], none, entry⟩

/-- One more template leads through the node. -/
def heavier (n : Tree) : Tree := { n with weight := n.weight + 1 }

/-! ### Look-up -/

/-- What a path was matched with: the end of a template, the values of the plain parameters, and
name and value of the parameter for the rest of the path. -/
structure Match where
  entry : Entry
  values : List Bytes
  rest : Option (Bytes × Bytes)
deriving DecidableEq, Repr

def Match.cons (value : Bytes) (m : Match) : Match := { m with values := value :: m.values }

/-- What follows a piece of text at the head of a path. -/
def strip? : Bytes → Bytes → Option Bytes
  | [], path => some path
  | _ :: _, [] => none
  | b :: label, c :: path => if b = c then strip? label path else none

/-- The part of a path up to and with its first slash, or all of it. -/
def segment : Bytes → Bytes
  | [] => []
  | b :: rest => if b = 0x2f then [b] else b :: segment rest

/-- Match the name of a parameter for the rest of the path. -/
def restName (label : Template) : Bytes := raw ((label.drop 2).dropLast)

mutual

def find? : Tree → Bytes → Option Match
  | ⟨label, _, _, branches, wild, entry⟩, path =>
    match strip? (raw label) path with
    | none => none
    | some [] => entry.map fun e => ⟨e, [], none⟩
    | some (b :: rest) =>
      (findBranch? branches b (b :: rest)).orElse fun _ =>
        match wild with
        | some w => findWild? w (b :: rest)
        | none => none

/-- Match a path with the branch that begins with its first byte. -/
def findBranch? : List Tree → UInt8 → Bytes → Option Match
  | [], _, _ => none
  | n :: others, b, path =>
    if (raw n.label).head? = some b then find? n path else findBranch? others b path

/-- Match a path with a parameter. The parameter takes a segment without the longest suffix that
fits; without any it takes the last segment whole. -/
def findWild? : Tree → Bytes → Option Match
  | ⟨label, kind, _, branches, _, entry⟩, path =>
    if kind = .rest then entry.map fun e => ⟨e, [], some (restName label, path)⟩
    else if path.head? = some 0x2f then none
    else
      match findSuffix? branches (segment path) path with
      | some found => found
      | none =>
        if path.contains 0x2f then none else entry.map fun e => ⟨e, [path], none⟩

/-- Match a path with the first suffix in which its segment ends, if there is one. -/
def findSuffix? : List Tree → Bytes → Bytes → Option (Option Match)
  | [], _, _ => none
  | n :: others, segment, path =>
    let suffix := raw n.label
    if suffix.length < segment.length ∧ suffix.isSuffixOf segment then
      let value := segment.take (segment.length - suffix.length)
      some ((find? n (path.drop value.length)).map (Match.cons value))
    else findSuffix? others segment path

end

end Tree

end RequestFlow.Route
