import RequestFlow.Route.Tree

/-!
# Conflicts between templates

A template may not be added where it would match the same paths as another one: two of equal shape,
a plain parameter and one for the rest at one place, or, in one segment, a parameter with static
text in front and one with a suffix. The predicates here look for the latter below a node, and
`conflict` names the template that stands in the way.
-/

namespace RequestFlow.Route.Tree

/-- The labels from a node to the end of the first template below it, and that end. -/
def firstTemplate : Tree → Template × List Bytes
  | ⟨label, _, _, [], none, entry⟩ => (label, (entry.map Entry.names).getD [])
  | ⟨label, _, _, [], some w, _⟩ =>
    let (below, names) := w.firstTemplate
    (label ++ below, names)
  | ⟨label, _, _, b :: _, _, _⟩ =>
    let (below, names) := b.firstTemplate
    (label ++ below, names)

/-- The labels below a node on the way to the end of its first template, and the names there. -/
def firstBelow (n : Tree) : Template × List Bytes :=
  let (whole, names) := n.firstTemplate
  (whole.drop n.label.length, names)

/-- The conflict of a template with a node, when some part of the template is not yet placed: it
names a template that is already in the tree. -/
def conflict (whole left : Template) (n : Tree) : Error :=
  if raw left = raw n.label then
    .conflict (text (raw (rename ((n.entry.map Entry.names).getD []) whole)))
  else
    let placed := whole.take (whole.length - left.length)
    let here := if (raw n.label).isSuffixOf (raw placed) then placed else placed ++ n.label
    let (below, names) := n.firstBelow
    .conflict (text (raw (rename names (here ++ below))))

/-- Whether a suffix is more than the end of a segment. -/
def isProper (suffix : Template) : Bool := raw suffix ≠ [] && raw suffix ≠ [0x2f]

/-- Whether a node is a plain parameter with a suffix of its own. -/
def hasSuffix (n : Tree) : Bool := n.kind = .param && n.branches.any fun b => isProper b.label

mutual

/-- Whether a plain parameter follows before the next slash. -/
def leadsToParam : Tree → Bool
  | ⟨label, kind, _, branches, wild, _⟩ =>
    !(raw label).contains 0x2f &&
      (kind = .param || anyLeadsToParam branches ||
        match wild with
        | some w => leadsToParam w
        | none => false)

def anyLeadsToParam : List Tree → Bool
  | [] => false
  | n :: others => leadsToParam n || anyLeadsToParam others

end

mutual

/-- Whether some plain parameter of the segment has static text in front. -/
def hasPrefixedParam : Tree → Bool
  | ⟨label, _, _, branches, wild, _⟩ =>
    if (raw label).getLast? = some 0x2f then
      anyHasPrefixedParam branches ||
        match wild with
        | some w => hasPrefixedParam w
        | none => false
    else
      anyLeadsToParam branches ||
        match wild with
        | some w => leadsToParam w
        | none => false

def anyHasPrefixedParam : List Tree → Bool
  | [] => false
  | n :: others => hasPrefixedParam n || anyHasPrefixedParam others

end

mutual

/-- Whether some plain parameter of the segment has a suffix. -/
def hasSuffixedParam : Tree → Bool
  | ⟨label, kind, weight, branches, wild, entry⟩ =>
    hasSuffix ⟨label, kind, weight, branches, wild, entry⟩ || anyHasSuffixedParam branches ||
      match wild with
      | some w => !(raw w.label).contains 0x2f && hasSuffixedParam w
      | none => false

def anyHasSuffixedParam : List Tree → Bool
  | [] => false
  | n :: others =>
    (!(raw n.label).contains 0x2f && hasSuffixedParam n) || anyHasSuffixedParam others

end

end RequestFlow.Route.Tree
