import RequestFlow.Route.Conflict

/-!
# Adding templates to a tree

A template is led through the tree as far as it agrees with labels there. A node with which it
agrees only in part is cut in two. What is left of the template is then hung below the node reached
(`graft`), unless that would make a conflict.
-/

namespace RequestFlow.Route.Tree

/-- The symbols up to and with the first slash, and the rest. -/
def cutSegment : Template → Template × Template
  | [] => ([], [])
  | s :: rest =>
    if s.is '/' then ([s], rest)
    else
      let (segment, rest) := cutSegment rest
      (s :: segment, rest)

def hasParam (t : Template) : Bool :=
  match firstParam t with
  | .ok (some _) => true
  | _ => false

theorem length_cutSegment (t : Template) : (cutSegment t).2.length ≤ t.length := by
  induction t with
  | nil => simp [cutSegment]
  | cons s rest ih =>
    simp only [cutSegment]
    split
    · simp
    · simp only [List.length_cons]
      omega

mutual

/-- Hang the rest of a template below a node that it leads through. If text comes first, it becomes
the label of the node, which then has none yet. -/
def graft (n : Tree) (entry : Entry) (t : Template) : Except Error Tree :=
  match _h : firstParam t with
  | .error e => .error e
  | .ok none => .ok { n with label := t, entry := some entry }
  | .ok (some p) =>
    let n := if p.before.isEmpty then n else { n with label := p.before }
    if p.isRest then
      if p.after.isEmpty then .ok { n with wild := some (leaf p.written .rest (some entry)) }
      else .error .restNotLast
    else
      let suffix := (cutSegment p.after).1
      if hasParam suffix then .error .crowdedSegment
      else if suffix.isEmpty then
        .ok { n with wild := some (leaf p.written .param (some entry)) }
      else
        match suffixNode suffix entry (cutSegment p.after).2 with
        | .error e => .error e
        | .ok s => .ok { n with wild := some { leaf p.written .param none with branches := [s] } }
termination_by 2 * t.length
decreasing_by
  have := firstParam_length _h
  have := length_cutSegment p.after
  omega

/-- The node of a suffix behind a parameter, with the rest of a template below it. -/
def suffixNode (suffix : Template) (entry : Entry) (rest : Template) : Except Error Tree :=
  match rest with
  | [] => .ok (leaf suffix .static (some entry))
  | next :: rest =>
    if next.opens then graft (leaf suffix .static none) entry (next :: rest)
    else
      match graft (leaf [] .static none) entry (next :: rest) with
      | .error e => .error e
      | .ok b => .ok { leaf suffix .static none with branches := [b] }
termination_by 2 * rest.length + 1

end

/-- A template on its way into a tree. -/
structure Addition where
  template : Template
  entry : Entry

def commonLength : Template → Template → Nat
  | s :: t, r :: u => if s = r then commonLength t u + 1 else 0
  | _, _ => 0

/-- Cut a node in two. All that was below it stays below the lower part. -/
def split (n : Tree) (k : Nat) : Tree :=
  let lower := { n with label := n.label.drop k, kind := .static, weight := n.weight - 1 }
  { n with label := n.label.take k, branches := [lower], wild := none, entry := none }

/-- Put a branch into a list at a place, or further ahead if lighter ones stand before it. -/
def place (b : Tree) (i : Nat) (branches : List Tree) : List Tree :=
  let lighter := ((branches.take i).reverse.takeWhile fun c => c.weight < b.weight).length
  branches.take (i - lighter) ++ b :: branches.drop (i - lighter)

/-- Put a branch back in the place of an older form of it, or further ahead. -/
def replace (b : Tree) (i : Nat) (branches : List Tree) : List Tree :=
  place b i (branches.eraseIdx i)

/-- Whether static text that begins with a symbol leads into a branch. -/
def accepts (next : Symbol) (label : Template) : Bool :=
  (raw label).head? = some next.byte && !next.opens && !next.closes

/-- Hang static text below a node, none of whose branches it leads into. -/
def addStatic (a : Addition) (n : Tree) (left : Template) : Except Error Tree :=
  let clash :=
    match firstParam (left.takeWhile fun s => !s.is '/') with
    | .ok (some p) =>
      n.hasSuffixedParam ||
        (isProper (left.drop (p.before.length + p.written.length)) && n.hasPrefixedParam)
    | _ => false
  if clash then .error (conflict a.template left n)
  else
    match graft (leaf [] .static none) a.entry left with
    | .error e => .error e
    | .ok b => .ok { n with branches := n.branches ++ [b] }

/-- Hang a parameter below a node that has none. `t` is the template from the node on. -/
def addWild (a : Addition) (parent : Option Tree) (n : Tree) (t left : Template) :
    Except Error Tree :=
  match firstParam left with
  | .ok (some p) =>
    if isProper p.after && n.hasPrefixedParam then .error (conflict a.template left n)
    else
      match parent with
      | some above =>
        if n.label ≠ [] ∧ (raw n.label).getLast? ≠ some 0x2f ∧ above.hasSuffixedParam = true then
          .error (conflict a.template t above)
        else graft n a.entry left
      | none => graft n a.entry left
  | _ => graft n a.entry left

/-- Hang a suffix below a plain parameter that has no such suffix. -/
def addSuffix (a : Addition) (parent : Option Tree) (n : Tree) (t suffix rest : Template) :
    Except Error Tree :=
  let slashApart := n.branches.any fun b =>
    raw b.label = raw suffix ++ [0x2f] || raw suffix = raw b.label ++ [0x2f]
  match parent.filter fun above => !slashApart && isProper suffix && above.hasPrefixedParam with
  | some above => .error (conflict a.template t above)
  | none =>
    if hasParam suffix then .error .crowdedSegment
    else
      match suffixNode suffix a.entry rest with
      | .error e => .error e
      | .ok s =>
        let longer := n.branches.takeWhile fun b => suffix.length ≤ b.label.length
        .ok { n with branches := longer ++ s :: n.branches.drop longer.length }

/-- Hang the rest of a template below a node, nothing of which it leads into. -/
def addNew (a : Addition) (parent : Option Tree) (n : Tree) (t left : Template) :
    Except Error Tree :=
  match left with
  | [] =>
    if n.entry.isSome then .error (conflict a.template t n)
    else .ok { n with entry := some a.entry }
  | next :: _ =>
    if n.kind = .param then
      addSuffix a parent n t (cutSegment left).1 (cutSegment left).2
    else if next.opens then addWild a parent n t left
    else addStatic a n left

/-- Whether what is left of a template leads from a node of some kind into a branch. -/
def enters (kind : Kind) (left label : Template) : Bool :=
  match left with
  | [] => false
  | next :: _ => if kind = .param then raw label = raw (cutSegment left).1 else accepts next label

/-- A node as it stands while a template is led through one of its branches. -/
def opened (n : Tree) (left : Template) : Tree :=
  match n.branches.findIdx? (fun b => enters n.kind left b.label), n.kind with
  | some i, .static =>
    { n with branches := replace (n.branches[i]?.getD default).heavier i n.branches }
  | _, _ => n

/-- Put a branch back from its place. The suffixes of a parameter keep their order. -/
def putBack (n : Tree) (i : Nat) (b : Tree) : Tree :=
  if n.kind = .param then { n with branches := n.branches.set i b }
  else { n with branches := replace b i n.branches }

mutual

/-- Add a template below a node, `t` being the part of it that is not yet placed. -/
def addBelow (a : Addition) (parent : Option Tree) : Tree → Template → Except Error Tree
  | ⟨label, kind, weight, branches, wild, entry⟩, t =>
    let n : Tree := ⟨label, kind, weight + 1, branches, wild, entry⟩
    let k := commonLength t label
    let left := t.drop k
    if k < label.length then addNew a parent (n.split k) t left
    else
      (addInto a (n.opened left) (enters kind left) left branches).elim
        (addBeside a parent n t left wild) fun (i, r) => r.map (n.putBack i)

/-- Add a template below the first branch that it leads into; the result comes with the place of
that branch. -/
def addInto (a : Addition) (parent : Tree) (fits : Template → Bool) (t : Template) :
    List Tree → Option (Nat × Except Error Tree)
  | [] => none
  | n :: others =>
    if fits n.label then some (0, addBelow a (some parent) n t)
    else (addInto a parent fits t others).map fun (i, r) => (i + 1, r)

/-- Add a template that leads into no branch. A parameter leads into the one that is there, if they
are the same. -/
def addBeside (a : Addition) (parent : Option Tree) (n : Tree) (t left : Template) :
    Option Tree → Except Error Tree
  | none => addNew a parent n t left
  | some w =>
    if left.head?.any Symbol.opens && n.kind ≠ .param then
      if w.kind = .param ∧ (raw w.label).isPrefixOf (raw left) then
        (addBelow a (some n) w left).map fun w => { n with wild := some w }
      else .error (conflict a.template left w)
    else addNew a parent n t left

end

def add (n : Tree) (template : String) (handler : String) : Except Error Tree :=
  match normalise 0 (unescape (Utf8.encode template)) with
  | .error e => .error e
  | .ok (t, names) =>
    let entry : Entry := ⟨handler, names⟩
    if n.label.isEmpty && n.branches.isEmpty && n.wild.isNone then
      graft n.heavier entry t
    else addBelow ⟨t, entry⟩ none n t

end RequestFlow.Route.Tree
