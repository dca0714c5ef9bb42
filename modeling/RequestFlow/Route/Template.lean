import RequestFlow.Text.Utf8

/-!
# Route templates

A template is a path with parameters: `{name}` stands for a non-empty part of one segment and
`{*name}`, at the end, for a non-empty rest of the path. Doubled braces stand for single ones.

Templates are handled as bytes, each with a mark that tells an escaped brace from one with a meaning
(`Symbol`). So that templates which differ only in the names of their parameters fall together,
names are replaced by the letters `a`, `b`, … in the order of their occurrence (`normalise`), and
`rename` puts names back in. The letters suffice for 25 parameters.
-/

namespace RequestFlow.Route

abbrev Bytes := List UInt8

/-- A byte of a template and whether it is an escaped brace. -/
structure Symbol where
  byte : UInt8
  escaped : Bool
deriving DecidableEq, Repr, Inhabited

def Symbol.plain (c : Char) : Symbol := ⟨.ofNat c.toNat, false⟩

/-- Whether a symbol is some character, escaped or not. -/
def Symbol.is (s : Symbol) (c : Char) : Bool := s.byte == .ofNat c.toNat

def Symbol.opens (s : Symbol) : Bool := s.is '{' && !s.escaped

def Symbol.closes (s : Symbol) : Bool := s.is '}' && !s.escaped

abbrev Template := List Symbol

/-- The bytes of a template without the marks. -/
def raw (t : Template) : Bytes := t.map Symbol.byte

def text (b : Bytes) : String := (Utf8.decode? b).getD ""

/-- Why a template cannot be added to a tree. -/
inductive Error where
  /-- It matches the same paths as another one. -/
  | conflict (other : String)
  /-- Two parameters stand in one segment. -/
  | crowdedSegment
  /-- A brace has no partner, or a name is empty or has a forbidden character. -/
  | badName
  /-- Something follows a parameter for the rest of the path. -/
  | restNotLast
  /-- There are more parameters than letters for them. -/
  | tooManyParameters
deriving DecidableEq, Repr

/-- The bytes of a text with doubled braces joined and marked, from left to right. -/
def unescape : Bytes → Template
  | [] => []
  | [b] => [⟨b, false⟩]
  | b :: c :: rest =>
    if b = c ∧ (b = 0x7b ∨ b = 0x7d) then ⟨b, true⟩ :: unescape rest
    else ⟨b, false⟩ :: unescape (c :: rest)

/-- The first parameter of a template: what stands before it, inside its braces, and behind it. -/
structure Param where
  before : Template
  inside : Template
  after : Template
deriving DecidableEq, Repr

namespace Param

/-- Whether the parameter takes the rest of the path. -/
def isRest (p : Param) : Bool := (p.inside.head?.map fun s => s.is '*').getD false

def written (p : Param) : Template := .plain '{' :: p.inside ++ [.plain '}']

end Param

/-- Read a name up to the brace that closes it. The first symbol of the name is not looked at,
except that a star must not stand alone. -/
def closeName (before read : Template) : Template → Except Error Param
  | [] => .error .badName
  | s :: rest =>
    if s.closes then
      if read.length = 1 ∧ (read.all fun r => r.is '*') then .error .badName
      else .ok ⟨before.reverse, read.reverse, rest⟩
    else if s.is '*' ∨ s.is '/' then .error .badName
    else closeName before (s :: read) rest

def findParam (before : Template) : Template → Except Error (Option Param)
  | [] => .ok none
  | s :: rest =>
    if s.closes then .error .badName
    else if s.opens then
      match rest with
      | [] => .error .badName
      | first :: rest =>
        if first.is '}' then .error .badName
        else (closeName before [first] rest).map some
    else findParam (s :: before) rest

/-- The first parameter of a template, if it has one. -/
def firstParam (t : Template) : Except Error (Option Param) := findParam [] t

theorem closeName_length {before read t : Template} {p : Param}
    (h : closeName before read t = .ok p) : p.after.length < t.length := by
  induction t generalizing read with
  | nil => simp [closeName] at h
  | cons s rest ih =>
    simp only [closeName] at h
    split at h
    · split at h
      · simp at h
      · simp only [Except.ok.injEq] at h
        subst h
        simp
    · split at h
      · simp at h
      · have := ih h
        simp only [List.length_cons]
        omega

theorem findParam_length {before t : Template} {p : Param}
    (h : findParam before t = .ok (some p)) : p.after.length < t.length := by
  induction t generalizing before with
  | nil => simp [findParam] at h
  | cons s rest ih =>
    simp only [findParam] at h
    split at h
    · simp at h
    · split at h
      · split at h
        · simp at h
        next first rest' =>
          split at h
          · simp at h
          · cases hc : closeName before [first] rest' with
            | error e => simp [hc, Except.map] at h
            | ok q =>
              simp only [hc, Except.map, Except.ok.injEq, Option.some.injEq] at h
              subst h
              have := closeName_length hc
              simp only [List.length_cons]
              omega
      · have := ih h
        simp only [List.length_cons]
        omega

/-- What stands behind a parameter is shorter than the whole. -/
theorem firstParam_length {t : Template} {p : Param} (h : firstParam t = .ok (some p)) :
    p.after.length < t.length :=
  findParam_length h

def modifyAt {α : Type} (f : α → α) : Nat → List α → List α
  | _, [] => []
  | 0, a :: rest => f a :: rest
  | n + 1, a :: rest => a :: modifyAt f n rest

@[simp] theorem length_modifyAt {α : Type} (f : α → α) (n : Nat) (l : List α) :
    (modifyAt f n l).length = l.length := by
  induction l generalizing n with
  | nil => simp [modifyAt]
  | cons a rest ih => cases n <;> simp [modifyAt, ih]

/-- What becomes of the marks behind a name of `n` bytes that is replaced by one letter. A mark
directly behind the parameter does not move with its text and ends up further right. -/
def closeGap (n : Nat) : Template → Template
  | s :: rest =>
    if s.escaped ∧ 2 ≤ n then
      modifyAt (fun r => { r with escaped := true }) (n - 1) ({ s with escaped := false } :: rest)
    else s :: rest
  | [] => []

@[simp] theorem length_closeGap (n : Nat) (t : Template) : (closeGap n t).length = t.length := by
  cases t with
  | nil => rfl
  | cons s rest =>
    simp only [closeGap]
    split <;> simp

/-- A parameter named by a letter, counted from zero. -/
def letter (n : Nat) : Template := [.plain '{', ⟨.ofNat ('a'.toNat + n), false⟩, .plain '}']

/-- Replace the names of parameters by letters. The result is the template and the names. -/
def normalise (count : Nat) (t : Template) : Except Error (Template × List Bytes) :=
  match h : firstParam t with
  | .error e => .error e
  | .ok none => .ok (t, [])
  | .ok (some p) =>
    have := firstParam_length h
    if p.isRest then
      match normalise count p.after with
      | .error e => .error e
      | .ok (rest, names) => .ok (p.before ++ p.written ++ rest, names)
    else if count = 25 then .error .tooManyParameters
    else
      match normalise (count + 1) (closeGap p.inside.length p.after) with
      | .error e => .error e
      | .ok (rest, names) => .ok (p.before ++ letter count ++ rest, raw p.inside :: names)
termination_by t.length
decreasing_by
  · exact this
  · simpa using this

/-- Put names back into a template, as many as there are. -/
def rename : List Bytes → Template → Template
  | [], t => t
  | name :: names, t =>
    match firstParam t with
    | .ok (some p) =>
      p.before ++ .plain '{' :: name.map (fun b => ⟨b, false⟩) ++ .plain '}' :: rename names p.after
    | _ => t

end RequestFlow.Route
