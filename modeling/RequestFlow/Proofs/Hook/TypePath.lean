import RequestFlow.Hook.Identity

/-!
# Names of hook types

The path of a type is a row of names, joined by double colons, and each name may carry type
arguments in angle brackets. A type is shown by a name of its path: the text is cut at its first
angle bracket, and what follows the last double colon of the rest is shown. So brackets inside of
arguments do no harm, and a path with arguments at its end only is shown by its last name. But
arguments further in front cut off the names behind them, and the type is shown by the first name
that carries some (`TypePath.shown`): all methods of a generic type are shown alike.
-/

namespace RequestFlow

namespace TypePath

structure Identifier where
  text : String
  nonempty : text ≠ ""
  plain : ∀ c ∈ text.toList, c ≠ ':' ∧ c ≠ '<' ∧ c ≠ '>'

/-- Whether a text closes its angle brackets and as many as are open in front of it, and no others.
The arrow of a function type is no bracket. -/
def closes : Nat → List Char → Bool
  | depth, [] => depth == 0
  | depth, '-' :: '>' :: rest => closes depth rest
  | depth, '<' :: rest => closes (depth + 1) rest
  | 0, '>' :: _ => false
  | depth + 1, '>' :: rest => closes depth rest
  | depth, _ :: rest => closes depth rest

/-- Type arguments, with or without a double colon in front of their brackets. -/
structure Arguments where
  colons : Bool
  inside : String
  balanced : closes 0 inside.toList = true

/-- A name with the type arguments that it carries, if any. -/
structure Segment where
  name : Identifier
  arguments : Option Arguments

def Arguments.text (a : Arguments) : String :=
  (if a.colons then "::" else "") ++ "<" ++ a.inside ++ ">"

def Segment.text (s : Segment) : String :=
  s.name.text ++ (s.arguments.elim "" Arguments.text)

def Segment.isGeneric (s : Segment) : Bool := s.arguments.isSome

end TypePath

/-- The path of a type, by its last segment and those before it. -/
structure TypePath where
  before : List TypePath.Segment
  last : TypePath.Segment

namespace TypePath

/-- A path as it is written. -/
def text (p : TypePath) : String :=
  p.before.foldr (fun s rest => s.text ++ "::" ++ rest) p.last.text

/-- The first name that carries arguments and has others behind it, or else the last name. -/
def shown (p : TypePath) : Identifier :=
  ((p.before.find? Segment.isGeneric).getD p.last).name

/-- What is in front of the first angle bracket, without a double colon at the end. -/
def cut (s : List Char) : List Char := HookId.dropTrailingColons (s.takeWhile (· ≠ '<'))

end TypePath

/-! ### Cutting a text -/

namespace HookId

variable {best first rest : List Char}

theorem lastSegment_append (bare : ∀ c ∈ first, c ≠ ':') :
    lastSegment best (first ++ rest) = lastSegment best rest := by
  induction first with
  | nil => rfl
  | cons c first ih =>
      obtain ⟨other, bare⟩ := List.forall_mem_cons.1 bare
      rw [List.cons_append, lastSegment, if_neg fun both => other both.1, ih bare]

theorem lastSegment_of_bare (bare : ∀ c ∈ first, c ≠ ':') : lastSegment best first = best := by
  have whole : lastSegment best (first ++ []) = best := lastSegment_append bare
  rwa [List.append_nil] at whole

theorem lastSegment_colons (apart : rest.head? ≠ some ':') :
    lastSegment best (':' :: ':' :: rest) = lastSegment rest rest := by
  rw [lastSegment, if_pos ⟨rfl, rfl⟩, lastSegment, if_neg fun both => apart both.2]
  rfl

theorem dropTrailingColons_append_colons (s : List Char) :
    dropTrailingColons (s ++ [':', ':']) = s := by
  simp [dropTrailingColons]

theorem dropTrailingColons_of_not_suffix {s : List Char} (ends : ¬ [':', ':'] <:+ s) :
    dropTrailingColons s = s := by
  rw [dropTrailingColons, if_neg (by simpa using ends)]

/-- A double colon at the end does not reach over another character. -/
theorem dropTrailingColons_append {c : Char} (opens : rest.head? = some c) (other : c ≠ ':') :
    dropTrailingColons (first ++ rest) = first ++ dropTrailingColons rest := by
  by_cases ends : [':', ':'] <:+ rest
  · obtain ⟨front, rfl⟩ := ends
    rw [← List.append_assoc, dropTrailingColons_append_colons, dropTrailingColons_append_colons]
  · have whole : ¬ [':', ':'] <:+ first ++ rest := fun reaches => by
      rcases List.suffix_or_suffix_of_suffix reaches (List.suffix_append _ _) with h | within
      · exact ends h
      · have colon : c ∈ [':', ':'] := within.subset (List.mem_of_head? opens)
        exact other (by simpa using colon)
    rw [dropTrailingColons_of_not_suffix ends, dropTrailingColons_of_not_suffix whole]

/-- Nothing is dropped from the head of a text that opens with another character. -/
theorem head?_dropTrailingColons {c : Char} (opens : rest.head? = some c) (other : c ≠ ':') :
    (dropTrailingColons rest).head? = some c := by
  by_cases ends : [':', ':'] <:+ rest
  · obtain ⟨front, rfl⟩ := ends
    rw [dropTrailingColons_append_colons]
    cases front with
    | nil => exact absurd (Option.some.inj opens).symm other
    | cons d front => exact opens
  · rw [dropTrailingColons_of_not_suffix ends, opens]

end HookId

/-! ### Cutting a path -/

namespace TypePath

open HookId

namespace Identifier

variable (n : Identifier)

theorem ne_colon : ∀ c ∈ n.text.toList, c ≠ ':' := fun c mem => (n.plain c mem).1

theorem exists_head?_append (rest : List Char) :
    ∃ c, (n.text.toList ++ rest).head? = some c ∧ c ≠ ':' := by
  cases written : n.text.toList with
  | nil => exact absurd (String.toList_eq_nil_iff.1 written) n.nonempty
  | cons c behind => exact ⟨c, rfl, n.ne_colon c (written ▸ List.mem_cons_self)⟩

theorem takeWhile_append (rest : List Char) :
    (n.text.toList ++ rest).takeWhile (· ≠ '<') = n.text.toList ++ rest.takeWhile (· ≠ '<') :=
  List.takeWhile_append_of_pos fun c mem => by simpa using (n.plain c mem).2.1

theorem dropTrailingColons_eq : dropTrailingColons n.text.toList = n.text.toList :=
  dropTrailingColons_of_not_suffix fun ends => n.ne_colon ':' (ends.subset (by simp)) rfl

end Identifier

/-- A name that nothing follows stays as it is. -/
theorem cut_name (n : Identifier) : cut n.text.toList = n.text.toList := by
  have whole := n.takeWhile_append []
  rw [List.append_nil, List.takeWhile_nil, List.append_nil] at whole
  rw [cut, whole, n.dropTrailingColons_eq]

/-- Of a name with arguments the name stays, and nothing of what follows. -/
theorem cut_arguments (n : Identifier) (a : Arguments) (rest : List Char) :
    cut (n.text.toList ++ (a.text.toList ++ rest)) = n.text.toList := by
  have opens : (a.text.toList ++ rest).takeWhile (· ≠ '<') =
      if a.colons then [':', ':'] else [] := by
    cases colons : a.colons <;> simp [Arguments.text, colons]
  rw [cut, n.takeWhile_append, opens]
  split
  · exact dropTrailingColons_append_colons _
  · rw [List.append_nil, n.dropTrailingColons_eq]

/-- A name without arguments stays with the colons behind it, in front of another name. -/
theorem cut_qualified (n next : Identifier) (rest : List Char) :
    cut (n.text.toList ++ ([':', ':'] ++ (next.text.toList ++ rest))) =
      n.text.toList ++ ([':', ':'] ++ cut (next.text.toList ++ rest)) := by
  have colons : ([':', ':'] ++ (next.text.toList ++ rest)).takeWhile (· ≠ '<') =
      [':', ':'] ++ (next.text.toList ++ rest).takeWhile (· ≠ '<') := rfl
  rw [cut, n.takeWhile_append, colons, cut, next.takeWhile_append]
  obtain ⟨c, opens, other⟩ := next.exists_head?_append (rest.takeWhile (· ≠ '<'))
  rw [← List.append_assoc, dropTrailingColons_append opens other, List.append_assoc]

theorem head?_cut (n : Identifier) (rest : List Char) :
    (cut (n.text.toList ++ rest)).head? ≠ some ':' := by
  rw [cut, n.takeWhile_append]
  obtain ⟨c, opens, other⟩ := n.exists_head?_append (rest.takeWhile (· ≠ '<'))
  rw [head?_dropTrailingColons opens other]
  exact fun same => other (Option.some.inj same)

/-- A segment is written by its name, and what follows it. -/
theorem Segment.exists_toList_text (s : Segment) :
    ∃ rest, s.text.toList = s.name.text.toList ++ rest :=
  ⟨_, String.toList_append⟩

theorem Segment.toList_text_plain (n : Identifier) :
    (Segment.mk n none).text.toList = n.text.toList := by
  simp [Segment.text]

theorem Segment.toList_text_generic (n : Identifier) (a : Arguments) :
    (Segment.mk n (some a)).text.toList = n.text.toList ++ a.text.toList := String.toList_append

theorem toList_text_cons (s : Segment) (before : List Segment) (last : Segment) :
    (TypePath.mk (s :: before) last).text.toList =
      s.text.toList ++ ([':', ':'] ++ (TypePath.mk before last).text.toList) := by
  simp [TypePath.text]

theorem exists_toList_text (p : TypePath) :
    ∃ (n : Identifier) (rest : List Char), p.text.toList = n.text.toList ++ rest := by
  obtain ⟨before, last⟩ := p
  cases before with
  | nil => exact ⟨last.name, last.exists_toList_text⟩
  | cons s before =>
      obtain ⟨rest, written⟩ := s.exists_toList_text
      exact ⟨s.name, _, by rw [toList_text_cons, written, List.append_assoc]⟩

/-- A segment that is shown if it stands at the end is shown by its name. -/
theorem cut_segment (s : Segment) : cut s.text.toList = s.name.text.toList := by
  obtain ⟨name, arguments⟩ := s
  cases arguments with
  | none => rw [Segment.toList_text_plain, cut_name]
  | some a =>
      have nothing := cut_arguments name a []
      rwa [List.append_nil, ← Segment.toList_text_generic] at nothing

/-- The last name of what is left of a path is the name that is shown. -/
theorem lastSegment_cut (p : TypePath) :
    lastSegment (cut p.text.toList) (cut p.text.toList) = p.shown.text.toList := by
  obtain ⟨before, last⟩ := p
  induction before with
  | nil =>
      have whole : cut (TypePath.mk [] last).text.toList = last.name.text.toList := cut_segment last
      rw [whole, lastSegment_of_bare last.name.ne_colon]
      rfl
  | cons s before ih =>
      rw [toList_text_cons]
      obtain ⟨name, arguments⟩ := s
      cases arguments with
      | some a =>
          rw [Segment.toList_text_generic, List.append_assoc, cut_arguments,
            lastSegment_of_bare name.ne_colon]
          rfl
      | none =>
          obtain ⟨next, rest, further⟩ := (TypePath.mk before last).exists_toList_text
          -- What follows opens with a name, so the colons in front of it are not three.
          have apart := head?_cut next rest
          rw [← further] at apart
          rw [Segment.toList_text_plain, further, cut_qualified, ← further,
            lastSegment_append name.ne_colon]
          exact (lastSegment_colons apart).trans ih

theorem shortName_text (p : TypePath) (named : ¬ ['}', '}'] <:+ p.text.toList) :
    shortName p.text = p.shown.text := by
  rw [shortName, if_neg (by simpa using named)]
  exact (congrArg String.ofList p.lastSegment_cut).trans String.ofList_toList

theorem shown_of_plain {p : TypePath} (plain : ∀ s ∈ p.before, s.isGeneric = false) :
    p.shown = p.last.name := by
  have unfound : p.before.find? Segment.isGeneric = none := by simpa using plain
  rw [shown, unfound, Option.getD_none]

/-- What stands behind a generic segment has no part in what is shown. -/
theorem shown_eq_of_generic {p q : TypePath} (same : q.before = p.before)
    (generic : ∃ s ∈ p.before, s.isGeneric = true) : q.shown = p.shown := by
  obtain ⟨s, found⟩ := Option.isSome_iff_exists.1 (List.find?_isSome.2 generic)
  rw [shown, shown, same, found, Option.getD_some, Option.getD_some]

end TypePath

/-- A type that is no closure is shown by the first segment of its path that carries arguments and
has others behind it, and by the last one if there is none. So the name is never empty, it is the
last name of a path whose other segments carry no arguments, and of two paths that differ in their
last segment only, the names differ where the last names do and no other segment carries
arguments. -/
theorem type_shown_by_first_generic_segment {p : TypePath}
    (named : ¬ ['}', '}'] <:+ p.text.toList) :
    HookId.shortName p.text = p.shown.text ∧ HookId.shortName p.text ≠ "" ∧
      ((∀ s ∈ p.before, s.isGeneric = false) → HookId.shortName p.text = p.last.name.text) ∧
      ∀ q : TypePath, q.before = p.before → ¬ ['}', '}'] <:+ q.text.toList →
        (HookId.shortName q.text = HookId.shortName p.text ↔
          (∃ s ∈ p.before, s.isGeneric = true) ∨ q.last.name.text = p.last.name.text) := by
  refine ⟨p.shortName_text named, ?_, ?_, ?_⟩
  · rw [p.shortName_text named]
    exact p.shown.nonempty
  · intro plain
    rw [p.shortName_text named, TypePath.shown_of_plain plain]
  · intro q same alsoNamed
    rw [p.shortName_text named, q.shortName_text alsoNamed]
    by_cases generic : ∃ s ∈ p.before, s.isGeneric = true
    · have alike := congrArg TypePath.Identifier.text (TypePath.shown_eq_of_generic same generic)
      exact iff_of_true alike (.inl generic)
    · have plain : ∀ s ∈ p.before, s.isGeneric = false := by simpa using generic
      have alsoPlain : ∀ s ∈ q.before, s.isGeneric = false := same ▸ plain
      rw [TypePath.shown_of_plain plain, TypePath.shown_of_plain alsoPlain, or_iff_right generic]

/-- Arguments at the end, with brackets, double colons and an arrow inside of them. -/
theorem type_shown_by_first_generic_segment_nested :
    let path : TypePath :=
      ⟨[⟨⟨"my_app", by decide, by simp⟩, none⟩],
        ⟨⟨"has", by decide, by simp⟩,
          some ⟨true, "alloc::vec::Vec<fn(core::option::Option<u8>) -> bool>", by decide +kernel⟩⟩⟩
    path.text = "my_app::has::<alloc::vec::Vec<fn(core::option::Option<u8>) -> bool>>" ∧
      ¬ ['}', '}'] <:+ path.text.toList ∧ HookId.shortName path.text = "has" := by
  intro path
  have named : ¬ ['}', '}'] <:+ path.text.toList := by decide +kernel
  have plain : ∀ s ∈ path.before, s.isGeneric = false := by decide
  exact ⟨by decide +kernel, named, (type_shown_by_first_generic_segment named).2.2.1 plain⟩

/-- Two methods of one generic type, neither of which is shown by its own name. -/
theorem methods_shown_alike :
    let method (name : TypePath.Identifier) : TypePath :=
      ⟨[⟨⟨"my_app", by decide, by simp⟩, none⟩,
          ⟨⟨"Guard", by decide, by simp⟩,
            some ⟨false, "alloc::string::String", by decide +kernel⟩⟩], ⟨name, none⟩⟩
    let check := method ⟨"check", by decide, by simp⟩
    let verify := method ⟨"verify", by decide, by simp⟩
    check.text = "my_app::Guard<alloc::string::String>::check" ∧
      verify.text = "my_app::Guard<alloc::string::String>::verify" ∧
      ¬ ['}', '}'] <:+ check.text.toList ∧ ¬ ['}', '}'] <:+ verify.text.toList ∧
      HookId.shortName check.text = "Guard" ∧ check.last.name.text = "check" ∧
      HookId.shortName verify.text = "Guard" ∧ verify.last.name.text = "verify" := by
  intro method check verify
  exact ⟨by decide +kernel, by decide +kernel, by decide +kernel, by decide +kernel,
    by decide +kernel, rfl, by decide +kernel, rfl⟩

end RequestFlow
