import RequestFlow.Route.Insert

/-!
# How templates are read

A template is literal text up to its first parameter, and a parameter is a name between braces
(`firstParam_eq_some_iff`, `firstParam_eq_none_iff`). Normal forms are described by the relation
`Normalised`, which follows the template from one parameter to the next.

What is said of trees elsewhere rests on two kinds of templates: literal text with all marks in
place (`IsText`), and normal forms whose parameters stand apart from each other (`Formed`).
-/

namespace RequestFlow.Route

/-! ### Symbols -/

namespace Symbol

/-- A symbol without a meaning of its own. -/
def Literal (s : Symbol) : Prop := s.opens = false ∧ s.closes = false

/-- A mark stands on braces only. -/
def Marked (s : Symbol) : Prop := s.escaped = true → s.is '{' = true ∨ s.is '}' = true

/-- A symbol of text: a brace is escaped and nothing else is. -/
def IsText (s : Symbol) : Prop := s.escaped = (s.is '{' || s.is '}')

instance (s : Symbol) : Decidable s.Literal := inferInstanceAs (Decidable (_ ∧ _))

instance (s : Symbol) : Decidable s.IsText := inferInstanceAs (Decidable (_ = _))

theorem isText_iff {s : Symbol} : s.IsText ↔ s.Marked ∧ s.Literal := by
  simp only [IsText, Marked, Literal, opens, closes]
  cases s.escaped <;> cases s.is '{' <;> cases s.is '}' <;> simp

theorem IsText.literal {s : Symbol} (text : s.IsText) : s.Literal := (isText_iff.1 text).2

/-- Bytes of text stand for one symbol each. -/
theorem IsText.eq_of_byte {s r : Symbol} (ht : s.IsText) (hr : r.IsText) (same : s.byte = r.byte) :
    s = r := by
  obtain ⟨b, e⟩ := s
  obtain ⟨c, f⟩ := r
  obtain rfl : b = c := same
  have : e = f := ht.trans hr.symm
  rw [this]

/-- There is one symbol that opens a parameter. -/
theorem opens_iff {s : Symbol} : s.opens = true ↔ s = .plain '{' := by
  obtain ⟨b, e⟩ := s
  simp [opens, is, plain]

/-- There is one symbol that closes a parameter. -/
theorem closes_iff {s : Symbol} : s.closes = true ↔ s = .plain '}' := by
  obtain ⟨b, e⟩ := s
  simp [closes, is, plain]

end Symbol

/-! ### Literal text and parameters -/

@[simp] theorem raw_append (t u : Template) : raw (t ++ u) = raw t ++ raw u := List.map_append

@[simp] theorem raw_cons (s : Symbol) (t : Template) : raw (s :: t) = s.byte :: raw t := rfl

/-- A template without parameters and stray braces. -/
def Literal (t : Template) : Prop := ∀ s ∈ t, s.Literal

/-- Literal text with all marks in place. -/
def IsText (t : Template) : Prop := ∀ s ∈ t, s.IsText

/-- What may stand in a name behind its first symbol. -/
def Symbol.Named (s : Symbol) : Prop := s.closes = false ∧ s.is '*' = false ∧ s.is '/' = false

/-- What may stand between the braces of a parameter. -/
inductive IsName : Template → Prop
  | mk {first : Symbol} {tail : Template} (begins : first.is '}' = false)
      (named : ∀ s ∈ tail, s.Named) (notStar : tail = [] → first.is '*' = false) :
      IsName (first :: tail)

theorem Literal.nil : Literal [] := fun _ mem => nomatch mem

theorem IsText.nil : IsText [] := fun _ mem => nomatch mem

theorem literal_cons {s : Symbol} {t : Template} : Literal (s :: t) ↔ s.Literal ∧ Literal t :=
  List.forall_mem_cons

theorem isText_cons {s : Symbol} {t : Template} : IsText (s :: t) ↔ s.IsText ∧ IsText t :=
  List.forall_mem_cons

theorem isText_append {t u : Template} : IsText (t ++ u) ↔ IsText t ∧ IsText u :=
  List.forall_mem_append

theorem IsText.literal {t : Template} (text : IsText t) : Literal t :=
  fun s mem => (text s mem).literal

/-- Text that begins with the same byte begins with the same symbol. -/
theorem head?_eq_of_raw {t u : Template} (ht : IsText t) (hu : IsText u)
    (same : (raw t).head? = (raw u).head?) : t.head? = u.head? := by
  cases t with
  | nil =>
      cases u with
      | nil => rfl
      | cons r u => cases same
  | cons s t =>
      cases u with
      | nil => cases same
      | cons r u =>
          have bytes : s.byte = r.byte := Option.some.inj same
          exact congrArg some ((ht s List.mem_cons_self).eq_of_byte (hu r List.mem_cons_self) bytes)

/-! ### The first parameter -/

/-- A name is read up to the brace that closes it. -/
theorem closeName_append {before read tail after : Template} (named : ∀ s ∈ tail, s.Named)
    (notStar : tail = [] → ¬(read.length = 1 ∧ read.all fun s => s.is '*')) :
    closeName before read (tail ++ .plain '}' :: after) =
      .ok ⟨before.reverse, read.reverse ++ tail, after⟩ := by
  induction tail generalizing read with
  | nil =>
      have closing : (Symbol.plain '}').closes = true := rfl
      rw [List.nil_append, closeName, if_pos closing, if_neg (notStar rfl), List.append_nil]
  | cons s tail ih =>
      obtain ⟨⟨going, noStar, noSlash⟩, named⟩ := List.forall_mem_cons.1 named
      rw [List.cons_append, closeName, going, if_neg Bool.false_ne_true,
        if_neg (by simp [noStar, noSlash]), ih named (by simp [noStar])]
      simp

theorem closeName_ok {before read t : Template} {p : Param} (ok : closeName before read t = .ok p) :
    ∃ tail after, t = tail ++ .plain '}' :: after ∧ (∀ s ∈ tail, s.Named) ∧
      (tail = [] → ¬(read.length = 1 ∧ read.all fun s => s.is '*')) ∧
      p = ⟨before.reverse, read.reverse ++ tail, after⟩ := by
  induction t generalizing read with
  | nil => cases ok
  | cons s rest ih =>
      rw [closeName] at ok
      split at ok
      next closing =>
        split at ok
        · cases ok
        next notStar =>
          obtain rfl := Except.ok.inj ok
          refine ⟨[], rest, ?_, by simp, fun _ => notStar, by simp⟩
          rw [Symbol.closes_iff.1 closing, List.nil_append]
      next going =>
        split at ok
        · cases ok
        next allowed =>
          rw [not_or, Bool.not_eq_true, Bool.not_eq_true] at allowed
          rw [Bool.not_eq_true] at going
          obtain ⟨tail, after, rfl, named, _, rfl⟩ := ih ok
          refine ⟨s :: tail, after, rfl, ?_, (fun ended => by cases ended), by simp⟩
          exact List.forall_mem_cons.2 ⟨⟨going, allowed⟩, named⟩

theorem findParam_ok_none_iff {before t : Template} :
    findParam before t = .ok none ↔ Literal t := by
  induction t generalizing before with
  | nil => simp [findParam, Literal.nil]
  | cons s rest ih =>
      simp only [findParam, literal_cons, Symbol.Literal]
      cases closes : s.closes with
      | true => simp
      | false =>
          cases opens : s.opens with
          | false => simpa using ih
          | true =>
              rw [if_neg Bool.false_ne_true, if_pos rfl]
              split
              · simp
              next first rest =>
                split
                · simp
                · cases closeName before [first] rest with
                  | error e => simp [Except.map]
                  | ok p => simp [Except.map]

theorem findParam_append {before u inside after : Template} (text : Literal u)
    (name : IsName inside) :
    findParam before (u ++ .plain '{' :: inside ++ .plain '}' :: after) =
      .ok (some ⟨before.reverse ++ u, inside, after⟩) := by
  induction u generalizing before with
  | nil =>
      obtain ⟨begins, named, notStar⟩ := name
      next first tail =>
        have opening : (Symbol.plain '{').opens = true := rfl
        have going : (Symbol.plain '{').closes = false := rfl
        have star : tail = [] → ¬([first].length = 1 ∧ [first].all fun s => s.is '*') := by
          intro ended
          simp [notStar ended]
        rw [List.nil_append, List.cons_append, List.cons_append, findParam, going,
          if_neg Bool.false_ne_true, if_pos opening]
        simp only [begins, Bool.false_eq_true, ↓reduceIte, closeName_append named star]
        simp [Except.map]
  | cons s u ih =>
      obtain ⟨⟨noOpening, noClosing⟩, text⟩ := literal_cons.1 text
      simp only [List.cons_append, findParam, noOpening, noClosing, Bool.false_eq_true, ↓reduceIte]
      rw [ih text, List.reverse_cons, List.append_assoc, List.singleton_append]

theorem findParam_ok_some {before t : Template} {p : Param}
    (ok : findParam before t = .ok (some p)) :
    ∃ u, Literal u ∧ IsName p.inside ∧ t = u ++ p.written ++ p.after ∧
      p.before = before.reverse ++ u := by
  induction t generalizing before with
  | nil => cases ok
  | cons s rest ih =>
      simp only [findParam] at ok
      cases closes : s.closes with
      | true => simp [closes] at ok
      | false =>
          cases opens : s.opens with
          | false =>
              simp only [closes, opens, Bool.false_eq_true, ↓reduceIte] at ok
              obtain ⟨u, text, name, rfl, before'⟩ := ih ok
              refine ⟨s :: u, literal_cons.2 ⟨⟨opens, closes⟩, text⟩, name, rfl, ?_⟩
              simpa using before'
          | true =>
              simp only [closes, opens, Bool.false_eq_true, ↓reduceIte] at ok
              split at ok
              · cases ok
              next first rest =>
                split at ok
                · cases ok
                next begins =>
                  cases read : closeName before [first] rest with
                  | error e => simp [read, Except.map] at ok
                  | ok q =>
                      obtain ⟨tail, after, rfl, named, notStar, rfl⟩ := closeName_ok read
                      simp only [read, Except.map, Except.ok.injEq, Option.some.injEq] at ok
                      subst ok
                      refine
                        ⟨[], .nil, ⟨by simpa using begins, named, fun ended => ?_⟩, ?_, by simp⟩
                      · simpa using notStar ended
                      · simp [Param.written, Symbol.opens_iff.1 opens]

/-- A template has no parameter exactly if it is literal text. -/
theorem firstParam_eq_none_iff {t : Template} : firstParam t = .ok none ↔ Literal t :=
  findParam_ok_none_iff

/-- The first parameter is a name between braces with literal text in front. -/
theorem firstParam_eq_some_iff {t : Template} {p : Param} :
    firstParam t = .ok (some p) ↔
      Literal p.before ∧ IsName p.inside ∧ t = p.before ++ p.written ++ p.after := by
  constructor
  · intro ok
    obtain ⟨u, text, name, whole, front⟩ := findParam_ok_some ok
    rw [List.reverse_nil, List.nil_append] at front
    rw [front]
    exact ⟨text, name, whole⟩
  · rintro ⟨text, name, rfl⟩
    have read : findParam [] (p.before ++ .plain '{' :: p.inside ++ .plain '}' :: p.after) =
        .ok (some ⟨[] ++ p.before, p.inside, p.after⟩) := findParam_append text name
    rw [firstParam, Param.written]
    simpa using read

/-- A template begins with its first parameter, or with the text in front of it. -/
theorem before_cases {t : Template} {p : Param} (first : firstParam t = .ok (some p)) :
    (p.before = [] ∧ t.head? = some (.plain '{')) ∨
      ∃ s front, p.before = s :: front ∧ t.head? = some s ∧ s.Literal := by
  obtain ⟨literal, -, whole⟩ := firstParam_eq_some_iff.1 first
  cases before : p.before with
  | nil =>
      rw [before] at whole
      exact .inl ⟨rfl, by rw [whole]; rfl⟩
  | cons s front =>
      rw [before] at literal whole
      exact .inr ⟨s, front, rfl, by rw [whole]; rfl, (literal_cons.1 literal).1⟩

/-- What is read from a brace on is read in one way. -/
theorem written_inj {p q : Param} (hp : IsName p.inside) (hq : IsName q.inside)
    (same : p.written ++ p.after = q.written ++ q.after) :
    p.inside = q.inside ∧ p.after = q.after := by
  have read : firstParam (p.written ++ p.after) = .ok (some ⟨[], p.inside, p.after⟩) :=
    firstParam_eq_some_iff.2 ⟨.nil, hp, rfl⟩
  have read' : firstParam (q.written ++ q.after) = .ok (some ⟨[], q.inside, q.after⟩) :=
    firstParam_eq_some_iff.2 ⟨.nil, hq, rfl⟩
  rw [same, read'] at read
  injection read with read
  injection read with read
  injection read with _ inside after
  exact ⟨inside.symm, after.symm⟩

/-! ### Normal forms -/

/-- `Normalised count t u names`: when the next letter is the one of number `count`, the normal form
of `t` is `u`, and `names` are those of its plain parameters. -/
inductive Normalised : Nat → Template → Template → List Bytes → Prop
  | text {count : Nat} {t : Template} (ends : firstParam t = .ok none) : Normalised count t t []
  | rest {count : Nat} {t after : Template} {p : Param} {names : List Bytes}
      (first : firstParam t = .ok (some p)) (rest : p.isRest = true)
      (others : Normalised count p.after after names) :
      Normalised count t (p.before ++ p.written ++ after) names
  | letter {count : Nat} {t after : Template} {p : Param} {names : List Bytes}
      (first : firstParam t = .ok (some p)) (plain : p.isRest = false) (letters : count < 25)
      (others : Normalised (count + 1) (closeGap p.inside.length p.after) after names) :
      Normalised count t (p.before ++ letter count ++ after) (raw p.inside :: names)

theorem Normalised.of_normalise {count : Nat} {t u : Template} {names : List Bytes}
    (letters : count ≤ 25) (ok : normalise count t = .ok (u, names)) :
    Normalised count t u names := by
  fun_induction normalise count t generalizing u names with
  | case1 => cases ok
  | case2 _ _ ends => cases ok; exact .text ends
  | case3 => cases ok
  | case4 _ _ p first _ rest _ _ found ih =>
      cases ok
      exact .rest first rest (ih letters found)
  | case5 => cases ok
  | case6 => cases ok
  | case7 _ _ p first _ plain room _ _ found ih =>
      cases ok
      exact .letter first (by simpa using plain) (by omega) (ih (by omega) found)

theorem Normalised.of_nil {count : Nat} {t : Template} {names : List Bytes}
    (normal : Normalised count t [] names) : t = [] ∧ names = [] := by
  generalize whole : ([] : Template) = u at normal
  cases normal with
  | text => exact ⟨rfl, rfl⟩
  | rest => simp [Param.written] at whole
  | letter => simp [Route.letter] at whole

/-- Literal text is its own normal form. -/
theorem Normalised.of_literal {count : Nat} {t u : Template} {names : List Bytes}
    (normal : Normalised count t u names) (literal : Literal t) : u = t ∧ names = [] := by
  have ends : firstParam t = .ok none := firstParam_eq_none_iff.2 literal
  cases normal with
  | text => exact ⟨rfl, rfl⟩
  | rest first => rw [ends] at first; cases first
  | letter first => rw [ends] at first; cases first

theorem Normalised.head_eq {count : Nat} {t u : Template} {names : List Bytes}
    (normal : Normalised count t u names) (noParam : ∀ s ∈ t.head?, s.opens = false) :
    u.head? = t.head? := by
  have kept {p : Param} {written rest : Template} (first : firstParam t = .ok (some p)) :
      (p.before ++ written ++ rest).head? = t.head? := by
    rcases before_cases first with ⟨-, head⟩ | ⟨s, front, before, head, -⟩
    · exact absurd (noParam _ head) (by decide)
    · rw [before, head]
      rfl
  cases normal with
  | text => rfl
  | rest first => exact kept first
  | letter first => exact kept first

/-! ### Marks -/

theorem marked_unescape (b : Bytes) : ∀ s ∈ unescape b, s.Marked := by
  fun_induction unescape b with
  | case1 => simp
  | case2 b => simp [Symbol.Marked]
  | case3 b c rest doubled ih =>
      refine List.forall_mem_cons.2 ⟨fun _ => ?_, ih⟩
      simpa [Symbol.is] using doubled.2
  | case4 b c rest single ih => exact List.forall_mem_cons.2 ⟨by simp [Symbol.Marked], ih⟩

theorem Literal.isText {t : Template} (text : Literal t) (marked : ∀ s ∈ t, s.Marked) : IsText t :=
  fun s mem => Symbol.isText_iff.2 ⟨marked s mem, text s mem⟩

theorem isText_before {t : Template} {p : Param} (first : firstParam t = .ok (some p))
    (marked : ∀ s ∈ t, s.Marked) : IsText p.before := by
  obtain ⟨text, _, whole⟩ := firstParam_eq_some_iff.1 first
  refine text.isText fun s mem => marked s ?_
  rw [whole]
  simp [mem]

theorem marked_after {t : Template} {p : Param} (first : firstParam t = .ok (some p))
    (marked : ∀ s ∈ t, s.Marked) : ∀ s ∈ p.after, s.Marked := by
  obtain ⟨_, _, whole⟩ := firstParam_eq_some_iff.1 first
  intro s mem
  refine marked s ?_
  rw [whole]
  simp [mem]

/-! ### Text in front of a parameter -/

/-- Text up to a brace that opens a parameter, or to the end. -/
inductive Led : Template → Prop
  | nil : Led []
  | param {t : Template} : Led (.plain '{' :: t)
  | symbol {s : Symbol} {t : Template} (text : s.IsText) (rest : Led t) : Led (s :: t)

namespace Led

variable {s : Symbol} {t u : Template}

theorem append (text : IsText u) (led : Led t) : Led (u ++ t) := by
  induction u with
  | nil => exact led
  | cons s u ih =>
      obtain ⟨own, text⟩ := isText_cons.1 text
      exact .symbol own (ih text)

theorem of_append (text : IsText u) (led : Led (u ++ t)) : Led t := by
  induction u with
  | nil => exact led
  | cons s u ih =>
      obtain ⟨own, text⟩ := isText_cons.1 text
      cases led with
      | param => exact absurd own (by decide)
      | symbol _ led => exact ih text led

theorem isText_of_literal (literal : Literal u) (led : Led (u ++ t)) : IsText u := by
  induction u with
  | nil => exact .nil
  | cons s u ih =>
      obtain ⟨own, literal⟩ := literal_cons.1 literal
      cases led with
      | param => exact absurd own (by decide)
      | symbol text led => exact isText_cons.2 ⟨text, ih literal led⟩

theorem isText (literal : Literal t) (led : Led t) : IsText t := by
  rw [← List.append_nil t] at led
  exact led.isText_of_literal literal

/-- What stands in front of the first parameter is text. -/
theorem before {p : Param} (led : Led t) (first : firstParam t = .ok (some p)) :
    IsText p.before := by
  obtain ⟨literal, -, whole⟩ := firstParam_eq_some_iff.1 first
  rw [List.append_assoc] at whole
  rw [whole] at led
  exact led.isText_of_literal literal

theorem head (led : Led (s :: t)) (noOpening : s.opens = false) : s.IsText := by
  cases led with
  | param => cases noOpening
  | symbol text => exact text

end Led

/-- Normal forms begin with text as it stands in the template. -/
theorem Normalised.led {count : Nat} {t u : Template} {names : List Bytes}
    (normal : Normalised count t u names) (marked : ∀ s ∈ t, s.Marked) : Led u := by
  cases normal with
  | text ends =>
      have led : Led (t ++ []) := .append ((firstParam_eq_none_iff.1 ends).isText marked) .nil
      rwa [List.append_nil] at led
  | rest first =>
      rw [List.append_assoc]
      exact .append (isText_before first marked) .param
  | letter first =>
      rw [List.append_assoc]
      exact .append (isText_before first marked) .param

/-! ### Parameters that stand apart -/

/-- Behind a parameter a template ends or goes on with text. Behind a name of two bytes or more,
that text does not begin with an escaped brace. -/
inductive Apart : Template → Prop
  | text {t : Template} (ends : firstParam t = .ok none) : Apart t
  | param {t : Template} {p : Param} (first : firstParam t = .ok (some p))
      (gap : ∀ s ∈ p.after.head?, s.opens = false ∧ (s.escaped = true → p.inside.length < 2))
      (others : Apart p.after) : Apart t

theorem Apart.after {t : Template} {p : Param} (apart : Apart t)
    (first : firstParam t = .ok (some p)) :
    (∀ s ∈ p.after.head?, s.opens = false ∧ (s.escaped = true → p.inside.length < 2)) ∧
      Apart p.after := by
  cases apart with
  | text ends => rw [ends] at first; cases first
  | param own gap others =>
      rw [own] at first
      cases first
      exact ⟨gap, others⟩

/-- Where parameters stand apart, no mark moves. -/
theorem closeGap_eq_self {n : Nat} {t : Template}
    (gap : ∀ s ∈ t.head?, s.escaped = true → n < 2) : closeGap n t = t := by
  cases t with
  | nil => rfl
  | cons s rest =>
      rw [closeGap, if_neg]
      rintro ⟨escaped, long⟩
      exact absurd (gap s rfl escaped) (by omega)

/-- The normal forms of templates whose parameters stand apart. -/
inductive Formed : Template → Prop
  | nil : Formed []
  | symbol {s : Symbol} {t : Template} (text : s.IsText) (rest : Formed t) : Formed (s :: t)
  | param {i : Nat} {t : Template} (letters : i < 25) (gap : ∀ s ∈ t.head?, s.opens = false)
      (rest : Formed t) : Formed (letter i ++ t)
  | rest {p : Param} (name : IsName p.inside) (rest : p.isRest = true) :
      Formed (p.written ++ p.after)

namespace Formed

variable {s : Symbol} {t u : Template}

theorem append (text : IsText u) (formed : Formed t) : Formed (u ++ t) := by
  induction u with
  | nil => exact formed
  | cons s u ih =>
      obtain ⟨own, text⟩ := isText_cons.1 text
      exact .symbol own (ih text)

theorem tail (text : s.IsText) (formed : Formed (s :: t)) : Formed t := by
  generalize whole : s :: t = v at formed
  cases formed with
  | nil => cases whole
  | symbol _ rest => cases whole; exact rest
  | param =>
      obtain ⟨rfl, -⟩ := List.cons.inj whole
      exact absurd text (by decide)
  | rest =>
      obtain ⟨rfl, -⟩ := List.cons.inj whole
      exact absurd text (by decide)

theorem of_append (text : IsText u) (formed : Formed (u ++ t)) : Formed t := by
  induction u with
  | nil => exact formed
  | cons s u ih =>
      obtain ⟨own, text⟩ := isText_cons.1 text
      exact ih text (formed.tail own)

end Formed

theorem Normalised.formed {count : Nat} {t u : Template} {names : List Bytes}
    (normal : Normalised count t u names) (marked : ∀ s ∈ t, s.Marked) (apart : Apart t) :
    Formed u := by
  induction normal with
  | @text _ t ends =>
      have formed : Formed (t ++ []) :=
        .append ((firstParam_eq_none_iff.1 ends).isText marked) .nil
      rwa [List.append_nil] at formed
  | @rest _ t after p _ first rest =>
      rw [List.append_assoc]
      have name := (firstParam_eq_some_iff.1 first).2.1
      exact .append (isText_before first marked)
        (.rest (p := ⟨p.before, p.inside, after⟩) name rest)
  | @letter _ t after p _ first plain letters others ih =>
      obtain ⟨gap, apart⟩ := apart.after first
      rw [closeGap_eq_self fun s mem => (gap s mem).2] at others ih
      have noParam : ∀ s ∈ p.after.head?, s.opens = false := fun s mem => (gap s mem).1
      rw [List.append_assoc]
      refine .append (isText_before first marked) (.param letters ?_ ?_)
      · rwa [others.head_eq noParam]
      · exact ih (marked_after first marked) apart

end RequestFlow.Route
