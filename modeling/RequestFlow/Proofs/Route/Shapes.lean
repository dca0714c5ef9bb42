import RequestFlow.Proofs.Route.Contents

/-!
# The shape of route trees

Where all templates keep their parameters apart, a tree is made of three kinds of nodes
(`Tree.Sound`): static text, with branches of text and perhaps one parameter; plain parameters,
named by a letter, with suffixes that reach up to the end of the segment; and parameters for the
rest of the path, with nothing below. Adding a template keeps the shape (`Tree.Grows.sound`).
-/

namespace RequestFlow.Route

/-! ### Normal forms, taken apart -/

def letterName (i : Nat) : Symbol := ⟨.ofNat ('a'.toNat + i), false⟩

theorem letterName_plain :
    ∀ i < 25, (letterName i).is '}' = false ∧ (letterName i).is '*' = false := by
  decide

theorem letterName_inj : ∀ i < 25, ∀ j < 25, (letterName i).byte = (letterName j).byte → i = j := by
  decide

theorem noSlash_letter : ∀ i < 25, ∀ s ∈ letter i, s.is '/' = false := by
  decide

theorem isName_letter {i : Nat} (letters : i < 25) : IsName [letterName i] :=
  .mk (letterName_plain i letters).1 nofun fun _ => (letterName_plain i letters).2

namespace Formed

variable {t : Template} {p : Param}

theorem led (formed : Formed t) : Led t := by
  induction formed with
  | nil => exact .nil
  | symbol text _ ih => exact .symbol text ih
  | param => exact .param
  | rest => exact .param

/-- The first parameter of a normal form takes the rest of the path, or a letter is its name. -/
theorem first (formed : Formed t) (first : firstParam t = .ok (some p)) :
    p.isRest = true ∨ ∃ i < 25, p.written = letter i ∧
      (∀ s ∈ p.after.head?, s.opens = false) ∧ Formed p.after := by
  obtain ⟨-, name, whole⟩ := firstParam_eq_some_iff.1 first
  have text := formed.led.before first
  rw [whole, List.append_assoc] at formed
  have formed := formed.of_append text
  generalize whole : p.written ++ p.after = v at formed
  cases formed with
  | nil => cases whole
  | symbol text =>
      injection whole with same
      exact absurd text (same ▸ by decide)
  | @param i after letters gap rest =>
      obtain ⟨inside, rfl⟩ :=
        written_inj (q := ⟨[], [letterName i], after⟩) name (isName_letter letters) whole
      refine .inr ⟨i, letters, ?_, gap, rest⟩
      rw [Param.written, inside]
      rfl
  | @rest q name' rest =>
      obtain ⟨inside, -⟩ := written_inj name name' whole
      rw [Param.isRest, ← inside] at rest
      exact .inl rest

theorem of_letter {i : Nat} (letters : i < 25) (formed : Formed (letter i ++ t)) :
    (∀ s ∈ t.head?, s.opens = false) ∧ Formed t := by
  have read : firstParam (letter i ++ t) = .ok (some ⟨[], [letterName i], t⟩) :=
    firstParam_eq_some_iff.2 ⟨.nil, isName_letter letters, rfl⟩
  have plain : Param.isRest ⟨[], [letterName i], t⟩ ≠ true := by
    simp [Param.isRest, (letterName_plain i letters).2]
  obtain ⟨_, _, _, gap, rest⟩ := (formed.first read).resolve_left plain
  exact ⟨gap, rest⟩

/-- Normal forms that begin with the bytes of a letter begin with that letter. -/
theorem letter_prefix {i : Nat} (letters : i < 25) (formed : Formed (.plain '{' :: t))
    (agrees : raw (letter i) <+: raw (.plain '{' :: t)) : letter i <+: .plain '{' :: t := by
  generalize whole : Symbol.plain '{' :: t = v at formed agrees
  cases formed with
  | nil => cases whole
  | symbol text =>
      injection whole with same
      exact absurd text (same ▸ by decide)
  | @param j after letters' =>
      have bytes : (letterName i).byte = (letterName j).byte := by
        obtain ⟨rest, same⟩ := agrees
        injection same with _ same
        injection same
      rw [letterName_inj i letters j letters' bytes]
      exact List.prefix_append _ _
  | @rest p name rest =>
      obtain ⟨before, inside, after⟩ := p
      obtain ⟨-, -, -⟩ := name
      next first tail =>
        have bytes : (letterName i).byte = first.byte := by
          obtain ⟨rest, same⟩ := agrees
          injection same with _ same
          injection same
        have star : first.is '*' = true := by simpa [Param.isRest] using rest
        rw [Symbol.is, ← bytes] at star
        exact absurd star (by simpa [Symbol.is] using (letterName_plain i letters).2)

end Formed

namespace Tree

/-! ### Suffixes of a segment -/

theorem cutSegment_of_no_slash {u t : Template} (inside : ∀ s ∈ u, s.is '/' = false) :
    (cutSegment (u ++ t)).1 = u ++ (cutSegment t).1 := by
  induction u with
  | nil => rfl
  | cons s u ih =>
      obtain ⟨own, inside⟩ := List.forall_mem_cons.1 inside
      rw [List.cons_append, cutSegment, own, if_neg Bool.false_ne_true]
      exact congrArg (s :: ·) (ih inside)

theorem hasParam_iff {t : Template} :
    hasParam t = true ↔ ∃ p, firstParam t = .ok (some p) := by
  rw [hasParam]
  split
  next p first => simp [first]
  next other => simpa using other

theorem hasParam_written {p : Param} (name : IsName p.inside) (t : Template) :
    hasParam (p.written ++ t) = true :=
  hasParam_iff.2 ⟨⟨[], p.inside, t⟩, firstParam_eq_some_iff.2 ⟨.nil, name, rfl⟩⟩

theorem hasParam_cons {s : Symbol} {t : Template} (literal : s.Literal) (has : hasParam t = true) :
    hasParam (s :: t) = true := by
  obtain ⟨p, first⟩ := hasParam_iff.1 has
  obtain ⟨before, name, rfl⟩ := firstParam_eq_some_iff.1 first
  exact hasParam_iff.2 ⟨⟨s :: p.before, p.inside, p.after⟩,
    firstParam_eq_some_iff.2 ⟨literal_cons.2 ⟨literal, before⟩, name, rfl⟩⟩

theorem noSlash_of_isRest {p : Param} (name : IsName p.inside) (rest : p.isRest = true) :
    ∀ s ∈ p.written, s.is '/' = false := by
  obtain ⟨before, inside, after⟩ := p
  obtain ⟨-, named, -⟩ := name
  next first tail =>
    have star : first.byte = 0x2a := by simpa [Param.isRest, Symbol.is] using rest
    have head : first.is '/' = false := by simp [Symbol.is, star]
    intro s mem
    have placed : s = .plain '{' ∨ s = first ∨ s ∈ tail ∨ s = .plain '}' := by
      simpa [Param.written] using mem
    rcases placed with rfl | rfl | mem | rfl
    · rfl
    · exact head
    · exact (named s mem).2.2
    · rfl

/-- The end of a segment without a parameter is text, and what follows is a normal form again. -/
theorem formed_cutSegment {t : Template} (formed : Formed t)
    (single : hasParam (cutSegment t).1 = false) :
    IsText (cutSegment t).1 ∧ Formed (cutSegment t).2 := by
  induction formed with
  | nil => exact ⟨.nil, .nil⟩
  | @symbol s t text rest ih =>
      rw [cutSegment] at single ⊢
      split at single
      next slash =>
        rw [if_pos slash]
        exact ⟨isText_cons.2 ⟨text, .nil⟩, rest⟩
      next noSlash =>
        rw [if_neg noSlash]
        have deeper : hasParam (cutSegment t).1 = false :=
          Bool.eq_false_iff.2 fun has => by simp [hasParam_cons text.literal has] at single
        obtain ⟨segment, after⟩ := ih deeper
        exact ⟨isText_cons.2 ⟨text, segment⟩, after⟩
  | @param i t letters gap rest =>
      have has : hasParam (letter i ++ (cutSegment t).1) = true :=
        hasParam_written (p := ⟨[], [letterName i], []⟩) (isName_letter letters) _
      rw [cutSegment_of_no_slash (noSlash_letter i letters), has] at single
      cases single
  | @rest p name rest =>
      rw [cutSegment_of_no_slash (noSlash_of_isRest name rest), hasParam_written name] at single
      cases single

/-! ### Shapes -/

/-- The three kinds of nodes: text, plain parameters and parameters for the rest of the path. -/
inductive Sound : Tree → Prop
  | static {label : Template} {weight : Nat} {branches : List Tree} {wild : Option Tree}
      {entry : Option Entry} (text : IsText label) (kinds : ∀ b ∈ branches, b.kind = .static)
      (below : ∀ b ∈ branches, Sound b) (above : ∀ w, wild = some w → w.kind ≠ .static)
      (param : ∀ w, wild = some w → Sound w) :
      Sound ⟨label, .static, weight, branches, wild, entry⟩
  | param {i weight : Nat} {branches : List Tree} {wild : Option Tree} {entry : Option Entry}
      (letters : i < 25) (kinds : ∀ b ∈ branches, b.kind = .static)
      (named : ∀ b ∈ branches, b.label ≠ []) (below : ∀ b ∈ branches, Sound b) :
      Sound ⟨letter i, .param, weight, branches, wild, entry⟩
  | rest {p : Param} {weight : Nat} {branches : List Tree} {wild : Option Tree}
      {entry : Option Entry} (name : IsName p.inside) (rest : p.isRest = true) :
      Sound ⟨p.written, .rest, weight, branches, wild, entry⟩

section Single

variable {label : Template} {weight : Nat} {entry : Option Entry}

theorem Sound.ofText (text : IsText label) :
    Sound ⟨label, .static, weight, [], none, entry⟩ :=
  .static text nofun nofun nofun nofun

theorem Sound.ofParam {w : Tree} (text : IsText label) (sound : w.Sound)
    (above : w.kind ≠ .static) :
    Sound ⟨label, .static, weight, [], some w, entry⟩ := by
  refine .static text nofun nofun ?_ ?_
  · rintro _ ⟨rfl⟩
    exact above
  · rintro _ ⟨rfl⟩
    exact sound

end Single

theorem Sound.text {n : Tree} (sound : n.Sound) (static : n.kind = .static) : IsText n.label := by
  cases sound with
  | static text => exact text
  | param => cases static
  | rest => cases static

theorem Sound.reweigh {label : Template} {kind : Kind} {weight weight' : Nat}
    {branches : List Tree} {wild : Option Tree} {entry entry' : Option Entry}
    (sound : Sound ⟨label, kind, weight, branches, wild, entry⟩) :
    Sound ⟨label, kind, weight', branches, wild, entry'⟩ := by
  cases sound with
  | static text kinds below above param => exact .static text kinds below above param
  | param letters kinds named below => exact .param letters kinds named below
  | rest name rest => exact .rest name rest

section Hanging

variable {e : Entry} {p : Param} {n s w : Tree} {suffix rest t : Template}

theorem sound_graft_of_wild (formed : Formed t)
    (wild : ∀ {p w}, firstParam t = .ok (some p) → Wild e p w → w.Sound ∧ w.kind ≠ .static)
    (ok : graft (leaf [] .static none) e t = .ok n) : n.Sound ∧ n.kind = .static := by
  rcases graft_leaf ok with ⟨literal, rfl⟩ | ⟨p, w, first, node, rfl⟩
  · exact ⟨.ofText (formed.led.isText literal), rfl⟩
  · obtain ⟨sound, above⟩ := wild first node
    exact ⟨.ofParam (formed.led.before first) sound above, rfl⟩

theorem sound_suffixNode_of_wild (text : IsText suffix) (formed : Formed rest)
    (wild : ∀ {p w}, firstParam rest = .ok (some p) → Wild e p w → w.Sound ∧ w.kind ≠ .static)
    (ok : suffixNode suffix e rest = .ok s) : s.Sound ∧ s.kind = .static ∧ s.label = suffix := by
  rcases suffixNode_ok ok with ⟨rfl, rfl⟩ | ⟨t, rfl, ok⟩ | ⟨next, t, b, rfl, -, grafted, rfl⟩
  · exact ⟨.ofText text, rfl, rfl⟩
  · obtain ⟨p, w, -, -, first, node, rfl⟩ := graft_param ok
    obtain ⟨sound, above⟩ := wild first node
    exact ⟨.ofParam text sound above, rfl, rfl⟩
  · obtain ⟨sound, static⟩ := sound_graft_of_wild formed wild grafted
    refine ⟨.static text ?_ ?_ nofun nofun, rfl, rfl⟩
    · simpa using static
    · simpa using sound

theorem sound_wild (formed : Formed t) (first : firstParam t = .ok (some p)) (node : Wild e p w) :
    w.Sound ∧ w.kind ≠ .static := by
  induction h : p.after.length using Nat.strongRecOn generalizing t p w with
  | ind length ih =>
      have name := (firstParam_eq_some_iff.1 first).2.1
      cases node with
      | rest rest => exact ⟨.rest name rest, Kind.noConfusion⟩
      | last plain =>
          obtain ⟨i, letters, written, -⟩ := (formed.first first).resolve_left (by simp [plain])
          rw [leaf, written]
          exact ⟨.param letters (List.forall_mem_nil _) (List.forall_mem_nil _)
            (List.forall_mem_nil _), Kind.noConfusion⟩
      | @suffixed s plain goes single node =>
          obtain ⟨i, letters, written, -, after⟩ :=
            (formed.first first).resolve_left (by simp [plain])
          obtain ⟨text, rest⟩ := formed_cutSegment after single
          have deeper {q v} (first' : firstParam (cutSegment p.after).2 = .ok (some q))
              (node' : Wild e q v) : v.Sound ∧ v.kind ≠ .static := by
            have := firstParam_length first'
            have := length_cutSegment p.after
            exact ih _ (by omega) rest first' node' rfl
          obtain ⟨sound, static, label⟩ := sound_suffixNode_of_wild text rest deeper node
          rw [leaf, written]
          refine ⟨.param letters ?_ ?_ ?_, Kind.noConfusion⟩
          · simpa using static
          · simpa [label] using mt cutSegment_eq_nil goes
          · simpa using sound

theorem sound_graft (formed : Formed t) (ok : graft (leaf [] .static none) e t = .ok n) :
    n.Sound ∧ n.kind = .static :=
  sound_graft_of_wild formed (sound_wild formed) ok

theorem sound_suffixNode (formed : Formed t) (goes : t ≠ [])
    (single : hasParam (cutSegment t).1 = false)
    (ok : suffixNode (cutSegment t).1 e (cutSegment t).2 = .ok s) :
    s.Sound ∧ s.kind = .static ∧ s.label ≠ [] := by
  obtain ⟨text, rest⟩ := formed_cutSegment formed single
  obtain ⟨sound, static, label⟩ := sound_suffixNode_of_wild text rest (sound_wild rest) ok
  exact ⟨sound, static, label ▸ mt cutSegment_eq_nil goes⟩

end Hanging

/-! ### Adding a template -/

section Growth

variable {e : Entry} {n n' : Tree} {t left : Template}

theorem Sound.onward (sound : n.Sound) (notRest : n.kind ≠ .rest) (formed : Formed (n.label ++ t)) :
    Formed t := by
  cases sound with
  | static text => exact formed.of_append text
  | param letters => exact (formed.of_letter letters).2
  | rest => exact absurd rfl notRest

theorem Sprouts.sound (sprouts : n.Sprouts e left n') (formed : Formed left)
    (notRest : n.kind ≠ .rest) (sound : n.Sound) : n'.Sound := by
  obtain ⟨label, kind, weight, branches, wild, entry⟩ := n
  cases sprouts with
  | entry free => exact sound.reweigh
  | @suffix s _ front back param goes single node place =>
      obtain ⟨own, static, new⟩ := sound_suffixNode formed goes single node
      simp only at place param
      subst place param
      obtain - | ⟨letters, kinds, named, below⟩ | - := sound
      refine .param letters ?_ ?_ ?_
      · simpa [static, or_imp, forall_and] using kinds
      · simpa [new, or_imp, forall_and] using named
      · simpa [own, or_imp, forall_and] using below
  | @wild w p _ above free first front node =>
      obtain ⟨own, paramKind⟩ := sound_wild formed first node
      obtain ⟨text, kinds, below, -, -⟩ | - | - := sound
      · refine .static text kinds below ?_ ?_
        · rintro _ ⟨rfl⟩
          exact paramKind
        · rintro _ ⟨rfl⟩
          exact own
      · exact absurd rfl above
      · exact absurd rfl notRest
  | @static b next rest above noOpening new node =>
      obtain ⟨own, static⟩ := sound_graft formed node
      obtain ⟨text, kinds, below, param, wilds⟩ | - | - := sound
      · refine .static text ?_ ?_ param wilds
        · simpa [static, or_imp, forall_and] using kinds
        · simpa [own, or_imp, forall_and] using below
      · exact absurd rfl above
      · exact absurd rfl notRest

theorem Grows.sound (grows : n.Grows e t n') (formed : Formed t) (notRest : n.kind ≠ .rest)
    (agrees : n.kind = .param → n.label <+: t) (sound : n.Sound) : n'.Sound := by
  induction grows with
  | stop rest => exact rest.sound (sound.onward notRest formed) notRest sound.reweigh
  | @divide front back left kind _ _ _ branches wild entry _ partly differs rest =>
      have above : kind ≠ .param := by
        intro param
        obtain ⟨rest, rfl⟩ := (List.prefix_append_right_inj front).1 (agrees param)
        cases back with
        | nil => exact partly rfl
        | cons r back => exact differs rfl
      generalize whole : front ++ back = label at sound
      obtain ⟨text, kinds, below, params, wilds⟩ | - | - := sound
      · subst whole
        obtain ⟨head, tail⟩ := isText_append.1 text
        refine rest.sound (formed.of_append head) notRest (.static head ?_ ?_ nofun nofun)
        · exact List.forall_mem_singleton.2 rfl
        · exact List.forall_mem_singleton.2 (.static tail kinds below params wilds)
      · exact absurd rfl above
      · exact absurd rfl notRest
  | @branch label left kind _ _ b b' front back branches' wild entry suffix text grows same ih =>
      have onward := sound.onward notRest formed
      have grown (static : b.kind = .static) (own : b.Sound) : b'.Sound := by
        refine ih onward ?_ ?_ own <;> simp [static]
      obtain ⟨text', kinds, below, params, wilds⟩ | ⟨letters, kinds, named, below⟩ | - := sound
      · have static := kinds b (by simp)
        refine .static text' (forall_mem_grown same kinds (grows.kind_eq.trans static))
          (forall_mem_grown same below (grown static (below b (by simp)))) params wilds
      · have static := kinds b (by simp)
        refine .param letters (forall_mem_grown same kinds (grows.kind_eq.trans static))
          (forall_mem_grown same named fun unnamed => ?_)
          (forall_mem_grown same below (grown static (below b (by simp))))
        -- The suffix that was entered agrees with the template in its bytes, so it keeps its head.
        obtain ⟨goes, bytes⟩ := suffix rfl
        cases left with
        | nil => exact absurd rfl goes
        | cons s rest =>
            have noOpening := (formed.of_letter letters).1 s rfl
            have next : s.IsText := onward.led.head noOpening
            have begins : b.label.head? = some s := by
              refine head?_eq_of_raw (u := [s]) ((below b (by simp)).text static) ?_ ?_
              · exact isText_cons.2 ⟨next, .nil⟩
              · rw [bytes, cutSegment]
                split <;> rfl
            have head := grows.head?_label begins rfl
            rw [unnamed] at head
            cases head
      · exact absurd rfl notRest
  | @wild label left kind _ _ w w' branches entry above param opens agrees' grows ih =>
      have onward := sound.onward notRest formed
      obtain ⟨text, kinds, below, params, wilds⟩ | - | - := sound
      · have own := wilds w rfl
        have grown : w'.Sound := by
          refine ih onward (by simp [param]) (fun _ => ?_) own
          obtain ⟨t, rfl⟩ := opens
          obtain - | ⟨letters, -, -, -⟩ | - := own
          · cases param
          · exact onward.letter_prefix letters agrees'
          · cases param
        refine .static text kinds below ?_ ?_
        · rintro _ ⟨rfl⟩
          rw [grows.kind_eq]
          exact params w rfl
        · rintro _ ⟨rfl⟩
          exact grown
      · exact absurd rfl above
      · exact absurd rfl notRest

end Growth

end Tree

end RequestFlow.Route
