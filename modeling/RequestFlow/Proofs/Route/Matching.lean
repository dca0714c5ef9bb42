import RequestFlow.Proofs.Route.Search
import RequestFlow.Proofs.Route.Shapes
import RequestFlow.Proofs.Text.Boundaries

/-!
# What a path is matched with

A path fits a template if it comes from it by putting a value in the place of each parameter
(`Fits`). Where parameters are kept apart, a tree only finds entries of templates that the path
fits, with the values that make it fit (`Tree.explains_of_find?`). The tree knows the templates by
their normal forms; a path that fits the normal form fits the template itself, under the names that
were replaced (`Normalised.fits`).

Values are cut out of a path by bytes. Since a template is a text, it is cut between characters, and
so is the path (`Fits.valid`).
-/

namespace RequestFlow.Route

/-- `Fits t plain rest path`: the path is the template with the values of `plain` and `rest` in the
place of its parameters, in order. A plain parameter stands for a part of one segment and the
parameter for the rest, if there is one, for the end of the path; neither is empty. -/
inductive Fits : Template → List (Bytes × Bytes) → Option (Bytes × Bytes) → Bytes → Prop
  | done : Fits [] [] none []
  | symbol {s : Symbol} {t : Template} {plain : List (Bytes × Bytes)}
      {rest : Option (Bytes × Bytes)} {path : Bytes} (literal : s.Literal)
      (others : Fits t plain rest path) :
      Fits (s :: t) plain rest (s.byte :: path)
  | param {p : Param} {value path : Bytes} {plain : List (Bytes × Bytes)}
      {rest : Option (Bytes × Bytes)} (name : IsName p.inside) (single : p.isRest = false)
      (filled : value ≠ []) (segment : 0x2f ∉ value) (others : Fits p.after plain rest path) :
      Fits (p.written ++ p.after) ((raw p.inside, value) :: plain) rest (value ++ path)
  | rest {p : Param} {value : Bytes} (name : IsName p.inside) (rest : p.isRest = true)
      (filled : value ≠ []) : Fits p.written [] (some (raw p.inside.tail, value)) value

namespace Fits

variable {t u : Template} {p : Param} {plain : List (Bytes × Bytes)} {rest : Option (Bytes × Bytes)}
variable {path : Bytes}

theorem append (literal : Literal u) (fits : Fits t plain rest path) :
    Fits (u ++ t) plain rest (raw u ++ path) := by
  induction u with
  | nil => exact fits
  | cons s u ih =>
      obtain ⟨own, literal⟩ := literal_cons.1 literal
      exact .symbol own (ih literal)

theorem of_literal (literal : Literal u) : Fits u [] none (raw u) := by
  have fits := append literal .done
  rwa [List.append_nil, List.append_nil] at fits

theorem symbol_inv {s : Symbol} (noOpening : s.opens = false)
    (fits : Fits (s :: t) plain rest path) :
    ∃ path', path = s.byte :: path' ∧ Fits t plain rest path' := by
  generalize whole : s :: t = v at fits
  cases fits with
  | done => cases whole
  | symbol _ others => cases whole; exact ⟨_, rfl, others⟩
  | param =>
      obtain ⟨rfl, -⟩ := List.cons.inj whole
      cases noOpening
  | rest =>
      obtain ⟨rfl, -⟩ := List.cons.inj whole
      cases noOpening

theorem append_inv (literal : Literal u) (fits : Fits (u ++ t) plain rest path) :
    ∃ path', path = raw u ++ path' ∧ Fits t plain rest path' := by
  induction u generalizing path with
  | nil => exact ⟨path, rfl, fits⟩
  | cons s u ih =>
      obtain ⟨own, literal⟩ := literal_cons.1 literal
      obtain ⟨middle, rfl, others⟩ := symbol_inv own.1 fits
      obtain ⟨path', rfl, fits'⟩ := ih literal others
      exact ⟨path', rfl, fits'⟩

theorem nil_inv (fits : Fits [] plain rest path) : plain = [] ∧ rest = none ∧ path = [] := by
  generalize whole : ([] : Template) = v at fits
  cases fits with
  | done => exact ⟨rfl, rfl, rfl⟩
  | symbol => cases whole
  | param => cases whole
  | rest => cases whole

/-- Literal text is fitted by itself alone. -/
theorem literal_inv (literal : Literal t) (fits : Fits t plain rest path) :
    plain = [] ∧ rest = none ∧ path = raw t := by
  rw [← List.append_nil t] at fits
  obtain ⟨path', rfl, ended⟩ := fits.append_inv literal
  obtain ⟨rfl, rfl, rfl⟩ := ended.nil_inv
  exact ⟨rfl, rfl, List.append_nil _⟩

/-- The value of a plain parameter is a part of one segment. -/
theorem segment_of_mem (fits : Fits t plain rest path) :
    ∀ e ∈ plain, e.2 ≠ [] ∧ 0x2f ∉ e.2 := by
  induction fits with
  | done => exact nofun
  | symbol _ _ ih => exact ih
  | param _ _ filled segment _ ih => exact List.forall_mem_cons.2 ⟨⟨filled, segment⟩, ih⟩
  | rest => exact nofun

/-- A path that fits a parameter begins with its value, or is its value. -/
theorem written_inv (name : IsName p.inside) (fits : Fits (p.written ++ p.after) plain rest path) :
    (p.isRest = false ∧ ∃ value plain' path', value ≠ [] ∧ 0x2f ∉ value ∧
      plain = (raw p.inside, value) :: plain' ∧ path = value ++ path' ∧
      Fits p.after plain' rest path') ∨
    p.isRest = true ∧ p.after = [] ∧ plain = [] ∧ path ≠ [] ∧
      rest = some (raw p.inside.tail, path) := by
  generalize whole : p.written ++ p.after = v at fits
  cases fits with
  | done => cases whole
  | symbol literal =>
      obtain ⟨rfl, -⟩ := List.cons.inj whole
      exact absurd literal (by decide)
  | @param q value path' plain' _ name' single filled segment others =>
      obtain ⟨inside, after⟩ := written_inj name name' whole
      refine .inl ⟨?_, value, plain', path', filled, segment, ?_, rfl, after ▸ others⟩
      · rw [Param.isRest, inside]
        exact single
      · rw [inside]
  | @rest q _ name' isRest filled =>
      have whole : p.written ++ p.after = q.written ++ Param.after ⟨[], q.inside, []⟩ := by
        rw [whole, List.append_nil]
      obtain ⟨inside, after⟩ := written_inj (q := ⟨[], q.inside, []⟩) name name' whole
      refine .inr ⟨?_, after, rfl, filled, ?_⟩
      · rw [Param.isRest, inside]
        exact isRest
      · rw [inside]

end Fits

/-! ### Look-up in a tree -/

namespace Tree

theorem segment_prefix (path : Bytes) : segment path <+: path := by
  induction path with
  | nil => exact List.prefix_rfl
  | cons b rest ih =>
      rw [segment]
      split
      · exact (List.prefix_append [b] rest)
      · exact (List.prefix_cons_inj b).2 ih

theorem segment_dropLast (path : Bytes) : 0x2f ∉ (segment path).dropLast := by
  induction path with
  | nil => exact nofun
  | cons b rest ih =>
      rw [segment]
      split
      · exact nofun
      next other =>
        cases more : segment rest with
        | nil => exact nofun
        | cons c s =>
            rw [more] at ih
            rw [List.dropLast_cons_cons, List.mem_cons, not_or]
            exact ⟨Ne.symm other, ih⟩

/-- The value of a parameter with a suffix: a part of the segment that does not reach to its end. -/
theorem value_of_segment {path : Bytes} {k : Nat} (positive : 0 < k)
    (part : k < (segment path).length) :
    (segment path).take k ++ path.drop k = path ∧ (segment path).take k ≠ [] ∧
      0x2f ∉ (segment path).take k := by
  obtain ⟨rest, whole⟩ := segment_prefix path
  have head : (segment path ++ rest).take k = (segment path).take k :=
    List.take_append_of_le_length (Nat.le_of_lt part)
  rw [whole] at head
  refine ⟨?_, ?_, fun slash => segment_dropLast path ?_⟩
  · rw [← head, List.take_append_drop]
  · rw [← List.length_pos_iff, List.length_take]
    omega
  · rw [List.dropLast_eq_take]
    exact (List.take_subset_take_left _ (by omega)) slash

theorem restName_written {p : Param} (name : IsName p.inside) :
    restName p.written = raw p.inside.tail := by
  obtain ⟨before, inside, after⟩ := p
  obtain ⟨-, -, -⟩ := name
  next first tail => simp [restName, Param.written]

/-- A match of a path that a template explains: the tree holds the template with the entry that was
found, and the path fits the template with the values that were found. -/
def Explains (n : Tree) (path : Bytes) (m : Match) : Prop :=
  ∃ t plain, n.Holds t m.entry ∧ Fits t plain m.rest path ∧ plain.map Prod.snd = m.values

theorem Explains.branch {n b : Tree} {path : Bytes} {m : Match} (text : IsText n.label)
    (mem : b ∈ n.branches) (explains : b.Explains path m) : n.Explains (raw n.label ++ path) m := by
  obtain ⟨t, plain, holds, fits, values⟩ := explains
  exact ⟨_, plain, .branch mem holds, fits.append text.literal, values⟩

theorem Explains.wild {n w : Tree} {path : Bytes} {m : Match} (text : IsText n.label)
    (is : n.wild = some w) (explains : w.Explains path m) : n.Explains (raw n.label ++ path) m := by
  obtain ⟨t, plain, holds, fits, values⟩ := explains
  exact ⟨_, plain, .wild is holds, fits.append text.literal, values⟩

/-- What a tree finds is explained by what it holds. -/
theorem explains_of_find? {n : Tree} (sound : n.Sound) {path : Bytes} {m : Match} :
    (n.kind = .static → n.find? path = some m → n.Explains path m) ∧
    (n.kind ≠ .static → path ≠ [] → findWild? n path = some m → n.Explains path m) := by
  induction sound generalizing path m with
  | @static label weight branches wild entry text kinds below above param ihBelow ihWild =>
      refine ⟨fun _ found => ?_, fun other => absurd rfl other⟩
      rcases find?_cases found with
        ⟨e, rfl, ends, rfl⟩ | ⟨path', rfl, goes, ⟨b, mem, found'⟩ | ⟨w, is, found'⟩⟩
      · exact ⟨label, [], .entry ends, .of_literal text.literal, rfl⟩
      · exact .branch text mem ((ihBelow b mem).1 (kinds b mem) found')
      · exact .wild text is ((ihWild w is).2 (above w is) goes found')
  | @param i weight branches wild entry letters kinds named below ih =>
      refine ⟨fun static => Kind.noConfusion static, fun _ goes found => ?_⟩
      have name := isName_letter letters
      have plain : Param.isRest ⟨[], [letterName i], []⟩ = false := by
        simp [Param.isRest, (letterName_plain i letters).2]
      rcases findWild?_cases found with
        ⟨rest, -⟩ | ⟨-, b, mem, k, m', length, positive, found', rfl⟩ | ⟨-, last, e, ends, rfl⟩
      · cases rest
      · obtain ⟨t, values, holds, fits, same⟩ := (ih b mem).1 (kinds b mem) found'
        have suffix : 0 < (raw b.label).length := by
          rw [raw, List.length_map]
          exact List.length_pos_iff.2 (named b mem)
        have part : k < (segment path).length := by omega
        obtain ⟨whole, filled, single⟩ := value_of_segment positive part
        have fits := Fits.param (p := ⟨[], [letterName i], t⟩) name plain filled single fits
        rw [whole] at fits
        exact ⟨letter i ++ t, _, .branch mem holds, fits, congrArg (_ :: ·) same⟩
      · have fits : Fits (letter i ++ []) [(raw [letterName i], path)] none (path ++ []) :=
          .param (p := ⟨[], [letterName i], []⟩) name plain goes last .done
        rw [List.append_nil, List.append_nil] at fits
        exact ⟨letter i, [(raw [letterName i], path)], .entry ends, fits, rfl⟩
  | @rest p weight branches wild entry name rest =>
      refine ⟨fun static => Kind.noConfusion static, fun _ goes found => ?_⟩
      rcases findWild?_cases found with ⟨-, e, ends, rfl⟩ | ⟨plain, -⟩ | ⟨plain, -⟩
      · rw [restName_written name]
        exact ⟨p.written, [], .entry ends, .rest name rest goes, rfl⟩
      · exact absurd rfl plain
      · exact absurd rfl plain

end Tree

/-! ### Back to the names of the template -/

/-- A path that fits a normal form fits the template, under the names of the template. -/
theorem Normalised.fits {count : Nat} {t u : Template} {names : List Bytes}
    {plain : List (Bytes × Bytes)} {rest : Option (Bytes × Bytes)} {path : Bytes}
    (normal : Normalised count t u names) (apart : Apart t) (fits : Fits u plain rest path) :
    Fits t (names.zip (plain.map Prod.snd)) rest path := by
  induction normal generalizing plain path with
  | @text _ t ends =>
      have literal := firstParam_eq_none_iff.1 ends
      obtain ⟨rfl, rfl, rfl⟩ := fits.literal_inv literal
      exact .of_literal literal
  | @rest _ t after p names first isRest others =>
      obtain ⟨literal, name, whole⟩ := firstParam_eq_some_iff.1 first
      rw [List.append_assoc] at fits whole
      obtain ⟨path', rfl, onward⟩ := fits.append_inv literal
      rcases Fits.written_inv (p := ⟨p.before, p.inside, after⟩) name onward with
        ⟨plain', -⟩ | ⟨-, ends, rfl, filled, rfl⟩
      · exact absurd (isRest.symm.trans plain') (by decide)
      · simp only at ends
        subst ends
        obtain ⟨ended, rfl⟩ := others.of_nil
        rw [whole, ended, List.append_nil]
        exact .append literal (.rest name isRest filled)
  | @letter i t after p names first isPlain letters others ih =>
      obtain ⟨literal, name, whole⟩ := firstParam_eq_some_iff.1 first
      obtain ⟨gap, apart'⟩ := apart.after first
      rw [closeGap_eq_self fun s mem => (gap s mem).2] at ih
      rw [List.append_assoc] at fits whole
      obtain ⟨path', rfl, onward⟩ := fits.append_inv literal
      rcases Fits.written_inv (p := ⟨[], [letterName i], after⟩) (isName_letter letters) onward with
        ⟨-, value, plain', path', filled, segment, rfl, rfl, fits'⟩ | ⟨isRest, -⟩
      · rw [whole]
        exact .append literal (.param name isPlain filled segment (ih apart' fits'))
      · simp [Param.isRest, (letterName_plain i letters).2] at isRest

/-! ### Names and values as texts -/

theorem valid_append_unescape {a b : Bytes} (valid : Utf8.Valid (a ++ b)) :
    Utf8.Valid (a ++ raw (unescape b)) := by
  fun_induction unescape b generalizing a with
  | case1 => exact valid
  | case2 => exact valid
  | case3 b c rest doubled ih =>
      obtain ⟨rfl, brace⟩ := doubled
      obtain ⟨ch, ascii, rfl⟩ : ∃ ch : Char, ch.toNat < 0x80 ∧ b = .ofNat ch.toNat := by
        rcases brace with rfl | rfl
        · exact ⟨'{', by decide, rfl⟩
        · exact ⟨'}', by decide, rfl⟩
      obtain ⟨front, behind⟩ := valid.cut_ascii ascii
      have onward := (Utf8.valid_append_iff (Utf8.valid_ascii ascii)).1 behind
      exact front.append ((Utf8.valid_ascii ascii).append (ih (a := []) onward))
  | case4 b c rest _ ih =>
      have moved := ih (a := a ++ [b]) (by simpa using valid)
      simpa using moved

theorem valid_unescape {b : Bytes} (valid : Utf8.Valid b) : Utf8.Valid (raw (unescape b)) :=
  valid_append_unescape (a := []) valid

theorem valid_restName {p : Param} (name : IsName p.inside) (rest : p.isRest = true)
    (valid : Utf8.Valid (raw p.inside)) : Utf8.Valid (raw p.inside.tail) := by
  obtain ⟨before, inside, after⟩ := p
  obtain ⟨-, -, -⟩ := name
  next first tail =>
    have star : first.byte = .ofNat '*'.toNat := by simpa [Param.isRest, Symbol.is] using rest
    rw [raw_cons, star] at valid
    exact (Utf8.Valid.cut_ascii (a := []) (by decide) valid).2

/-- If the template and the path are texts, so are the names and the values. -/
theorem Fits.valid {t : Template} {plain : List (Bytes × Bytes)} {rest : Option (Bytes × Bytes)}
    {path : Bytes} (fits : Fits t plain rest path) (apart : Apart t)
    (template : Utf8.Valid (raw t)) (text : Utf8.Valid path) :
    ∀ e ∈ plain ++ rest.toList, Utf8.Valid e.1 ∧ Utf8.Valid e.2 := by
  induction apart generalizing plain path with
  | @text t ends =>
      obtain ⟨rfl, rfl, -⟩ := fits.literal_inv (firstParam_eq_none_iff.1 ends)
      exact nofun
  | @param t p first gap others ih =>
      obtain ⟨literal, name, whole⟩ := firstParam_eq_some_iff.1 first
      rw [List.append_assoc] at whole
      rw [whole] at fits template
      obtain ⟨path', rfl, onward⟩ := fits.append_inv literal
      have written : raw (p.before ++ (p.written ++ p.after)) =
          raw p.before ++
            .ofNat '{'.toNat :: (raw p.inside ++ .ofNat '}'.toNat :: raw p.after) := by
        simp [raw, Param.written, Symbol.plain]
      rw [written] at template
      obtain ⟨before, behind⟩ := template.cut_ascii (by decide)
      obtain ⟨inside, after⟩ := behind.cut_ascii (by decide)
      rw [Utf8.valid_append_iff before] at text
      rcases onward.written_inv name with
        ⟨-, value, plain', path'', filled, segment, rfl, rfl, fits'⟩ | ⟨isRest, -, rfl, -, rfl⟩
      · have cut : Utf8.Valid value ∧ Utf8.Valid path'' := by
          cases more : p.after with
          | nil =>
              rw [more] at fits'
              obtain ⟨-, -, rfl⟩ := fits'.nil_inv
              exact ⟨by rwa [List.append_nil] at text, Utf8.valid_nil⟩
          | cons s t' =>
              rw [more] at fits' gap after
              obtain ⟨path', rfl, -⟩ := Fits.symbol_inv (gap s rfl).1 fits'
              exact text.cut after.first
        exact List.forall_mem_cons.2 ⟨⟨inside, cut.1⟩, ih fits' after cut.2⟩
      · refine List.forall_mem_singleton.2 ⟨valid_restName name isRest inside, text⟩

end RequestFlow.Route
