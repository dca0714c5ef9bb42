import RequestFlow.Proofs.Route.Alone
import RequestFlow.Proofs.Route.Matching
import RequestFlow.Proofs.Route.StaticPaths

/-!
# Trees of registered routes

A tree to which routes were added one after the other holds the template of every route in normal
form, and nothing else (`Registered.add`, `Registered.addAll`). The empty template is apart: it adds
no label, so the tree still looks empty afterwards, and what is added next may take over its handler
(`Overtaken`).
-/

namespace RequestFlow

structure Registration where
  method : String
  template : String
  handler : String

open Route

namespace Registration

def symbols (x : Registration) : Template := unescape (Utf8.encode x.template)

/-- In normal form the template is `t`, and its end is `e`. -/
def Ends (x : Registration) (t : Template) (e : Route.Entry) : Prop :=
  normalise 0 x.symbols = .ok (t, e.names) ∧ e.handler = x.handler

theorem marked (x : Registration) : ∀ s ∈ x.symbols, s.Marked := marked_unescape _

theorem Ends.normalised {x : Registration} {t : Template} {e : Route.Entry} (ends : x.Ends t e) :
    Normalised 0 x.symbols t e.names :=
  .of_normalise (by decide) ends.1

theorem unescape_eq_nil {b : Bytes} (ends : unescape b = []) : b = [] := by
  cases b with
  | nil => rfl
  | cons b rest =>
      cases rest with
      | nil => cases ends
      | cons c rest =>
          rw [unescape] at ends
          split at ends <;> cases ends

theorem template_eq_empty {x : Registration} (ends : x.symbols = []) : x.template = "" :=
  Utf8.encode_inj (unescape_eq_nil ends)

theorem Ends.of_nil {x : Registration} {e : Route.Entry} (ends : x.Ends [] e) : x.template = "" :=
  template_eq_empty ends.normalised.of_nil.1

/-- The empty template is its own normal form. -/
theorem Ends.of_empty {x : Registration} (empty : x.template = "") : x.Ends [] ⟨x.handler, []⟩ := by
  have ends : x.symbols = [] := by rw [symbols, empty]; rfl
  refine ⟨?_, rfl⟩
  rw [ends, normalise]
  rfl

end Registration

/-- The handler of an empty template ends up behind the text in front of a parameter: as long as
only empty templates were added, the last of them is taken over by the next template. -/
inductive Overtaken : List Registration → Template → Route.Entry → Prop
  | mk {front back : List Registration} {last x : Registration} {p : Param}
      (blank : ∀ y ∈ front, y.template = "") (empty : last.template = "")
      (first : firstParam x.symbols = .ok (some p)) (text : p.before ≠ []) :
      Overtaken (front ++ last :: x :: back) p.before ⟨last.handler, []⟩

theorem Overtaken.cases {given : List Registration} {t : Template} {e : Route.Entry}
    (overtaken : Overtaken given t e) : Literal t ∧ e = ⟨e.handler, []⟩ ∧
      ∃ x ∈ given, x.handler = e.handler := by
  obtain @⟨_, _, last, _, _, _, _, first, _⟩ := overtaken
  exact ⟨(firstParam_eq_some_iff.1 first).1, rfl, last, by simp, rfl⟩

theorem Overtaken.append {given more : List Registration} {t : Template} {e : Route.Entry}
    (overtaken : Overtaken given t e) : Overtaken (given ++ more) t e := by
  obtain ⟨blank, empty, first, text⟩ := overtaken
  rw [List.append_assoc]
  exact .mk blank empty first text

namespace Route.Tree

/-- A node without label and without anything below it. -/
def Bare (n : Tree) : Prop := n.label = [] ∧ n.branches = [] ∧ n.wild = none

theorem Bare.eq_nil {n : Tree} {t : Template} {e : Route.Entry} (bare : n.Bare)
    (holds : n.Holds t e) : t = [] := by
  obtain ⟨label, branches, wild⟩ := bare
  cases holds with
  | entry => exact label
  | branch mem => rw [branches] at mem; cases mem
  | wild is => rw [wild] at is; cases is

theorem add_ok {n n' : Tree} {template handler : String} (ok : n.add template handler = .ok n') :
    ∃ t names, normalise 0 (unescape (Utf8.encode template)) = .ok (t, names) ∧
      ((n.Bare ∧ graft n.heavier ⟨handler, names⟩ t = .ok n') ∨
        (¬n.Bare ∧ n.Grows ⟨handler, names⟩ t n')) := by
  rw [add] at ok
  split at ok
  · cases ok
  next t names normal =>
    refine ⟨t, names, normal, ?_⟩
    split at ok
    next bare =>
      refine .inl ⟨?_, ok⟩
      simpa [Bare, and_assoc] using bare
    next grown =>
      refine .inr ⟨?_, grows_of_addBelow ok⟩
      simpa [Bare, and_assoc] using grown

end Route.Tree

open Route.Tree

/-- What is true of a tree to which the routes of `given` were added. -/
structure Registered (given : List Registration) (n : Tree) : Prop where
  regular : n.Regular
  sound : (∀ x ∈ given, Apart x.symbols) → n.Sound
  origin : ∀ {t e}, n.Holds t e → (∃ x ∈ given, x.Ends t e) ∨ Overtaken given t e
  held : ∀ x ∈ given, x.template ≠ "" → ∃ t e, x.Ends t e ∧ n.Holds t e
  blank : (∀ x ∈ given, x.template = "") →
    ∃ weight, n = ⟨[], .static, weight, [], none, given.getLast?.map fun x => ⟨x.handler, []⟩⟩

namespace Registered

variable {given : List Registration} {n n' : Tree} {x : Registration}
variable {t : Template} {e : Route.Entry}

theorem empty : Registered [] Tree.empty where
  regular := .ofText .nil
  sound _ := .ofText .nil
  origin := by
    intro t e holds
    cases holds with
    | entry ends => cases ends
    | branch mem => cases mem
    | wild is => cases is
  held := nofun
  blank _ := ⟨0, rfl⟩

/-- A tree that looks empty was given empty templates only. -/
theorem blank_of_bare (registered : Registered given n) (bare : n.Bare) :
    ∀ x ∈ given, x.template = "" := by
  intro x mem
  by_cases empty : x.template = ""
  · exact empty
  · obtain ⟨t, e, ends, holds⟩ := registered.held x mem empty
    rw [bare.eq_nil holds] at ends
    exact ends.of_nil

/-- A template that leads through labels of the tree. -/
theorem grow (registered : Registered given n) (ends : x.Ends t e) (full : ¬n.Bare)
    (grows : n.Grows e t n') : Registered (given ++ [x]) n' where
  regular := grows.regular (ends.normalised.led x.marked) registered.regular
  sound apart := by
    have static := registered.regular.kind_eq
    have formed := ends.normalised.formed x.marked (apart x (by simp))
    refine grows.sound formed ?_ ?_ (registered.sound fun y mem => apart y (by simp [mem]))
    · simp [static]
    · simp [static]
  origin := by
    intro u e' holds
    rcases grows.holds_iff.1 holds with old | ⟨rfl, rfl⟩
    · rcases registered.origin old with ⟨y, mem, own⟩ | overtaken
      · exact .inl ⟨y, by simp [mem], own⟩
      · exact .inr overtaken.append
    · exact .inl ⟨x, by simp, ends⟩
  held y mem nonempty := by
    rcases List.mem_append.1 mem with mem | mem
    · obtain ⟨u, e', own, holds⟩ := registered.held y mem nonempty
      exact ⟨u, e', own, grows.holds_iff.2 (.inl holds)⟩
    · obtain rfl := List.mem_singleton.1 mem
      exact ⟨t, e, ends, grows.holds_iff.2 (.inr ⟨rfl, rfl⟩)⟩
  blank all := by
    obtain ⟨weight, rfl⟩ := registered.blank fun y mem => all y (by simp [mem])
    exact absurd ⟨rfl, rfl, rfl⟩ full

/-- Text in a tree that looks empty. -/
theorem text (all : ∀ y ∈ given, y.template = "") (ends : x.Ends t e) (literal : Literal t)
    (weight : Nat) : Registered (given ++ [x]) ⟨t, .static, weight, [], none, some e⟩ := by
  have text : IsText t := (ends.normalised.led x.marked).isText literal
  have holds {u e'} : Holds ⟨t, .static, weight, [], none, some e⟩ u e' ↔ u = t ++ [] ∧ e' = e :=
    holds_of_below fun v => by simp [Below, eq_comm]
  rw [List.append_nil] at holds
  constructor
  · exact .ofText text
  · exact fun _ => .ofText text
  · intro u e' held
    obtain ⟨rfl, rfl⟩ := holds.1 held
    exact .inl ⟨x, by simp, ends⟩
  · intro y mem nonempty
    rcases List.mem_append.1 mem with mem | mem
    · exact absurd (all y mem) nonempty
    · obtain rfl := List.mem_singleton.1 mem
      exact ⟨t, e, ends, holds.2 ⟨rfl, rfl⟩⟩
  · intro all
    have empty := Registration.Ends.of_empty (all x (by simp))
    have same : t = [] ∧ e = ⟨x.handler, []⟩ := by
      have normal := ends.1.symm.trans empty.1
      cases e
      cases normal
      exact ⟨rfl, congrArg (Route.Entry.mk · []) ends.2⟩
    obtain ⟨rfl, rfl⟩ := same
    exact ⟨weight, by simp⟩

/-- A parameter in a tree that looks empty: the entry of the node stays where it is. -/
theorem param (all : ∀ y ∈ given, y.template = "") (ends : x.Ends t e) {p : Param} {w : Tree}
    (first : firstParam t = .ok (some p)) (node : Wild e p w) (weight : Nat) :
    Registered (given ++ [x]) ⟨p.before, .static, weight, [], some w,
      given.getLast?.map fun y => ⟨y.handler, []⟩⟩ := by
  obtain ⟨-, -, whole⟩ := firstParam_eq_some_iff.1 first
  rw [List.append_assoc] at whole
  have text : IsText p.before := (ends.normalised.led x.marked).before first
  constructor
  · exact .ofParam text node.head?_label
  · intro apart
    have formed := ends.normalised.formed x.marked (apart x (by simp))
    obtain ⟨sound, above⟩ := sound_wild formed first node
    exact .ofParam text sound above
  · intro u e' holds
    cases holds with
    | entry stays =>
        obtain ⟨last, is, rfl⟩ := Option.map_eq_some_iff.1 stays
        obtain ⟨front, rfl⟩ := List.getLast?_eq_some_iff.1 is
        have empty := all last (by simp)
        by_cases front' : p.before = []
        · rw [front']
          exact .inl ⟨last, by simp, .of_empty empty⟩
        · obtain ⟨q, own, before, -⟩ := ends.normalised.first first
          rw [← before] at front' ⊢
          rw [List.append_assoc]
          exact .inr (.mk (fun y mem => all y (by simp [mem])) empty own front')
    | branch mem => cases mem
    | wild is below =>
        cases is
        obtain ⟨rfl, rfl⟩ := node.holds_iff.1 below
        exact .inl ⟨x, by simp, whole ▸ ends⟩
  · intro y mem nonempty
    rcases List.mem_append.1 mem with mem | mem
    · exact absurd (all y mem) nonempty
    · obtain rfl := List.mem_singleton.1 mem
      refine ⟨t, e, ends, ?_⟩
      rw [whole]
      exact .wild rfl (node.holds_iff.2 ⟨rfl, rfl⟩)
  · intro all
    have empty := Registration.Ends.of_empty (all x (by simp))
    have normal := ends.1.symm.trans empty.1
    injection normal with normal
    injection normal with bare
    rw [bare] at first
    cases first

theorem add (registered : Registered given n) (ok : n.add x.template x.handler = .ok n') :
    Registered (given ++ [x]) n' := by
  obtain ⟨t, names, normal, grown⟩ := add_ok ok
  have ends : x.Ends t ⟨x.handler, names⟩ := ⟨normal, rfl⟩
  rcases grown with ⟨bare, grafted⟩ | ⟨full, grows⟩
  · have all := registered.blank_of_bare bare
    obtain ⟨weight, rfl⟩ := registered.blank all
    rcases graft_ok grafted with ⟨literal, rfl⟩ | ⟨p, w, first, node, rfl⟩
    · exact text all ends (firstParam_eq_none_iff.1 literal) _
    · have label : (if p.before.isEmpty then [] else p.before) = p.before := by
        cases p.before <;> rfl
      have added := param all ends first node (weight + 1)
      rw [← label] at added
      exact added
  · exact registered.grow ends full grows

end Registered

def Route.Tree.addAll (n : Tree) (given : List Registration) : Except Route.Error Tree :=
  given.foldlM (fun n x => n.add x.template x.handler) n

/-- What a whole run of additions leaves behind. -/
theorem Registered.addAll {given more : List Registration} {n n' : Tree}
    (registered : Registered given n) (ok : n.addAll more = .ok n') :
    Registered (given ++ more) n' := by
  induction more generalizing given n with
  | nil =>
      cases ok
      rwa [List.append_nil]
  | cons x more ih =>
      rw [Tree.addAll, List.foldlM_cons] at ok
      cases added : n.add x.template x.handler with
      | error e => rw [added] at ok; cases ok
      | ok b =>
          rw [added] at ok
          have whole := ih (registered.add added) ok
          rwa [List.append_assoc] at whole

end RequestFlow
