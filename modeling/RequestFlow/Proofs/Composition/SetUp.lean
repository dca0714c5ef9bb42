import Mathlib.Data.List.Forall2
import Mathlib.Logic.Function.Basic
import RequestFlow.Registry

/-!
# Set-ups with their serial numbers

A set-up is a sequence of statements on variables that hold concerns, controllers and registries
(`Bench`). Its declarations write hooks and skips down, which may draw a serial number, and all
other statements copy what stands there already. `Statement.run` executes a statement with the
operations of the library.

Beside the bench, `Statement.transfer` says what a statement does to the lists of hooks at all
places, for entries of any type. It never looks at an entry, so it treats two benches whose entries
are related in the same way (`Statement.transfer_related`). Taken for identities it is what the
execution does (`Statement.row_run`); taken for positions of declarations it says which declaration
an entry descends from.
-/

namespace RequestFlow

/-! ### Rows of hooks -/

/-- The hooks and skips of a concern, a controller or a handler, each kind in order. -/
structure Row (α : Type) where
  guards : List α
  layers : List α
  skips : List α

/-- The three kinds of entries. -/
inductive Row.Kind where
  | guard
  | layer
  | skip
deriving DecidableEq

namespace Row

variable {α : Type}

def single (x : α) : Kind → Row α
  | .guard => ⟨[x], [], []⟩
  | .layer => ⟨[], [x], []⟩
  | .skip => ⟨[], [], [x]⟩

instance : EmptyCollection (Row α) := ⟨⟨[], [], []⟩⟩

instance : Append (Row α) :=
  ⟨fun r r' => ⟨r.guards ++ r'.guards, r.layers ++ r'.layers, r.skips ++ r'.skips⟩⟩

theorem append_mk (g g' l l' s s' : List α) :
    (⟨g, l, s⟩ : Row α) ++ ⟨g', l', s'⟩ = ⟨g ++ g', l ++ l', s ++ s'⟩ := rfl

@[simp] theorem append_empty (r : Row α) : r ++ ∅ = r := by
  cases r
  simp [EmptyCollection.emptyCollection, append_mk]

end Row

/-! The identities that stand in the structures of the library. -/

def Concern.row (c : Concern) : Row HookId :=
  ⟨c.guards.map fun g => g.id, c.layers.map fun l => l.id, []⟩

def Controller.row (c : Controller) : Row HookId :=
  ⟨c.guards.map fun g => g.id, c.layers.map fun l => l.id, c.skips⟩

def Draft.row (d : Draft) : Row HookId :=
  ⟨d.guards.map fun g => g.id, d.layers.map fun l => l.id, d.skips⟩

namespace Registry

def row (r : Registry) (handler : String) : Row HookId :=
  ((r.drafts.get? handler).getD .empty).row

theorem row_of_get? {r : Registry} {handler : String} {d : Draft}
    (held : r.drafts.get? handler = some d) : r.row handler = d.row := by
  rw [row, held, Option.getD_some]

theorem exists_draft_of_mem_skips {r : Registry} {handler : String} {s : HookId}
    (mem : s ∈ (r.row handler).skips) :
    ∃ d, r.drafts.get? handler = some d ∧ s ∈ d.skips := by
  cases held : r.drafts.get? handler with
  | none =>
      rw [row, held] at mem
      cases mem
  | some d =>
      rw [row_of_get? held] at mem
      exact ⟨d, rfl, mem⟩

/-- A change of one handler leaves the others as they are. -/
theorem row_edit (r : Registry) (handler : String) (f : Draft → Draft) (more : Row HookId)
    (adds : ∀ d, (f d).row = d.row ++ more) :
    (r.edit handler f).row = Function.update r.row handler (r.row handler ++ more) := by
  funext other
  by_cases own : other = handler
  · rw [own, Function.update_self, row, get?_edit, if_pos rfl, Option.getD_some, adds]
    rfl
  · rw [Function.update_of_ne own, row, get?_edit, if_neg own]
    rfl

end Registry

/-! ### Declarations -/

/-- A hook as it is written down for registration. -/
inductive Hook where
  /-- A guard under its own identity. -/
  | guard (g : Guard)
  /-- A guard under an explicit name. -/
  | namedGuard (name : String) (g : Guard)
  | layer (w : Wrap)

/-- What draws an identity: the registration of a hook, or the mention of a guard to skip. -/
inductive Declaration where
  | hook (h : Hook)
  /-- Skip a guard by value. -/
  | skip (t : HookType)
  /-- Skip the guards under an explicit name. -/
  | namedSkip (name : String)

/-- The way in which a declaration says which hook it means. -/
inductive Mention where
  | byValue (t : HookType)
  | byName (name : String)

namespace Mention

def isStateful : Mention → Bool
  | .byValue t => t.stateful
  | .byName _ => false

/-- The identity that a mention draws when a serial number is the next one. -/
def identity (serial : UInt64) : Mention → HookId
  | .byValue t =>
    if t.stateful then ⟨.serial serial, HookId.shortName t.path⟩ else .ofType t.id t.path
  | .byName name => .ofName name

/-- The next serial number after a mention. -/
def next (serial : UInt64) (m : Mention) : UInt64 := if m.isStateful then serial + 1 else serial

end Mention

/-- To identify a hook by value is to draw the identity of the mention. -/
theorem HookType.identify_run (t : HookType) (serial : UInt64) :
    t.identify.run serial =
      ((Mention.byValue t).identity serial, (Mention.byValue t).next serial) := by
  rw [identify, Mention.identity, Mention.next, Mention.isStateful]
  cases t.stateful <;> rfl

inductive HookEntry where
  | guard (g : GuardEntry)
  | layer (l : LayerEntry)

/-- What a declaration adds. -/
inductive Addition where
  | hook (e : HookEntry)
  | skip (id : HookId)

def Hook.entry : Hook → SetUp HookEntry
  | .guard g => do pure (.guard (← g.entry))
  | .namedGuard name g => pure (.guard (g.namedEntry name))
  | .layer w => do pure (.layer (← w.entry))

namespace Declaration

def mention : Declaration → Mention
  | .hook (.guard g) => .byValue g.type
  | .hook (.namedGuard name _) => .byName name
  | .hook (.layer w) => .byValue w.type
  | .skip t => .byValue t
  | .namedSkip name => .byName name

/-- Carry a declaration out. -/
def addition : Declaration → SetUp Addition
  | .hook h => do pure (.hook (← h.entry))
  | .skip t => do pure (.skip (← t.identify))
  | .namedSkip name => pure (.skip (.ofName name))

def kind : Declaration → Row.Kind
  | .hook (.guard _) => .guard
  | .hook (.namedGuard _ _) => .guard
  | .hook (.layer _) => .layer
  | .skip _ => .skip
  | .namedSkip _ => .skip

def row {α : Type} (x : α) (d : Declaration) : Row α := .single x d.kind

end Declaration

/-- The next serial number after declarations. -/
def serialAfter (serial : UInt64) (ds : List Declaration) : UInt64 :=
  ds.foldl (fun serial d => d.mention.next serial) serial

/-! What a declaration adds is one entry, with the identity that it draws. -/

def HookEntry.row : HookEntry → Row HookId
  | .guard g => .single g.id .guard
  | .layer l => .single l.id .layer

def Addition.row : Addition → Row HookId
  | .hook e => e.row
  | .skip id => .single id .skip

theorem Hook.entry_run (h : Hook) (serial : UInt64) :
    let d := Declaration.hook h
    (h.entry.run serial).1.row = d.row (d.mention.identity serial) ∧
      (h.entry.run serial).2 = d.mention.next serial := by
  cases h with
  | guard g =>
      have drawn := g.type.identify_run serial
      constructor
      · exact congrArg (fun r : HookId × UInt64 => Row.single r.1 .guard) drawn
      · exact congrArg Prod.snd drawn
  | namedGuard name g => exact ⟨rfl, rfl⟩
  | layer w =>
      have drawn := w.type.identify_run serial
      constructor
      · exact congrArg (fun r : HookId × UInt64 => Row.single r.1 .layer) drawn
      · exact congrArg Prod.snd drawn

theorem Declaration.addition_run (d : Declaration) (serial : UInt64) :
    (d.addition.run serial).1.row = d.row (d.mention.identity serial) ∧
      (d.addition.run serial).2 = d.mention.next serial := by
  cases d with
  | hook h => exact h.entry_run serial
  | skip t =>
      have drawn := t.identify_run serial
      constructor
      · exact congrArg (fun r : HookId × UInt64 => Row.single r.1 .skip) drawn
      · exact congrArg Prod.snd drawn
  | namedSkip name => exact ⟨rfl, rfl⟩

/-! ### Statements -/

/-- The variables of a set-up. -/
structure Bench where
  concerns : Nat → Concern
  controllers : Nat → Controller
  registries : Nat → Registry

/-- A place of the bench at which hooks are listed. -/
inductive Place where
  | concern (c : Nat)
  | controller (c : Nat)
  | handler (registry : Nat) (name : String)
deriving DecidableEq

namespace Bench

/-- Before anything is set up. -/
def empty : Bench := ⟨fun _ => .new "", fun _ => .new "", fun _ => ∅⟩

def row (b : Bench) : Place → Row HookId
  | .concern c => (b.concerns c).row
  | .controller c => (b.controllers c).row
  | .handler r name => (b.registries r).row name

def setConcern (b : Bench) (c : Nat) (concern : Concern) : Bench :=
  { b with concerns := Function.update b.concerns c concern }

def setController (b : Bench) (c : Nat) (controller : Controller) : Bench :=
  { b with controllers := Function.update b.controllers c controller }

def setRegistry (b : Bench) (r : Nat) (registry : Registry) : Bench :=
  { b with registries := Function.update b.registries r registry }

/-- The handlers that the actions of a controller get, in order. -/
def handlers (b : Bench) (c : Nat) : List String :=
  (b.controllers c).actions.map fun a => Registry.actionName (b.controllers c).name a.1

end Bench

inductive Statement where
  | newConcern (c : Nat) (name : String)
  | newController (c : Nat) (name : String)
  | newRegistry (r : Nat)
  | cloneConcern (c source : Nat)
  | cloneController (c source : Nat)
  /-- Add a hook to a concern. -/
  | toConcern (c : Nat) (h : Hook)
  /-- Add a hook or a skip to a controller. -/
  | toController (c : Nat) (d : Declaration)
  /-- Add a hook or a skip to a handler of a registry. -/
  | toHandler (r : Nat) (handler : String) (d : Declaration)
  | addConcern (c concern : Nat)
  | inherit (c parent : Nat)
  | controllerAction (c : Nat) (name : String) (a : Action)
  | handlerAction (r : Nat) (handler : String) (a : Action)
  | mount (r c : Nat)

def Concern.add (c : Concern) : HookEntry → Concern
  | .guard g => c.before g
  | .layer l => c.surround l

def Controller.add (c : Controller) : Addition → Controller
  | .hook (.guard g) => c.before g
  | .hook (.layer l) => c.surround l
  | .skip id => c.skip id

def Registry.add (r : Registry) (handler : String) : Addition → Registry
  | .hook (.guard g) => r.before handler g
  | .hook (.layer l) => r.surround handler l
  | .skip id => r.skip handler id

namespace Statement

/-- Execute a statement. -/
def run (b : Bench) : Statement → SetUp Bench
  | .newConcern c name => pure (b.setConcern c (.new name))
  | .newController c name => pure (b.setController c (.new name))
  | .newRegistry r => pure (b.setRegistry r ∅)
  | .cloneConcern c source => pure (b.setConcern c (b.concerns source))
  | .cloneController c source => pure (b.setController c (b.controllers source))
  | .toConcern c h => do pure (b.setConcern c ((b.concerns c).add (← h.entry)))
  | .toController c d => do pure (b.setController c ((b.controllers c).add (← d.addition)))
  | .toHandler r handler d => do
    pure (b.setRegistry r ((b.registries r).add handler (← d.addition)))
  | .addConcern c concern =>
    pure (b.setController c ((b.controllers c).addConcern (b.concerns concern)))
  | .inherit c parent =>
    pure (b.setController c ((b.controllers c).inherit (b.controllers parent)))
  | .controllerAction c name a => pure (b.setController c ((b.controllers c).action name a))
  | .handlerAction r handler a => pure (b.setRegistry r ((b.registries r).action handler a))
  | .mount r c => pure (b.setRegistry r ((b.registries r).mount (b.controllers c)))

/-- The declaration that a statement makes. -/
def declaration? : Statement → Option Declaration
  | .toConcern _ h => some (.hook h)
  | .toController _ d => some d
  | .toHandler _ _ d => some d
  | _ => none

end Statement

/-! ### What a statement does to the rows -/

section Rows

variable {α β : Type}

/-- Add a row at the end of what stands at a place. -/
def extend (rows : Place → Row α) (place : Place) (more : Row α) : Place → Row α :=
  Function.update rows place (rows place ++ more)

/-- Take everything out of a registry. -/
def clear (rows : Place → Row α) (registry : Nat) : Place → Row α
  | .handler r name => if r = registry then ∅ else rows (.handler r name)
  | place => rows place

/-- Add a row to one handler of a registry after the other. -/
def extendAll (rows : Place → Row α) (registry : Nat) (more : Row α) (handlers : List String) :
    Place → Row α :=
  handlers.foldl (fun rows handler => extend rows (.handler registry handler) more) rows

/-- What a statement makes of the rows at all places. A declaration adds `x`, and everything else
goes from one place to another as it is. -/
def Statement.transfer (b : Bench) (x : α) (rows : Place → Row α) : Statement → Place → Row α
  | .newConcern c _ => Function.update rows (.concern c) ∅
  | .newController c _ => Function.update rows (.controller c) ∅
  | .newRegistry r => clear rows r
  | .cloneConcern c source => Function.update rows (.concern c) (rows (.concern source))
  | .cloneController c source => Function.update rows (.controller c) (rows (.controller source))
  | .toConcern c h => extend rows (.concern c) ((Declaration.hook h).row x)
  | .toController c d => extend rows (.controller c) (d.row x)
  | .toHandler r handler d => extend rows (.handler r handler) (d.row x)
  | .addConcern c concern => extend rows (.controller c) (rows (.concern concern))
  | .inherit c parent =>
    Function.update rows (.controller c) (rows (.controller parent) ++ rows (.controller c))
  | .controllerAction _ _ _ => rows
  | .handlerAction _ _ _ => rows
  | .mount r c => extendAll rows r (rows (.controller c)) (b.handlers c)

/-! A relation between rows that is kept by the empty row and by joining rows is kept by every
statement, since a statement can do nothing else to rows. -/

section Related

variable {R : Row α → Row β → Prop} {rows : Place → Row α} {rows' : Place → Row β}
variable (held : ∀ place, R (rows place) (rows' place))
include held

theorem update_related {more : Row α} {more' : Row β} (own : R more more') (at' place : Place) :
    R (Function.update rows at' more place) (Function.update rows' at' more' place) := by
  by_cases here : place = at'
  · rw [here, Function.update_self, Function.update_self]
    exact own
  · rw [Function.update_of_ne here, Function.update_of_ne here]
    exact held place

theorem clear_related (empty : R ∅ ∅) (registry : Nat) (place : Place) :
    R (clear rows registry place) (clear rows' registry place) := by
  cases place with
  | handler r name =>
      rw [clear, clear]
      split
      next => exact empty
      next => exact held _
  | concern c => exact held (.concern c)
  | controller c => exact held (.controller c)

variable (append : ∀ r r' s s', R r s → R r' s' → R (r ++ r') (s ++ s'))
include append

theorem extend_related {more : Row α} {more' : Row β} (own : R more more') (at' place : Place) :
    R (extend rows at' more place) (extend rows' at' more' place) :=
  update_related held (append _ _ _ _ (held at') own) at' place

theorem extendAll_related {more : Row α} {more' : Row β} (own : R more more') (registry : Nat)
    (handlers : List String) (place : Place) :
    R (extendAll rows registry more handlers place)
      (extendAll rows' registry more' handlers place) := by
  rw [extendAll, extendAll]
  induction handlers generalizing rows rows' with
  | nil => exact held place
  | cons handler rest ih => exact ih (extend_related held append own (.handler registry handler))

theorem Statement.transfer_related (empty : R ∅ ∅) (s : Statement) (b : Bench) {x : α} {y : β}
    (own : ∀ d, s.declaration? = some d → R (d.row x) (d.row y)) (place : Place) :
    R (s.transfer b x rows place) (s.transfer b y rows' place) := by
  cases s with
  | newConcern c name => exact update_related held empty _ place
  | newController c name => exact update_related held empty _ place
  | newRegistry r => exact clear_related held empty r place
  | cloneConcern c source => exact update_related held (held _) _ place
  | cloneController c source => exact update_related held (held _) _ place
  | toConcern c h => exact extend_related held append (own (.hook h) rfl) _ place
  | toController c d => exact extend_related held append (own d rfl) _ place
  | toHandler r handler d => exact extend_related held append (own d rfl) _ place
  | addConcern c concern => exact extend_related held append (held _) _ place
  | inherit c parent => exact update_related held (append _ _ _ _ (held _) (held _)) _ place
  | controllerAction c name a => exact held place
  | handlerAction r handler a => exact held place
  | mount r c => exact extendAll_related held append (held _) r _ place

end Related

end Rows

/-! ### The execution does that to the identities -/

theorem Concern.row_add (c : Concern) (e : HookEntry) : (c.add e).row = c.row ++ e.row := by
  cases e <;>
    simp [Concern.add, Concern.before, Concern.surround, Concern.row, HookEntry.row, Row.single,
      Row.append_mk]

theorem Controller.row_add (c : Controller) (a : Addition) : (c.add a).row = c.row ++ a.row := by
  rcases a with (g | l) | id <;>
    simp [Controller.add, Controller.before, Controller.surround, Controller.skip, Controller.row,
      Addition.row, HookEntry.row, Row.single, Row.append_mk]

theorem Controller.row_addConcern (c : Controller) (concern : Concern) :
    (c.addConcern concern).row = c.row ++ concern.row := by
  simp [Controller.addConcern, Controller.row, Concern.row, Row.append_mk]

theorem Controller.row_inherit (c parent : Controller) :
    (c.inherit parent).row = parent.row ++ c.row := by
  simp [Controller.inherit, Controller.row, Row.append_mk]

namespace Registry

variable (r : Registry)

theorem row_add (handler : String) (a : Addition) :
    (r.add handler a).row = Function.update r.row handler (r.row handler ++ a.row) := by
  rcases a with (g | l) | id <;>
    exact row_edit r handler _ _ fun d => by
      simp [Draft.row, Addition.row, HookEntry.row, Row.single, Row.append_mk]

theorem row_action (handler : String) (a : Action) : (r.action handler a).row = r.row := by
  have edited := r.row_edit handler (fun d => { d with action := some a }) ∅ fun d =>
    (Row.append_empty d.row).symm
  rwa [Row.append_empty, Function.update_eq_self] at edited

theorem row_addController (c : Controller) (a : Action) (d : Draft) :
    (addController c a d).row = d.row ++ c.row := by
  simp [addController, Draft.row, Controller.row, Row.append_mk]

end Registry

namespace Bench

variable (b : Bench)

@[simp] theorem row_setConcern (c : Nat) (concern : Concern) :
    (b.setConcern c concern).row = Function.update b.row (.concern c) concern.row := by
  funext place
  cases place with
  | concern c' => by_cases own : c' = c <;> simp [row, setConcern, own]
  | controller c' => simp [row, setConcern]
  | handler r name => simp [row, setConcern]

@[simp] theorem row_setController (c : Nat) (controller : Controller) :
    (b.setController c controller).row = Function.update b.row (.controller c) controller.row := by
  funext place
  cases place with
  | concern c' => simp [row, setController]
  | controller c' => by_cases own : c' = c <;> simp [row, setController, own]
  | handler r name => simp [row, setController]

theorem row_setRegistry_empty (r : Nat) : (b.setRegistry r ∅).row = clear b.row r := by
  funext place
  cases place with
  | concern c => rfl
  | controller c => rfl
  | handler r' name =>
      by_cases own : r' = r
      · simp only [row, setRegistry, clear, own, Function.update_self, if_pos]
        rfl
      · simp [row, setRegistry, clear, own]

theorem row_setRegistry_self (r : Nat) (registry : Registry)
    (same : registry.row = (b.registries r).row) : (b.setRegistry r registry).row = b.row := by
  funext place
  cases place with
  | concern c => rfl
  | controller c => rfl
  | handler r' name => by_cases own : r' = r <;> simp [row, setRegistry, own, same]

/-- A registry with one handler extended. -/
theorem row_setRegistry_update (r : Nat) (registry : Registry) (handler : String)
    (more : Row HookId)
    (adds : registry.row = Function.update (b.registries r).row handler
      ((b.registries r).row handler ++ more)) :
    (b.setRegistry r registry).row = extend b.row (.handler r handler) more := by
  funext place
  cases place with
  | concern c => simp [row, setRegistry, extend]
  | controller c => simp [row, setRegistry, extend]
  | handler r' name =>
      by_cases own : r' = r
      · subst own
        by_cases here : name = handler <;> simp [row, setRegistry, extend, adds, here]
      · simp [row, setRegistry, extend, own]

/-- Mounting goes through the actions, and each of them extends its own handler. -/
theorem row_setRegistry_mount (r : Nat) (c : Controller) (actions : List (String × Action)) :
    (b.setRegistry r (actions.foldl (fun registry a =>
        registry.edit (Registry.actionName c.name a.1) (Registry.addController c a.2))
      (b.registries r))).row =
      extendAll b.row r c.row (actions.map fun a => Registry.actionName c.name a.1) := by
  induction actions generalizing b with
  | nil => simp [extendAll, row_setRegistry_self]
  | cons a rest ih =>
      have edited := b.row_setRegistry_update r
        ((b.registries r).edit (Registry.actionName c.name a.1) (Registry.addController c a.2))
        _ c.row ((b.registries r).row_edit _ _ c.row (Registry.row_addController c a.2))
      have next := ih (b.setRegistry r
        ((b.registries r).edit (Registry.actionName c.name a.1) (Registry.addController c a.2)))
      rw [edited] at next
      simpa [setRegistry, extendAll] using next

end Bench

namespace Statement

/-- The execution of a statement moves the identities as `transfer` says. -/
theorem row_run (s : Statement) (b : Bench) (serial : UInt64) {x : HookId}
    (own : ∀ d, s.declaration? = some d → d.mention.identity serial = x) :
    ((s.run b).run serial).1.row = s.transfer b x b.row := by
  cases s with
  | newConcern c name => exact b.row_setConcern c (.new name)
  | newController c name => exact b.row_setController c (.new name)
  | newRegistry r => exact b.row_setRegistry_empty r
  | cloneConcern c source => exact b.row_setConcern c (b.concerns source)
  | cloneController c source => exact b.row_setController c (b.controllers source)
  | toConcern c h =>
      have made := (h.entry_run serial).1
      rw [own (.hook h) rfl] at made
      refine (b.row_setConcern c ((b.concerns c).add (h.entry.run serial).1)).trans ?_
      rw [Concern.row_add, made]
      rfl
  | toController c d =>
      have made := (d.addition_run serial).1
      rw [own d rfl] at made
      refine (b.row_setController c ((b.controllers c).add (d.addition.run serial).1)).trans ?_
      rw [Controller.row_add, made]
      rfl
  | toHandler r handler d =>
      have made := (d.addition_run serial).1
      rw [own d rfl] at made
      refine b.row_setRegistry_update r ((b.registries r).add handler (d.addition.run serial).1)
        handler (d.row x) ?_
      rw [Registry.row_add, made]
  | addConcern c concern =>
      refine (b.row_setController c _).trans ?_
      rw [Controller.row_addConcern]
      rfl
  | inherit c parent =>
      refine (b.row_setController c _).trans ?_
      rw [Controller.row_inherit]
      rfl
  | controllerAction c name a =>
      exact (b.row_setController c _).trans (Function.update_eq_self (.controller c) b.row)
  | handlerAction r handler a =>
      exact b.row_setRegistry_self r _ ((b.registries r).row_action handler a)
  | mount r c => exact b.row_setRegistry_mount r (b.controllers c) (b.controllers c).actions

theorem serial_run (s : Statement) (b : Bench) (serial : UInt64) :
    ((s.run b).run serial).2 = serialAfter serial s.declaration?.toList := by
  cases s with
  | toConcern c h => exact (h.entry_run serial).2
  | toController c d => exact (d.addition_run serial).2
  | toHandler r handler d => exact (d.addition_run serial).2
  | _ => rfl

end Statement

end RequestFlow
