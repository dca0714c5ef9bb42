import RequestFlow.Controller
import RequestFlow.Handler

/-!
# The registry and the handler table

A `Registry` collects what is registered for each handler name: guards, layers, skips and an action.
Contributions to one name add up, and the last action stays. `Registry.build` resolves them all into
`Handlers`. A skip removes every guard of its identity, wherever the skip stands; it must be a guard
that the handler has, and cannot name a hook with state. Hooks that run more than once are kept and
reported.
-/

namespace RequestFlow

inductive BuildError where
  /-- A handler has hooks but no action. -/
  | missingAction (handler : String)
  /-- A handler skips a guard that it does not have. -/
  | unknownSkip (handler hook : String)
  /-- A handler skips a mention of a hook with state, which is no registered hook. -/
  | statefulSkip (handler hook : String)
deriving DecidableEq, Repr

def BuildError.message : BuildError → String
  | .missingAction handler => "handler `" ++ handler ++ "` has hooks but no action"
  | .unknownSkip handler hook =>
    "handler `" ++ handler ++ "` skips `" ++ hook ++ "`, which it does not have"
  | .statefulSkip handler hook =>
    "handler `" ++ handler ++ "` skips stateful closure `" ++ hook ++
      "`; register it with a name and skip by name"

/-- What is registered for one handler. -/
structure Draft where
  guards : List GuardEntry
  layers : List LayerEntry
  skips : List HookId
  action : Option Action

namespace Draft

def empty : Draft := ⟨[], [], [], none⟩

instance : Inhabited Draft := ⟨empty⟩

def hasGuard (d : Draft) (id : HookId) : Bool := d.guards.any fun g => g.id.same id

def skipsGuard (d : Draft) (id : HookId) : Bool := d.skips.any fun s => s.same id

/-- The first skip that cannot be honoured. -/
def badSkip? (d : Draft) (handler : String) : Option BuildError :=
  d.skips.findSome? fun s =>
    if s.isStateful then some (.statefulSkip handler s.name)
    else if d.hasGuard s then none
    else some (.unknownSkip handler s.name)

/-- The guards that are left after the skips. -/
def keptGuards (d : Draft) : List GuardEntry := d.guards.filter fun g => !d.skipsGuard g.id

end Draft

/-- Count one more mention of an identity; a new one is put at the end. -/
def countMention (counts : List (HookId × Nat)) (id : HookId) : List (HookId × Nat) :=
  match counts with
  | [] => [(id, 1)]
  | (a, n) :: rest => if a.same id then (a, n + 1) :: rest else (a, n) :: countMention rest id

/-- The identities that occur more than once, with their counts, by first occurrence. -/
def repeated (ids : List HookId) : List (HookId × Nat) :=
  (ids.foldl countMention []).filter fun e => 1 < e.2

namespace Draft

def resolve (name : String) (d : Draft) : Except BuildError Handler :=
  match d.action with
  | none => .error (.missingAction name)
  | some action =>
    match d.badSkip? name with
    | some e => .error e
    | none =>
      .ok
        { name := name
          guards := d.keptGuards
          layers := d.layers
          action := action
          duplicates := repeated (d.keptGuards.map fun g => g.id) ++
            repeated (d.layers.map fun l => l.id) }

end Draft

/-- Handlers and hooks as they are collected when an application is set up. -/
structure Registry where
  drafts : SortedMap Draft

abbrev Handlers := SortedMap Handler

namespace Registry

def empty : Registry := ⟨∅⟩

instance : EmptyCollection Registry := ⟨empty⟩

def edit (r : Registry) (handler : String) (f : Draft → Draft) : Registry :=
  ⟨r.drafts.alter handler .empty f⟩

def action (r : Registry) (handler : String) (a : Action) : Registry :=
  r.edit handler fun d => { d with action := some a }

def before (r : Registry) (handler : String) (g : GuardEntry) : Registry :=
  r.edit handler fun d => { d with guards := d.guards ++ [g] }

/-- Add a layer to a handler, inside those it has. -/
def surround (r : Registry) (handler : String) (l : LayerEntry) : Registry :=
  r.edit handler fun d => { d with layers := d.layers ++ [l] }

/-- Let a handler go without the guards of an identity. -/
def skip (r : Registry) (handler : String) (id : HookId) : Registry :=
  r.edit handler fun d => { d with skips := d.skips ++ [id] }

def actionName (controller action : String) : String := controller ++ "#" ++ action

/-- Add the hooks of a controller to a draft and set its action. -/
def addController (c : Controller) (a : Action) (d : Draft) : Draft :=
  { guards := d.guards ++ c.guards
    layers := d.layers ++ c.layers
    skips := d.skips ++ c.skips
    action := some a }

/-- Register every action of a controller, each with all hooks of the controller. -/
def mount (r : Registry) (c : Controller) : Registry :=
  c.actions.foldl (fun r a => r.edit (actionName c.name a.1) (addController c a.2)) r

/-- Resolve all drafts, in the order of the handlers' names. -/
def build (r : Registry) : Except BuildError Handlers := r.drafts.traverse Draft.resolve

@[simp] theorem get?_edit (r : Registry) (handler handler' : String) (f : Draft → Draft) :
    (r.edit handler f).drafts.get? handler' =
      if handler' = handler then some (f ((r.drafts.get? handler).getD .empty))
      else r.drafts.get? handler' :=
  SortedMap.get?_alter r.drafts handler handler' .empty f

end Registry

namespace Handlers

/-- The reports on hooks that run more than once. -/
def notices (hs : Handlers) : List Notice :=
  hs.toList.flatMap fun e => e.2.duplicates.map fun d => .hookRepeated e.2.name d.1.name d.2

def handle {μ : Type} [Records μ] (hs : Handlers) (name : String) (c : Context) :
    Marked μ Handled :=
  match hs.get? name with
  | some h => h.handle c
  | none => pure (.error (.unknown name))

def names (hs : Handlers) : List String := hs.keys

end Handlers

end RequestFlow
