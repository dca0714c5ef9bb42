import RequestFlow.Hook.Guard
import RequestFlow.Hook.Layer

/-!
# Concerns and controllers

A `Concern` is a reusable bundle of hooks. A `Controller` groups actions that share their hooks; it
includes concerns and extends other controllers. Composition copies entries, in the order in which
it is written down, and the copies keep their identities. A parent's entries come before everything
of the controller that extends it, wherever that is written; actions are not inherited.
-/

namespace RequestFlow

/-- A named bundle of hooks. -/
structure Concern where
  name : String
  guards : List GuardEntry
  layers : List LayerEntry

namespace Concern

def new (name : String) : Concern := ⟨name, [], []⟩

def before (c : Concern) (g : GuardEntry) : Concern := { c with guards := c.guards ++ [g] }

def surround (c : Concern) (l : LayerEntry) : Concern := { c with layers := c.layers ++ [l] }

end Concern

/-- A group of actions with common hooks. -/
structure Controller where
  name : String
  guards : List GuardEntry
  layers : List LayerEntry
  /-- The identities of the guards that the actions go without. -/
  skips : List HookId
  /-- The names of the included concerns, inherited ones first. -/
  includes : List String
  actions : List (String × Action)

namespace Controller

def new (name : String) : Controller := ⟨name, [], [], [], [], []⟩

/-- Inherit the hooks, skips and concerns of another controller. -/
def inherit (c parent : Controller) : Controller :=
  { c with
    guards := parent.guards ++ c.guards
    layers := parent.layers ++ c.layers
    skips := parent.skips ++ c.skips
    includes := parent.includes ++ c.includes }

def addConcern (c : Controller) (concern : Concern) : Controller :=
  { c with
    guards := c.guards ++ concern.guards
    layers := c.layers ++ concern.layers
    includes := c.includes ++ [concern.name] }

def before (c : Controller) (g : GuardEntry) : Controller := { c with guards := c.guards ++ [g] }

def surround (c : Controller) (l : LayerEntry) : Controller := { c with layers := c.layers ++ [l] }

/-- Go without the guards of an identity. -/
def skip (c : Controller) (id : HookId) : Controller := { c with skips := c.skips ++ [id] }

def action (c : Controller) (name : String) (a : Action) : Controller :=
  { c with actions := c.actions ++ [(name, a)] }

def shown (c : Controller) : String :=
  Quoted.record "Controller"
    [("name", Quoted.quote c.name),
      ("includes", Quoted.list (c.includes.map Quoted.quote)),
      ("actions", Quoted.list (c.actions.map fun a => Quoted.quote a.1))] true

end Controller

end RequestFlow
