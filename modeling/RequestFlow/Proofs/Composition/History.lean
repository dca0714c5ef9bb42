import RequestFlow.Registry

/-!
# How an application is written down

Concerns, controllers and registries are built up by chains of calls. A history is such a chain as a
term: the theorems on composition speak about every concern, controller and registry by speaking
about every history. Hooks stand in a history as the entries that their registration makes, so the
identity of an entry may be its type, an explicit name or a serial number, and entries with equal
identities may stand anywhere.
-/

namespace RequestFlow

inductive Concern.History where
  | new (name : String)
  | before (h : History) (g : GuardEntry)
  | surround (h : History) (l : LayerEntry)

def Concern.History.build : Concern.History → Concern
  | .new name => .new name
  | .before h g => h.build.before g
  | .surround h l => h.build.surround l

/-- The chain of calls that builds a controller. The controllers that it inherits from and the
concerns that it includes have chains of their own. -/
inductive Controller.History where
  | new (name : String)
  | inherit (h parent : History)
  | addConcern (h : History) (concern : Concern.History)
  | before (h : History) (g : GuardEntry)
  | surround (h : History) (l : LayerEntry)
  | skip (h : History) (id : HookId)
  | action (h : History) (name : String) (a : Action)

def Controller.History.build : Controller.History → Controller
  | .new name => .new name
  | .inherit h parent => h.build.inherit parent.build
  | .addConcern h concern => h.build.addConcern concern.build
  | .before h g => h.build.before g
  | .surround h l => h.build.surround l
  | .skip h id => h.build.skip id
  | .action h name a => h.build.action name a

namespace Registry

inductive Operation where
  | action (handler : String) (a : Action)
  | before (handler : String) (g : GuardEntry)
  | surround (handler : String) (l : LayerEntry)
  | skip (handler : String) (id : HookId)
  | mount (c : Controller.History)

def Operation.apply (r : Registry) : Operation → Registry
  | .action handler a => r.action handler a
  | .before handler g => r.before handler g
  | .surround handler l => r.surround handler l
  | .skip handler id => r.skip handler id
  | .mount c => r.mount c.build

/-- What calls make of an empty registry. -/
def after (ops : List Operation) : Registry := ops.foldl Operation.apply ∅

end Registry

/-! ### What reaches one handler -/

inductive Contribution where
  | action (a : Action)
  | guard (g : GuardEntry)
  | layer (l : LayerEntry)
  | skip (id : HookId)

namespace Contribution

/-! The contributions of each kind, in order. -/

def actions (cs : List Contribution) : List Action :=
  cs.filterMap fun | .action a => some a | _ => none

def guards (cs : List Contribution) : List GuardEntry :=
  cs.filterMap fun | .guard g => some g | _ => none

def layers (cs : List Contribution) : List LayerEntry :=
  cs.filterMap fun | .layer l => some l | _ => none

def skips (cs : List Contribution) : List HookId :=
  cs.filterMap fun | .skip id => some id | _ => none

end Contribution

/-- What mounting a controller contributes for one of its actions: all hooks and skips of the
controller, and the action. -/
def Controller.contributions (c : Controller) (a : Action) : List Contribution :=
  c.guards.map .guard ++ c.layers.map .layer ++ c.skips.map .skip ++ [.action a]

namespace Registry

/-- The handlers that a call touches, each with what it contributes there. Mounting a controller
touches one handler for each of its actions, in order. -/
def Operation.groups : Operation → List (String × List Contribution)
  | .action handler a => [(handler, [.action a])]
  | .before handler g => [(handler, [.guard g])]
  | .surround handler l => [(handler, [.layer l])]
  | .skip handler id => [(handler, [.skip id])]
  | .mount c => c.build.actions.map fun a =>
      (actionName c.build.name a.1, c.build.contributions a.2)

/-- What groups contribute to one handler. -/
def contributedTo (handler : String) (groups : List (String × List Contribution)) :
    List Contribution :=
  groups.flatMap fun group => if group.1 = handler then group.2 else []

/-- What calls contribute to one handler, in order. A handler without contributions is not touched
by the calls. -/
def contributions (ops : List Operation) (handler : String) : List Contribution :=
  contributedTo handler (ops.flatMap Operation.groups)

end Registry

end RequestFlow
