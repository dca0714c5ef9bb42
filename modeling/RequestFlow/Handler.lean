import RequestFlow.Hook.Next

/-!
# Handlers

A `Handler` is a named pipeline that is ready to run: guards, layers and an action. A run checks the
guards in the order of their registration on one context. The first that halts ends the run, which
reports it and names it in the outcome. If none halts, the layers run around the action, the first
one outermost.
-/

namespace RequestFlow

variable {μ : Type} [Records μ]

/-- Check a guard, and record where the control is. -/
def GuardEntry.visit (g : GuardEntry) (c : Context) : Marked μ (Context × Flow) :=
  Visit.enclose (.check g c) (Marked.ofRun (g.check c)) fun verdict => .decide g verdict.2

/-- Check guards one after the other. The result is the context that the last one left, or the
outcome of the first that halted. -/
def Guard.checkAll (handler : String) : List GuardEntry → Context → Marked μ (Context ⊕ Outcome)
  | [], c => pure (.inl c)
  | g :: rest, c => do
    let (c, flow) ← g.visit c
    match flow with
    | .proceed => checkAll handler rest c
    | .halt response =>
      Run.notice (.guardHalted handler g.id.name response.isSome)
      pure (.inr (.halted g.id.name response))

@[simp] theorem Guard.checkAll_nil (handler : String) (c : Context) :
    (Guard.checkAll handler [] c : Marked μ (Context ⊕ Outcome)) = pure (.inl c) := rfl

/-- A resolved pipeline. -/
structure Handler where
  name : String
  guards : List GuardEntry
  layers : List LayerEntry
  action : Action
  /-- The hooks that run more than once, and how often each does. -/
  duplicates : List (HookId × Nat)

namespace Handler

/-- Run one request through the pipeline. -/
def handle (h : Handler) (c : Context) : Marked μ Handled := do
  match ← Guard.checkAll h.name h.guards c with
  | .inl c => (Next.ofLayers h.name h.layers h.action).run c
  | .inr outcome => pure (.ok outcome)

def guardNames (h : Handler) : List String := h.guards.map fun g => g.id.name

/-- The names of the layers, the outermost first. -/
def layerNames (h : Handler) : List String := h.layers.map fun l => l.id.name

def shown (h : Handler) : String :=
  Quoted.record "Handler"
    [("name", Quoted.quote h.name),
      ("pre", Quoted.list (h.guardNames.map Quoted.quote)),
      ("wraps", Quoted.list (h.layerNames.map Quoted.quote))] true

end Handler

end RequestFlow
