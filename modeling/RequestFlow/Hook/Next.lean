import RequestFlow.Hook.Visit

/-!
# The walk through the layers

`Next` is the rest of a pipeline as a layer sees it: a position in the shared list of layers, and
the action after the last of them. `Next.run` runs the layer at that position around the walk from
the next position on. It counts the depth instead of composing the layers; that both are the same is
a theorem about it.
-/

namespace RequestFlow

variable {μ : Type} [Records μ]

/-- Record that the control is back at a layer. -/
def LayerEntry.resume (e : LayerEntry) (back : Layer.Return) : Marked μ Unit :=
  Visit.record (.resume e back)

/-- Run a layer around the chain inside it, and record where the control is. -/
def LayerEntry.visit (e : LayerEntry) (ahead : Ahead) (inner : Context → Marked μ Handled)
    (c : Context) : Marked μ Handled :=
  Visit.enclose (.enter e c) (e.layer.around e.resume ahead inner c) (.leave e)

def Action.visit (a : Action) (handler : String) (c : Context) : Marked μ Handled :=
  Visit.enclose (.call c) (Marked.ofRun (a.call handler c)) .done

/-- In a plain run a layer does nothing but its work. -/
theorem LayerEntry.visit_plain (e : LayerEntry) (ahead : Ahead) (inner : Context → Run Handled)
    (c : Context) : e.visit ahead inner c = e.layer.around (fun _ => pure ()) ahead inner c :=
  Visit.enclose_plain _ _ _

theorem Action.visit_plain (a : Action) (handler : String) (c : Context) :
    (a.visit handler c : Run Handled) = a.call handler c := by
  rw [visit, Visit.enclose_plain, Marked.ofRun_plain]

/-- The rest of a pipeline, as a position in its list of layers. -/
structure Next where
  handler : String
  layers : List LayerEntry
  depth : Nat
  action : Action

namespace Next

def ofLayers (handler : String) (layers : List LayerEntry) (action : Action) : Next :=
  ⟨handler, layers, 0, action⟩

def inner (n : Next) : Next := { n with depth := n.depth + 1 }

def ahead (n : Next) : Ahead :=
  ⟨n.handler, (n.layers.drop (n.depth + 1)).map fun e => e.id.name⟩

/-- Run the layer at this position around the rest, or the action after the last layer. -/
def run (n : Next) (c : Context) : Marked μ Handled :=
  if h : n.depth < n.layers.length then
    n.layers[n.depth].visit n.ahead n.inner.run c
  else n.action.visit n.handler c
termination_by n.layers.length - n.depth
decreasing_by
  simp only [inner]
  omega

end Next

end RequestFlow
