import RequestFlow.Failure
import RequestFlow.Response.Basic

/-!
# How a run ends

A run that does not fail ends with an `Outcome`: a response, or a halt by some party, which may have
supplied a response of its own. `Handled` adds the failures.

Actions may return any type with a `ToHandled` instance. An option without a value means that the
action has nothing to say, and the run halts in the name of the handler.
-/

namespace RequestFlow

/-- How a run ended, when it did not fail. -/
inductive Outcome where
  /-- The action, or a layer standing in for it, produced a response. -/
  | respond (response : Response)
  /-- The run stopped early, in the name of a hook or of the handler. -/
  | halted (party : String) (response : Option Response)

/-- The result of a run, or of an inner part of one. -/
abbrev Handled := Except Failure Outcome

namespace Outcome

/-- The response to send, if one was produced or supplied. -/
def response? : Outcome → Option Response
  | .respond r => some r
  | .halted _ r => r

def isHalted : Outcome → Bool
  | .respond _ => false
  | .halted _ _ => true

end Outcome

/-- Types that stand for a response. -/
class ToResponse (α : Type) where
  toResponse : α → Response

export ToResponse (toResponse)

instance : ToResponse Response := ⟨id⟩

instance : ToResponse String := ⟨Response.text⟩

instance : ToResponse Status := ⟨Response.bare⟩

/-- Types that an action may return. The first argument is the name of the handler. -/
class ToHandled (α : Type) where
  toHandled : String → α → Handled

export ToHandled (toHandled)

instance : ToHandled Outcome := ⟨fun _ o => .ok o⟩

instance : ToHandled Response := ⟨fun _ r => .ok (.respond r)⟩

instance : ToHandled Status := ⟨fun _ s => .ok (.respond (.bare s))⟩

instance : ToHandled String := ⟨fun _ s => .ok (.respond (.text s))⟩

instance {α : Type} [ToResponse α] : ToHandled (Option α) where
  toHandled handler
    | some a => .ok (.respond (toResponse a))
    | none => .ok (.halted handler none)

instance {α : Type} [ToHandled α] : ToHandled (Except Failure α) where
  toHandled handler
    | .ok a => toHandled handler a
    | .error f => .error f

end RequestFlow
