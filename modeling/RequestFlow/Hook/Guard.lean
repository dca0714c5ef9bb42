import RequestFlow.Hook.Identity
import RequestFlow.Run

/-!
# Guards

A guard, also called a pre-hook, runs before anything else of a pipeline. It may change the context
and decides whether the run goes on.
-/

namespace RequestFlow

/-- A guard's verdict. -/
inductive Flow where
  /-- Go on. -/
  | proceed
  /-- Stop here, with the guard's own response or without one. -/
  | halt (response : Option Response)

def Flow.ofBool (proceed : Bool) : Flow := if proceed then .proceed else .halt none

structure Guard where
  type : HookType
  check : Context → Run (Context × Flow)

structure GuardEntry where
  id : HookId
  check : Context → Run (Context × Flow)

namespace Guard

/-- Register a guard under its own identity. -/
def entry (g : Guard) : SetUp GuardEntry := do
  pure ⟨← g.type.identify, g.check⟩

def namedEntry (name : String) (g : Guard) : GuardEntry := ⟨.ofName name, g.check⟩

end Guard

end RequestFlow
