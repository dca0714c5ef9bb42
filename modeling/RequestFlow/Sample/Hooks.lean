import RequestFlow.Response.Render
import RequestFlow.Sample.Script
import RequestFlow.Store

/-!
# Sample hooks and actions

Small hooks and actions as an application writes them: authentication, paging, counting, maintenance
mode, and the two probes of a health check. Each guard and layer logs its name, so that a run shows
in which order they were entered and left.
-/

namespace RequestFlow.Sample

/-- The range in which requests are counted. -/
def counterType : IntType := ⟨true, 64⟩

/-- Let a request pass whose token is right. -/
def authCheck (c : Context) : Run (Context × Flow) := do
  Run.log (.note "auth_check")
  let flow := if c.param? "auth_token" = some "1" then Flow.proceed else
    .halt (some (.bare .unauthorized))
  pure (c, flow)

/-- Take the page from the index, if there is one. -/
def getPageNumber (c : Context) : Run (Context × Flow) := do
  Run.log (.note "get_page_number")
  pure (c.copy "index" "page_index", .proceed)

/-- Log a line and decide without looking at the context. -/
def constant (line : String) (proceed : Bool) (c : Context) : Run (Context × Flow) := do
  Run.log (.note line)
  pure (c, .ofBool proceed)

/-- Count up a number in the context. -/
def counted (c : Context) : Run (Context × Flow) := do
  Run.log (.note "counted")
  let count := (c.paramAs? counterType.read? "count").getD 0
  pure (c.put "count" (.int (count + 1)), .proceed)

def has (c : Context) : Run (Context × Flow) := do
  Run.log (.note "has")
  pure (c, .ofBool (c.contains "has"))

/-- Log the way in and the way out. -/
def passthrough : Layer :=
  .hook fun _ c => do
    Run.log (.note "passthrough>")
    pure (.delegate c fun result => do
      Run.log (.note "<passthrough")
      pure result)

/-- Serve nothing. -/
def maintenance : Layer :=
  .hook fun _ _ => do
    Run.log (.note "maintenance")
    pure (.answer (.ok (.respond (.bare .serviceUnavailable))))

/-- Replace the text of every response and keep its status. -/
def replaceText : Layer :=
  .hook fun _ c => do
    Run.log (.note "rewrite>")
    pure (.delegate c fun
      | .error f => pure (.error f)
      | .ok outcome => do
        Run.log (.note "<rewrite")
        match outcome with
        | .respond r =>
          pure (.ok (.respond ⟨r.status, [("x-wrapped", "1")], .text "hello, wrapped"⟩))
        | .halted party r => pure (.ok (.halted party r)))

/-- Whether the process is alive. -/
def liveness (_ : Context) : Run Response := pure (.text "ok")

/-- Whether requests can be served. -/
def readiness (_ : Context) : Run Response := pure (.text "ready")

def echo (c : Context) : Run Response := Response.ofJson (.json c.toJson)

def greet (key : String) (c : Context) : Run String := pure ((c.param? key).getD "nobody")

def value (key : String) (c : Context) : Run Response :=
  Response.ofJson (.json ((c.get? key).getD .null))

/-- Answer with the record whose id is under a key. -/
def showRecord (s : Store Json) (key : String) (c : Context) : Run (Except Failure Response) :=
  match s.findOrFail ((c.param? key).getD "") with
  | .ok record => do pure (.ok (← Response.ofJson (.json record)))
  | .error f => pure (.error f)

/-- Answer with one page of posts, for a user who is known. -/
def listPosts (users posts : Store Json) (key : String) (c : Context) : Run (Option Response) :=
  match (c.param? key).bind users.find? with
  | none => pure none
  | some _ => do
    let page := (c.param? "page_index").getD "1"
    let found := posts.filter fun post => (post.field "page").same (.string page)
    pure (some (← Response.ofJson (.json (.array found))))

end RequestFlow.Sample
