import RequestFlow.Http.Header
import RequestFlow.Run
import RequestFlow.Text.Utf8

/-!
# Building and rendering responses

A JSON body is turned into JSON when the response is built. If that fails the response becomes a
bare internal error, and a notice says why. Rendering turns the typed body into bytes and the header
list into the fields of a message. The body's own content type comes first; a header that is not
valid HTTP is left out and reported, and the others stay as they are.
-/

namespace RequestFlow

namespace Response

def json (status : Status) (headers : List (String × String)) (body : Payload) : Run Response :=
  match body.json? with
  | .ok v => pure ⟨status, headers, .json v⟩
  | .error e => do
    Run.notice (.bodyNotSerialised e)
    pure (bare .internalServerError)

def ofJson (body : Payload) : Run Response := json .ok [] body

end Response

/-- The content-type value of a body; an empty body has none. -/
def Body.contentType? : Body → Option String
  | .empty => none
  | .text _ => some "text/plain; charset=utf-8"
  | .json _ => some "application/json"
  | .bytes type _ => some type.text

def Body.content : Body → List UInt8
  | .empty => []
  | .text s => Utf8.encode s
  | .json v => Utf8.encode v.text
  | .bytes _ content => content

/-- A response as it goes over the wire. -/
structure Rendered where
  status : Status
  headers : Http.Headers
  body : List UInt8

namespace Response

def isSendable (header : String × String) : Bool :=
  Http.isFieldName header.1 && Http.isFieldValue header.2

/-- The fields that a body brings along. -/
def contentHeaders (body : Body) : Http.Headers :=
  match body.contentType? with
  | some type => Http.Headers.append ∅ "content-type" type
  | none => ∅

def sentHeaders (r : Response) : Http.Headers :=
  (r.headers.filter isSendable).foldl (fun h f => h.append f.1 f.2) (contentHeaders r.body)

/-- The reports on headers that cannot be sent. -/
def dropped (r : Response) : List Notice :=
  (r.headers.filter fun h => !isSendable h).map fun h => .headerDropped h.1

variable {μ : Type}

def render (r : Response) : Marked μ Rendered := do
  r.dropped.forM Run.notice
  pure ⟨r.status, r.sentHeaders, r.body.content⟩

/-- Rendering never panics and only reports the headers that it drops. -/
theorem render_eq (r : Response) :
    (r.render : Marked μ Rendered) =
      ⟨Run.reports r.dropped, .ok ⟨r.status, r.sentHeaders, r.body.content⟩⟩ := by
  rw [render, Run.forM_notice, Marked.bind_ok rfl]
  change (⟨Run.reports r.dropped ++ [], _⟩ : Marked μ Rendered) = _
  rw [List.append_nil]
  rfl

end Response

end RequestFlow
