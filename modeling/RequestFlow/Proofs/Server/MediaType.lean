import Mathlib.Data.List.DropRight
import RequestFlow.Proofs.Server.Confidential

/-!
# Which bodies are read

The body of a request is read if the request declares it to be JSON, and otherwise it is ignored,
whatever it is: it gives no keys to the context and it never refuses the request. That is an
alternative (`Application.ReadsBody`, `Application.IgnoresBody`), and the main statement says what
decides it. The declaration is the media type of the first content-type header, which ends where the
parameters begin, and it counts as JSON if it begins with `application/json`, as written. So
parameters do not matter, longer media types with the same beginning are read as well, and capital
letters keep a body from being read.
-/

namespace RequestFlow

namespace Http

/-- The media type that the value of a content-type header names, as it is written: what stands in
front of the parameters, without the blanks around it. -/
def mediaType (value : List Char) : String :=
  .ofList (Request.trim (.ofList (value.takeWhile (· ≠ ';'))))

/-- Visible ASCII characters, the blank and the tab. -/
def IsVisible (c : Char) : Prop := c = '\t' ∨ 0x20 ≤ c.toNat ∧ c.toNat < 0x7f

/-- A request declares its body to be JSON, as a server takes it. -/
def Request.DeclaresJson (r : Request) : Prop :=
  ∃ value, r.header? "content-type" = some value ∧ (∀ c ∈ value, IsVisible c) ∧
    jsonType.toList <+: (mediaType value).toList

namespace Request

theorem trim_ofList (s : List Char) :
    trim (.ofList s) = (s.dropWhile isBlank).rdropWhile isBlank := by
  rw [trim, String.toList_ofList]
  rfl

/-- Nothing blank stands at the head of a header value. -/
theorem isBlank_head_header? {r : Request} {name : String} {value : List Char}
    (held : r.header? name = some value) {c : Char} (head : value.head? = some c) :
    isBlank c = false := by
  obtain ⟨h, _, rfl⟩ := Option.map_eq_some_iff.1 held
  obtain ⟨blanks, split⟩ : trim h.2 <+: h.2.toList.dropWhile isBlank :=
    List.rdropWhile_prefix (p := isBlank) _
  have opens := List.head?_dropWhile_not isBlank h.2.toList
  rw [← split, List.head?_append, head] at opens
  exact opens

/-- Blanks are dropped behind a text that has none at its end. -/
theorem rdropWhile_isBlank_append {first : List Char} (closes : first.rdropWhile isBlank = first)
    (rest : List Char) :
    (first ++ rest).rdropWhile isBlank = first ++ rest.rdropWhile isBlank := by
  have whole : first.reverse.dropWhile isBlank = first.reverse := by
    simpa [List.rdropWhile] using congrArg List.reverse closes
  rw [List.rdropWhile, List.reverse_append, List.dropWhile_append, whole]
  split
  next blank => simp [List.rdropWhile, List.isEmpty_iff.1 blank]
  next => simp [List.rdropWhile]

/-- What the media type begins with is what the whole value begins with, up to blanks and
parameters. -/
theorem prefix_mediaType_iff {value : List Char}
    (bare : ∀ c, value.head? = some c → isBlank c = false) :
    jsonType.toList <+: (mediaType value).toList ↔ jsonType.toList <+: value := by
  rw [mediaType, String.toList_ofList, trim_ofList]
  constructor
  · intro begins
    have unblank : (value.takeWhile (· ≠ ';')).dropWhile isBlank = value.takeWhile (· ≠ ';') := by
      cases value with
      | nil => rfl
      | cons c rest =>
          rw [List.takeWhile_cons]
          split
          · exact List.dropWhile_cons_of_neg (by simp [bare c rfl])
          · rfl
    rw [unblank] at begins
    exact begins.trans
      ((List.rdropWhile_prefix (p := isBlank) _).trans (List.takeWhile_prefix _))
  · rintro ⟨rest, rfl⟩
    have plain : ∀ c ∈ jsonType.toList, decide (c ≠ ';') = true := by simp [jsonType]
    have opens (s : List Char) :
        (jsonType.toList ++ s).dropWhile isBlank = jsonType.toList ++ s := rfl
    have closes : jsonType.toList.rdropWhile isBlank = jsonType.toList := by decide
    rw [List.takeWhile_append_of_pos plain, opens, rdropWhile_isBlank_append closes]
    exact List.prefix_append _ _

/-- The declaration of a request is read off its media type. -/
theorem isJson_iff (r : Request) : r.isJson = true ↔ r.DeclaresJson := by
  rw [isJson, DeclaresJson]
  cases held : r.header? "content-type" with
  | none => simp
  | some value =>
      simp only [Bool.and_eq_true, List.all_eq_true, List.isPrefixOf_iff_prefix, Bool.or_eq_true,
        decide_eq_true_eq, Option.some.injEq, exists_eq_left', IsVisible,
        prefix_mediaType_iff fun c => isBlank_head_header? held]

end Request

end Http

namespace Handler

/-- A handler that is run does something, and be it that it calls its action. -/
theorem marks_handle_ne_nil (h : Handler) (c : Context) :
    (h.handle c : Marked Visit Handled).marks ≠ [] := by
  obtain ⟨name, guards, layers, action, duplicates⟩ := h
  cases guards with
  | nil =>
      rw [handle, Guard.checkAll_nil, Marked.pure_bind]
      simp only [Next.run_eq_foldr]
      cases layers with
      | nil =>
          change (action.visit name c : Marked Visit Handled).marks ≠ []
          rw [Chain.marks_action]
          exact List.cons_ne_nil _ _
      | cons e rest =>
          change ((Chain.ofLayers name (e :: rest) action).run c : Marked Visit Handled).marks ≠ []
          rw [Chain.run_ofLayers_cons, LayerEntry.marks_visit]
          exact List.cons_ne_nil _ _
  | cons g rest =>
      have first : (g.visit c : Marked Visit _).marks ≠ [] := by
        rw [GuardEntry.visit, Visit.marks_enclose]
        exact List.cons_ne_nil _ _
      have checked : (Guard.checkAll name (g :: rest) c : Marked Visit _).marks ≠ [] :=
        (Marked.marks_prefix_bind (g.visit c) _).ne_nil first
      exact (Marked.marks_prefix_bind (Guard.checkAll name (g :: rest) c) _).ne_nil checked

end Handler

namespace Application

/-- The answer of a handler to a context. A request without a context is refused. -/
def answer (a : Application) (handler : String) : Option Context → Marked Visit Rendered
  | none => Server.bareAnswer .badRequest []
  | some c => a.handlers.handle handler c >>= fun result =>
      Server.settle handler a.haltStatus result >>= Response.render

section Routed

variable {a : Application} {r : Http.Request} {handler : String} {params : List (String × String)}

/-- A request that is routed and whose body can be read is answered for what is decoded. -/
theorem dispatch_eq_answer (routed : a.router.find? r.method r.target.path = some (handler, params))
    (body : List UInt8) :
    a.dispatch { r with body := some body } =
      a.answer handler
        (Server.decode? params r.target.query (if r.isJson then some body else none)) := by
  cases decoded : Server.decode? params r.target.query (if r.isJson then some body else none) with
  | none => exact dispatch_refused (r := { r with body := some body }) routed rfl decoded
  | some c => exact dispatch_decoded (r := { r with body := some body }) routed rfl decoded

/-- To be answered is not to be refused. -/
theorem answer_ne_refusal (a : Application) (handler : String) (c : Context) :
    a.answer handler (some c) ≠ a.answer handler none := by
  intro same
  simp only [answer] at same
  cases held : a.handlers.get? handler with
  | some h =>
      have visited : (h.handle c : Marked Visit Handled).marks <+: [] := by
        have front := Marked.marks_prefix_bind (a.handlers.handle handler c) fun result =>
          Server.settle handler a.haltStatus result >>= (Response.render : _ → Marked Visit _)
        rw [same, Server.marks_bareAnswer] at front
        simpa only [Handlers.handle, held] using front
      exact h.marks_handle_ne_nil c (List.prefix_nil.1 visited)
  | none =>
      have unknown : (a.handlers.handle handler c : Marked Visit Handled) =
          pure (.error (.unknown handler)) := by simp only [Handlers.handle, held]
      rw [unknown, Marked.pure_bind, Server.settle_eq (.failed (.unknown handler)),
        Marked.bind_ok rfl, Response.render_eq] at same
      have status := congrArg (fun r : Marked Visit Rendered => r.ending.map Rendered.status) same
      have codes : Status.internalServerError = Status.badRequest := Except.ok.inj status
      exact absurd codes (by decide)

end Routed

/-- The body of a request is read: whatever it is, the request is answered for what path, query and
body say together, and refused if the body is not what it is declared to be. -/
def ReadsBody (a : Application) (r : Http.Request) (handler : String)
    (params : List (String × String)) : Prop :=
  ∀ body, a.dispatch { r with body := some body } =
    a.answer handler (Server.decode? params r.target.query (some body))

/-- The body of a request is ignored: whatever it is, the request is answered for what path and
query say, and not refused. -/
def IgnoresBody (a : Application) (r : Http.Request) (handler : String)
    (params : List (String × String)) : Prop :=
  ∃ c, Server.decode? params r.target.query none = some c ∧
    ∀ body, a.dispatch { r with body := some body } = a.answer handler (some c)

variable {a : Application} {r : Http.Request} {handler : String} {params : List (String × String)}

theorem readsBody_of_isJson
    (routed : a.router.find? r.method r.target.path = some (handler, params))
    (json : r.isJson = true) : a.ReadsBody r handler params := by
  intro body
  rw [dispatch_eq_answer routed, if_pos json]

theorem ignoresBody_of_not_isJson
    (routed : a.router.find? r.method r.target.path = some (handler, params))
    (other : r.isJson = false) : a.IgnoresBody r handler params := by
  refine ⟨_, rfl, ?_⟩
  intro body
  rw [dispatch_eq_answer routed, if_neg (by simp [other])]
  rfl

/-- No body is both read and ignored: one that is not JSON tells the two apart. -/
theorem ReadsBody.not_ignoresBody (reads : a.ReadsBody r handler params) :
    ¬ a.IgnoresBody r handler params := by
  rintro ⟨c, _, ignored⟩
  have refused : Server.decode? params r.target.query (some [0]) = none := by
    have unwritten : Server.bodyFields? [0] = none := by decide +kernel
    rw [Server.decode?, Option.getD_some, unwritten]
    rfl
  have same := (ignored [0]).symm.trans (reads [0])
  rw [refused] at same
  exact answer_ne_refusal a handler c same

end Application

/-- The body of a routed request is read exactly if the request declares it to be JSON, and ignored
exactly if it does not. So a body is read if and only if the media type of the first content-type
header, in visible ASCII, begins with `application/json` as written, whatever follows. -/
theorem body_read_by_media_type {a : Application} {r : Http.Request} {handler : String}
    {params : List (String × String)}
    (routed : a.router.find? r.method r.target.path = some (handler, params)) :
    (a.ReadsBody r handler params ↔ r.DeclaresJson) ∧
      (a.IgnoresBody r handler params ↔ ¬ r.DeclaresJson) := by
  rw [← r.isJson_iff]
  cases json : r.isJson with
  | true =>
      have reads := Application.readsBody_of_isJson routed json
      exact ⟨iff_of_true reads rfl, iff_of_false reads.not_ignoresBody (by simp)⟩
  | false =>
      have ignores := Application.ignoresBody_of_not_isJson routed json
      exact ⟨iff_of_false (fun reads => reads.not_ignoresBody ignores) nofun,
        iff_of_true ignores nofun⟩

/-- A longer media type with parameters behind it, and one that ends like the one for JSON. -/
theorem body_read_by_media_type_longer :
    let app : Application := .single ⟨"h", [], [], .of fun _ => pure "done", []⟩ none
    let request (type : String) : Http.Request :=
      ⟨"GET", ⟨"/h", none⟩, [("content-type", type)], none⟩
    app.router.find? "GET" "/h" = some ("h", []) ∧
      app.ReadsBody (request "\tapplication/json-seq ; v=1") "h" [] ∧
      app.IgnoresBody (request "text/application/json") "h" [] := by
  intro app request
  have routed : app.router.find? "GET" "/h" = some ("h", []) := by decide +kernel
  have longer : (request "\tapplication/json-seq ; v=1").DeclaresJson :=
    (Http.Request.isJson_iff _).1 (by decide +kernel)
  have other : ¬ (request "text/application/json").DeclaresJson :=
    fun declares => absurd ((Http.Request.isJson_iff _).2 declares) (by decide +kernel)
  exact ⟨routed, (body_read_by_media_type routed).1.2 longer,
    (body_read_by_media_type routed).2.2 other⟩

/-- Media types are not compared as a whole, and not without regard to case: a body of another type
refuses its request, and a body of the type for JSON is not read. -/
theorem media_types_misjudged :
    let app : Application := .single ⟨"h", [], [], .of fun _ => pure "done", []⟩ none
    let request (type : String) : Http.Request :=
      ⟨"GET", ⟨"/h", none⟩, [("content-type", type)], some (Utf8.encode "x")⟩
    let judged (type : String) : String := Http.foldCase (Http.mediaType type.toList)
    (judged "application/jsonp" ≠ Http.Request.jsonType ∧
      app.ReadsBody (request "application/jsonp") "h" [] ∧
      (app.dispatch (request "application/jsonp") : Marked Visit Rendered) =
        Server.bareAnswer .badRequest []) ∧
    (judged "Application/JSON" = Http.Request.jsonType ∧
      app.IgnoresBody (request "Application/JSON") "h" [] ∧
      ¬ app.ReadsBody (request "Application/JSON") "h" []) := by
  intro app request judged
  have routed : app.router.find? "GET" "/h" = some ("h", []) := by decide +kernel
  have reads : app.ReadsBody (request "application/jsonp") "h" [] :=
    Application.readsBody_of_isJson routed (by decide +kernel)
  have ignores : app.IgnoresBody (request "Application/JSON") "h" [] :=
    Application.ignoresBody_of_not_isJson routed (by decide +kernel)
  refine ⟨⟨by decide +kernel, reads, ?_⟩, by decide +kernel, ignores,
    fun reads => reads.not_ignoresBody ignores⟩
  have refused : Server.decode? [] none (some (Utf8.encode "x")) = none := by decide +kernel
  exact (reads (Utf8.encode "x")).trans (congrArg _ refused)

end RequestFlow
