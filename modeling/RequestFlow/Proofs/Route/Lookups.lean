import RequestFlow.Proofs.Route.Registered
import RequestFlow.Router

/-!
# What look-ups answer

A router is the trees of its methods: what is added for one method reaches the tree of that method
only (`Router.tree_onAll`). So look-ups depend on the routes of one method, and what is known of the
tree of these routes is known of their answers: an answer is explained by a template that the path
fits (`resolves_of_find?`), and text is answered by its own route (`find?_of_literal`).

Two answers are not as the templates have it. The handler of an empty template can end up under the
text in front of a parameter. And a template that is refused alone can be accepted behind one with
escaped braces; then a value may reach over a slash.
-/

namespace RequestFlow

open Route

/-- The routes of a method, in the order in which they are given. -/
def routesFor (routes : List Registration) (method : String) : List Registration :=
  routes.filter fun x => x.method = method

/-- The path fits the template with the values of `params`, which are in the order of the template
and under its names. -/
def Registration.Resolves (x : Registration) (path : String) (params : List (String × String)) :
    Prop :=
  ∃ plain rest, Fits x.symbols plain rest (Utf8.encode path) ∧
    params.map (fun p => (Utf8.encode p.1, Utf8.encode p.2)) = plain ++ rest.toList

namespace Router

variable {r r' : Router} {routes : List Registration} {method path handler : String}

def onAll (r : Router) (routes : List Registration) : Except RouteError Router :=
  routes.foldlM (fun r x => r.on x.method x.template x.handler) r

def ofRoutes (routes : List Registration) : Except RouteError Router := onAll ∅ routes

/-- The router behind an answer is the one that accepts the routes. -/
theorem exists_of_answer {answer : String × List (String × String)}
    (answers : (ofRoutes routes).toOption.bind (·.find? method path) = some answer) :
    ∃ r, ofRoutes routes = .ok r ∧ r.find? method path = some answer := by
  cases accepted : ofRoutes routes with
  | error e =>
      rw [accepted] at answers
      cases answers
  | ok r =>
      rw [accepted] at answers
      exact ⟨r, rfl, answers⟩

def tree (r : Router) (method : String) : Tree := (r.trees.get? method).getD .empty

theorem find?_eq (r : Router) (method path : String) :
    r.find? method path =
      ((r.tree method).find? (Utf8.encode path)).map fun m => (m.entry.handler, params m) := by
  rw [find?, tree]
  cases r.trees.get? method with
  | none =>
      cases Utf8.encode path <;> rfl
  | some n =>
      cases found : n.find? (Utf8.encode path) <;> simp [found]

theorem on_ok {template : String} (ok : r.on method template handler = .ok r') :
    ∃ n, (r.tree method).add template handler = .ok n ∧
      r' = ⟨r.trees.insert method n, r.handlers.insert handler ()⟩ := by
  rw [on] at ok
  split at ok
  next n added => exact ⟨n, added, (Except.ok.inj ok).symm⟩
  · cases ok

theorem onAll_cons {x : Registration} (ok : r.onAll (x :: routes) = .ok r') :
    ∃ n, (r.tree x.method).add x.template x.handler = .ok n ∧
      onAll ⟨r.trees.insert x.method n, r.handlers.insert x.handler ()⟩ routes = .ok r' := by
  rw [onAll, List.foldlM_cons] at ok
  cases added : r.on x.method x.template x.handler with
  | error e =>
      rw [added] at ok
      cases ok
  | ok r₁ =>
      rw [added] at ok
      obtain ⟨n, grown, rfl⟩ := on_ok added
      exact ⟨n, grown, ok⟩

/-- Routes reach the tree of their method, and no other tree. -/
theorem tree_onAll (ok : r.onAll routes = .ok r') :
    (r.tree method).addAll (routesFor routes method) = .ok (r'.tree method) := by
  induction routes generalizing r with
  | nil =>
      cases ok
      rfl
  | cons x routes ih =>
      obtain ⟨n, grown, onward⟩ := onAll_cons ok
      have rest := ih onward
      rw [tree, SortedMap.get?_insert] at rest
      by_cases own : method = x.method
      · subst own
        rw [if_pos rfl, Option.getD_some] at rest
        rw [routesFor, List.filter_cons_of_pos (by simp), Tree.addAll, List.foldlM_cons, grown]
        exact rest
      · rw [if_neg own] at rest
        rw [routesFor, List.filter_cons_of_neg (by simpa using Ne.symm own)]
        exact rest

theorem mem_handlerNames_onAll (ok : r.onAll routes = .ok r') :
    handler ∈ r'.handlerNames ↔ handler ∈ r.handlerNames ∨ ∃ x ∈ routes, x.handler = handler := by
  induction routes generalizing r with
  | nil =>
      cases ok
      simp
  | cons x routes ih =>
      obtain ⟨n, -, onward⟩ := onAll_cons ok
      rw [ih onward]
      simp only [handlerNames, ← SortedMap.contains_iff_mem_keys, SortedMap.contains,
        SortedMap.get?_insert]
      by_cases own : handler = x.handler
      · simp [own]
      · simp [own, Ne.symm own]

variable (accepted : ofRoutes routes = .ok r)
include accepted

/-- The tree of a method is that of its routes. -/
theorem tree_ofRoutes : Tree.empty.addAll (routesFor routes method) = .ok (r.tree method) :=
  tree_onAll accepted

theorem registered : Registered (routesFor routes method) (r.tree method) :=
  Registered.empty.addAll (tree_ofRoutes accepted)

theorem mem_handlerNames : handler ∈ r.handlerNames ↔ ∃ x ∈ routes, x.handler = handler := by
  rw [mem_handlerNames_onAll accepted]
  exact or_iff_right nofun

end Router

/-! ### Answers -/

open Router

section Answers

variable {routes : List Registration} {r : Router} {x : Registration} {method path : String}
variable {handler : String} {params : List (String × String)}

/-- A router that accepts a route alone finds its parameters apart. -/
theorem apart_of_accepted (alone : ofRoutes [x] = .ok r) : Apart x.symbols := by
  obtain ⟨n, added, -⟩ := onAll_cons alone
  obtain ⟨t, names, normal, ⟨-, grafted⟩ | ⟨full, -⟩⟩ := Tree.add_ok added
  · exact (Normalised.of_normalise (by decide) normal).apart (marked_unescape _)
      fun p first => Tree.wild_of_graft grafted first
  · exact absurd ⟨rfl, rfl, rfl⟩ full

/-- The handler that is answered belongs to a route of the method. -/
theorem handler_of_find? (accepted : ofRoutes routes = .ok r)
    (found : r.find? method path = some (handler, params)) :
    ∃ x ∈ routesFor routes method, x.handler = handler := by
  rw [find?_eq] at found
  obtain ⟨m, here, same⟩ := Option.map_eq_some_iff.1 found
  obtain ⟨rfl, -⟩ := Prod.mk.inj same
  obtain ⟨t, holds⟩ := (Tree.holds_of_find? _).1 here
  rcases (registered accepted).origin holds with ⟨x, mem, -, own⟩ | overtaken
  · exact ⟨x, mem, own.symm⟩
  · exact overtaken.cases.2.2

theorem encode_text {b : Bytes} (valid : Utf8.Valid b) : Utf8.encode (Route.text b) = b := by
  obtain ⟨s, rfl⟩ := valid
  rw [Route.text, Utf8.decode?_encode, Option.getD_some]

/-- Where the templates keep their parameters apart, an answer is explained by one of them, or it is
that of an empty template which was overtaken. -/
theorem resolves_of_find? (accepted : ofRoutes routes = .ok r)
    (apart : ∀ x ∈ routesFor routes method, Apart x.symbols)
    (found : r.find? method path = some (handler, params)) :
    (∃ x ∈ routesFor routes method, x.handler = handler ∧ x.Resolves path params) ∨
      params = [] ∧ ∃ t, Overtaken (routesFor routes method) t ⟨handler, []⟩ ∧
        Utf8.encode path = raw t := by
  rw [find?_eq] at found
  obtain ⟨m, here, same⟩ := Option.map_eq_some_iff.1 found
  obtain ⟨rfl, rfl⟩ := Prod.mk.inj same
  have built : Registered (routesFor routes method) (r.tree method) := registered accepted
  obtain ⟨t, plain, holds, fits, values⟩ :=
    (Tree.explains_of_find? (built.sound apart)).1 built.regular.kind_eq here
  rcases built.origin holds with ⟨x, mem, ends⟩ | overtaken
  · have own := ends.normalised.fits (apart x mem) fits
    have valid := own.valid (apart x mem) (valid_unescape (Utf8.valid_encode _))
      (Utf8.valid_encode path)
    refine .inl ⟨x, mem, ends.2.symm, _, _, own, ?_⟩
    rw [values] at valid ⊢
    rw [Router.params, List.map_map]
    refine (List.map_congr_left fun e mem => ?_).trans (List.map_id _)
    obtain ⟨name, value⟩ := valid e mem
    exact Prod.ext (encode_text name) (encode_text value)
  · obtain ⟨literal, entry, -⟩ := overtaken.cases
    obtain ⟨-, rest, whole⟩ := fits.literal_inv literal
    rw [entry] at overtaken
    refine .inr ⟨?_, t, overtaken, whole⟩
    rw [Router.params, entry, rest]
    rfl

/-- Text is answered by its own route. -/
theorem find?_of_literal (accepted : ofRoutes routes = .ok r) (mem : x ∈ routesFor routes method)
    (literal : Literal x.symbols) (goes : path ≠ "") (same : Utf8.encode path = raw x.symbols) :
    r.find? method path = some (x.handler, []) := by
  have built : Registered (routesFor routes method) (r.tree method) := registered accepted
  have nonempty : x.template ≠ "" := by
    intro empty
    rw [Registration.symbols, empty] at same
    exact goes (Utf8.encode_inj same)
  obtain ⟨t, e, ends, holds⟩ := built.held x mem nonempty
  obtain ⟨rfl, names⟩ := ends.normalised.of_literal literal
  have text : IsText x.symbols := literal.isText x.marked
  rw [find?_eq, same, Tree.find?_of_holds built.regular holds text, Option.map_some, ends.2]
  rw [Router.params, List.zip_nil_right]
  rfl

/-- What look-ups answer, for every accepted row of routes: the answer depends on the routes of the
method alone; where their templates keep the parameters apart, as all do that are accepted alone, it
is the handler of a template that the path fits, with the values under the names of that template,
if it is not that of an empty template which was overtaken; and a path that is spelled out by a
template without parameters is answered by its handler. Handlers that are answered are among the
names of the router, which are those of all routes, sorted and each once. -/
theorem registered_routes_found (accepted : ofRoutes routes = .ok r) (method path : String) :
    (∀ routes' r', ofRoutes routes' = .ok r' → routesFor routes' method = routesFor routes method →
      r'.find? method path = r.find? method path) ∧
    (∀ x ∈ routes, (∃ r', ofRoutes [x] = .ok r') → Apart x.symbols) ∧
    ((∀ x ∈ routesFor routes method, Apart x.symbols) → ∀ handler params,
      r.find? method path = some (handler, params) →
      (∃ x ∈ routesFor routes method, x.handler = handler ∧ x.Resolves path params) ∨
        params = [] ∧ ∃ t, Overtaken (routesFor routes method) t ⟨handler, []⟩ ∧
          Utf8.encode path = raw t) ∧
    (∀ x ∈ routesFor routes method, Literal x.symbols → path ≠ "" →
      Utf8.encode path = raw x.symbols → r.find? method path = some (x.handler, [])) ∧
    (∀ handler params, r.find? method path = some (handler, params) → handler ∈ r.handlerNames) ∧
    r.handlerNames.Pairwise (· < ·) ∧
    ∀ handler, handler ∈ r.handlerNames ↔ ∃ x ∈ routes, x.handler = handler := by
  refine ⟨fun routes' r' accepted' same => ?_, fun x _ ⟨_, alone⟩ => apart_of_accepted alone,
    fun apart _ _ found => resolves_of_find? accepted apart found,
    fun x mem literal goes same => find?_of_literal accepted mem literal goes same,
    fun handler params found => ?_, SortedMap.pairwise_keys _, fun _ => mem_handlerNames accepted⟩
  · have tree : Tree.empty.addAll (routesFor routes' method) = .ok (r'.tree method) :=
      tree_ofRoutes accepted'
    rw [same, tree_ofRoutes accepted] at tree
    rw [find?_eq, find?_eq, Except.ok.inj tree]
  · obtain ⟨x, mem, own⟩ := handler_of_find? accepted found
    exact (mem_handlerNames accepted).2 ⟨x, (List.mem_filter.1 mem).1, own⟩

end Answers

/-- Routes of two methods; the last template has escaped braces and two parameters. -/
def sampleRoutes : List Registration :=
  [⟨"GET", "/users/{id}", "show"⟩, ⟨"POST", "/users", "create"⟩, ⟨"GET", "/users/new", "new"⟩,
    ⟨"GET", "/{file}.{{png}}/{*rest}", "files"⟩]

theorem registered_routes_found_with_braces :
    ∃ r, ofRoutes sampleRoutes = .ok r ∧ (∀ x ∈ routesFor sampleRoutes "GET", Apart x.symbols) ∧
      (∃ x ∈ routesFor sampleRoutes "GET", x.handler = "files" ∧
        x.Resolves "/é.{png}/b/c" [("file", "é"), ("rest", "b/c")]) ∧
      r.find? "GET" "/users/new" = some ("new", []) ∧ "files" ∈ r.handlerNames := by
  have answer : (ofRoutes sampleRoutes).toOption.bind (·.find? "GET" "/é.{png}/b/c") =
      some ("files", [("file", "é"), ("rest", "b/c")]) := by decide +kernel
  obtain ⟨r, accepted, found⟩ := exists_of_answer answer
  obtain ⟨-, alone, resolved, -, named, -⟩ := registered_routes_found accepted "GET" "/é.{png}/b/c"
  obtain ⟨-, -, -, spelled, -⟩ := registered_routes_found accepted "GET" "/users/new"
  have each : (sampleRoutes.all fun x => (ofRoutes [x]).isOk) = true := by decide +kernel
  have apart : ∀ x ∈ routesFor sampleRoutes "GET", Apart x.symbols := by
    intro x mem
    have mem := (List.mem_filter.1 mem).1
    have ok := List.all_eq_true.1 each x mem
    refine alone x mem ?_
    cases own : ofRoutes [x] with
    | error e => rw [own] at ok; cases ok
    | ok r' => exact ⟨r', rfl⟩
  refine ⟨r, accepted, apart, ?_, ?_, named _ _ found⟩
  · refine (resolved apart _ _ found).resolve_right ?_
    rintro ⟨missing, -⟩
    cases missing
  · exact spelled ⟨"GET", "/users/new", "new"⟩ (by simp [routesFor, sampleRoutes])
      (firstParam_eq_none_iff.1 rfl) (by decide) (by decide +kernel)

/-- An empty template, and one with text in front of its parameter. -/
def blankRoutes : List Registration := [⟨"GET", "", "a"⟩, ⟨"GET", "/{x}", "b"⟩]

/-- A template with escaped braces behind a parameter, and one that looks alike without them. -/
def bracedRoutes : List Registration :=
  [⟨"GET", "/{a}{{b}}", "first"⟩, ⟨"GET", "/{q}{b}", "second"⟩]

/-- Answers that no template explains. -/
theorem lookups_astray :
    (∃ r, ofRoutes blankRoutes = .ok r ∧ r.find? "GET" "/" = some ("a", []) ∧
      ¬∃ x ∈ routesFor blankRoutes "GET", x.handler = "a" ∧ x.Resolves "/" []) ∧
    ∃ r, ofRoutes bracedRoutes = .ok r ∧
      r.find? "GET" "/foo/bar" = some ("second", [("q", "foo/"), ("b", "bar")]) ∧
      ¬∃ x ∈ routesFor bracedRoutes "GET", x.handler = "second" ∧
        x.Resolves "/foo/bar" [("q", "foo/"), ("b", "bar")] := by
  constructor
  · have answer : (ofRoutes blankRoutes).toOption.bind (·.find? "GET" "/") =
        some ("a", []) := by decide +kernel
    obtain ⟨r, accepted, found⟩ := exists_of_answer answer
    refine ⟨r, accepted, found, ?_⟩
    rintro ⟨x, mem, own, plain, rest, fits, -⟩
    have either : x = ⟨"GET", "", "a"⟩ ∨ x = ⟨"GET", "/{x}", "b"⟩ := by
      simpa [routesFor, blankRoutes] using mem
    rcases either with rfl | rfl
    · have ended : Utf8.encode "/" = Utf8.encode "" := fits.nil_inv.2.2
      exact absurd (Utf8.encode_inj ended) (by decide)
    · exact absurd own (by decide)
  · have answer : (ofRoutes bracedRoutes).toOption.bind (·.find? "GET" "/foo/bar") =
        some ("second", [("q", "foo/"), ("b", "bar")]) := by decide +kernel
    obtain ⟨r, accepted, found⟩ := exists_of_answer answer
    refine ⟨r, accepted, found, ?_⟩
    rintro ⟨x, -, -, plain, rest, fits, told⟩
    -- Of two parameters the first is plain, and its value has a slash.
    cases plain with
    | nil => cases rest <;> cases told
    | cons e plain =>
        obtain ⟨rfl, -⟩ := List.cons.inj told
        exact absurd (fits.segment_of_mem _ List.mem_cons_self).2 (by decide)

end RequestFlow
