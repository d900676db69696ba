import RtspRelay.Decoders

/-! The HTTP server: responses and the choice of the handler of a request. What the
handlers read and change is `σ`. -/
namespace RtspRelay.Routing
open Machine MessageText Protocol
open HttpMessage (HttpRequest)

structure HttpResponse where
  statusCode : Int := 200
  reason : Bytes := ascii "OK"
  headers : Headers := ∅
  body : Bytes := []
  deriving DecidableEq

namespace HttpResponse

def setJson (resp : HttpResponse) (json : Bytes) : HttpResponse :=
  { resp with
    headers := resp.headers.insert (ascii "Content-Type") (ascii "application/json; charset=utf-8")
    body := json }

def setStatus (resp : HttpResponse) (code : Int) (reason : Bytes) : HttpResponse :=
  { resp with statusCode := code, reason := reason }

def serialize (order : HeaderOrder) (resp : HttpResponse) : Bytes :=
  ascii "HTTP/1.1 " ++ decimalInt resp.statusCode ++ ascii " " ++ resp.reason ++ crlf ++
  (if (resp.headers.lookup (ascii "Content-Length")).isNone ∧ resp.body ≠ [] then
      ascii "Content-Length: " ++ decimal resp.body.length ++ crlf
    else []) ++
  (if (resp.headers.lookup (ascii "Connection")).isNone then ascii "Connection: close" ++ crlf else []) ++
  (order.list resp.headers).flatMap (fun entry => entry.1 ++ ascii ": " ++ entry.2 ++ crlf) ++
  crlf ++ resp.body

end HttpResponse

abbrev Handler (σ : Type) := σ → HttpRequest → HttpResponse → σ × HttpResponse

structure Route (σ : Type) where
  method : Bytes
  path : Bytes
  handler : Handler σ

structure HttpServer (σ : Type) where
  routes : List (Route σ)
  defaultHandler : Option (Handler σ)

variable {σ : Type}

namespace HttpServer

def empty : HttpServer σ := ⟨[], none⟩

def route (server : HttpServer σ) (method path : Bytes) (handler : Handler σ) : HttpServer σ :=
  { server with routes := server.routes ++ [⟨method, path, handler⟩] }

def setDefaultHandler (server : HttpServer σ) (handler : Handler σ) : HttpServer σ :=
  { server with defaultHandler := some handler }

end HttpServer

-- A path behind the route's, at a segment boundary.
def PrefixMatches (route path : Bytes) : Prop :=
  route.length < path.length ∧ path.take route.length = route ∧
    (route.getLast? = some 47 ∨ path[route.length]? = some 47)

instance (route path : Bytes) : Decidable (PrefixMatches route path) :=
  inferInstanceAs (Decidable (_ ∧ _ ∧ _))

def Matches (req : HttpRequest) (route : Route σ) : Prop :=
  route.method = req.method ∧ (route.path = req.path ∨ PrefixMatches route.path req.path)

instance (req : HttpRequest) (route : Route σ) : Decidable (Matches req route) :=
  inferInstanceAs (Decidable (_ ∧ _))

-- `none` where no route matches.
def dispatchRoutes (s : σ) (req : HttpRequest) : List (Route σ) → Option (σ × HttpResponse)
  | [] => none
  | route :: rest =>
    if Matches req route then some (route.handler s req {}) else dispatchRoutes s req rest

def dispatch (server : HttpServer σ) (s : σ) (req : HttpRequest) : σ × HttpResponse :=
  match dispatchRoutes s req server.routes with
  | some out => out
  | none => match server.defaultHandler with
    | some handler => handler s req {}
    | none => (s, (({} : HttpResponse).setStatus 404 (ascii "Not Found")).setJson
        (ascii "\x7b\"error\":\"not found\"\x7d"))

/-! Which handler runs: the first route that matches, or the default one. -/

theorem routesFirst {s : σ} {req : HttpRequest} {before after : List (Route σ)} {route : Route σ}
    (others : ∀ r ∈ before, ¬ Matches req r) (hit : Matches req route) :
    dispatchRoutes s req (before ++ route :: after) = some (route.handler s req {}) := by
  induction before with
  | nil => exact if_pos hit
  | cons r rest ih =>
    obtain ⟨apart, later⟩ := List.forall_mem_cons.mp others
    exact (if_neg apart).trans (ih later)

theorem routesNone {s : σ} {req : HttpRequest} {routes : List (Route σ)}
    (others : ∀ r ∈ routes, ¬ Matches req r) : dispatchRoutes s req routes = none := by
  induction routes with
  | nil => rfl
  | cons r rest ih =>
    obtain ⟨apart, later⟩ := List.forall_mem_cons.mp others
    exact (if_neg apart).trans (ih later)

theorem dispatchFirst {server : HttpServer σ} {req : HttpRequest} (before : List (Route σ))
    (route : Route σ) {after : List (Route σ)} (routes : server.routes = before ++ route :: after)
    (others : ∀ r ∈ before, ¬ Matches req r) (hit : Matches req route) (s : σ) :
    dispatch server s req = route.handler s req {} := by
  rw [dispatch, routes, routesFirst others hit]

theorem dispatchDefault {server : HttpServer σ} {req : HttpRequest} {handler : Handler σ}
    (given : server.defaultHandler = some handler) (others : ∀ r ∈ server.routes, ¬ Matches req r)
    (s : σ) : dispatch server s req = handler s req {} := by
  rw [dispatch, routesNone others, given]

theorem otherMethod {req : HttpRequest} {route : Route σ} {own asked : Bytes}
    (has : route.method = own) (wants : req.method = asked) (differ : own ≠ asked) :
    ¬ Matches req route := fun hit => differ (has.symm.trans (hit.1.trans wants))

theorem prefixRest (route rest : Bytes) : PrefixMatches route (route ++ rest) ↔
    rest ≠ [] ∧ (route.getLast? = some 47 ∨ rest.head? = some 47) := by
  have longer : route.length < (route ++ rest).length ↔ rest ≠ [] := by
    rw [List.length_append, Nat.lt_add_right_iff_pos, List.length_pos_iff]
  have next : (route ++ rest)[route.length]? = rest.head? := by
    rw [List.getElem?_append_right (Nat.le_refl _), Nat.sub_self, List.head?_eq_getElem?]
  rw [PrefixMatches, longer, List.take_left, next]
  simp only [true_and]

theorem matchesRest {req : HttpRequest} {route : Route σ} (same : route.method = req.method)
    {rest : Bytes} (path : req.path = route.path ++ rest) : Matches req route ↔
      rest = [] ∨ route.path.getLast? = some 47 ∨ rest.head? = some 47 := by
  have exact_ : route.path = route.path ++ rest ↔ rest = [] := List.self_eq_append_right
  rw [Matches, path, prefixRest, exact_]
  constructor
  · rintro ⟨_, empty | ⟨_, boundary⟩⟩
    · exact .inl empty
    · exact .inr boundary
  · intro hit
    refine ⟨same, ?_⟩
    rcases Decidable.em (rest = []) with empty | some
    · exact .inl empty
    · exact .inr ⟨some, hit.resolve_left some⟩

end RtspRelay.Routing
