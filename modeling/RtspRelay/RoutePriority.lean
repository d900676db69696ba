import RtspRelay.Routing

/-! Which handler a request runs. The handlers of a server note that they were run,
each by its place in the table; what they answer and change stays the same. -/
namespace RtspRelay.RoutePriority
open Machine Routing
open HttpMessage (HttpRequest)

inductive Choice where
  | route (i : Nat)
  | default
  deriving DecidableEq, Repr

section
variable {σ : Type}

-- The calls of route() in their order, and the default handler.
def registered (registrations : List (Route σ)) (defaultHandler : Handler σ) : HttpServer σ :=
  (registrations.foldl (fun server r => server.route r.method r.path r.handler)
    HttpServer.empty).setDefaultHandler defaultHandler

abbrev Noted (σ : Type) := σ × List Choice

def noting (choice : Choice) (handler : Handler σ) : Handler (Noted σ) := fun s req resp =>
  let out := handler s.1 req resp
  ((out.1, s.2 ++ [choice]), out.2)

def notingRoutes : Nat → List (Route σ) → List (Route (Noted σ))
  | _, [] => []
  | i, r :: rest => ⟨r.method, r.path, noting (.route i) r.handler⟩ :: notingRoutes (i + 1) rest

def noted (registrations : List (Route σ)) (defaultHandler : Handler σ) : HttpServer (Noted σ) :=
  registered (notingRoutes 0 registrations) (noting .default defaultHandler)

def ran (registrations : List (Route σ)) (defaultHandler : Handler σ) (s : σ) (req : HttpRequest) :
    List Choice := (dispatch (noted registrations defaultHandler) (s, []) req).1.2

/-! The rule of the two phases: an equal path first, then a prefix. -/

def Exact (req : HttpRequest) (r : Route σ) : Prop := r.method = req.method ∧ r.path = req.path

instance (req : HttpRequest) (r : Route σ) : Decidable (Exact req r) :=
  inferInstanceAs (Decidable (_ ∧ _))

def ByPrefix (req : HttpRequest) (r : Route σ) : Prop :=
  r.method = req.method ∧ PrefixMatches r.path req.path

instance (req : HttpRequest) (r : Route σ) : Decidable (ByPrefix req r) :=
  inferInstanceAs (Decidable (_ ∧ _))

def prioritized (registrations : List (Route σ)) (req : HttpRequest) : Choice :=
  match registrations.findIdx? (Exact req ·), registrations.findIdx? (ByPrefix req ·) with
  | some i, _ => .route i
  | none, some i => .route i
  | none, none => .default

-- No prefix of the path is registered in front of the first equal path.
def ExactAhead (registrations : List (Route σ)) (req : HttpRequest) : Prop :=
  ∀ i ∈ registrations.findIdx? (Exact req ·), ∀ r ∈ registrations.take i, ¬ ByPrefix req r

theorem registeredRoutes (registrations : List (Route σ)) (defaultHandler : Handler σ) :
    registered registrations defaultHandler = ⟨registrations, some defaultHandler⟩ := by
  have adds : ∀ server : HttpServer σ, registrations.foldl
      (fun server r => server.route r.method r.path r.handler) server =
        ⟨server.routes ++ registrations, server.defaultHandler⟩ := by
    induction registrations with
    | nil => intro server; rw [List.append_nil]; rfl
    | cons r rest ih =>
      intro server
      rw [List.foldl_cons, ih, HttpServer.route, List.append_assoc]
      rfl
  rw [registered, adds]
  rfl

/-! Noting changes neither what the handlers do nor which of them is chosen. -/

theorem notingSame (i : Nat) (routes : List (Route σ)) (s : Noted σ) (req : HttpRequest) :
    (dispatchRoutes s req (notingRoutes i routes)).map (fun out => (out.1.1, out.2)) =
      dispatchRoutes s.1 req routes := by
  induction routes generalizing i with
  | nil => rfl
  | cons r rest ih =>
    simp only [notingRoutes, dispatchRoutes]
    by_cases hit : Matches req r
    · have same : Matches req (⟨r.method, r.path, noting (.route i) r.handler⟩ : Route (Noted σ)) := hit
      rw [if_pos hit, if_pos same]
      rfl
    · have other : ¬ Matches req (⟨r.method, r.path, noting (.route i) r.handler⟩ : Route (Noted σ)) := hit
      rw [if_neg hit, if_neg other]
      exact ih (i + 1)

theorem notedSame (registrations : List (Route σ)) (defaultHandler : Handler σ) (s : Noted σ)
    (req : HttpRequest) :
    (dispatch (noted registrations defaultHandler) s req).1.1 =
        (dispatch (registered registrations defaultHandler) s.1 req).1 ∧
      (dispatch (noted registrations defaultHandler) s req).2 =
        (dispatch (registered registrations defaultHandler) s.1 req).2 := by
  have same := notingSame 0 registrations s req
  rw [noted, registeredRoutes, registeredRoutes, dispatch, dispatch]
  dsimp only
  rw [← same]
  cases dispatchRoutes s req (notingRoutes 0 registrations) <;> exact ⟨rfl, rfl⟩

theorem notingFirst (i : Nat) (routes : List (Route σ)) (s : Noted σ) (req : HttpRequest) :
    (dispatchRoutes s req (notingRoutes i routes)).map (fun out => out.1.2) =
      (routes.findIdx? (Matches req ·)).map fun k => s.2 ++ [.route (i + k)] := by
  induction routes generalizing i with
  | nil => rfl
  | cons r rest ih =>
    simp only [notingRoutes, dispatchRoutes, List.findIdx?_cons, decide_eq_true_eq]
    by_cases hit : Matches req r
    · have same : Matches req (⟨r.method, r.path, noting (.route i) r.handler⟩ : Route (Noted σ)) := hit
      rw [if_pos hit, if_pos same]
      rfl
    · have other : ¬ Matches req (⟨r.method, r.path, noting (.route i) r.handler⟩ : Route (Noted σ)) := hit
      rw [if_neg hit, if_neg other, ih (i + 1), Option.map_map]
      refine congrArg (Option.map · _) (funext fun k => ?_)
      rw [Function.comp_apply, Nat.add_right_comm, Nat.add_assoc]

/-! Exactly one handler runs: that of the first route that matches in either way. -/
theorem ranFirst (registrations : List (Route σ)) (defaultHandler : Handler σ) (s : σ) (req : HttpRequest) :
    ran registrations defaultHandler s req =
      [((registrations.findIdx? (Matches req ·)).map .route).getD .default] := by
  have first := notingFirst 0 registrations (s, []) req
  rw [ran, noted, registeredRoutes, dispatch]
  dsimp only
  cases found : dispatchRoutes (s, []) req (notingRoutes 0 registrations) with
  | some out =>
    rw [found, Option.map_some] at first
    obtain ⟨k, hit, same⟩ := Option.map_eq_some_iff.mp first.symm
    rw [hit, ← same, Nat.zero_add]
    rfl
  | none =>
    rw [found, Option.map_none] at first
    rw [Option.map_eq_none_iff.mp first.symm]
    rfl

theorem matchesEither (req : HttpRequest) (r : Route σ) :
    Matches req r ↔ Exact req r ∨ ByPrefix req r := and_or_left

theorem firstExact {registrations : List (Route σ)} {req : HttpRequest} {i : Nat}
    (equal : registrations.findIdx? (Exact req ·) = some i) :
    registrations.findIdx? (Matches req ·) = some i ↔ ∀ r ∈ registrations.take i, ¬ ByPrefix req r := by
  obtain ⟨inside, here, earlier⟩ := List.findIdx?_eq_some_iff_getElem.mp equal
  simp only [decide_eq_true_eq] at here earlier
  rw [List.findIdx?_eq_some_iff_getElem, List.forall_mem_iff_getElem]
  simp only [decide_eq_true_eq, matchesEither, List.getElem_take, List.length_take]
  constructor
  · rintro ⟨_, _, none⟩ j before
    exact fun pre => none j (by omega) (.inr pre)
  · intro ahead
    refine ⟨inside, .inl here, fun j before => ?_⟩
    rintro (exact_ | pre)
    · exact earlier j before exact_
    · exact ahead j (by omega) pre

theorem noExact {registrations : List (Route σ)} {req : HttpRequest}
    (none : ∀ r ∈ registrations, ¬ Exact req r) :
    registrations.findIdx? (Matches req ·) = registrations.findIdx? (ByPrefix req ·) := by
  induction registrations with
  | nil => rfl
  | cons r rest ih =>
    obtain ⟨here, later⟩ := List.forall_mem_cons.mp none
    have same : Matches req r ↔ ByPrefix req r := (matchesEither req r).trans (or_iff_right here)
    rw [List.findIdx?_cons, List.findIdx?_cons, ih later]
    simp only [same]

theorem exactFirst (registrations : List (Route σ)) (defaultHandler : Handler σ) (s : σ)
    (req : HttpRequest) :
    ran registrations defaultHandler s req = [prioritized registrations req] ↔
      ExactAhead registrations req := by
  rw [ranFirst, List.singleton_inj, prioritized, ExactAhead]
  cases equal : registrations.findIdx? (Exact req ·) with
  | some i =>
    simp only [Option.mem_def, Option.some.injEq, forall_eq']
    rw [← firstExact equal]
    cases registrations.findIdx? (Matches req ·) <;> simp
  | none =>
    have apart : ∀ r ∈ registrations, ¬ Exact req r := by
      simpa only [decide_eq_false_iff_not] using List.findIdx?_eq_none_iff.mp equal
    rw [noExact apart]
    refine iff_of_true ?_ nofun
    cases registrations.findIdx? (ByPrefix req ·) <;> rfl
end

/-! The route of all streams takes the request whose path is that of the next route. -/

def greet : Handler Unit := fun s _ resp => (s, resp)

def nested : List (Route Unit) :=
  [⟨ascii "GET", ascii "/api/streams", greet⟩, ⟨ascii "GET", ascii "/api/streams/", greet⟩]

theorem prefixFirst :
    ¬ ∀ (registrations : List (Route Unit)) (defaultHandler : Handler Unit) (s : Unit) (req : HttpRequest),
      (∀ r ∈ registrations, r.path ≠ []) →
        ran registrations defaultHandler s req = [prioritized registrations req] := by
  intro always
  have same := always nested greet () { method := ascii "GET", path := ascii "/api/streams/" } (by decide)
  exact absurd same (by decide)

end RtspRelay.RoutePriority
