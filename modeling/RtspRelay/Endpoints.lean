import RtspRelay.ApiRequests

/-! Which handler a request reaches, told from its method and path alone, and what that
handler does to the relay. -/
namespace RtspRelay.Endpoints
open Machine ByteSearch Manager Service Relay Routing StreamApi
open HttpMessage (HttpRequest)
open ApiRequests (api posts deletes lists queries counts)

inductive Endpoint where
  | posts
  | deletes
  | lists
  | counts
  | unknown
  deriving DecidableEq, Repr

-- The path of a request is `base` or lies below it.
def Under (base path : Bytes) : Prop := path = base ∨ (base ++ [47]).isPrefixOf path = true

instance (base path : Bytes) : Decidable (Under base path) := inferInstanceAs (Decidable (_ ∨ _))

def endpointOf (req : HttpRequest) : Endpoint :=
  if req.method = ascii "POST" ∧ Under (ascii "/api/streams") req.path then .posts
  else if req.method = ascii "DELETE" ∧ Under (ascii "/api/streams") req.path then .deletes
  else if req.method = ascii "GET" ∧ Under (ascii "/api/streams") req.path then .lists
  else if req.method = ascii "GET" ∧ Under (ascii "/api/stats") req.path then .counts
  else .unknown

def handled (order : StreamOrder) (rtspPort : UInt16) (out : Outside) : Endpoint → Handler Relay
  | .posts => postStream rtspPort out
  | .deletes => deleteStream out
  | .lists => listStreams order
  | .counts => stats
  | .unknown => notFound

theorem underPrefix (base path : Bytes) : Under base path ↔ ∃ rest, path = base ++ rest ∧
    (rest = [] ∨ rest.head? = some 47) := by
  unfold Under
  rw [List.isPrefixOf_iff_prefix]
  constructor
  · rintro (rfl | ⟨rest, rfl⟩)
    · exact ⟨[], (List.append_nil _).symm, .inl rfl⟩
    · exact ⟨47 :: rest, by simp, .inr rfl⟩
  · rintro ⟨rest, rfl, empty | slash⟩
    · exact .inl (by rw [empty, List.append_nil])
    · refine .inr ⟨rest.tail, ?_⟩
      rw [List.append_assoc, List.singleton_append, List.cons_head?_tail slash]

theorem matchesUnder {req : HttpRequest} {route : Route Relay} (open_ : route.path.getLast? ≠ some 47) :
    Matches req route ↔ route.method = req.method ∧ Under route.path req.path := by
  constructor
  · intro hit
    refine ⟨hit.1, (underPrefix _ _).mpr ?_⟩
    rcases hit.2 with same | ⟨longer, start, boundary⟩
    · exact ⟨[], by rw [List.append_nil, same], .inl rfl⟩
    · have whole : req.path = route.path ++ req.path.drop route.path.length := by
        conv => lhs; rw [← List.take_append_drop route.path.length req.path, start]
      refine ⟨req.path.drop route.path.length, whole, .inr ?_⟩
      rw [List.head?_drop]
      exact boundary.resolve_left open_
  · rintro ⟨same, under⟩
    obtain ⟨rest, path, ends⟩ := (underPrefix _ _).mp under
    exact (matchesRest same path).mpr (ends.imp id .inr)

variable {order : StreamOrder} {rtspPort : UInt16} {out : Outside}

theorem streamsOpen : (ascii "/api/streams").getLast? ≠ some 47 := by decide
theorem statsOpen : (ascii "/api/stats").getLast? ≠ some 47 := by decide

-- What the route of a single stream would take, the route of the list takes first.
theorem queriesListed {req : HttpRequest} (hit : Matches req (queries order)) : Matches req (lists order) := by
  have below : ∃ rest, req.path = ascii "/api/streams/" ++ rest := by
    rcases hit.2 with same | ⟨_, start, _⟩
    · exact ⟨[], by rw [List.append_nil]; exact same.symm⟩
    · refine ⟨req.path.drop (queries order).path.length, ?_⟩
      conv => lhs; rw [← List.take_append_drop (queries order).path.length req.path, start]
      rfl
  obtain ⟨rest, path⟩ := below
  have under : Under (ascii "/api/streams") req.path :=
    (underPrefix _ _).mpr ⟨47 :: rest, path, .inr rfl⟩
  exact (matchesUnder streamsOpen).mpr ⟨hit.1, under⟩

theorem endpointReached (s : Relay) (req : HttpRequest) :
    api order rtspPort out s req = handled order rtspPort out (endpointOf req) s req {} := by
  have reaches {route : Route Relay} (open_ : route.path.getLast? ≠ some 47) {method : Bytes}
      (own : route.method = method) (hit : req.method = method ∧ Under route.path req.path) : Matches req route :=
    (matchesUnder open_).mpr ⟨own.trans hit.1.symm, hit.2⟩
  have misses (route : Route Relay) (open_ : route.path.getLast? ≠ some 47) {method : Bytes}
      (own : route.method = method) (miss : ¬ (req.method = method ∧ Under route.path req.path)) :
      ¬ Matches req route :=
    fun hit => miss ⟨hit.1.symm.trans own, ((matchesUnder open_).mp hit).2⟩
  unfold endpointOf
  split
  · rename_i post
    exact dispatchFirst [] (posts rtspPort out) rfl nofun (reaches streamsOpen rfl post) s
  · rename_i noPost
    have posted := misses (posts rtspPort out) streamsOpen rfl noPost
    split
    · rename_i delete
      exact dispatchFirst [posts rtspPort out] (deletes out) rfl (List.forall_mem_singleton.mpr posted)
        (reaches streamsOpen rfl delete) s
    · rename_i noDelete
      have deleted := misses (deletes out) streamsOpen rfl noDelete
      split
      · rename_i list
        exact dispatchFirst [posts rtspPort out, deletes out] (lists order) rfl
          (List.forall_mem_cons.mpr ⟨posted, List.forall_mem_singleton.mpr deleted⟩)
          (reaches streamsOpen rfl list) s
      · rename_i noList
        have listed := misses (lists order) streamsOpen rfl noList
        have queried : ¬ Matches req (queries order) := fun hit => listed (queriesListed hit)
        have before : ∀ r ∈ [posts rtspPort out, deletes out, lists order, queries order], ¬ Matches req r := by
          simp only [List.forall_mem_cons, List.not_mem_nil, false_implies, implies_true, and_true]
          exact ⟨posted, deleted, listed, queried⟩
        split
        · rename_i count
          exact dispatchFirst _ counts rfl before (reaches statsOpen rfl count) s
        · rename_i noCount
          have counted := misses counts statsOpen rfl noCount
          have given : (registerHttpRoutes order rtspPort out).defaultHandler = some notFound := rfl
          refine dispatchDefault given (fun r inside => ?_) s
          rcases List.mem_append.mp (show r ∈ [posts rtspPort out, deletes out, lists order, queries order] ++
            [counts] from inside) with old | last
          · exact before r old
          · rw [List.mem_singleton.mp last]
            exact counted

/-! What the handler does to the relay. -/

inductive Change where
  | keep
  | add (path url : Bytes)
  | remove (path : Bytes)
  deriving DecidableEq, Repr

def changeOf (req : HttpRequest) : Change :=
  match endpointOf req with
  | .posts =>
    if extractStringValue req.body (ascii "path") = [] ∨ extractStringValue req.body (ascii "upstream") = [] then
      .keep
    else .add (postedPath req.body) (postedUrl req.body)
  | .deletes => if deletedPath req = [] then .keep else .remove (deletedPath req)
  | .lists | .counts | .unknown => .keep

def changed (out : Outside) (s : Relay) : Change → Relay
  | .keep => s
  | .add path url => s.addStream path url out.connect out.writes
  | .remove path => s.removeStream path out.writes

theorem postChanges (s : Relay) (path url : Bytes) {refused added : HttpResponse} :
    (match s.manager.addStream path url s.nextSource with
      | none => (s, refused)
      | some _ => (s.addStream path url out.connect out.writes, added)).1 = changed out s (.add path url) := by
  rw [changed, addStream]
  cases s.manager.addStream path url s.nextSource <;> rfl

theorem deleteChanges (s : Relay) (path : Bytes) {absent removed : HttpResponse} :
    (match s.manager.removeStream path with
      | none => (s, absent)
      | some _ => (s.removeStream path out.writes, removed)).1 = changed out s (.remove path) := by
  rw [changed, removeStream]
  cases s.manager.removeStream path <;> rfl

theorem apiChanges (s : Relay) (req : HttpRequest) :
    (api order rtspPort out s req).1 = changed out s (changeOf req) := by
  rw [endpointReached, changeOf]
  cases endpointOf req with
  | lists | counts | unknown => rfl
  | posts =>
    simp only [handled, postStream]
    split
    · rfl
    · exact postChanges s _ _
  | deletes =>
    simp only [handled, deleteStream]
    split
    · rfl
    · exact deleteChanges s _

end RtspRelay.Endpoints
