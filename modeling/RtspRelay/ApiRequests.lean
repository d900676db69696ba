import RtspRelay.StreamApi

/-! What the registered routes make of a request: the request for one stream, and the
two ways to name the stream that is deleted. -/
namespace RtspRelay.ApiRequests
open Machine ByteSearch Manager Service Routing StreamApi
open HttpMessage (HttpRequest)

variable (order : StreamOrder) (rtspPort : UInt16) (out : Outside)

def api (s : Relay) (req : HttpRequest) : Relay × HttpResponse :=
  dispatch (registerHttpRoutes order rtspPort out) s req

def request (base : HttpRequest) (method path body : Bytes) : HttpRequest :=
  { base with method := method, path := path, body := body }

def getting (base : HttpRequest) (p : Bytes) : HttpRequest :=
  { base with method := ascii "GET", path := ascii "/api/streams" ++ p }

def posting (base : HttpRequest) (b : Bytes) : HttpRequest :=
  request base (ascii "POST") (ascii "/api/streams") b

def deleting (base : HttpRequest) (b : Bytes) : HttpRequest :=
  request base (ascii "DELETE") (ascii "/api/streams") b

def deletingQuery (base : HttpRequest) (p : Bytes) : HttpRequest :=
  request base (ascii "DELETE") (ascii "/api/streams?path=" ++ p) []

def posts : Route Relay := ⟨ascii "POST", ascii "/api/streams", postStream rtspPort out⟩
def deletes : Route Relay := ⟨ascii "DELETE", ascii "/api/streams", deleteStream out⟩
def lists : Route Relay := ⟨ascii "GET", ascii "/api/streams", listStreams order⟩
def queries : Route Relay := ⟨ascii "GET", ascii "/api/streams/", oneStream order⟩
def counts : Route Relay := ⟨ascii "GET", ascii "/api/stats", stats⟩

variable {order rtspPort out}

theorem postReached (s : Relay) (base : HttpRequest) (b : Bytes) :
    api order rtspPort out s (posting base b) = postStream rtspPort out s (posting base b) {} :=
  dispatchFirst [] (posts rtspPort out) rfl nofun ⟨rfl, .inl rfl⟩ s

theorem deleteReached (s : Relay) (base : HttpRequest) (b : Bytes) :
    api order rtspPort out s (deleting base b) = deleteStream out s (deleting base b) {} := by
  refine dispatchFirst [posts rtspPort out] (deletes out) rfl ?_ ⟨rfl, .inl rfl⟩ s
  intro r inside
  rw [List.mem_singleton.mp inside]
  exact otherMethod rfl rfl (by decide : ascii "POST" ≠ ascii "DELETE")

/-! The '?' behind the route's path is no segment boundary. -/
theorem queryMissed (s : Relay) (base : HttpRequest) (p : Bytes) :
    api order rtspPort out s (deletingQuery base p) = notFound s (deletingQuery base p) {} := by
  have posted : ascii "POST" ≠ ascii "DELETE" := by decide
  have got : ascii "GET" ≠ ascii "DELETE" := by decide
  refine dispatchDefault rfl ?_ s
  have routes : (registerHttpRoutes order rtspPort out).routes =
      [posts rtspPort out, deletes out, lists order, queries order, counts] := rfl
  rw [routes]
  simp only [List.forall_mem_cons, List.not_mem_nil, false_implies, implies_true, and_true]
  refine ⟨otherMethod rfl rfl posted, ?_, otherMethod rfl rfl got, otherMethod rfl rfl got,
    otherMethod rfl rfl got⟩
  have path : (deletingQuery base p).path = (deletes out).path ++ (ascii "?path=" ++ p) := rfl
  rw [matchesRest rfl path]
  rintro (empty | slash | mark)
  · contradiction
  · exact absurd slash (by decide : (ascii "/api/streams").getLast? ≠ some 47)
  · exact absurd (Option.some.inj mark : (63 : UInt8) = 47) (by decide)

theorem listReached (s : Relay) (base : HttpRequest) {p : Bytes} (slash : p.head? = some 47) :
    api order rtspPort out s (getting base p) = listStreams order s (getting base p) {} := by
  have path : (getting base p).path = (lists order).path ++ p := rfl
  refine dispatchFirst [posts rtspPort out, deletes out] (lists order) rfl ?_
    ((matchesRest rfl path).mpr (.inr (.inr slash))) s
  simp only [List.forall_mem_cons, List.not_mem_nil, false_implies, implies_true, and_true]
  exact ⟨otherMethod rfl rfl (by decide : ascii "POST" ≠ ascii "GET"),
    otherMethod rfl rfl (by decide : ascii "DELETE" ≠ ascii "GET")⟩

/-! The route of all streams matches first. -/

def AnswersStream (s : Relay) (p : Bytes) (answer : Relay × HttpResponse) : Prop :=
  answer.1 = s ∧ match getStreamInfo s p with
    | some info => answer.2 = ({} : HttpResponse).setJson (streamJson info)
    | none => answer.2.statusCode = 404

theorem listNotStream (infos : List StreamInfo) (info : StreamInfo) : listJson infos ≠ streamJson info := by
  intro same
  have starts := congrArg (fun json => json[19]?) same
  simp [listJson, streamJson, infoMembers, ascii] at starts

theorem listNotAnswer (s : Relay) (req : HttpRequest) (p : Bytes) :
    ¬ AnswersStream s p (listStreams order s req {}) := by
  rintro ⟨_, answer⟩
  cases found : getStreamInfo s p with
  | some info =>
    rw [found] at answer
    exact listNotStream _ info (congrArg HttpResponse.body answer)
  | none =>
    rw [found] at answer
    have status : (200 : Int) = 404 := answer
    contradiction

/-! On no input does the request for one stream reach its own handler. -/
theorem singleStreamListed (order : StreamOrder) (rtspPort : UInt16) (out : Outside) (s : Relay)
    (base : HttpRequest) (p : Bytes) (slash : p.head? = some 47) :
    ¬ AnswersStream s p (api order rtspPort out s (getting base p)) := by
  rw [listReached s base slash]
  exact listNotAnswer s _ p

def fresh (maxSources : Nat) : Relay :=
  init maxSources (fun _ => ⟨ascii "10.0.0.7:5000", ascii "00000001"⟩) Protocol.insertionOrder

def offline : Outside := ⟨.inProgress, []⟩

theorem camListed : ¬ AnswersStream (fresh 500) (ascii "/cam")
    (api oldestFirst 8554 offline (fresh 500) (getting {} (ascii "/cam"))) :=
  singleStreamListed oldestFirst 8554 offline (fresh 500) {} (ascii "/cam") (by decide)

theorem unknownStreamListed :
    ¬ ∀ (order : StreamOrder) (rtspPort : UInt16) (out : Outside) (s : Relay) (base : HttpRequest)
        (p : Bytes), p.head? = some 47 → 2 ≤ p.length → (∀ b ∈ p, b ≠ 32 ∧ b ≠ 13 ∧ b ≠ 10) →
        AnswersStream s p (api order rtspPort out s (getting base p)) := by
  intro always
  have answers := always oldestFirst 8554 offline (fresh 500) {} (ascii "/cam") (by decide) (by decide)
    (by decide +kernel)
  rw [listReached _ _ (by decide)] at answers
  exact listNotAnswer _ _ _ answers

/-! POST puts the missing '/' in front of the path, DELETE takes the path as it is. -/

def SameStreams (s after : Relay) : Prop := ∀ q, after.manager.hasStream q = s.manager.hasStream q

def RemovesPosted (order : StreamOrder) (rtspPort : UInt16) (out : Outside) (s posted : Relay)
    (base : HttpRequest) (b : Bytes) : Prop :=
  (api order rtspPort out posted (deleting base b)).2.statusCode = 200 ∧
    SameStreams s (api order rtspPort out posted (deleting base b)).1

theorem postCreated {s : Relay} {base : HttpRequest} {b : Bytes}
    (created : (api order rtspPort out s (posting base b)).2.statusCode = 201) :
    Created s b rtspPort (api order rtspPort out s (posting base b)) := by
  rw [postReached] at created ⊢
  rcases postOutcome s (posting base b) rtspPort out with ⟨_, bad | conflict⟩ | ⟨_, added⟩
  · rw [bad] at created
    contradiction
  · rw [conflict] at created
    contradiction
  · exact added

theorem bodyPath (base : HttpRequest) {b : Bytes} (named : extractStringValue b (ascii "path") ≠ []) :
    deletedPath (deleting base b) = extractStringValue b (ascii "path") := if_neg named

theorem addedRemoved {m after rest : RelayManager} {path url : Bytes} {source i : SourceId}
    (added : m.addStream path url source = some after) (removed : after.removeStream path = some (i, rest))
    (q : Bytes) : rest.hasStream q = m.hasStream q := by
  rw [RelayManager.removeStreamHas removed, RelayManager.addStreamHas added]
  rcases eq_or_ne q path with rfl | differ
  · rw [(RelayManager.addStreamFresh added).1, decide_eq_false (not_not.mpr rfl), Bool.false_and]
  · rw [decide_eq_true differ, decide_eq_false differ, Bool.true_and, Bool.false_or]

theorem otherRemoved {m after rest : RelayManager} {path other url : Bytes} {source i : SourceId}
    (added : m.addStream other url source = some after) (differ : path ≠ other)
    (removed : after.removeStream path = some (i, rest)) : rest.hasStream path ≠ m.hasStream path := by
  have present := (RelayManager.removeStreamErases removed).1
  rw [RelayManager.addStreamHas added, decide_eq_false differ, Bool.false_or] at present
  rw [RelayManager.removeStreamHas removed, decide_eq_false (not_not.mpr rfl), Bool.false_and, present]
  decide

theorem postedRemoved (order : StreamOrder) (rtspPort : UInt16) (out out' : Outside) (s : Relay)
    (base base' : HttpRequest) (b : Bytes)
    (created : (api order rtspPort out s (posting base b)).2.statusCode = 201) :
    RemovesPosted order rtspPort out' s (api order rtspPort out s (posting base b)).1 base' b ↔
      (extractStringValue b (ascii "path")).head? = some 47 := by
  obtain ⟨⟨named, _⟩, added, _⟩ := postCreated created
  generalize (api order rtspPort out s (posting base b)).1 = after at added ⊢
  have outcome := deleteOutcome after (bodyPath base' named) named out'
  rw [RemovesPosted, deleteReached, SameStreams]
  rw [postedPath, withSlash] at added
  split at added
  · rename_i slash
    refine iff_of_true ?_ slash
    rcases outcome with ⟨absent, _⟩ | ⟨_, ok, i, removed⟩
    · rw [RelayManager.addStreamHas added, decide_eq_true rfl] at absent
      contradiction
    · exact ⟨ok, addedRemoved added removed⟩
  · rename_i bare
    refine iff_of_false ?_ bare
    rintro ⟨ok, same⟩
    rcases outcome with ⟨_, missed, _⟩ | ⟨_, _, i, removed⟩
    · rw [missed] at ok
      contradiction
    · exact otherRemoved added (List.cons_ne_self 47 _).symm removed (same _)

/-! The path is sent without its '/'. -/
def bareBody : Bytes := ascii "\x7b\"path\":\"cam\",\"upstream\":\"rtsp://10.0.0.9/cam\"\x7d"
def slashBody : Bytes := ascii "\x7b\"path\":\"/cam\",\"upstream\":\"rtsp://10.0.0.9/cam\"\x7d"

theorem slashRemoved :
    (extractStringValue slashBody (ascii "path")).head? = some 47 ∧
      RemovesPosted oldestFirst 8554 offline (fresh 500)
        (api oldestFirst 8554 offline (fresh 500) (posting {} slashBody)).1 {} slashBody := by
  have created : (api oldestFirst 8554 offline (fresh 500) (posting {} slashBody)).2.statusCode = 201 := by
    decide +kernel
  have slash : (extractStringValue slashBody (ascii "path")).head? = some 47 := by decide +kernel
  exact ⟨slash, (postedRemoved oldestFirst 8554 offline offline (fresh 500) {} {} slashBody created).mpr slash⟩

theorem bareNotRemoved :
    ¬ ∀ (order : StreamOrder) (rtspPort : UInt16) (out out' : Outside) (s : Relay)
        (base base' : HttpRequest) (b : Bytes),
      (api order rtspPort out s (posting base b)).2.statusCode = 201 →
        RemovesPosted order rtspPort out' s (api order rtspPort out s (posting base b)).1 base' b := by
  intro always
  have removes := always oldestFirst 8554 offline offline (fresh 500) {} {} bareBody (by decide +kernel)
  exact absurd removes.1 (by decide +kernel)

/-! The query form of DELETE reaches no handler of a stream. -/

structure SameAnswer (byQuery byBody : Relay × HttpResponse) : Prop where
  status : byQuery.2.statusCode = byBody.2.statusCode
  streams : SameStreams byBody.1 byQuery.1

theorem quotedMember {p : Bytes} (plain : (34 : UInt8) ∉ p) :
    extractStringValue (ascii "\x7b\"path\":\"" ++ (p ++ ascii "\"\x7d")) (ascii "path") = p := by
  have ends : find [34] (p ++ ascii "\"\x7d") = some p.length := by
    rw [findAfter plain]
    exact congrArg some (Nat.zero_add _)
  have pattern : find (ascii "\"" ++ ascii "path" ++ ascii "\"")
      (ascii "\x7b\"path\":\"" ++ (p ++ ascii "\"\x7d")) = some 1 := rfl
  have colon : findFrom [58] (ascii "\x7b\"path\":\"" ++ (p ++ ascii "\"\x7d")) 7 = some 7 := rfl
  have opens : findFrom [34] (ascii "\x7b\"path\":\"" ++ (p ++ ascii "\"\x7d")) 8 = some 8 := rfl
  have closes : findFrom [34] (ascii "\x7b\"path\":\"" ++ (p ++ ascii "\"\x7d")) 9 = some (p.length + 9) :=
    congrArg (Option.map (· + 9)) ends
  have size : 1 + (ascii "\"" ++ ascii "path" ++ ascii "\"").length = 7 := rfl
  unfold extractStringValue
  simp only [pattern, size, colon, opens, closes, bind, Option.bind, Option.getD_some]
  have width : p.length + 9 - 8 - 1 = p.length := by omega
  rw [width]
  exact List.take_left

def camMember : Bytes := ascii "\x7b\"path\":\"" ++ (ascii "/cam" ++ ascii "\"\x7d")

end RtspRelay.ApiRequests
