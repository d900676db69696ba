import Mathlib.Data.Finmap
import RtspRelay.General.Simulation
import RtspRelay.JsonAnswers
import RtspRelay.JsonBodies
import RtspRelay.SessionIndependence

/-! What the HTTP API is for: a catalog of stream paths and their upstreams, of bounded
size. A request asks a call by its method, its resource and the value of its JSON body, and
the value of an answer's JSON tells the verdict. Whatever else happens in the program, the
calls are answered as the catalog answers them. -/
namespace RtspRelay.Catalog
open Machine ByteSearch Buffer Protocol Manager Session Service Relay Routing StreamApi
open Json Transition Simulation Endpoints
open Program hiding processRequest
open HttpMessage (HttpRequest)
open ApiRequests (api)
open JsonBodies (Members memberRead)
open JsonAnswers
open SessionIndependence (addSinkMax removeSinkMax)

/-! The catalog. -/

structure Streams where
  urls : Finmap (fun _ : Bytes => Bytes)
  capacity : Nat

inductive Call where
  | add (path url : Bytes)
  | remove (path : Bytes)
  | list
  | query (path : Bytes)
  | count
  | unknown
  deriving DecidableEq, Repr

inductive Verdict where
  | incomplete
  | refused
  | added (path url : Bytes)
  | missing
  | removed
  | listing (urls : Finmap (fun _ : Bytes => Bytes))
  | stream (url : Option Bytes)
  | size (n : Nat)

-- A path may be given without its '/'.
def rooted (path : Bytes) : Bytes := if path.head? = some 47 then path else 47 :: path

def answer (c : Streams) : Call → Streams × Verdict
  | .add path url =>
    if path = [] ∨ url = [] then (c, .incomplete)
    else if rooted path ∈ c.urls ∨ c.capacity ≤ c.urls.keys.card then (c, .refused)
    else ({ c with urls := c.urls.insert (rooted path) url }, .added (rooted path) url)
  | .remove path =>
    if rooted path ∈ c.urls then ({ c with urls := c.urls.erase (rooted path) }, .removed)
    else (c, .missing)
  | .list => (c, .listing c.urls)
  | .query path => (c, .stream (c.urls.lookup path))
  | .count => (c, .size c.urls.keys.card)
  | .unknown => (c, .missing)

/-! The request for a call. A member of the body stands where the handlers find it, and
brings no control byte that jsonEscape does not know. -/

structure Object (body : Bytes) (members : Members) : Prop where
  document : Document body (.object members)
  distinct : (members.map Prod.fst).Nodup

structure Member (body : Bytes) (members : Members) (key : String) (value : Bytes) : Prop where
  inside : (ascii key, .string value) ∈ members
  found : JsonBodies.Reads body members (ascii key)
  legible : Escapable value

-- DELETE takes the path as it stands.
inductive Asks (req : HttpRequest) : Call → Prop where
  | add {members path url} (method : req.method = ascii "POST") (resource : req.path = ascii "/api/streams")
      (object : Object req.body members) (named : Member req.body members "path" path)
      (pulled : Member req.body members "upstream" url) : Asks req (.add path url)
  | remove {members path} (method : req.method = ascii "DELETE") (resource : req.path = ascii "/api/streams")
      (object : Object req.body members) (named : Member req.body members "path" path)
      (slash : path.head? = some 47) : Asks req (.remove path)
  | list (method : req.method = ascii "GET") (resource : req.path = ascii "/api/streams") : Asks req .list
  | query {path} (method : req.method = ascii "GET") (resource : req.path = ascii "/api/streams" ++ path)
      (slash : path.head? = some 47) : Asks req (.query path)
  | count (method : req.method = ascii "GET") (resource : req.path = ascii "/api/stats") : Asks req .count
  | unknown (away : ¬ Under (ascii "/api/streams") req.path ∧ ¬ Under (ascii "/api/stats") req.path)
      (bare : (63 : UInt8) ∉ req.path) : Asks req .unknown

/-! The answer that tells a verdict. What a query is answered is left open. -/

def Complains (body : Bytes) : Prop :=
  ∃ members text, Document body (.object members) ∧ (ascii "error", .string text) ∈ members

def Confirms (body : Bytes) (members : Members) : Prop :=
  Document body (.object members) ∧ (ascii "code", .number (0 : Nat)) ∈ members

def Tells (body : Bytes) (data : Members) : Prop :=
  ∃ members, Confirms body members ∧ (ascii "data", .object data) ∈ members

def Entry (members : Members) (path url : Bytes) : Prop :=
  (ascii "path", .string path) ∈ members ∧ (ascii "upstream", .string url) ∈ members

-- The rows that the items spell are those of the catalog, each once.
structure Lists (items : List Value) (urls : Finmap (fun _ : Bytes => Bytes)) : Prop where
  rows : ∃ rows : List (Bytes × Bytes),
    List.Forall₂ (fun item row => ∃ members, item = .object members ∧ Entry members row.1 row.2) items rows ∧
      (rows.map Prod.fst).Nodup ∧ ∀ path url, (path, url) ∈ rows ↔ urls.lookup path = some url

def Conveys (rtspPort : UInt16) (resp : HttpResponse) : Verdict → Prop
  | .incomplete => resp.statusCode = 400 ∧ Complains resp.body
  | .refused => resp.statusCode = 409 ∧ Complains resp.body
  | .added path url => resp.statusCode = 201 ∧ ∃ data, Tells resp.body data ∧ Entry data path url ∧
    (ascii "proxy_url", .string (ascii "rtsp://<server_ip>:" ++ decimal rtspPort.toNat ++ path)) ∈ data
  | .missing => resp.statusCode = 404 ∧ Complains resp.body
  | .removed => resp.statusCode = 200 ∧ ∃ members, Confirms resp.body members
  | .listing urls => resp.statusCode = 200 ∧ ∃ data items, Tells resp.body data ∧
    (ascii "total", .number urls.keys.card) ∈ data ∧ (ascii "streams", .array items) ∈ data ∧ Lists items urls
  | .stream _ => True
  | .size n => resp.statusCode = 200 ∧ ∃ data, Tells resp.body data ∧ (ascii "stream_count", .number n) ∈ data

structure Represents (s : Relay) (c : Streams) : Prop where
  urls : ∀ path, c.urls.lookup path = upstreamAt s.manager path
  capacity : c.capacity = s.manager.maxSources
  legible : Registered s

/-! Bodies of answers. -/

theorem refusalComplains {text : String} (plain : Plain (ascii text)) : Complains (errorJson text) :=
  ⟨_, ascii text, errorText plain, List.mem_singleton.mpr rfl⟩

theorem removedConfirms : ∃ members, Confirms (ascii "\x7b\"code\":0,\"message\":\"stream removed\"\x7d") members := by
  have said : Plain (ascii "stream removed") := by decide
  have message := oneWritten (ascii "message") (by decide) (plainText said) noneWritten
  have object := objectText (oneWritten (ascii "code") (by decide) (numberText 0) message)
  have zero : decimal 0 = [48] := rfl
  exact ⟨_, textDocument (by simpa [zero, memberBytes, List.intercalate, ascii] using object), List.mem_cons_self⟩

theorem createdTells {path url proxy : Bytes} (path_ : Escapable path) (url_ : Escapable url)
    (proxy_ : Escapable proxy) : ∃ data, Tells (createdJson path url proxy) data ∧ Entry data path url ∧
      (ascii "proxy_url", .string proxy) ∈ data :=
  ⟨[(ascii "path", .string path), (ascii "upstream", .string url), (ascii "proxy_url", .string proxy)],
    ⟨_, ⟨createdText path_ url_ proxy_, List.mem_cons_self⟩, by simp⟩, ⟨by simp, by simp⟩, by simp⟩

theorem dataTells {data : Members} {t : Bytes} (text : Text (.value (.object data)) t) :
    Tells (ascii "\x7b\"code\":0,\"data\":" ++ t ++ ascii "\x7d") data :=
  ⟨_, ⟨textDocument (dataText text), List.mem_cons_self⟩, by simp⟩

theorem statsTells (n sinks : Nat) : Tells (ascii "\x7b\"code\":0,\"data\":\x7b\"stream_count\":" ++
    decimal n ++ ascii ",\"total_sinks\":" ++ decimal sinks ++ ascii "\x7d\x7d")
    [(ascii "stream_count", .number n), (ascii "total_sinks", .number sinks)] := by
  have last := oneWritten (ascii "total_sinks") (by decide) (numberText sinks) noneWritten
  have object := objectText (oneWritten (ascii "stream_count") (by decide) (numberText n) last)
  have tells := dataTells object
  simpa [memberBytes, List.intercalate, ascii] using tells

theorem listTells {infos : List StreamInfo} (known : ∀ info ∈ infos, EscapableInfo info) :
    Tells (listJson infos)
      [(ascii "total", .number infos.length), (ascii "streams", .array (infos.map infoValue))] :=
  ⟨_, ⟨textDocument (listText known), List.mem_cons_self⟩, by simp⟩

theorem hintComplains (s : Relay) (req : HttpRequest) : Complains (notFound s req {}).2.body := by
  have hint : Plain (ascii "available: POST /api/streams, DELETE /api/streams, GET /api/streams, GET /api/streams/<path>, GET /api/stats") := by
    decide +kernel
  have absent : Plain (ascii "not found") := by decide
  have last := oneWritten (ascii "hint") (by decide) (plainText hint) noneWritten
  have object := objectText (oneWritten (ascii "error") (by decide) (plainText absent) last)
  exact ⟨_, ascii "not found", textDocument (by
    simpa [notFound, HttpResponse.setJson, memberBytes, List.intercalate, ascii] using object), by simp [ascii]⟩

/-! A relay that represents a catalog answers as it does. -/

theorem rootedLegible {path : Bytes} (legible : Escapable path) : Escapable (rooted path) := by
  unfold rooted
  split
  · exact legible
  · exact List.forall_mem_cons.mpr ⟨by decide, legible⟩

variable {order : StreamOrder} {rtspPort : UInt16} {out : Outside}

section
variable {s : Relay} {c : Streams} (h : Represents s c)
include h

theorem memberHas (path : Bytes) : path ∈ c.urls ↔ s.manager.hasStream path = true := by
  rw [← Finmap.lookup_isSome, h.urls, upstreamAt, Option.isSome_map, RelayManager.hasStream]

theorem sizeCount : c.urls.keys.card = s.manager.streams.entries.length := by
  have keys : c.urls.keys = s.manager.streams.keys.toFinset := by
    ext path
    rw [Finmap.mem_keys, memberHas h, RelayManager.hasStream, AList.lookup_isSome, AList.mem_keys, List.mem_toFinset]
  rw [keys, List.toFinset_card_of_nodup s.manager.streams.keys_nodup]
  exact List.length_map _

theorem fullRefused (path url : Bytes) (i : SourceId) :
    (path ∈ c.urls ∨ c.capacity ≤ c.urls.keys.card) ↔ s.manager.addStream path url i = none := by
  rw [memberHas h, sizeCount h, h.capacity]
  unfold RelayManager.addStream
  split
  · rename_i present
    exact iff_of_true (.inl present) rfl
  · rename_i absent
    split
    · rename_i reached
      exact iff_of_true (.inr reached) rfl
    · rename_i room
      exact iff_of_false (not_or.mpr ⟨absent, room⟩) nofun

theorem addedRepresents {path url : Bytes} {i : SourceId} {after : Relay}
    (added : s.manager.addStream path url i = some after.manager) (legible : Registered after) :
    Represents after { c with urls := c.urls.insert path url } := by
  have capacity : after.manager.maxSources = s.manager.maxSources := by
    unfold RelayManager.addStream at added
    split at added
    · contradiction
    · split at added
      · contradiction
      · rw [← Option.some.inj added]
  refine ⟨fun other => ?_, h.capacity.trans capacity.symm, legible⟩
  rw [upstreamAt, (RelayManager.addStreamFresh added).2]
  rcases eq_or_ne other path with rfl | differ
  · rw [Finmap.lookup_insert, AList.lookup_insert]
    rfl
  · rw [Finmap.lookup_insert_of_ne _ differ, AList.lookup_insert_ne differ, h.urls, upstreamAt]

theorem removedRepresents {path : Bytes} {i : SourceId} {after : Relay}
    (removed : s.manager.removeStream path = some (i, after.manager)) (legible : Registered after) :
    Represents after { c with urls := c.urls.erase path } := by
  have capacity : after.manager.maxSources = s.manager.maxSources := by
    unfold RelayManager.removeStream at removed
    split at removed
    · contradiction
    · exact (congrArg (fun out => RelayManager.maxSources out.2) (Option.some.inj removed)).symm
  refine ⟨fun other => ?_, h.capacity.trans capacity.symm, legible⟩
  rw [upstreamAt, (RelayManager.removeStreamErases removed).2]
  rcases eq_or_ne other path with rfl | differ
  · rw [Finmap.lookup_erase, AList.lookup_erase]
    rfl
  · rw [Finmap.lookup_erase_ne differ, AList.lookup_erase_ne differ, h.urls, upstreamAt]

theorem addRefines {req : HttpRequest} {path url : Bytes} (read : extractStringValue req.body (ascii "path") = path)
    (read' : extractStringValue req.body (ascii "upstream") = url) (path_ : Escapable path) (url_ : Escapable url) :
    Represents (postStream rtspPort out s req {}).1 (answer c (.add path url)).1 ∧
      Conveys rtspPort (postStream rtspPort out s req {}).2 (answer c (.add path url)).2 := by
  have known : Escapable (postedPath req.body) ∧ Escapable (postedUrl req.body) := by
    rw [postedPath, postedUrl, read, read']
    exact ⟨rootedLegible path_, url_⟩
  have registered : Registered (postStream rtspPort out s req {}).1 := postRegistered h.legible fun _ => known
  revert registered
  unfold postStream answer
  dsimp only
  rw [read, read']
  split
  · exact fun _ => ⟨h, rfl, refusalComplains (by decide)⟩
  · have full : (rooted path ∈ c.urls ∨ c.capacity ≤ c.urls.keys.card) ↔ _ :=
      fullRefused h (withSlash path) url s.nextSource
    cases added : s.manager.addStream (withSlash path) url s.nextSource with
    | none =>
      intro _
      rw [if_pos (full.mpr added)]
      exact ⟨h, rfl, refusalComplains (by decide)⟩
    | some m =>
      intro registered
      have room : ¬ (rooted path ∈ c.urls ∨ c.capacity ≤ c.urls.keys.card) := fun reached => by
        have refused := full.mp reached
        rw [added] at refused
        contradiction
      have host : ascii "rtsp://" ++ ascii "<server_ip>" ++ ascii ":" = ascii "rtsp://<server_ip>:" := by decide
      have rest := createdTells (rootedLegible path_) url_ (proxyEscapable (rootedLegible path_) rtspPort)
      rw [if_neg room]
      rw [proxyUrl, host] at rest
      exact ⟨addedRepresents h (added.trans (congrArg some (addStreamManager added out).symm)) registered, rfl, rest⟩

theorem removeRefines {req : HttpRequest} {path : Bytes} (read : deletedPath req = path)
    (slash : path.head? = some 47) : Represents (deleteStream out s req {}).1 (answer c (.remove path)).1 ∧
      Conveys rtspPort (deleteStream out s req {}).2 (answer c (.remove path)).2 := by
  have named : path ≠ [] := fun empty => by
    rw [empty] at slash
    contradiction
  have registered : Registered (deleteStream out s req {}).1 := deleteRegistered h.legible
  have same : rooted path = path := if_pos slash
  have present := memberHas h path
  revert registered
  unfold deleteStream answer
  dsimp only
  rw [read, same, if_neg named]
  cases removed : s.manager.removeStream path with
  | none =>
    intro _
    have absent : s.manager.hasStream path = false := by
      unfold RelayManager.removeStream at removed
      unfold RelayManager.hasStream
      split at removed
      · rename_i missing
        rw [missing]
        rfl
      · contradiction
    rw [if_neg (by rw [present, absent]; exact Bool.false_ne_true)]
    exact ⟨h, rfl, refusalComplains (by decide)⟩
  | some taken =>
    obtain ⟨i, m⟩ := taken
    intro registered
    have erased : s.manager.removeStream path = some (i, (s.removeStream path out.writes).manager) := by
      rw [removed, removeStreamManager removed out]
    rw [if_pos (present.mpr (RelayManager.removeStreamErases removed).1)]
    exact ⟨removedRepresents h erased registered, rfl, removedConfirms⟩

theorem listRefines (req : HttpRequest) : Conveys rtspPort (listStreams order s req {}).2 (.listing c.urls) := by
  have infos := allPermuted order s
  have paths : ((getAllStreamInfo order s).map StreamInfo.streamPath).Perm s.manager.streams.keys := by
    have mapped := infos.map StreamInfo.streamPath
    rwa [List.map_map] at mapped
  have total : (getAllStreamInfo order s).length = c.urls.keys.card := by
    rw [sizeCount h, infos.length_eq, List.length_map]
  refine ⟨rfl, _, (getAllStreamInfo order s).map infoValue, listTells (allEscapable h.legible order),
    by simp [total], by simp, ?_⟩
  refine ⟨(getAllStreamInfo order s).map fun info => (info.streamPath, info.upstreamUrl), ?_, ?_, fun path url => ?_⟩
  · rw [List.forall₂_map_left_iff, List.forall₂_map_right_iff, List.forall₂_same]
    exact fun info _ => ⟨_, rfl, by simp, by simp⟩
  · rw [List.map_map]
    exact paths.nodup_iff.mpr s.manager.streams.keys_nodup
  · rw [h.urls, upstreamAt]
    constructor
    · intro row
      obtain ⟨info, inside, same⟩ := List.mem_map.mp row
      obtain ⟨e, there, rfl⟩ := List.mem_map.mp (infos.mem_iff.mp inside)
      obtain ⟨rfl, rfl⟩ := Prod.mk.inj same
      exact congrArg (Option.map StreamRelay.upstreamUrl) (AList.mem_lookup_iff.mpr there)
    · intro found
      obtain ⟨relay, there, rfl⟩ := Option.map_eq_some_iff.mp found
      have entry := AList.mem_lookup_iff.mp there
      exact List.mem_map.mpr ⟨streamInfo s path relay, infos.mem_iff.mpr (List.mem_map.mpr ⟨_, entry, rfl⟩), rfl⟩

theorem countRefines (req : HttpRequest) : Conveys rtspPort (stats s req {}).2 (.size c.urls.keys.card) := by
  rw [sizeCount h]
  exact ⟨rfl, _, statsTells _ _, List.mem_cons_self⟩

/-! Whatever call a request asks. -/
theorem httpRefines {req : HttpRequest} {call : Call} (asks : Asks req call) :
    Represents (api order rtspPort out s req).1 (answer c call).1 ∧
      Conveys rtspPort (api order rtspPort out s req).2 (answer c call).2 := by
  have posted : ascii "POST" ≠ ascii "GET" ∧ ascii "POST" ≠ ascii "DELETE" ∧ ascii "DELETE" ≠ ascii "GET" := by decide
  rw [endpointReached, endpointOf]
  cases asks with
  | add method resource object named pulled =>
    rw [if_pos ⟨method, .inl resource⟩]
    exact addRefines h ((memberRead object.document object.distinct named.inside).mpr named.found)
      ((memberRead object.document object.distinct pulled.inside).mpr pulled.found) named.legible pulled.legible
  | @remove members path method resource object named slash =>
    have read := (memberRead object.document object.distinct named.inside).mpr named.found
    have some_ : extractStringValue req.body (ascii "path") ≠ [] := fun empty => by
      rw [read] at empty
      rw [empty] at slash
      contradiction
    rw [method, if_neg fun post => posted.2.1 post.1.symm, if_pos ⟨rfl, .inl resource⟩]
    exact removeRefines h ((if_neg some_).trans read) slash
  | list method resource =>
    rw [method, if_neg fun post => posted.1 post.1.symm, if_neg fun delete => posted.2.2 delete.1.symm,
      if_pos ⟨rfl, .inl resource⟩]
    exact ⟨h, listRefines h req⟩
  | @query path method resource slash =>
    have under : Under (ascii "/api/streams") req.path := (underPrefix _ _).mpr ⟨path, resource, .inr slash⟩
    rw [method, if_neg fun post => posted.1 post.1.symm, if_neg fun delete => posted.2.2 delete.1.symm,
      if_pos ⟨rfl, under⟩]
    exact ⟨h, trivial⟩
  | count method resource =>
    have away : ¬ Under (ascii "/api/streams") (ascii "/api/stats") := by decide
    rw [method, resource, if_neg fun post => away post.2, if_neg fun delete => away delete.2,
      if_neg fun list => away list.2, if_pos ⟨rfl, .inl rfl⟩]
    exact ⟨h, countRefines h req⟩
  | unknown away bare =>
    rw [if_neg fun post => away.1 post.2, if_neg fun delete => away.1 delete.2, if_neg fun list => away.1 list.2,
      if_neg fun count => away.2 count.2]
    exact ⟨h, rfl, hintComplains s req⟩
end

/-! What else happens leaves the streams as they are. -/

def Streamless : Service.Input → Prop
  | .addStream _ _ _ _ | .removeStream _ _ => False
  | .request _ _ _ | .lost _ | .source _ _ => True

theorem representsSame {s after : Relay} {c : Streams} (h : Represents s c)
    (urls : upstreamAt after.manager = upstreamAt s.manager)
    (maxSources : after.manager.maxSources = s.manager.maxSources) : Represents after c :=
  ⟨fun path => by rw [h.urls, urls], h.capacity.trans maxSources.symm, sameRegistered h.legible urls⟩

theorem closeMax (m : RelayManager) (self : SessionId) (session : RtspSession) :
    (close m self session).1.maxSources = m.maxSources := by
  unfold close
  split
  · rfl
  · dsimp only
    split
    · exact removeSinkMax m _ self
    · rfl

theorem requestMax (s : Relay) (self : SessionId) (req : RtspMessage) (udp : UdpAnswers) :
    (s.step (.request self req udp)).manager.maxSources = s.manager.maxSources := by
  simp only [Relay.step, Relay.request, Relay.setSession]
  cases kind : role req with
  | other => rw [(otherHandled kind).1]; rfl
  | move => rw [(moveHandled kind).1]; rfl
  | play => rw [playHandled kind]; exact addSinkMax _ _ self
  | teardown => rw [teardownHandled kind]; exact closeMax _ self _

theorem inputRepresents {s : Relay} {c : Streams} {input : Service.Input} (h : Represents s c)
    (streamless : Streamless input) : Represents (s.step input) c := by
  cases input with
  | addStream | removeStream => exact streamless.elim
  | request self req udp => exact representsSame h (requestUpstream s self req udp) (requestMax s self req udp)
  | lost self => exact representsSame h (closeUpstream _ self _) (closeMax _ self _)
  | source i input => exact representsSame h rfl rfl

theorem inputsRepresent {s : Relay} {c : Streams} {inputs : List Service.Input} (h : Represents s c)
    (streamless : ∀ input ∈ inputs, Streamless input) : Represents (run Relay.step s inputs) c :=
  runAlong (I := fun s => Represents s c) (fun _ _ h streamless => inputRepresents h streamless) h
    (throughoutAll streamless s)

/-! A run of the program: the calls of the requests carried out, in their order. -/

abbrev Recorded (rtspPort : UInt16) (maxSources : Nat) : Relay → List Executed → Prop :=
  Records answer Represents (fun e call => Asks e.request call) (fun e verdict => Conveys rtspPort e.response verdict)
    ⟨∅, maxSources⟩

variable {maxSources : Nat}

theorem executedRecorded {s : Relay} {executed : List Executed} (h : Recorded rtspPort maxSources s executed)
    (client : Client) (req : HttpRequest) : Recorded rtspPort maxSources (api order rtspPort out s req).1
      (executed ++ [⟨client, req, (api order rtspPort out s req).2⟩]) :=
  recordsNext h fun _ _ represents asks => httpRefines represents asks

theorem servedRecorded (client : Client) (outside : Nat → Outside) (reqs : List HttpRequest) {before : List Executed}
    {acc : Relay × List Executed} (h : Recorded rtspPort maxSources acc.1 (before ++ acc.2)) :
    Recorded rtspPort maxSources (reqs.foldl (Program.dispatch order rtspPort client outside) acc).1
      (before ++ (reqs.foldl (Program.dispatch order rtspPort client outside) acc).2) := by
  induction reqs generalizing acc with
  | nil => exact h
  | cons req rest ih =>
    refine ih ?_
    rw [Program.dispatch, ← List.append_assoc]
    exact executedRecorded h client req

theorem stepRecorded {p : Process} (h : Recorded rtspPort maxSources p.relay p.executed) (event : Event) :
    Recorded rtspPort maxSources (p.step order rtspPort event).relay (p.step order rtspPort event).executed := by
  have others {after : Process} (inputs : List Service.Input) (executed : after.executed = p.executed)
      (relay : after.relay = run Relay.step p.relay inputs) (streamless : ∀ input ∈ inputs, Streamless input) :
      Recorded rtspPort maxSources after.relay after.executed := by
    rw [executed, relay]
    exact recordsStill h fun _ represents => inputsRepresent represents streamless
  cases running : p.fault with
  | true => rwa [stepFaulted running]
  | false =>
    rw [stepRunning running]
    cases event with
    | player self chunk udp =>
      have played := onPlayerPlays p self chunk udp
      refine others _ played.executed played.relay fun input inside => ?_
      obtain ⟨_, _, rfl⟩ := askedRequests self udp 0 _ input inside
      trivial
    | lost self => exact others [.lost self] rfl rfl (List.forall_mem_singleton.mpr trivial)
    | http client chunk outside =>
      have served := onHttpServes order rtspPort p client chunk outside
      have start : Recorded rtspPort maxSources p.relay (p.executed ++ []) := by rwa [List.append_nil]
      dsimp only
      rw [served.relay, served.executed]
      exact servedRecorded client outside _ start
    | source i input =>
      dsimp only
      unfold Process.onSource
      split
      · exact others [] rfl rfl (List.forall_mem_nil _)
      · exact others [.source i input] rfl rfl (List.forall_mem_singleton.mpr trivial)

def camText : Bytes := ascii "POST /api/streams HTTP/1.1\r\nContent-Length: 48\r\n\r\n" ++
  JsonBodies.twoMembers (ascii "/cam") JsonBodies.camUrl ++ ascii "GET /api/streams HTTP/1.1\r\n\r\n"

def camRun : Process := run (Process.step oldestFirst 8554)
  (Process.start 500 (fun _ => ⟨ascii "10.0.0.7:5000", ascii "00000001"⟩) Protocol.insertionOrder)
  [.http 0 camText fun _ => ApiRequests.offline]

def camCalls : List Call := [.add (ascii "/cam") JsonBodies.camUrl, .list]

theorem camAsked : List.Forall₂ (fun e call => Asks e.request call) camRun.executed camCalls := by
  have read : camRun.executed.map (fun e => (e.request.method, e.request.path, e.request.body)) =
      [(ascii "POST", ascii "/api/streams", JsonBodies.twoMembers (ascii "/cam") JsonBodies.camUrl),
        (ascii "GET", ascii "/api/streams", [])] := by decide +kernel
  obtain ⟨path, url⟩ := JsonBodies.plainCam
  have placed := JsonBodies.pathPlaced (plainChars path) (plainChars url)
  have placed' := JsonBodies.upstreamPlaced (plainChars path) (plainChars url)
  have document := JsonBodies.twoDocument (plainChars path) (plainChars url)
  rw [decodedBytes, decodedBytes] at placed placed' document
  obtain ⟨post, rest, executed, first, read⟩ := List.map_eq_cons_iff.mp read
  obtain ⟨get, rest', rfl, second, read⟩ := List.map_eq_cons_iff.mp read
  obtain rfl := List.map_eq_nil_iff.mp read
  rw [executed]
  simp only [Prod.mk.injEq] at first second
  obtain ⟨method, resource, body⟩ := first
  have object : Object post.request.body (JsonBodies.membersOf (ascii "/cam") JsonBodies.camUrl) :=
    ⟨body ▸ document, by decide⟩
  refine .cons (.add method resource object ?_ ?_) (.cons (.list second.1 second.2.1) .nil)
  · exact ⟨List.mem_cons_self, body ▸ ⟨_, _, _, _, placed, .inl (by decide)⟩, by decide⟩
  · exact ⟨List.mem_cons_of_mem _ List.mem_cons_self, body ▸ ⟨_, _, _, _, placed', .inl (by decide)⟩, by decide⟩

end RtspRelay.Catalog
