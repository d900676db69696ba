import RtspRelay.Routing
import RtspRelay.Service

/-! The HTTP API over the relay: the handlers that registerHttpRoutes installs, in
its order. A handler that adds or removes a stream is given what the connect and the
writes of the stream's source will answer. -/
namespace RtspRelay.StreamApi
open Machine ByteSearch Manager Service Routing
open HttpMessage (HttpRequest)
open Source (ConnectResult sourceStateToString)
open Connection (WriteResult)

structure StreamInfo where
  streamPath : Bytes
  upstreamUrl : Bytes
  sourceState : Bytes
  sinkCount : Nat
  sdp : Bytes
  hasSdp : Bool
  deriving DecidableEq, Repr

-- A possible iteration order of the stream map.
structure StreamOrder where
  list : AList (fun _ : Bytes => StreamRelay) → List (Bytes × StreamRelay)
  permutes : ∀ streams, (list streams).Perm (streams.entries.map fun e => (e.1, e.2))

def oldestFirst : StreamOrder := ⟨fun streams => streams.entries.map fun e => (e.1, e.2), fun _ => .refl _⟩

structure Outside where
  connect : ConnectResult
  writes : List WriteResult

def streamInfo (s : Relay) (path : Bytes) (relay : StreamRelay) : StreamInfo :=
  let sdp := s.sdp relay.source
  ⟨path, relay.upstreamUrl, sourceStateToString (s.sources relay.source).source.state,
    relay.sinks.length, sdp, !sdp.isEmpty⟩

def getStreamInfo (s : Relay) (path : Bytes) : Option StreamInfo :=
  (s.manager.streams.lookup path).map (streamInfo s path)

def getAllStreamInfo (order : StreamOrder) (s : Relay) : List StreamInfo :=
  (order.list s.manager.streams).map fun entry => streamInfo s entry.1 entry.2

/-! JSON by hand. -/

def escapeChar (c : UInt8) : Bytes :=
  if c = 34 then [92, 34]
  else if c = 92 then [92, 92]
  else if c = 10 then [92, 110]
  else if c = 13 then [92, 114]
  else if c = 9 then [92, 116]
  else [c]

def jsonEscape (s : Bytes) : Bytes := s.flatMap escapeChar

-- The text between the quotes of the first string behind the key's first colon.
def extractStringValue (json key : Bytes) : Bytes :=
  let pattern := ascii "\"" ++ key ++ ascii "\""
  let value := do
    let pos ← find pattern json
    let colon ← findFrom [58] json (pos + pattern.length)
    let valStart ← findFrom [34] json (colon + 1)
    let valEnd ← findFrom [34] json (valStart + 1)
    some ((json.drop (valStart + 1)).take (valEnd - valStart - 1))
  value.getD []

def errorJson (text : String) : Bytes := ascii "\x7b\"error\":\"" ++ ascii text ++ ascii "\"\x7d"

def infoMembers (info : StreamInfo) : Bytes :=
  ascii "\"path\":\"" ++ jsonEscape info.streamPath ++ ascii "\"," ++
  ascii "\"upstream\":\"" ++ jsonEscape info.upstreamUrl ++ ascii "\"," ++
  ascii "\"source_state\":\"" ++ jsonEscape info.sourceState ++ ascii "\"," ++
  ascii "\"sink_count\":" ++ decimal info.sinkCount ++ ascii "," ++
  ascii "\"has_sdp\":" ++ (if info.hasSdp then ascii "true" else ascii "false")

def listJson (infos : List StreamInfo) : Bytes :=
  ascii "\x7b\"code\":0,\"data\":\x7b\"total\":" ++ decimal infos.length ++ ascii ",\"streams\":[" ++
  (ascii ",").intercalate (infos.map fun info => ascii "\x7b" ++ infoMembers info ++ ascii "\x7d") ++
  ascii "]\x7d\x7d"

def streamJson (info : StreamInfo) : Bytes :=
  ascii "\x7b\"code\":0,\"data\":\x7b" ++ infoMembers info ++ ascii "\x7d\x7d"

def createdJson (path upstream proxyUrl : Bytes) : Bytes :=
  ascii "\x7b\"code\":0,\"message\":\"stream added\",\"data\":\x7b" ++
  ascii "\"path\":\"" ++ jsonEscape path ++ ascii "\"," ++
  ascii "\"upstream\":\"" ++ jsonEscape upstream ++ ascii "\"," ++
  ascii "\"proxy_url\":\"" ++ jsonEscape proxyUrl ++ ascii "\"\x7d\x7d"

def withSlash (path : Bytes) : Bytes := if path.head? = some 47 then path else 47 :: path

-- The response has "<server_ip>" in the place of the host.
def proxyUrl (host : Bytes) (rtspPort : UInt16) (path : Bytes) : Bytes :=
  ascii "rtsp://" ++ host ++ ascii ":" ++ decimal rtspPort.toNat ++ path

/-! The handlers. -/

def postStream (rtspPort : UInt16) (out : Outside) : Handler Relay := fun s req resp =>
  let path := extractStringValue req.body (ascii "path")
  let upstream := extractStringValue req.body (ascii "upstream")
  if path = [] ∨ upstream = [] then
    (s, (resp.setStatus 400 (ascii "Bad Request")).setJson
      (errorJson "missing 'path' or 'upstream' field"))
  else
    let path := withSlash path
    match s.manager.addStream path upstream s.nextSource with
    | none => (s, (resp.setStatus 409 (ascii "Conflict")).setJson
        (errorJson "stream already exists or max sources reached"))
    | some _ => (s.addStream path upstream out.connect out.writes,
        (resp.setStatus 201 (ascii "Created")).setJson
          (createdJson path upstream (proxyUrl (ascii "<server_ip>") rtspPort path)))

def deletedPath (req : HttpRequest) : Bytes :=
  let path := extractStringValue req.body (ascii "path")
  if path = [] then
    match find (ascii "?path=") req.path with
    | some qpos => req.path.drop (qpos + 6)
    | none => []
  else path

def deleteStream (out : Outside) : Handler Relay := fun s req resp =>
  let path := deletedPath req
  if path = [] then
    (s, (resp.setStatus 400 (ascii "Bad Request")).setJson (errorJson "missing 'path' field"))
  else match s.manager.removeStream path with
    | none => (s, (resp.setStatus 404 (ascii "Not Found")).setJson (errorJson "stream not found"))
    | some _ => (s.removeStream path out.writes,
        resp.setJson (ascii "\x7b\"code\":0,\"message\":\"stream removed\"\x7d"))

def listStreams (order : StreamOrder) : Handler Relay := fun s _ resp =>
  (s, resp.setJson (listJson (getAllStreamInfo order s)))

def oneStream (order : StreamOrder) : Handler Relay := fun s req resp =>
  let streamPath := req.path.drop (ascii "/api/streams").length
  if streamPath = [] then listStreams order s req resp
  else match getStreamInfo s (withSlash streamPath) with
    | none => (s, (resp.setStatus 404 (ascii "Not Found")).setJson (errorJson "stream not found"))
    | some info => (s, resp.setJson (streamJson info))

def stats : Handler Relay := fun s _ resp =>
  (s, resp.setJson (ascii "\x7b\"code\":0,\"data\":\x7b\"stream_count\":" ++
    decimal s.manager.streamCount ++ ascii ",\"total_sinks\":" ++ decimal s.manager.totalSinks ++
    ascii "\x7d\x7d"))

def notFound : Handler Relay := fun s _ resp =>
  (s, (resp.setStatus 404 (ascii "Not Found")).setJson
    (ascii "\x7b\"error\":\"not found\",\"hint\":\"available: POST /api/streams, DELETE /api/streams, GET /api/streams, GET /api/streams/<path>, GET /api/stats\"\x7d"))

def registerHttpRoutes (order : StreamOrder) (rtspPort : UInt16) (out : Outside) : HttpServer Relay :=
  HttpServer.empty
    |>.route (ascii "POST") (ascii "/api/streams") (postStream rtspPort out)
    |>.route (ascii "DELETE") (ascii "/api/streams") (deleteStream out)
    |>.route (ascii "GET") (ascii "/api/streams") (listStreams order)
    |>.route (ascii "GET") (ascii "/api/streams/") (oneStream order)
    |>.route (ascii "GET") (ascii "/api/stats") stats
    |>.setDefaultHandler notFound

/-! The outcomes of the two handlers that change the map. -/

def postedPath (b : Bytes) : Bytes := withSlash (extractStringValue b (ascii "path"))

def postedUrl (b : Bytes) : Bytes := extractStringValue b (ascii "upstream")

structure Created (s : Relay) (b : Bytes) (rtspPort : UInt16) (answer : Relay × HttpResponse) : Prop where
  named : extractStringValue b (ascii "path") ≠ [] ∧ extractStringValue b (ascii "upstream") ≠ []
  added : s.manager.addStream (postedPath b) (extractStringValue b (ascii "upstream")) s.nextSource =
    some answer.1.manager
  body : answer.2.body = createdJson (postedPath b) (extractStringValue b (ascii "upstream"))
    (proxyUrl (ascii "<server_ip>") rtspPort (postedPath b))

theorem addStreamManager {s : Relay} {path url : Bytes} {m : RelayManager}
    (added : s.manager.addStream path url s.nextSource = some m) (out : Outside) :
    (s.addStream path url out.connect out.writes).manager = m := by
  rw [Relay.addStream, added]
  rfl

theorem postOutcome (s : Relay) (req : HttpRequest) (rtspPort : UInt16) (out : Outside) :
    ((postStream rtspPort out s req {}).1 = s ∧ ((postStream rtspPort out s req {}).2.statusCode = 400 ∨
      (postStream rtspPort out s req {}).2.statusCode = 409)) ∨
    ((postStream rtspPort out s req {}).2.statusCode = 201 ∧
      Created s req.body rtspPort (postStream rtspPort out s req {})) := by
  unfold postStream
  dsimp only
  split
  · exact .inl ⟨rfl, .inl rfl⟩
  · rename_i named
    split
    · exact .inl ⟨rfl, .inr rfl⟩
    · rename_i m added
      exact .inr ⟨rfl, not_or.mp named, added.trans (congrArg some (addStreamManager added out).symm), rfl⟩

theorem removeStreamManager {s : Relay} {path : Bytes} {i : SourceId} {m : RelayManager}
    (removed : s.manager.removeStream path = some (i, m)) (out : Outside) :
    (s.removeStream path out.writes).manager = m := by
  rw [Relay.removeStream, removed]
  rfl

theorem deleteOutcome (s : Relay) {req : HttpRequest} {path : Bytes} (named : deletedPath req = path)
    (some_ : path ≠ []) (out : Outside) :
    (s.manager.hasStream path = false ∧ (deleteStream out s req {}).2.statusCode = 404 ∧
      (deleteStream out s req {}).1 = s) ∨
    (s.manager.hasStream path = true ∧ (deleteStream out s req {}).2.statusCode = 200 ∧
      ∃ i, s.manager.removeStream path = some (i, (deleteStream out s req {}).1.manager)) := by
  unfold deleteStream
  dsimp only
  rw [named, if_neg some_]
  split
  · rename_i absent
    refine .inl ⟨?_, rfl, rfl⟩
    unfold RelayManager.removeStream at absent
    unfold RelayManager.hasStream
    split at absent
    · rename_i none
      rw [none]
      rfl
    · contradiction
  · rename_i taken removed
    obtain ⟨i, m⟩ := taken
    refine .inr ⟨(RelayManager.removeStreamErases removed).1, rfl, i, ?_⟩
    rw [removed, removeStreamManager removed out]

end RtspRelay.StreamApi
