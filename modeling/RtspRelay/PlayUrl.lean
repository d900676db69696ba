import RtspRelay.Answers
import RtspRelay.ApiRequests
import RtspRelay.RequestLine

/-! The proxy_url of a stream as a player sends it back: whether the DESCRIBE of that
URL, once decoded, looks up the stream's path. The path is taken from the body of the
POST as it is, so it may hold a space or the end of a line. -/
namespace RtspRelay.PlayUrl
open Machine Buffer ByteSearch MessageText MessageFraming Protocol PrintedText RoundTrip RequestLine
open Manager Session Service Routing StreamApi ApiRequests
open HttpMessage (HttpRequest)
open Answers (Env)

-- The other header lines of a player's DESCRIBE, which has no body.
structure RequestFields where
  lines : List (Bytes × Bytes)
  text : ∀ f ∈ lines, FieldText f
  noBody : ∀ f ∈ lines, f.1 ≠ ascii "Content-Length"

def requestLine (url : Bytes) : Bytes := ascii "DESCRIBE" ++ ascii " " ++ url ++ ascii " " ++ ascii "RTSP/1.0"

def describeText (url : Bytes) (fields : RequestFields) : Bytes := requestLine url ++ closed fields.lines

-- What a session answers a DESCRIBE when the manager has given it `sdp`.
def describeAnswer (s : RtspSession) (req : RtspMessage) (sdp : Bytes) : RtspMessage :=
  if sdp = [] then errorResponse req.cseq 404 (ascii "Stream Not Found")
  else (describeResponse req.cseq sdp s.sessionId).set "Content-Base" (req.url ++ ascii "/")

structure LooksUp (env : Env) (player : SessionId) (s : RtspSession) (p : Bytes) (req : RtspMessage) :
    Prop where
  path : (processRequest env.sdp env.udp env.manager player s req).session.streamPath = p
  answer : (processRequest env.sdp env.udp env.manager player s req).response =
    some (describeAnswer s req (env.manager.getStreamSdp env.sdp p))

def DecodesTo (env : Env) (player : SessionId) (s : RtspSession) (p : Bytes) (buf : ByteBuffer) : Prop :=
  ∃ out, Protocol.parse buf = .ok out ∧ out.ok = true ∧ LooksUp env player s p out.msg

theorem lineFreshOf {url : Bytes} (plain : find crlf url = none) : find crlf (requestLine url) = none :=
  partsWhole (by decide) plain (by decide)

/-! The path behind the host. -/

theorem proxyPath {host p : Bytes} (bare : (47 : UInt8) ∉ host) (port : UInt16)
    (slash : p.head? = some 47) : extractStreamPath (proxyUrl host port p) = p := by
  obtain ⟨rest, rfl⟩ : ∃ rest, p = 47 :: rest := List.head?_eq_some_iff.mp slash
  have shape : proxyUrl host port (47 :: rest) =
      ascii "rtsp://" ++ (host ++ ascii ":" ++ decimal port.toNat ++ 47 :: rest) := by
    simp only [proxyUrl, List.append_assoc]
  have authority : (47 : UInt8) ∉ host ++ ascii ":" ++ decimal port.toNat := by
    simp only [List.mem_append, not_or]
    exact ⟨⟨bare, by decide⟩, decimalFresh (by decide) _⟩
  have scheme : find (ascii "://") (proxyUrl host port (47 :: rest)) = some 4 := by
    rw [shape]
    rfl
  have behind : (proxyUrl host port (47 :: rest)).drop (4 + 3) =
      host ++ ascii ":" ++ decimal port.toNat ++ 47 :: rest := by
    rw [shape]
    rfl
  have found : findFrom [47] (proxyUrl host port (47 :: rest)) (4 + 3) =
      some ((host ++ ascii ":" ++ decimal port.toNat).length + (4 + 3)) := by
    rw [findFrom, behind, firstSplit authority]
    rfl
  rw [extractStreamPath, scheme]
  dsimp only
  rw [found]
  dsimp only
  rw [Nat.add_comm, ← List.drop_drop, behind, List.drop_left]

theorem pathMember {url : Bytes} {c : UInt8} (inside : c ∈ extractStreamPath url) : c ∈ url ∨ c = 47 := by
  unfold extractStreamPath at inside
  split at inside
  · exact .inl inside
  · split at inside
    · exact .inr (by simpa [ascii] using inside)
    · exact .inl (List.mem_of_mem_drop inside)

/-! A DESCRIBE is answered by the lookup of its URL's path. -/

theorem describeLooksUp (env : Env) (player : SessionId) (s : RtspSession) {req : RtspMessage}
    (kind : req.type = .request) (method : req.method = .describe) (p : Bytes) :
    LooksUp env player s p req ↔ extractStreamPath req.url = p := by
  have path : (processRequest env.sdp env.udp env.manager player s req).session.streamPath =
      extractStreamPath req.url := by
    rw [processRequest, if_pos kind, method, handleMethod, handleDescribe]
    dsimp only
    split <;> rfl
  refine ⟨fun looks => path.symm.trans looks.path, fun same => ⟨path.trans same, ?_⟩⟩
  rw [processRequest, if_pos kind, method, handleMethod, handleDescribe, ← same]
  dsimp only
  rw [describeAnswer]
  split <;> rfl

structure Decoded (url : Bytes) (msg : RtspMessage) : Prop where
  type : msg.type = .request
  method : msg.method = .describe
  url : msg.url = url

theorem requestDecoded {url : Bytes} {msg : RtspMessage} (h : RequestRead .describe url msg) :
    Decoded url msg := ⟨h.type, h.method, h.url⟩

section
variable {url : Bytes} {fields : RequestFields}

def behind (url : Bytes) (fields : RequestFields) : Bytes :=
  url ++ 32 :: (ascii "RTSP/1.0" ++ closed fields.lines)

theorem describeBehind :
    describeText url fields = methodToString .describe ++ 32 :: behind url fields := by
  have method : methodToString .describe = ascii "DESCRIBE" := rfl
  simp [describeText, requestLine, behind, method, ascii]

-- The header block that the parser cuts off holds the whole request line.
def LineRead (url : Bytes) (fields : RequestFields) : Prop :=
  ∃ header, block (describeText url fields) = .header header ∧ (requestLine url).length + 2 ≤ header.length

theorem decodedUrl {out : Parsed RtspMessage}
    (parsed : outcome rtspGrammar (describeText url fields) = .ok out) (ok : out.ok = true) :
    ∃ header u, Cut .describe (behind url fields) u header ∧ Decoded u out.msg := by
  rw [describeBehind] at parsed
  obtain ⟨header, u, cut, read⟩ := requestCut parsed ok
  exact ⟨header, u, cut, requestDecoded read⟩

theorem lineEnds (unbroken : find crlf url = none) :
    find crlf (describeText url fields) = some (requestLine url).length := by
  rw [describeText, closedLines, List.append_assoc]
  exact findPairAfter (by decide) (lineFreshOf unbroken) _

/-! A URL without a space is read as it is, and it has no end of a line. -/
theorem plainDecoded {out : Parsed RtspMessage} (plain : (32 : UInt8) ∉ url)
    (parsed : outcome rtspGrammar (describeText url fields) = .ok out) (ok : out.ok = true) :
    find crlf url = none ∧ LineRead url fields := by
  obtain ⟨header, u, cut, _⟩ := decodedUrl parsed ok
  obtain rfl : u = url := cutPlain plain cut
  have unbroken := (cutWhole cut).2
  obtain ⟨more, k, inside, first, _⟩ := cut.line
  have line : find crlf (describeText u fields) = some (requestLine u).length := lineEnds unbroken
  have text : methodToString .describe ++ 32 :: behind u fields =
      methodToString .describe ++ [32] ++ behind u fields := by simp
  rw [describeBehind, text, crlf, findAfter (by decide), ← crlf, first] at line
  have size : k + (methodToString .describe ++ [32]).length = (requestLine u).length := Option.some.inj line
  refine ⟨unbroken, header, ?_, by omega⟩
  rw [describeBehind]
  exact cut.shape

theorem declaresNothing {header : Bytes} (ended : find crlf header = some (requestLine url).length)
    (slice : header = (describeText url fields).take header.length) : declaredLength header = 0 := by
  have lines : MessageText.fields header <+: fields.lines := by
    have rest : header.drop ((requestLine url).length + 2) =
        ((closed fields.lines).drop 2).take (header.length - ((requestLine url).length + 2)) := by
      nth_rewrite 1 [slice]
      rw [List.drop_take, describeText, ← List.drop_drop, List.drop_left]
    rw [MessageText.fields, ended]
    dsimp only
    rw [rest]
    exact closedTaken (fun f inside => fieldLine (fields.text f inside)) _
  have absent : given (ascii "Content-Length") (MessageText.fields header) = none := by
    cases found : given (ascii "Content-Length") (MessageText.fields header) with
    | none => rfl
    | some val => exact absurd rfl (fields.noBody _ (lines.subset (givenMember found)))
  rw [declaredLength, contentLength, headerMap, givenInserted, absent]
  rfl

theorem lineDecoded (plain : (32 : UInt8) ∉ url) (unbroken : find crlf url = none)
    (read : LineRead url fields) : ∃ out, outcome rtspGrammar (describeText url fields) = .ok out ∧
      out.ok = true ∧ Decoded url out.msg := by
  obtain ⟨header, shape, reaches⟩ := read
  obtain ⟨slice, _, inside, _⟩ := blockHeader shape
  have ended : find crlf header = some (requestLine url).length := by
    rw [slice]
    exact findTake (lineEnds unbroken) (by simpa [crlf] using reaches)
  have first : header.take (requestLine url).length = requestLine url := by
    rw [slice, List.take_take, Nat.min_eq_left (by omega), describeText, List.take_left]
  obtain ⟨started, read⟩ : (head rtspGrammar header).1 = true ∧
      RequestRead .describe url (head rtspGrammar header).2 := headRequest ended first plain
  have decoded := requestDecoded read
  have nothing := declaresNothing ended slice
  have framed : Framed rtspGrammar (describeText url fields)
      ⟨true, (head rtspGrammar header).2, header.length⟩ header := by
    refine ⟨shape, (headStarted rtspGrammar header).mp started, ?_, inside, ?_, ?_⟩
    · rw [nothing, Nat.add_zero]
    · rw [nothing]
      exact Nat.zero_le _
    · rw [if_pos nothing]
  exact ⟨_, framedOutcome rtspGrammar rfl framed, rfl, decoded⟩
end

/-! A path with a space is not the one the player asks for. -/
theorem reachedPlain {url : Bytes} {fields : RequestFields} {env : Env} {player : SessionId}
    {s : RtspSession} {p : Bytes} {buf : ByteBuffer} (content : buf.content = describeText url fields)
    (reached : DecodesTo env player s p buf) : (32 : UInt8) ∉ p ∧
      ∃ out, outcome rtspGrammar (describeText url fields) = .ok out ∧ out.ok = true := by
  obtain ⟨out, parsed, ok, looks⟩ := reached
  rw [Protocol.parse, parseOutcome, content] at parsed
  obtain ⟨_, u, cut, decoded⟩ := decodedUrl parsed ok
  have path := (describeLooksUp env player s decoded.type decoded.method p).mp looks
  rw [decoded.url] at path
  refine ⟨fun inside => ?_, out, parsed, ok⟩
  rw [← path] at inside
  rcases pathMember inside with here | slash
  · exact cut.fresh here
  · contradiction

theorem proxyPlain {host p : Bytes} (bare : (32 : UInt8) ∉ host) (port : UInt16) (plain : (32 : UInt8) ∉ p) :
    (32 : UInt8) ∉ proxyUrl host port p := by
  unfold proxyUrl
  simp only [List.mem_append, not_or]
  exact ⟨⟨⟨⟨by decide, bare⟩, by decide⟩, decimalFresh (by decide) _⟩, plain⟩

theorem proxyReached {host p : Bytes} (bare : (47 : UInt8) ∉ host ∧ (32 : UInt8) ∉ host) (port : UInt16)
    (slash : p.head? = some 47) {fields : RequestFields} (env : Env) (player : SessionId) (s : RtspSession)
    {buf : ByteBuffer} (content : buf.content = describeText (proxyUrl host port p) fields) :
    DecodesTo env player s p buf ↔ (32 : UInt8) ∉ p ∧ find crlf (proxyUrl host port p) = none ∧
      LineRead (proxyUrl host port p) fields := by
  constructor
  · intro reached
    obtain ⟨plain, out, parsed, ok⟩ := reachedPlain content reached
    exact ⟨plain, plainDecoded (proxyPlain bare.2 port plain) parsed ok⟩
  · rintro ⟨plain, unbroken, read⟩
    obtain ⟨out, parsed, ok, decoded⟩ := lineDecoded (proxyPlain bare.2 port plain) unbroken read
    refine ⟨out, ?_, ok, (describeLooksUp env player s decoded.type decoded.method p).mpr ?_⟩
    · rw [Protocol.parse, parseOutcome, content, parsed]
    · rw [decoded.url, proxyPath bare.1 port slash]

-- The answer names the URL, and the URL leads to the stream.
structure PlayableAt (answer : HttpResponse) (host : Bytes) (rtspPort : UInt16) (b : Bytes) (env : Env)
    (player : SessionId) (s : RtspSession) (buf : ByteBuffer) : Prop where
  returned : answer.body = createdJson (postedPath b) (extractStringValue b (ascii "upstream"))
    (proxyUrl (ascii "<server_ip>") rtspPort (postedPath b))
  reached : DecodesTo env player s (postedPath b) buf

theorem postedSlash (b : Bytes) : (postedPath b).head? = some 47 := by
  unfold postedPath withSlash
  split
  · assumption
  · rfl

theorem playersReach (order : StreamOrder) (rtspPort : UInt16) (out : Outside) (relay : Relay)
    (base : HttpRequest) (b : Bytes)
    (created : (api order rtspPort out relay (posting base b)).2.statusCode = 201) (host : Bytes)
    (bare : (47 : UInt8) ∉ host ∧ (32 : UInt8) ∉ host) (fields : RequestFields) (env : Env)
    (player : SessionId) (s : RtspSession) (buf : ByteBuffer)
    (content : buf.content = describeText (proxyUrl host rtspPort (postedPath b)) fields) :
    PlayableAt (api order rtspPort out relay (posting base b)).2 host rtspPort b env player s buf ↔
      (32 : UInt8) ∉ postedPath b ∧ find crlf (proxyUrl host rtspPort (postedPath b)) = none ∧
        LineRead (proxyUrl host rtspPort (postedPath b)) fields := by
  have returned := (postCreated created).body
  rw [← proxyReached bare rtspPort (postedSlash b) env player s content]
  exact ⟨fun h => h.reached, fun h => ⟨returned, h⟩⟩

def secondRequest : RequestFields where
  lines := [(ascii "CSeq", ascii "2")]
  text f inside := by
    rw [List.mem_singleton.mp inside]
    exact ⟨by decide, by decide, by decide, by decide, by decide⟩
  noBody f inside := by
    rw [List.mem_singleton.mp inside]
    decide

def described (url : Bytes) : ByteBuffer := (ByteBuffer.init 0).append (describeText url secondRequest)

theorem describedContent (url : Bytes) : (described url).content = describeText url secondRequest := by
  rw [described, ByteBuffer.filledContent]

def noStreams : Env := ⟨⟨∅, 500⟩, fun _ => [], ⟨none, none⟩⟩

def player : RtspSession := create (ascii "10.0.0.7:5000") (ascii "00000001")

theorem camPlayable : PlayableAt (api oldestFirst 8554 offline (fresh 500) (posting {} slashBody)).2
    (ascii "10.0.0.5") 8554 slashBody noStreams 0 player
    (described (proxyUrl (ascii "10.0.0.5") 8554 (postedPath slashBody))) := by
  have created : (api oldestFirst 8554 offline (fresh 500) (posting {} slashBody)).2.statusCode = 201 := by
    decide +kernel
  have path : postedPath slashBody = ascii "/cam" := by decide +kernel
  refine (playersReach oldestFirst 8554 offline (fresh 500) {} slashBody created (ascii "10.0.0.5")
    ⟨by decide, by decide⟩ secondRequest noStreams 0 player _ (describedContent _)).mpr ?_
  rw [path]
  exact ⟨by decide, by decide,
    describeText (proxyUrl (ascii "10.0.0.5") 8554 (ascii "/cam")) secondRequest,
    by decide +kernel, by decide⟩

/-! The space ends the URL in the request line. -/
def spaceBody : Bytes :=
  ascii "\x7b\"path\":\"/my cam\",\"upstream\":\"rtsp://10.0.0.9/cam\"\x7d"

theorem spaceNotPlayable :
    ¬ ∀ (order : StreamOrder) (rtspPort : UInt16) (out : Outside) (relay : Relay) (base : HttpRequest)
        (b : Bytes), (api order rtspPort out relay (posting base b)).2.statusCode = 201 →
      ∀ (host : Bytes), (47 : UInt8) ∉ host ∧ (32 : UInt8) ∉ host →
      ∀ (fields : RequestFields) (env : Env) (player : SessionId) (s : RtspSession) (buf : ByteBuffer),
        buf.content = describeText (proxyUrl host rtspPort (postedPath b)) fields →
        PlayableAt (api order rtspPort out relay (posting base b)).2 host rtspPort b env player s buf := by
  intro always
  have playable := always oldestFirst 8554 offline (fresh 500) {} spaceBody (by decide +kernel)
    (ascii "10.0.0.5") ⟨by decide, by decide⟩ secondRequest noStreams 0 player _ (describedContent _)
  have plain := (reachedPlain (describedContent _) playable.reached).1
  exact absurd plain (by decide +kernel)

end RtspRelay.PlayUrl
