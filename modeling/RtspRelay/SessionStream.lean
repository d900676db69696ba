import RtspRelay.FanOut
import RtspRelay.Handover
import RtspRelay.HandshakeScript
import RtspRelay.ParsedUnits
import RtspRelay.Recovery
import RtspRelay.SessionIndependence

/-! What a session's socket has taken, read by the relay's own decoder. The session hands
its responses and frames to its connection, which posts a frame as a header and a payload.
Where no response stands between the two, the stream comes apart into what was handed over:
the responses in their order, and the frames in theirs. -/
namespace RtspRelay.SessionStream
open Machine Buffer ByteSearch Protocol RoundTrip Manager Session Service Relay Transition
open Decoders StreamDecoder ParsedUnits SessionIndependence HandshakeScript Answers
open Downstream (DownUnit RespondsBetween)
open Handover
open MessageText (Parsed)
open Source (World)

-- What a step hands a session for its player.
def sentTo (self : SessionId) (s : Relay) (input : Service.Input) : List (RtspMessage ⊕ Emission) :=
  ((sent (s.step input)).filter fun e => decide (e.1 = self)).map Prod.snd

-- What of it goes to the session's connection: an interleaved header names its channel.
def unitOf : RtspMessage ⊕ Emission → Option DownUnit
  | .inl resp => some (.response resp)
  | .inr (.interleaved header data) => some (.frame ⟨header.getD 1 0, data⟩)
  | .inr (.datagram _ _ _) => none

def toConnection (self : SessionId) (s : Relay) (inputs : List Service.Input) : List DownUnit :=
  (transcript step (sentTo self) s inputs).filterMap unitOf

def ReadAs (order : HeaderOrder) : DownUnit → StreamUnit → Prop
  | .frame f, unit => unit = .interleaved f.channel f.data
  | .response m, .message msg => ReadBack order m ⟨true, msg, (serialize order m).length⟩
  | .response _, .interleaved _ _ => False

def readUnit (order : HeaderOrder) : DownUnit → StreamUnit
  | .frame f => .interleaved f.channel f.data
  | .response m => .message (readMessage order m)

/-! A response that fits into what the parser counts in an int and holds in a string. -/

structure Fits (room : Nat) (m : RtspMessage) : Prop where
  type : m.type = .response
  status : -intMax - 1 ≤ m.statusCode ∧ m.statusCode ≤ intMax
  reason : find crlf m.reason = none ∧ m.reason.length ≤ 40
  version : m.version = ascii "RTSP/1.0"
  cseq : m.cseq < 2 ^ 32
  headers : ∀ key val, m.headers.lookup key = some val → PrintableKey key ∧ SeparatedValue val
  light : headersWeight m ≤ room
  body : m.body.length ≤ stringMaxSize

section
variable {room : Nat} {m : RtspMessage}

theorem setFits (h : Fits room m) {key : String} {val : Bytes} (named : PrintableKey (ascii key))
    (text : SeparatedValue val) {k : Nat} (size : (ascii key).length + val.length ≤ k) :
    Fits (room + k + 4) (m.set key val) :=
  ⟨h.type, h.status, h.reason, h.version, h.cseq, headersInsert h.headers ⟨named, text⟩,
    setWeight h.light size, h.body⟩

theorem roomFits (h : Fits room m) {more : Nat} (le : room ≤ more) : Fits more m :=
  ⟨h.type, h.status, h.reason, h.version, h.cseq, h.headers, Nat.le_trans h.light le, h.body⟩

theorem bodyFits (h : Fits room m) {body : Bytes} (short : body.length ≤ stringMaxSize) (sdp : Bytes) :
    Fits room { m with body := body, sdp := sdp } :=
  ⟨h.type, h.status, h.reason, h.version, h.cseq, h.headers, h.light, short⟩

theorem fitsSeparated (h : Fits room m) : Separated m := by
  refine ⟨?_, h.version, h.cseq, h.headers⟩
  unfold SeparatedStart
  rw [h.type]
  exact ⟨h.status.1, h.status.2, h.reason.1⟩

theorem statusShort {status : Int} (low : -intMax - 1 ≤ status) (high : status ≤ intMax) :
    (decimalInt status).length ≤ 21 := by
  unfold intMax at low high
  have digits : (decimal status.natAbs).length ≤ 20 := decimalShort (by omega)
  unfold decimalInt
  split
  · rw [List.length_cons]
    omega
  · omega

theorem fitsBlock (h : Fits room m) (order : HeaderOrder) : (headerBlock order m).length ≤ room + 200 := by
  have lines := linesShort order h.cseq h.body
  have light := h.light
  have status := statusShort h.status.1 h.status.2
  have reason := h.reason.2
  have version : (ascii "RTSP/1.0").length = 8 := by decide
  have blank : (ascii " ").length = 1 := by decide
  have other : ¬ m.type = .request := by rw [h.type]; nofun
  rw [headerBlock, startText, if_neg other, h.version]
  simp only [List.length_append, version, blank]
  omega

theorem startsR (h : Fits room m) (order : HeaderOrder) (t : Bytes) :
    ∃ rest, serialize order m ++ t = 82 :: rest := by
  have other : ¬ m.type = .request := by rw [h.type]; nofun
  have version : ascii "RTSP/1.0" = 82 :: ascii "TSP/1.0" := rfl
  rw [serializePrinted (fitsSeparated h), headerBlock, startText, if_neg other, h.version, version]
  exact ⟨_, rfl⟩

theorem responseTaken (h : Fits room m) (enough : room + 200 ≤ intMax) (order : HeaderOrder) (t : Bytes) :
    interleavedDecoder.step (serialize order m ++ t) =
      .unit (.message (readMessage order m)) (serialize order m).length := by
  have block := fitsBlock h order
  have small : (headerBlock order m).length ≤ intMax := by omega
  have reads := smallReads (fitsSeparated h) t small h.body
  obtain ⟨rest, shape⟩ := startsR h order t
  have step : interleavedDecoder.step (serialize order m ++ t) =
      liftStep (messageStep rtspGrammar (serialize order m ++ t)) := by
    have other : ¬ (82 :: rest).getD 0 0 = 36 := by
      rw [List.getD_cons_zero]
      decide
    rw [shape]
    show interleavedStep (82 :: rest) = _
    rw [interleavedStep, if_neg (List.cons_ne_nil 82 rest), if_neg other]
  rw [step, messageStep, reads]
  rfl

theorem responseReads (h : Fits room m) (order : HeaderOrder) :
    ReadAs order (.response m) (.message (readMessage order m)) := by
  have separated := fitsSeparated h
  obtain ⟨type, request, response, version⟩ := startReadBack separated
  exact ⟨rfl, rfl, type, request, response, version, rfl, rfl, headersRead separated, rfl, rfl, rfl⟩
end

/-! Every response of a session fits, given what the parser let through. -/

section
variable {url id : Bytes}

theorem baseText (plain : RequestInjection.Plain url) : SeparatedValue (url ++ ascii "/") := by
  refine ⟨?_, ?_⟩
  · have slash : url ++ ascii "/" = url ++ 47 :: [] := rfl
    rw [slash, findBarrier (by decide) (by decide) plain.line]
    rfl
  · cases url with
    | nil => decide
    | cons b rest => exact fun same => plain.space (Option.some.inj same ▸ List.mem_cons_self)

theorem infoText (plain : RequestInjection.Plain url) :
    SeparatedValue (ascii "url=" ++ url ++ ascii ";seq=0;rtptime=0") := by
  refine ⟨?_, ?_⟩
  · have shape : ascii "url=" ++ url ++ ascii ";seq=0;rtptime=0" =
        ascii "url" ++ 61 :: (url ++ 59 :: ascii "seq=0;rtptime=0") := by simp [ascii]
    have whole : find crlf (ascii "url") = none := by decide
    have last : find crlf (ascii "seq=0;rtptime=0") = none := by decide
    rw [shape, findBarrier (by decide) (by decide) whole, findBarrier (by decide) (by decide) plain.line, last]
    rfl
  · have first : (ascii "url=" ++ url ++ ascii ";seq=0;rtptime=0").head? = some 117 := rfl
    rw [first]
    decide

theorem errorFits {cseq : Nat} (small : cseq < 2 ^ 32) (status : Int) (reason : Bytes)
    (range : -intMax - 1 ≤ status ∧ status ≤ intMax) (text : find crlf reason = none ∧ reason.length ≤ 40) :
    Fits 0 (errorResponse cseq status reason) :=
  ⟨rfl, range, text, rfl, small, nofun, Nat.le_refl 0, Nat.zero_le _⟩

theorem okFits {cseq : Nat} (small : cseq < 2 ^ 32) : Fits 0 (ok cseq) :=
  errorFits small 200 (ascii "OK") (by decide) (by decide)

theorem idText (text : IdText id) : SeparatedValue id ∧ (ascii "Session").length + id.length ≤ 15 := by
  have name : (ascii "Session").length = 7 := by decide
  refine ⟨(idAlone text).separated, ?_⟩
  rw [name, text.length]

theorem sessionFits {room : Nat} {m : RtspMessage} (h : Fits room m) (text : IdText id) :
    Fits (room + 19) (m.set "Session" id) :=
  setFits h (by decide) (idText text).1 (idText text).2

theorem setSessionFits {room : Nat} {m : RtspMessage} (h : Fits room m) (text : IdText id) :
    Fits (room + 19) (m.setSession id) := by
  rw [RtspMessage.setSession, if_neg (idNamed text)]
  exact sessionFits h text

theorem fixedFits {room : Nat} {m : RtspMessage} (h : Fits room m) (key : String) (val : Bytes)
    (text : PrintableKey (ascii key) ∧ SeparatedValue val ∧ (ascii key).length + val.length ≤ 80) :
    Fits (room + 84) (m.set key val) := setFits h text.1 text.2.1 text.2.2

-- A Transport value of the relay: its own words and two numbers.
theorem rangeFits {room : Nat} {m : RtspMessage} (h : Fits room m) {words first last : Bytes}
    (text : words.head? = some 82 ∧ (13 : UInt8) ∉ words ∧ words.length ≤ 40)
    (one : (13 : UInt8) ∉ first ∧ first.length ≤ 21) (two : (13 : UInt8) ∉ last ∧ last.length ≤ 21) :
    Fits (room + 96) (m.set "Transport" (words ++ first ++ ascii "-" ++ last)) := by
  have dash : (13 : UInt8) ∉ ascii "-" ∧ (ascii "-").length = 1 := by decide
  have name : (ascii "Transport").length = 9 := by decide
  have fresh : (13 : UInt8) ∉ words ++ first ++ ascii "-" ++ last := by
    simp only [List.mem_append, not_or]
    exact ⟨⟨⟨text.2.1, one.1⟩, dash.1⟩, two.1⟩
  obtain ⟨more, rfl⟩ : ∃ more, words = 82 :: more := List.head?_eq_some_iff.mp text.1
  have start : ((82 :: more) ++ first ++ ascii "-" ++ last).head? ≠ some 32 := by
    simp only [List.cons_append, List.head?_cons]
    decide
  have size : (ascii "Transport").length + ((82 :: more) ++ first ++ ascii "-" ++ last).length ≤ 92 := by
    have words := text.2.2
    simp only [List.length_append, name, dash.2]
    omega
  exact setFits h (by decide) ⟨PrintedText.wholeFresh fresh, start⟩ size

theorem numberText (n : UInt16) : (13 : UInt8) ∉ decimalInt n.toNat ∧ (decimalInt n.toNat).length ≤ 21 := by
  have small := n.toNat_lt
  refine ⟨decimalIntFresh (by decide) (by decide) _, statusShort ?_ ?_⟩
  all_goals
    unfold intMax
    omega

theorem channelText (n : UInt8) : (13 : UInt8) ∉ decimal n.toNat ∧ (decimal n.toNat).length ≤ 21 := by
  have small := n.toNat_lt
  exact ⟨decimalFresh (by decide) _, Nat.le_succ_of_le (decimalShort (by omega))⟩

theorem setupFits {cseq : Nat} (small : cseq < 2 ^ 32) (text : IdText id) (rtp rtcp : UInt16) :
    Fits 126 (setupResponse cseq id rtp.toNat rtcp.toNat) := by
  have value := idValue text (ascii ";timeout=60") (by decide)
  have size : (ascii "Session").length + (id ++ ascii ";timeout=60").length ≤ 26 := by
    rw [idLight text]
    decide
  have session : Fits (0 + 26 + 4) ((ok cseq).set "Session" (id ++ ascii ";timeout=60")) :=
    setFits (okFits small) (by decide) value.separated size
  exact rangeFits session (by decide) (numberText rtp) (numberText rtcp)
end

section
variable {s : RtspSession} {req : RtspMessage} (text : IdText s.sessionId) (small : req.cseq < 2 ^ 32)
include text small

theorem describeFits (plain : RequestInjection.Plain req.url) {sdpAt : Bytes → Bytes}
    (short : ∀ path, (sdpAt path).length ≤ stringMaxSize) :
    Fits (req.url.length + 400) (handleDescribe sdpAt s req).2 := by
  unfold handleDescribe
  dsimp only
  split
  · exact roomFits (errorFits small _ _ (by decide) (by decide)) (Nat.zero_le _)
  · have typed := fixedFits (setSessionFits (okFits small) text) "Content-Type" (ascii "application/sdp")
      (by decide)
    have based := fixedFits typed "Content-Base" [] (by decide)
    have described := bodyFits based (short (extractStreamPath req.url)) (sdpAt (extractStreamPath req.url))
    have size : (ascii "Content-Base").length + (req.url ++ ascii "/").length ≤ req.url.length + 13 := by
      have name : (ascii "Content-Base").length = 12 := by decide
      have slash : (ascii "/").length = 1 := by decide
      rw [List.length_append, name, slash]
      omega
    exact roomFits (setFits described (by decide) (baseText plain) size) (by omega)

omit text in
theorem refusedFits {status : Int} {reason : Bytes} (range : -intMax - 1 ≤ status ∧ status ≤ intMax)
    (line : find crlf reason = none ∧ reason.length ≤ 40) : Fits 400 (errorResponse req.cseq status reason) :=
  roomFits (errorFits small _ _ range line) (Nat.zero_le _)

theorem interleavedFits (tp : Bytes) : Fits 400 (setupInterleaved s req tp).2 := by
  have answered : Fits 126 (setupResponse req.cseq s.sessionId 0 0) := setupFits small text 0 0
  have words : (ascii "RTP/AVP/TCP;unicast;interleaved=").head? = some 82 ∧
      (13 : UInt8) ∉ ascii "RTP/AVP/TCP;unicast;interleaved=" ∧
      (ascii "RTP/AVP/TCP;unicast;interleaved=").length ≤ 40 := by decide
  unfold setupInterleaved
  dsimp only
  split
  · exact roomFits (rangeFits answered words (channelText _) (channelText _)) (by decide)
  · exact roomFits (rangeFits answered words (channelText _) (channelText _)) (by decide)

theorem udpFits (udp : UdpAnswers) (tp : Bytes) : Fits 400 (setupUdp udp s req tp).2 := by
  have made (rtp rtcp : UInt16) : Fits 400 (setupResponse req.cseq s.sessionId rtp.toNat rtcp.toNat) :=
    roomFits (setupFits small text rtp rtcp) (by decide)
  unfold setupUdp
  dsimp only
  repeat' split
  all_goals first
    | exact refusedFits small (by decide) (by decide)
    | exact made _ _

theorem setupAnswerFits (udp : UdpAnswers) : Fits 400 (handleSetup udp s req).2 := by
  obtain ⟨begun, same, sessionId⟩ : ∃ begun : RtspSession, begun = { (if s.streamPath = [] then
      { s with streamPath := extractStreamPath req.url } else s) with state := .setup } ∧
      begun.sessionId = s.sessionId := by
    refine ⟨_, rfl, ?_⟩
    dsimp only
    split <;> rfl
  have still : IdText begun.sessionId := sessionId ▸ text
  unfold handleSetup
  dsimp only
  rw [← same]
  split
  · exact refusedFits small (by decide) (by decide)
  · split
    · exact interleavedFits still small _
    · split
      · exact udpFits still small udp _
      · exact refusedFits small (by decide) (by decide)

theorem playFits (plain : RequestInjection.Plain req.url) (m : RelayManager) (self : SessionId) :
    Fits (req.url.length + 400) (handlePlay m self s req).2.2 := by
  have played := fixedFits (sessionFits (okFits small) text) "Range" (ascii "npt=0.000-") (by decide)
  have size : (ascii "RTP-Info").length + (ascii "url=" ++ req.url ++ ascii ";seq=0;rtptime=0").length ≤
      req.url.length + 30 := by
    have name : (ascii "RTP-Info").length = 8 := by decide
    have first : (ascii "url=").length = 4 := by decide
    have last : (ascii ";seq=0;rtptime=0").length = 16 := by decide
    rw [List.length_append, List.length_append, name, first, last]
    omega
  exact roomFits (setFits played (by decide) (infoText plain) size) (by omega)

theorem requestFits (plain : RequestInjection.Plain req.url) (sdp : SourceId → Bytes)
    (short : ∀ i, (sdp i).length ≤ stringMaxSize) (udp : UdpAnswers) (m : RelayManager) (self : SessionId)
    {resp : RtspMessage} (answered : (processRequest sdp udp m self s req).response = some resp) :
    Fits (req.url.length + 400) resp := by
  have most {m : RtspMessage} (h : Fits 400 m) : Fits (req.url.length + 400) m := roomFits h (by omega)
  have held : ∀ path, (m.getStreamSdp sdp path).length ≤ stringMaxSize := by
    intro path
    unfold RelayManager.getStreamSdp
    split
    · exact Nat.zero_le _
    · exact short _
  unfold processRequest at answered
  split at answered
  · cases method : req.method with
    | options =>
      rw [method] at answered
      cases Option.some.inj answered
      have listed := fixedFits (okFits small) "Public"
        (ascii "OPTIONS, DESCRIBE, SETUP, PLAY, TEARDOWN, GET_PARAMETER") (by decide)
      exact most (roomFits (sessionFits listed text) (by decide))
    | describe =>
      rw [method] at answered
      cases Option.some.inj answered
      exact describeFits (s := { s with cseq := req.cseq }) text small plain held
    | setup =>
      rw [method] at answered
      cases Option.some.inj answered
      exact most (setupAnswerFits (s := { s with cseq := req.cseq }) text small udp)
    | play =>
      rw [method] at answered
      cases Option.some.inj answered
      exact playFits (s := { s with cseq := req.cseq }) text small plain m self
    | teardown | getParameter =>
      rw [method] at answered
      cases Option.some.inj answered
      exact most (roomFits (setSessionFits (okFits small) text) (by decide))
    | none | pause | announce | record =>
      rw [method] at answered
      cases Option.some.inj answered
      exact most (refusedFits small (by decide) (by decide))
  · contradiction
end

/-! A run. What is sent to a session stands as the decoder takes it. -/

def Stands : RtspMessage ⊕ Emission → Prop
  | .inl resp => Fits (2 ^ 30 + 400) resp
  | .inr (.interleaved header data) =>
    data.length ≤ 65535 ∧ ∃ channel, header = interleavedHeader channel data.length
  | .inr (.datagram _ _ _) => True

def FromParser (self : SessionId) : Service.Input → Prop
  | .request other req _ => other = self → FromWire req ∧ req.url.length ≤ 2 ^ 30
  | _ => True

structure Named (player : SessionId) (id : Bytes) (s : Relay) : Prop where
  supplied : ∀ i, Supplied (s.sources i)
  session : (s.sessions player).sessionId = id

section
variable {self : SessionId} {id : Bytes} {s : Relay}

theorem setSourceSupplied (h : ∀ i, Supplied (s.sources i)) (j : SourceId) {w : World} (supplied : Supplied w) :
    ∀ i, Supplied ((s.setSource j w).sources i) := by
  intro i
  rcases eq_or_ne i j with rfl | differ
  · simp only [setSource, Function.update_self]
    exact supplied
  · simp only [setSource, Function.update_of_ne differ]
    exact h i

theorem stepSources (h : ∀ i, Supplied (s.sources i)) (input : Service.Input) :
    ∀ i, Supplied ((s.step input).sources i) := by
  cases input with
  | request other req udp => exact h
  | lost other => exact h
  | source j input => exact setSourceSupplied (s := { s with delivered := _ }) h j (stepSupplied (h j) input)
  | addStream path url connect writes =>
    simp only [step, addStream]
    split
    · exact h
    · exact setSourceSupplied (s := { s with manager := _, nextSource := _ }) h _
        (startSupplied _ _ _ connect writes)
  | removeStream path writes =>
    simp only [step, removeStream]
    split
    · exact h
    · rename_i j m _
      exact setSourceSupplied (s := { s with manager := m }) h j (sameSupplied (h j) (stoppedSdp _ writes))

theorem closeKeepsId (m : RelayManager) (self : SessionId) (session : RtspSession) :
    (close m self session).2.sessionId = session.sessionId := by
  simp only [close, closeUdpSockets]
  repeat' split
  all_goals rfl

theorem stepNamed (h : Named self id s) (input : Service.Input) : Named self id (s.step input) := by
  refine ⟨stepSources h.supplied input, ?_⟩
  rcases Classical.em (Concerns self input) with concerns | apart
  · cases input with
    | request other req udp =>
      obtain rfl : other = self := concerns
      rw [FanOut.requestOwn, requestKeepsId]
      exact h.session
    | lost other =>
      obtain rfl : other = self := concerns
      simp only [step, lost, setSessionSame]
      exact (closeKeepsId _ other _).trans h.session
    | addStream | removeStream | source => exact concerns.elim
  · rw [stepSession apart]
    exact h.session

theorem passedStands (session : RtspSession) {data : Bytes} (short : data.length ≤ 65535) {e : Emission}
    (passed : Session.onRtpData session data = some e) : Stands (.inr e) := by
  unfold Session.onRtpData at passed
  split at passed
  · contradiction
  · split at passed
    · obtain ⟨fd, _, rfl⟩ := Option.map_eq_some_iff.mp passed
      trivial
    · split at passed
      · cases Option.some.inj passed
        exact ⟨short, session.rtpChannel, rfl⟩
      · contradiction

theorem fanOutStands {path data : Bytes} (short : data.length ≤ 65535) :
    ∀ e ∈ s.fanOut path data, Stands (.inr e.2) := by
  intro e inside
  obtain ⟨sink, _, passes⟩ := List.mem_filterMap.mp inside
  obtain ⟨emission, passed, rfl⟩ := Option.map_eq_some_iff.mp passes
  exact passedStands _ short passed

theorem quietSent : sent s.quiet = [] := rfl

theorem sentStands (h : Named self id s) (text : IdText id) {input : Service.Input}
    (parsed : FromParser self input) : ∀ e ∈ sentTo self s input, Stands e := by
  intro e inside
  obtain ⟨⟨other, item⟩, kept, rfl⟩ := List.mem_map.mp inside
  obtain ⟨there, same⟩ := List.mem_filter.mp kept
  obtain rfl : other = self := of_decide_eq_true same
  have nothing : (other, item) ∉ sent s.quiet := by rw [quietSent]; exact List.not_mem_nil
  cases input with
  | addStream path url connect writes =>
    simp only [step, addStream] at there
    split at there
    · exact absurd there nothing
    · exact absurd there nothing
  | removeStream path writes =>
    simp only [step, removeStream] at there
    split at there
    · exact absurd there nothing
    · exact absurd there nothing
  | lost gone => exact absurd there nothing
  | source i input =>
    rcases List.mem_append.mp there with answer | packet
    · contradiction
    · obtain ⟨passed, delivered, same⟩ := List.mem_map.mp packet
      obtain ⟨data, brought, fanned⟩ := List.mem_flatMap.mp delivered
      cases same
      exact fanOutStands (packetsShort _ input data brought) passed fanned
  | request asker req udp =>
    rcases List.mem_append.mp there with answer | packet
    · obtain ⟨response, made, same⟩ := List.mem_map.mp answer
      obtain ⟨resp, answered, rfl⟩ := List.mem_map.mp made
      cases same
      obtain ⟨read, short⟩ := parsed rfl
      have limited := wireLimited read
      have isRequest : req.type = .request := by
        by_contra isOther
        rw [Option.mem_toList, otherSilent _ _ _ _ _ isOther] at answered
        contradiction
      have fits := requestFits (h.session.symm ▸ text) limited.cseq (limited.url isRequest) s.sdp h.supplied
        udp _ _ (Option.mem_toList.mp answered)
      exact roomFits fits (by omega)
    · contradiction
end

theorem runStands {self : SessionId} {id : Bytes} (text : IdText id) {s : Relay} (h : Named self id s)
    {inputs : List Service.Input} (parsed : ∀ input ∈ inputs, FromParser self input) :
    ∀ e ∈ transcript step (sentTo self) s inputs, Stands e := by
  induction inputs generalizing s with
  | nil => exact List.forall_mem_nil _
  | cons input rest ih =>
    obtain ⟨first, later⟩ := List.forall_mem_cons.mp parsed
    exact List.forall_mem_append.mpr ⟨sentStands h text first, ih (stepNamed h input) later⟩

/-! What stands is taken whole, whatever follows it. -/

theorem unitWhole (order : HeaderOrder) {header data : Bytes} (stands : Stands (.inr (.interleaved header data))) :
    (unitOf (.inr (.interleaved header data))).elim [] (unitBytes order) = header ++ data := by
  obtain ⟨_, channel, rfl⟩ := stands
  rfl

theorem unitTaken (order : HeaderOrder) {e : RtspMessage ⊕ Emission} (stands : Stands e) {u : DownUnit}
    (unit : unitOf e = some u) (t : Bytes) : interleavedDecoder.step (unitBytes order u ++ t) =
      .unit (readUnit order u) (unitBytes order u).length ∧ ReadAs order u (readUnit order u) := by
  rcases e with resp | emission
  · cases Option.some.inj unit
    exact ⟨responseTaken stands (by decide) order t, responseReads stands order⟩
  · cases emission with
    | datagram fd dest data => contradiction
    | interleaved header data =>
      cases Option.some.inj unit
      exact ⟨Interleaving.frameStepTakes _ stands.1 t, rfl⟩

theorem unitsTaken (order : HeaderOrder) {items : List (RtspMessage ⊕ Emission)} (stands : ∀ e ∈ items, Stands e)
    {units : List DownUnit} (inOrder : InOrder units (items.filterMap unitOf)) :
    ∀ u ∈ units, ∀ t, interleavedDecoder.step (unitBytes order u ++ t) =
      .unit (readUnit order u) (unitBytes order u).length ∧ ReadAs order u (readUnit order u) := by
  intro u inside t
  obtain ⟨e, there, unit⟩ := List.mem_filterMap.mp (inOrderMember inOrder inside)
  exact unitTaken order (stands e there) unit t

/-! Of every stream of whole units that is still coming in, however it is cut, the decoder
takes the whole ones, and all of them once it has come in. -/
theorem incomingRead {order : HeaderOrder} {units : List DownUnit}
    (taken : ∀ u ∈ units, ∀ t, interleavedDecoder.step (unitBytes order u ++ t) =
      .unit (readUnit order u) (unitBytes order u).length ∧ ReadAs order u (readUnit order u))
    (cap : Nat) {chunks : List Bytes} (incoming : chunks.flatten <+: units.flatMap (unitBytes order)) :
    ∃ n left, sourceDecoded cap chunks = ((units.take n).map (readUnit order), .ok left) ∧
      (chunks.flatten = units.flatMap (unitBytes order) → units.take n = units ∧ left = []) := by
  have each := fun u inside t => (taken u inside t).1
  obtain ⟨n, left, decoded, _⟩ := decodeIncoming interleavedDecoder each incoming
  refine ⟨n, left, ?_, fun whole => ?_⟩
  · rw [sourceDecodedUnits, feedFromEmpty, decoded]
  · rw [whole, decodeEncoded interleavedDecoder each] at decoded
    obtain ⟨read, rest⟩ := Prod.mk.inj decoded
    have size := congrArg List.length read
    rw [List.length_map, List.length_map, List.length_take] at size
    exact ⟨List.take_of_length_le (by omega), (Except.ok.inj rest).symm⟩

theorem sessionReadBack (maxSources : Nat) (players : SessionId → Player) (order : HeaderOrder)
    (self : SessionId) (n : UInt32) (generated : (players self).sessionId = generateSessionId n)
    (inputs : List Service.Input) (parsed : ∀ input ∈ inputs, FromParser self input)
    (fd : Int) (moves : List Downstream.Input)
    (between : Throughout (Downstream.step order) RespondsBetween (Downstream.start fd) moves)
    (hands : InOrder (transcript (Downstream.step order) handed (Downstream.start fd) moves)
      (toConnection self (init maxSources players order) inputs))
    (cap : Nat) (chunks : List Bytes)
    (cut : chunks.flatten = (run (Downstream.step order) (Downstream.start fd) moves).loop.conn.written) :
    ∃ taken units left, sourceDecoded cap chunks = (units, .ok left) ∧ List.Forall₂ (ReadAs order) taken units ∧
      InOrder taken (transcript (Downstream.step order) handed (Downstream.start fd) moves) ∧
      (Drained (run (Downstream.step order) (Downstream.start fd) moves) →
        left = [] ∧ InOrder (transcript (Downstream.step order) handed (Downstream.start fd) moves) taken) := by
  have start : Named self (generateSessionId n) (init maxSources players order) :=
    ⟨fun _ => Nat.zero_le _, generated⟩
  have stands := runStands (generatedText n) start parsed
  obtain ⟨aligned, follows⟩ := runFollows between
  obtain ⟨units, accepted, inOrder, complete⟩ := acceptedUnits aligned follows
  have taken := unitsTaken order stands (inOrderTrans inOrder hands)
  have incoming : chunks.flatten <+: units.flatMap (unitBytes order) :=
    cut ▸ (List.prefix_append _ _).trans accepted
  obtain ⟨k, left, decoded, whole⟩ := incomingRead taken cap incoming
  refine ⟨units.take k, _, left, decoded, ?_, inOrderTrans (takeInOrder k units) inOrder, fun drained => ?_⟩
  · rw [List.forall₂_map_right_iff, List.forall₂_same]
    exact fun u inside => (taken u (List.mem_of_mem_take inside) []).2
  · obtain ⟨bytes, all⟩ := complete drained.1
    have written : chunks.flatten = units.flatMap (unitBytes order) := by
      rw [cut, ← bytes, Connection.TcpConnection.accepted, drained.2, List.append_nil]
    obtain ⟨same, nothing⟩ := whole written
    exact ⟨nothing, same.symm ▸ all⟩

/-! Two requests off the wire and one packet. -/

theorem askingRead (method : RtspMethod) : FromWire (readMessage insertionOrder (FanOut.asking method)) := by
  have url : (32 : UInt8) ∉ ascii "rtsp://relay/cam" ∧ find crlf (ascii "rtsp://relay/cam") = none := by decide
  have cseq : (1 : Nat) < 2 ^ 32 := by decide
  have bare : ∀ key val, (∅ : MessageText.Headers).lookup key = some val →
      PrintableKey key ∧ SeparatedValue val := nofun
  have headers : ∀ key val, (FanOut.asking method).headers.lookup key = some val →
      PrintableKey key ∧ SeparatedValue val := headersInsert bare (by decide)
  have separated : Separated (FanOut.asking method) := ⟨url, rfl, cseq, headers⟩
  have small : (headerBlock insertionOrder (FanOut.asking method)).length ≤ intMax := by
    cases method <;> decide
  exact ⟨_, _, smallReads separated [] small (Nat.zero_le _), rfl, rfl⟩

def heardAsking (method : RtspMethod) : Service.Input :=
  .request 0 (readMessage insertionOrder (FanOut.asking method)) ⟨none, none⟩

def played : List Service.Input :=
  [FanOut.addCam, .source 0 ⟨.writable 0 false, .inProgress, Recovery.sent⟩, heardAsking .setup, heardAsking .play,
    .source 0 ⟨.read 0 (.data [36, 0, 0, 2, 7, 8]), .inProgress, []⟩]

theorem playedParsed : ∀ input ∈ played, FromParser 0 input := by
  have short : (ascii "rtsp://relay/cam").length ≤ 2 ^ 30 := by decide
  have asked (method : RtspMethod) : FromParser 0 (heardAsking method) := fun _ => ⟨askingRead method, short⟩
  exact List.forall_mem_cons.mpr ⟨trivial, List.forall_mem_cons.mpr ⟨trivial, List.forall_mem_cons.mpr
    ⟨asked .setup, List.forall_mem_cons.mpr ⟨asked .play, List.forall_mem_singleton.mpr trivial⟩⟩⟩⟩

-- The connection's own loop answers twice, then takes the packet the source's thread posts.
def playedMoves : List Downstream.Input :=
  (toConnection 0 FanOut.relay played).flatMap (fun
    | .response msg => [.respond msg (.wrote 1000 (by decide)) (by decide)]
    | .frame f => [.header f, .payload]) ++
  [.processTasks, .runTask (.wrote 1000 (by decide)) (by decide), .runTask (.wrote 1000 (by decide)) (by decide)]

def playedLink : Downstream.Link := run (Downstream.step insertionOrder) (Downstream.start 7) playedMoves

theorem playedBetween :
    Throughout (Downstream.step insertionOrder) RespondsBetween (Downstream.start 7) playedMoves := by
  have calm {s : Downstream.Link} (nothing : Downstream.future s = []) (empty : s.loop.batch = []) :
      ¬ Downstream.Split s := by
    rintro ⟨f, rest, ahead⟩
    rw [nothing] at ahead
    contradiction
  exact ⟨calm rfl, calm rfl, trivial, trivial, trivial, trivial, trivial, trivial⟩

theorem playedDrained : Drained playedLink := by
  have empty : playedLink.loop.conn.outputBuf.content = [] := by decide +kernel
  exact ⟨rfl, empty⟩

theorem playedReadBack : ∃ taken units, sourceDecoded 0 [playedLink.loop.conn.written] = (units, .ok []) ∧
    List.Forall₂ (ReadAs insertionOrder) taken units ∧ (answers taken).length = 2 ∧ frames taken = [⟨0, [7, 8]⟩] := by
  have same : transcript (Downstream.step insertionOrder) handed (Downstream.start 7) playedMoves =
      toConnection 0 FanOut.relay played := rfl
  have given : (answers (toConnection 0 FanOut.relay played)).length = 2 ∧
      frames (toConnection 0 FanOut.relay played) = [⟨0, [7, 8]⟩] := by decide +kernel
  obtain ⟨taken, units, left, decoded, read, inOrder, complete⟩ := sessionReadBack 500
    (fun _ => ⟨ascii "10.0.0.7:5000", ascii "00000001"⟩) insertionOrder 0 1 (by decide) played playedParsed 7
    playedMoves playedBetween (same ▸ ⟨List.prefix_rfl, List.prefix_rfl⟩) 0 [playedLink.loop.conn.written]
    (List.append_nil _)
  obtain ⟨rfl, all⟩ := complete playedDrained
  rw [same] at inOrder all
  refine ⟨taken, units, decoded, read, ?_, ?_⟩
  · rw [← given.1]
    exact Nat.le_antisymm inOrder.answers.length_le all.answers.length_le
  · rw [← given.2]
    exact inOrder.frames.eq_of_length_le all.frames.length_le

end RtspRelay.SessionStream
