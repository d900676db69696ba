import RtspRelay.HandshakeScript

/-! Either side of the handshake, one message at a time: where the session is after
its first requests, and where the source is after the first answers. -/
namespace RtspRelay.HandshakeSides
open Machine ByteSearch Protocol RoundTrip Session Manager Exchange HandshakeScript
open Source (RtspSource World)
open Answers (lookupSet lookupSetSame sessionOk sessionValuePlain sessionValueTimeout)

def sessionState : Nat → Session.State
  | 0 | 1 => .idle
  | 2 => .describe
  | 3 => .setup
  | _ => .playing

-- The session after the first `j` requests.
structure SessionAt (url id : Bytes) (j : Nat) (s : RtspSession) : Prop where
  sessionId : s.sessionId = id
  state : s.state = sessionState j
  streamPath : s.streamPath = if j < 2 then [] else extractStreamPath url
  channels : s.rtpChannel = 0 ∧ s.rtcpChannel = 1

section
variable {order : HeaderOrder} {m : RtspMessage}

theorem requestRead (printable : Printable m) (kind : m.type = .request) :
    (readMessage order m).type = .request ∧ (readMessage order m).method = m.method ∧
      (readMessage order m).url = m.url := by
  obtain ⟨type, request, _⟩ := startReadBack printable.separated
  exact ⟨type.trans kind, request kind⟩

theorem responseRead (printable : Printable m) (kind : m.type = .response) :
    (readMessage order m).statusCode = m.statusCode :=
  ((startReadBack printable.separated).2.2.1 kind).1

end

section
variable {url id : Bytes}

theorem asksRequest (text : IdText id) (k : Nat) : (asks url id k).type = .request ∧
    (asks url id k).url = url := by
  match k with
  | 0 | 1 | _ + 3 => exact ⟨rfl, rfl⟩
  | 2 =>
    rw [asks, setupAsked, setupRequest, RtspMessage.setSession, if_neg (idNamed text)]
    exact ⟨rfl, rfl⟩

theorem transportNegotiates : (find (ascii "interleaved=") transport).isSome = true ∧
    transportRange (ascii "interleaved=") transport = some (0, 1) := by decide

theorem asksTransport : (asks url id 2).headers.lookup (ascii "Transport") = some transport :=
  lookupSetSame _ _ _

/-! The session. Each request moves it on and is answered from the script, except that
a path without an SDP is answered 404. -/

theorem sessionNamed {s : RtspSession} {j : Nat} (at_ : SessionAt url id j s) (cseq : Nat) :
    SessionAt url id j { s with cseq := cseq } :=
  ⟨at_.sessionId, at_.state, at_.streamPath, at_.channels⟩

theorem describeServed {s : RtspSession} (at_ : SessionAt url id 1 s) (sdpAt : Bytes → Bytes)
    {req : RtspMessage} (named : req.url = url) (cseq : req.cseq = 2) :
    SessionAt url id 2 (handleDescribe sdpAt s req).1 ∧
      ((handleDescribe sdpAt s req).2.statusCode = 200 →
        (handleDescribe sdpAt s req).2 = answers url id (sdpAt (extractStreamPath url)) 1) := by
  unfold handleDescribe
  dsimp only
  rw [named, cseq, at_.sessionId]
  split
  · exact ⟨⟨rfl, rfl, rfl, at_.channels⟩, fun ok => absurd ok (show ¬ (404 : Int) = 200 by decide)⟩
  · exact ⟨⟨rfl, rfl, rfl, at_.channels⟩, fun _ => rfl⟩

theorem setupServed {s : RtspSession} (at_ : SessionAt url id 2 s) (udp : UdpAnswers)
    {req : RtspMessage} (named : req.url = url) (cseq : req.cseq = 3)
    (tp : req.headers.lookup (ascii "Transport") = some transport) (text : Bytes) :
    SessionAt url id 3 (handleSetup udp s req).1 ∧
      (handleSetup udp s req).2 = answers url id text 2 := by
  obtain ⟨wants, range⟩ := transportNegotiates
  obtain ⟨begun, same, path, sessionId⟩ : ∃ begun : RtspSession, begun = { (if s.streamPath = [] then
      { s with streamPath := extractStreamPath req.url } else s) with state := .setup } ∧
      begun.streamPath = extractStreamPath url ∧ begun.sessionId = id := by
    refine ⟨_, rfl, ?_⟩
    dsimp only
    split
    · exact ⟨by rw [named], at_.sessionId⟩
    · exact ⟨at_.streamPath, at_.sessionId⟩
  have state : begun.state = .setup := by rw [same]
  unfold handleSetup
  dsimp only
  rw [← same, tp]
  dsimp only
  rw [if_pos wants, setupInterleaved, range]
  refine ⟨⟨sessionId, state, path, rfl, rfl⟩, ?_⟩
  dsimp only
  rw [sessionId, cseq]
  rfl

theorem requestServed {s : RtspSession} {j : Nat} (at_ : SessionAt url id j s) (small : j < 4)
    (urlText : UrlText url) (text : IdText id) (order : HeaderOrder) (sdp : SourceId → Bytes)
    (udp : UdpAnswers) (m : RelayManager) (self : SessionId) {described : Bytes}
    (same : j = 1 → described = m.getStreamSdp sdp (extractStreamPath url)) :
    SessionAt url id (j + 1)
        (processRequest sdp udp m self s (readMessage order (asks url id j))).session ∧
      ∃ resp, (processRequest sdp udp m self s (readMessage order (asks url id j))).response = some resp ∧
        (resp.statusCode = 200 → resp = answers url id described j) := by
  have printable : Printable (asks url id j) := asksPrintable urlText text j
  obtain ⟨kind, named⟩ : (asks url id j).type = .request ∧ _ := asksRequest text j
  obtain ⟨isRequest, method, url'⟩ :
      (readMessage order (asks url id j)).type = .request ∧ _ ∧ _ := requestRead printable kind
  have named' : (readMessage order (asks url id j)).url = url := url'.trans named
  have before := sessionNamed at_ (readMessage order (asks url id j)).cseq
  rw [processRequest, if_pos isRequest, method]
  cases j using scriptCases with
  | options =>
    refine ⟨⟨at_.sessionId, at_.state, at_.streamPath, at_.channels⟩, _, rfl, fun _ => ?_⟩
    rw [handleOptions, at_.sessionId]
    rfl
  | describe =>
    obtain ⟨after, answers⟩ := describeServed before (m.getStreamSdp sdp) named' rfl
    exact ⟨after, _, rfl, fun ok => same rfl ▸ answers ok⟩
  | setup =>
    have setup : (asks url id 2).method = .setup := (setupAskedForm url 3 id).1
    have cseq : (readMessage order (asks url id 2)).cseq = 3 := (setupAskedForm url 3 id).2
    have tp : (readMessage order (asks url id 2)).headers.lookup (ascii "Transport") = some transport :=
      (readLookup printable.separated (by decide) (by decide)).trans asksTransport
    obtain ⟨after, answer⟩ := setupServed before udp named' cseq tp described
    rw [setup]
    exact ⟨after, _, rfl, fun _ => answer⟩
  | play j =>
    obtain rfl : j = 0 := by omega
    refine ⟨⟨at_.sessionId, rfl, at_.streamPath, at_.channels⟩, _, rfl, fun _ => ?_⟩
    dsimp only [handlePlay]
    rw [at_.sessionId, named']
    rfl

/-! The source. Each answer moves it on and is followed by the next request. -/

theorem idPlain (text : IdText id) : (59 : UInt8) ∉ id := idFresh text (.inr rfl)

theorem answersSession (text : IdText id) (sdp : Bytes) (k : Nat) :
    ((answers url id sdp k).headers.lookup (ascii "Session")).elim [] sessionValue = id := by
  have plain := sessionValuePlain (idPlain text)
  cases k using scriptCases with
  | options =>
    rw [answers, lookupSetSame]
    exact plain
  | describe =>
    rw [answers, lookupSet _ _ _ _ (by decide), describeResponse]
    dsimp only
    rw [lookupSet _ _ _ _ (by decide), lookupSet _ _ _ _ (by decide), sessionOk (idNamed text)]
    exact plain
  | setup =>
    rw [answers, lookupSet _ _ _ _ (by decide), setupResponse, lookupSet _ _ _ _ (by decide),
      lookupSetSame]
    exact sessionValueTimeout (idPlain text)
  | play =>
    have held : ((playResponse 4 id).set "RTP-Info" (ascii "url=" ++ url ++
        ascii ";seq=0;rtptime=0")).headers.lookup (ascii "Session") = some id := by
      rw [lookupSet _ _ _ _ (by decide), playResponse, lookupSet _ _ _ _ (by decide), lookupSetSame]
    exact (congrArg (Option.elim · [] sessionValue) held).trans plain

theorem answersResponse (text : IdText id) (sdp : Bytes) (k : Nat) :
    (answers url id sdp k).type = .response ∧ (answers url id sdp k).statusCode = 200 := by
  match k with
  | 0 | 2 | _ + 3 => exact ⟨rfl, rfl⟩
  | 1 =>
    rw [answers, describeResponse, RtspMessage.setSession, if_neg (idNamed text)]
    exact ⟨rfl, rfl⟩

theorem answersSdp (sdp : Bytes) : sdpOf (answers url id sdp 1) = sdp := by
  have type : (answers url id sdp 1).headers.lookup (ascii "Content-Type") =
      some (ascii "application/sdp") := by
    rw [answers, lookupSet _ _ _ _ (by decide), describeResponse]
    dsimp only
    rw [lookupSet _ _ _ _ (by decide), lookupSetSame]
  have found : (find (ascii "sdp") (ascii "application/sdp")).isSome = true := by decide
  rw [sdpOf, type, Option.any_some, found, if_pos rfl]
  rfl

theorem answersTransport (sdp : Bytes) :
    (answers url id sdp 2).headers.lookup (ascii "Transport") = some transport := lookupSetSame _ _ _

structure AnswerRead (id sdp : Bytes) (k : Nat) (msg : RtspMessage) : Prop where
  ok : msg.statusCode = 200
  sessionId : msg.sessionId = id
  sdp : k = 1 → msg.sdp = sdp
  transport : k = 2 → msg.headers.lookup (ascii "Transport") = some transport

theorem answerRead (urlText : UrlText url) (text : IdText id) (order : HeaderOrder) (sdp : Bytes)
    (k : Nat) : AnswerRead id sdp k (readMessage order (answers url id sdp k)) := by
  have printable : Printable (answers url id sdp k) := answersPrintable urlText text k
  obtain ⟨kind, ok⟩ : (answers url id sdp k).type = .response ∧ _ := answersResponse text sdp k
  refine ⟨(responseRead printable kind).trans ok, answersSession text sdp k, fun one => ?_, fun two => ?_⟩
  · subst one
    have back : sdpOf (answers url id sdp 1) = sdp := answersSdp sdp
    exact back
  · subst two
    have tp : (answers url id sdp 2).headers.lookup (ascii "Transport") = some transport :=
      answersTransport sdp
    exact (readLookup printable.separated (by decide) (by decide)).trans tp

def sourceState : Nat → Source.State
  | 0 => .options
  | 1 => .describe
  | 2 => .setup
  | _ => .playing

theorem sourcePlaying {k : Nat} : sourceState k = .playing ↔ 3 ≤ k := by
  match k with
  | 0 | 1 | 2 => exact ⟨nofun, fun large => by omega⟩
  | k + 3 => exact ⟨fun _ => Nat.le_add_left 3 k, fun _ => rfl⟩

-- The source after the first `k` answers.
structure SourceAt (url id sdp : Bytes) (k : Nat) (s : RtspSource) : Prop where
  url : s.upstreamUrl = url
  conn : s.conn = some 0
  state : s.state = sourceState k
  cseq : s.cseq = min (k + 1) 4
  sessionId : s.sessionId = if k = 0 then [] else id
  sdp : 2 ≤ k → s.sdp = sdp
  channels : s.rtpChannel = 0 ∧ s.rtcpChannel = 1

theorem answerReady {w : World} {sdp : Bytes} {k : Nat} (at_ : SourceAt url id sdp k w.source)
    (text : IdText id) {msg : RtspMessage} (read : AnswerRead id sdp k msg) :
    (heard w msg).source.sessionId = id ∧ (ready w msg).source.state = sourceState (k + 1) ∧
      (2 ≤ k + 1 → (ready w msg).source.sdp = sdp) ∧
      (ready w msg).source.rtpChannel = 0 ∧ (ready w msg).source.rtcpChannel = 1 := by
  have noted : heard w msg = { w with source := { w.source with sessionId := id } } := by
    rw [heard, if_pos read.ok, World.noteSession, read.sessionId, if_neg (idNamed text)]
  have state := at_.state
  obtain ⟨rtp, rtcp⟩ := at_.channels
  refine ⟨by rw [noted], ?_⟩
  rw [ready, state, noted]
  cases k using scriptCases with
  | options => exact ⟨rfl, fun later => absurd later (by decide), rtp, rtcp⟩
  | describe => exact ⟨rfl, fun _ => read.sdp rfl, rtp, rtcp⟩
  | setup =>
    dsimp only [sourceState]
    rw [World.noteChannels, read.transport rfl, Option.bind_some, transportNegotiates.2]
    exact ⟨rfl, fun _ => at_.sdp (Nat.le_refl 2), rfl, rfl⟩
  | play k => exact ⟨state, fun _ => at_.sdp (by omega), rtp, rtcp⟩

theorem answerReplied {w : World} {sdp : Bytes} {k : Nat} (at_ : SourceAt url id sdp k w.source)
    (small : k < 3) {msg : RtspMessage} (ok : msg.statusCode = 200)
    (named : (heard w msg).source.sessionId = id) : reply w msg = some (asks url id (k + 1)) := by
  have state := at_.state
  have number : nextCseq w.source = (min (k + 1) 4 + 1) % 2 ^ 32 := by rw [nextCseq, at_.cseq]
  have waits : w.source.state = .options ∨ w.source.state = .describe ∨ w.source.state = .setup := by
    rw [state]
    cases k using scriptCases with
    | options => exact .inl rfl
    | describe => exact .inr (.inl rfl)
    | setup => exact .inr (.inr rfl)
    | play k => exact absurd small (by omega)
  obtain ⟨req, replies⟩ := replies ok waits
  rw [replies]
  cases (replied replies).2 with
  | describe from_ =>
    cases k using scriptCases with
    | options => rw [at_.url, number]; rfl
    | describe | setup | play => rw [from_] at state; contradiction
  | setup from_ =>
    cases k using scriptCases with
    | describe => rw [at_.url, number, named]; rfl
    | options | setup | play => rw [from_] at state; contradiction
  | play from_ =>
    cases k using scriptCases with
    | setup => rw [at_.url, number, named]; rfl
    | options | describe | play => rw [from_] at state; contradiction

theorem answerHeard {w : World} {sdp : Bytes} {k : Nat} (at_ : SourceAt url id sdp k w.source)
    (text : IdText id) {msg : RtspMessage} (read : AnswerRead id sdp k msg) :
    reply w msg = (if k < 3 then some (asks url id (k + 1)) else none) ∧
      SourceAt url id sdp (k + 1) (w.handleResponse msg).source := by
  obtain ⟨named, state, described, channels⟩ := answerReady at_ text read
  have kept := readyKept w msg
  have held : (ready w msg).source.sessionId = id := (readyHeard w msg).2.trans named
  have cseq : (ready w msg).source.cseq = min (k + 1) 4 := kept.cseq.trans at_.cseq
  by_cases small : k < 3
  · have replies := answerReplied at_ small read.ok named
    rw [if_pos small, (repliedSends replies).source]
    refine ⟨replies, kept.url.trans at_.url, kept.conn.trans at_.conn, state, ?_, held, described, channels⟩
    rw [nextCseq, cseq]
    dsimp only
    omega
  · have playing : w.source.state = .playing := at_.state.trans (sourcePlaying.mpr (Nat.not_lt.mp small))
    have silent : reply w msg = none := by
      rw [reply, if_neg (not_not.mpr read.ok)]
      dsimp only
      rw [noteSessionState, playing]
    have same : ready w msg = heard w msg := by rw [ready, playing]
    rw [if_neg small, silentSource silent, ← same]
    refine ⟨silent, kept.url.trans at_.url, kept.conn.trans at_.conn, state, ?_, held, described, channels⟩
    rw [cseq]
    omega

end
end RtspRelay.HandshakeSides
