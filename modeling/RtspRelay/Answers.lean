import RtspRelay.Decoders
import RtspRelay.Session

/-! The responses of a session: one for each request its decoder takes off the
stream, in that order, and none for anything else. -/
namespace RtspRelay.Answers
open Machine ByteSearch Buffer Protocol Manager Session Decoders StreamDecoder

/-! What the session finds around it when it handles a request: the manager with
everything other threads have done to it, and the sockets it is given. -/
structure Env where
  manager : RelayManager
  sdp : SourceId → Bytes
  udp : UdpAnswers

structure Serving where
  session : RtspSession
  handled : Nat
  responses : List RtspMessage

section
variable (env : Nat → Env) (self : SessionId)

def ignoreFrame (s : Serving) (_channel : UInt8) (_data : Bytes) : Serving := s

def answerMessage (s : Serving) (msg : RtspMessage) : Serving :=
  let e := env s.handled
  let out := processRequest e.sdp e.udp e.manager self s.session msg
  ⟨out.session, s.handled + 1, s.responses ++ out.response.toList⟩

def served (cap : Nat) (chunks : List Bytes) (session : RtspSession) :
    Serving × Except Exn Bytes :=
  observed (received (handleRtspMessage ignoreFrame (answerMessage env self)) chunks
    ⟨session, 0, []⟩ (ByteBuffer.init cap))
end

def requestOf : StreamUnit → Option RtspMessage
  | .message msg => if msg.type = .request then some msg else none
  | .interleaved _ _ => none

def requests (units : List StreamUnit) : List RtspMessage := units.filterMap requestOf

structure AnswerTo (sessionId : Bytes) (req resp : RtspMessage) : Prop where
  cseq : resp.cseq = req.cseq
  session : resp.statusCode = 200 →
    ∃ val, resp.headers.lookup (ascii "Session") = some val ∧ sessionValue val = sessionId

theorem generateSessionIdPlain (id : UInt32) :
    generateSessionId id ≠ [] ∧ ∀ b ∈ generateSessionId id, 48 ≤ b ∧ b ≠ 59 := by
  refine ⟨by simp [generateSessionId, List.range_succ], fun b member => ?_⟩
  obtain ⟨i, _, rfl⟩ := List.mem_map.mp member
  have digits : ∀ n < 16, 48 ≤ hexDigit n ∧ hexDigit n ≠ 59 := by decide
  exact digits _ (Nat.mod_lt _ (by decide))

theorem sessionValuePlain {id : Bytes} (plain : (59 : UInt8) ∉ id) : sessionValue id = id := by
  rw [sessionValue, findSingletonNone plain]

theorem sessionValueTimeout {id : Bytes} (plain : (59 : UInt8) ∉ id) :
    sessionValue (id ++ ascii ";timeout=60") = id := by
  have occurs : find [59] (id ++ ascii ";timeout=60") = some id.length := by
    refine findExact.mpr ⟨?_, by simp, fun j before there => ?_⟩
    · rw [List.drop_left]
      exact ⟨ascii "timeout=60", by decide⟩
    · rw [List.drop_append_of_le_length (Nat.le_of_lt before),
        List.drop_eq_getElem_cons before] at there
      obtain ⟨rest, same⟩ := there
      have head := (List.cons.inj same).1
      exact plain (head ▸ List.getElem_mem before)
  rw [sessionValue, occurs]
  exact List.take_left

theorem lookupSet (m : RtspMessage) (key other : String) (val : Bytes)
    (differ : ascii other ≠ ascii key) :
    (m.set key val).headers.lookup (ascii other) = m.headers.lookup (ascii other) :=
  AList.lookup_insert_ne differ

theorem lookupSetSame (m : RtspMessage) (key : String) (val : Bytes) :
    (m.set key val).headers.lookup (ascii key) = some val := AList.lookup_insert _

theorem sessionOk {sessionId : Bytes} (nonempty : sessionId ≠ []) (cseq : Nat) :
    ((Protocol.ok cseq).setSession sessionId).headers.lookup (ascii "Session") = some sessionId := by
  rw [RtspMessage.setSession, if_neg nonempty, lookupSetSame]

theorem sessionCseq (sessionId : Bytes) (cseq : Nat) :
    ((Protocol.ok cseq).setSession sessionId).cseq = cseq := by
  unfold RtspMessage.setSession
  split <;> rfl

theorem errorAnswers (sessionId : Bytes) (req : RtspMessage) {status : Int} (failed : status ≠ 200)
    (reason : Bytes) : AnswerTo sessionId req (errorResponse req.cseq status reason) :=
  ⟨rfl, fun ok => absurd ok failed⟩

section
variable {s : RtspSession} {req : RtspMessage} (plain : (59 : UInt8) ∉ s.sessionId)
include plain

theorem plainAnswers {resp : RtspMessage} (cseq : resp.cseq = req.cseq)
    (held : resp.headers.lookup (ascii "Session") = some s.sessionId) :
    AnswerTo s.sessionId req resp := ⟨cseq, fun _ => ⟨_, held, sessionValuePlain plain⟩⟩

theorem timedAnswers {resp : RtspMessage} (cseq : resp.cseq = req.cseq)
    (held : resp.headers.lookup (ascii "Session") = some (s.sessionId ++ ascii ";timeout=60")) :
    AnswerTo s.sessionId req resp := ⟨cseq, fun _ => ⟨_, held, sessionValueTimeout plain⟩⟩

theorem interleavedAnswers (tp : Bytes) : AnswerTo s.sessionId req (setupInterleaved s req tp).2 := by
  unfold setupInterleaved
  dsimp only
  refine timedAnswers plain rfl ?_
  rw [lookupSet _ _ _ _ (by decide), setupResponse, lookupSet _ _ _ _ (by decide), lookupSetSame]
  split <;> rfl

theorem udpAnswers (udp : UdpAnswers) (tp : Bytes) :
    AnswerTo s.sessionId req (setupUdp udp s req tp).2 := by
  have made : ∀ rtp rtcp : UInt16, AnswerTo s.sessionId req
      (setupResponse req.cseq s.sessionId rtp.toNat rtcp.toNat) := by
    intro rtp rtcp
    refine timedAnswers plain rfl ?_
    rw [setupResponse, lookupSet _ _ _ _ (by decide), lookupSetSame]
  unfold setupUdp
  dsimp only
  repeat' split
  all_goals first
    | exact errorAnswers _ req (by decide) _
    | exact made _ _

theorem setupAnswers (udp : UdpAnswers) : AnswerTo s.sessionId req (handleSetup udp s req).2 := by
  obtain ⟨begun, same, sessionId⟩ : ∃ begun : RtspSession, begun = { (if s.streamPath = [] then
      { s with streamPath := extractStreamPath req.url } else s) with state := .setup } ∧
      begun.sessionId = s.sessionId := by
    refine ⟨_, rfl, ?_⟩
    dsimp only
    split <;> rfl
  unfold handleSetup
  dsimp only
  rw [← same, ← sessionId]
  have stillPlain : (59 : UInt8) ∉ begun.sessionId := sessionId ▸ plain
  split
  · exact errorAnswers _ req (by decide) _
  · split
    · exact interleavedAnswers stillPlain _
    · split
      · exact udpAnswers stillPlain udp _
      · exact errorAnswers _ req (by decide) _

variable (sdp : SourceId → Bytes) (udp : UdpAnswers) (m : RelayManager) (self : SessionId)

theorem describeAnswers (nonempty : s.sessionId ≠ []) (sdpAt : Bytes → Bytes) :
    AnswerTo s.sessionId req (handleDescribe sdpAt s req).2 := by
  unfold handleDescribe
  dsimp only
  split
  · exact errorAnswers _ req (by decide) _
  · refine plainAnswers plain (sessionCseq s.sessionId req.cseq) ?_
    rw [lookupSet _ _ _ _ (by decide), describeResponse]
    dsimp only
    rw [lookupSet _ _ _ _ (by decide), lookupSet _ _ _ _ (by decide), sessionOk nonempty]

/-! A request is answered once, whatever its method; nothing else is. -/
theorem requestAnswered (nonempty : s.sessionId ≠ []) (isRequest : req.type = .request) :
    ∃ resp, (processRequest sdp udp m self s req).response = some resp ∧
      AnswerTo s.sessionId req resp := by
  rw [processRequest, if_pos isRequest]
  cases req.method with
  | options => exact ⟨_, rfl, plainAnswers plain rfl (lookupSetSame _ _ _)⟩
  | describe => exact ⟨_, rfl, describeAnswers (s := { s with cseq := req.cseq }) plain nonempty _⟩
  | setup => exact ⟨_, rfl, setupAnswers (s := { s with cseq := req.cseq }) plain udp⟩
  | play =>
    have held : ((playResponse req.cseq s.sessionId).set "RTP-Info"
        (ascii "url=" ++ req.url ++ ascii ";seq=0;rtptime=0")).headers.lookup (ascii "Session") =
        some s.sessionId := by
      rw [lookupSet _ _ _ _ (by decide), playResponse, lookupSet _ _ _ _ (by decide), lookupSetSame]
    exact ⟨_, rfl, plainAnswers plain rfl held⟩
  | teardown =>
    exact ⟨_, rfl, plainAnswers plain (sessionCseq s.sessionId req.cseq) (sessionOk nonempty _)⟩
  | getParameter =>
    exact ⟨_, rfl, plainAnswers plain (sessionCseq s.sessionId req.cseq) (sessionOk nonempty _)⟩
  | none | pause | announce | record => exact ⟨_, rfl, errorAnswers _ req (by decide) _⟩
end

theorem otherSilent (sdp : SourceId → Bytes) (udp : UdpAnswers) (m : RelayManager) (self : SessionId)
    (s : RtspSession) {req : RtspMessage} (other : req.type ≠ .request) :
    (processRequest sdp udp m self s req).response = none := by
  rw [processRequest, if_neg other]

/-! No handler changes the session id. -/

theorem setupKeepsId (udp : UdpAnswers) (s : RtspSession) (req : RtspMessage) :
    (handleSetup udp s req).1.sessionId = s.sessionId := by
  simp only [handleSetup, setupInterleaved, setupUdp, closeUdpSockets]
  repeat' split
  all_goals rfl

theorem requestKeepsId (sdp : SourceId → Bytes) (udp : UdpAnswers) (m : RelayManager)
    (self : SessionId) (s : RtspSession) (req : RtspMessage) :
    (processRequest sdp udp m self s req).session.sessionId = s.sessionId := by
  unfold processRequest
  split
  · cases req.method with
    | setup => exact setupKeepsId udp _ req
    | describe =>
      simp only [handleMethod, handleDescribe]
      split <;> rfl
    | teardown =>
      simp only [handleMethod, close, closeUdpSockets]
      repeat' split
      all_goals rfl
    | none | options | play | pause | getParameter | announce | record => rfl
  · rfl

section
variable (env : Nat → Env) (self : SessionId)

/-! The responses so far answer the requests so far. -/
structure Answered (sessionId : Bytes) (s : Serving) (reqs : List RtspMessage) : Prop where
  held : s.session.sessionId = sessionId
  each : List.Forall₂ (AnswerTo sessionId) reqs s.responses

theorem answerAnswered {sessionId : Bytes} (nonempty : sessionId ≠ [])
    (plain : (59 : UInt8) ∉ sessionId) {s : Serving} {reqs : List RtspMessage}
    (h : Answered sessionId s reqs) (u : StreamUnit) :
    Answered sessionId (onUnit ignoreFrame (answerMessage env self) s u)
      (reqs ++ (requestOf u).toList) := by
  obtain ⟨rfl, each⟩ := h
  cases u with
  | interleaved channel payload =>
    refine ⟨rfl, ?_⟩
    rw [requestOf, Option.toList_none, List.append_nil]
    exact each
  | message msg =>
    refine ⟨requestKeepsId _ _ _ self s.session msg, ?_⟩
    simp only [onUnit, answerMessage, requestOf]
    split
    · rename_i isRequest
      obtain ⟨resp, sent, answers⟩ := requestAnswered plain (env s.handled).sdp
        (env s.handled).udp (env s.handled).manager self nonempty isRequest
      rw [sent]
      exact List.rel_append each (.cons answers .nil)
    · rename_i other
      rw [otherSilent _ _ _ _ _ other]
      simpa using each

theorem unitsAnswered {sessionId : Bytes} (nonempty : sessionId ≠ [])
    (plain : (59 : UInt8) ∉ sessionId) {s : Serving} {reqs : List RtspMessage}
    (h : Answered sessionId s reqs) (units : List StreamUnit) :
    Answered sessionId (units.foldl (onUnit ignoreFrame (answerMessage env self)) s)
      (reqs ++ requests units) := by
  induction units generalizing s reqs with
  | nil => simpa [requests] using h
  | cons u rest ih =>
    have next := ih (answerAnswered env self nonempty plain h u)
    rw [List.append_assoc] at next
    have same : (requestOf u).toList ++ requests rest = requests (u :: rest) := by
      unfold requests
      cases found : requestOf u <;> simp [found]
    rw [same] at next
    exact next

theorem eachRequestAnswered (cap : Nat) (chunks : List Bytes) (session : RtspSession) (id : UInt32) :
    List.Forall₂ (AnswerTo (generateSessionId id)) (requests (sessionDecoded cap chunks).1)
      (served env self cap chunks { session with sessionId := generateSessionId id }).1.responses := by
  obtain ⟨nonempty, digits⟩ := generateSessionIdPlain id
  have plain : (59 : UInt8) ∉ generateSessionId id := fun member => (digits 59 member).2 rfl
  have begun : Answered (generateSessionId id)
      ⟨{ session with sessionId := generateSessionId id }, 0, []⟩ [] := ⟨rfl, .nil⟩
  have units := unitsAnswered env self nonempty plain begun (feed interleavedDecoder chunks []).1
  rw [sessionDecodedUnits, served, handleRtspMessageFeeds, ByteBuffer.initContent]
  exact units.each
end

end RtspRelay.Answers
