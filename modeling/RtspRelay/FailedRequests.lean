import RtspRelay.UdpSockets

/-! What a request leaves behind when its response is not a 200. DESCRIBE and SETUP
assign to the session in front of their checks, so a failure undoes nothing. -/
namespace RtspRelay.FailedRequests
open Machine ByteSearch Protocol Manager Session SetupOutcome UdpSockets Ledger

structure Unchanged (before after : Life) (m m' : RelayManager) : Prop where
  state : after.session.state = before.session.state
  streamPath : after.session.streamPath = before.session.streamPath
  transport : after.session.transport = before.session.transport
  rtpChannel : after.session.rtpChannel = before.session.rtpChannel
  rtcpChannel : after.session.rtcpChannel = before.session.rtcpChannel
  rtpAddr : after.session.clientRtpAddr = before.session.clientRtpAddr
  rtcpAddr : after.session.clientRtcpAddr = before.session.clientRtcpAddr
  rtpFd : after.session.udpRtpFd = before.session.udpRtpFd
  rtcpFd : after.session.udpRtcpFd = before.session.udpRtcpFd
  sockets : heldAfter after.calls = heldAfter before.calls
  sinks : ∀ path, m'.sinks path = m.sinks path

-- UDP mode is entered in front of the check of the ports.
def EntersUdp (req : RtspMessage) : Prop :=
  match req.headers.lookup (ascii "Transport") with
  | none => False
  | some tp => ¬ (find (ascii "interleaved=") tp).isSome ∧ (find (ascii "client_port=") tp).isSome

instance (req) : Decidable (EntersUdp req) := by
  unfold EntersUdp
  exact match req.headers.lookup (ascii "Transport") with
    | none => instDecidableFalse
    | some _ => instDecidableAnd

-- The assignments in front of the checks find their values already there, and a SETUP that
-- opens its own sockets finds no others.
def AlreadySet (s : RtspSession) (req : RtspMessage) : Prop :=
  match req.method with
  | .describe => s.state = .describe ∧ s.streamPath = extractStreamPath req.url
  | .setup => s.state = .setup ∧ (s.streamPath = [] → extractStreamPath req.url = []) ∧
      (EntersUdp req → s.transport = .udp) ∧
      (OpensSockets req → s.udpRtpFd = none ∧ s.udpRtcpFd = none)
  | _ => True

/-! A failed pair of sockets leaves as many open as there were. -/

theorem failedOpens {kernel : Kernel} (start : Sockets)
    (failed : (kernel.udp start.calls).rtp = none ∨ (kernel.udp start.calls).rtcp = none) :
    heldAfter (Transition.run (step kernel) start (setupSteps (kernel.udp start.calls))).calls =
      heldAfter start.calls := by
  have steps : setupSteps (kernel.udp start.calls) = [.makeRtp, .makeRtcp, .closeRtp, .closeRtcp] := by
    rw [setupSteps, if_pos failed]
    rfl
  rw [steps]
  cases first : kernel.answer start.calls with
  | none =>
    cases second : kernel.answer (start.calls ++ [.refused]) with
    | none =>
      simp only [Transition.run, List.foldl_cons, List.foldl_nil, step, created, asked, first, second,
        Option.map_none]
      rw [heldSnoc, heldSnoc, after, after]
    | some rtcp =>
      simp only [Transition.run, List.foldl_cons, List.foldl_nil, step, created, asked, first, second,
        Option.map_none, Option.map_some]
      rw [heldBriefly (kernel.fresh _ _ second), heldSnoc, after]
  | some rtp =>
    cases second : kernel.answer (start.calls ++ [.obtained rtp.fd]) with
    | none =>
      simp only [Transition.run, List.foldl_cons, List.foldl_nil, step, created, asked, first, second,
        Option.map_none, Option.map_some]
      rw [heldSnoc, heldSnoc, after, ← heldSnoc, heldBriefly (kernel.fresh _ _ first)]
    | some rtcp =>
      have firstMade : (kernel.udp start.calls).rtp = some rtp := first
      have secondMade : (kernel.udp start.calls).rtcp = some rtcp := by
        rw [Kernel.udp, first]
        exact second
      rw [firstMade, secondMade] at failed
      rcases failed with h | h <;> cases h

/-! What a failure leaves in the session. -/

structure FailedSetup (s after : RtspSession) (req : RtspMessage) : Prop where
  state : after.state = .setup
  streamPath : after.streamPath = if s.streamPath = [] then extractStreamPath req.url else s.streamPath
  transport : after.transport = if EntersUdp req then .udp else s.transport
  rtpChannel : after.rtpChannel = s.rtpChannel
  rtcpChannel : after.rtcpChannel = s.rtcpChannel
  rtpAddr : after.clientRtpAddr = s.clientRtpAddr
  rtcpAddr : after.clientRtcpAddr = s.clientRtcpAddr

theorem setupFailure {udp : UdpAnswers} {s : RtspSession} {req : RtspMessage}
    (failed : (handleSetup udp s req).2.statusCode ≠ 200) :
    FailedSetup s (handleSetup udp s req).1 req := by
  cases given : req.headers.lookup (ascii "Transport") with
  | none =>
    have stays : ¬ EntersUdp req := by
      rw [EntersUdp, given]
      exact not_false
    rw [setupBare udp s given]
    exact ⟨rfl, rfl, (if_neg stays).symm, rfl, rfl, rfl, rfl⟩
  | some tp =>
    have udpMode : EntersUdp req ↔
        ¬ (find (ascii "interleaved=") tp).isSome = true ∧ (find (ascii "client_port=") tp).isSome = true := by
      rw [EntersUdp, given]
    rw [setupFrom udp s given] at failed ⊢
    by_cases tcp : (find (ascii "interleaved=") tp).isSome = true
    · rw [if_pos tcp] at failed
      exact absurd rfl failed
    · rw [if_neg tcp] at failed ⊢
      by_cases wants : (find (ascii "client_port=") tp).isSome = true
      · have enters := udpMode.mpr ⟨tcp, wants⟩
        rw [if_pos wants] at failed ⊢
        by_cases port : (clientPorts tp).1 = 0
        · rw [udpRefused port]
          exact ⟨rfl, rfl, (if_pos enters).symm, rfl, rfl, rfl, rfl⟩
        · by_cases missing : udp.rtp = none ∨ udp.rtcp = none
          · rw [udpFailed port missing]
            exact ⟨rfl, rfl, (if_pos enters).symm, rfl, rfl, rfl, rfl⟩
          · exact absurd (udpStatus port missing) failed
      · have stays : ¬ EntersUdp req := fun enters => wants (udpMode.mp enters).2
        rw [if_neg wants]
        exact ⟨rfl, rfl, (if_neg stays).symm, rfl, rfl, rfl, rfl⟩

theorem setupMissing {udp : UdpAnswers} {s : RtspSession} {req : RtspMessage} (opens : OpensSockets req)
    (failed : (handleSetup udp s req).2.statusCode ≠ 200) :
    (udp.rtp = none ∨ udp.rtcp = none) ∧ ∃ tp, (clientPorts tp).1 ≠ 0 ∧
      handleSetup udp s req = setupUdp udp (setupBegun s req) req tp := by
  obtain ⟨tp, port, made⟩ := setupOpens opens udp s
  refine ⟨by_contra fun kept => failed ?_, tp, port, made⟩
  rw [made]
  exact udpStatus port kept

-- The failed pair takes the place of the descriptors that were there.
theorem setupDescriptors {udp : UdpAnswers} {s : RtspSession} {req : RtspMessage} (type : req.type = .request)
    (method : req.method = .setup) (failed : (handleSetup udp s req).2.statusCode ≠ 200) :
    (handleSetup udp s req).1.udpRtpFd = (if OpensSockets req then none else s.udpRtpFd) ∧
      (handleSetup udp s req).1.udpRtcpFd = (if OpensSockets req then none else s.udpRtcpFd) := by
  by_cases opens : OpensSockets req
  · obtain ⟨missing, tp, port, made⟩ := setupMissing opens failed
    rw [made, udpFailed port missing, if_pos opens, if_pos opens]
    exact ⟨rfl, rfl⟩
  · rw [if_neg opens, if_neg opens]
    exact setupQuiet type method opens udp s

theorem describeLeaves (sdpAt : Bytes → Bytes) (s : RtspSession) (req : RtspMessage) :
    (handleDescribe sdpAt s req).1 =
      { s with streamPath := extractStreamPath req.url, state := .describe } := by
  unfold handleDescribe
  dsimp only
  split <;> rfl

theorem sessionStatus (cseq : Nat) (sessionId : Bytes) :
    ((Protocol.ok cseq).setSession sessionId).statusCode = 200 := by
  unfold RtspMessage.setSession
  split <;> rfl

section
variable {kernel : Kernel} {player : SessionId} {l : Life} {h : Handling}

theorem quietCalls (quiet : ¬ OpensSockets h.req) (stays : h.req.method ≠ .teardown) :
    (l.handle kernel player h).calls = l.calls := by
  rw [Life.handle, Life.steps, requestSteps, if_neg quiet, if_neg fun leaves => stays leaves.2]
  rfl

theorem setupCalls (method : h.req.method = .setup)
    (failed : (handleSetup (kernel.udp l.calls) { l.session with cseq := h.req.cseq } h.req).2.statusCode ≠ 200) :
    heldAfter (l.handle kernel player h).calls = heldAfter l.calls := by
  by_cases opens : OpensSockets h.req
  · rw [Life.handle, Life.steps, requestSteps, if_pos opens]
    exact failedOpens l.sockets (setupMissing opens failed).1
  · rw [quietCalls opens]
    rw [method]
    nofun

theorem pathKept (s : RtspSession) (url : Bytes) :
    (if s.streamPath = [] then extractStreamPath url else s.streamPath) = s.streamPath ↔
      (s.streamPath = [] → extractStreamPath url = []) := by
  split
  · rename_i unset
    rw [unset]
    exact ⟨fun same _ => same, fun same => same rfl⟩
  · rename_i kept
    exact iff_of_true rfl fun unset => absurd unset kept

theorem descriptorKept (req : RtspMessage) (fd : Option Nat) :
    (if OpensSockets req then none else fd) = fd ↔ (OpensSockets req → fd = none) := by
  split
  · rename_i opens
    exact ⟨fun same _ => same.symm, fun same => (same opens).symm⟩
  · rename_i quiet
    exact iff_of_true rfl fun opens => absurd opens quiet

theorem transportKept (s : RtspSession) (req : RtspMessage) :
    (if EntersUdp req then Transport.udp else s.transport) = s.transport ↔
      (EntersUdp req → s.transport = .udp) := by
  split
  · rename_i enters
    exact ⟨fun same _ => same.symm, fun same => (same enters).symm⟩
  · rename_i stays
    exact iff_of_true rfl fun enters => absurd enters stays

/-! The requests that can fail. -/

theorem describeFailed (type : h.req.type = .request) (method : h.req.method = .describe) :
    Unchanged l (l.handle kernel player h) h.manager (l.handled kernel player h).manager ↔
      l.session.state = .describe ∧ l.session.streamPath = extractStreamPath h.req.url := by
  have handled : l.handled kernel player h =
      handleMethod h.sdp (kernel.udp l.calls) h.manager player { l.session with cseq := h.req.cseq }
        h.req .describe := (if_pos type).trans (by rw [method])
  have session : (l.handle kernel player h).session =
      { l.session with cseq := h.req.cseq, streamPath := extractStreamPath h.req.url, state := .describe } := by
    rw [Life.handle, handled]
    exact describeLeaves _ _ h.req
  have manager : (l.handled kernel player h).manager = h.manager := by
    rw [handled]
    rfl
  have calls : (l.handle kernel player h).calls = l.calls :=
    quietCalls (quietMethod (by rw [method]; nofun)) (by rw [method]; nofun)
  constructor
  · intro same
    have state := same.state
    have path := same.streamPath
    rw [session] at state path
    exact ⟨state.symm, path.symm⟩
  · rintro ⟨state, path⟩
    refine ⟨?_, ?_, ?_, ?_, ?_, ?_, ?_, ?_, ?_, by rw [calls], fun _ => by rw [manager]⟩ <;> rw [session]
    · exact state.symm
    · exact path.symm

theorem setupFailed (type : h.req.type = .request) (method : h.req.method = .setup)
    (failed : (handleSetup (kernel.udp l.calls) { l.session with cseq := h.req.cseq } h.req).2.statusCode ≠ 200) :
    Unchanged l (l.handle kernel player h) h.manager (l.handled kernel player h).manager ↔
      l.session.state = .setup ∧
        (l.session.streamPath = [] → extractStreamPath h.req.url = []) ∧
        (EntersUdp h.req → l.session.transport = .udp) ∧
        (OpensSockets h.req → l.session.udpRtpFd = none ∧ l.session.udpRtcpFd = none) := by
  have handled : l.handled kernel player h =
      handleMethod h.sdp (kernel.udp l.calls) h.manager player { l.session with cseq := h.req.cseq }
        h.req .setup := (if_pos type).trans (by rw [method])
  have left : FailedSetup { l.session with cseq := h.req.cseq } (l.handle kernel player h).session h.req := by
    rw [Life.handle, handled]
    exact setupFailure failed
  obtain ⟨rtp, rtcp⟩ :
      (l.handle kernel player h).session.udpRtpFd = (if OpensSockets h.req then none else l.session.udpRtpFd) ∧
        (l.handle kernel player h).session.udpRtcpFd =
          (if OpensSockets h.req then none else l.session.udpRtcpFd) := by
    rw [Life.handle, handled]
    exact setupDescriptors type method failed
  have manager : (l.handled kernel player h).manager = h.manager := by
    rw [handled]
    rfl
  have calls : heldAfter (l.handle kernel player h).calls = heldAfter l.calls := setupCalls method failed
  rw [← pathKept, ← transportKept, imp_and, ← descriptorKept, ← descriptorKept]
  constructor
  · intro same
    exact ⟨same.state.symm.trans left.state, left.streamPath.symm.trans same.streamPath,
      left.transport.symm.trans same.transport, rtp.symm.trans same.rtpFd, rtcp.symm.trans same.rtcpFd⟩
  · rintro ⟨state, path, transport, noRtp, noRtcp⟩
    exact
      { state := left.state.trans state.symm
        streamPath := left.streamPath.trans path
        transport := left.transport.trans transport
        rtpChannel := left.rtpChannel
        rtcpChannel := left.rtcpChannel
        rtpAddr := left.rtpAddr
        rtcpAddr := left.rtcpAddr
        rtpFd := rtp.trans noRtp
        rtcpFd := rtcp.trans noRtcp
        sockets := calls
        sinks := fun _ => by rw [manager] }
end

theorem failedUnchanged (kernel : Kernel) (player : SessionId) (l : Life) (h : Handling) (r : RtspMessage)
    (answered : (l.handled kernel player h).response = some r) (failed : r.statusCode ≠ 200) :
    Unchanged l (l.handle kernel player h) h.manager (l.handled kernel player h).manager ↔
      AlreadySet l.session h.req := by
  by_cases type : h.req.type = .request
  · have handled : l.handled kernel player h =
        handleMethod h.sdp (kernel.udp l.calls) h.manager player { l.session with cseq := h.req.cseq }
          h.req h.req.method := if_pos type
    rw [handled] at answered
    unfold AlreadySet
    cases method : h.req.method with
    | describe => exact describeFailed type method
    | setup =>
      rw [method] at answered
      obtain rfl := Option.some.inj answered
      exact setupFailed type method failed
    | options | play =>
      rw [method] at answered
      obtain rfl := Option.some.inj answered
      exact absurd rfl failed
    | teardown | getParameter =>
      rw [method] at answered
      obtain rfl := Option.some.inj answered
      exact absurd (sessionStatus h.req.cseq l.session.sessionId) failed
    | _ =>
      have calls : (l.handle kernel player h).calls = l.calls :=
        quietCalls (quietMethod (by rw [method]; nofun)) (by rw [method]; nofun)
      have session : (l.handle kernel player h).session = { l.session with cseq := h.req.cseq } := by
        rw [Life.handle, handled, method]
        rfl
      have manager : (l.handled kernel player h).manager = h.manager := by
        rw [handled, method]
        rfl
      refine iff_of_true ?_ trivial
      refine ⟨?_, ?_, ?_, ?_, ?_, ?_, ?_, ?_, ?_, by rw [calls], fun _ => by rw [manager]⟩ <;> rw [session]
  · rw [Life.handled, processRequest, if_neg type] at answered
    contradiction

def exhausted : Kernel := ⟨fun _ => none, fun _ _ made => nomatch made⟩

def noStream (path : Bytes) : Handling where
  sdp _ := []
  manager := ⟨∅, 500⟩
  req := { type := .request, method := .describe, cseq := 2, url := ascii "rtsp://10.0.0.5:8554" ++ path }

def described : Life where
  session := { create (ascii "10.0.0.7:5000") (ascii "00000001") with
    state := .describe, streamPath := ascii "/cam" }
  calls := []

theorem describedAgain :
    Unchanged described (described.handle exhausted 0 (noStream (ascii "/cam"))) ⟨∅, 500⟩
      (described.handled exhausted 0 (noStream (ascii "/cam"))).manager := by
  refine (failedUnchanged exhausted 0 described (noStream (ascii "/cam"))
    (errorResponse 2 404 (ascii "Stream Not Found")) rfl (by decide)).mpr ?_
  exact ⟨rfl, by decide⟩

/-! A DESCRIBE of a path without a stream stops a playing client. -/
def playing : Life where
  session := { create (ascii "10.0.0.7:5000") (ascii "00000001") with
    state := .playing, streamPath := ascii "/cam" }
  calls := []

theorem playingStopped :
    ¬ ∀ (kernel : Kernel) (player : SessionId) (l : Life) (h : Handling) (r : RtspMessage),
      (l.handled kernel player h).response = some r → r.statusCode ≠ 200 →
      Unchanged l (l.handle kernel player h) h.manager (l.handled kernel player h).manager := by
  intro always
  have same := always exhausted 0 playing (noStream (ascii "/other"))
    (errorResponse 2 404 (ascii "Stream Not Found")) rfl (by decide)
  exact absurd same.state (by decide)

end RtspRelay.FailedRequests
