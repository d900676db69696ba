import RtspRelay.Protocol
import RtspRelay.Manager

/-! A player's session: the request handlers and the packets it passes on. The
connection appears as its peer address and whether it is still connected; a
response is handed to `send`, the last thing a handler does but for TEARDOWN.
The session's address as a shared object is `self`. -/
namespace RtspRelay.Session
open Machine ByteSearch MessageText Protocol Manager

inductive State where
  | idle | describe | setup | playing | teardown
  deriving DecidableEq, Repr

inductive Transport where
  | tcpInterleaved | udp
  deriving DecidableEq, Repr

structure SockAddr where
  ip : Bytes
  port : UInt16
  deriving DecidableEq, Repr

structure RtspSession where
  peerAddr : Bytes
  sessionId : Bytes
  connected : Bool
  streamPath : Bytes
  state : State
  cseq : Nat
  transport : Transport
  rtpChannel : UInt8
  rtcpChannel : UInt8
  udpRtpFd : Option Nat
  udpRtcpFd : Option Nat
  serverRtpPort : UInt16
  serverRtcpPort : UInt16
  clientRtpAddr : SockAddr
  clientRtcpAddr : SockAddr
  deriving DecidableEq, Repr

def create (peerAddr sessionId : Bytes) : RtspSession :=
  { peerAddr, sessionId, connected := true, streamPath := [], state := .idle, cseq := 0
    transport := .tcpInterleaved, rtpChannel := 0, rtcpChannel := 1
    udpRtpFd := none, udpRtcpFd := none, serverRtpPort := 0, serverRtcpPort := 0
    clientRtpAddr := ⟨[], 0⟩, clientRtcpAddr := ⟨[], 0⟩ }

def hexDigit (n : Nat) : UInt8 := .ofNat (if n < 10 then 48 + n else 87 + n)

-- snprintf "%08x"
def generateSessionId (id : UInt32) : Bytes :=
  (List.range 8).map fun i => hexDigit (id.toNat / 16 ^ (7 - i) % 16)

-- What socket(), bind() and getsockname() answer when a UDP socket is made.
structure UdpSocket where
  fd : Nat
  port : UInt16
  deriving DecidableEq, Repr

structure UdpAnswers where
  rtp : Option UdpSocket
  rtcp : Option UdpSocket
  deriving DecidableEq, Repr

def createUdpSocket (made : Option UdpSocket) (port : UInt16) : Option Nat × UInt16 :=
  match made with
  | none => (none, port)
  | some udp => (some udp.fd, udp.port)

def closeUdpSockets (s : RtspSession) : RtspSession := { s with udpRtpFd := none, udpRtcpFd := none }

def extractStreamPath (url : Bytes) : Bytes :=
  match find (ascii "://") url with
  | none => url
  | some pos =>
    match findFrom [47] url (pos + 3) with
    | none => ascii "/"
    | some slash => url.drop slash

def close (m : RelayManager) (self : SessionId) (s : RtspSession) : RelayManager × RtspSession :=
  if s.state = .teardown then (m, s)
  else
    let left := closeUdpSockets { s with state := .teardown }
    if s.state = .playing ∧ s.streamPath ≠ [] then (m.removeSink s.streamPath self, left)
    else (m, left)

/-! The request handlers. -/

def handleOptions (s : RtspSession) (req : RtspMessage) : RtspMessage :=
  (optionsResponse req.cseq).set "Session" s.sessionId

def handleDescribe (sdpAt : Bytes → Bytes) (s : RtspSession) (req : RtspMessage) :
    RtspSession × RtspMessage :=
  let s := { s with streamPath := extractStreamPath req.url, state := .describe }
  let sdp := sdpAt s.streamPath
  if sdp = [] then (s, errorResponse req.cseq 404 (ascii "Stream Not Found"))
  else (s, (describeResponse req.cseq sdp s.sessionId).set "Content-Base" (req.url ++ ascii "/"))

def setupInterleaved (s : RtspSession) (req : RtspMessage) (tp : Bytes) :
    RtspSession × RtspMessage :=
  let s := { s with transport := .tcpInterleaved }
  let s := match transportRange (ascii "interleaved=") tp with
    | none => s
    | some range => { s with rtpChannel := (channels range).1, rtcpChannel := (channels range).2 }
  (s, (setupResponse req.cseq s.sessionId 0 0).set "Transport"
    (ascii "RTP/AVP/TCP;unicast;interleaved=" ++ decimal s.rtpChannel.toNat ++ ascii "-" ++
      decimal s.rtcpChannel.toNat))

def setupUdp (udp : UdpAnswers) (s : RtspSession) (req : RtspMessage) (tp : Bytes) :
    RtspSession × RtspMessage :=
  let s := { s with transport := .udp }
  let (clientRtpPort, clientRtcpPort) : UInt16 × UInt16 :=
    match transportRange (ascii "client_port=") tp with
    | none => (0, 0)
    | some range => (.ofInt range.1, .ofInt range.2)
  if clientRtpPort = 0 then (s, errorResponse req.cseq 461 (ascii "Bad Transport"))
  else
    let rtp := createUdpSocket udp.rtp s.serverRtpPort
    let rtcp := createUdpSocket udp.rtcp s.serverRtcpPort
    let s := { s with udpRtpFd := rtp.1, serverRtpPort := rtp.2
                      udpRtcpFd := rtcp.1, serverRtcpPort := rtcp.2 }
    if s.udpRtpFd = none ∨ s.udpRtcpFd = none then
      (closeUdpSockets s, errorResponse req.cseq 500 (ascii "UDP socket creation failed"))
    else
      let clientIp := match rfind 58 s.peerAddr with
        | some colon => s.peerAddr.take colon
        | none => s.peerAddr
      ({ s with clientRtpAddr := ⟨clientIp, clientRtpPort⟩
                clientRtcpAddr := ⟨clientIp, clientRtcpPort⟩ },
        setupResponse req.cseq s.sessionId s.serverRtpPort.toNat s.serverRtcpPort.toNat)

def handleSetup (udp : UdpAnswers) (s : RtspSession) (req : RtspMessage) :
    RtspSession × RtspMessage :=
  let s := if s.streamPath = [] then { s with streamPath := extractStreamPath req.url } else s
  let s := { s with state := .setup }
  match req.headers.lookup (ascii "Transport") with
  | none => (s, errorResponse req.cseq 461 (ascii "Transport header required"))
  | some tp =>
    if (find (ascii "interleaved=") tp).isSome then setupInterleaved s req tp
    else if (find (ascii "client_port=") tp).isSome then setupUdp udp s req tp
    else (s, errorResponse req.cseq 461 (ascii "Unsupported Transport"))

def handlePlay (m : RelayManager) (self : SessionId) (s : RtspSession) (req : RtspMessage) :
    RelayManager × RtspSession × RtspMessage :=
  let s := { s with state := .playing }
  (m.addSink s.streamPath self, s, (playResponse req.cseq s.sessionId).set "RTP-Info"
    (ascii "url=" ++ req.url ++ ascii ";seq=0;rtptime=0"))

def handleGetParameter (s : RtspSession) (req : RtspMessage) : RtspMessage :=
  okResponse req.cseq s.sessionId

structure Handled where
  manager : RelayManager
  session : RtspSession
  response : Option RtspMessage
  deriving DecidableEq

section
variable (sdp : SourceId → Bytes) (udp : UdpAnswers) (m : RelayManager) (self : SessionId)
  (s : RtspSession) (req : RtspMessage)

def handleMethod : RtspMethod → Handled
  | .options => ⟨m, s, some (handleOptions s req)⟩
  | .describe =>
    let out := handleDescribe (m.getStreamSdp sdp) s req
    ⟨m, out.1, some out.2⟩
  | .setup =>
    let out := handleSetup udp s req
    ⟨m, out.1, some out.2⟩
  | .play =>
    let out := handlePlay m self s req
    ⟨out.1, out.2.1, some out.2.2⟩
  | .teardown =>
    let out := close m self s
    ⟨out.1, out.2, some (teardownResponse req.cseq s.sessionId)⟩
  | .getParameter => ⟨m, s, some (handleGetParameter s req)⟩
  | _ => ⟨m, s, some (errorResponse req.cseq 461 (ascii "Not Implemented"))⟩

def processRequest : Handled :=
  if req.type = .request then handleMethod sdp udp m self { s with cseq := req.cseq } req req.method
  else ⟨m, s, none⟩
end

/-! Packets. In interleaved mode a packet is two sends. -/

inductive Emission where
  | datagram (fd : Nat) (dest : SockAddr) (data : Bytes)
  | interleaved (header data : Bytes)
  deriving DecidableEq, Repr

def interleavedHeader (channel : UInt8) (len : Nat) : Bytes :=
  [36, channel, .ofNat (len / 256 % 256), .ofNat (len % 256)]

def onRtpData (s : RtspSession) (data : Bytes) : Option Emission :=
  if s.state ≠ .playing then none
  else match s.transport with
    | .udp => s.udpRtpFd.map fun fd => .datagram fd s.clientRtpAddr data
    | .tcpInterleaved =>
      if s.connected then some (.interleaved (interleavedHeader s.rtpChannel data.length) data)
      else none

/-! What a request does to the session's place in the fan-out. -/

inductive Role where
  | other | move | play | teardown
  deriving DecidableEq, Repr

def methodRole : RtspMethod → Role
  | .describe => .move
  | .setup => .move
  | .play => .play
  | .teardown => .teardown
  | _ => .other

def role (req : RtspMessage) : Role :=
  if req.type = .request then methodRole req.method else .other

section
variable {sdp : SourceId → Bytes} {udp : UdpAnswers} {m : RelayManager} {self : SessionId}
  {s : RtspSession} {req : RtspMessage}

theorem setupState (udp : UdpAnswers) (s : RtspSession) (req : RtspMessage) :
    (handleSetup udp s req).1.state = .setup ∧
      (handleSetup udp s req).1.connected = s.connected := by
  simp only [handleSetup, setupInterleaved, setupUdp, closeUdpSockets]
  repeat' split
  all_goals exact ⟨rfl, rfl⟩

theorem describeState (sdpAt : Bytes → Bytes) (s : RtspSession) (req : RtspMessage) :
    (handleDescribe sdpAt s req).1.state = .describe ∧
      (handleDescribe sdpAt s req).1.connected = s.connected := by
  simp only [handleDescribe]
  split <;> exact ⟨rfl, rfl⟩

theorem closeKeeps (m : RelayManager) (self : SessionId) (s : RtspSession) :
    (close m self s).2.connected = s.connected ∧ (close m self s).2.state = .teardown ∧
      (close m self s).2.streamPath = s.streamPath := by
  simp only [close, closeUdpSockets]
  split
  · rename_i already
    exact ⟨rfl, already, rfl⟩
  · split <;> exact ⟨rfl, rfl, rfl⟩

theorem requestRole {kind : Role} (same : role req = kind) (acts : kind ≠ .other) :
    req.type = .request ∧ methodRole req.method = kind := by
  unfold role at same
  split at same
  · rename_i isRequest
    exact ⟨isRequest, same⟩
  · exact absurd same.symm acts

theorem otherHandled (kind : role req = .other) :
    (processRequest sdp udp m self s req).manager = m ∧
      (processRequest sdp udp m self s req).session.streamPath = s.streamPath ∧
      (processRequest sdp udp m self s req).session.state = s.state ∧
      (processRequest sdp udp m self s req).session.connected = s.connected := by
  unfold role at kind
  unfold processRequest
  split at kind
  · rename_i isRequest
    rw [if_pos isRequest]
    cases method : req.method <;> rw [method] at kind <;>
      first | contradiction | exact ⟨rfl, rfl, rfl, rfl⟩
  · rename_i notRequest
    rw [if_neg notRequest]
    exact ⟨rfl, rfl, rfl, rfl⟩

theorem moveHandled (kind : role req = .move) :
    (processRequest sdp udp m self s req).manager = m ∧
      ((processRequest sdp udp m self s req).session.state = .describe ∨
        (processRequest sdp udp m self s req).session.state = .setup) ∧
      (processRequest sdp udp m self s req).session.connected = s.connected := by
  obtain ⟨isRequest, same⟩ := requestRole kind (by decide)
  rw [processRequest, if_pos isRequest]
  cases method : req.method <;> rw [method] at same <;> try contradiction
  · have after := describeState (m.getStreamSdp sdp) { s with cseq := req.cseq } req
    exact ⟨rfl, .inl after.1, after.2⟩
  · have after := setupState udp { s with cseq := req.cseq } req
    exact ⟨rfl, .inr after.1, after.2⟩

theorem playHandled (kind : role req = .play) :
    processRequest sdp udp m self s req =
      ⟨m.addSink s.streamPath self, { s with cseq := req.cseq, state := .playing },
        some ((playResponse req.cseq s.sessionId).set "RTP-Info"
          (ascii "url=" ++ req.url ++ ascii ";seq=0;rtptime=0"))⟩ := by
  obtain ⟨isRequest, same⟩ := requestRole kind (by decide)
  rw [processRequest, if_pos isRequest]
  cases method : req.method <;> rw [method] at same <;> try contradiction
  rfl

theorem teardownHandled (kind : role req = .teardown) :
    processRequest sdp udp m self s req =
      ⟨(close m self { s with cseq := req.cseq }).1, (close m self { s with cseq := req.cseq }).2,
        some (teardownResponse req.cseq s.sessionId)⟩ := by
  obtain ⟨isRequest, same⟩ := requestRole kind (by decide)
  rw [processRequest, if_pos isRequest]
  cases method : req.method <;> rw [method] at same <;> try contradiction
  rfl
end

end RtspRelay.Session
