import RtspRelay.Session

/-! The ways a SETUP can end, each with the session it leaves. -/
namespace RtspRelay.SetupOutcome
open Machine ByteSearch Protocol Session

-- The session as SETUP leaves it in front of the Transport header.
def setupBegun (s : RtspSession) (req : RtspMessage) : RtspSession :=
  { s with streamPath := if s.streamPath = [] then extractStreamPath req.url else s.streamPath
           state := .setup }

theorem setupFrom (udp : UdpAnswers) (s : RtspSession) {req : RtspMessage} {tp : Bytes}
    (given : req.headers.lookup (ascii "Transport") = some tp) :
    handleSetup udp s req =
      if (find (ascii "interleaved=") tp).isSome then setupInterleaved (setupBegun s req) req tp
      else if (find (ascii "client_port=") tp).isSome then setupUdp udp (setupBegun s req) req tp
      else (setupBegun s req, errorResponse req.cseq 461 (ascii "Unsupported Transport")) := by
  unfold handleSetup setupBegun
  simp only [given]
  by_cases unset : s.streamPath = []
  · simp only [if_pos unset]
  · simp only [if_neg unset]

theorem setupBare (udp : UdpAnswers) (s : RtspSession) {req : RtspMessage}
    (missing : req.headers.lookup (ascii "Transport") = none) :
    handleSetup udp s req =
      (setupBegun s req, errorResponse req.cseq 461 (ascii "Transport header required")) := by
  unfold handleSetup setupBegun
  simp only [missing]
  by_cases unset : s.streamPath = []
  · simp only [if_pos unset]
  · simp only [if_neg unset]

/-! The UDP branch. -/

def clientPorts (tp : Bytes) : UInt16 × UInt16 :=
  match transportRange (ascii "client_port=") tp with
  | none => (0, 0)
  | some range => (.ofInt range.1, .ofInt range.2)

def clientIp (s : RtspSession) : Bytes :=
  match rfind 58 s.peerAddr with
  | some colon => s.peerAddr.take colon
  | none => s.peerAddr

section
variable {udp : UdpAnswers} {s : RtspSession} {req : RtspMessage} {tp : Bytes}

theorem udpRefused (zero : (clientPorts tp).1 = 0) : setupUdp udp s req tp =
    ({ s with transport := .udp }, errorResponse req.cseq 461 (ascii "Bad Transport")) := if_pos zero

theorem udpFailed (port : (clientPorts tp).1 ≠ 0) (failed : udp.rtp = none ∨ udp.rtcp = none) :
    setupUdp udp s req tp =
      ({ s with transport := .udp, udpRtpFd := none, udpRtcpFd := none
                serverRtpPort := (createUdpSocket udp.rtp s.serverRtpPort).2
                serverRtcpPort := (createUdpSocket udp.rtcp s.serverRtcpPort).2 },
        errorResponse req.cseq 500 (ascii "UDP socket creation failed")) := by
  have missing : (createUdpSocket udp.rtp s.serverRtpPort).1 = none ∨
      (createUdpSocket udp.rtcp s.serverRtcpPort).1 = none := by
    rcases failed with rtp | rtcp
    · exact .inl (by rw [rtp]; rfl)
    · exact .inr (by rw [rtcp]; rfl)
  exact (if_neg port).trans (if_pos missing)

theorem udpMade {rtp rtcp : UdpSocket} (port : (clientPorts tp).1 ≠ 0) (first : udp.rtp = some rtp)
    (second : udp.rtcp = some rtcp) : setupUdp udp s req tp =
      ({ s with transport := .udp, udpRtpFd := some rtp.fd, udpRtcpFd := some rtcp.fd
                serverRtpPort := rtp.port, serverRtcpPort := rtcp.port
                clientRtpAddr := ⟨clientIp s, (clientPorts tp).1⟩
                clientRtcpAddr := ⟨clientIp s, (clientPorts tp).2⟩ },
        setupResponse req.cseq s.sessionId rtp.port.toNat rtcp.port.toNat) := by
  have kept : ¬ ((createUdpSocket udp.rtp s.serverRtpPort).1 = none ∨
      (createUdpSocket udp.rtcp s.serverRtcpPort).1 = none) := by
    rw [first, second]
    rintro (h | h) <;> cases h
  refine ((if_neg port).trans (if_neg kept)).trans ?_
  rw [first, second]
  rfl

theorem bothMade (kept : ¬ (udp.rtp = none ∨ udp.rtcp = none)) :
    ∃ rtp rtcp, udp.rtp = some rtp ∧ udp.rtcp = some rtcp := by
  rw [not_or] at kept
  obtain ⟨rtp, first⟩ := Option.ne_none_iff_exists'.mp kept.1
  obtain ⟨rtcp, second⟩ := Option.ne_none_iff_exists'.mp kept.2
  exact ⟨rtp, rtcp, first, second⟩

theorem udpStatus (port : (clientPorts tp).1 ≠ 0) (kept : ¬ (udp.rtp = none ∨ udp.rtcp = none)) :
    (setupUdp udp s req tp).2.statusCode = 200 := by
  obtain ⟨rtp, rtcp, first, second⟩ := bothMade kept
  rw [udpMade port first second]
  rfl
end

end RtspRelay.SetupOutcome
