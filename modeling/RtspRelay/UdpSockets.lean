import RtspRelay.General.Ledger
import RtspRelay.General.Transition
import RtspRelay.SetupOutcome

/-! The descriptors of a session's UDP sockets: the calls its handlers make, one by
one, with what the kernel answers. A failed SETUP and `close` go through
`closeUdpSockets`; SETUP overwrites the two fields without looking at them. -/
namespace RtspRelay.UdpSockets
open Machine ByteSearch Protocol Manager Session SetupOutcome Ledger

/-! A `createUdpSocket` that has returned is an `obtained` or a `refused`, a `close` a
`released`. -/
abbrev Call := Event Nat

def created (made : Option UdpSocket) : Call := asked (made.map (·.fd))

-- The kernel never hands out a descriptor that is open.
structure Kernel where
  answer : List Call → Option UdpSocket
  fresh : ∀ calls made, answer calls = some made → made.fd ∉ heldAfter calls

structure Sockets where
  rtp : Option Nat
  rtcp : Option Nat
  calls : List Call
  deriving DecidableEq, Repr

inductive Step where
  | makeRtp | makeRtcp | closeRtp | closeRtcp
  deriving DecidableEq, Repr

def step (kernel : Kernel) (s : Sockets) : Step → Sockets
  | .makeRtp =>
    let made := kernel.answer s.calls
    { s with rtp := made.map (·.fd), calls := s.calls ++ [created made] }
  | .makeRtcp =>
    let made := kernel.answer s.calls
    { s with rtcp := made.map (·.fd), calls := s.calls ++ [created made] }
  | .closeRtp =>
    match s.rtp with
    | none => s
    | some fd => { s with rtp := none, calls := s.calls ++ [.released fd] }
  | .closeRtcp =>
    match s.rtcp with
    | none => s
    | some fd => { s with rtcp := none, calls := s.calls ++ [.released fd] }

def closeSteps : List Step := [.closeRtp, .closeRtcp]

-- The SETUP that gets as far as `createUdpSocket`.
def OpensSockets (req : RtspMessage) : Prop :=
  req.type = .request ∧ req.method = .setup ∧
    match req.headers.lookup (ascii "Transport") with
    | none => False
    | some tp => ¬ (find (ascii "interleaved=") tp).isSome ∧ (find (ascii "client_port=") tp).isSome ∧
        (clientPorts tp).1 ≠ 0
instance (req) : Decidable (OpensSockets req) := by unfold OpensSockets; split <;> infer_instance

def setupSteps (udp : UdpAnswers) : List Step :=
  [.makeRtp, .makeRtcp] ++ if udp.rtp = none ∨ udp.rtcp = none then closeSteps else []

def closing (s : RtspSession) : List Step := if s.state = .teardown then [] else closeSteps

def requestSteps (udp : UdpAnswers) (s : RtspSession) (req : RtspMessage) : List Step :=
  if OpensSockets req then setupSteps udp
  else if req.type = .request ∧ req.method = .teardown then closing s
  else []

-- What the kernel answers to the two calls of a SETUP.
def Kernel.udp (kernel : Kernel) (calls : List Call) : UdpAnswers where
  rtp := kernel.answer calls
  rtcp := kernel.answer (calls ++ [created (kernel.answer calls)])

structure Life where
  session : RtspSession
  calls : List Call
  deriving DecidableEq

def Life.sockets (l : Life) : Sockets := ⟨l.session.udpRtpFd, l.session.udpRtcpFd, l.calls⟩

-- A request with what the manager is when it comes.
structure Handling where
  sdp : SourceId → Bytes
  manager : RelayManager
  req : RtspMessage

section
variable (kernel : Kernel) (player : SessionId)

def Life.steps (l : Life) (h : Handling) : List Step := requestSteps (kernel.udp l.calls) l.session h.req

def Life.handled (l : Life) (h : Handling) : Handled :=
  processRequest h.sdp (kernel.udp l.calls) h.manager player l.session h.req

def Life.handle (l : Life) (h : Handling) : Life where
  session := (l.handled kernel player h).session
  calls := (Transition.run (step kernel) l.sockets (l.steps kernel h)).calls

def Life.close (m : RelayManager) (l : Life) : Life where
  session := (Session.close m player l.session).2
  calls := (Transition.run (step kernel) l.sockets (closing l.session)).calls
end

/-! The two fields of the session are what the calls leave in them. -/

def Fields (s : RtspSession) (out : Sockets) : Prop := s.udpRtpFd = out.rtp ∧ s.udpRtcpFd = out.rtcp

theorem closedSteps (kernel : Kernel) (s : Sockets) :
    (Transition.run (step kernel) s closeSteps).rtp = none ∧
      (Transition.run (step kernel) s closeSteps).rtcp = none := by
  obtain ⟨rtp, rtcp, calls⟩ := s
  cases rtp <;> cases rtcp <;> exact ⟨rfl, rfl⟩

theorem closeFields (kernel : Kernel) (m : RelayManager) (player : SessionId) (l : Life) :
    Fields (Session.close m player l.session).2
      (Transition.run (step kernel) l.sockets (closing l.session)) := by
  unfold Session.close closing
  by_cases already : l.session.state = .teardown
  · rw [if_pos already, if_pos already]
    exact ⟨rfl, rfl⟩
  · obtain ⟨rtp, rtcp⟩ := closedSteps kernel l.sockets
    rw [if_neg already, if_neg already, Fields, rtp, rtcp]
    dsimp only
    split <;> exact ⟨rfl, rfl⟩

theorem setupFields {kernel : Kernel} {calls : List Call} {s : RtspSession} {req : RtspMessage}
    {tp : Bytes} (port : (clientPorts tp).1 ≠ 0) (start : Sockets) (began : start.calls = calls) :
    Fields (setupUdp (kernel.udp calls) s req tp).1
      (Transition.run (step kernel) start (setupSteps (kernel.udp calls))) := by
  subst began
  unfold setupSteps
  rw [Transition.runAppend]
  by_cases failed : (kernel.udp start.calls).rtp = none ∨ (kernel.udp start.calls).rtcp = none
  · obtain ⟨rtp, rtcp⟩ := closedSteps kernel (Transition.run (step kernel) start [.makeRtp, .makeRtcp])
    rw [udpFailed port failed, if_pos failed, Fields, rtp, rtcp]
    exact ⟨rfl, rfl⟩
  · obtain ⟨rtp, rtcp, first, second⟩ := bothMade failed
    rw [udpMade port first second, if_neg failed]
    have firstMade : kernel.answer start.calls = some rtp := first
    have secondMade : kernel.answer (start.calls ++ [created (kernel.answer start.calls)]) = some rtcp :=
      second
    refine ⟨?_, ?_⟩
    · exact (congrArg (Option.map UdpSocket.fd) firstMade).symm
    · exact (congrArg (Option.map UdpSocket.fd) secondMade).symm

theorem quietMethod {req : RtspMessage} (other : req.method ≠ .setup) : ¬ OpensSockets req :=
  fun opens => other opens.2.1

theorem opensTransport {req : RtspMessage} (opens : OpensSockets req) :
    ∃ tp, req.headers.lookup (ascii "Transport") = some tp ∧
      ¬ (find (ascii "interleaved=") tp).isSome = true ∧
      (find (ascii "client_port=") tp).isSome = true ∧ (clientPorts tp).1 ≠ 0 := by
  obtain ⟨_, _, header⟩ := opens
  split at header
  · exact header.elim
  · exact ⟨_, by assumption, header⟩

theorem setupOpens {req : RtspMessage} (opens : OpensSockets req) (udp : UdpAnswers) (s : RtspSession) :
    ∃ tp, (clientPorts tp).1 ≠ 0 ∧ handleSetup udp s req = setupUdp udp (setupBegun s req) req tp := by
  obtain ⟨tp, given, noTcp, wants, port⟩ := opensTransport opens
  exact ⟨tp, port, by rw [setupFrom udp s given, if_neg noTcp, if_pos wants]⟩

theorem interleavedFields (s : RtspSession) (req : RtspMessage) (tp : Bytes) :
    (setupInterleaved s req tp).1.udpRtpFd = s.udpRtpFd ∧
      (setupInterleaved s req tp).1.udpRtcpFd = s.udpRtcpFd := by
  unfold setupInterleaved
  cases transportRange (ascii "interleaved=") tp <;> exact ⟨rfl, rfl⟩

theorem setupQuiet {req : RtspMessage} (type : req.type = .request) (method : req.method = .setup)
    (quiet : ¬ OpensSockets req) (udp : UdpAnswers) (s : RtspSession) :
    (handleSetup udp s req).1.udpRtpFd = s.udpRtpFd ∧
      (handleSetup udp s req).1.udpRtcpFd = s.udpRtcpFd := by
  cases given : req.headers.lookup (ascii "Transport") with
  | none =>
    rw [setupBare udp s given]
    exact ⟨rfl, rfl⟩
  | some tp =>
    rw [setupFrom udp s given]
    split
    · exact interleavedFields _ req tp
    · rename_i noTcp
      split
      · rename_i wants
        have zero : (clientPorts tp).1 = 0 := by
          refine by_contra fun port => quiet ⟨type, method, ?_⟩
          rw [given]
          exact ⟨noTcp, wants, port⟩
        rw [udpRefused zero]
        exact ⟨rfl, rfl⟩
      · exact ⟨rfl, rfl⟩

theorem handledQuiet {sdp : SourceId → Bytes} {udp : UdpAnswers} {m : RelayManager} {player : SessionId}
    {s : RtspSession} {req : RtspMessage} (quiet : ¬ OpensSockets req)
    (stays : req.method ≠ .teardown) :
    (processRequest sdp udp m player s req).session.udpRtpFd = s.udpRtpFd ∧
      (processRequest sdp udp m player s req).session.udpRtcpFd = s.udpRtcpFd := by
  unfold processRequest
  split
  · rename_i type
    cases method : req.method with
    | describe =>
      rw [handleMethod, handleDescribe]
      dsimp only
      split <;> exact ⟨rfl, rfl⟩
    | setup => exact setupQuiet type method quiet udp { s with cseq := req.cseq }
    | teardown => exact absurd method stays
    | _ => exact ⟨rfl, rfl⟩
  · exact ⟨rfl, rfl⟩

theorem otherFields {sdp : SourceId → Bytes} {udp : UdpAnswers} {m : RelayManager} {player : SessionId}
    {s : RtspSession} {req : RtspMessage} (kind : role req = .other) :
    (processRequest sdp udp m player s req).session.udpRtpFd = s.udpRtpFd ∧
      (processRequest sdp udp m player s req).session.udpRtcpFd = s.udpRtcpFd := by
  by_cases type : req.type = .request
  · rw [role, if_pos type] at kind
    refine handledQuiet (quietMethod fun setup => ?_) fun teardown => ?_
    · rw [setup] at kind
      contradiction
    · rw [teardown] at kind
      contradiction
  · rw [processRequest, if_neg type]
    exact ⟨rfl, rfl⟩

theorem handleFields (kernel : Kernel) (player : SessionId) (l : Life) (h : Handling) :
    Fields (l.handle kernel player h).session
      (Transition.run (step kernel) l.sockets (l.steps kernel h)) := by
  unfold Life.handle Life.handled Life.steps requestSteps
  by_cases opens : OpensSockets h.req
  · obtain ⟨tp, port, made⟩ :=
      setupOpens opens (kernel.udp l.calls) { l.session with cseq := h.req.cseq }
    rw [if_pos opens, processRequest, if_pos opens.1, opens.2.1, handleMethod]
    dsimp only
    rw [made]
    exact setupFields port l.sockets rfl
  · rw [if_neg opens]
    by_cases leaves : h.req.type = .request ∧ h.req.method = .teardown
    · rw [if_pos leaves, processRequest, if_pos leaves.1, leaves.2, handleMethod]
      exact closeFields kernel h.manager player { l with session := { l.session with cseq := h.req.cseq } }
    · rw [if_neg leaves]
      by_cases type : h.req.type = .request
      · exact handledQuiet opens fun method => leaves ⟨type, method⟩
      · rw [processRequest, if_neg type]
        exact ⟨rfl, rfl⟩

end RtspRelay.UdpSockets
