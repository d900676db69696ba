import RtspRelay.General.LastWrite
import RtspRelay.UdpSockets
import RtspRelay.MediaPath

/-! Where the datagrams of a session go. A SETUP names only ports; the address is that of
the player's own connection, and no other player is ever sent to. -/
namespace RtspRelay.Datagrams
open Machine ByteSearch Protocol Manager Session Service Relay Transition LastWrite
open FanOut SetupOutcome MediaPath
open UdpSockets (OpensSockets opensTransport setupQuiet)

-- The socket that a session sends from, and the port it sends to.
structure Target where
  fd : Nat
  port : UInt16

-- What is in front of the last colon.
def ipOf (peerAddr : Bytes) : Bytes :=
  match rfind 58 peerAddr with
  | some colon => peerAddr.take colon
  | none => peerAddr

def askedPort (req : RtspMessage) : UInt16 :=
  match req.headers.lookup (ascii "Transport") with
  | none => 0
  | some tp => (clientPorts tp).1

def opened (req : RtspMessage) (udp : UdpAnswers) : Option Target :=
  match udp.rtp, udp.rtcp with
  | some rtp, some _ => some ⟨rtp.fd, askedPort req⟩
  | _, _ => none

-- A SETUP that gets as far as the sockets, and the end of the session.
def targets (player : SessionId) : Service.Input → Option (Option Target)
  | .request other req udp =>
    if other = player then
      if OpensSockets req then some (opened req udp)
      else if role req = .teardown then some none
      else none
    else none
  | .lost other => if other = player then some none else none
  | _ => none

-- What the fields of a session say about it.
structure Sends (peerAddr : Bytes) (target : Option Target) (session : RtspSession) : Prop where
  socket : session.udpRtpFd = target.map Target.fd
  address : ∀ t ∈ target, session.clientRtpAddr = ⟨ipOf peerAddr, t.port⟩ ∧ t.port ≠ 0
  ended : session.state = .teardown → session.udpRtpFd = none
  peer : session.peerAddr = peerAddr

-- A handler that has nothing to do with the sockets.
structure Untouched (session after : RtspSession) : Prop where
  socket : after.udpRtpFd = session.udpRtpFd
  address : after.clientRtpAddr = session.clientRtpAddr
  peer : after.peerAddr = session.peerAddr
  ended : after.state = .teardown → session.state = .teardown

variable {peerAddr : Bytes} {target : Option Target} {session : RtspSession}

theorem sendsUntouched {after : RtspSession} (h : Sends peerAddr target session) (same : Untouched session after) :
    Sends peerAddr target after := by
  refine ⟨same.socket.trans h.socket, fun t there => ?_, fun ended => ?_, same.peer.trans h.peer⟩
  · rw [same.address]
    exact h.address t there
  · exact same.socket.trans (h.ended (same.ended ended))

theorem interleavedUntouched (s : RtspSession) (req : RtspMessage) (tp : Bytes) :
    (setupInterleaved s req tp).1.clientRtpAddr = s.clientRtpAddr ∧
      (setupInterleaved s req tp).1.peerAddr = s.peerAddr ∧ (setupInterleaved s req tp).1.state = s.state := by
  unfold setupInterleaved
  cases transportRange (ascii "interleaved=") tp <;> exact ⟨rfl, rfl, rfl⟩

theorem setupUntouched {req : RtspMessage} (type : req.type = .request) (method : req.method = .setup)
    (quiet : ¬ OpensSockets req) (udp : UdpAnswers) (s : RtspSession) :
    Untouched s (handleSetup udp s req).1 := by
  have socket := (setupQuiet type method quiet udp s).1
  cases given : req.headers.lookup (ascii "Transport") with
  | none =>
    rw [setupBare udp s given] at socket ⊢
    exact ⟨socket, rfl, rfl, fun ended => by cases ended⟩
  | some tp =>
    rw [setupFrom udp s given] at socket ⊢
    split
    · rename_i tcp
      rw [if_pos tcp] at socket
      obtain ⟨address, peer, state⟩ := interleavedUntouched (setupBegun s req) req tp
      exact ⟨socket, address, peer, fun ended => by rw [state] at ended; contradiction⟩
    · rename_i noTcp
      rw [if_neg noTcp] at socket
      split
      · rename_i wants
        have zero : (clientPorts tp).1 = 0 := by
          refine by_contra fun port => quiet ⟨type, method, ?_⟩
          rw [given]
          exact ⟨noTcp, wants, port⟩
        rw [udpRefused zero]
        exact ⟨rfl, rfl, rfl, fun ended => by cases ended⟩
      · exact ⟨rfl, rfl, rfl, fun ended => by cases ended⟩

theorem requestUntouched {req : RtspMessage} (quiet : ¬ OpensSockets req) (stays : role req ≠ .teardown)
    (sdp : SourceId → Bytes) (udp : UdpAnswers) (m : RelayManager) (player : SessionId) (s : RtspSession) :
    Untouched s (processRequest sdp udp m player s req).session := by
  cases kind : role req with
  | other =>
    obtain ⟨n, same⟩ := otherSession sdp udp m s kind
    rw [same]
    exact ⟨rfl, rfl, rfl, id⟩
  | play =>
    rw [playHandled kind]
    exact ⟨rfl, rfl, rfl, fun ended => by cases ended⟩
  | teardown => exact absurd kind stays
  | move =>
    obtain ⟨isRequest, same⟩ := requestRole kind (by decide)
    rw [processRequest, if_pos isRequest]
    cases method : req.method <;> rw [method] at same <;> try contradiction
    · rw [handleMethod, handleDescribe]
      dsimp only
      split <;> exact ⟨rfl, rfl, rfl, fun ended => by cases ended⟩
    · obtain ⟨socket, address, peer, ended⟩ := setupUntouched isRequest method quiet udp { s with cseq := req.cseq }
      exact ⟨socket, address, peer, ended⟩

theorem closeSends (h : Sends peerAddr target session) (m : RelayManager) (player : SessionId) :
    Sends peerAddr none (close m player session).2 := by
  unfold close
  split
  · rename_i already
    exact ⟨h.ended already, fun _ there => absurd there (Option.not_mem_none _), h.ended, h.peer⟩
  · dsimp only
    split <;> exact ⟨rfl, fun _ there => absurd there (Option.not_mem_none _), fun _ => rfl, h.peer⟩

theorem openedBoth {req : RtspMessage} {udp : UdpAnswers} {t : Target} (h : opened req udp = some t) :
    ¬ (udp.rtp = none ∨ udp.rtcp = none) ∧ udp.rtp.map UdpSocket.fd = some t.fd ∧ t.port = askedPort req := by
  unfold opened at h
  split at h
  · rename_i rtp rtcp first second
    cases Option.some.inj h
    rw [first, second]
    exact ⟨fun failed => by rcases failed with none_ | none_ <;> contradiction, rfl, rfl⟩
  · contradiction

theorem openSends (h : Sends peerAddr target session) {req : RtspMessage} (opens : OpensSockets req)
    (sdp : SourceId → Bytes) (udp : UdpAnswers) (m : RelayManager) (player : SessionId) :
    Sends peerAddr (opened req udp) (processRequest sdp udp m player session req).session := by
  obtain ⟨tp, given, noTcp, wants, port⟩ := opensTransport opens
  obtain ⟨isRequest, method, _⟩ := opens
  have made : (processRequest sdp udp m player session req).session =
      (setupUdp udp (setupBegun { session with cseq := req.cseq } req) req tp).1 := by
    rw [processRequest, if_pos isRequest, method, handleMethod]
    dsimp only
    rw [setupFrom udp _ given, if_neg noTcp, if_pos wants]
  have asked : askedPort req = (clientPorts tp).1 := by rw [askedPort, given]
  rw [made]
  by_cases failed : udp.rtp = none ∨ udp.rtcp = none
  · have nothing : opened req udp = none := Option.eq_none_iff_forall_ne_some.mpr fun _ made =>
      (openedBoth made).1 failed
    rw [udpFailed port failed, nothing]
    exact ⟨rfl, fun _ there => absurd there (Option.not_mem_none _), fun _ => rfl, h.peer⟩
  · obtain ⟨rtp, rtcp, first, second⟩ := bothMade failed
    have target : opened req udp = some ⟨rtp.fd, (clientPorts tp).1⟩ := by rw [opened, first, second, asked]
    have own : clientIp (setupBegun { session with cseq := req.cseq } req) = ipOf peerAddr := by rw [← h.peer]; rfl
    rw [udpMade port first second, target, own]
    refine ⟨rfl, fun t there => ?_, fun ended => (by cases ended), h.peer⟩
    rw [← Option.some.inj there]
    exact ⟨rfl, port⟩

theorem stepSends {s : Relay} {player : SessionId} (h : Sends peerAddr target (s.sessions player))
    (input : Service.Input) :
    Sends peerAddr ((targets player input).getD target) ((s.step input).sessions player) := by
  rcases Classical.em (Concerns player input) with own | apart
  · cases input with
    | request other req udp =>
      cases own
      rw [requestOwn, targets, if_pos rfl]
      split
      · rename_i opens
        exact openSends h opens s.sdp udp s.manager player
      · rename_i quiet
        split
        · rename_i leaves
          rw [teardownHandled leaves]
          have numbered : Sends peerAddr target { s.sessions player with cseq := req.cseq } :=
            ⟨h.socket, h.address, h.ended, h.peer⟩
          exact closeSends numbered s.manager player
        · rename_i stays
          exact sendsUntouched h (requestUntouched quiet stays s.sdp udp s.manager player (s.sessions player))
    | lost other =>
      cases own
      rw [targets, if_pos rfl]
      have cut : Sends peerAddr target { s.sessions player with connected := false } :=
        ⟨h.socket, h.address, h.ended, h.peer⟩
      exact (setSessionSame _ player _).symm ▸ closeSends cut s.manager player
    | addStream | removeStream | source => exact own.elim
  · have kept : targets player input = none := by
      cases input with
      | request other req udp => exact if_neg apart
      | lost other => exact if_neg apart
      | addStream | removeStream | source => rfl
    rw [stepSession apart, kept]
    exact h

theorem runSends {s : Relay} {player : SessionId} (h : Sends peerAddr none (s.sessions player))
    (inputs : List Service.Input) :
    Sends peerAddr (held (targets player) none inputs) ((run step s inputs).sessions player) := by
  induction inputs using List.reverseRecOn with
  | nil => exact h
  | append_singleton inputs input ih =>
    rw [heldLast, runAppend]
    exact stepSends ih input

/-! What is sent. -/

theorem datagramFields {data : Bytes} {fd : Nat} {dest : SockAddr} {sent : Bytes}
    (passed : Session.onRtpData session data = some (.datagram fd dest sent)) :
    session.state = .playing ∧ session.udpRtpFd = some fd ∧ session.clientRtpAddr = dest ∧ sent = data := by
  unfold Session.onRtpData at passed
  split at passed
  · contradiction
  · rename_i playing
    split at passed
    · obtain ⟨own, socket, same⟩ := Option.map_eq_some_iff.mp passed
      cases same
      exact ⟨not_not.mp playing, socket, rfl, rfl⟩
    · split at passed
      · cases Option.some.inj passed
      · contradiction

theorem deliveredPassed {s : Relay} {input : Service.Input} {player : SessionId} {e : Emission}
    (sent : (player, e) ∈ (s.step input).delivered) :
    ∃ data, Session.onRtpData (s.sessions player) data = some e := by
  cases input with
  | source i own =>
    have inside : (player, e) ∈ (packets ((s.sources i).step own).acts).flatMap
      (s.fanOut ((s.sources i).step own).source.streamPath) := sent
    obtain ⟨data, _, fanned⟩ := List.mem_flatMap.mp inside
    obtain ⟨sink, _, mapped⟩ := List.mem_filterMap.mp fanned
    obtain ⟨emission, passed, same⟩ := Option.map_eq_some_iff.mp mapped
    cases same
    exact ⟨data, passed⟩
  | addStream path url connect writes =>
    simp only [step, addStream] at sent
    split at sent <;> exact absurd sent List.not_mem_nil
  | removeStream path writes =>
    simp only [step, removeStream] at sent
    split at sent <;> exact absurd sent List.not_mem_nil
  | request | lost => exact absurd sent List.not_mem_nil

theorem openAnswered {s : Relay} {player : SessionId} {req : RtspMessage} {udp : UdpAnswers}
    (opens : OpensSockets req) (kept : ¬ (udp.rtp = none ∨ udp.rtcp = none)) :
    ∃ resp, (s.step (.request player req udp)).responses = [(player, resp)] ∧ resp.statusCode = 200 := by
  obtain ⟨tp, given, noTcp, wants, port⟩ := opensTransport opens
  obtain ⟨isRequest, method, _⟩ := opens
  have response : (processRequest s.sdp udp s.manager player (s.sessions player) req).response =
      some (setupUdp udp (setupBegun { s.sessions player with cseq := req.cseq } req) req tp).2 := by
    rw [processRequest, if_pos isRequest, method, handleMethod]
    dsimp only
    rw [setupFrom udp _ given, if_neg noTcp, if_pos wants]
  exact ⟨_, congrArg (fun r : Option RtspMessage => r.toList.map (player, ·)) response, udpStatus port kept⟩

theorem targetOpened {player : SessionId} {input : Service.Input} {t : Target}
    (h : targets player input = some (some t)) :
    ∃ req udp, input = .request player req udp ∧ OpensSockets req ∧ opened req udp = some t := by
  cases input with
  | request other req udp =>
    rw [targets] at h
    split at h
    · rename_i mine
      split at h
      · rename_i opens
        exact ⟨req, udp, by rw [mine], opens, Option.some.inj h⟩
      · split at h <;> cases h
    · cases h
  | lost other =>
    rw [targets] at h
    split at h <;> cases h
  | addStream | removeStream | source => contradiction

-- The SETUP, come to the state `s`, that a datagram goes back to.
structure Grants (peerAddr : Bytes) (player : SessionId) (fd : Nat) (dest : SockAddr) (s : Relay) (req : RtspMessage)
    (udp : UdpAnswers) : Prop where
  opens : OpensSockets req
  answered : ∃ resp, (s.step (.request player req udp)).responses = [(player, resp)] ∧ resp.statusCode = 200
  socket : udp.rtp.map UdpSocket.fd = some fd
  address : dest = ⟨ipOf peerAddr, askedPort req⟩
  port : askedPort req ≠ 0

/-! Every datagram goes to the address of the player's connection, at the port that its last
SETUP with sockets named, from the socket made for it; none after the session's end. -/
theorem datagramsReturned (maxSources : Nat) (players : SessionId → Player) (order : HeaderOrder)
    (inputs : List Service.Input) (input : Service.Input) (player : SessionId) (fd : Nat) (dest : SockAddr)
    (data : Bytes) (sent : (player, .datagram fd dest data) ∈
      ((run step (init maxSources players order) inputs).step input).delivered) :
    ∃ early req udp late, inputs = early ++ .request player req udp :: late ∧
      Grants (players player).peerAddr player fd dest (run step (init maxSources players order) early) req udp ∧
      ∀ later ∈ late, targets player later = none := by
  have start : Sends (players player).peerAddr none ((init maxSources players order).sessions player) :=
    ⟨rfl, fun _ there => absurd there (Option.not_mem_none _), fun _ => rfl, rfl⟩
  have sends := runSends start inputs
  obtain ⟨_, passed⟩ := deliveredPassed sent
  obtain ⟨_, socket, address, _⟩ := datagramFields passed
  obtain ⟨t, holds, same⟩ := Option.map_eq_some_iff.mp (sends.socket.symm.trans socket)
  obtain ⟨early, first, late, split_, wrote, kept⟩ := heldSince holds (Option.some_ne_none t)
  obtain ⟨own, port⟩ := sends.address t holds
  obtain ⟨req, udp, rfl, opens, target⟩ := targetOpened wrote
  obtain ⟨both, fds, asked⟩ := openedBoth target
  refine ⟨early, req, udp, late, split_, ⟨opens, openAnswered opens both, ?_, ?_, asked ▸ port⟩, kept⟩
  · rw [fds, same]
  · rw [← address, own, asked]

/-! One frame for a player that asked for port 6970. -/
def overUdp : RtspMessage :=
  { type := .request, method := .setup, url := ascii "rtsp://relay/cam", cseq := 1 : RtspMessage }
    |>.set "Transport" (ascii "RTP/AVP;unicast;client_port=6970-6971")

def watchedOverUdp : List Service.Input :=
  [addCam, .source 0 ⟨.writable 0 false, .inProgress, Recovery.sent⟩,
    .request 0 overUdp ⟨some ⟨7, 40000⟩, some ⟨8, 40001⟩⟩, ask .play]

theorem frameReturned : ∃ early req udp late, watchedOverUdp = early ++ .request 0 req udp :: late ∧
    Grants (ascii "10.0.0.7:5000") 0 7 ⟨ascii "10.0.0.7", 6970⟩ (run step FanOut.relay early) req udp ∧
    ∀ later ∈ late, targets 0 later = none :=
  datagramsReturned 500 (fun _ => ⟨ascii "10.0.0.7:5000", ascii "00000001"⟩) insertionOrder watchedOverUdp
    (.source 0 ⟨.read 0 (.data [36, 0, 0, 2, 7, 8]), .inProgress, []⟩) 0 7 ⟨ascii "10.0.0.7", 6970⟩ [7, 8] (by decide)

end RtspRelay.Datagrams
