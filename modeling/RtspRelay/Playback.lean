import RtspRelay.Registry
import RtspRelay.SetupOutcome

/-! A player that asks for a registered stream: its DESCRIBE, SETUP and PLAY are granted
whatever else goes on between them, and from the PLAY on it is sent every packet. -/
namespace RtspRelay.Playback
open Machine ByteSearch Buffer MessageText Protocol Manager Session Service Relay Transition
open FanOut MediaPath SourceReads Registry SetupOutcome

-- The session goes on to the same stream: no PLAY, TEARDOWN or end of its own, no DESCRIBE or
-- SETUP, and the stream is not removed.
def Stays (self : SessionId) (path : Bytes) (input : Service.Input) : Prop :=
  ¬ Ends self input ∧ ¬ Parts self path input

structure Asks (path : Bytes) (describe setup play : RtspMessage) : Prop where
  requests : describe.type = .request ∧ setup.type = .request ∧ play.type = .request
  methods : describe.method = .describe ∧ setup.method = .setup ∧ play.method = .play
  named : extractStreamPath describe.url = path ∧ path ≠ []
  interleaved : ∃ tp, setup.headers.lookup (ascii "Transport") = some tp ∧
    (find (ascii "interleaved=") tp).isSome = true

/-! What the rest of the relay leaves alone. -/

structure Kept (player : SessionId) (path : Bytes) (s after : Relay) : Prop where
  owner : (Registry.owner s.manager path).isSome = true →
    Registry.owner after.manager path = Registry.owner s.manager path
  count : (after.manager.sinks path).count player = (s.manager.sinks path).count player
  session : ∃ n, after.sessions player = { s.sessions player with cseq := n }

variable {self : SessionId} {path : Bytes}

theorem keptRefl (s : Relay) : Kept self path s s := ⟨fun _ => rfl, rfl, (s.sessions self).cseq, rfl⟩

theorem keptTrans {s mid after : Relay} (first : Kept self path s mid) (last : Kept self path mid after) :
    Kept self path s after := by
  obtain ⟨n, early⟩ := first.session
  obtain ⟨m, late⟩ := last.session
  refine ⟨fun there => ?_, last.count.trans first.count, m, late.trans (by rw [early])⟩
  have same := first.owner there
  exact (last.owner (by rw [same]; exact there)).trans same

theorem stepOwner {s : Relay} {input : Service.Input} (stays : ¬ Parts self path input)
    (there : (owner s.manager path).isSome = true) :
    owner (s.step input).manager path = owner s.manager path := by
  cases input with
  | addStream p url connect writes =>
    simp only [step, addStream]
    split
    · rfl
    · rename_i m added
      have absent := (RelayManager.addStreamFresh added).1
      have differ : path ≠ p := by
        rintro rfl
        obtain ⟨entry, found⟩ := Option.isSome_iff_exists.mp there
        obtain ⟨relay, held, _⟩ := Option.map_eq_some_iff.mp found
        have missing : s.manager.streams.lookup path = none :=
          Option.isNone_iff_eq_none.mp (Option.isSome_eq_false_iff.mp absent)
        rw [missing] at held
        contradiction
      dsimp only [setSource]
      rw [addStreamOwner added, if_neg differ]
      rfl
  | removeStream p writes =>
    simp only [step, removeStream]
    split
    · rfl
    · rename_i i m removed
      have differ : path ≠ p := fun same => stays same.symm
      dsimp only [setSource]
      rw [(removeStreamOwner removed).2, if_neg differ]
      rfl
  | request other req udp => exact congrFun (requestOwners s other req udp).owners path
  | lost other => exact congrFun (closeOwners s.manager other _).owners path
  | source i input => rfl

theorem stepSessionKept {s : Relay} {input : Service.Input} (stays : Stays self path input) :
    ∃ n, (s.step input).sessions self = { s.sessions self with cseq := n } := by
  rcases concernsApart stays.1 stays.2 with apart | ⟨req, udp, rfl, other⟩
  · exact ⟨(s.sessions self).cseq, stepSession apart⟩
  · obtain ⟨n, same⟩ := otherSession s.sdp udp s.manager (s.sessions self) other
    exact ⟨n, (requestOwn s self req udp).trans same⟩

theorem stepKept {s : Relay} {input : Service.Input} (stays : Stays self path input) :
    Kept self path s (s.step input) :=
  ⟨stepOwner stays.2, stepCount stays.1 stays.2, stepSessionKept stays⟩

theorem runKept {s : Relay} {inputs : List Service.Input} (stays : ∀ input ∈ inputs, Stays self path input) :
    Kept self path s (run step s inputs) := by
  induction inputs generalizing s with
  | nil => exact keptRefl s
  | cons input rest ih =>
    obtain ⟨first, later⟩ := List.forall_mem_cons.mp stays
    exact keptTrans (stepKept first) (ih later)

/-! The three requests. -/

-- The session has been answered a DESCRIBE of the path, and is not yet among its sinks.
structure Joining (path : Bytes) (owned : SourceId × Bytes) (player : SessionId) (s : Relay) : Prop where
  owner : Registry.owner s.manager path = some owned
  absent : (s.manager.sinks path).count player = 0
  connected : (s.sessions player).connected = true

theorem keptJoining {owned : SourceId × Bytes} {s after : Relay} (h : Joining path owned self s)
    (kept : Kept self path s after) : Joining path owned self after := by
  obtain ⟨n, session⟩ := kept.session
  have there : (owner s.manager path).isSome = true := by rw [h.owner]; rfl
  exact ⟨(kept.owner there).trans h.owner, kept.count.trans h.absent, by rw [session]; exact h.connected⟩

theorem ownerSdp {m : RelayManager} {owned : SourceId × Bytes} (found : owner m path = some owned)
    (sdp : SourceId → Bytes) : m.getStreamSdp sdp path = sdp owned.1 := by
  obtain ⟨relay, there, same⟩ := Option.map_eq_some_iff.mp found
  rw [RelayManager.getStreamSdp, there, ← same]

theorem requestStep (s : Relay) {req : RtspMessage} {udp : UdpAnswers} {out : Handled}
    (handled : processRequest s.sdp udp s.manager self (s.sessions self) req = out) :
    (s.step (.request self req udp)).manager = out.manager ∧
      (s.step (.request self req udp)).sessions self = out.session ∧
      (s.step (.request self req udp)).responses = out.response.toList.map (self, ·) := by
  subst handled
  exact ⟨rfl, requestOwn s self req udp, rfl⟩

def describeAnswer (id sdp : Bytes) (req : RtspMessage) : RtspMessage :=
  (describeResponse req.cseq sdp id).set "Content-Base" (req.url ++ ascii "/")

def setupAnswer (id : Bytes) (rtp rtcp : UInt8) (req : RtspMessage) : RtspMessage :=
  (setupResponse req.cseq id 0 0).set "Transport"
    (ascii "RTP/AVP/TCP;unicast;interleaved=" ++ decimal rtp.toNat ++ ascii "-" ++ decimal rtcp.toNat)

def playAnswer (id : Bytes) (req : RtspMessage) : RtspMessage :=
  (playResponse req.cseq id).set "RTP-Info" (ascii "url=" ++ req.url ++ ascii ";seq=0;rtptime=0")

theorem describeServed {owned : SourceId × Bytes} {s : Relay} (h : Joining path owned self s) {req : RtspMessage}
    (isRequest : req.type = .request) (method : req.method = .describe) (named : extractStreamPath req.url = path)
    (described : s.sdp owned.1 ≠ []) (udp : UdpAnswers) :
    Joining path owned self (s.step (.request self req udp)) ∧
      ((s.step (.request self req udp)).sessions self).streamPath = path ∧
      ((s.step (.request self req udp)).sessions self).sessionId = (s.sessions self).sessionId ∧
      (s.step (.request self req udp)).responses =
        [(self, describeAnswer (s.sessions self).sessionId (s.sdp owned.1) req)] := by
  have sdp : s.manager.getStreamSdp s.sdp path = s.sdp owned.1 := ownerSdp h.owner s.sdp
  have handled : processRequest s.sdp udp s.manager self (s.sessions self) req =
      ⟨s.manager, { s.sessions self with cseq := req.cseq, streamPath := path, state := .describe },
        some (describeAnswer (s.sessions self).sessionId (s.sdp owned.1) req)⟩ := by
    rw [processRequest, if_pos isRequest, method, handleMethod, handleDescribe]
    dsimp only
    rw [named, sdp, if_neg described]
    rfl
  obtain ⟨manager, session, responses⟩ := requestStep s handled
  rw [session]
  exact ⟨⟨manager ▸ h.owner, manager ▸ h.absent, session ▸ h.connected⟩, rfl, rfl, responses⟩

theorem setupServed {owned : SourceId × Bytes} {s : Relay} (h : Joining path owned self s) {req : RtspMessage}
    (isRequest : req.type = .request) (method : req.method = .setup) {tp : Bytes}
    (given : req.headers.lookup (ascii "Transport") = some tp) (interleaved : (find (ascii "interleaved=") tp).isSome)
    (named : (s.sessions self).streamPath = path ∧ path ≠ []) (udp : UdpAnswers) :
    ∃ rtp rtcp, Joining path owned self (s.step (.request self req udp)) ∧
      ((s.step (.request self req udp)).sessions self).streamPath = path ∧
      ((s.step (.request self req udp)).sessions self).sessionId = (s.sessions self).sessionId ∧
      ((s.step (.request self req udp)).sessions self).transport = .tcpInterleaved ∧
      ((s.step (.request self req udp)).sessions self).rtpChannel = rtp ∧
      (s.step (.request self req udp)).responses =
        [(self, setupAnswer (s.sessions self).sessionId rtp rtcp req)] := by
  obtain ⟨own, some_⟩ := named
  have set_ : (s.sessions self).streamPath ≠ [] := own ▸ some_
  obtain ⟨rtp, rtcp, handled⟩ : ∃ rtp rtcp, processRequest s.sdp udp s.manager self (s.sessions self) req =
      ⟨s.manager, { s.sessions self with cseq := req.cseq, state := .setup, transport := .tcpInterleaved
                                         rtpChannel := rtp, rtcpChannel := rtcp },
        some (setupAnswer (s.sessions self).sessionId rtp rtcp req)⟩ := by
    rw [processRequest, if_pos isRequest, method, handleMethod, setupFrom udp _ given, if_pos interleaved]
    unfold setupInterleaved setupBegun
    dsimp only
    rw [if_neg set_]
    split <;> exact ⟨_, _, rfl⟩
  obtain ⟨manager, session, responses⟩ := requestStep s handled
  refine ⟨rtp, rtcp, ⟨manager ▸ h.owner, manager ▸ h.absent, session ▸ h.connected⟩, ?_⟩
  rw [session]
  exact ⟨own, rfl, rfl, rfl, responses⟩

theorem playServed {owned : SourceId × Bytes} {s : Relay} (h : Joining path owned self s) {req : RtspMessage}
    (isRequest : req.type = .request) (method : req.method = .play) (named : (s.sessions self).streamPath = path)
    (tcp : (s.sessions self).transport = .tcpInterleaved) (udp : UdpAnswers) :
    owner (s.step (.request self req udp)).manager path = some owned ∧
      ((s.step (.request self req udp)).manager.sinks path).count self = 1 ∧
      (s.step (.request self req udp)).responses = [(self, playAnswer (s.sessions self).sessionId req)] ∧
      Session.onRtpData ((s.step (.request self req udp)).sessions self) = fun data =>
        some (.interleaved (interleavedHeader (s.sessions self).rtpChannel data.length) data) := by
  have kind : role req = .play := by rw [role, if_pos isRequest, method]; rfl
  have handled : processRequest s.sdp udp s.manager self (s.sessions self) req = _ := playHandled kind
  obtain ⟨manager, session, responses⟩ := requestStep s handled
  have present : s.manager.hasStream path = true := by
    obtain ⟨relay, there, _⟩ := Option.map_eq_some_iff.mp h.owner
    rw [RelayManager.hasStream, there]
    rfl
  rw [manager, session]
  refine ⟨?_, ?_, responses, ?_⟩
  · rw [addSinkOwner]
    exact h.owner
  · rw [RelayManager.addSinkSinks, named, if_pos ⟨rfl, present⟩, List.count_append, h.absent]
    simp
  · funext data
    have playing : ¬ (State.playing ≠ State.playing) := not_not.mpr rfl
    simp only [Session.onRtpData, if_neg playing, tcp, h.connected, if_true]

/-! The whole way in, with the rest of the relay going on between the requests. -/

structure Visit where
  describe : RtspMessage
  setup : RtspMessage
  play : RtspMessage
  udp : UdpAnswers
  beforeDescribe : List Service.Input
  beforeSetup : List Service.Input
  beforePlay : List Service.Input

section
variable (self : SessionId) (v : Visit) (s : Relay)

def Visit.atDescribe : Relay := run step s v.beforeDescribe
def Visit.described : Relay := (v.atDescribe s).step (.request self v.describe v.udp)
def Visit.atSetup : Relay := run step (v.described self s) v.beforeSetup
def Visit.prepared : Relay := (v.atSetup self s).step (.request self v.setup v.udp)
def Visit.atPlay : Relay := run step (v.prepared self s) v.beforePlay
def Visit.playing : Relay := (v.atPlay self s).step (.request self v.play v.udp)
end

theorem runReached {s : Relay} (reached : Reached s) (inputs : List Service.Input) :
    Reached (run step s inputs) := by
  obtain ⟨maxSources, players, order, before, rfl⟩ := reached
  exact ⟨maxSources, players, order, before ++ inputs, (runAppend _ _ _).symm⟩

theorem stepReached {s : Relay} (reached : Reached s) (input : Service.Input) : Reached (s.step input) :=
  runReached reached [input]

theorem visitReached {s : Relay} (reached : Reached s) (self : SessionId) (v : Visit) :
    Reached (v.playing self s) :=
  stepReached (runReached (stepReached (runReached (stepReached (runReached reached _) _) _) _) _) _

structure Granted (path id : Bytes) (player : SessionId) (i : SourceId) (v : Visit) (s : Relay) : Prop where
  described : (v.described player s).responses = [(player, describeAnswer id ((v.atDescribe s).sdp i) v.describe)]
  joined : ((v.playing player s).manager.sinks path).count player = 1
  played : (v.playing player s).responses = [(player, playAnswer id v.play)]
  setUp : ∃ rtp rtcp, (v.prepared player s).responses = [(player, setupAnswer id rtp rtcp v.setup)] ∧
    ∀ (c : Source.ConnId) (later : List Service.Input), ((v.playing player s).sources i).Live c →
      (∀ input ∈ later, Stays player path input) →
      transcript step (passedOn i c player) (v.playing player s) later =
        (payloads (waiting ((v.playing player s).sources i) c ++
            transcript step (arrived i c) (v.playing player s) later)).map
          fun data => .interleaved (interleavedHeader rtp data.length) data

theorem playerServed (s : Relay) (reached : Reached s) (self : SessionId) (path : Bytes) (relay : StreamRelay)
    (registered : s.manager.streams.lookup path = some relay) (absent : self ∉ s.manager.sinks path)
    (connected : (s.sessions self).connected = true) (v : Visit) (asks : Asks path v.describe v.setup v.play)
    (stays : ∀ input ∈ v.beforeDescribe ++ v.beforeSetup ++ v.beforePlay, Stays self path input)
    (described : (v.atDescribe s).sdp relay.source ≠ []) :
    Granted path (s.sessions self).sessionId self relay.source v s := by
  obtain ⟨⟨isDescribe, isSetup, isPlay⟩, ⟨describe, setup, play⟩, ⟨named, some_⟩, tp, given, interleaved⟩ := asks
  simp only [List.mem_append] at stays
  have start : Joining path (relay.source, relay.upstreamUrl) self s := by
    refine ⟨?_, List.count_eq_zero.mpr absent, connected⟩
    rw [owner, registered]
    rfl
  have first : Kept self path s (v.atDescribe s) := runKept fun input inside => stays input (.inl (.inl inside))
  obtain ⟨_, early⟩ := first.session
  obtain ⟨joining, ownPath, ownId, describedWith⟩ :=
    describeServed (keptJoining start first) isDescribe describe named described v.udp
  have second : Kept self path (v.described self s) (v.atSetup self s) :=
    runKept fun input inside => stays input (.inl (.inr inside))
  obtain ⟨_, between⟩ := second.session
  have atSetup : ((v.atSetup self s).sessions self).streamPath = path := by
    rw [between]
    exact ownPath
  obtain ⟨rtp, rtcp, joining', ownPath', ownId', tcp, channel, setWith⟩ :=
    setupServed (keptJoining joining second) isSetup setup given interleaved ⟨atSetup, some_⟩ v.udp
  have third : Kept self path (v.prepared self s) (v.atPlay self s) :=
    runKept fun input inside => stays input (.inr inside)
  obtain ⟨_, late⟩ := third.session
  have atPlay : ((v.atPlay self s).sessions self).streamPath = path ∧
      ((v.atPlay self s).sessions self).transport = .tcpInterleaved := by
    rw [late]
    exact ⟨ownPath', tcp⟩
  obtain ⟨owned, once, playedWith, passes⟩ :=
    playServed (keptJoining joining' third) isPlay play atPlay.1 atPlay.2 v.udp
  -- The session keeps its id and, from its SETUP on, its channel.
  have idAtDescribe : ((v.atDescribe s).sessions self).sessionId = (s.sessions self).sessionId := by rw [early]
  have idAtSetup : ((v.atSetup self s).sessions self).sessionId = (s.sessions self).sessionId := by
    rw [between]
    exact ownId.trans idAtDescribe
  have idAtPlay : ((v.atPlay self s).sessions self).sessionId = (s.sessions self).sessionId := by
    rw [late]
    exact ownId'.trans idAtSetup
  have channelAtPlay : ((v.atPlay self s).sessions self).rtpChannel = rtp := by
    rw [late]
    exact channel
  rw [idAtDescribe] at describedWith
  rw [idAtSetup] at setWith
  rw [idAtPlay] at playedWith
  rw [channelAtPlay] at passes
  refine ⟨describedWith, once, playedWith, rtp, rtcp, setWith, fun c later live remains => ?_⟩
  have coherent : Coherent (v.playing self s) := by
    obtain ⟨maxSources, players, order, inputs, same⟩ := visitReached reached self v
    rw [same]
    exact reachedCoherent maxSources players order inputs
  obtain ⟨known, serves⟩ := coherent.registered path relay.source relay.upstreamUrl owned
  have place := startsPlaying (visitReached reached self v) known live (by rw [serves.streamPath]; exact once)
  rw [serves.streamPath] at place
  have sends : Session.onRtpData ((v.playing self s).sessions self) = some ∘ fun data =>
      .interleaved (interleavedHeader rtp data.length) data := passes
  rw [mediaFrom place remains, sends, List.filterMap_eq_map]

/-! A player comes in while the camera still answers its handshake. -/
def camUp : Relay := run step FanOut.relay [addCam, .source 0 ⟨.writable 0 false, .inProgress, Recovery.sent⟩]

def cameraAnswers (text : String) : Service.Input :=
  .source 0 ⟨.read 0 (.data (ascii text)), .inProgress, Recovery.sent⟩

def guest : Visit where
  describe := asking .describe
  setup := asking .setup
  play := asking .play
  udp := ⟨none, none⟩
  beforeDescribe := [cameraAnswers "RTSP/1.0 200 OK\r\nCSeq: 1\r\n\r\n",
    cameraAnswers "RTSP/1.0 200 OK\r\nContent-Type: sdp\r\nContent-Length: 3\r\n\r\nv=0"]
  beforeSetup := [ask .options]
  beforePlay := [cameraAnswers "RTSP/1.0 200 OK\r\nCSeq: 3\r\n\r\n"]

theorem guestStays : ∀ input ∈ guest.beforeDescribe ++ guest.beforeSetup ++ guest.beforePlay,
    Stays 0 (ascii "/cam") input := by
  have camera (text : String) : Stays 0 (ascii "/cam") (cameraAnswers text) := ⟨id, id⟩
  have options : Stays 0 (ascii "/cam") (ask .options) := by
    constructor
    · rintro ⟨_, play | teardown⟩ <;> contradiction
    · rintro ⟨_, move⟩
      contradiction
  exact List.forall_mem_cons.mpr ⟨camera _, List.forall_mem_cons.mpr ⟨camera _,
    List.forall_mem_cons.mpr ⟨options, List.forall_mem_singleton.mpr (camera _)⟩⟩⟩

theorem guestServed : Granted (ascii "/cam") (ascii "00000001") 0 0 guest camUp :=
  playerServed camUp ⟨500, _, insertionOrder, _, rfl⟩ 0 (ascii "/cam") ⟨0, ascii "rtsp://10.0.0.9/cam", []⟩
    (by decide) (by decide) (by decide) guest
    ⟨⟨rfl, rfl, rfl⟩, ⟨rfl, rfl, rfl⟩, by decide,
      ascii "RTP/AVP/TCP;unicast;interleaved=0-1", by decide, by decide⟩
    guestStays (by decide)

end RtspRelay.Playback
