import Mathlib.Data.List.Flatten
import RtspRelay.Exchange
import RtspRelay.FanOut
import RtspRelay.Recovery

/-! Which frames of an upstream reach its players as RTP. The source negotiates a
channel pair and reads the channel of every frame; it hands all of them on. -/
namespace RtspRelay.ChannelSeparation
open Machine Protocol Manager Session Service Relay Transition Exchange
open Source (World ConnectResult RtspSource)

-- A frame, and rtp_channel_ at the time it is handled.
structure Frame where
  channel : UInt8
  data : Bytes
  rtpChannel : UInt8

def frames : World → List Happening → List Frame
  | _, [] => []
  | w, .frame i channel data :: rest =>
    ⟨channel, data, w.source.rtpChannel⟩ :: frames (effect w (.frame i channel data)) rest
  | w, h :: rest => frames (effect w h) rest

def decoded (w : World) (input : Source.Input) : List Frame := frames w (happenings w (.event input))

-- Nothing but the frames on rtp_channel_ goes out, each to every sink of the stream.
def Separated (s : Relay) (input : Service.Input) : Prop :=
  (s.step input).delivered = match input with
    | .source i input =>
      ((decoded (s.sources i) input).filter fun f => decide (f.channel = f.rtpChannel)).flatMap
        fun f => s.fanOut (s.sources i).source.streamPath f.data
    | _ => []

def Receives (session : RtspSession) : Prop :=
  session.state = .playing ∧ match session.transport with
    | .udp => session.udpRtpFd ≠ none
    | .tcpInterleaved => session.connected = true
instance (session) : Decidable (Receives session) := by
  unfold Receives
  cases session.transport <;> infer_instance

-- A frame on another channel finds no sink that receives.
def Unheard (s : Relay) : Service.Input → Prop
  | .source i input => ∀ f ∈ decoded (s.sources i) input, f.channel ≠ f.rtpChannel →
      ∀ self ∈ s.manager.sinks (s.sources i).source.streamPath, ¬ Receives (s.sessions self)
  | _ => True
instance (s input) : Decidable (Unheard s input) := by unfold Unheard; split <;> infer_instance

theorem receivesNothing (session : RtspSession) (data : Bytes) :
    Session.onRtpData session data = none ↔ ¬ Receives session := by
  unfold Session.onRtpData Receives
  by_cases playing : session.state = .playing
  · rw [if_neg (not_not.mpr playing)]
    cases session.transport with
    | udp => simp [playing]
    | tcpInterleaved => simp [playing]
  · rw [if_pos playing]
    exact iff_of_true rfl fun receives => playing receives.1

theorem fanOutNothing (s : Relay) (path data : Bytes) :
    s.fanOut path data = [] ↔ ∀ self ∈ s.manager.sinks path, ¬ Receives (s.sessions self) := by
  unfold fanOut RelayManager.onRtpData
  rw [List.filterMap_eq_nil_iff]
  refine forall₂_congr fun self _ => ?_
  rw [Option.map_eq_none_iff, receivesNothing]

/-! What a source notes in a step is what its frames carry. -/

theorem sendActs (w : World) (request : Nat → RtspMessage) : (w.sendRequest request).acts = w.acts := by
  unfold World.sendRequest World.send
  dsimp only
  split
  · rfl
  · split <;> rfl

theorem responseActs (w : World) (msg : RtspMessage) : (w.handleResponse msg).acts = w.acts := by
  have noted : (w.noteSession msg).acts = w.acts := by
    unfold World.noteSession
    split <;> rfl
  have channels : ∀ w : World, (w.noteChannels msg).acts = w.acts := by
    intro w
    unfold World.noteChannels
    split <;> rfl
  unfold World.handleResponse World.advance
  split
  · split <;> rfl
  · split
    · exact (sendActs _ _).trans noted
    · exact (sendActs _ _).trans noted
    · exact (sendActs _ _).trans ((channels _).trans noted)
    · exact noted

theorem handleConnectActs (w : World) (c : Source.ClientId) : (w.handleConnect c).acts = w.acts :=
  sendActs _ (optionsRequest w.source.upstreamUrl)

theorem connectPackets (w : World) (c : Source.ClientId) (result : ConnectResult) :
    packets (w.connect c result).acts = packets w.acts := by
  have noted : packets (w.note (.connect c)).acts = packets w.acts := by
    simp only [packets, World.note, List.filterMap_append]
    exact List.append_nil _
  cases result with
  | immediate =>
    refine Eq.trans ?_ noted
    exact congrArg packets (handleConnectActs (w.note (.connect c)) c)
  | resolveFailed | socketFailed | refused | inProgress => exact noted

theorem upstreamPackets (w : World) (result : ConnectResult) :
    packets (w.connectToUpstream result).acts = packets w.acts := by
  unfold World.connectToUpstream
  split
  · rfl
  · rw [connectPackets]
    unfold World.dropClient
    split <;> rfl

theorem firePackets (w : World) (n : Nat) (result : ConnectResult) :
    packets (w.fire n result).acts = packets w.acts := by
  unfold World.fire
  split
  · rfl
  · rename_i t _
    cases t with
    | connect c => exact connectPackets (w.takeTimer n) c result
    | reconnect => exact upstreamPackets ((w.takeTimer n).setState .connecting) result
    | retry404 =>
      rw [World.expire]
      split
      · rfl
      · exact upstreamPackets ((w.takeTimer n).setState .connecting) result

-- A happening of a callback that has begun.
def Begun : Happening → Prop
  | .enter _ => False
  | .stop _ => False
  | _ => True

theorem effectPackets (w : World) {h : Happening} (begun : Begun h) :
    packets (effect w h).acts = packets w.acts ++ (frames w [h]).map Frame.data := by
  cases h with
  | enter writes => exact begun.elim
  | stop writes => exact begun.elim
  | frame i channel payload =>
    simp only [effect, World.handleInterleavedData, World.note, packets, List.filterMap_append]
    rfl
  | message i msg =>
    rw [effect, responseActs]
    exact (List.append_nil _).symm
  | stored i rest => cases rest <;> exact (List.append_nil _).symm
  | fire n connect =>
    rw [effect, firePackets]
    exact (List.append_nil _).symm
  | runTask =>
    simp only [effect, World.runTask]
    split <;> exact (List.append_nil _).symm
  | writable c failed =>
    simp only [effect, World.writable]
    split
    · split
      · exact (List.append_nil _).symm
      · rw [handleConnectActs]
        exact (List.append_nil _).symm
    · exact (List.append_nil _).symm
  | ended i =>
    simp only [effect, World.read]
    split
    · unfold World.clientClosed World.scheduleReconnect
      split <;> exact (List.append_nil _).symm
    · exact (List.append_nil _).symm
  | broken i =>
    simp only [effect, World.read]
    split <;> exact (List.append_nil _).symm

theorem framesCons (w : World) (h : Happening) (rest : List Happening) :
    frames w (h :: rest) = frames w [h] ++ frames (effect w h) rest := by
  cases h <;> rfl

theorem runPackets (w : World) {hs : List Happening} (begun : ∀ h ∈ hs, Begun h) :
    packets (run effect w hs).acts = packets w.acts ++ (frames w hs).map Frame.data := by
  induction hs generalizing w with
  | nil => exact (List.append_nil _).symm
  | cons h rest ih =>
    have first := effectPackets w (begun h List.mem_cons_self)
    have later := ih (effect w h) fun k inside => begun k (List.mem_cons_of_mem h inside)
    rw [framesCons, List.map_append, ← List.append_assoc, ← first]
    exact later

theorem eventBegun (w : World) (connect : ConnectResult) (e : Source.Event) :
    ∀ h ∈ eventHappenings w connect e, Begun h := by
  cases e with
  | writable | fire | runTask => exact List.forall_mem_singleton.mpr trivial
  | read i result =>
    cases result with
    | eof | error => exact List.forall_mem_singleton.mpr trivial
    | again => exact List.forall_mem_nil _
    | data chunk =>
      rw [eventHappenings]
      split
      · refine List.forall_mem_append.mpr ⟨?_, List.forall_mem_singleton.mpr trivial⟩
        refine List.forall_mem_map.mpr fun u _ => ?_
        cases u <;> trivial
      · exact List.forall_mem_nil _

theorem stepPackets (w : World) (input : Source.Input) :
    packets (w.step input).acts = (decoded w input).map Frame.data := by
  unfold decoded happenings World.step
  split
  · rfl
  · have ran := runPackets (w.entering input.writes)
      (eventBegun (w.entering input.writes) input.connect input.event)
    rw [eventRuns] at ran
    exact ran

/-! Dropping elements changes a concatenation only by what they contribute. -/
theorem flatMapFilter {α β : Type} (l : List α) (keep : α → Bool) (g : α → List β) :
    l.flatMap g = (l.filter keep).flatMap g ↔ ∀ x ∈ l, keep x = false → g x = [] := by
  induction l with
  | nil => exact iff_of_true rfl (List.forall_mem_nil _)
  | cons x rest ih =>
    rw [List.flatMap_cons, List.forall_mem_cons]
    cases kept : keep x with
    | true =>
      rw [List.filter_cons_of_pos kept, List.flatMap_cons, List.append_cancel_left_eq, ih]
      exact (and_iff_right nofun).symm
    | false =>
      rw [List.filter_cons_of_neg (by simp [kept])]
      have shorter : ((rest.filter keep).flatMap g).length ≤ (rest.flatMap g).length :=
        (List.filter_sublist.flatMap g).length_le
      constructor
      · intro same
        have lengths := congrArg List.length same
        rw [List.length_append] at lengths
        have empty : g x = [] := List.eq_nil_of_length_eq_zero (by omega)
        rw [empty, List.nil_append] at same
        exact ⟨fun _ => empty, ih.mp same⟩
      · rintro ⟨empty, others⟩
        rw [empty rfl, List.nil_append]
        exact ih.mpr others

theorem sourceDelivers (s : Relay) (i : SourceId) (input : Source.Input) :
    (s.step (.source i input)).delivered = (decoded (s.sources i) input).flatMap
      fun f => s.fanOut (s.sources i).source.streamPath f.data := by
  have path := (World.stepLasting (s.sources i) input).streamPath
  have delivered : (s.step (.source i input)).delivered =
      (packets ((s.sources i).step input).acts).flatMap
        (s.fanOut ((s.sources i).step input).source.streamPath) := rfl
  rw [delivered, stepPackets, path, List.flatMap_map]

theorem separatedExact (s : Relay) (input : Service.Input) : Separated s input ↔ Unheard s input := by
  cases input with
  | source i input =>
    unfold Separated Unheard
    dsimp only
    rw [sourceDelivers, flatMapFilter]
    simp only [decide_eq_false_iff_not, fanOutNothing]
  | addStream path url connect writes =>
    refine iff_of_true ?_ trivial
    simp only [Separated, step, addStream]
    split <;> rfl
  | removeStream path writes =>
    refine iff_of_true ?_ trivial
    simp only [Separated, step, removeStream]
    split <;> rfl
  | request self req udp => exact iff_of_true rfl trivial
  | lost self => exact iff_of_true rfl trivial

theorem runSeparated (s : Relay) (inputs : List Service.Input) :
    Throughout step Separated s inputs ↔ Throughout step Unheard s inputs :=
  throughoutExact (I := fun _ => True) (C := Separated) (D := Unheard) (fun _ _ => id)
    (fun s input _ => separatedExact s input) trivial inputs

theorem channelsSeparated (maxSources : Nat) (players : SessionId → Player) (order : HeaderOrder)
    (inputs : List Service.Input) :
    Throughout step Separated (init maxSources players order) inputs ↔
      Throughout step Unheard (init maxSources players order) inputs :=
  runSeparated (init maxSources players order) inputs

/-! A playing camera sends a frame on channel 1, its RTCP channel. -/
def control : Service.Input := .source 0 ⟨.read 0 (.data [36, 1, 0, 1, 7]), .inProgress, []⟩

def controlled : List Service.Input :=
  [.addStream (ascii "/cam") (ascii "rtsp://10.0.0.9/cam") .inProgress [],
    .source 0 ⟨.writable 0 false, .inProgress, Recovery.sent⟩, .source 0 Recovery.answered,
    .source 0 Recovery.answered, .source 0 Recovery.answered, FanOut.ask .setup, FanOut.ask .play,
    control]

theorem controlReachesPlayer : ¬ ∀ (maxSources : Nat) (players : SessionId → Player)
    (order : HeaderOrder) (inputs : List Service.Input),
    Throughout step Separated (init maxSources players order) inputs := by
  intro always
  have run := always 500 (fun _ => ⟨ascii "10.0.0.7:5000", ascii "00000001"⟩) insertionOrder controlled
  have heard : ¬ Throughout step Unheard FanOut.relay controlled := by decide
  exact heard ((runSeparated FanOut.relay controlled).mp run)

end RtspRelay.ChannelSeparation
