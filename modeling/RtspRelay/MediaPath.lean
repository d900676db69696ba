import RtspRelay.SessionIndependence
import RtspRelay.SourceReads
import RtspRelay.ParsedUnits

/-! From an upstream connection to a player: whatever the rest of the relay does and
however the bytes of the connection are cut, a player that stays among its stream's sinks
is passed on the payload of every whole frame, once and in order. What it is passed on it
hands to its own connection or socket. -/
namespace RtspRelay.MediaPath
open Machine Buffer Protocol Manager Session Service Relay Transition Decoders StreamDecoder
open SessionIndependence FanOut SourceReads Interleaving
open Source (World ConnId ConnectResult)
open Connection (WriteResult)

variable (i : SourceId) (c : ConnId) (self : SessionId)

-- The bytes a step reads from connection `c` of source `i`, if it reads from it.
def brought (s : Relay) : Service.Input → Option Bytes
  | .source j input =>
    match reads (s.sources j) input with
    | some (d, chunk) => if j = i ∧ d = c then some chunk else none
    | none => none
  | _ => none

def arrived (s : Relay) (input : Service.Input) : Bytes := (brought i c s input).getD []

-- What the session passes on in such a step.
def passedOn (s : Relay) (input : Service.Input) : List Emission :=
  if (brought i c s input).isSome then
    ((s.step input).delivered.filter fun e => decide (e.1 = self)).map Prod.snd
  else []

variable {i c self}

/-! Every source of a relay is settled, and its threads have added the ones it knows. -/
def AllSettled (s : Relay) : Prop := ∀ i, Settled (s.sources i)

theorem setSourceSettled {s : Relay} (h : AllSettled s) (j : SourceId) {w : World} (settled : Settled w) :
    AllSettled (s.setSource j w) := by
  intro k
  rcases eq_or_ne k j with rfl | differ
  · simp only [setSource, Function.update_self]
    exact settled
  · simp only [setSource, Function.update_of_ne differ]
    exact h k

theorem stepAllSettled (s : Relay) (input : Service.Input) (h : AllSettled s) : AllSettled (s.step input) := by
  cases input with
  | request self req udp => exact h
  | lost self => exact h
  | source j input => exact setSourceSettled (s := { s with delivered := _ }) h j (stepSettled (h j) input)
  | addStream path url connect writes =>
    simp only [step, addStream]
    split
    · exact h
    · exact setSourceSettled (s := { s with manager := _, nextSource := _ }) h _
        (startSettled (createdSettled _ _ _) connect writes)
  | removeStream path writes =>
    simp only [step, removeStream]
    split
    · exact h
    · rename_i j m _
      exact setSourceSettled (s := { s with manager := m }) h j (stopSettled (h j) writes)

theorem reachedSettled (maxSources : Nat) (players : SessionId → Player) (order : HeaderOrder)
    (inputs : List Service.Input) : AllSettled (run step (init maxSources players order) inputs) :=
  runInvariant stepAllSettled (fun _ => createdSettled order [] []) inputs

/-! A player in its place passes packets on as it did. -/
structure Playing (i : SourceId) (c : ConnId) (player : SessionId) (path : Bytes)
    (pass : Bytes → Option Emission) (s : Relay) : Prop where
  known : i < s.nextSource
  allocated : c < (s.sources i).nextConn
  stream : (s.sources i).source.streamPath = path
  once : (s.manager.sinks path).count player = 1
  passes : Session.onRtpData (s.sessions player) = pass
  settled : AllSettled s

/-! The other sessions leave its entry alone, and so do its own harmless requests. -/

theorem otherSession (sdp : SourceId → Bytes) (udp : UdpAnswers) (m : RelayManager) (session : RtspSession)
    {req : RtspMessage} (kind : role req = .other) :
    ∃ n, (processRequest sdp udp m self session req).session = { session with cseq := n } := by
  unfold role at kind
  unfold processRequest
  split at kind
  · rename_i isRequest
    rw [if_pos isRequest]
    refine ⟨req.cseq, ?_⟩
    cases method : req.method <;> rw [method] at kind <;> first | contradiction | rfl
  · rename_i notRequest
    rw [if_neg notRequest]
    exact ⟨session.cseq, rfl⟩

theorem countUnseen {m m' : RelayManager} (h : AlikeMaps (fun k => decide (k = self)) m m') (path : Bytes) :
    (m.sinks path).count self = (m'.sinks path).count self := by
  have same := congrArg List.length (alikeSinks h path)
  rw [List.filter_eq, List.filter_eq] at same
  simpa using same

theorem stepCount {s : Relay} {path : Bytes} {input : Service.Input} (goes : ¬ Ends self input)
    (stays : ¬ Parts self path input) :
    ((s.step input).manager.sinks path).count self = (s.manager.sinks path).count self := by
  rcases concernsApart goes stays with apart | ⟨req, udp, rfl, other⟩
  · cases input with
    | addStream p url connect writes => rw [step, (addStreamSinks s.quiet p url connect writes path).1]; rfl
    | removeStream p writes =>
      have differ : path ≠ p := fun same => stays same.symm
      rw [step, (removeStreamSinks s.quiet p writes path).1, if_neg differ]
      rfl
    | source j input => rfl
    | request other req udp =>
      have differ : other ≠ self := apart
      have unseen : ofUnseen (fun k => decide (k = self)) (.request other req udp) = true := by
        simpa [Program.ofHidden] using differ
      exact countUnseen (stepUnseen ⟨alikeRefl _, fun _ _ => rfl, rfl, rfl, rfl⟩ unseen).1.maps path
    | lost other =>
      have differ : other ≠ self := apart
      have unseen : ofUnseen (fun k => decide (k = self)) (.lost other) = true := by
        simpa [Program.ofHidden] using differ
      exact countUnseen (stepUnseen ⟨alikeRefl _, fun _ _ => rfl, rfl, rfl, rfl⟩ unseen).1.maps path
  · simp only [step, request, setSession, (otherHandled other).1]
    rfl

theorem stepPassing {s : Relay} {path : Bytes} {input : Service.Input} (goes : ¬ Ends self input)
    (stays : ¬ Parts self path input) :
    Session.onRtpData ((s.step input).sessions self) = Session.onRtpData (s.sessions self) := by
  rcases concernsApart goes stays with apart | ⟨req, udp, rfl, other⟩
  · rw [stepSession apart]
  · obtain ⟨n, same⟩ := otherSession s.sdp udp s.manager (s.sessions self) other
    rw [requestOwn, same]
    rfl

/-! What a step brings and what it passes on. -/

theorem fanOutOnce {s : Relay} {path : Bytes} (once : (s.manager.sinks path).count self = 1) (data : Bytes) :
    (s.fanOut path data).filter (fun e => decide (e.1 = self)) =
      ((Session.onRtpData (s.sessions self) data).map (self, ·)).toList := by
  have watched := @fanOutSeen (fun k => decide (k = self)) s path data
  rw [watched, List.filter_eq, once]
  cases passed : Session.onRtpData (s.sessions self) data <;> simp [List.replicate_one, passed]

theorem packetsOnce {s : Relay} {path : Bytes} (once : (s.manager.sinks path).count self = 1)
    (packets : List Bytes) :
    ((packets.flatMap (s.fanOut path)).filter fun e => decide (e.1 = self)).map Prod.snd =
      packets.filterMap (Session.onRtpData (s.sessions self)) := by
  induction packets with
  | nil => rfl
  | cons data rest ih =>
    rw [List.flatMap_cons, List.filter_append, List.map_append, ih, fanOutOnce once, List.filterMap_cons]
    cases Session.onRtpData (s.sessions self) data <;> rfl

theorem stopPath (w : World) (writes : List WriteResult) :
    (w.stop writes).source.streamPath = w.source.streamPath := by
  have torn : ∀ w : World, w.sendTeardown.source.streamPath = w.source.streamPath := by
    intro w
    unfold World.sendTeardown
    split
    · exact (World.sendRequestLasting _ _).streamPath
    · rfl
  have dropped : ∀ w : World, w.dropClient.source.streamPath = w.source.streamPath := by
    intro w
    unfold World.dropClient
    split <;> rfl
  exact (dropped _).trans (torn _)

theorem unreadSource {s : Relay} (settled : AllSettled s) (known : i < s.nextSource)
    (allocated : c < (s.sources i).nextConn) {input : Service.Input} (unread : brought i c s input = none) :
    waiting ((s.step input).sources i) c = waiting (s.sources i) c := by
  cases input with
  | request self req udp => rfl
  | lost self => rfl
  | addStream path url connect writes =>
    simp only [step, addStream]
    split
    · rfl
    · have differ : i ≠ s.quiet.nextSource := Nat.ne_of_lt known
      simp only [setSource, Function.update_of_ne differ]
      rfl
  | removeStream path writes =>
    simp only [step, removeStream]
    split
    · rfl
    · rename_i j m removed
      rcases eq_or_ne i j with rfl | differ
      · simp only [setSource, Function.update_self]
        exact (stopKeeps (s.sources i) writes).waiting c allocated (Option.some_ne_none c).symm
      · simp only [setSource, Function.update_of_ne differ]
        rfl
  | source j input =>
    simp only [step, sourceStep]
    rcases eq_or_ne i j with rfl | differ
    · simp only [setSource, Function.update_self]
      refine (stepKeeps (settled i) input).waiting c allocated fun same => ?_
      obtain ⟨⟨d, chunk⟩, read, rfl⟩ := Option.map_eq_some_iff.mp same
      simp [brought, read] at unread
    · simp only [setSource, Function.update_of_ne differ]
      rfl

theorem sourceLasts {s : Relay} (settled : AllSettled s) (known : i < s.nextSource) (input : Service.Input) :
    (s.sources i).nextConn ≤ ((s.step input).sources i).nextConn ∧
      ((s.step input).sources i).source.streamPath = (s.sources i).source.streamPath := by
  have same : (s.sources i).nextConn ≤ (s.sources i).nextConn ∧
      (s.sources i).source.streamPath = (s.sources i).source.streamPath := ⟨Nat.le_refl _, rfl⟩
  cases input with
  | request self req udp => exact same
  | lost self => exact same
  | addStream path url connect writes =>
    simp only [step, addStream]
    split
    · exact same
    · have differ : i ≠ s.quiet.nextSource := Nat.ne_of_lt known
      simp only [setSource, Function.update_of_ne differ]
      exact same
  | removeStream path writes =>
    simp only [step, removeStream]
    split
    · exact same
    · rename_i j m removed
      rcases eq_or_ne i j with rfl | differ
      · simp only [setSource, Function.update_self]
        exact ⟨(stopKeeps (s.sources i) writes).allocated, stopPath (s.sources i) writes⟩
      · simp only [setSource, Function.update_of_ne differ]
        exact same
  | source j input =>
    simp only [step, sourceStep]
    rcases eq_or_ne i j with rfl | differ
    · simp only [setSource, Function.update_self]
      exact ⟨(stepKeeps (settled i) input).allocated, (World.stepLasting (s.sources i) input).streamPath⟩
    · simp only [setSource, Function.update_of_ne differ]
      exact same

theorem nextSourceGrows (s : Relay) (input : Service.Input) : s.nextSource ≤ (s.step input).nextSource := by
  cases input with
  | addStream path url connect writes =>
    simp only [step, addStream]
    split
    · exact Nat.le_refl _
    · exact Nat.le_succ _
  | removeStream path writes =>
    simp only [step, removeStream]
    split <;> exact Nat.le_refl _
  | request self req udp => exact Nat.le_refl _
  | lost self => exact Nat.le_refl _
  | source i input => exact Nat.le_refl _

section
variable {path : Bytes} {pass : Bytes → Option Emission} {s : Relay} (h : Playing i c self path pass s)
  {input : Service.Input} (goes : ¬ Ends self input) (stays : ¬ Parts self path input)
include h goes stays

theorem stepPlaying : Playing i c self path pass (s.step input) := by
  obtain ⟨allocated, stream⟩ := sourceLasts h.settled h.known input
  exact ⟨Nat.lt_of_lt_of_le h.known (nextSourceGrows s input), Nat.lt_of_lt_of_le h.allocated allocated,
    stream.trans h.stream, (stepCount goes stays).trans h.once, (stepPassing goes stays).trans h.passes,
    stepAllSettled s input h.settled⟩
end

theorem stepRead {path : Bytes} {pass : Bytes → Option Emission} {s : Relay} (h : Playing i c self path pass s)
    {input : Service.Input} {chunk : Bytes} (read : brought i c s input = some chunk) :
    passedOn i c self s input = (payloads (waiting (s.sources i) c ++ chunk)).filterMap pass ∧
      Handed c chunk (s.sources i) ((s.step input).sources i) := by
  cases input with
  | source j own =>
    have some_ : (brought i c s (.source j own)).isSome = true := by rw [read]; rfl
    unfold brought at read
    dsimp only at read
    split at read
    · rename_i d bytes found
      split at read
      · rename_i same
        obtain ⟨rfl, rfl⟩ := same
        cases Option.some.inj read
        have hands := readHands (h.settled j) found
        have world : (s.step (.source j own)).sources j = (s.sources j).step own := by
          simp only [step, sourceStep, setSource, Function.update_self]
          rfl
        have delivered : (s.step (.source j own)).delivered =
            (packets ((s.sources j).step own).acts).flatMap (s.fanOut path) := by
          rw [← h.stream, ← (World.stepLasting (s.sources j) own).streamPath]
          rfl
        rw [passedOn, if_pos some_, delivered, hands.packets, packetsOnce h.once, h.passes, world]
        exact ⟨rfl, hands⟩
      · contradiction
    · contradiction
  | _ => contradiction

/-! A source that crashed reads nothing more. -/

theorem crashedStep {s : Relay} (known : i < s.nextSource) (crashed : (s.sources i).crashed = true)
    (input : Service.Input) : ((s.step input).sources i).crashed = true := by
  cases input with
  | request self req udp => exact crashed
  | lost self => exact crashed
  | addStream path url connect writes =>
    have differ : i ≠ s.quiet.nextSource := Nat.ne_of_lt known
    simp only [step, addStream]
    split
    · exact crashed
    · simp only [setSource, Function.update_of_ne differ]
      exact crashed
  | removeStream path writes =>
    simp only [step, removeStream]
    split
    · exact crashed
    · rename_i j m removed
      rcases eq_or_ne i j with rfl | differ
      · simp only [setSource, Function.update_self]
        exact stopCrashed crashed writes
      · simp only [setSource, Function.update_of_ne differ]
        exact crashed
  | source j input =>
    simp only [step, sourceStep]
    rcases eq_or_ne i j with rfl | differ
    · simp only [setSource, Function.update_self]
      exact stepCrashed crashed input
    · simp only [setSource, Function.update_of_ne differ]
      exact crashed

theorem crashedSilent {s : Relay} (known : i < s.nextSource) (crashed : (s.sources i).crashed = true)
    (inputs : List Service.Input) : transcript step (arrived i c) s inputs = [] ∧
      transcript step (passedOn i c self) s inputs = [] := by
  have unread : ∀ s : Relay, (s.sources i).crashed = true → ∀ input, brought i c s input = none := by
    intro s crashed input
    cases input with
    | source j input =>
      rcases eq_or_ne j i with rfl | differ
      · simp [brought, crashedReads crashed]
      · unfold brought
        dsimp only
        split
        · simp [differ]
        · rfl
    | _ => rfl
  have keeps : ∀ (s : Relay) (input : Service.Input), (i < s.nextSource ∧ (s.sources i).crashed = true) →
      i < (s.step input).nextSource ∧ ((s.step input).sources i).crashed = true := fun s input both =>
    ⟨Nat.lt_of_lt_of_le both.1 (nextSourceGrows s input), crashedStep both.1 both.2 input⟩
  constructor
  · refine transcriptSilent keeps (fun s input both => ?_) ⟨known, crashed⟩ inputs
    rw [arrived, unread s both.2 input]
    rfl
  · refine transcriptSilent keeps (fun s input both => ?_) ⟨known, crashed⟩ inputs
    rw [passedOn, unread s both.2 input]
    rfl

theorem mediaFrom {path : Bytes} {pass : Bytes → Option Emission} {s : Relay}
    (h : Playing i c self path pass s) {inputs : List Service.Input}
    (stays : ∀ input ∈ inputs, ¬ Ends self input ∧ ¬ Parts self path input) :
    transcript step (passedOn i c self) s inputs =
      (payloads (waiting (s.sources i) c ++ transcript step (arrived i c) s inputs)).filterMap pass := by
  induction inputs generalizing s with
  | nil =>
    have nothing : payloads (waiting (s.sources i) c ++ []) = [] := by
      rw [List.append_nil, payloads, (h.settled i).waiting c h.allocated]
      rfl
    simp only [transcript, nothing]
    rfl
  | cons input rest ih =>
    obtain ⟨⟨goes, remains⟩, later⟩ := List.forall_mem_cons.mp stays
    have next := ih (stepPlaying h goes remains) later
    cases read : brought i c s input with
    | none =>
      rw [unreadSource h.settled h.known h.allocated read] at next
      simp only [transcript, passedOn, arrived, read]
      exact next
    | some chunk =>
      obtain ⟨passed, hands⟩ := stepRead h read
      have bytes : arrived i c s input = chunk := by rw [arrived, read]; rfl
      rw [transcript, transcript, passed, bytes, ← List.append_assoc,
        payloadsAppend (waiting (s.sources i) c ++ chunk), List.filterMap_append]
      cases left : (decode interleavedDecoder (waiting (s.sources i) c ++ chunk)).2 with
      | ok more =>
        rw [hands.rest more left] at next
        rw [next]
      | error e =>
        have known := Nat.lt_of_lt_of_le h.known (nextSourceGrows s input)
        rw [(crashedSilent known (hands.failed e left).1 rest).2]
        rfl

def Reached (s : Relay) : Prop :=
  ∃ maxSources players order inputs, s = run step (init maxSources players order) inputs

theorem startsPlaying {s : Relay} (reached : Reached s) (known : i < s.nextSource) (live : (s.sources i).Live c)
    (once : (s.manager.sinks (s.sources i).source.streamPath).count self = 1) :
    Playing i c self (s.sources i).source.streamPath (Session.onRtpData (s.sessions self)) s := by
  obtain ⟨maxSources, players, order, inputs, rfl⟩ := reached
  have settled := reachedSettled maxSources players order inputs
  exact ⟨known, (settled i).live c live, rfl, once, rfl, settled⟩

/-! What a session in a sinks vector once passes on of an open connection: the
payloads of the whole frames, whatever the others do and however the bytes are cut. The
session itself asks for no further DESCRIBE, SETUP or PLAY, and its stream stays. -/
theorem mediaRelayed (s : Relay) (reached : Reached s) (i : SourceId) (c : ConnId) (self : SessionId)
    (known : i < s.nextSource) (live : (s.sources i).Live c)
    (once : (s.manager.sinks (s.sources i).source.streamPath).count self = 1) (inputs : List Service.Input)
    (stays : ∀ input ∈ inputs, ¬ Ends self input ∧ ¬ Parts self (s.sources i).source.streamPath input) :
    transcript step (passedOn i c self) s inputs =
      (payloads (waiting (s.sources i) c ++ transcript step (arrived i c) s inputs)).filterMap
        (Session.onRtpData (s.sessions self)) :=
  mediaFrom (startsPlaying reached known live once) stays

/-! A camera and one player; two frames arrive, cut inside the first header. -/
def watched : Relay := run step FanOut.relay
  [addCam, .source 0 ⟨.writable 0 false, .inProgress, Recovery.sent⟩, ask .setup, ask .play]

def cut : List Service.Input :=
  [.source 0 ⟨.read 0 (.data [36, 0, 0]), .inProgress, []⟩, ask .options,
    .source 0 ⟨.read 0 (.data [2, 7, 8, 36, 1, 0, 0]), .inProgress, []⟩]

theorem cutStays : ∀ input ∈ cut, ¬ Ends 0 input ∧ ¬ Parts 0 (watched.sources 0).source.streamPath input := by
  have options : ¬ Ends 0 (ask .options) ∧ ¬ Parts 0 (watched.sources 0).source.streamPath (ask .options) := by
    constructor
    · rintro ⟨_, play | teardown⟩ <;> contradiction
    · rintro ⟨_, move⟩
      contradiction
  exact List.forall_mem_cons.mpr ⟨⟨id, id⟩, List.forall_mem_cons.mpr ⟨options,
    List.forall_mem_singleton.mpr ⟨id, id⟩⟩⟩

theorem watchedReached : Reached watched := ⟨500, _, insertionOrder, _, rfl⟩

theorem cutRelayed : transcript step (passedOn 0 0 0) watched cut =
    [.interleaved [36, 0, 0, 2] [7, 8], .interleaved [36, 0, 0, 0] []] :=
  (mediaRelayed watched watchedReached 0 0 0 (by decide) (by decide) (by decide) cut cutStays).trans (by decide)

/-! A TCP player reads them back from what its session sends. -/

theorem payloadsSmall (bytes : Bytes) : ∀ data ∈ payloads bytes, data.length ≤ 65535 := by
  intro data inside
  obtain ⟨u, taken, same⟩ := List.mem_filterMap.mp inside
  have read := ParsedUnits.unitRead taken
  cases u with
  | message msg => contradiction
  | interleaved channel own =>
    cases Option.some.inj same
    exact read

theorem playerDecodes (s : Relay) (reached : Reached s) (i : SourceId) (c : ConnId) (self : SessionId)
    (known : i < s.nextSource) (live : (s.sources i).Live c)
    (once : (s.manager.sinks (s.sources i).source.streamPath).count self = 1)
    (playing : (s.sessions self).state = .playing) (tcp : (s.sessions self).transport = .tcpInterleaved)
    (connected : (s.sessions self).connected = true) (inputs : List Service.Input)
    (stays : ∀ input ∈ inputs, ¬ Ends self input ∧ ¬ Parts self (s.sources i).source.streamPath input) :
    decode interleavedDecoder
        ((transcript step (passedOn i c self) s inputs).flatMap fun e => emittedBytes (some e)) =
      ((payloads (waiting (s.sources i) c ++ transcript step (arrived i c) s inputs)).map
        (.interleaved (s.sessions self).rtpChannel), .ok []) := by
  have small := payloadsSmall (waiting (s.sources i) c ++ transcript step (arrived i c) s inputs)
  rw [mediaFrom (startsPlaying reached known live once) stays]
  generalize payloads (waiting (s.sources i) c ++ transcript step (arrived i c) s inputs) = packets at small ⊢
  have bytes : (packets.filterMap (Session.onRtpData (s.sessions self))).flatMap
      (fun e => emittedBytes (some e)) = streamed (s.sessions self) packets := by
    unfold streamed
    induction packets with
    | nil => rfl
    | cons data rest ih =>
      have later := ih (List.forall_mem_cons.mp small).2
      rw [List.filterMap_cons, List.flatMap_cons, ← later]
      cases Session.onRtpData (s.sessions self) data <;> rfl
  have whole := framesDecode (s.sessions self).rtpChannel packets small []
  have empty : decode interleavedDecoder [] = ([], .ok []) := decodeMore interleavedDecoder rfl
  rw [List.append_nil, empty, List.append_nil] at whole
  rw [bytes, streamedFrames playing connected tcp, whole]

theorem cutDecoded : decode interleavedDecoder
    ((transcript step (passedOn 0 0 0) watched cut).flatMap fun e => emittedBytes (some e)) =
      ([.interleaved 0 [7, 8], .interleaved 0 []], .ok []) :=
  (playerDecodes watched watchedReached 0 0 0 (by decide) (by decide) (by decide) (by decide) (by decide)
    (by decide) cut cutStays).trans (by decide)

end RtspRelay.MediaPath
