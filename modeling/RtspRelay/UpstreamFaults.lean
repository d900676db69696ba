import RtspRelay.SessionIndependence

/-! What an upstream can do to the rest, short of ending the program: whatever it sends and
however it fails, it moves its own source, the packets of its own stream and what DESCRIBE
says of that stream. -/
namespace RtspRelay.UpstreamFaults
open Machine Protocol Manager Session Service Relay Transition Unwinding
open Program (Process Event ofHidden leftOut Lifts Matched shown runsMatch)
open SessionIndependence (sent)
open StreamApi (StreamOrder)
open Source (ConnectResult)
open Connection (WriteResult)

-- The sources whose upstreams are left out of the run.
variable {faulty : SourceId → Bool}

structure AlikeBut (faulty : SourceId → Bool) (s t : Relay) : Prop where
  manager : s.manager = t.manager
  sessions : s.sessions = t.sessions
  sources : ∀ i, faulty i = false → s.sources i = t.sources i
  nextSource : s.nextSource = t.nextSource
  order : s.order = t.order

abbrev ofFaulty (faulty : SourceId → Bool) : Service.Input → Bool := ofHidden (fun _ => false) faulty

def registeredFaulty (faulty : SourceId → Bool) (m : RelayManager) (path : Bytes) : Bool :=
  match m.streams.lookup path with
  | none => false
  | some relay => faulty relay.source

-- A DESCRIBE of a stream whose source is one of them.
def describesFaulty (faulty : SourceId → Bool) (m : RelayManager) (req : RtspMessage) : Bool :=
  decide (req.type = .request) && decide (req.method = .describe) &&
    registeredFaulty faulty m (extractStreamPath req.url)

-- Every response but that one, and every packet of the other sources.
def unaffected (faulty : SourceId → Bool) (s : Relay) (input : Service.Input) :
    List (SessionId × (RtspMessage ⊕ Emission)) :=
  match input with
  | .source i _ => if faulty i then [] else sent (s.step input)
  | .request _ req _ => if describesFaulty faulty s.manager req then [] else sent (s.step input)
  | _ => sent (s.step input)

/-! The SDP decides what DESCRIBE answers and nothing else of a request. -/

theorem describeSdp (sdpAt sdpAt' : Bytes → Bytes) (session : RtspSession) (req : RtspMessage) :
    (handleDescribe sdpAt session req).1 = (handleDescribe sdpAt' session req).1 := by
  unfold handleDescribe
  dsimp only
  split <;> split <;> rfl

theorem describeAnswer {sdpAt sdpAt' : Bytes → Bytes} (session : RtspSession) {req : RtspMessage}
    (same : sdpAt (extractStreamPath req.url) = sdpAt' (extractStreamPath req.url)) :
    handleDescribe sdpAt session req = handleDescribe sdpAt' session req := by
  unfold handleDescribe
  dsimp only
  rw [same]

theorem requestSdp (sdp sdp' : SourceId → Bytes) (udp : UdpAnswers) (m : RelayManager) (self : SessionId)
    (session : RtspSession) (req : RtspMessage) :
    (processRequest sdp udp m self session req).manager =
        (processRequest sdp' udp m self session req).manager ∧
      (processRequest sdp udp m self session req).session =
        (processRequest sdp' udp m self session req).session := by
  unfold processRequest
  split
  · cases req.method with
    | describe => exact ⟨rfl, describeSdp _ _ _ _⟩
    | _ => exact ⟨rfl, rfl⟩
  · exact ⟨rfl, rfl⟩

theorem sdpHealthy {sdp sdp' : SourceId → Bytes} (agree : ∀ i, faulty i = false → sdp i = sdp' i)
    {m : RelayManager} {path : Bytes} (healthy : registeredFaulty faulty m path = false) :
    m.getStreamSdp sdp path = m.getStreamSdp sdp' path := by
  unfold registeredFaulty at healthy
  unfold RelayManager.getStreamSdp
  split
  · rfl
  · rename_i relay found
    rw [found] at healthy
    exact agree relay.source healthy

theorem requestAnswer {sdp sdp' : SourceId → Bytes} (agree : ∀ i, faulty i = false → sdp i = sdp' i)
    (udp : UdpAnswers) {m : RelayManager} (self : SessionId) (session : RtspSession) {req : RtspMessage}
    (apart : describesFaulty faulty m req = false) :
    (processRequest sdp udp m self session req).response =
      (processRequest sdp' udp m self session req).response := by
  unfold processRequest
  split
  · rename_i isRequest
    cases method : req.method with
    | describe =>
      have healthy : registeredFaulty faulty m (extractStreamPath req.url) = false := by
        simpa [describesFaulty, isRequest, method] using apart
      have same := describeAnswer { session with cseq := req.cseq } (sdpHealthy agree healthy)
      exact congrArg (fun out => some out.2) same
    | _ => rfl
  · rfl

section
variable {s t : Relay} (h : AlikeBut faulty s t)
include h

theorem setSourceAlike (i : SourceId) {w w' : Source.World} (same : faulty i = false → w = w') :
    AlikeBut faulty (s.setSource i w) (t.setSource i w') := by
  refine ⟨h.manager, h.sessions, fun j healthy => ?_, h.nextSource, h.order⟩
  simp only [setSource]
  rcases eq_or_ne j i with rfl | differ
  · rw [Function.update_self, Function.update_self, same healthy]
  · rw [Function.update_of_ne differ, Function.update_of_ne differ, h.sources j healthy]

theorem quietAlike : AlikeBut faulty s.quiet t.quiet :=
  ⟨h.manager, h.sessions, h.sources, h.nextSource, h.order⟩

theorem addStreamAlike (path url : Bytes) (connect : ConnectResult) (writes : List WriteResult) :
    AlikeBut faulty (s.addStream path url connect writes) (t.addStream path url connect writes) := by
  unfold addStream
  rw [h.manager, h.nextSource]
  split
  · exact h
  · rename_i manager _
    have added : AlikeBut faulty { s with manager, nextSource := t.nextSource + 1 }
        { t with manager, nextSource := t.nextSource + 1 } := ⟨rfl, h.sessions, h.sources, rfl, h.order⟩
    exact setSourceAlike added t.nextSource fun _ => by rw [h.order]

theorem removeStreamAlike (path : Bytes) (writes : List WriteResult) :
    AlikeBut faulty (s.removeStream path writes) (t.removeStream path writes) := by
  unfold removeStream
  rw [h.manager]
  split
  · exact h
  · rename_i i manager _
    have erased : AlikeBut faulty { s with manager } { t with manager } :=
      ⟨rfl, h.sessions, h.sources, h.nextSource, h.order⟩
    exact setSourceAlike erased i fun healthy => by rw [h.sources i healthy]

theorem requestAlike (self : SessionId) (req : RtspMessage) (udp : UdpAnswers) :
    AlikeBut faulty (s.request self req udp) (t.request self req udp) ∧
      (describesFaulty faulty t.manager req = false →
        (s.request self req udp).responses = (t.request self req udp).responses) := by
  have agree : ∀ i, faulty i = false → s.sdp i = t.sdp i := fun i healthy => by
    rw [Relay.sdp, Relay.sdp, h.sources i healthy]
  obtain ⟨manager, session⟩ := requestSdp s.sdp t.sdp udp t.manager self (t.sessions self) req
  unfold request
  rw [h.manager, h.sessions]
  refine ⟨⟨manager, ?_, h.sources, h.nextSource, h.order⟩, fun apart => ?_⟩
  · simp only [setSession, session]
  · simp only [setSession, requestAnswer agree udp self (t.sessions self) apart]

theorem lostAlike (self : SessionId) : AlikeBut faulty (s.lost self) (t.lost self) := by
  unfold lost
  rw [h.manager, h.sessions]
  exact ⟨rfl, rfl, h.sources, h.nextSource, h.order⟩

theorem healthyStep {i : SourceId} (healthy : faulty i = false) (input : Source.Input) :
    AlikeBut faulty (s.sourceStep i input) (t.sourceStep i input) ∧
      (s.sourceStep i input).delivered = (t.sourceStep i input).delivered := by
  have fans : s.fanOut = t.fanOut := by
    funext path data
    rw [fanOut, fanOut, h.manager, h.sessions]
  unfold sourceStep
  rw [h.sources i healthy, fans]
  refine ⟨setSourceAlike ?_ i fun _ => rfl, rfl⟩
  exact ⟨h.manager, h.sessions, h.sources, h.nextSource, h.order⟩

theorem stepFaulty {input : Service.Input} (hidden : ofFaulty faulty input = true) :
    AlikeBut faulty (s.step input) t ∧ unaffected faulty s input = [] := by
  cases input with
  | source i input =>
    have broken : faulty i = true := hidden
    refine ⟨⟨h.manager, h.sessions, fun j healthy => ?_, h.nextSource, h.order⟩, if_pos broken⟩
    have differ : j ≠ i := fun same => by
      rw [same, broken] at healthy
      contradiction
    simp only [step, sourceStep, setSource, Function.update_of_ne differ]
    exact h.sources j healthy
  | _ => contradiction

theorem stepHealthy {input : Service.Input} (shown : ofFaulty faulty input = false) :
    AlikeBut faulty (s.step input) (t.step input) ∧ unaffected faulty s input = unaffected faulty t input := by
  cases input with
  | addStream path url connect writes =>
    refine ⟨addStreamAlike (quietAlike h) path url connect writes, ?_⟩
    simp only [unaffected, step, addStream]
    repeat' split
    all_goals rfl
  | removeStream path writes =>
    refine ⟨removeStreamAlike (quietAlike h) path writes, ?_⟩
    simp only [unaffected, step, removeStream]
    repeat' split
    all_goals rfl
  | request self req udp =>
    obtain ⟨after, responses⟩ := requestAlike (quietAlike h) self req udp
    refine ⟨after, ?_⟩
    simp only [unaffected, h.manager]
    split
    · rfl
    · rename_i apart
      have same := responses (Bool.eq_false_iff.mpr apart)
      simp only [sent, step, same]
      rfl
  | lost self => exact ⟨lostAlike (quietAlike h) self, rfl⟩
  | source i input =>
    have healthy : faulty i = false := shown
    obtain ⟨after, delivered⟩ := healthyStep (quietAlike h) healthy input
    refine ⟨after, ?_⟩
    simp only [unaffected, healthy, Bool.false_eq_true, if_false, sent, step, delivered]
    rfl
end

theorem upstreamsLift (faulty : SourceId → Bool) :
    Lifts (fun _ => false) faulty (unaffected faulty) (AlikeBut faulty) where
  unwinds := ⟨fun _ _ _ h hidden => stepFaulty h hidden, fun _ _ _ h shows => stepHealthy h shows⟩
  changes _ _ out change h := by
    cases change with
    | keep => exact h
    | add path url => exact addStreamAlike h path url out.connect out.writes
    | remove path => exact removeStreamAlike h path out.writes
  sources _ _ i h healthy := h.sources i healthy

theorem upstreamsContained (order : StreamOrder) (rtspPort : UInt16) (faulty : SourceId → Bool) (p : Process)
    (events : List Event) :
    let healthy := events.filter fun event => !leftOut (fun _ => false) faulty event
    let shows := transcript (Process.step order rtspPort) (shown (unaffected faulty)) p
    shows events <+: shows healthy ∧ ((run (Process.step order rtspPort) p events).fault = false →
      Matched (fun _ => false) (AlikeBut faulty) (run (Process.step order rtspPort) p events)
        (run (Process.step order rtspPort) p healthy) ∧ shows events = shows healthy) := by
  have same : AlikeBut faulty p.relay p.relay := ⟨rfl, rfl, fun _ _ => rfl, rfl, rfl⟩
  exact runsMatch (upstreamsLift faulty) same events

end RtspRelay.UpstreamFaults
