import RtspRelay.General.Unwinding
import RtspRelay.Program

/-! What a player does to the others: nothing, short of ending the program. Of a run in
which some sessions send any bytes and lose their connections at any time, the other
sessions see what they see of the run in which those sessions do nothing at all. -/
namespace RtspRelay.SessionIndependence
open Machine Protocol Manager Session Service Relay Transition Unwinding
open Program (Process Event ofHidden leftOut Lifts Matched shown runsMatch)
open StreamApi (StreamOrder)
open Source (ConnectResult)
open Connection (WriteResult)

-- The sessions that watch; the others are the ones whose inputs are left out.
variable {seen : SessionId → Bool}

def restrict (seen : SessionId → Bool) (relay : StreamRelay) : StreamRelay :=
  { relay with sinks := relay.sinks.filter seen }

structure AlikeMaps (seen : SessionId → Bool) (m m' : RelayManager) : Prop where
  streams : ∀ path, (m.streams.lookup path).map (restrict seen) =
    (m'.streams.lookup path).map (restrict seen)
  maxSources : m.maxSources = m'.maxSources

structure Alike (seen : SessionId → Bool) (s t : Relay) : Prop where
  maps : AlikeMaps seen s.manager t.manager
  sessions : ∀ self, seen self = true → s.sessions self = t.sessions self
  sources : s.sources = t.sources
  nextSource : s.nextSource = t.nextSource
  order : s.order = t.order

abbrev ofUnseen (seen : SessionId → Bool) : Service.Input → Bool := ofHidden (fun self => !seen self) fun _ => false

-- What a step sends to the sessions.
def sent (s : Relay) : List (SessionId × (RtspMessage ⊕ Emission)) :=
  s.responses.map (fun answer => (answer.1, .inl answer.2)) ++
    s.delivered.map fun packet => (packet.1, .inr packet.2)

def heard (seen : SessionId → Bool) (s : Relay) (input : Service.Input) :
    List (SessionId × (RtspMessage ⊕ Emission)) := (sent (s.step input)).filter fun e => seen e.1

/-! The map, up to the sinks that do not watch. -/

section
variable {m m' : RelayManager}

theorem alikeRefl (m : RelayManager) : AlikeMaps seen m m := ⟨fun _ => rfl, rfl⟩

theorem alikeFound (h : AlikeMaps seen m m') (path : Bytes) :
    (m.streams.lookup path = none ∧ m'.streams.lookup path = none) ∨
      ∃ relay relay', m.streams.lookup path = some relay ∧ m'.streams.lookup path = some relay' ∧
        restrict seen relay = restrict seen relay' := by
  have same := h.streams path
  cases left : m.streams.lookup path with
  | none =>
    rw [left] at same
    exact .inl ⟨rfl, Option.map_eq_none_iff.mp same.symm⟩
  | some relay =>
    rw [left] at same
    obtain ⟨relay', right, equal⟩ := Option.map_eq_some_iff.mp same.symm
    exact .inr ⟨relay, relay', rfl, right, equal.symm⟩

theorem restrictFields {relay relay' : StreamRelay} (same : restrict seen relay = restrict seen relay') :
    relay.source = relay'.source ∧ relay.upstreamUrl = relay'.upstreamUrl ∧
      relay.sinks.filter seen = relay'.sinks.filter seen :=
  StreamRelay.mk.inj same

theorem alikeHas (h : AlikeMaps seen m m') (path : Bytes) : m.hasStream path = m'.hasStream path := by
  unfold RelayManager.hasStream
  rcases alikeFound h path with ⟨left, right⟩ | ⟨_, _, left, right, _⟩ <;> rw [left, right]
  rfl

theorem alikeSinks (h : AlikeMaps seen m m') (path : Bytes) :
    (m.sinks path).filter seen = (m'.sinks path).filter seen := by
  unfold RelayManager.sinks
  rcases alikeFound h path with ⟨left, right⟩ | ⟨_, _, left, right, same⟩ <;> rw [left, right]
  exact (restrictFields same).2.2

theorem alikeSdp (h : AlikeMaps seen m m') (sdp : SourceId → Bytes) :
    m.getStreamSdp sdp = m'.getStreamSdp sdp := by
  funext path
  unfold RelayManager.getStreamSdp
  rcases alikeFound h path with ⟨left, right⟩ | ⟨_, _, left, right, same⟩ <;> rw [left, right]
  exact congrArg sdp (restrictFields same).1

theorem alikeCount (h : AlikeMaps seen m m') : m.streams.entries.length = m'.streams.entries.length := by
  have keys : m.streams.keys.Perm m'.streams.keys := by
    rw [List.perm_ext_iff_of_nodup m.streams.keys_nodup m'.streams.keys_nodup]
    intro path
    have same := alikeHas h path
    unfold RelayManager.hasStream at same
    rw [← AList.mem_keys, ← AList.mem_keys, ← AList.lookup_isSome, ← AList.lookup_isSome, same]
  simpa [AList.keys, List.keys] using keys.length_eq
end

/-! The operations keep it: those of a session that watches on both sides, those of
another session on one side alone. -/

theorem mapAlike {o o' : Option StreamRelay} (same : o.map (restrict seen) = o'.map (restrict seen))
    {f f' : StreamRelay → StreamRelay}
    (agree : ∀ r r', restrict seen r = restrict seen r' → restrict seen (f r) = restrict seen (f' r')) :
    (o.map f).map (restrict seen) = (o'.map f').map (restrict seen) := by
  cases o with
  | none =>
    rw [Option.map_eq_none_iff.mp same.symm]
    rfl
  | some r =>
    obtain ⟨r', right, equal⟩ := Option.map_eq_some_iff.mp same.symm
    rw [right]
    exact congrArg some (agree r r' equal.symm)

theorem mapUnseen {o o' : Option StreamRelay} (same : o.map (restrict seen) = o'.map (restrict seen))
    {f : StreamRelay → StreamRelay} (agree : ∀ r, restrict seen (f r) = restrict seen r) :
    (o.map f).map (restrict seen) = o'.map (restrict seen) := by
  rw [Option.map_map, ← same]
  exact Option.map_congr fun r _ => agree r

theorem restrictSinks {r r' : StreamRelay} (same : restrict seen r = restrict seen r')
    {sinks sinks' : List SessionId} (equal : sinks.filter seen = sinks'.filter seen) :
    restrict seen { r with sinks := sinks } = restrict seen { r' with sinks := sinks' } := by
  obtain ⟨source, url, _⟩ := restrictFields same
  simp only [restrict, source, url, equal]

theorem addSinkMax (m : RelayManager) (path : Bytes) (self : SessionId) :
    (m.addSink path self).maxSources = m.maxSources := by
  unfold RelayManager.addSink
  split <;> rfl

theorem removeSinkMax (m : RelayManager) (path : Bytes) (self : SessionId) :
    (m.removeSink path self).maxSources = m.maxSources := by
  unfold RelayManager.removeSink
  split <;> rfl

section
variable {m m' : RelayManager} (h : AlikeMaps seen m m') (path : Bytes) {self : SessionId}
include h

theorem addSinkBoth (self : SessionId) : AlikeMaps seen (m.addSink path self) (m'.addSink path self) := by
  refine ⟨fun other => ?_, by rw [addSinkMax, addSinkMax, h.maxSources]⟩
  rw [RelayManager.addSinkLookup, RelayManager.addSinkLookup]
  refine mapAlike (h.streams other) fun r r' same => ?_
  split
  · refine restrictSinks same ?_
    rw [List.filter_append, List.filter_append, (restrictFields same).2.2]
  · exact same

theorem removeSinkBoth (self : SessionId) :
    AlikeMaps seen (m.removeSink path self) (m'.removeSink path self) := by
  refine ⟨fun other => ?_, by rw [removeSinkMax, removeSinkMax, h.maxSources]⟩
  rw [RelayManager.removeSinkLookup, RelayManager.removeSinkLookup]
  refine mapAlike (h.streams other) fun r r' same => ?_
  split
  · refine restrictSinks same ?_
    rw [List.filter_comm, (restrictFields same).2.2, List.filter_comm]
  · exact same

theorem addSinkUnseen (unseen : seen self = false) : AlikeMaps seen (m.addSink path self) m' := by
  refine ⟨fun other => ?_, by rw [addSinkMax, h.maxSources]⟩
  rw [RelayManager.addSinkLookup]
  refine mapUnseen (h.streams other) fun r => ?_
  split
  · refine restrictSinks rfl ?_
    rw [List.filter_append, List.filter_cons_of_neg (by simp [unseen])]
    exact List.append_nil _
  · rfl

theorem removeSinkUnseen (unseen : seen self = false) : AlikeMaps seen (m.removeSink path self) m' := by
  refine ⟨fun other => ?_, by rw [removeSinkMax, h.maxSources]⟩
  rw [RelayManager.removeSinkLookup]
  refine mapUnseen (h.streams other) fun r => ?_
  split
  · refine restrictSinks rfl ?_
    have watching : ∀ a ∈ r.sinks, (seen a && decide (a ≠ self)) = seen a := fun a _ => by
      rcases eq_or_ne a self with rfl | differ
      · simp [unseen]
      · simp [differ]
    rw [List.filter_filter, List.filter_congr watching]
  · rfl

theorem closeBoth (self : SessionId) (session : RtspSession) :
    AlikeMaps seen (close m self session).1 (close m' self session).1 ∧
      (close m self session).2 = (close m' self session).2 := by
  unfold close
  split
  · exact ⟨h, rfl⟩
  · dsimp only
    split
    · exact ⟨removeSinkBoth h session.streamPath self, rfl⟩
    · exact ⟨h, rfl⟩

theorem closeUnseen (unseen : seen self = false) (session : RtspSession) :
    AlikeMaps seen (close m self session).1 m' := by
  unfold close
  split
  · exact h
  · dsimp only
    split
    · exact removeSinkUnseen h session.streamPath unseen
    · exact h

theorem addStreamBoth (url : Bytes) (source : SourceId) :
    (m.addStream path url source = none ∧ m'.addStream path url source = none) ∨
      ∃ after after', m.addStream path url source = some after ∧
        m'.addStream path url source = some after' ∧ AlikeMaps seen after after' := by
  unfold RelayManager.addStream
  rw [alikeHas h path, alikeCount h, h.maxSources]
  split
  · exact .inl ⟨rfl, rfl⟩
  · split
    · exact .inl ⟨rfl, rfl⟩
    · refine .inr ⟨_, _, rfl, rfl, fun other => ?_, rfl⟩
      rcases eq_or_ne other path with rfl | differ
      · simp
      · simp [AList.lookup_insert_ne differ, h.streams other]

theorem removeStreamBoth :
    (m.removeStream path = none ∧ m'.removeStream path = none) ∨
      ∃ source after after', m.removeStream path = some (source, after) ∧
        m'.removeStream path = some (source, after') ∧ AlikeMaps seen after after' := by
  unfold RelayManager.removeStream
  rcases alikeFound h path with ⟨left, right⟩ | ⟨relay, relay', left, right, same⟩
  · rw [left, right]
    exact .inl ⟨rfl, rfl⟩
  · rw [left, right]
    refine .inr ⟨relay.source, ⟨m.streams.erase path, m.maxSources⟩, ⟨m'.streams.erase path, m'.maxSources⟩,
      rfl, by simp only [(restrictFields same).1], fun other => ?_, h.maxSources⟩
    rcases eq_or_ne other path with rfl | differ
    · simp
    · simp [AList.lookup_erase_ne differ, h.streams other]
end

/-! One request, in both or in one. -/

section
variable {m m' : RelayManager} (h : AlikeMaps seen m m') (sdp : SourceId → Bytes) (udp : UdpAnswers)
  {self : SessionId} (session : RtspSession) (req : RtspMessage)
include h

theorem requestBoth (self : SessionId) :
    AlikeMaps seen (processRequest sdp udp m self session req).manager
        (processRequest sdp udp m' self session req).manager ∧
      (processRequest sdp udp m self session req).session =
        (processRequest sdp udp m' self session req).session ∧
      (processRequest sdp udp m self session req).response =
        (processRequest sdp udp m' self session req).response := by
  have same := alikeSdp h sdp
  unfold processRequest
  split
  · cases req.method with
    | describe =>
      dsimp only [handleMethod]
      rw [same]
      exact ⟨h, rfl, rfl⟩
    | play => exact ⟨addSinkBoth h _ self, rfl, rfl⟩
    | teardown =>
      obtain ⟨maps, left⟩ := closeBoth h self { session with cseq := req.cseq }
      exact ⟨maps, left, rfl⟩
    | _ => exact ⟨h, rfl, rfl⟩
  · exact ⟨h, rfl, rfl⟩

theorem requestUnseen (unseen : seen self = false) :
    AlikeMaps seen (processRequest sdp udp m self session req).manager m' := by
  cases kind : role req with
  | other => rw [(otherHandled kind).1]; exact h
  | move => rw [(moveHandled kind).1]; exact h
  | play => rw [playHandled kind]; exact addSinkUnseen h session.streamPath unseen
  | teardown => rw [teardownHandled kind]; exact closeUnseen h unseen _
end

/-! What a packet reaches among the sessions that watch. -/

theorem fanOutSeen (s : Relay) (path data : Bytes) :
    (s.fanOut path data).filter (fun e => seen e.1) =
      ((s.manager.sinks path).filter seen).filterMap fun self =>
        (Session.onRtpData (s.sessions self) data).map (self, ·) := by
  unfold fanOut RelayManager.onRtpData
  induction s.manager.sinks path with
  | nil => rfl
  | cons self rest ih =>
    cases watching : seen self with
    | true =>
      rw [List.filter_cons_of_pos watching, List.filterMap_cons, List.filterMap_cons, ← ih]
      cases Session.onRtpData (s.sessions self) data with
      | none => rfl
      | some e => exact List.filter_cons_of_pos watching
    | false =>
      have apart : ¬ seen self = true := by simp [watching]
      rw [List.filter_cons_of_neg apart, List.filterMap_cons, ← ih]
      cases Session.onRtpData (s.sessions self) data with
      | none => rfl
      | some e => exact List.filter_cons_of_neg apart

section
variable {s t : Relay} (h : Alike seen s t)
include h

theorem fanOutAlike (path data : Bytes) : (s.fanOut path data).filter (fun e => seen e.1) =
    (t.fanOut path data).filter fun e => seen e.1 := by
  rw [fanOutSeen, fanOutSeen, alikeSinks h.maps path]
  refine List.filterMap_congr fun self inside => ?_
  rw [h.sessions self (List.mem_filter.mp inside).2]

theorem deliveredAlike (path : Bytes) (packets : List Bytes) :
    (packets.flatMap (s.fanOut path)).filter (fun e => seen e.1) =
      (packets.flatMap (t.fanOut path)).filter fun e => seen e.1 := by
  induction packets with
  | nil => rfl
  | cons data rest ih =>
    rw [List.flatMap_cons, List.flatMap_cons, List.filter_append, List.filter_append, ih,
      fanOutAlike h path data]
end

/-! One step. -/

theorem heardSplit (s : Relay) (input : Service.Input) : heard seen s input =
    ((s.step input).responses.filter fun e => seen e.1).map (fun answer => (answer.1, .inl answer.2)) ++
      ((s.step input).delivered.filter fun e => seen e.1).map fun packet => (packet.1, .inr packet.2) := by
  unfold heard sent
  rw [List.filter_append, List.filter_map, List.filter_map]
  rfl

theorem heardAlike {s t : Relay} {input : Service.Input}
    (responses : (s.step input).responses.filter (fun e => seen e.1) =
      (t.step input).responses.filter fun e => seen e.1)
    (delivered : (s.step input).delivered.filter (fun e => seen e.1) =
      (t.step input).delivered.filter fun e => seen e.1) : heard seen s input = heard seen t input := by
  rw [heardSplit, heardSplit, responses, delivered]

theorem unseenApart {input : Service.Input} (hidden : ofUnseen seen input = true) {self : SessionId}
    (watching : seen self = true) : ¬ Concerns self input := by
  cases input with
  | request other req udp =>
    rintro rfl
    simp [ofHidden, watching] at hidden
  | lost other =>
    rintro rfl
    simp [ofHidden, watching] at hidden
  | _ => exact fun concerned => concerned

theorem stepUnseen {s t : Relay} (h : Alike seen s t) {input : Service.Input}
    (hidden : ofUnseen seen input = true) : Alike seen (s.step input) t ∧ heard seen s input = [] := by
  have sessions : ∀ self, seen self = true → (s.step input).sessions self = t.sessions self :=
    fun self watching => (stepSession (unseenApart hidden watching)).trans (h.sessions self watching)
  cases input with
  | request self req udp =>
    have unseen : seen self = false := by simpa [ofHidden] using hidden
    have maps := requestUnseen h.maps s.sdp udp (s.sessions self) req unseen
    have own : (s.step (.request self req udp)).responses.filter (fun e => seen e.1) = [] :=
      List.filter_eq_nil_iff.mpr fun e inside => by
        obtain ⟨_, _, rfl⟩ := List.mem_map.mp inside
        simp [unseen]
    refine ⟨⟨maps, sessions, h.sources, h.nextSource, h.order⟩, ?_⟩
    rw [heardSplit, own]
    rfl
  | lost self =>
    have unseen : seen self = false := by simpa [ofHidden] using hidden
    have maps := closeUnseen h.maps unseen { s.sessions self with connected := false }
    exact ⟨⟨maps, sessions, h.sources, h.nextSource, h.order⟩, rfl⟩
  | _ => contradiction

section
variable {s t : Relay} (h : Alike seen s t)
include h

theorem quietAlike : Alike seen s.quiet t.quiet := ⟨h.maps, h.sessions, h.sources, h.nextSource, h.order⟩

theorem addStreamAlike (path url : Bytes) (connect : ConnectResult) (writes : List WriteResult) :
    Alike seen (s.addStream path url connect writes) (t.addStream path url connect writes) := by
  simp only [addStream, h.nextSource, h.order]
  rcases addStreamBoth h.maps path url t.nextSource with ⟨left, right⟩ | ⟨_, _, left, right, maps⟩
  · rw [left, right]
    exact h
  · rw [left, right]
    exact ⟨maps, h.sessions, by simp only [setSource, h.sources], rfl, rfl⟩

theorem removeStreamAlike (path : Bytes) (writes : List WriteResult) :
    Alike seen (s.removeStream path writes) (t.removeStream path writes) := by
  simp only [removeStream]
  rcases removeStreamBoth h.maps path with ⟨left, right⟩ | ⟨_, _, _, left, right, maps⟩
  · rw [left, right]
    exact h
  · rw [left, right]
    exact ⟨maps, h.sessions, by simp only [setSource, h.sources], h.nextSource, h.order⟩

theorem requestAlike {self : SessionId} (watching : seen self = true) (req : RtspMessage) (udp : UdpAnswers) :
    Alike seen (s.step (.request self req udp)) (t.step (.request self req udp)) ∧
      (s.step (.request self req udp)).responses = (t.step (.request self req udp)).responses := by
  have sdp : s.sdp = t.sdp := by
    funext i
    rw [Relay.sdp, Relay.sdp, h.sources]
  obtain ⟨maps, session, response⟩ := requestBoth h.maps t.sdp udp (t.sessions self) req self
  simp only [step, request, quiet]
  have same : (⟨s.manager, s.sessions, s.sources, s.nextSource, s.order, [], []⟩ : Relay).sdp = t.sdp := sdp
  rw [same, h.sessions self watching]
  refine ⟨⟨maps, fun other watches => ?_, h.sources, h.nextSource, h.order⟩, ?_⟩
  · rcases eq_or_ne other self with rfl | differ
    · rw [setSessionSame, setSessionSame]
      exact session
    · rw [setSessionOther _ differ, setSessionOther _ differ]
      exact h.sessions other watches
  · simp only [setSession, response]
    rfl

theorem lostAlike {self : SessionId} (watching : seen self = true) :
    Alike seen (s.step (.lost self)) (t.step (.lost self)) := by
  obtain ⟨maps, session⟩ := closeBoth h.maps self { t.sessions self with connected := false }
  simp only [step, lost, quiet]
  rw [h.sessions self watching]
  refine ⟨maps, fun other watches => ?_, h.sources, h.nextSource, h.order⟩
  rcases eq_or_ne other self with rfl | differ
  · rw [setSessionSame, setSessionSame]
    exact session
  · rw [setSessionOther _ differ, setSessionOther _ differ]
    exact h.sessions other watches

theorem sourceAlike (i : SourceId) (input : Source.Input) :
    Alike seen (s.step (.source i input)) (t.step (.source i input)) ∧
      (s.step (.source i input)).delivered.filter (fun e => seen e.1) =
        (t.step (.source i input)).delivered.filter fun e => seen e.1 := by
  have packets := deliveredAlike (quietAlike h) ((t.sources i).step input).source.streamPath
    (packets ((t.sources i).step input).acts)
  simp only [step, sourceStep, quiet, h.sources]
  exact ⟨⟨h.maps, h.sessions, rfl, h.nextSource, h.order⟩, packets⟩
end

theorem stepBoth {s t : Relay} (h : Alike seen s t) {input : Service.Input} (shown : ofUnseen seen input = false) :
    Alike seen (s.step input) (t.step input) ∧ heard seen s input = heard seen t input := by
  cases input with
  | addStream path url connect writes =>
    refine ⟨addStreamAlike (quietAlike h) path url connect writes, heardAlike ?_ ?_⟩
    all_goals simp only [step, addStream, quiet]; repeat' split
    all_goals rfl
  | removeStream path writes =>
    refine ⟨removeStreamAlike (quietAlike h) path writes, heardAlike ?_ ?_⟩
    all_goals simp only [step, removeStream, quiet]; repeat' split
    all_goals rfl
  | request self req udp =>
    obtain ⟨after, responses⟩ := requestAlike h (by simpa [ofHidden] using shown) req udp
    exact ⟨after, heardAlike (by rw [responses]) rfl⟩
  | lost self => exact ⟨lostAlike h (by simpa [ofHidden] using shown), rfl⟩
  | source i input =>
    obtain ⟨after, delivered⟩ := sourceAlike h i input
    exact ⟨after, heardAlike rfl delivered⟩

theorem sessionsUnwind (seen : SessionId → Bool) : Unwinds step (heard seen) (ofUnseen seen) (Alike seen) :=
  ⟨fun _ _ _ h hidden => stepUnseen h hidden, fun _ _ _ h shown => stepBoth h shown⟩

theorem sessionsLift (seen : SessionId → Bool) :
    Lifts (fun self => !seen self) (fun _ => false) (heard seen) (Alike seen) where
  unwinds := sessionsUnwind seen
  changes _ _ out change h := by
    cases change with
    | keep => exact h
    | add path url => exact addStreamAlike h path url out.connect out.writes
    | remove path => exact removeStreamAlike h path out.writes
  sources _ _ i h _ := congrFun h.sources i

/-! Whatever bytes the others send: what is shown up to the end of the program, and all of
it where the program goes on. -/
theorem sessionsIndependent (order : StreamOrder) (rtspPort : UInt16) (seen : SessionId → Bool) (p : Process)
    (events : List Event) :
    let alone := events.filter fun event => !leftOut (fun self => !seen self) (fun _ => false) event
    let shows := transcript (Process.step order rtspPort) (shown (heard seen)) p
    shows events <+: shows alone ∧ ((run (Process.step order rtspPort) p events).fault = false →
      Matched (fun self => !seen self) (Alike seen) (run (Process.step order rtspPort) p events)
        (run (Process.step order rtspPort) p alone) ∧ shows events = shows alone) := by
  have same : Alike seen p.relay p.relay := ⟨alikeRefl _, fun _ _ => rfl, rfl, rfl, rfl⟩
  exact runsMatch (sessionsLift seen) same events

end RtspRelay.SessionIndependence
