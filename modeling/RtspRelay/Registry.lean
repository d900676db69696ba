import Mathlib.Data.Finset.Card
import RtspRelay.Catalog
import RtspRelay.ExchangeSteps
import RtspRelay.MediaPath

/-! The map and the sources it holds account for each other: what is registered runs
under its own path and upstream URL, what was removed has been stopped, and so no more
sources run than max_sources allows. -/
namespace RtspRelay.Registry
open Machine Buffer Protocol Manager Session Service Relay Transition Exchange StreamApi
open Source (World RtspSource ConnectResult)
open Connection (WriteResult)

-- RelayManager::~RelayManager, in the order the map is walked in.
def stopEach (writes : SourceId → List WriteResult) (sources : SourceId → World) :
    List (Bytes × StreamRelay) → SourceId → World
  | [] => sources
  | (_, relay) :: rest => stopEach writes
      (Function.update sources relay.source ((sources relay.source).stop (writes relay.source))) rest

def destroyed (order : StreamOrder) (writes : SourceId → List WriteResult) (s : Relay) : Relay :=
  { s with
    sources := stopEach writes s.sources (order.list s.manager.streams)
    manager := { s.manager with streams := ∅ } }

def Running (s : Relay) (i : SourceId) : Prop := (s.sources i).source.stopping = false

instance (s : Relay) (i : SourceId) : Decidable (Running s i) :=
  inferInstanceAs (Decidable ((s.sources i).source.stopping = false))

def running (s : Relay) : Finset SourceId := (Finset.range s.nextSource).filter (Running s)

-- The source of a path and the upstream it was added with.
def owner (m : RelayManager) (path : Bytes) : Option (SourceId × Bytes) :=
  (m.streams.lookup path).map fun relay => (relay.source, relay.upstreamUrl)

structure Serves (source : RtspSource) (path url : Bytes) : Prop where
  streamPath : source.streamPath = path
  upstreamUrl : source.upstreamUrl = url
  stopping : source.stopping = false

structure Coherent (s : Relay) : Prop where
  bounded : s.manager.streams.entries.length ≤ s.manager.maxSources
  registered : ∀ path i url, owner s.manager path = some (i, url) →
    i < s.nextSource ∧ Serves (s.sources i).source path url
  held : ∀ i < s.nextSource, Running s i →
    ∃ url, owner s.manager (s.sources i).source.streamPath = some (i, url)

/-! Sessions leave every owner in its place. -/

theorem addSinkOwner (m : RelayManager) (path : Bytes) (sink : SessionId) :
    owner (m.addSink path sink) = owner m := by
  funext other
  rw [owner, RelayManager.addSinkLookup, Option.map_map]
  congr 1
  funext relay
  exact apply_ite (fun r : StreamRelay => (r.source, r.upstreamUrl)) _ _ _ |>.trans (ite_self _)

theorem removeSinkOwner (m : RelayManager) (path : Bytes) (sink : SessionId) :
    owner (m.removeSink path sink) = owner m := by
  funext other
  rw [owner, RelayManager.removeSinkLookup, Option.map_map]
  congr 1
  funext relay
  exact apply_ite (fun r : StreamRelay => (r.source, r.upstreamUrl)) _ _ _ |>.trans (ite_self _)

theorem entriesCounted (streams : AList (fun _ : Bytes => StreamRelay)) :
    streams.entries.length = streams.keys.toFinset.card := by
  rw [List.toFinset_card_of_nodup streams.keys_nodup]
  exact (List.length_map _).symm

theorem insertLength {m : RelayManager} {path : Bytes} {relay : StreamRelay}
    (found : m.streams.lookup path = some relay) (after : StreamRelay) :
    (m.streams.insert path after).entries.length = m.streams.entries.length := by
  have present : path ∈ m.streams := AList.lookup_isSome.mp (by rw [found]; rfl)
  have keys : (m.streams.insert path after).keys.toFinset = m.streams.keys.toFinset := by
    ext other
    rw [List.mem_toFinset, List.mem_toFinset, ← AList.mem_keys, ← AList.mem_keys, AList.mem_insert]
    exact ⟨fun either => either.elim (fun same => same ▸ present) id, .inr⟩
  rw [entriesCounted, entriesCounted, keys]

theorem addSinkLength (m : RelayManager) (path : Bytes) (sink : SessionId) :
    (m.addSink path sink).streams.entries.length = m.streams.entries.length := by
  unfold RelayManager.addSink
  split
  · rfl
  · rename_i found
    exact insertLength found _

theorem removeSinkLength (m : RelayManager) (path : Bytes) (sink : SessionId) :
    (m.removeSink path sink).streams.entries.length = m.streams.entries.length := by
  unfold RelayManager.removeSink
  split
  · rfl
  · rename_i found
    exact insertLength found _

-- What a session can do to the map.
structure SameOwners (m after : RelayManager) : Prop where
  owners : owner after = owner m
  length : after.streams.entries.length = m.streams.entries.length
  maxSources : after.maxSources = m.maxSources

theorem closeOwners (m : RelayManager) (self : SessionId) (session : RtspSession) :
    SameOwners m (close m self session).1 := by
  refine ⟨?_, ?_, Catalog.closeMax m self session⟩
  all_goals
    unfold close
    split
    · rfl
    · dsimp only
      split
      · first
        | exact removeSinkOwner m _ self
        | exact removeSinkLength m _ self
      · rfl

theorem requestOwners (s : Relay) (self : SessionId) (req : RtspMessage) (udp : UdpAnswers) :
    SameOwners s.manager (s.step (.request self req udp)).manager := by
  simp only [Relay.step, Relay.request, Relay.setSession]
  cases kind : role req with
  | other => rw [(otherHandled kind).1]; exact ⟨rfl, rfl, rfl⟩
  | move => rw [(moveHandled kind).1]; exact ⟨rfl, rfl, rfl⟩
  | play =>
    rw [playHandled kind]
    exact ⟨addSinkOwner _ _ self, addSinkLength _ _ self, SessionIndependence.addSinkMax _ _ self⟩
  | teardown => rw [teardownHandled kind]; exact closeOwners _ self _

theorem sessionCoherent {s after : Relay} (h : Coherent s) (same : SameOwners s.manager after.manager)
    (sources : after.sources = s.sources) (nextSource : after.nextSource = s.nextSource) : Coherent after := by
  refine ⟨?_, ?_, ?_⟩
  · rw [same.length, same.maxSources]
    exact h.bounded
  · rw [same.owners, sources, nextSource]
    exact h.registered
  · rw [same.owners, nextSource]
    intro i added runs
    rw [Running, sources] at runs
    rw [sources]
    exact h.held i added runs

/-! A source keeps its path and its upstream URL whatever happens to it. -/

theorem effectUrl (w : World) (hap : Happening) :
    (effect w hap).source.upstreamUrl = w.source.upstreamUrl := by
  have ordinary : Ordinary hap → (effect w hap).source.upstreamUrl = w.source.upstreamUrl := by
    intro kind
    have happened := happens w kind
    split at happened
    · exact happened.url
    · exact happened.url
  cases hap with
  | message i msg => exact (handledSource w msg).1
  | stop writes => exact (stoppedSource w writes).1
  | enter | frame | stored | writable | ended | broken | fire | runTask => exact ordinary trivial

theorem stepUrl (w : World) (input : Source.Input) :
    (w.step input).source.upstreamUrl = w.source.upstreamUrl := by
  have runs : run effect w (happenings w (.event input)) = w.step input := commandRuns w (.event input)
  rw [← runs]
  exact runInvariant (I := fun after : World => after.source.upstreamUrl = w.source.upstreamUrl)
    (fun after hap same => (effectUrl after hap).trans same) rfl _

theorem stopStops (w : World) (writes : List WriteResult) : (w.stop writes).source.stopping = true := by
  have torn : ∀ w : World, w.sendTeardown.source.stopping = w.source.stopping := by
    intro w
    unfold World.sendTeardown
    split
    · exact (World.sendRequestLasting _ _).stopping
    · rfl
  have dropped : ∀ w : World, w.dropClient.source.stopping = w.source.stopping := by
    intro w
    unfold World.dropClient
    split <;> rfl
  exact (dropped _).trans (torn _)

theorem startServes (order : HeaderOrder) (url path : Bytes) (connect : ConnectResult)
    (writes : List WriteResult) :
    Serves ((World.create order url path).start connect writes).source path url := by
  have lasting := World.upstreamLasting (((World.create order url path).entering writes).setStopping false
    |>.setState .connecting) connect
  refine ⟨lasting.streamPath, ?_, lasting.stopping⟩
  have begun := beginCases order url path connect writes
  split at begun
  · exact begun.url
  · exact begun.url

/-! One step. -/

theorem addStreamOwner {m after : RelayManager} {path url : Bytes} {i : SourceId}
    (added : m.addStream path url i = some after) (other : Bytes) :
    owner after other = if other = path then some (i, url) else owner m other := by
  rw [owner, (RelayManager.addStreamFresh added).2]
  split
  · rename_i same
    rw [same, AList.lookup_insert]
    rfl
  · rename_i differ
    rw [AList.lookup_insert_ne differ]
    rfl

theorem addStreamLength {m after : RelayManager} {path url : Bytes} {i : SourceId}
    (added : m.addStream path url i = some after) :
    after.streams.entries.length ≤ after.maxSources ∧ after.maxSources = m.maxSources := by
  unfold RelayManager.addStream at added
  split at added
  · contradiction
  · rename_i absent
    split at added
    · contradiction
    · rename_i room
      rw [← Option.some.inj added]
      have fresh : path ∉ m.streams := fun inside => absent (AList.lookup_isSome.mpr inside)
      refine ⟨?_, rfl⟩
      rw [AList.entries_insert_of_notMem fresh, List.length_cons]
      exact Nat.lt_of_not_le room

theorem removeStreamOwner {m after : RelayManager} {path : Bytes} {i : SourceId}
    (removed : m.removeStream path = some (i, after)) :
    (∃ url, owner m path = some (i, url)) ∧
      ∀ other, owner after other = if other = path then none else owner m other := by
  have erased := (RelayManager.removeStreamErases removed).2
  unfold RelayManager.removeStream at removed
  split at removed
  · contradiction
  · rename_i relay found
    refine ⟨⟨relay.upstreamUrl, ?_⟩, fun other => ?_⟩
    · rw [owner, found, ← (Prod.mk.inj (Option.some.inj removed)).1]
      rfl
    · rw [owner, erased]
      split
      · rename_i same
        rw [same, AList.lookup_erase]
        rfl
      · rename_i differ
        rw [AList.lookup_erase_ne differ]
        rfl

theorem removeStreamLength {m after : RelayManager} {path : Bytes} {i : SourceId}
    (removed : m.removeStream path = some (i, after)) :
    after.streams.entries.length ≤ m.streams.entries.length ∧ after.maxSources = m.maxSources := by
  have erased := (RelayManager.removeStreamErases removed).2
  unfold RelayManager.removeStream at removed
  split at removed
  · contradiction
  · refine ⟨?_, (congrArg (fun out => RelayManager.maxSources out.2) (Option.some.inj removed)).symm⟩
    rw [erased]
    exact (List.kerase_sublist path m.streams.entries).length_le

theorem addStreamCoherent {s : Relay} (h : Coherent s) (path url : Bytes) (connect : ConnectResult)
    (writes : List WriteResult) : Coherent (s.addStream path url connect writes) := by
  unfold addStream
  split
  · exact h
  · rename_i m added
    have started := startServes s.order url path connect writes
    have absent : owner s.manager path = none := by
      have missing := (RelayManager.addStreamFresh added).1
      rw [owner, Option.isNone_iff_eq_none.mp (Option.isSome_eq_false_iff.mp missing)]
      rfl
    refine ⟨(addStreamLength added).1, fun other i address found => ?_, fun i known runs => ?_⟩
    · dsimp only [setSource] at found ⊢
      rw [addStreamOwner added] at found
      split at found
      · rename_i same
        obtain ⟨rfl, rfl⟩ := Prod.mk.inj (Option.some.inj found)
        rw [Function.update_self, same]
        exact ⟨Nat.lt_succ_self _, started⟩
      · obtain ⟨known, serves⟩ := h.registered other i address found
        rw [Function.update_of_ne (Nat.ne_of_lt known)]
        exact ⟨Nat.lt_succ_of_lt known, serves⟩
    · dsimp only [setSource, Running] at known runs ⊢
      rcases eq_or_ne i s.nextSource with rfl | differ
      · refine ⟨url, ?_⟩
        rw [Function.update_self, started.streamPath, addStreamOwner added, if_pos rfl]
      · rw [Function.update_of_ne differ] at runs ⊢
        obtain ⟨address, found⟩ := h.held i (Nat.lt_of_le_of_ne (Nat.le_of_lt_succ known) differ) runs
        refine ⟨address, ?_⟩
        rw [addStreamOwner added, if_neg, found]
        intro same
        rw [same, absent] at found
        contradiction

theorem removeStreamCoherent {s : Relay} (h : Coherent s) (path : Bytes) (writes : List WriteResult) :
    Coherent (s.removeStream path writes) := by
  unfold removeStream
  split
  · exact h
  · rename_i j m removed
    obtain ⟨⟨own, found⟩, owners⟩ := removeStreamOwner removed
    obtain ⟨shorter, capacity⟩ := removeStreamLength removed
    have serves := (h.registered path j own found).2
    refine ⟨?_, fun other i address there => ?_, fun i known runs => ?_⟩
    · exact Nat.le_trans shorter (Nat.le_trans h.bounded (Nat.le_of_eq capacity.symm))
    · dsimp only [setSource] at there ⊢
      rw [owners] at there
      split at there
      · contradiction
      · rename_i differ
        obtain ⟨known, served⟩ := h.registered other i address there
        have apart : i ≠ j := by
          rintro rfl
          exact differ (served.streamPath.symm.trans serves.streamPath)
        rw [Function.update_of_ne apart]
        exact ⟨known, served⟩
    · dsimp only [setSource, Running] at known runs ⊢
      rcases eq_or_ne i j with rfl | apart
      · rw [Function.update_self, stopStops] at runs
        contradiction
      · rw [Function.update_of_ne apart] at runs ⊢
        obtain ⟨address, there⟩ := h.held i known runs
        refine ⟨address, ?_⟩
        rw [owners, if_neg, there]
        intro same
        rw [same, found] at there
        exact apart (Prod.mk.inj (Option.some.inj there)).1.symm

theorem sourceCoherent {s : Relay} (h : Coherent s) (j : SourceId) (input : Source.Input) :
    Coherent (s.sourceStep j input) := by
  have lasting := World.stepLasting (s.sources j) input
  refine ⟨h.bounded, fun path i url found => ?_, fun i known runs => ?_⟩
  · obtain ⟨known, serves⟩ := h.registered path i url found
    refine ⟨known, ?_⟩
    dsimp only [sourceStep, setSource]
    rcases eq_or_ne i j with rfl | apart
    · rw [Function.update_self]
      exact ⟨lasting.streamPath.trans serves.streamPath, (stepUrl _ input).trans serves.upstreamUrl,
        lasting.stopping.trans serves.stopping⟩
    · rw [Function.update_of_ne apart]
      exact serves
  · dsimp only [sourceStep, setSource, Running] at runs ⊢
    rcases eq_or_ne i j with rfl | apart
    · rw [Function.update_self, lasting.stopping] at runs
      rw [Function.update_self, lasting.streamPath]
      exact h.held i known runs
    · rw [Function.update_of_ne apart] at runs ⊢
      exact h.held i known runs

theorem stepCoherent (s : Relay) (input : Service.Input) (h : Coherent s) : Coherent (s.step input) := by
  have quieted : Coherent s.quiet := ⟨h.bounded, h.registered, h.held⟩
  cases input with
  | addStream path url connect writes => exact addStreamCoherent quieted path url connect writes
  | removeStream path writes => exact removeStreamCoherent quieted path writes
  | request self req udp => exact sessionCoherent h (requestOwners s self req udp) rfl rfl
  | lost self => exact sessionCoherent h (closeOwners _ self _) rfl rfl
  | source i input => exact sourceCoherent quieted i input

theorem stepMax (s : Relay) (input : Service.Input) : (s.step input).manager.maxSources = s.manager.maxSources := by
  cases input with
  | addStream path url connect writes =>
    simp only [step, addStream]
    split
    · rfl
    · rename_i added
      exact (addStreamLength added).2
  | removeStream path writes =>
    simp only [step, removeStream]
    split
    · rfl
    · rename_i removed
      exact (removeStreamLength removed).2
  | request self req udp => exact Catalog.requestMax s self req udp
  | lost self => exact Catalog.closeMax _ self _
  | source i input => rfl

theorem reachedCoherent (maxSources : Nat) (players : SessionId → Player) (headers : HeaderOrder)
    (inputs : List Service.Input) : Coherent (run step (init maxSources players headers) inputs) := by
  refine runInvariant stepCoherent ⟨Nat.zero_le _, fun path i url found => ?_, fun i known => ?_⟩ inputs
  · contradiction
  · exact absurd known (Nat.not_lt_zero i)

/-! What coherence says about the sources that run. -/

theorem runningCount {s : Relay} (h : Coherent s) : (running s).card = s.manager.streamCount := by
  rw [RelayManager.streamCount, entriesCounted]
  refine Finset.card_bij (fun i _ => (s.sources i).source.streamPath) (fun i runs => ?_)
    (fun i one j other same => ?_) fun path inside => ?_
  · obtain ⟨known, live⟩ := Finset.mem_filter.mp runs
    obtain ⟨url, found⟩ := h.held i (Finset.mem_range.mp known) live
    obtain ⟨relay, there, _⟩ := Option.map_eq_some_iff.mp found
    rw [List.mem_toFinset, ← AList.mem_keys, ← AList.lookup_isSome, there]
    rfl
  · obtain ⟨known, live⟩ := Finset.mem_filter.mp one
    obtain ⟨known', live'⟩ := Finset.mem_filter.mp other
    obtain ⟨url, found⟩ := h.held i (Finset.mem_range.mp known) live
    obtain ⟨url', found'⟩ := h.held j (Finset.mem_range.mp known') live'
    rw [same, found'] at found
    exact (Prod.mk.inj (Option.some.inj found)).1.symm
  · rw [List.mem_toFinset, ← AList.mem_keys, ← AList.lookup_isSome] at inside
    obtain ⟨relay, found⟩ := Option.isSome_iff_exists.mp inside
    obtain ⟨known, serves⟩ := h.registered path relay.source relay.upstreamUrl (by rw [owner, found]; rfl)
    exact ⟨relay.source, Finset.mem_filter.mpr ⟨Finset.mem_range.mpr known, serves.stopping⟩, serves.streamPath⟩

theorem stopEachStops (writes : SourceId → List WriteResult) (entries : List (Bytes × StreamRelay))
    (sources : SourceId → World) (i : SourceId)
    (named : (sources i).source.stopping = true ∨ ∃ e ∈ entries, e.2.source = i) :
    (stopEach writes sources entries i).source.stopping = true := by
  induction entries generalizing sources with
  | nil => exact named.resolve_right (by simp)
  | cons e rest ih =>
    refine ih _ ?_
    rcases eq_or_ne i e.2.source with rfl | differ
    · rw [Function.update_self]
      exact .inl (stopStops _ _)
    · rw [Function.update_of_ne differ]
      refine named.imp id fun ⟨other, inside, same⟩ => ?_
      rcases List.mem_cons.mp inside with rfl | later
      · exact absurd same.symm differ
      · exact ⟨other, later, same⟩

theorem destroyedStops {s : Relay} (h : Coherent s) (order : StreamOrder) (writes : SourceId → List WriteResult) :
    running (destroyed order writes s) = ∅ := by
  refine Finset.filter_eq_empty_iff.mpr fun i known live => ?_
  have stopped : ((destroyed order writes s).sources i).source.stopping = true := by
    refine stopEachStops writes _ s.sources i ?_
    cases runs : (s.sources i).source.stopping with
    | true => exact .inl rfl
    | false =>
      obtain ⟨url, found⟩ := h.held i (Finset.mem_range.mp known) runs
      obtain ⟨relay, there, same⟩ := Option.map_eq_some_iff.mp found
      have listed := (order.permutes s.manager.streams).mem_iff.mpr
        (List.mem_map.mpr ⟨_, AList.mem_lookup_iff.mp there, rfl⟩)
      exact .inr ⟨_, listed, (Prod.mk.inj same).1⟩
  rw [Running, stopped] at live
  contradiction

/-! Over every run, up to the destruction of the manager. -/
theorem sourcesAccounted (maxSources : Nat) (players : SessionId → Player) (headers : HeaderOrder)
    (inputs : List Service.Input) (order : StreamOrder) (writes : SourceId → List WriteResult) :
    let s := run step (init maxSources players headers) inputs
    (∀ path relay, s.manager.streams.lookup path = some relay →
      relay.source ∈ running s ∧ Serves (s.sources relay.source).source path relay.upstreamUrl) ∧
    (∀ i ∈ running s, ∃ relay, s.manager.streams.lookup (s.sources i).source.streamPath = some relay ∧
      relay.source = i) ∧
    (running s).card = s.manager.streamCount ∧ s.manager.streamCount ≤ maxSources ∧
    running (destroyed order writes s) = ∅ := by
  intro s
  have h : Coherent s := reachedCoherent maxSources players headers inputs
  refine ⟨fun path relay found => ?_, fun i runs => ?_, runningCount h, ?_, destroyedStops h order writes⟩
  · obtain ⟨known, serves⟩ := h.registered path relay.source relay.upstreamUrl (by rw [owner, found]; rfl)
    exact ⟨Finset.mem_filter.mpr ⟨Finset.mem_range.mpr known, serves.stopping⟩, serves⟩
  · obtain ⟨known, live⟩ := Finset.mem_filter.mp runs
    obtain ⟨url, found⟩ := h.held i (Finset.mem_range.mp known) live
    obtain ⟨relay, there, same⟩ := Option.map_eq_some_iff.mp found
    exact ⟨relay, there, (Prod.mk.inj same).1⟩
  · have capacity : s.manager.maxSources = maxSources := runInvariant
      (I := fun after : Relay => after.manager.maxSources = maxSources)
      (fun after input same => (stepMax after input).trans same) rfl inputs
    exact Nat.le_trans h.bounded (Nat.le_of_eq capacity)

end RtspRelay.Registry
