import RtspRelay.Machine

/-! The map from stream paths to their source and sinks. Sources and sessions
are shared objects; the map holds their identities. Each operation is one
critical section. -/
namespace RtspRelay.Manager
open Machine

abbrev SourceId := Nat
abbrev SessionId := Nat

structure StreamRelay where
  source : SourceId
  upstreamUrl : Bytes
  sinks : List SessionId
  deriving DecidableEq, Repr

structure RelayManager where
  streams : AList (fun _ : Bytes => StreamRelay)
  maxSources : Nat
  deriving DecidableEq

namespace RelayManager

def hasStream (m : RelayManager) (path : Bytes) : Bool := (m.streams.lookup path).isSome

-- The sinks vector of a stream; a path without a stream has none.
def sinks (m : RelayManager) (path : Bytes) : List SessionId :=
  match m.streams.lookup path with
  | none => []
  | some relay => relay.sinks

-- `none` where the source returns false.
def addStream (m : RelayManager) (path upstreamUrl : Bytes) (source : SourceId) :
    Option RelayManager :=
  if m.hasStream path then none
  else if m.maxSources ≤ m.streams.entries.length then none
  else some { m with streams := m.streams.insert path ⟨source, upstreamUrl, []⟩ }

def removeStream (m : RelayManager) (path : Bytes) : Option (SourceId × RelayManager) :=
  match m.streams.lookup path with
  | none => none
  | some relay => some (relay.source, { m with streams := m.streams.erase path })

def addSink (m : RelayManager) (path : Bytes) (sink : SessionId) : RelayManager :=
  match m.streams.lookup path with
  | none => m
  | some relay =>
    { m with streams := m.streams.insert path { relay with sinks := relay.sinks ++ [sink] } }

def removeSink (m : RelayManager) (path : Bytes) (sink : SessionId) : RelayManager :=
  match m.streams.lookup path with
  | none => m
  | some relay =>
    let rest := relay.sinks.filter (· ≠ sink)
    { m with streams := m.streams.insert path { relay with sinks := rest } }

def getStreamSdp (m : RelayManager) (sdp : SourceId → Bytes) (path : Bytes) : Bytes :=
  match m.streams.lookup path with
  | none => []
  | some relay => sdp relay.source

def totalSinks (m : RelayManager) : Nat :=
  (m.streams.entries.map fun entry => entry.2.sinks.length).sum

def streamCount (m : RelayManager) : Nat := m.streams.entries.length

def onRtpData (m : RelayManager) (path : Bytes) : List SessionId := m.sinks path

/-! What each operation does to the two views of the map. -/

theorem sinksUnregistered {m : RelayManager} {path : Bytes} (absent : m.hasStream path = false) :
    m.sinks path = [] := by
  unfold sinks
  rw [Option.isSome_eq_false_iff.mp absent |> Option.isNone_iff_eq_none.mp]

theorem addStreamFresh {m after : RelayManager} {path url : Bytes} {source : SourceId}
    (added : m.addStream path url source = some after) :
    m.hasStream path = false ∧ after.streams = m.streams.insert path ⟨source, url, []⟩ := by
  unfold addStream at added
  split at added
  · contradiction
  · rename_i absent
    split at added
    · contradiction
    · cases Option.some.inj added
      exact ⟨Bool.eq_false_iff.mpr absent, rfl⟩

theorem addStreamSinks {m after : RelayManager} {path url : Bytes} {source : SourceId}
    (added : m.addStream path url source = some after) (other : Bytes) :
    after.sinks other = m.sinks other := by
  obtain ⟨absent, streams⟩ := addStreamFresh added
  rcases eq_or_ne other path with rfl | differ
  · rw [sinksUnregistered absent, sinks, streams, AList.lookup_insert]
  · rw [sinks, streams, AList.lookup_insert_ne differ, sinks]

theorem addStreamHas {m after : RelayManager} {path url : Bytes} {source : SourceId}
    (added : m.addStream path url source = some after) (other : Bytes) :
    after.hasStream other = (decide (other = path) || m.hasStream other) := by
  obtain ⟨_, streams⟩ := addStreamFresh added
  rcases eq_or_ne other path with rfl | differ
  · simp [hasStream, streams]
  · simp [hasStream, streams, AList.lookup_insert_ne differ, differ]

theorem removeStreamErases {m after : RelayManager} {path : Bytes} {source : SourceId}
    (removed : m.removeStream path = some (source, after)) :
    m.hasStream path = true ∧ after.streams = m.streams.erase path := by
  unfold removeStream at removed
  split at removed
  · contradiction
  · rename_i relay found
    cases Option.some.inj removed
    exact ⟨by simp [hasStream, found], rfl⟩

theorem removeStreamSinks {m after : RelayManager} {path : Bytes} {source : SourceId}
    (removed : m.removeStream path = some (source, after)) (other : Bytes) :
    after.sinks other = if other = path then [] else m.sinks other := by
  obtain ⟨_, streams⟩ := removeStreamErases removed
  rcases eq_or_ne other path with rfl | differ
  · rw [if_pos rfl, sinks, streams, AList.lookup_erase]
  · rw [if_neg differ, sinks, streams, AList.lookup_erase_ne differ, sinks]

theorem removeStreamHas {m after : RelayManager} {path : Bytes} {source : SourceId}
    (removed : m.removeStream path = some (source, after)) (other : Bytes) :
    after.hasStream other = (decide (other ≠ path) && m.hasStream other) := by
  obtain ⟨_, streams⟩ := removeStreamErases removed
  rcases eq_or_ne other path with rfl | differ
  · simp [hasStream, streams]
  · simp [hasStream, streams, AList.lookup_erase_ne differ, differ]

theorem insertFound {m : RelayManager} {path : Bytes} {relay : StreamRelay}
    (found : m.streams.lookup path = some relay) (f : StreamRelay → StreamRelay) (other : Bytes) :
    (m.streams.insert path (f relay)).lookup other =
      (m.streams.lookup other).map fun r => if other = path then f r else r := by
  rcases eq_or_ne other path with rfl | differ
  · simp [found]
  · simp [AList.lookup_insert_ne differ, differ]

theorem missingKept {m : RelayManager} {path : Bytes} (absent : m.streams.lookup path = none)
    (f : StreamRelay → StreamRelay) (other : Bytes) : m.streams.lookup other =
      (m.streams.lookup other).map fun r => if other = path then f r else r := by
  rcases eq_or_ne other path with rfl | differ
  · simp [absent]
  · simp [differ]

-- The two operations on a sinks vector leave the rest of the map as it is.
theorem addSinkLookup (m : RelayManager) (path other : Bytes) (sink : SessionId) :
    (m.addSink path sink).streams.lookup other = (m.streams.lookup other).map fun r =>
      if other = path then { r with sinks := r.sinks ++ [sink] } else r := by
  unfold addSink
  cases found : m.streams.lookup path with
  | none => exact missingKept found _ other
  | some relay => exact insertFound found (fun r => { r with sinks := r.sinks ++ [sink] }) other

theorem removeSinkLookup (m : RelayManager) (path other : Bytes) (sink : SessionId) :
    (m.removeSink path sink).streams.lookup other = (m.streams.lookup other).map fun r =>
      if other = path then { r with sinks := r.sinks.filter (· ≠ sink) } else r := by
  unfold removeSink
  cases found : m.streams.lookup path with
  | none => exact missingKept found _ other
  | some relay => exact insertFound found (fun r => { r with sinks := r.sinks.filter (· ≠ sink) }) other

theorem addSinkSinks (m : RelayManager) (path other : Bytes) (sink : SessionId) :
    (m.addSink path sink).sinks other =
      if other = path ∧ m.hasStream path = true then m.sinks other ++ [sink] else m.sinks other := by
  unfold sinks hasStream
  rw [addSinkLookup]
  rcases eq_or_ne other path with rfl | differ
  · cases m.streams.lookup other <;> simp
  · cases m.streams.lookup other <;> simp [differ]

theorem removeSinkSinks (m : RelayManager) (path other : Bytes) (sink : SessionId) :
    (m.removeSink path sink).sinks other =
      if other = path then (m.sinks other).filter (· ≠ sink) else m.sinks other := by
  unfold sinks
  rw [removeSinkLookup]
  rcases eq_or_ne other path with rfl | differ
  · cases m.streams.lookup other <;> simp
  · cases m.streams.lookup other <;> simp [differ]

theorem removeSinkHas (m : RelayManager) (path other : Bytes) (sink : SessionId) :
    (m.removeSink path sink).hasStream other = m.hasStream other := by
  rw [hasStream, removeSinkLookup, Option.isSome_map, hasStream]

end RelayManager
end RtspRelay.Manager
