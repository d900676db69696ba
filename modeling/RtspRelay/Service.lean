import RtspRelay.General.Transition
import RtspRelay.Session
import RtspRelay.Source

/-! The whole relay: the manager, any number of sessions and every source ever
added. The threads of the relay meet in the manager's critical sections. There is
at least one IO loop, so a packet's sends to the sinks are tasks of other threads
and no sink is removed in the middle of a fan-out; then a handler enters at most
one section, and a step is one handler or one callback. A failed write of a
response is the request's step followed by `lost`; what is left in the receive
buffer is still handled after it. A source whose parser throws has ended the program:
here it is only marked, and the others' steps behind it are of no run of the code
(Program stops there). -/
namespace RtspRelay.Service
open Machine Protocol Manager Session Transition
open Source (World ConnectResult)
open Connection (WriteResult)

-- `responses` and `delivered` are those of the last step.
structure Relay where
  manager : RelayManager
  sessions : SessionId → RtspSession
  sources : SourceId → World
  nextSource : SourceId
  order : HeaderOrder
  responses : List (SessionId × RtspMessage)
  delivered : List (SessionId × Emission)

inductive Input where
  | addStream (path upstreamUrl : Bytes) (connect : ConnectResult) (writes : List WriteResult)
  | removeStream (path : Bytes) (writes : List WriteResult)
  | request (self : SessionId) (req : RtspMessage) (udp : UdpAnswers)
  | lost (self : SessionId)
  | source (i : SourceId) (input : Source.Input)

structure Player where
  peerAddr : Bytes
  sessionId : Bytes

def init (maxSources : Nat) (players : SessionId → Player) (order : HeaderOrder) : Relay :=
  { manager := ⟨∅, maxSources⟩
    sessions := fun i => Session.create (players i).peerAddr (players i).sessionId
    sources := fun _ => World.create order [] [], nextSource := 0, order
    responses := [], delivered := [] }

namespace Relay

def setSession (s : Relay) (self : SessionId) (session : RtspSession) : Relay :=
  { s with sessions := Function.update s.sessions self session }

def setSource (s : Relay) (i : SourceId) (w : World) : Relay :=
  { s with sources := Function.update s.sources i w }

def quiet (s : Relay) : Relay := { s with responses := [], delivered := [] }

def sdp (s : Relay) (i : SourceId) : Bytes := (s.sources i).source.sdp

-- RelayManager::onRtpData down to what each sink passes on.
def fanOut (s : Relay) (path data : Bytes) : List (SessionId × Emission) :=
  (s.manager.onRtpData path).filterMap fun self =>
    (Session.onRtpData (s.sessions self) data).map (self, ·)

def addStream (s : Relay) (path upstreamUrl : Bytes) (connect : ConnectResult)
    (writes : List WriteResult) : Relay :=
  match s.manager.addStream path upstreamUrl s.nextSource with
  | none => s
  | some manager => { s with manager, nextSource := s.nextSource + 1 }.setSource s.nextSource
      ((World.create s.order upstreamUrl path).start connect writes)

def removeStream (s : Relay) (path : Bytes) (writes : List WriteResult) : Relay :=
  match s.manager.removeStream path with
  | none => s
  | some (i, manager) => { s with manager }.setSource i ((s.sources i).stop writes)

def request (s : Relay) (self : SessionId) (req : RtspMessage) (udp : UdpAnswers) : Relay :=
  let out := processRequest s.sdp udp s.manager self (s.sessions self) req
  { s with manager := out.manager, responses := out.response.toList.map (self, ·) }.setSession self
    out.session

-- The connection is closed or fails; either callback is the session's close.
def lost (s : Relay) (self : SessionId) : Relay :=
  let out := close s.manager self { s.sessions self with connected := false }
  { s with manager := out.1 }.setSession self out.2

def packets (acts : List Source.Act) : List Bytes :=
  acts.filterMap fun
    | .packet data => some data
    | .connect _ => none

def sourceStep (s : Relay) (i : SourceId) (input : Source.Input) : Relay :=
  let w := (s.sources i).step input
  { s with delivered := (packets w.acts).flatMap (s.fanOut w.source.streamPath) }.setSource i w

def step (s : Relay) : Input → Relay
  | .addStream path upstreamUrl connect writes => s.quiet.addStream path upstreamUrl connect writes
  | .removeStream path writes => s.quiet.removeStream path writes
  | .request self req udp => s.quiet.request self req udp
  | .lost self => s.quiet.lost self
  | .source i input => s.quiet.sourceStep i input

@[simp] theorem setSessionSame (s : Relay) (self : SessionId) (session : RtspSession) :
    (s.setSession self session).sessions self = session := by
  simp only [setSession, Function.update_self]

theorem setSessionOther (s : Relay) {self other : SessionId} (differ : other ≠ self)
    (session : RtspSession) : (s.setSession self session).sessions other = s.sessions other := by
  simp only [setSession, Function.update_of_ne differ]

/-! What a step does to the map and to the sessions. -/

theorem addStreamSinks (s : Relay) (path url : Bytes) (connect : ConnectResult)
    (writes : List WriteResult) (p : Bytes) :
    (s.addStream path url connect writes).manager.sinks p = s.manager.sinks p ∧
      (s.addStream path url connect writes).sessions = s.sessions := by
  unfold addStream
  split
  · exact ⟨rfl, rfl⟩
  · rename_i added
    exact ⟨RelayManager.addStreamSinks added p, rfl⟩

theorem removeStreamSinks (s : Relay) (path : Bytes) (writes : List WriteResult) (p : Bytes) :
    (s.removeStream path writes).manager.sinks p = (if p = path then [] else s.manager.sinks p) ∧
      (s.removeStream path writes).sessions = s.sessions := by
  unfold removeStream
  split
  · rename_i absent
    refine ⟨?_, rfl⟩
    split
    · rename_i same
      rw [same]
      refine RelayManager.sinksUnregistered (Bool.eq_false_iff.mpr fun present => ?_)
      obtain ⟨relay, found⟩ := Option.isSome_iff_exists.mp present
      simp [RelayManager.removeStream, found] at absent
    · rfl
  · rename_i removed
    exact ⟨RelayManager.removeStreamSinks removed p, rfl⟩

theorem closeSinks (m : RelayManager) (self : SessionId) (session : RtspSession) (p : Bytes) :
    (close m self session).1.sinks p =
      if session.state = .playing ∧ session.streamPath ≠ [] ∧ p = session.streamPath
        then (m.sinks p).filter (· ≠ self) else m.sinks p := by
  unfold close
  split
  · rename_i left
    rw [if_neg (by rw [left]; nofun)]
  · dsimp only
    split
    · rename_i joined
      rw [RelayManager.removeSinkSinks]
      simp only [joined.1, joined.2, ne_eq, not_false_eq_true, true_and]
    · rename_i apart
      rw [if_neg fun all => apart ⟨all.1, all.2.1⟩]

theorem closeShrinks (m : RelayManager) (self : SessionId) (session : RtspSession) (p : Bytes) :
    ((close m self session).1.sinks p).Sublist (m.sinks p) := by
  rw [closeSinks]
  split
  · exact List.filter_sublist
  · exact List.Sublist.refl _

def Plays : Input → Prop
  | .request _ req _ => role req = .play
  | _ => False

theorem stepShrinks {s : Relay} {input : Input} (noPlay : ¬ Plays input) (p : Bytes) :
    ((s.step input).manager.sinks p).Sublist (s.manager.sinks p) := by
  cases input with
  | addStream path url connect writes =>
    rw [step, (addStreamSinks s.quiet path url connect writes p).1]
    exact List.Sublist.refl _
  | removeStream path writes =>
    rw [step, (removeStreamSinks s.quiet path writes p).1]
    split
    · exact List.nil_sublist _
    · exact List.Sublist.refl _
  | request self req udp =>
    simp only [step, request, setSession]
    cases kind : role req with
    | other => rw [(otherHandled kind).1]; exact List.Sublist.refl _
    | move => rw [(moveHandled kind).1]; exact List.Sublist.refl _
    | play => exact absurd kind noPlay
    | teardown =>
      rw [teardownHandled kind]
      exact closeShrinks _ _ _ p
  | lost self => exact closeShrinks _ _ _ p
  | source i input => exact List.Sublist.refl _

theorem playSinks (s : Relay) (self : SessionId) {req : RtspMessage} (udp : UdpAnswers)
    (play : role req = .play) (p : Bytes) :
    (s.step (.request self req udp)).manager.sinks p =
      if p = (s.sessions self).streamPath ∧ s.manager.hasStream (s.sessions self).streamPath = true
        then s.manager.sinks p ++ [self] else s.manager.sinks p := by
  simp only [step, request, setSession, playHandled play]
  exact RelayManager.addSinkSinks s.manager _ p self

def Concerns (self : SessionId) : Input → Prop
  | .request other _ _ => other = self
  | .lost other => other = self
  | _ => False

def Removes (path : Bytes) : Input → Prop
  | .removeStream p _ => p = path
  | _ => False

theorem closeMember {m : RelayManager} {self other : SessionId} (differ : other ≠ self)
    (session : RtspSession) (p : Bytes) :
    self ∈ (close m other session).1.sinks p ↔ self ∈ m.sinks p := by
  rw [closeSinks]
  split
  · simp [Ne.symm differ]
  · exact .rfl

/-! A step that does not concern a session leaves it as it is, and takes it out
of a sinks vector only with the stream. -/

theorem stepSession {s : Relay} {self : SessionId} {input : Input} (apart : ¬ Concerns self input) :
    (s.step input).sessions self = s.sessions self := by
  cases input with
  | addStream path url connect writes =>
    exact congrFun (addStreamSinks s.quiet path url connect writes []).2 self
  | removeStream path writes => exact congrFun (removeStreamSinks s.quiet path writes []).2 self
  | request other req udp => exact setSessionOther _ (Ne.symm apart) _
  | lost other => exact setSessionOther _ (Ne.symm apart) _
  | source i input => rfl

theorem stepMember {s : Relay} {self : SessionId} {input : Input} (apart : ¬ Concerns self input)
    (p : Bytes) : self ∈ (s.step input).manager.sinks p ↔
      self ∈ s.manager.sinks p ∧ ¬ Removes p input := by
  cases input with
  | addStream path url connect writes =>
    rw [step, (addStreamSinks s.quiet path url connect writes p).1]
    exact (and_iff_left id).symm
  | removeStream path writes =>
    rw [step, (removeStreamSinks s.quiet path writes p).1]
    split
    · rename_i same
      exact ⟨fun inside => absurd inside List.not_mem_nil, fun both => absurd same.symm both.2⟩
    · rename_i differ
      exact (and_iff_left fun same => differ same.symm).symm
  | request other req udp =>
    refine Iff.trans ?_ (and_iff_left id).symm
    cases kind : role req with
    | other => simp only [step, request, setSession, (otherHandled kind).1]; exact .rfl
    | move => simp only [step, request, setSession, (moveHandled kind).1]; exact .rfl
    | play =>
      rw [playSinks s other udp kind]
      split
      · simp [Ne.symm apart]
      · exact .rfl
    | teardown =>
      simp only [step, request, setSession, teardownHandled kind]
      exact closeMember apart _ p
  | lost other => exact (closeMember apart _ p).trans (and_iff_left id).symm
  | source i input => exact (and_iff_left id).symm

end Relay
end RtspRelay.Service
