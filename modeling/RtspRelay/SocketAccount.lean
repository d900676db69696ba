import Mathlib.Algebra.Order.BigOperators.Group.List
import Mathlib.Algebra.Order.Ring.Nat
import RtspRelay.UdpSockets

/-! Whether every UDP socket of a session is closed once and always within reach of
`closeUdpSockets`. A SETUP that makes new sockets while the session still holds some
loses the old ones for good. -/
namespace RtspRelay.SocketAccount
open Machine Protocol Manager Session UdpSockets Ledger

structure Held (s : Sockets) : Prop where
  reached : ∀ fd ∈ heldAfter s.calls, s.rtp = some fd ∨ s.rtcp = some fd
  two : (heldAfter s.calls).length ≤ 2

def AlwaysHeld (kernel : Kernel) (l : Life) (h : Handling) : Prop :=
  Transition.Always (step kernel) Held l.sockets (l.steps kernel h)

def started (peerAddr sessionId : Bytes) : Life := ⟨create peerAddr sessionId, []⟩

section
variable (kernel : Kernel) (player : SessionId)

def handled (l : Life) (hs : List Handling) : Life := Transition.run (Life.handle kernel player) l hs

-- The requests one after the other, then `close`; `m` is the manager by then.
structure Accounted (m : RelayManager) (l : Life) (hs : List Handling) : Prop where
  during : Transition.Throughout (Life.handle kernel player) (AlwaysHeld kernel) l hs
  leaving : Transition.Always (step kernel) Held (handled kernel player l hs).sockets
    (closing (handled kernel player l hs).session)
  once : ReleasedOnce ((handled kernel player l hs).close kernel player m).calls
end

-- Sockets are only made by a session that holds none.
def MadeOnce (l : Life) (h : Handling) : Prop :=
  OpensSockets h.req → l.session.udpRtpFd = none ∧ l.session.udpRtcpFd = none
instance (l h) : Decidable (MadeOnce l h) := by unfold MadeOnce; infer_instance

/-! What the steps keep while no field is overwritten. -/

structure Balanced (s : Sockets) : Prop where
  tracked : Tracked s.calls
  nodup : (heldAfter s.calls).Nodup
  kept : ∀ fd, fd ∈ heldAfter s.calls ↔ s.rtp = some fd ∨ s.rtcp = some fd
  apart : ∀ fd, s.rtp = some fd → s.rtcp ≠ some fd

theorem balancedHeld {s : Sockets} (balanced : Balanced s) : Held s := by
  refine ⟨fun fd inside => (balanced.kept fd).mp inside, ?_⟩
  have among : heldAfter s.calls ⊆ s.rtp.toList ++ s.rtcp.toList := by
    intro fd inside
    rcases (balanced.kept fd).mp inside with rtp | rtcp
    · exact List.mem_append_left _ (Option.mem_toList.mpr rtp)
    · exact List.mem_append_right _ (Option.mem_toList.mpr rtcp)
  have few := (List.subperm_of_subset balanced.nodup among).length_le
  have sizes : (s.rtp.toList ++ s.rtcp.toList).length ≤ 2 := by
    cases s.rtp <;> cases s.rtcp <;> simp
  omega

-- No field that still holds a socket is overwritten.
def Empties (s : Sockets) : Step → Prop
  | .makeRtp => s.rtp = none
  | .makeRtcp => s.rtcp = none
  | _ => True

section
variable {kernel : Kernel} {s : Sockets}

theorem createdFits (kernel : Kernel) (calls : List Call) : Fits calls (created (kernel.answer calls)) := by
  cases answer : kernel.answer calls with
  | none => exact trivial
  | some made => exact kernel.fresh calls made answer

theorem heldCreated (calls : List Call) (fd : Nat) :
    fd ∈ heldAfter (calls ++ [created (kernel.answer calls)]) ↔
      fd ∈ heldAfter calls ∨ (kernel.answer calls).map (·.fd) = some fd := by
  rw [heldSnoc]
  cases kernel.answer calls with
  | none => simp [created, asked, after]
  | some made => simp [created, asked, after, or_comm, eq_comm]

theorem heldReleased (calls : List Call) (fd other : Nat) :
    fd ∈ heldAfter (calls ++ [.released other]) ↔ fd ∈ heldAfter calls ∧ fd ≠ other := by
  rw [heldSnoc, after, List.mem_filter, decide_eq_true_eq]

theorem createdApart {fd : Nat} (inside : fd ∈ heldAfter s.calls) :
    (kernel.answer s.calls).map (·.fd) ≠ some fd := by
  intro same
  obtain ⟨made, answer, rfl⟩ := Option.map_eq_some_iff.mp same
  exact kernel.fresh s.calls made answer inside

theorem stepBalanced (balanced : Balanced s) (a : Step) (empties : Empties s a) :
    Balanced (step kernel s a) := by
  cases a with
  | makeRtp =>
    have fits := createdFits kernel s.calls
    refine ⟨trackedSnoc balanced.tracked fits, heldNodup balanced.nodup fits, fun fd => ?_, ?_⟩
    · have before := balanced.kept fd
      have none_ : s.rtp = none := empties
      rw [none_] at before
      simp only [step, heldCreated, before]
      simp [or_comm]
    · intro fd rtp rtcp
      exact createdApart ((balanced.kept fd).mpr (.inr rtcp)) rtp
  | makeRtcp =>
    have fits := createdFits kernel s.calls
    refine ⟨trackedSnoc balanced.tracked fits, heldNodup balanced.nodup fits, fun fd => ?_, ?_⟩
    · have before := balanced.kept fd
      have none_ : s.rtcp = none := empties
      rw [none_] at before
      simp only [step, heldCreated, before]
      simp
    · intro fd rtp rtcp
      exact createdApart ((balanced.kept fd).mpr (.inl rtp)) rtcp
  | closeRtp =>
    rcases rtp : s.rtp with _ | held
    · rw [step, rtp]
      exact balanced
    · have fits : Fits s.calls (.released held) := (balanced.kept held).mpr (.inl rtp)
      rw [step, rtp]
      refine ⟨trackedSnoc balanced.tracked fits, heldNodup balanced.nodup fits, fun fd => ?_, ?_⟩
      · have apart := balanced.apart held rtp
        simp only [heldReleased, balanced.kept fd, rtp]
        constructor
        · rintro ⟨same | rtcp, differ⟩
          · exact absurd (Option.some.inj same).symm differ
          · exact .inr rtcp
        · rintro (none_ | rtcp)
          · contradiction
          · refine ⟨.inr rtcp, ?_⟩
            rintro rfl
            exact apart rtcp
      · intro fd none_
        contradiction
  | closeRtcp =>
    rcases rtcp : s.rtcp with _ | held
    · rw [step, rtcp]
      exact balanced
    · have fits : Fits s.calls (.released held) := (balanced.kept held).mpr (.inr rtcp)
      rw [step, rtcp]
      refine ⟨trackedSnoc balanced.tracked fits, heldNodup balanced.nodup fits, fun fd => ?_, ?_⟩
      · simp only [heldReleased, balanced.kept fd, rtcp]
        constructor
        · rintro ⟨rtp | same, differ⟩
          · exact .inl rtp
          · exact absurd (Option.some.inj same).symm differ
        · rintro (rtp | none_)
          · refine ⟨.inl rtp, ?_⟩
            rintro rfl
            exact balanced.apart _ rtp rtcp
          · contradiction
      · intro fd _ none_
        contradiction
end

theorem stepsBalanced {kernel : Kernel} {s : Sockets} {steps : List Step} (balanced : Balanced s)
    (empties : Transition.Throughout (step kernel) Empties s steps) :
    Balanced (Transition.run (step kernel) s steps) := by
  refine Transition.runAlong ?_ balanced empties
  intro s a keeps empties
  exact stepBalanced keeps a empties

theorem stepsHeld {kernel : Kernel} {s : Sockets} {steps : List Step} (balanced : Balanced s)
    (empties : Transition.Throughout (step kernel) Empties s steps) :
    Transition.Always (step kernel) Held s steps :=
  Transition.alwaysAlong (fun _ a keeps empties => stepBalanced keeps a empties)
    (fun _ => balancedHeld) balanced empties

/-! A request keeps the account when it makes sockets only for empty fields. -/

theorem closingEmpties (kernel : Kernel) (s : Sockets) (session : RtspSession) :
    Transition.Throughout (step kernel) Empties s (closing session) := by
  unfold closing
  split
  · exact trivial
  · exact ⟨trivial, trivial, trivial⟩

theorem setupEmpties (kernel : Kernel) {s : Sockets} (rtp : s.rtp = none) (rtcp : s.rtcp = none)
    (udp : UdpAnswers) : Transition.Throughout (step kernel) Empties s (setupSteps udp) := by
  refine ⟨rtp, rtcp, ?_⟩
  split
  · exact ⟨trivial, trivial, trivial⟩
  · exact trivial

section
variable {kernel : Kernel} {player : SessionId} {l : Life} {h : Handling}

theorem requestEmpties (once : MadeOnce l h) :
    Transition.Throughout (step kernel) Empties l.sockets (l.steps kernel h) := by
  unfold Life.steps requestSteps
  split
  · rename_i opens
    exact setupEmpties kernel (once opens).1 (once opens).2 _
  · split
    · exact closingEmpties kernel l.sockets l.session
    · exact trivial

theorem requestHeld (balanced : Balanced l.sockets) (once : MadeOnce l h) : AlwaysHeld kernel l h :=
  stepsHeld balanced (requestEmpties once)

theorem handleSockets (kernel : Kernel) (player : SessionId) (l : Life) (h : Handling) :
    (l.handle kernel player h).sockets = Transition.run (step kernel) l.sockets (l.steps kernel h) := by
  obtain ⟨rtp, rtcp⟩ := handleFields kernel player l h
  rw [Life.sockets, rtp, rtcp]
  rfl

theorem overwritten (balanced : Balanced l.sockets) (again : ¬ MadeOnce l h) : ¬ AlwaysHeld kernel l h := by
  intro always
  obtain ⟨opens, holds⟩ := Classical.not_imp.mp again
  unfold AlwaysHeld Life.steps requestSteps at always
  rw [if_pos opens] at always
  obtain ⟨-, first, second⟩ := always
  have stays : ∀ fd, l.sockets.rtp = some fd ∨ l.sockets.rtcp = some fd →
      fd ∈ heldAfter (step kernel l.sockets .makeRtp).calls := fun fd field =>
    (heldCreated _ fd).mpr (.inl ((balanced.kept fd).mpr field))
  cases rtp : l.session.udpRtpFd with
  | some fd =>
    have inside := (balanced.kept fd).mpr (.inl rtp)
    rcases first.reached fd (stays fd (.inl rtp)) with new | other
    · exact createdApart inside new
    · exact balanced.apart fd rtp other
  | none =>
    obtain ⟨fd, rtcp⟩ := Option.ne_none_iff_exists'.mp fun none_ => holds ⟨rtp, none_⟩
    have inside := (balanced.kept fd).mpr (.inr rtcp)
    have later := stays fd (.inr rtcp)
    have third := Transition.alwaysHead second
    rcases third.reached fd ((heldCreated _ fd).mpr (.inl later)) with new | new
    · exact createdApart inside new
    · exact createdApart later new

/-! Once torn down, a session holds no socket. -/

structure Ready (l : Life) : Prop where
  balanced : Balanced l.sockets
  left : l.session.state = .teardown → l.session.udpRtpFd = none ∧ l.session.udpRtcpFd = none

theorem closedFields (kernel : Kernel) (ready : Ready l) :
    (Transition.run (step kernel) l.sockets (closing l.session)).rtp = none ∧
      (Transition.run (step kernel) l.sockets (closing l.session)).rtcp = none := by
  unfold closing
  split
  · rename_i already
    exact ready.left already
  · exact closedSteps kernel l.sockets

theorem handleLeft (ready : Ready l) (torn : (l.handle kernel player h).session.state = .teardown) :
    (l.handle kernel player h).session.udpRtpFd = none ∧
      (l.handle kernel player h).session.udpRtcpFd = none := by
  have session : (l.handle kernel player h).session = (l.handled kernel player h).session := rfl
  cases kind : role h.req with
  | other =>
    rw [session, Life.handled, (otherHandled kind).2.2.1] at torn
    rw [session, Life.handled, (otherFields kind).1, (otherFields kind).2]
    exact ready.left torn
  | move =>
    rw [session, Life.handled] at torn
    rcases (moveHandled kind).2.1 with state | state <;>
    · rw [state] at torn
      contradiction
  | play =>
    rw [session, Life.handled, playHandled kind] at torn
    contradiction
  | teardown =>
    obtain ⟨type, same⟩ := requestRole kind (by decide)
    have method : h.req.method = .teardown := by
      cases method : h.req.method <;> rw [method] at same <;> first | rfl | contradiction
    have quiet : ¬ OpensSockets h.req := quietMethod (by rw [method]; nofun)
    obtain ⟨rtp, rtcp⟩ := handleFields kernel player l h
    obtain ⟨rtpClosed, rtcpClosed⟩ := closedFields kernel ready
    rw [rtp, rtcp, Life.steps, requestSteps, if_neg quiet, if_pos ⟨type, method⟩]
    exact ⟨rtpClosed, rtcpClosed⟩

theorem handleReady (ready : Ready l) (once : MadeOnce l h) : Ready (l.handle kernel player h) where
  balanced := by
    rw [handleSockets]
    exact stepsBalanced ready.balanced (requestEmpties once)
  left := handleLeft ready

theorem startedReady (peerAddr sessionId : Bytes) : Ready (started peerAddr sessionId) where
  balanced := {
    tracked := trackedStart
    nodup := List.nodup_nil
    kept := fun fd => by simp [started, Life.sockets, create, heldAfter]
    apart := fun fd rtp => by contradiction }
  left := fun torn => by contradiction
end

theorem accountedExact (kernel : Kernel) (player : SessionId) (m : RelayManager)
    (peerAddr sessionId : Bytes) (hs : List Handling) :
    Accounted kernel player m (started peerAddr sessionId) hs ↔
      Transition.Throughout (Life.handle kernel player) MadeOnce (started peerAddr sessionId) hs := by
  have ready := startedReady peerAddr sessionId
  have same : ∀ (l : Life) (h : Handling), Ready l → (MadeOnce l h ↔ AlwaysHeld kernel l h) :=
    fun l h keeps => ⟨requestHeld keeps.balanced,
      fun held => by_contra fun again => overwritten keeps.balanced again held⟩
  have during : Transition.Throughout (Life.handle kernel player) MadeOnce (started peerAddr sessionId) hs ↔
      Transition.Throughout (Life.handle kernel player) (AlwaysHeld kernel) (started peerAddr sessionId) hs :=
    Transition.throughoutAlong (fun l h keeps => handleReady keeps) same ready hs
  refine ⟨fun accounted => during.mpr accounted.during, fun once => ?_⟩
  have last : Ready (handled kernel player (started peerAddr sessionId) hs) :=
    Transition.runAlong (fun l h keeps => handleReady keeps) ready once
  have empties := closingEmpties kernel (handled kernel player (started peerAddr sessionId) hs).sockets
    (handled kernel player (started peerAddr sessionId) hs).session
  refine ⟨during.mp once, stepsHeld last.balanced empties, ?_⟩
  have balanced := stepsBalanced last.balanced empties
  obtain ⟨rtp, rtcp⟩ := closedFields kernel last
  refine releasedOnce balanced.tracked (List.eq_nil_iff_forall_not_mem.mpr fun fd inside => ?_)
  have field := (balanced.kept fd).mp inside
  rw [rtp, rtcp] at field
  rcases field with none_ | none_ <;> contradiction

/-! Audio and video, set up one after the other over UDP. -/

def roomy : Kernel where
  answer calls := some ⟨(heldAfter calls).sum + 3, 40000⟩
  fresh calls made answer inside := by
    obtain rfl := Option.some.inj answer
    have bounded := List.single_le_sum (fun fd _ => Nat.zero_le fd) _ inside
    dsimp only at bounded
    omega

def udpSetup (track : Bytes) : Handling where
  sdp _ := []
  manager := ⟨∅, 500⟩
  req := {
    type := .request
    method := .setup
    cseq := 3
    url := ascii "rtsp://10.0.0.5:8554/cam/" ++ track
    headers := (∅ : MessageText.Headers).insert (ascii "Transport")
      (ascii "RTP/AVP;unicast;client_port=5000-5001") }

theorem secondTrackLeaks :
    ¬ ∀ (kernel : Kernel) (player : SessionId) (m : RelayManager) (peerAddr sessionId : Bytes)
        (hs : List Handling), Accounted kernel player m (started peerAddr sessionId) hs := by
  intro always
  have accounted := always roomy 0 ⟨∅, 500⟩ (ascii "10.0.0.7:5000") (ascii "00000001")
    [udpSetup (ascii "audio"), udpSetup (ascii "video")]
  have first : MadeOnce (started (ascii "10.0.0.7:5000") (ascii "00000001")) (udpSetup (ascii "audio")) :=
    fun _ => ⟨rfl, rfl⟩
  have ready : Ready ((started (ascii "10.0.0.7:5000") (ascii "00000001")).handle roomy 0
      (udpSetup (ascii "audio"))) := handleReady (startedReady _ _) first
  exact overwritten ready.balanced (by decide +kernel) accounted.during.2.1

end RtspRelay.SocketAccount
