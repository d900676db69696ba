import RtspRelay.Service

/-! Who receives a stream's packets: a session is in at most one sinks vector,
once; a playing session keeps its place; a closed one leaves. Each holds of
exactly the runs in which one kind of step stays away. -/
namespace RtspRelay.FanOut
open Machine Protocol Manager Session Service Relay Transition

/-! At most once. -/

structure AtMostOnce (s : Relay) : Prop where
  once : ∀ path, (s.manager.sinks path).Nodup
  oneStream : ∀ self p q, self ∈ s.manager.sinks p → self ∈ s.manager.sinks q → p = q
  emits : ∀ path data self, ((s.fanOut path data).map Prod.fst).count self ≤ 1

-- A PLAY that registers its session finds it in no sinks vector.
def JoinsOnce (s : Relay) : Input → Prop
  | .request self req _ => role req = .play →
      s.manager.hasStream (s.sessions self).streamPath = true → ∀ p, self ∉ s.manager.sinks p
  | _ => True

theorem fanOutSinks (s : Relay) (path data : Bytes) :
    ((s.fanOut path data).map Prod.fst).Sublist (s.manager.sinks path) := by
  unfold fanOut RelayManager.onRtpData
  induction s.manager.sinks path with
  | nil => exact List.Sublist.refl _
  | cons self rest ih =>
    rw [List.filterMap_cons]
    cases Session.onRtpData (s.sessions self) data with
    | none => exact ih.cons self
    | some e => exact ih.cons_cons self

theorem onceEmits {s : Relay} (once : ∀ path, (s.manager.sinks path).Nodup)
    (oneStream : ∀ self p q, self ∈ s.manager.sinks p → self ∈ s.manager.sinks q → p = q) :
    AtMostOnce s := by
  refine ⟨once, oneStream, fun path data self => ?_⟩
  exact List.nodup_iff_count_le_one.mp ((once path).sublist (fanOutSinks s path data)) self

theorem shrinksOnce {s after : Relay} (h : AtMostOnce s)
    (shrinks : ∀ p, (after.manager.sinks p).Sublist (s.manager.sinks p)) : AtMostOnce after :=
  onceEmits (fun p => (h.once p).sublist (shrinks p))
    fun self p q inP inQ => h.oneStream self p q ((shrinks p).mem inP) ((shrinks q).mem inQ)

theorem playOnce {s : Relay} (h : AtMostOnce s) {self : SessionId} {req : RtspMessage}
    (udp : UdpAnswers) (play : role req = .play) (joins : JoinsOnce s (.request self req udp)) :
    AtMostOnce (s.step (.request self req udp)) := by
  rcases Bool.eq_false_or_eq_true (s.manager.hasStream (s.sessions self).streamPath) with
    registered | missing
  · have absent := joins play registered
    have sinks : ∀ p, (s.step (.request self req udp)).manager.sinks p =
        if p = (s.sessions self).streamPath then s.manager.sinks p ++ [self]
          else s.manager.sinks p := by
      intro p
      rw [playSinks s self udp play, registered]
      simp
    refine onceEmits (fun p => ?_) fun other p q inP inQ => ?_
    · rw [sinks]
      split
      · refine (h.once p).append (List.nodup_singleton self) ?_
        rw [List.disjoint_singleton]
        exact absent p
      · exact h.once p
    · rw [sinks] at inP inQ
      have before : ∀ r, other ∈ (if r = (s.sessions self).streamPath then s.manager.sinks r ++ [self]
          else s.manager.sinks r) →
          other ∈ s.manager.sinks r ∨ (other = self ∧ r = (s.sessions self).streamPath) := by
        intro r inR
        split at inR
        · rename_i here
          rcases List.mem_append.mp inR with old | new
          · exact .inl old
          · exact .inr ⟨List.mem_singleton.mp new, here⟩
        · exact .inl inR
      rcases before p inP with oldP | ⟨rfl, rfl⟩
      · rcases before q inQ with oldQ | ⟨rfl, rfl⟩
        · exact h.oneStream other p q oldP oldQ
        · exact absurd oldP (absent p)
      · rcases before q inQ with oldQ | ⟨_, rfl⟩
        · exact absurd oldQ (absent q)
        · rfl
  · refine shrinksOnce h fun p => ?_
    rw [playSinks s self udp play, missing, if_neg (by simp)]

theorem stepOnce {s : Relay} {input : Input} (h : AtMostOnce s) (joins : JoinsOnce s input) :
    AtMostOnce (s.step input) := by
  cases input with
  | request self req udp =>
    cases kind : role req with
    | play => exact playOnce h udp kind joins
    | other | move | teardown =>
      refine shrinksOnce h (stepShrinks ?_)
      rw [Plays, kind]
      nofun
  | addStream | removeStream | lost | source => exact shrinksOnce h (stepShrinks id)

theorem joinedTwice {s : Relay} {input : Input} (again : ¬ JoinsOnce s input) :
    ¬ AtMostOnce (s.step input) := by
  cases input with
  | request self req udp =>
    simp only [JoinsOnce, not_forall, not_not] at again
    obtain ⟨play, registered, p, member⟩ := again
    have sinks := playSinks s self udp play
    simp only [registered, and_true] at sinks
    intro h
    have joined : self ∈ (s.step (.request self req udp)).manager.sinks
        (s.sessions self).streamPath := by
      rw [sinks, if_pos rfl]
      simp
    rcases eq_or_ne p (s.sessions self).streamPath with rfl | differ
    · have once := h.once (s.sessions self).streamPath
      rw [sinks, if_pos rfl] at once
      exact List.disjoint_of_nodup_append once member (List.mem_singleton.mpr rfl)
    · refine differ (h.oneStream self p _ ?_ joined)
      rw [sinks, if_neg differ]
      exact member
  | addStream | removeStream | lost | source => exact absurd trivial again

theorem alwaysAtMostOnce (maxSources : Nat) (players : SessionId → Player) (order : HeaderOrder)
    (inputs : List Input) :
    Always step AtMostOnce (init maxSources players order) inputs ↔
      Throughout step JoinsOnce (init maxSources players order) inputs :=
  alwaysExact (fun _ _ => stepOnce) (fun _ => id) (fun _ _ _ => joinedTwice)
    (onceEmits (fun _ => List.nodup_nil) fun _ _ _ inP => absurd inP List.not_mem_nil)

/-! One player of one camera. -/
def relay : Relay := init 500 (fun _ => ⟨ascii "10.0.0.7:5000", ascii "00000001"⟩) insertionOrder

def addCam : Input := .addStream (ascii "/cam") (ascii "rtsp://10.0.0.9/cam") .inProgress []

def asking (method : RtspMethod) : RtspMessage :=
  { type := .request, method, url := ascii "rtsp://relay/cam", cseq := 1 : RtspMessage }
    |>.set "Transport" (ascii "RTP/AVP/TCP;unicast;interleaved=0-1")

def ask (method : RtspMethod) : Input := .request 0 (asking method) ⟨none, none⟩

theorem playedTwice :
    ¬ ∀ (maxSources : Nat) (players : SessionId → Player) (order : HeaderOrder) (inputs : List Input),
      Always step AtMostOnce (init maxSources players order) inputs := by
  intro always
  have last : AtMostOnce (run step relay [addCam, ask .setup, ask .play, ask .play]) :=
    alwaysLast (always 500 _ insertionOrder [addCam, ask .setup, ask .play, ask .play])
  have twice : (run step relay [addCam, ask .setup, ask .play, ask .play]).manager.sinks (ascii "/cam") =
      [0, 0] := by decide
  have once := last.once (ascii "/cam")
  rw [twice] at once
  exact absurd once (by decide)

/-! A playing session is served. -/

def PassesOn (s : Relay) (self : SessionId) (path : Bytes) : Prop :=
  self ∈ s.manager.onRtpData path ∧ (s.sessions self).state = .playing

def Ends (self : SessionId) : Input → Prop
  | .request other req _ => other = self ∧ (role req = .play ∨ role req = .teardown)
  | .lost other => other = self
  | _ => False

-- The stream is removed, or the session handles a DESCRIBE or a SETUP.
def Parts (self : SessionId) (path : Bytes) : Input → Prop
  | .removeStream p _ => p = path
  | .request other req _ => other = self ∧ role req = .move
  | _ => False

theorem requestOwn (s : Relay) (self : SessionId) (req : RtspMessage) (udp : UdpAnswers) :
    (s.step (.request self req udp)).sessions self =
      (processRequest s.sdp udp s.manager self (s.sessions self) req).session :=
  setSessionSame _ self _

theorem concernsApart {self : SessionId} {path : Bytes} {input : Input} (goes : ¬ Ends self input)
    (stays : ¬ Parts self path input) :
    ¬ Concerns self input ∨ ∃ req udp, input = .request self req udp ∧ role req = .other := by
  cases input with
  | request other req udp =>
    rcases eq_or_ne other self with rfl | differ
    · refine .inr ⟨req, udp, rfl, ?_⟩
      cases kind : role req with
      | other => rfl
      | move => exact absurd ⟨rfl, kind⟩ stays
      | play => exact absurd ⟨rfl, .inl kind⟩ goes
      | teardown => exact absurd ⟨rfl, .inr kind⟩ goes
    · exact .inl differ
  | lost other => exact .inl goes
  | addStream path url connect writes => exact .inl id
  | removeStream path writes => exact .inl id
  | source i input => exact .inl id

theorem stepPasses {s : Relay} {self : SessionId} {path : Bytes} {input : Input}
    (goes : ¬ Ends self input) (stays : ¬ Parts self path input) (h : PassesOn s self path) :
    PassesOn (s.step input) self path := by
  rcases concernsApart goes stays with apart | ⟨req, udp, rfl, other⟩
  · have kept : ¬ Removes path input := fun removes => stays (by
      cases input <;> first | exact removes | exact absurd removes id)
    refine ⟨(stepMember apart path).mpr ⟨h.1, kept⟩, ?_⟩
    rw [stepSession apart]
    exact h.2
  · constructor
    · simp only [step, request, setSession, (otherHandled other).1]
      exact h.1
    · rw [requestOwn, (otherHandled other).2.2.1]
      exact h.2

theorem stepServedBefore {s : Relay} {self : SessionId} {path : Bytes} {input : Input}
    (goes : ¬ Ends self input) (h : PassesOn (s.step input) self path) :
    PassesOn s self path ∧ ¬ Parts self path input := by
  rcases Classical.em (Parts self path input) with parts | stays
  · cases input with
    | removeStream p writes =>
      have apart : ¬ Concerns self (.removeStream p writes) := id
      exact absurd parts ((stepMember apart path).mp h.1).2
    | request other req udp =>
      obtain ⟨rfl, move⟩ := parts
      have state := h.2
      rw [requestOwn] at state
      rcases (moveHandled move).2.1 with describe | setup
      · rw [describe] at state
        contradiction
      · rw [setup] at state
        contradiction
    | addStream | lost | source => exact absurd parts id
  · refine ⟨?_, stays⟩
    rcases concernsApart goes stays with apart | ⟨req, udp, rfl, other⟩
    · refine ⟨((stepMember apart path).mp h.1).1, ?_⟩
      rw [← stepSession apart]
      exact h.2
    · obtain ⟨member, state⟩ := h
      constructor
      · simp only [step, request, setSession, (otherHandled other).1] at member
        exact member
      · rw [requestOwn, (otherHandled other).2.2.1] at state
        exact state

theorem runPasses {s : Relay} {self : SessionId} {path : Bytes} {rest : List Input}
    (goes : ∀ input ∈ rest, ¬ Ends self input) :
    PassesOn (run step s rest) self path ↔
      PassesOn s self path ∧ ∀ input ∈ rest, ¬ Parts self path input := by
  induction rest generalizing s with
  | nil => simp [run]
  | cons input rest ih =>
    obtain ⟨first, later⟩ := List.forall_mem_cons.mp goes
    rw [List.forall_mem_cons]
    constructor
    · intro passes
      obtain ⟨next, stays⟩ := (ih later).mp passes
      obtain ⟨before, here⟩ := stepServedBefore first next
      exact ⟨before, here, stays⟩
    · rintro ⟨before, here, stays⟩
      exact (ih later).mpr ⟨stepPasses first here before, stays⟩

theorem playPasses (s : Relay) (self : SessionId) {req : RtspMessage} (udp : UdpAnswers)
    (play : role req = .play) :
    PassesOn (s.step (.request self req udp)) self (s.sessions self).streamPath ↔
      s.manager.hasStream (s.sessions self).streamPath = true := by
  have state : ((s.step (.request self req udp)).sessions self).state = .playing := by
    rw [requestOwn, playHandled play]
  constructor
  · intro passes
    have member := passes.1
    rw [RelayManager.onRtpData, playSinks s self udp play] at member
    split at member
    · rename_i registered
      exact registered.2
    · rename_i missing
      rcases Bool.eq_false_or_eq_true (s.manager.hasStream (s.sessions self).streamPath) with
        yes | no
      · exact yes
      · rw [RelayManager.sinksUnregistered no] at member
        contradiction
  · intro registered
    refine ⟨?_, state⟩
    rw [RelayManager.onRtpData, playSinks s self udp play, if_pos ⟨rfl, registered⟩]
    simp

-- From its PLAY at `s` to a later state: every packet of the stream is passed on.
def Served (s later : Relay) (self : SessionId) : Prop :=
  later.manager.hasStream (s.sessions self).streamPath = true →
    PassesOn later self (s.sessions self).streamPath

theorem servedExactly (s : Relay) (self : SessionId) (req : RtspMessage) (udp : UdpAnswers)
    (rest : List Input) (play : role req = .play) (goes : ∀ input ∈ rest, ¬ Ends self input) :
    Served s (run step (s.step (.request self req udp)) rest) self ↔
      ((run step (s.step (.request self req udp)) rest).manager.hasStream
          (s.sessions self).streamPath = true →
        s.manager.hasStream (s.sessions self).streamPath = true ∧
          ∀ input ∈ rest, ¬ Parts self (s.sessions self).streamPath input) := by
  refine imp_congr_right fun _ => ?_
  rw [runPasses goes, playPasses s self udp play]

def playing : Relay := run step relay [addCam, ask .setup]

theorem optionsServed : Served playing (run step (playing.step (ask .play)) [ask .options]) 0 := by
  have goes : ∀ input ∈ [ask .options], ¬ Ends 0 input := by
    refine List.forall_mem_singleton.mpr ?_
    rintro ⟨_, play | teardown⟩ <;> contradiction
  have stays : ∀ input ∈ [ask .options], ¬ Parts 0 (playing.sessions 0).streamPath input := by
    refine List.forall_mem_singleton.mpr ?_
    rintro ⟨_, move⟩
    contradiction
  exact (servedExactly playing 0 (asking .play) ⟨none, none⟩ [ask .options] rfl goes).mpr
    fun _ => ⟨by decide, stays⟩

theorem describedWhilePlaying :
    ¬ ∀ (maxSources : Nat) (players : SessionId → Player) (order : HeaderOrder) (before : List Input)
      (self : SessionId) (req : RtspMessage) (udp : UdpAnswers) (rest : List Input),
      role req = .play →
      (((run step (init maxSources players order) before).step
        (.request self req udp)).responses.map fun r => (r.1, r.2.statusCode)) = [(self, 200)] →
      (∀ input ∈ rest, ¬ Ends self input) →
      Served (run step (init maxSources players order) before)
        (run step ((run step (init maxSources players order) before).step (.request self req udp)) rest)
        self := by
  intro served
  have goes : ∀ input ∈ [ask .describe], ¬ Ends 0 input := by
    refine List.forall_mem_singleton.mpr ?_
    rintro ⟨_, play | teardown⟩ <;> contradiction
  have passes : Served playing (run step (playing.step (ask .play)) [ask .describe]) 0 :=
    served 500 _ insertionOrder [addCam, ask .setup] 0 (asking .play) ⟨none, none⟩ [ask .describe] rfl
      (by decide) goes
  exact absurd (passes (by decide)).2 (by decide)

/-! A session whose connection has ended is gone. -/

-- The sinks of a connected session, as totalSinks() would count them.
def connectedSinks (s : Relay) : Nat :=
  (s.manager.streams.entries.map fun entry =>
    (entry.2.sinks.filter fun self => (s.sessions self).connected).length).sum

structure NotRetained (s : Relay) : Prop where
  sinks : ∀ self, (s.sessions self).connected = false → ∀ p, self ∉ s.manager.sinks p
  counted : s.manager.totalSinks = connectedSinks s
  served : ∀ self path, (s.sessions self).connected = false → self ∉ s.manager.onRtpData path

-- `close` finds every registration of its session where it looks for one.
def Leaves (s : Relay) (self : SessionId) : Prop :=
  ∀ p, self ∈ s.manager.sinks p →
    (s.sessions self).state = .playing ∧ (s.sessions self).streamPath ≠ [] ∧
      p = (s.sessions self).streamPath

def CleansUp (s : Relay) : Input → Prop
  | .lost self => (s.sessions self).connected = true → Leaves s self
  | .request self req _ => role req = .play → (s.sessions self).connected = false →
      s.manager.hasStream (s.sessions self).streamPath = false
  | _ => True

theorem goneNotRetained {s : Relay}
    (gone : ∀ self, (s.sessions self).connected = false → ∀ p, self ∉ s.manager.sinks p) :
    NotRetained s := by
  refine ⟨gone, ?_, fun self path lost => gone self lost path⟩
  unfold RelayManager.totalSinks connectedSinks
  congr 1
  refine List.map_congr_left fun entry member => ?_
  have found : s.manager.streams.lookup entry.1 = some entry.2 := AList.mem_lookup_iff.mpr member
  have all : entry.2.sinks.filter (fun self => (s.sessions self).connected) = entry.2.sinks := by
    refine List.filter_eq_self.mpr fun self inside => ?_
    have sinks : self ∈ s.manager.sinks entry.1 := by
      rw [RelayManager.sinks, found]
      exact inside
    exact (Bool.eq_false_or_eq_true _).resolve_right fun lost => gone self lost entry.1 sinks
  rw [all]

theorem requestConnected (sdp : SourceId → Bytes) (udp : UdpAnswers) (m : RelayManager)
    (self : SessionId) (session : RtspSession) (req : RtspMessage) :
    (processRequest sdp udp m self session req).session.connected = session.connected := by
  cases kind : role req with
  | other => exact (otherHandled kind).2.2.2
  | move => exact (moveHandled kind).2.2
  | play => rw [playHandled kind]
  | teardown =>
    rw [teardownHandled kind]
    exact (closeKeeps _ _ _).1

theorem requestKeepsConnected (s : Relay) (self : SessionId) (req : RtspMessage) (udp : UdpAnswers)
    (other : SessionId) :
    ((s.step (.request self req udp)).sessions other).connected = (s.sessions other).connected := by
  rcases eq_or_ne other self with rfl | differ
  · rw [requestOwn, requestConnected]
  · have apart : ¬ Concerns other (.request self req udp) := Ne.symm differ
    rw [stepSession apart]

theorem lostOwn (s : Relay) (self : SessionId) :
    ((s.step (.lost self)).sessions self).connected = false := by
  have own : (s.step (.lost self)).sessions self =
      (close s.manager self { s.sessions self with connected := false }).2 := setSessionSame _ self _
  rw [own]
  exact (closeKeeps _ _ _).1

theorem lostSinks (s : Relay) (self : SessionId) (p : Bytes) :
    (s.step (.lost self)).manager.sinks p =
      if (s.sessions self).state = .playing ∧ (s.sessions self).streamPath ≠ [] ∧
          p = (s.sessions self).streamPath
        then (s.manager.sinks p).filter (· ≠ self) else s.manager.sinks p :=
  closeSinks s.manager self { s.sessions self with connected := false } p

theorem lostGone {s : Relay} (h : NotRetained s) {self : SessionId}
    (leaves : (s.sessions self).connected = true → Leaves s self) (p : Bytes) :
    self ∉ (s.step (.lost self)).manager.sinks p := by
  rw [lostSinks]
  intro inside
  split at inside
  · simp at inside
  · rename_i elsewhere
    rcases Bool.eq_false_or_eq_true (s.sessions self).connected with live | dead
    · exact elsewhere (leaves live p inside)
    · exact h.sinks self dead p inside

theorem stepNotRetained {s : Relay} {input : Input} (h : NotRetained s) (cleans : CleansUp s input) :
    NotRetained (s.step input) := by
  refine goneNotRetained fun other dead p => ?_
  cases input with
  | lost self =>
    rcases eq_or_ne other self with rfl | differ
    · exact lostGone h cleans p
    · have apart : ¬ Concerns other (.lost self) := Ne.symm differ
      rw [stepSession apart] at dead
      exact fun inside => h.sinks other dead p ((stepMember apart p).mp inside).1
  | request self req udp =>
    rw [requestKeepsConnected] at dead
    have before := h.sinks other dead p
    cases kind : role req with
    | play =>
      rw [playSinks s self udp kind]
      split
      · rename_i joins
        rcases eq_or_ne other self with rfl | differ
        · rw [cleans kind dead] at joins
          exact absurd joins.2 Bool.false_ne_true
        · simp [before, differ]
      · exact before
    | other | move | teardown =>
      have noPlay : ¬ Plays (.request self req udp) := by
        rw [Plays, kind]
        nofun
      exact fun inside => before ((stepShrinks noPlay p).mem inside)
  | addStream | removeStream =>
    rw [stepSession id] at dead
    exact fun inside => h.sinks other dead p ((stepMember id p).mp inside).1
  | source i input => exact h.sinks other dead p

theorem retained {s : Relay} {input : Input} (leaves : ¬ CleansUp s input) :
    ¬ NotRetained (s.step input) := by
  intro h
  cases input with
  | lost self =>
    simp only [CleansUp, Leaves, not_forall] at leaves
    obtain ⟨_, p, inside, elsewhere⟩ := leaves
    refine h.sinks self (lostOwn s self) p ?_
    rw [lostSinks, if_neg elsewhere]
    exact inside
  | request self req udp =>
    simp only [CleansUp, not_forall] at leaves
    obtain ⟨play, dead, registered⟩ := leaves
    have lost := requestKeepsConnected s self req udp self
    refine h.sinks self (lost.trans dead) (s.sessions self).streamPath ?_
    rw [playSinks s self udp play, if_pos ⟨rfl, by simpa using registered⟩]
    simp
  | addStream | removeStream | source => exact leaves trivial

theorem alwaysNotRetained (maxSources : Nat) (players : SessionId → Player) (order : HeaderOrder)
    (inputs : List Input) :
    Always step NotRetained (init maxSources players order) inputs ↔
      Throughout step CleansUp (init maxSources players order) inputs :=
  alwaysExact (fun _ _ => stepNotRetained) (fun _ => id) (fun _ _ _ => retained)
    (goneNotRetained fun _ live => absurd live Bool.true_eq_false.mp)

theorem describedThenLost :
    ¬ ∀ (maxSources : Nat) (players : SessionId → Player) (order : HeaderOrder) (inputs : List Input),
      Always step NotRetained (init maxSources players order) inputs := by
  intro always
  have last : NotRetained (run step relay
      [addCam, ask .setup, ask .play, ask .describe, .lost 0]) :=
    alwaysLast (always 500 _ insertionOrder
      [addCam, ask .setup, ask .play, ask .describe, .lost 0])
  exact absurd (by decide) (last.sinks 0 (by decide) (ascii "/cam"))

end RtspRelay.FanOut
