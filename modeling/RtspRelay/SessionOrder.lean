import RtspRelay.Service

/-! The order of a session's requests. Every handler sets `state_` and none looks
at it, so a PLAY makes the session play whatever came before. -/
namespace RtspRelay.SessionOrder
open Machine Protocol Manager Session Service Relay Transition

-- `ready`: a SETUP was answered 200 and no TEARDOWN has been handled since.
structure Watched where
  relay : Relay
  ready : SessionId → Bool

def answeredOk (s : Relay) (self : SessionId) : Bool :=
  s.responses.any fun r => decide (r.1 = self ∧ r.2.statusCode = 200)

def readyAfter (req : RtspMessage) (ok ready : Bool) : Bool :=
  if req.type = .request then
    match req.method with
    | .setup => ready || ok
    | .teardown => false
    | _ => ready
  else ready

def start (maxSources : Nat) (players : SessionId → Player) (order : HeaderOrder) : Watched :=
  ⟨init maxSources players order, fun _ => false⟩

def step (s : Watched) (input : Input) : Watched :=
  let after := s.relay.step input
  match input with
  | .request self req _ =>
    ⟨after, Function.update s.ready self (readyAfter req (answeredOk after self) (s.ready self))⟩
  | _ => ⟨after, s.ready⟩

def PlaysInOrder (s : Watched) : Prop :=
  ∀ self, (s.relay.sessions self).state = .playing → s.ready self = true

def RefusesEarlyPlay (s : Watched) : Input → Prop
  | .request self req udp => role req = .play → s.ready self = false →
      answeredOk (s.relay.step (.request self req udp)) self = false ∧
        ∀ p, ((s.relay.step (.request self req udp)).manager.sinks p).count self ≤
          (s.relay.manager.sinks p).count self
  | _ => True

def PlaysWhenReady (s : Watched) : Input → Prop
  | .request self req _ => role req = .play → s.ready self = true
  | _ => True

theorem playAnswered (s : Relay) (self : SessionId) {req : RtspMessage} (udp : UdpAnswers)
    (play : role req = .play) : answeredOk (s.step (.request self req udp)) self = true := by
  simp only [answeredOk, Relay.step, request, setSession, playHandled play]
  simp [playResponse, RtspMessage.set, Protocol.ok]

theorem methodRoleReady {req : RtspMessage} {kind : Role} (same : role req = kind)
    (stays : kind = .other ∨ kind = .play) (ok ready : Bool) : readyAfter req ok ready = ready := by
  unfold role at same
  unfold readyAfter
  split at same
  · rename_i isRequest
    rw [if_pos isRequest]
    cases method : req.method <;> rw [method] at same <;> first
      | rfl
      | (subst same; rcases stays with no | no <;> contradiction)
  · rename_i notRequest
    rw [if_neg notRequest]

theorem requestInOrder {s : Watched} (h : PlaysInOrder s) {self : SessionId} {req : RtspMessage}
    (udp : UdpAnswers) (when : PlaysWhenReady s (.request self req udp)) :
    PlaysInOrder (step s (.request self req udp)) := by
  intro other playing
  rcases eq_or_ne other self with rfl | differ
  · have own : ((s.relay.step (.request other req udp)).sessions other).state = .playing := playing
    have after : (s.relay.step (.request other req udp)).sessions other =
        (processRequest s.relay.sdp udp s.relay.manager other (s.relay.sessions other) req).session :=
      setSessionSame _ other _
    rw [after] at own
    simp only [step, Function.update_self]
    cases kind : role req with
    | other =>
      rw [methodRoleReady kind (.inl rfl)]
      rw [(otherHandled kind).2.2.1] at own
      exact h other own
    | move =>
      rcases (moveHandled kind).2.1 with describe | setup
      · rw [describe] at own
        contradiction
      · rw [setup] at own
        contradiction
    | play =>
      rw [methodRoleReady kind (.inr rfl)]
      exact when kind
    | teardown =>
      rw [teardownHandled kind, (closeKeeps _ _ _).2.1] at own
      contradiction
  · have apart : ¬ Concerns other (.request self req udp) := Ne.symm differ
    have before : (s.relay.sessions other).state = .playing := by
      rw [← stepSession apart]
      exact playing
    simp only [step, Function.update_of_ne differ]
    exact h other before

theorem apartInOrder {s after : Watched} (h : PlaysInOrder s) (input : Input)
    (relay : after.relay = s.relay.step input) (ready : after.ready = s.ready)
    (apart : ∀ other, ¬ Concerns other input) : PlaysInOrder after := by
  intro other playing
  rw [relay, stepSession (apart other)] at playing
  rw [ready]
  exact h other playing

theorem stepInOrder {s : Watched} {input : Input} (h : PlaysInOrder s)
    (when : PlaysWhenReady s input) : PlaysInOrder (step s input) := by
  cases input with
  | request self req udp => exact requestInOrder h udp when
  | lost self =>
    intro other playing
    rcases eq_or_ne other self with rfl | differ
    · have after : (s.relay.step (.lost other)).sessions other =
          (close s.relay.manager other { s.relay.sessions other with connected := false }).2 :=
        setSessionSame _ other _
      have closed : ((s.relay.step (.lost other)).sessions other).state = .playing := playing
      rw [after, (closeKeeps _ _ _).2.1] at closed
      contradiction
    · have apart : ¬ Concerns other (.lost self) := Ne.symm differ
      refine h other ?_
      rw [← stepSession apart]
      exact playing
  | addStream path url connect writes => exact apartInOrder h (.addStream path url connect writes) rfl rfl fun _ => id
  | removeStream path writes => exact apartInOrder h (.removeStream path writes) rfl rfl fun _ => id
  | source i input => exact apartInOrder h (.source i input) rfl rfl fun _ => id

/-! A PLAY is never refused, so it has to be in order by itself. -/
theorem refusesExact (s : Watched) (input : Input) :
    RefusesEarlyPlay s input ↔ PlaysWhenReady s input := by
  cases input with
  | request self req udp =>
    constructor
    · intro refuses play
      rcases Bool.eq_false_or_eq_true (s.ready self) with ready | early
      · exact ready
      · have refused := (refuses play early).1
        rw [playAnswered s.relay self udp play] at refused
        contradiction
    · intro when play early
      rw [when play] at early
      contradiction
  | addStream | removeStream | lost | source => exact Iff.rfl

theorem requestsOrdered (maxSources : Nat) (players : SessionId → Player) (order : HeaderOrder)
    (inputs : List Input) :
    (Always step PlaysInOrder (start maxSources players order) inputs ∧
      Throughout step RefusesEarlyPlay (start maxSources players order) inputs) ↔
      Throughout step PlaysWhenReady (start maxSources players order) inputs := by
  constructor
  · rintro ⟨_, refuses⟩
    exact throughoutMono (fun s input => (refusesExact s input).mp) refuses
  · intro when
    refine ⟨alwaysAlong (fun _ _ => stepInOrder) (fun _ => id) ?_ when,
      throughoutMono (fun s input => (refusesExact s input).mpr) when⟩
    intro self playing
    contradiction

/-! A player sends PLAY as its first request. -/
def early : List Input :=
  [.addStream (ascii "/cam") (ascii "rtsp://10.0.0.9/cam") .inProgress [],
    .request 0 { type := .request, method := .play, url := ascii "rtsp://relay/cam", cseq := 1 }
      ⟨none, none⟩]

theorem earlyPlays :
    ¬ ∀ (maxSources : Nat) (players : SessionId → Player) (order : HeaderOrder) (inputs : List Input),
      Always step PlaysInOrder (start maxSources players order) inputs ∧
        Throughout step RefusesEarlyPlay (start maxSources players order) inputs := by
  intro always
  have inOrder := (always 500 (fun _ => ⟨ascii "10.0.0.7:5000", ascii "00000001"⟩) insertionOrder early).1
  have last : PlaysInOrder _ := alwaysLast inOrder
  exact absurd (last 0 (by decide)) (by decide)

end RtspRelay.SessionOrder
