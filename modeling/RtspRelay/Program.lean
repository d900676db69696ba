import RtspRelay.General.Unwinding
import RtspRelay.Endpoints
import RtspRelay.PipelinedRequests

/-! The program as one process. What its players and HTTP clients send comes in as bytes,
cut anywhere. A chunk is handled in one step; what comes between two of its requests
comes between two chunks of another run. An exception of a parser is caught nowhere and
ends the process for everyone; a callback that finds its object gone may do anything.
Both are a fault, and behind it nothing is said of anyone. -/
namespace RtspRelay.Program
open Machine Buffer Protocol Manager Session Service Relay Routing StreamApi
open StreamDecoder Decoders Transition Unwinding Endpoints
open HttpMessage (HttpRequest httpGrammar)
open ApiRequests (api)

abbrev Client := Nat

structure Executed where
  client : Client
  request : HttpRequest
  response : HttpResponse

-- `received` and `inputs`: the receive buffers of the players' and the clients' connections.
structure Process where
  relay : Relay
  received : SessionId → ByteBuffer
  inputs : Client → ByteBuffer
  executed : List Executed
  fault : Bool

-- The environment answers the k-th request of a chunk with the k-th of `udp` or `outside`.
inductive Event where
  | player (self : SessionId) (chunk : Bytes) (udp : Nat → UdpAnswers)
  | lost (self : SessionId)
  | http (client : Client) (chunk : Bytes) (outside : Nat → Outside)
  | source (i : SourceId) (input : Source.Input)

variable (order : StreamOrder) (rtspPort : UInt16)

/-! The callbacks, with what the chunk has done so far. -/

def handleInterleavedData (s : Relay × Nat) (_channel : UInt8) (_data : Bytes) : Relay × Nat := s

def processRequest (self : SessionId) (udp : Nat → UdpAnswers) (s : Relay × Nat) (req : RtspMessage) :
    Relay × Nat := (s.1.step (.request self req (udp s.2)), s.2 + 1)

def dispatch (client : Client) (outside : Nat → Outside) (s : Relay × List Executed) (req : HttpRequest) :
    Relay × List Executed :=
  let answered := api order rtspPort (outside s.2.length) s.1 req
  (answered.1, s.2 ++ [⟨client, req, answered.2⟩])

namespace Process

def start (maxSources : Nat) (players : SessionId → Player) (headers : HeaderOrder) : Process :=
  ⟨init maxSources players headers, fun _ => ByteBuffer.init 0, fun _ => ByteBuffer.init 0, [], false⟩

def onPlayer (p : Process) (self : SessionId) (chunk : Bytes) (udp : Nat → UdpAnswers) : Process :=
  let out := handleRtspMessage handleInterleavedData (processRequest self udp) (p.relay, 0)
    ((p.received self).append chunk)
  match out.2 with
  | .ok buf => { p with relay := out.1.1, received := Function.update p.received self buf }
  | .error _ => { p with relay := out.1.1, fault := true }

def onHttp (p : Process) (client : Client) (chunk : Bytes) (outside : Nat → Outside) : Process :=
  let out := onMessage (dispatch order rtspPort client outside) (p.relay, []) ((p.inputs client).append chunk)
  let after := { p with relay := out.1.1, executed := p.executed ++ out.1.2 }
  match out.2 with
  | .ok buf => { after with inputs := Function.update p.inputs client buf }
  | .error _ => { after with fault := true }

def onSource (p : Process) (i : SourceId) (input : Source.Input) : Process :=
  if (p.relay.sources i).dangles input.event then { p with fault := true }
  else { p with relay := p.relay.step (.source i input), fault := ((p.relay.sources i).step input).crashed }

def step (p : Process) (event : Event) : Process :=
  if p.fault then p
  else match event with
    | .player self chunk udp => p.onPlayer self chunk udp
    | .lost self => { p with relay := p.relay.step (.lost self) }
    | .http client chunk outside => p.onHttp order rtspPort client chunk outside
    | .source i input => p.onSource i input

end Process

/-! What the bytes of a chunk come to. -/

-- The requests of a player's units; its frames are dropped.
def asked (self : SessionId) (udp : Nat → UdpAnswers) : Nat → List StreamUnit → List Service.Input
  | _, [] => []
  | k, .interleaved _ _ :: rest => asked self udp k rest
  | k, .message req :: rest => .request self req (udp k) :: asked self udp (k + 1) rest

theorem unitsAsked (self : SessionId) (udp : Nat → UdpAnswers) (units : List StreamUnit) (s : Relay × Nat) :
    (run (onUnit handleInterleavedData (processRequest self udp)) s units).1 =
      run Relay.step s.1 (asked self udp s.2 units) := by
  induction units generalizing s with
  | nil => rfl
  | cons unit rest ih =>
    cases unit with
    | interleaved channel data => exact ih s
    | message req => exact ih (processRequest self udp s req)

theorem askedRequests (self : SessionId) (udp : Nat → UdpAnswers) (k : Nat) (units : List StreamUnit) :
    ∀ input ∈ asked self udp k units, ∃ req answers, input = .request self req answers := by
  induction units generalizing k with
  | nil => exact List.forall_mem_nil _
  | cons unit rest ih =>
    cases unit with
    | interleaved channel data => exact ih k
    | message req => exact List.forall_mem_cons.mpr ⟨⟨req, udp k, rfl⟩, ih (k + 1)⟩

def playerUnits (p : Process) (self : SessionId) (chunk : Bytes) : Decoded UInt8 StreamUnit Exn :=
  decode interleavedDecoder ((p.received self).content ++ chunk)

def clientUnits (p : Process) (client : Client) (chunk : Bytes) : Decoded UInt8 HttpRequest Exn :=
  decode (messageDecoder httpGrammar) ((p.inputs client).content ++ chunk)

-- What is left of the bytes of connection `k`, or the end.
structure Kept {ι : Type} (before after : ι → ByteBuffer) (k : ι) (left : Bytes) : Prop where
  own : (after k).content = left
  others : ∀ other, other ≠ k → after other = before other

theorem updateKept {ι : Type} [DecidableEq ι] (before : ι → ByteBuffer) (k : ι) (buf : ByteBuffer) :
    Kept before (Function.update before k buf) k buf.content :=
  ⟨by rw [Function.update_self], fun other differ => Function.update_of_ne differ _ _⟩

section
variable (p : Process)

structure Played (player : SessionId) (asks : List Service.Input) (ends : Except Exn Bytes) (after : Process) :
    Prop where
  relay : after.relay = run Relay.step p.relay asks
  inputs : after.inputs = p.inputs
  executed : after.executed = p.executed
  left : ∀ left, ends = .ok left → after.fault = p.fault ∧ Kept p.received after.received player left
  failed : ∀ e, ends = .error e → after.fault = true

theorem onPlayerPlays (self : SessionId) (chunk : Bytes) (udp : Nat → UdpAnswers) :
    Played p self (asked self udp 0 (playerUnits p self chunk).1) (playerUnits p self chunk).2
      (p.onPlayer self chunk udp) := by
  have runs := handleMessageDecodes handleInterleavedData (processRequest self udp) (p.relay, 0)
    ((p.received self).append chunk)
  rw [ByteBuffer.appendContent] at runs
  have relay := unitsAsked self udp (playerUnits p self chunk).1 (p.relay, 0)
  change observed (handleRtspMessage handleInterleavedData (processRequest self udp) (p.relay, 0)
    ((p.received self).append chunk)) = _ at runs
  unfold Process.onPlayer
  generalize handleRtspMessage handleInterleavedData (processRequest self udp) (p.relay, 0)
    ((p.received self).append chunk) = out at runs
  obtain ⟨state, ended⟩ := out
  obtain ⟨states, ends⟩ := Prod.mk.inj runs
  rw [playerUnits, ← states] at relay
  rw [playerUnits, ← ends]
  cases ended with
  | error e => exact ⟨relay, rfl, rfl, nofun, fun _ _ => rfl⟩
  | ok buf =>
    refine ⟨relay, rfl, rfl, fun left same => ?_, nofun⟩
    cases Except.ok.inj same
    exact ⟨rfl, updateKept p.received self buf⟩

structure Served (client : Client) (outside : Nat → Outside) (reqs : List HttpRequest)
    (ends : Except Exn Bytes) (after : Process) : Prop where
  relay : after.relay = (reqs.foldl (dispatch order rtspPort client outside) (p.relay, [])).1
  executed : after.executed =
    p.executed ++ (reqs.foldl (dispatch order rtspPort client outside) (p.relay, [])).2
  received : after.received = p.received
  left : ∀ left, ends = .ok left → after.fault = p.fault ∧ Kept p.inputs after.inputs client left
  failed : ∀ e, ends = .error e → after.fault = true

theorem onHttpServes (client : Client) (chunk : Bytes) (outside : Nat → Outside) :
    Served order rtspPort p client outside (clientUnits p client chunk).1 (clientUnits p client chunk).2
      (p.onHttp order rtspPort client chunk outside) := by
  have runs := PipelinedRequests.onMessageRuns (dispatch order rtspPort client outside) (p.relay, [])
    ((p.inputs client).append chunk)
  rw [ByteBuffer.appendContent] at runs
  unfold Process.onHttp
  generalize onMessage (dispatch order rtspPort client outside) (p.relay, []) ((p.inputs client).append chunk) =
    out at runs
  obtain ⟨state, ended⟩ := out
  obtain ⟨states, ends⟩ := Prod.mk.inj runs
  have relay := congrArg Prod.fst states
  have executed := congrArg (p.executed ++ Prod.snd ·) states
  rw [clientUnits, ← ends]
  cases ended with
  | error e => exact ⟨relay, executed, rfl, nofun, fun _ _ => rfl⟩
  | ok buf =>
    refine ⟨relay, executed, rfl, fun left same => ?_, nofun⟩
    cases Except.ok.inj same
    exact ⟨rfl, updateKept p.inputs client buf⟩
end

/-! What the players are sent. The API sends them nothing. -/

def inputsOf (p : Process) : Event → List Service.Input
  | .player self chunk udp => asked self udp 0 (playerUnits p self chunk).1
  | .lost self => [.lost self]
  | .http _ _ _ => []
  | .source i input => if (p.relay.sources i).dangles input.event then [] else [.source i input]

def shown {ω : Type} (note : Relay → Service.Input → List ω) (p : Process) (event : Event) : List ω :=
  if p.fault then [] else transcript Relay.step note p.relay (inputsOf p event)

theorem shownRunning {ω : Type} (note : Relay → Service.Input → List ω) {p : Process} (running : p.fault = false)
    (event : Event) : shown note p event = transcript Relay.step note p.relay (inputsOf p event) :=
  if_neg (Bool.eq_false_iff.mp running)

variable {order rtspPort}

theorem stepRunning {p : Process} (running : p.fault = false) (event : Event) :
    p.step order rtspPort event = match event with
      | .player self chunk udp => p.onPlayer self chunk udp
      | .lost self => { p with relay := p.relay.step (.lost self) }
      | .http client chunk outside => p.onHttp order rtspPort client chunk outside
      | .source i input => p.onSource i input := if_neg (Bool.eq_false_iff.mp running)

theorem stepFaulted {p : Process} (fault : p.fault = true) (event : Event) : p.step order rtspPort event = p :=
  if_pos fault

/-! Two runs, of which one goes without some sessions and without some upstreams. What
relates the relays of both and shows the same in both does so in the program. -/

def ofHidden (hidden : SessionId → Bool) (faulty : SourceId → Bool) : Service.Input → Bool
  | .request self _ _ => hidden self
  | .lost self => hidden self
  | .source i _ => faulty i
  | .addStream _ _ _ _ | .removeStream _ _ => false

def leftOut (hidden : SessionId → Bool) (faulty : SourceId → Bool) : Event → Bool
  | .player self _ _ => hidden self
  | .lost self => hidden self
  | .source i _ => faulty i
  | .http _ _ _ => false

structure Lifts {ω : Type} (hidden : SessionId → Bool) (faulty : SourceId → Bool)
    (note : Relay → Service.Input → List ω) (Related : Relay → Relay → Prop) : Prop where
  unwinds : Unwinds Relay.step note (ofHidden hidden faulty) Related
  changes : ∀ s t out change, Related s t → Related (changed out s change) (changed out t change)
  sources : ∀ s t i, Related s t → faulty i = false → s.sources i = t.sources i

structure Matched (hidden : SessionId → Bool) (Related : Relay → Relay → Prop) (p q : Process) : Prop where
  relay : Related p.relay q.relay
  received : ∀ self, hidden self = false → (p.received self).content = (q.received self).content
  inputs : ∀ client, (p.inputs client).content = (q.inputs client).content
  fault : p.fault = q.fault

section
variable {ω : Type} {hidden : SessionId → Bool} {faulty : SourceId → Bool}
  {note : Relay → Service.Input → List ω} {Related : Relay → Relay → Prop}

theorem askedHidden {self : SessionId} {udp : Nat → UdpAnswers} {k : Nat} {units : List StreamUnit}
    {input : Service.Input} (inside : input ∈ asked self udp k units) :
    ofHidden hidden faulty input = hidden self := by
  obtain ⟨_, _, rfl⟩ := askedRequests self udp k units input inside
  rfl

theorem keptSame {ι : Type} {before before' after after' : ι → ByteBuffer} {k : ι} {left : Bytes}
    (kept : Kept before after k left) (kept' : Kept before' after' k left) {other : ι}
    (same : (before other).content = (before' other).content) :
    (after other).content = (after' other).content := by
  rcases Classical.em (other = k) with rfl | differ
  · rw [kept.own, kept'.own]
  · rw [kept.others other differ, kept'.others other differ, same]

variable (h : Lifts hidden faulty note Related)
include h

section
variable {s t : Relay} (related : Related s t) {inputs : List Service.Input}
include related

theorem inputsHidden (all : ∀ input ∈ inputs, ofHidden hidden faulty input = true) :
    Related (run Relay.step s inputs) t ∧ transcript Relay.step note s inputs = [] := by
  have nothing : inputs.filter (fun input => !ofHidden hidden faulty input) = [] :=
    List.filter_eq_nil_iff.mpr fun input inside => by rw [all input inside]; exact Bool.false_ne_true
  have both := purged h.unwinds related inputs
  rwa [nothing] at both

theorem inputsShown (all : ∀ input ∈ inputs, ofHidden hidden faulty input = false) :
    Related (run Relay.step s inputs) (run Relay.step t inputs) ∧
      transcript Relay.step note s inputs = transcript Relay.step note t inputs := by
  have whole : inputs.filter (fun input => !ofHidden hidden faulty input) = inputs :=
    List.filter_eq_self.mpr fun input inside => by rw [all input inside]; rfl
  have both := purged h.unwinds related inputs
  rwa [whole] at both
end

theorem dispatchRelated (client : Client) (outside : Nat → Outside) (reqs : List HttpRequest)
    {a b : Relay × List Executed} (related : Related a.1 b.1) (count : a.2.length = b.2.length) :
    Related (reqs.foldl (dispatch order rtspPort client outside) a).1
      (reqs.foldl (dispatch order rtspPort client outside) b).1 := by
  induction reqs generalizing a b with
  | nil => exact related
  | cons req rest ih =>
    refine ih ?_ ?_
    · simp only [dispatch, apiChanges, count]
      exact h.changes a.1 b.1 _ _ related
    · simp only [dispatch, List.length_append, count]
      rfl

section
variable {p q : Process} (matched : Matched hidden Related p q)
include matched

theorem playerHidden {self : SessionId} (unseen : hidden self = true) (chunk : Bytes) (udp : Nat → UdpAnswers) :
    transcript Relay.step note p.relay (asked self udp 0 (playerUnits p self chunk).1) = [] ∧
      ((p.onPlayer self chunk udp).fault = true ∨ Matched hidden Related (p.onPlayer self chunk udp) q) := by
  obtain ⟨relay, nothing⟩ := inputsHidden h matched.relay fun input inside => (askedHidden inside).trans unseen
  have played := onPlayerPlays p self chunk udp
  refine ⟨nothing, ?_⟩
  cases ends : (playerUnits p self chunk).2 with
  | error e => exact .inl (played.failed e ends)
  | ok left =>
    obtain ⟨fault, kept⟩ := played.left left ends
    refine .inr ⟨played.relay ▸ relay, fun other watched => ?_, played.inputs ▸ matched.inputs,
      fault.trans matched.fault⟩
    have differ : other ≠ self := by
      rintro rfl
      exact Bool.false_ne_true (watched.symm.trans unseen)
    rw [kept.others other differ]
    exact matched.received other watched

theorem eventHidden (running : p.fault = false) {event : Event} (unseen : leftOut hidden faulty event = true) :
    shown note p event = [] ∧ ((p.step order rtspPort event).fault = true ∨
      Matched hidden Related (p.step order rtspPort event) q) := by
  rw [shownRunning _ running, stepRunning running]
  cases event with
  | http => contradiction
  | lost self =>
    obtain ⟨relay, nothing⟩ := inputsHidden h matched.relay (List.forall_mem_singleton.mpr unseen :
      ∀ input ∈ [Service.Input.lost self], ofHidden hidden faulty input = true)
    exact ⟨nothing, .inr ⟨relay, matched.received, matched.inputs, matched.fault⟩⟩
  | player self chunk udp => exact playerHidden h matched unseen chunk udp
  | source i input =>
    simp only [inputsOf, Process.onSource]
    split
    · exact ⟨rfl, .inl rfl⟩
    · obtain ⟨relay, nothing⟩ := inputsHidden h matched.relay (List.forall_mem_singleton.mpr unseen :
        ∀ a ∈ [Service.Input.source i input], ofHidden hidden faulty a = true)
      refine ⟨nothing, ?_⟩
      cases ended : ((p.relay.sources i).step input).crashed with
      | true => exact .inl rfl
      | false => exact .inr ⟨relay, matched.received, matched.inputs, running.symm.trans matched.fault⟩

-- Both buffers hold the same, so the chunk ends alike on both.
theorem playerShown {self : SessionId} (seen : hidden self = false) (chunk : Bytes) (udp : Nat → UdpAnswers) :
    transcript Relay.step note p.relay (asked self udp 0 (playerUnits p self chunk).1) =
        transcript Relay.step note q.relay (asked self udp 0 (playerUnits q self chunk).1) ∧
      ((p.onPlayer self chunk udp).fault = true ∨
        Matched hidden Related (p.onPlayer self chunk udp) (q.onPlayer self chunk udp)) := by
  have units : playerUnits q self chunk = playerUnits p self chunk := by
    rw [playerUnits, playerUnits, matched.received self seen]
  obtain ⟨relay, same⟩ := inputsShown h matched.relay fun input inside => (askedHidden inside).trans seen
  have played := onPlayerPlays p self chunk udp
  have played' := onPlayerPlays q self chunk udp
  rw [units] at played' ⊢
  refine ⟨same, ?_⟩
  cases ends : (playerUnits p self chunk).2 with
  | error e => exact .inl (played.failed e ends)
  | ok left =>
    obtain ⟨fault, kept⟩ := played.left left ends
    obtain ⟨fault', kept'⟩ := played'.left left ends
    refine .inr ⟨?_, fun other watched => keptSame kept kept' (matched.received other watched), ?_,
      fault.trans (matched.fault.trans fault'.symm)⟩
    · rw [played.relay, played'.relay]
      exact relay
    · rw [played.inputs, played'.inputs]
      exact matched.inputs

theorem httpShown (client : Client) (chunk : Bytes) (outside : Nat → Outside) :
    (p.onHttp order rtspPort client chunk outside).fault = true ∨ Matched hidden Related
      (p.onHttp order rtspPort client chunk outside) (q.onHttp order rtspPort client chunk outside) := by
  have units : clientUnits q client chunk = clientUnits p client chunk := by
    rw [clientUnits, clientUnits, matched.inputs client]
  have served := onHttpServes order rtspPort p client chunk outside
  have served' := onHttpServes order rtspPort q client chunk outside
  rw [units] at served'
  cases ends : (clientUnits p client chunk).2 with
  | error e => exact .inl (served.failed e ends)
  | ok left =>
    obtain ⟨fault, kept⟩ := served.left left ends
    obtain ⟨fault', kept'⟩ := served'.left left ends
    refine .inr ⟨?_, ?_, fun other => keptSame kept kept' (matched.inputs other),
      fault.trans (matched.fault.trans fault'.symm)⟩
    · rw [served.relay, served'.relay]
      exact dispatchRelated h client outside _ matched.relay rfl
    · rw [served.received, served'.received]
      exact matched.received

theorem eventShown (running : p.fault = false) {event : Event} (seen : leftOut hidden faulty event = false) :
    shown note p event = shown note q event ∧ ((p.step order rtspPort event).fault = true ∨
      Matched hidden Related (p.step order rtspPort event) (q.step order rtspPort event)) := by
  have running' : q.fault = false := matched.fault.symm.trans running
  rw [shownRunning _ running, shownRunning _ running', stepRunning running, stepRunning running']
  cases event with
  | lost self =>
    obtain ⟨relay, same⟩ := inputsShown h matched.relay (List.forall_mem_singleton.mpr seen :
      ∀ input ∈ [Service.Input.lost self], ofHidden hidden faulty input = false)
    exact ⟨same, .inr ⟨relay, matched.received, matched.inputs, matched.fault⟩⟩
  | player self chunk udp => exact playerShown h matched seen chunk udp
  | http client chunk outside => exact ⟨rfl, httpShown h matched client chunk outside⟩
  | source i input =>
    simp only [inputsOf, Process.onSource, h.sources p.relay q.relay i matched.relay seen]
    split
    · exact ⟨rfl, .inl rfl⟩
    · obtain ⟨relay, same⟩ := inputsShown h matched.relay (List.forall_mem_singleton.mpr seen :
        ∀ a ∈ [Service.Input.source i input], ofHidden hidden faulty a = false)
      exact ⟨same, .inr ⟨relay, matched.received, matched.inputs, rfl⟩⟩
end

theorem lifted : UnwindsRunning (Process.step order rtspPort) (shown note) (leftOut hidden faulty)
    (fun p => p.fault = true) (Matched hidden Related) where
  stays p event fault := (congrArg Process.fault (stepFaulted fault event)).trans fault
  silent p event fault := if_pos fault
  respects p q event matched unseen := by
    cases running : p.fault with
    | true => exact ⟨if_pos running, .inl ((congrArg Process.fault (stepFaulted running event)).trans running)⟩
    | false => exact eventHidden h matched running unseen
  consistent p q event matched seen := by
    cases running : p.fault with
    | true =>
      refine ⟨?_, .inl ((congrArg Process.fault (stepFaulted running event)).trans running)⟩
      exact (if_pos running).trans (if_pos (matched.fault.symm.trans running)).symm
    | false => exact eventShown h matched running seen

/-! What is shown up to the end of the program, and all of it where the program goes on. -/
theorem runsMatch {p : Process} (same : Related p.relay p.relay) (events : List Event) :
    transcript (Process.step order rtspPort) (shown note) p events <+:
        transcript (Process.step order rtspPort) (shown note) p
          (events.filter fun event => !leftOut hidden faulty event) ∧
      ((run (Process.step order rtspPort) p events).fault = false →
        Matched hidden Related (run (Process.step order rtspPort) p events)
          (run (Process.step order rtspPort) p (events.filter fun event => !leftOut hidden faulty event)) ∧
        transcript (Process.step order rtspPort) (shown note) p events =
          transcript (Process.step order rtspPort) (shown note) p
            (events.filter fun event => !leftOut hidden faulty event)) := by
  obtain ⟨sofar, whole⟩ := purgedRunning (lifted h) ⟨same, fun _ _ => rfl, fun _ => rfl, rfl⟩ events
  exact ⟨sofar, fun running => whole (Bool.eq_false_iff.mp running)⟩
end

end RtspRelay.Program
