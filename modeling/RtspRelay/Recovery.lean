import RtspRelay.SourceSteps

/-! A lost upstream connection is retried: an orderly end starts the reconnect
timer, and every stage of a connect that fails starts one of its own. A socket
error starts nothing, because these connections have no error callback. -/
namespace RtspRelay.Recovery
open Machine Buffer Protocol Source World Transition
open Connection (ReadResult WriteResult)

def Connected (w : World) (i : ConnId) : Prop := (w.conns i).tcp.state = .connected

instance (w : World) (i : ConnId) : Decidable (Connected w i) := inferInstanceAs (Decidable (_ = _))

-- A posted task that will start the connect timer counts as an attempt.
def Attempting (w : World) : Prop := (∃ c, (w.clients c).connecting = true) ∨ w.tasks ≠ []

def Retried (w : World) : Prop :=
  (∀ i, ¬ Connected w i) → (Attempting w ∨ w.timers ≠ []) ∧ w.source.state ≠ .playing

-- Neither read() nor write() fails on a connection of the source.
def SocketsWork (w : World) (input : Input) : Prop :=
  (∀ i, input.event = .read i .error → ¬ w.Live i) ∧ WriteResult.error ∉ input.writes

def Talks (state : State) : Prop := state ≠ .idle ∧ state ≠ .connecting ∧ state ≠ .error

/-! The source is past its connect only while conn_ is connected. -/
structure Handshaking (w : World) : Prop where
  running : w.source.stopping = false
  answers : WriteResult.error ∉ w.writes
  talks : Talks w.source.state → ∃ i, w.source.conn = some i ∧ Connected w i

structure Recovering (w : World) : Prop where
  handshaking : Handshaking w
  retry : (∀ i, ¬ Connected w i) → Attempting w ∨ w.timers ≠ []

theorem recoveringRetried {w : World} (h : Recovering w) : Retried w := by
  intro none
  refine ⟨h.retry none, fun playing => ?_⟩
  obtain ⟨i, _, connected⟩ := h.handshaking.talks (by rw [playing]; exact ⟨nofun, nofun, nofun⟩)
  exact none i connected

theorem setConnConnected {w : World} {i : ConnId} {up : Upstream}
    (same : up.tcp.state = (w.conns i).tcp.state) (j : ConnId) :
    Connected (w.setConn i up) j ↔ Connected w j := by
  rcases eq_or_ne j i with rfl | differ
  · rw [Connected, setConnSame, same, Connected]
  · rw [Connected, setConnOther _ differ, Connected]

theorem recoveringOf {w after : World} (h : Recovering w) (source : after.source = w.source)
    (answers : WriteResult.error ∉ after.writes) (clients : after.clients = w.clients)
    (tasks : after.tasks = w.tasks) (timers : w.timers ≠ [] → after.timers ≠ [])
    (same : ∀ i, Connected after i ↔ Connected w i) : Recovering after := by
  refine ⟨⟨by rw [source]; exact h.handshaking.running, answers, fun talks => ?_⟩, fun none => ?_⟩
  · rw [source] at talks ⊢
    obtain ⟨i, held, connected⟩ := h.handshaking.talks talks
    exact ⟨i, held, (same i).mpr connected⟩
  · rw [Attempting, clients, tasks]
    rcases h.retry (fun i connected => none i ((same i).mpr connected)) with attempt | timer
    · exact .inl attempt
    · exact .inr (timers timer)

theorem headWorks {writes : List WriteResult} (answers : WriteResult.error ∉ writes) :
    writes.headD .again ≠ .error := by
  cases writes with
  | nil => nofun
  | cons w rest =>
    intro same
    exact answers (List.mem_cons.mpr (.inl same.symm))

theorem sendRecovering {w : World} (h : Recovering w) (i : ConnId) (data : Bytes) :
    Recovering (w.send i data) := by
  unfold send
  dsimp only
  split
  · rename_i connected
    have works := headWorks h.handshaking.answers
    have left : WriteResult.error ∉ w.writes.tail :=
      fun member => h.handshaking.answers (List.mem_of_mem_tail member)
    have still := ((w.conns i).tcp.sendAccepted connected data works).2
    exact recoveringOf h rfl left rfl rfl id (setConnConnected (still.trans connected.symm))
  · exact h

theorem sendRequestRecovering {w : World} (h : Recovering w) (request : Nat → RtspMessage) :
    Recovering (w.sendRequest request) := by
  have counted : Recovering { w with
      source := { w.source with cseq := (w.source.cseq + 1) % 2 ^ 32 } } :=
    ⟨⟨h.handshaking.running, h.handshaking.answers, h.handshaking.talks⟩, h.retry⟩
  unfold sendRequest
  dsimp only
  split
  · exact recoveringOf counted rfl h.handshaking.answers rfl rfl id fun _ => .rfl
  · exact sendRecovering counted _ _

theorem setStateRecovering {w : World} (h : Recovering w) (talks : Talks w.source.state)
    (state : State) : Recovering (w.setState state) :=
  ⟨⟨h.handshaking.running, h.handshaking.answers, fun _ => h.handshaking.talks talks⟩, h.retry⟩

theorem advanceRecovering {w : World} (h : Recovering w) (resp : RtspMessage) :
    Recovering (w.advance resp) := by
  unfold advance
  split
  · rename_i options
    have talks : Talks w.source.state := by rw [options]; exact ⟨nofun, nofun, nofun⟩
    exact sendRequestRecovering (setStateRecovering h talks _) _
  · rename_i describe
    have talks : Talks w.source.state := by rw [describe]; exact ⟨nofun, nofun, nofun⟩
    have described : Recovering { w with source := { w.source with sdp := resp.sdp } } :=
      ⟨⟨h.handshaking.running, h.handshaking.answers, h.handshaking.talks⟩, h.retry⟩
    exact sendRequestRecovering (setStateRecovering described talks _) _
  · rename_i setup
    have talks : Talks (w.noteChannels resp).source.state := by
      unfold noteChannels
      split <;> exact setup ▸ ⟨nofun, nofun, nofun⟩
    have noted : Recovering (w.noteChannels resp) := by
      unfold noteChannels
      split
      · exact h
      · exact ⟨⟨h.handshaking.running, h.handshaking.answers, h.handshaking.talks⟩, h.retry⟩
    exact sendRequestRecovering (setStateRecovering noted talks _) _
  · exact h

theorem handleResponseRecovering {w : World} (h : Recovering w) (resp : RtspMessage) :
    Recovering (w.handleResponse resp) := by
  unfold handleResponse
  split
  · split
    · exact recoveringOf h rfl h.handshaking.answers rfl rfl (fun _ => by simp [addTimer]) fun _ => .rfl
    · exact h
  · refine advanceRecovering ?_ resp
    unfold noteSession
    split
    · exact h
    · exact ⟨⟨h.handshaking.running, h.handshaking.answers, h.handshaking.talks⟩, h.retry⟩

theorem onUnitRecovering {w : World} (h : Recovering w) (u : Decoders.StreamUnit) :
    Recovering (Decoders.onUnit handleInterleavedData handleResponse w u) := by
  cases u with
  | interleaved channel payload =>
    exact recoveringOf h rfl h.handshaking.answers rfl rfl id fun _ => .rfl
  | message msg => exact handleResponseRecovering h msg

theorem afterMessagesRecovering (i : ConnId) {ended : Decoders.LoopEnd World}
    (h : Recovering ended.1) : Recovering (afterMessages i ended) := by
  obtain ⟨w, rest⟩ := ended
  have answers := h.handshaking.answers
  cases rest with
  | ok rest => exact recoveringOf h rfl answers rfl rfl id (setConnConnected rfl)
  | error e => exact recoveringOf h rfl answers rfl rfl id fun _ => .rfl

theorem handleMessageRecovering {w : World} (h : Recovering w) (i : ConnId) (buf : ByteBuffer) :
    Recovering (w.handleMessage i buf) := by
  refine afterMessagesRecovering i ?_
  rw [Decoders.handleMessageRuns]
  exact runInvariant (I := Recovering) (fun _ u before => onUnitRecovering before u) h _

/-! Each result of a connect leaves an attempt, a timer or a connection. -/
theorem handleConnectRecovering {w : World} (h : Handshaking w) (c : ClientId) :
    Recovering (w.handleConnect c) := by
  have open_ : Connected (w.openConn c) w.nextConn := by
    rw [Connected, openConn]
    dsimp only [setClient]
    rw [setConnSame]
    rfl
  have connecting : Recovering { w.openConn c with
      source := { w.source with conn := some w.nextConn, state := .options, cseq := 0 } } :=
    ⟨⟨h.running, h.answers, fun _ => ⟨w.nextConn, rfl, open_⟩⟩, fun none => absurd open_ (none _)⟩
  have sent : Recovering ((w.openConn c).onConnect w.nextConn) := sendRequestRecovering connecting _
  exact recoveringOf sent rfl sent.handshaking.answers rfl rfl id (setConnConnected rfl)

theorem connectRecovering {w : World} (h : Handshaking w) (c : ClientId) (result : ConnectResult) :
    Recovering (w.connect c result) := by
  have noted : Handshaking (w.note (.connect c)) := ⟨h.running, h.answers, h.talks⟩
  have timed : Recovering ((w.note (.connect c)).addTimer (.connect c)) :=
    ⟨⟨h.running, h.answers, h.talks⟩, fun _ => .inr (by simp [addTimer])⟩
  cases result with
  | resolveFailed =>
    exact ⟨⟨h.running, h.answers, h.talks⟩, fun _ => .inl (.inr (by simp [connect, postRetry]))⟩
  | socketFailed => exact timed
  | refused => exact timed
  | inProgress =>
    refine ⟨⟨h.running, h.answers, h.talks⟩, fun _ => .inl (.inl ⟨c, ?_⟩)⟩
    simp only [connect, setConnecting]
    rw [setClientSame]
  | immediate => exact handleConnectRecovering noted c

theorem upstreamRecovering {w : World} (h : Handshaking w) (result : ConnectResult) :
    Recovering ((w.setState .connecting).connectToUpstream result) := by
  have idle : ¬ Talks (w.setState .connecting).source.state := fun talks => talks.2.1 rfl
  have running : (w.setState .connecting).source.stopping = false := h.running
  rw [connectToUpstream, running, if_neg (by decide)]
  refine connectRecovering ?_ _ result
  unfold dropClient makeClient
  dsimp only
  split <;> exact ⟨h.running, h.answers, fun talks => absurd talks idle⟩

theorem fireRecovering {w : World} (h : Recovering w) (n : Nat) (result : ConnectResult) :
    Recovering (w.fire n result) := by
  unfold fire
  split
  · exact h
  · rename_i t _
    have taken : Handshaking (w.takeTimer n) :=
      ⟨h.handshaking.running, h.handshaking.answers, h.handshaking.talks⟩
    cases t with
    | reconnect => exact upstreamRecovering taken result
    | retry404 =>
      simp only [expire]
      rw [if_neg (by rw [taken.running]; decide)]
      exact upstreamRecovering taken result
    | connect c => exact connectRecovering taken c result

theorem clientClosedRecovering {w : World} (running : w.source.stopping = false)
    (answers : WriteResult.error ∉ w.writes) (c : ClientId) : Recovering (w.clientClosed c) := by
  have scheduled : w.dropConn.scheduleReconnect = (w.dropConn.setState .error).addTimer .reconnect := by
    rw [scheduleReconnect, if_neg]
    simp [dropConn, running]
  rw [clientClosed, scheduled]
  refine ⟨⟨running, answers, fun talks => absurd rfl talks.2.2⟩, fun _ => .inr ?_⟩
  simp [forgetConn, setClient, addTimer]

theorem readRecovering {w : World} (h : Recovering w) (i : ConnId) {result : ReadResult}
    (works : result = .error → ¬ w.Live i) : Recovering (w.read i result) := by
  unfold World.read
  split
  · rename_i live
    cases result with
    | data chunk => exact handleMessageRecovering h i _
    | eof =>
      have ended : (w.endConn i).source.stopping = false := h.handshaking.running
      exact clientClosedRecovering ended h.handshaking.answers (w.conns i).client
    | again => exact h
    | error => exact absurd live (works rfl)
  · exact h

theorem writableRecovering {w : World} (h : Recovering w) (c : ClientId) (failed : Bool) :
    Recovering (w.writable c failed) := by
  unfold writable
  split
  · cases failed with
    | true => exact ⟨⟨h.handshaking.running, h.handshaking.answers, h.handshaking.talks⟩,
        fun _ => .inr (by simp [addTimer])⟩
    | false => exact handleConnectRecovering h.handshaking c
  · exact h

theorem taskRecovering {w : World} (h : Recovering w) : Recovering w.runTask := by
  unfold runTask
  split
  · exact h
  · exact ⟨⟨h.handshaking.running, h.handshaking.answers, h.handshaking.talks⟩,
      fun _ => .inr (by simp [addTimer])⟩

theorem stepRecovering {w : World} {input : Input} (h : Recovering w) (works : SocketsWork w input) :
    Recovering (w.step input) := by
  obtain ⟨event, connect, writes⟩ := input
  unfold step
  split
  · exact recoveringOf h rfl (List.not_mem_nil) rfl rfl id fun _ => .rfl
  · have begun : Recovering (w.entering writes) := recoveringOf h rfl works.2 rfl rfl id fun _ => .rfl
    cases event with
    | writable c failed => exact writableRecovering begun c failed
    | read i result => exact readRecovering begun i fun same => works.1 i (by rw [same])
    | fire n => exact fireRecovering begun n connect
    | runTask => exact taskRecovering begun

theorem startRecovering (order : HeaderOrder) (upstreamUrl streamPath : Bytes)
    (connect : ConnectResult) {writes : List WriteResult} (begins : WriteResult.error ∉ writes) :
    Recovering ((create order upstreamUrl streamPath).start connect writes) :=
  upstreamRecovering (w := ((create order upstreamUrl streamPath).entering writes).setStopping false)
    ⟨rfl, begins, fun talks => absurd rfl talks.1⟩ connect

theorem alwaysRetried (order : HeaderOrder) (upstreamUrl streamPath : Bytes)
    (connect : ConnectResult) (writes : List WriteResult) (inputs : List Input)
    (begins : WriteResult.error ∉ writes)
    (works : Throughout step SocketsWork
      ((create order upstreamUrl streamPath).start connect writes) inputs) :
    Always step Retried ((create order upstreamUrl streamPath).start connect writes) inputs :=
  alwaysAlong (fun _ _ => stepRecovering) (fun _ => recoveringRetried)
    (startRecovering order upstreamUrl streamPath connect begins) works

/-! One camera. Its connection ends and is retried after 3 s. -/
def camera : World := create insertionOrder (ascii "rtsp://10.0.0.9/cam") (ascii "/cam")

theorem sentSome : 0 < 4096 := by decide

def sent : List WriteResult := [.wrote 4096 sentSome]

def endedAndRetried : List Input :=
  [⟨.writable 0 false, .inProgress, sent⟩, ⟨.read 0 .eof, .inProgress, []⟩, ⟨.fire 0, .refused, []⟩]

theorem endedAndRetriedAlways : Always step Retried (camera.start .inProgress []) endedAndRetried := by
  have works : Throughout step SocketsWork (camera.start .inProgress []) endedAndRetried := by
    refine ⟨⟨nofun, ?_⟩, ⟨nofun, List.not_mem_nil⟩, ⟨nofun, List.not_mem_nil⟩, trivial⟩
    decide
  exact alwaysRetried insertionOrder _ _ .inProgress [] endedAndRetried List.not_mem_nil works

/-! The handshake completes and the connection is reset. -/
def answered : Input :=
  ⟨.read 0 (.data (ascii "RTSP/1.0 200 OK\r\nCSeq: 1\r\n\r\n")), .inProgress, sent⟩

def resetWhilePlaying : List Input :=
  [⟨.writable 0 false, .inProgress, sent⟩, answered, answered, answered,
    ⟨.read 0 .error, .inProgress, []⟩]

theorem resetWhilePlayingStays :
    ¬ ∀ (order : HeaderOrder) (upstreamUrl streamPath : Bytes) (connect : ConnectResult)
      (writes : List WriteResult) (inputs : List Input),
      Always step Retried ((create order upstreamUrl streamPath).start connect writes) inputs := by
  intro always
  have last : Retried (run step (camera.start .inProgress []) resetWhilePlaying) :=
    alwaysLast (always insertionOrder _ _ .inProgress [] resetWhilePlaying)
  have none : ∀ i, ¬ Connected (run step (camera.start .inProgress []) resetWhilePlaying) i := by
    intro i
    cases i with
    | zero => decide
    | succ n => exact nofun
  exact absurd (by decide) (last none).2

end RtspRelay.Recovery
