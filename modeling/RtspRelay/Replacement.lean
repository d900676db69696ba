import RtspRelay.SourceSteps

/-! The upstream connection of a source: at most one socket is open at a time,
the one the source holds, as long as neither reconnect timer fires while one is
open or about to be opened. -/
namespace RtspRelay.Replacement
open Machine Protocol Connection Source World Transition

inductive Socket where
  | conn (i : ConnId)
  | connecting (c : ClientId)
  deriving DecidableEq

def Open (w : World) : Socket → Prop
  | .conn i => w.Live i
  | .connecting c => (w.clients c).connecting = true

def Held (w : World) : Socket → Prop
  | .conn i => w.source.conn = some i
  | .connecting c => w.source.client = some c

structure Single (w : World) : Prop where
  one : ∀ a b, Open w a → Open w b → a = b
  held : ∀ a, Open w a → Held w a
  older : ∀ i result connect writes, w.source.conn ≠ some i →
    (w.step ⟨.read i result, connect, writes⟩).source = w.source ∧
      (w.step ⟨.read i result, connect, writes⟩).timers = w.timers

-- The 3 s or the 5 s timer fires while no connection is open and none is due.
def FindsNothingOpen (w : World) (input : Input) : Prop :=
  match input.event with
  | .fire n => (w.timers[n]? = some .reconnect ∨ w.timers[n]? = some .retry404) →
      (∀ i, ¬ w.Live i) ∧ w.retries = []
  | _ => True

/-! Where the one attempt of a source stands. -/
inductive Phase (w : World) : Prop where
  | quiet (only : w.Only none none [])
  | retrying (c : ClientId) (held : w.source.client = some c) (only : w.Only none none [c])
  | connecting (c : ClientId) (held : w.source.client = some c) (only : w.Only none (some c) [])
  | connected (i : ConnId) (held : w.source.conn = some i) (only : w.Only (some i) none [])

theorem onlySingle {w : World} {conn : Option ConnId} {connecting : Option ClientId}
    {retries : List ClientId} (h : w.Only conn connecting retries)
    (alone : conn = none ∨ connecting = none) (heldConn : ∀ i, conn = some i → w.source.conn = some i)
    (heldClient : ∀ c, connecting = some c → w.source.client = some c) : Single w := by
  refine ⟨fun a b openA openB => ?_, fun a openA => ?_, fun i result connect writes other => ?_⟩
  · cases a with
    | conn i =>
      cases b with
      | conn j => rw [Option.some.inj ((h.live i openA).symm.trans (h.live j openB))]
      | connecting d =>
        rw [h.live i openA, h.connecting d openB] at alone
        rcases alone with absent | absent <;> contradiction
    | connecting c =>
      cases b with
      | conn j =>
        rw [h.connecting c openA, h.live j openB] at alone
        rcases alone with absent | absent <;> contradiction
      | connecting d =>
        rw [Option.some.inj ((h.connecting c openA).symm.trans (h.connecting d openB))]
  · cases a with
    | conn i => exact heldConn i (h.live i openA)
    | connecting c => exact heldClient c (h.connecting c openA)
  · have dead : ¬ w.Live i := fun live => other (heldConn i (h.live i live))
    unfold step
    split
    · exact ⟨rfl, rfl⟩
    · have same : (w.entering writes).read i result = w.entering writes := if_neg dead
      simp only [handle, same]
      exact ⟨rfl, rfl⟩

theorem phaseSingle {w : World} (h : Phase w) : Single w := by
  cases h with
  | quiet only => exact onlySingle only (.inl rfl) nofun nofun
  | retrying c held only => exact onlySingle only (.inl rfl) nofun nofun
  | connecting c held only =>
    exact onlySingle only (.inl rfl) nofun fun d same => Option.some.inj same ▸ held
  | connected i held only =>
    exact onlySingle only (.inr rfl) (fun j same => Option.some.inj same ▸ held) nofun

/-! What an open connection, a connecting client and a due retry say of the phase. -/

theorem phaseOpen {w : World} (h : Phase w) {i : ConnId} (live : w.Live i) :
    w.source.conn = some i ∧ w.Only (some i) none [] := by
  cases h with
  | connected j held only =>
    obtain rfl := Option.some.inj (only.live i live)
    exact ⟨held, only⟩
  | quiet only | retrying _ _ only | connecting _ _ only => exact absurd (only.live i live) nofun

theorem phaseConnecting {w : World} (h : Phase w) {c : ClientId}
    (open_ : (w.clients c).connecting = true) :
    w.source.client = some c ∧ w.Only none (some c) [] := by
  cases h with
  | connecting d held only =>
    obtain rfl := Option.some.inj (only.connecting c open_)
    exact ⟨held, only⟩
  | quiet only | retrying _ _ only | connected _ _ only =>
    exact absurd (only.connecting c open_) nofun

theorem phaseRetrying {w : World} (h : Phase w) {c : ClientId} (due : c ∈ w.retries) :
    w.source.client = some c ∧ w.Only none none [c] := by
  cases h with
  | retrying d held only =>
    rw [only.retries] at due
    obtain rfl := List.mem_singleton.mp due
    exact ⟨held, only⟩
  | quiet only | connecting _ _ only | connected _ _ only =>
    rw [only.retries] at due
    contradiction

theorem connectPhase {w : World} {c : ClientId} (held : w.source.client = some c)
    (h : w.Only none none []) (result : ConnectResult) : Phase (w.connect c result) := by
  obtain ⟨noTimers, noTasks⟩ := List.append_eq_nil_iff.mp h.retries
  have timed : Phase ((w.note (.connect c)).addTimer (.connect c)) := by
    refine .retrying c held ⟨h.live, h.connecting, ?_⟩
    simp [retries, addTimer, note, noTimers, noTasks, connectRetry]
  cases result with
  | resolveFailed =>
    refine .retrying c held ⟨h.live, h.connecting, ?_⟩
    simp [connect, retries, postRetry, note, noTimers, noTasks]
  | socketFailed => exact timed
  | refused => exact timed
  | inProgress =>
    refine .connecting c held ⟨h.live, fun d open_ => ?_, h.retries⟩
    rcases eq_or_ne d c with rfl | differ
    · rfl
    · simp only [connect, setConnecting] at open_
      rw [setClientOther _ differ] at open_
      exact absurd (h.connecting d open_).symm (Option.some_ne_none d)
  | immediate =>
    have ready : (w.note (.connect c)).Only none (some c) [] :=
      ⟨h.live, fun d open_ => absurd (h.connecting d open_).symm (Option.some_ne_none d), h.retries⟩
    obtain ⟨holds, only⟩ := handleConnectOnly ready
    exact .connected _ holds only

theorem phaseIdle {w : World} (h : Phase w) (nothing : ∀ i, ¬ w.Live i) (due : w.retries = []) :
    ∃ connecting, w.Only none connecting [] ∧ ∀ c, connecting = some c → w.source.client = some c := by
  cases h with
  | quiet only => exact ⟨none, only, nofun⟩
  | retrying c held only => exact ⟨none, ⟨only.live, only.connecting, due⟩, nofun⟩
  | connecting c held only => exact ⟨some c, only, fun d same => Option.some.inj same ▸ held⟩
  | connected i held only =>
    exact ⟨none, ⟨fun j live => absurd live (nothing j), only.connecting, due⟩, nofun⟩

theorem idlePhase {w : World} {connecting : Option ClientId} (h : w.Only none connecting [])
    (owned : ∀ c, connecting = some c → w.source.client = some c) : Phase w := by
  cases connecting with
  | none => exact .quiet h
  | some c => exact .connecting c (owned c rfl) h

theorem upstreamPhase {w : World} {connecting : Option ClientId} (h : w.Only none connecting [])
    (owned : ∀ c, connecting = some c → w.source.client = some c) (result : ConnectResult) :
    Phase (w.connectToUpstream result) := by
  unfold connectToUpstream
  split
  · exact idlePhase h owned
  · obtain ⟨held, only⟩ := makeClientOnly (dropClientOnly h owned)
    have fresh : w.dropClient.nextClient = w.nextClient := by
      unfold dropClient
      split <;> rfl
    rw [fresh] at held
    exact connectPhase held only result

theorem expirePhase {w : World} {t : Timer} {connecting : Option ClientId}
    (h : w.Only none connecting []) (owned : ∀ c, connecting = some c → w.source.client = some c)
    (kind : t = .reconnect ∨ t = .retry404) (result : ConnectResult) : Phase (w.expire result t) := by
  have set : (w.setState .connecting).Only none connecting [] := ⟨h.live, h.connecting, h.retries⟩
  rcases kind with rfl | rfl
  · exact upstreamPhase set owned result
  · simp only [expire]
    split
    · exact idlePhase h owned
    · exact upstreamPhase set owned result

theorem phaseTaken {w : World} (h : Phase w) {n : Nat} {c : ClientId}
    (found : w.timers[n]? = some (.connect c)) :
    w.source.client = some c ∧ (w.takeTimer n).Only none none [] := by
  obtain ⟨before, after, whole, erased⟩ := retriesErase found
  have member : c ∈ w.retries := by simp [whole, connectRetry]
  obtain ⟨held, only⟩ := phaseRetrying h member
  rw [only.retries] at whole
  have size := congrArg List.length whole
  simp only [List.length_append, connectRetry, Option.toList_some, List.length_singleton] at size
  refine ⟨held, only.live, only.connecting, ?_⟩
  rw [erased]
  exact List.eq_nil_of_length_eq_zero (by simp only [List.length_append]; omega)

theorem phaseFire {w : World} (h : Phase w) {n : Nat}
    (finds : (w.timers[n]? = some .reconnect ∨ w.timers[n]? = some .retry404) →
      (∀ i, ¬ w.Live i) ∧ w.retries = []) (result : ConnectResult) : Phase (w.fire n result) := by
  unfold fire
  cases found : w.timers[n]? with
  | none => exact h
  | some t =>
    obtain ⟨before, after, whole, erased⟩ := retriesErase found
    have upstream : t = .reconnect ∨ t = .retry404 → Phase ((w.takeTimer n).expire result t) := by
      intro kind
      have timer : w.timers[n]? = some .reconnect ∨ w.timers[n]? = some .retry404 := by
        rcases kind with rfl | rfl
        · exact .inl found
        · exact .inr found
      obtain ⟨nothing, due⟩ := finds timer
      obtain ⟨connecting, only, owned⟩ := phaseIdle h nothing due
      have left : (w.takeTimer n).retries = [] := by
        rw [due] at whole
        rcases kind with rfl | rfl <;> simpa [erased, connectRetry] using whole.symm
      have taken : (w.takeTimer n).Only none connecting [] := ⟨only.live, only.connecting, left⟩
      exact expirePhase taken owned kind result
    cases t with
    | reconnect => exact upstream (.inl rfl)
    | retry404 => exact upstream (.inr rfl)
    | connect c =>
      obtain ⟨held, taken⟩ := phaseTaken h found
      have sameClient : (w.takeTimer n).source.client = some c := held
      exact connectPhase sameClient taken result

theorem phaseTask {w : World} (h : Phase w) : Phase w.runTask := by
  unfold runTask
  cases posted : w.tasks with
  | nil => exact h
  | cons c rest =>
    have member : c ∈ w.retries := by simp [retries, posted]
    obtain ⟨held, only⟩ := phaseRetrying h member
    refine .retrying c held ⟨only.live, only.connecting, ?_⟩
    have whole := only.retries
    rw [retries, posted] at whole
    simpa [retries, addTimer, connectRetry, List.filterMap_append] using whole

theorem phaseWritable {w : World} (h : Phase w) (c : ClientId) (failed : Bool) :
    Phase (w.writable c failed) := by
  unfold writable
  split
  · rename_i open_
    obtain ⟨held, only⟩ := phaseConnecting h open_
    cases failed with
    | false =>
      obtain ⟨holds, opened⟩ := handleConnectOnly only
      exact .connected _ holds opened
    | true =>
      obtain ⟨noTimers, noTasks⟩ := List.append_eq_nil_iff.mp only.retries
      refine .retrying c held ⟨only.live, fun e still => ?_, ?_⟩
      · rcases eq_or_ne e c with rfl | differ
        · simp only [addTimer, setConnecting, if_true] at still
          rw [setClientSame] at still
          contradiction
        · simp only [addTimer, setConnecting, if_true] at still
          rw [setClientOther _ differ] at still
          exact absurd (Option.some.inj (only.connecting e still)).symm differ
      · simp [retries, addTimer, setConnecting, setClient, noTimers, noTasks, connectRetry]
  · exact h

theorem endedOnly {w : World} {i : ConnId} (h : w.Only (some i) none []) {up : Upstream}
    (ended : up.registered = false) : (w.setConn i up).Only none none [] := by
  refine ⟨fun j live => ?_, h.connecting, h.retries⟩
  rcases eq_or_ne j i with rfl | differ
  · rw [Live, setConnSame, ended] at live
    exact absurd live.1 (by decide)
  · rw [Live, setConnOther _ differ] at live
    exact absurd (Option.some.inj (h.live j live)).symm differ

theorem clientClosedOnly {w : World} (h : w.Only none none []) (c : ClientId) :
    (w.clientClosed c).Only none none [] := by
  have scheduled : w.dropConn.scheduleReconnect.Only none none [] := by
    unfold scheduleReconnect
    split
    · exact ⟨h.live, h.connecting, h.retries⟩
    · refine ⟨h.live, h.connecting, ?_⟩
      have before := h.retries
      simpa [retries, addTimer, setState, dropConn, connectRetry] using before
  refine ⟨scheduled.live, fun d open_ => ?_, scheduled.retries⟩
  rcases eq_or_ne d c with rfl | differ
  · rw [clientClosed, forgetConn, setClientSame] at open_
    exact scheduled.connecting d open_
  · rw [clientClosed, forgetConn, setClientOther _ differ] at open_
    exact scheduled.connecting d open_

theorem phaseRead {w : World} (h : Phase w) (i : ConnId) (result : ReadResult) :
    Phase (w.read i result) := by
  unfold World.read
  split
  · rename_i live
    obtain ⟨held, only⟩ := phaseOpen h live
    cases result with
    | data chunk =>
      have steady := handleMessageSteady w i ((w.conns i).tcp.inputBuf.append chunk)
      exact .connected i (steady.conn.trans held) (steadyOnly steady only)
    | eof => exact .quiet (clientClosedOnly (endedOnly only rfl) _)
    | again => exact .connected i held only
    | error => exact .quiet (endedOnly only rfl)
  · exact h

theorem phaseOf {w after : World} (h : Phase w) (conn : after.source.conn = w.source.conn)
    (client : after.source.client = w.source.client) (conns : after.conns = w.conns)
    (clients : after.clients = w.clients) (due : after.retries = w.retries) : Phase after := by
  have moved : ∀ {conn connecting retries}, w.Only conn connecting retries →
      after.Only conn connecting retries := by
    intro _ _ _ only
    refine ⟨fun i live => only.live i ?_, by rw [clients]; exact only.connecting,
      due.trans only.retries⟩
    rw [Live, conns] at live
    exact live
  cases h with
  | quiet only => exact .quiet (moved only)
  | retrying c held only => exact .retrying c (client.trans held) (moved only)
  | connecting c held only => exact .connecting c (client.trans held) (moved only)
  | connected i held only => exact .connected i (conn.trans held) (moved only)

theorem phaseStep {w : World} {input : Input} (h : Phase w) (finds : FindsNothingOpen w input) :
    Phase (w.step input) := by
  obtain ⟨event, connect, writes⟩ := input
  unfold step
  split
  · exact phaseOf h rfl rfl rfl rfl rfl
  · have begun : Phase (w.entering writes) := phaseOf h rfl rfl rfl rfl rfl
    cases event with
    | writable c failed => exact phaseWritable begun c failed
    | read i result => exact phaseRead begun i result
    | fire n => exact phaseFire begun finds connect
    | runTask => exact phaseTask begun

theorem phaseStart (order : HeaderOrder) (upstreamUrl streamPath : Bytes) (connect : ConnectResult)
    (writes : List WriteResult) :
    Phase ((create order upstreamUrl streamPath).start connect writes) := by
  have none : ((((create order upstreamUrl streamPath).entering writes).setStopping false).setState
      .connecting).Only none none [] := by
    refine ⟨fun i live => ?_, fun c open_ => ?_, rfl⟩
    · exact absurd live.1 Bool.false_ne_true
    · exact absurd open_ Bool.false_ne_true
  exact upstreamPhase none nofun connect

theorem replacedNotDoubled (order : HeaderOrder) (upstreamUrl streamPath : Bytes)
    (connect : ConnectResult) (writes : List WriteResult) (inputs : List Input)
    (finds : Throughout step FindsNothingOpen
      ((create order upstreamUrl streamPath).start connect writes) inputs) :
    Always step Single ((create order upstreamUrl streamPath).start connect writes) inputs :=
  alwaysAlong (fun _ _ => phaseStep) (fun _ => phaseSingle)
    (phaseStart order upstreamUrl streamPath connect writes) finds

/-! One camera: its first connection ends and is replaced after 3 s. -/
def camera : World := create insertionOrder (ascii "rtsp://10.0.0.9/cam") (ascii "/cam")

theorem sentSome : 0 < 4096 := by decide

def sent : List WriteResult := [.wrote 4096 sentSome]

def endedAndReplaced : List Input :=
  [⟨.writable 0 false, .inProgress, sent⟩, ⟨.read 0 .eof, .inProgress, []⟩, ⟨.fire 0, .inProgress, []⟩]

theorem endedAndReplacedSingle : Always step Single (camera.start .inProgress []) endedAndReplaced := by
  refine replacedNotDoubled insertionOrder _ _ .inProgress [] endedAndReplaced
    ⟨trivial, trivial, fun _ => ⟨fun i live => ?_, rfl⟩, trivial⟩
  cases i with
  | zero => exact absurd live.1 Bool.false_ne_true
  | succ n => exact absurd live.1 Bool.false_ne_true

/-! The 404 leaves the connection open; the 5 s timer connects a second time. -/
def retriedAfter404 : List Input :=
  [⟨.writable 0 false, .inProgress, sent⟩,
    ⟨.read 0 (.data (ascii "RTSP/1.0 404 Not Found\r\nCSeq: 1\r\n\r\n")), .inProgress, []⟩,
    ⟨.fire 0, .inProgress, []⟩, ⟨.writable 1 false, .inProgress, sent⟩]

theorem retriedAfter404Doubles :
    ¬ ∀ (order : HeaderOrder) (upstreamUrl streamPath : Bytes) (connect : ConnectResult)
      (writes : List WriteResult) (inputs : List Input),
      Always step Single ((create order upstreamUrl streamPath).start connect writes) inputs := by
  intro always
  have last : Single (run step (camera.start .inProgress []) retriedAfter404) :=
    alwaysLast (always insertionOrder _ _ .inProgress [] retriedAfter404)
  have first : Open (run step (camera.start .inProgress []) retriedAfter404) (.conn 0) := by
    unfold Open
    decide
  have second : Open (run step (camera.start .inProgress []) retriedAfter404) (.conn 1) := by
    unfold Open
    decide
  exact absurd (last.one _ _ first second) (by decide)

end RtspRelay.Replacement
