import RtspRelay.SourceSteps
import RtspRelay.Service

/-! What a removed source still does. `stop` drops the source's own pointers and
cancels nothing: an open connection keeps its read callback, a client its retry and
the callback of its connect, which is lost with the socket unless its event is already
in the batch, and the timer of a 404 answer a pointer that does not hold the source. A
source that has none of these when it is removed stays silent, and what is left pending
holds it. -/
namespace RtspRelay.Isolation
open Machine Protocol Manager Session Service Relay Transition
open Source (World ClientId ConnId ConnectResult Timer Event)
open Source.World (Only)
open Connection (WriteResult ReadResult)

-- No connect and no packet, whatever comes next; nothing reaches a session.
def Isolated (s : Relay) : Prop :=
  ∀ i, (s.sources i).source.stopping = true → ∀ input,
    ((s.sources i).step input).acts = [] ∧ (s.step (.source i input)).delivered = []

-- The one timer that shares the ownership of its source: no other may outlive it.
def Held (w : World) : Prop := ∀ t ∈ w.timers, t = .reconnect

def RemovedHeld (s : Relay) : Prop := ∀ i, (s.sources i).source.stopping = true → Held (s.sources i)

-- No open connection, no connect in progress, no retry of either kind.
def AtRest (w : World) : Prop :=
  (∀ i, ¬ w.Live i) ∧ (∀ c, (w.clients c).connecting = false) ∧ w.retries = [] ∧ Timer.retry404 ∉ w.timers

def RemovedAtRest (s : Relay) : Input → Prop
  | .removeStream path _ => ∀ i m, s.manager.removeStream path = some (i, m) → AtRest (s.sources i)
  | _ => True

/-! A stopped source with nothing open and nothing due. -/
structure Silent (w : World) : Prop where
  stopping : w.source.stopping = true
  only : Only w none none []
  held : Held w

theorem restHeld {w : World} (due : w.retries = []) (found : Timer.retry404 ∉ w.timers) : Held w := by
  intro t member
  cases t with
  | reconnect => rfl
  | retry404 => exact absurd member found
  | connect c =>
    have pending : c ∈ w.retries := List.mem_append_left _ (List.mem_filterMap.mpr ⟨_, member, rfl⟩)
    rw [due] at pending
    exact absurd pending List.not_mem_nil

theorem stopTimers (w : World) (writes : List WriteResult) : (w.stop writes).timers = w.timers := by
  unfold World.stop World.sendTeardown World.sendRequest World.send World.dropConn World.dropClient
  dsimp only
  repeat' split
  all_goals rfl

theorem stopSilent {w : World} (h : AtRest w) (writes : List WriteResult) : Silent (w.stop writes) := by
  obtain ⟨closed, still, due, found⟩ := h
  have idle : Only (((w.entering writes).setStopping true).setState .idle) none none [] :=
    ⟨fun i live => absurd live (closed i), fun c open_ => absurd (open_.symm.trans (still c)) Bool.noConfusion, due⟩
  have steady : World.Steady (((w.entering writes).setStopping true).setState .idle)
      (((w.entering writes).setStopping true).setState .idle).sendTeardown := by
    unfold World.sendTeardown
    split
    · exact World.sendRequestSteady _ _
    · exact World.steadyRefl _
  have torn := World.steadyOnly steady idle
  have dropped := World.dropClientOnly torn fun c held => absurd held.symm (Option.some_ne_none c)
  have stopping : (((w.entering writes).setStopping true).setState
      .idle).sendTeardown.dropClient.source.stopping = true := by
    unfold World.dropClient
    split <;> exact steady.stopping
  refine ⟨stopping, ⟨dropped.live, dropped.connecting, dropped.retries⟩, ?_⟩
  rw [Held, stopTimers]
  exact restHeld due found

theorem silentSame {w after : World} (h : Silent w) (stopping : after.source.stopping = w.source.stopping)
    (clients : after.clients = w.clients) (live : ∀ i, after.Live i → w.Live i)
    (retries : after.retries = w.retries) (timers : ∀ t ∈ after.timers, t ∈ w.timers) : Silent after where
  stopping := stopping.trans h.stopping
  only := ⟨fun i open_ => h.only.live i (live i open_), by rw [clients]; exact h.only.connecting,
    retries.trans h.only.retries⟩
  held t member := h.held t (timers t member)

-- Only a reconnect can be due, and it finds the source stopped.
theorem silentFire {w : World} (h : Silent w) (n : Nat) (result : ConnectResult) :
    Silent (w.fire n result) ∧ (w.fire n result).acts = w.acts := by
  unfold World.fire
  cases found : w.timers[n]? with
  | none => exact ⟨h, rfl⟩
  | some t =>
    obtain rfl := h.held t (List.mem_of_getElem? found)
    obtain ⟨before, after, whole, erased⟩ := World.retriesErase found
    have same : ((w.takeTimer n).setState .connecting).connectToUpstream result =
        (w.takeTimer n).setState .connecting := by
      rw [World.connectToUpstream, if_pos]
      exact h.stopping
    change Silent (((w.takeTimer n).setState .connecting).connectToUpstream result) ∧
      (((w.takeTimer n).setState .connecting).connectToUpstream result).acts = w.acts
    rw [same]
    refine ⟨silentSame h rfl rfl (fun _ => id) ?_ fun t => List.mem_of_mem_eraseIdx, rfl⟩
    exact erased.trans (whole.trans (congrArg (· ++ after) (List.append_nil before))).symm

theorem stepSilent {w : World} (h : Silent w) (input : Source.Input) :
    Silent (w.step input) ∧ (w.step input).acts = [] := by
  obtain ⟨event, connect, writes⟩ := input
  unfold World.step
  split
  · exact ⟨silentSame h rfl rfl (fun _ => id) rfl fun _ => id, rfl⟩
  · have begun : Silent (w.entering writes) := silentSame h rfl rfl (fun _ => id) rfl fun _ => id
    cases event with
    | writable c failed =>
      have closed : ¬ ((w.entering writes).clients c).connecting = true :=
        fun open_ => absurd (h.only.connecting c open_).symm (Option.some_ne_none c)
      simp only [World.handle, World.writable, if_neg closed]
      exact ⟨begun, rfl⟩
    | read i result =>
      have dead : ¬ (w.entering writes).Live i := fun live => absurd (h.only.live i live).symm (Option.some_ne_none i)
      have same : (w.entering writes).read i result = w.entering writes := if_neg dead
      simp only [World.handle, same]
      exact ⟨begun, rfl⟩
    | fire n => exact silentFire begun n connect
    | runTask =>
      have none : (w.entering writes).tasks = [] := (List.append_eq_nil_iff.mp h.only.retries).2
      simp only [World.handle, World.runTask, none]
      exact ⟨begun, rfl⟩

/-! Every removed source is silent. -/

def Stilled (s : Relay) : Prop := ∀ i, (s.sources i).source.stopping = true → Silent (s.sources i)

theorem stilledIsolated {s : Relay} (h : Stilled s) : Isolated s := by
  intro i stopping input
  have quiet := (stepSilent (h i stopping) input).2
  refine ⟨quiet, ?_⟩
  have same : (s.quiet.sources i).step input = (s.sources i).step input := rfl
  simp only [step, sourceStep, same, quiet]
  rfl

theorem stilledHeld {s : Relay} (h : Stilled s) : RemovedHeld s := fun i stopping => (h i stopping).held

theorem setSourceStilled {s : Relay} (h : Stilled s) (i : SourceId) {w : World}
    (silent : w.source.stopping = true → Silent w) : Stilled (s.setSource i w) := by
  intro j stopping
  rcases eq_or_ne j i with rfl | differ
  · simp only [setSource, Function.update_self] at stopping ⊢
    exact silent stopping
  · simp only [setSource, Function.update_of_ne differ] at stopping ⊢
    exact h j stopping

theorem stepStilled {s : Relay} {input : Input} (h : Stilled s) (rests : RemovedAtRest s input) :
    Stilled (s.step input) := by
  cases input with
  | addStream path url connect writes =>
    simp only [step, addStream]
    split
    · exact h
    · refine setSourceStilled (fun i => h i) _ fun stopping => ?_
      rw [World.start, (World.upstreamLasting _ connect).stopping] at stopping
      exact absurd stopping Bool.false_ne_true
  | removeStream path writes =>
    simp only [step, removeStream]
    split
    · exact h
    · rename_i i m removed
      exact setSourceStilled (fun i => h i) i fun _ => stopSilent (rests i m removed) writes
  | request self req udp => exact h
  | lost self => exact h
  | source i input =>
    refine setSourceStilled (fun i => h i) i fun stopping => ?_
    rw [(World.stepLasting _ input).stopping] at stopping
    exact (stepSilent (h i stopping) input).1

theorem alwaysIsolated (maxSources : Nat) (players : SessionId → Player) (order : HeaderOrder)
    (inputs : List Input)
    (rests : Throughout step RemovedAtRest (init maxSources players order) inputs) :
    Always step Isolated (init maxSources players order) inputs ∧
      Always step RemovedHeld (init maxSources players order) inputs := by
  have begins : Stilled (init maxSources players order) := fun _ stopping => absurd stopping Bool.false_ne_true
  exact ⟨alwaysAlong (fun _ _ => stepStilled) (fun _ => stilledIsolated) begins rests,
    alwaysAlong (fun _ _ => stepStilled) (fun _ => stilledHeld) begins rests⟩

/-! One camera, removed when its connection has ended and its reconnect is due. -/
def relay : Relay := init 500 (fun _ => ⟨ascii "10.0.0.7:5000", ascii "00000001"⟩) insertionOrder

def addCam (url : String) : Input := .addStream (ascii "/cam") (ascii url) .inProgress []

def connected : Source.Input := ⟨.writable 0 false, .inProgress, [.wrote 4096 (by decide)]⟩

def ended : Source.Input := ⟨.read 0 .eof, .inProgress, []⟩

def removedEnded : List Input :=
  [addCam "rtsp://10.0.0.9/cam", .source 0 connected, .source 0 ended, .removeStream (ascii "/cam") [],
    .source 0 ⟨.fire 0, .immediate, []⟩]

theorem removedEndedIsolated :
    Always step Isolated relay removedEnded ∧ Always step RemovedHeld relay removedEnded := by
  have rests : AtRest ((run step relay (removedEnded.take 3)).sources 0) := by
    refine ⟨fun i live => ?_, fun c => ?_, rfl, by decide⟩
    · cases i with
      | zero => exact absurd live.1 Bool.noConfusion
      | succ n => exact absurd live.1 Bool.noConfusion
    · cases c with
      | zero => rfl
      | succ n => rfl
  refine alwaysIsolated 500 _ insertionOrder removedEnded ⟨trivial, trivial, trivial, ?_, trivial, trivial⟩
  intro i m removed
  have first : some (i, m) = some (0, _) := removed.symm
  cases first
  exact rests

/-! Removed while connected and added again for another upstream: a frame of the
first connection reaches the player of the second stream. -/
def ask (method : RtspMethod) : Input :=
  .request 0 ({ type := .request, method, url := ascii "rtsp://relay/cam", cseq := 1 : RtspMessage }
    |>.set "Transport" (ascii "RTP/AVP/TCP;unicast;interleaved=0-1")) ⟨none, none⟩

def replaced : List Input :=
  [addCam "rtsp://10.0.0.9/cam", .source 0 connected,
    .removeStream (ascii "/cam") [.wrote 4096 (by decide)], addCam "rtsp://10.0.0.8/cam",
    ask .setup, ask .play]

def oldFrame : Source.Input := ⟨.read 0 (.data [36, 0, 0, 1, 7]), .inProgress, []⟩

theorem replacedNotIsolated :
    ¬ ∀ (maxSources : Nat) (players : SessionId → Player) (order : HeaderOrder) (inputs : List Input),
      Always step Isolated (init maxSources players order) inputs := by
  intro always
  have last : Isolated (run step relay replaced) := alwaysLast (always 500 _ insertionOrder replaced)
  have delivered : ((run step relay replaced).step (.source 0 oldFrame)).delivered =
      [(0, .interleaved [36, 0, 0, 1] [7])] := by decide
  have silent := (last 0 (by decide) oldFrame).2
  rw [delivered] at silent
  contradiction

end RtspRelay.Isolation
