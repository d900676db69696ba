import RtspRelay.General.Transition
import RtspRelay.Source

/-! What the calls of a source do to its sockets. Answering the upstream opens
nothing; only connecting does. -/
namespace RtspRelay.Source
open Machine Buffer Protocol Connection Transition

namespace World

def connectRetry : Timer → Option ClientId
  | .connect c => some c
  | _ => none

-- The clients whose connect is due, as a timer or as a posted task.
def retries (w : World) : List ClientId := w.timers.filterMap connectRetry ++ w.tasks

/-! What every message handler leaves alone: no socket is opened, no client or
connection replaced, no connect scheduled. -/
structure Steady (w after : World) : Prop where
  client : after.source.client = w.source.client
  conn : after.source.conn = w.source.conn
  stopping : after.source.stopping = w.source.stopping
  clients : after.clients = w.clients
  retries : after.retries = w.retries
  live : ∀ i, after.Live i → w.Live i

theorem steadyRefl (w : World) : Steady w w := ⟨rfl, rfl, rfl, rfl, rfl, fun _ => id⟩

theorem steadyTrans {w mid after : World} (first : Steady w mid) (last : Steady mid after) :
    Steady w after :=
  ⟨last.client.trans first.client, last.conn.trans first.conn, last.stopping.trans first.stopping,
    last.clients.trans first.clients, last.retries.trans first.retries,
    fun i live => first.live i (last.live i live)⟩

@[simp] theorem setConnSame (w : World) (i : ConnId) (up : Upstream) :
    (w.setConn i up).conns i = up := by
  simp only [setConn, Function.update_self]

theorem setConnOther (w : World) {i j : ConnId} (differ : j ≠ i) (up : Upstream) :
    (w.setConn i up).conns j = w.conns j := by
  simp only [setConn, Function.update_of_ne differ]

@[simp] theorem setClientSame (w : World) (c : ClientId) (client : TcpClient) :
    (w.setClient c client).clients c = client := by
  simp only [setClient, Function.update_self]

theorem setClientOther (w : World) {c d : ClientId} (differ : d ≠ c) (client : TcpClient) :
    (w.setClient c client).clients d = w.clients d := by
  simp only [setClient, Function.update_of_ne differ]

theorem setConnLive {w : World} {i : ConnId} {up : Upstream}
    (only : up.registered = true → 0 ≤ up.tcp.fd → w.Live i) (j : ConnId)
    (live : (w.setConn i up).Live j) : w.Live j := by
  rcases eq_or_ne j i with rfl | differ
  · rw [Live, setConnSame] at live
    exact only live.1 live.2
  · rw [Live, setConnOther w differ] at live
    exact live

theorem sendSteady (w : World) (i : ConnId) (data : Bytes) : Steady w (w.send i data) := by
  unfold send
  dsimp only
  split
  · refine ⟨rfl, rfl, rfl, rfl, rfl, setConnLive fun registered open_ => ?_⟩
    rcases (w.conns i).tcp.sendDescriptor data (w.writes.headD .again) with same | closed
    · exact ⟨(Bool.and_eq_true_iff.mp registered).1, same ▸ open_⟩
    · rw [closed] at open_
      exact absurd open_ (by decide)
  · exact steadyRefl w

theorem sendRequestSteady (w : World) (request : Nat → RtspMessage) :
    Steady w (w.sendRequest request) := by
  unfold sendRequest
  dsimp only
  split
  · exact ⟨rfl, rfl, rfl, rfl, rfl, fun _ => id⟩
  · rename_i i held
    have sent := sendSteady { w with source := { w.source with cseq := (w.source.cseq + 1) % 2 ^ 32 } }
      i (serialize w.order (request ((w.source.cseq + 1) % 2 ^ 32)))
    exact ⟨sent.client, sent.conn, sent.stopping, sent.clients, sent.retries, sent.live⟩

theorem setStateSteady (w : World) (state : State) : Steady w (w.setState state) :=
  ⟨rfl, rfl, rfl, rfl, rfl, fun _ => id⟩

theorem noteSteady (w : World) (resp : RtspMessage) :
    Steady w (w.noteSession resp) ∧ Steady w (w.noteChannels resp) := by
  unfold noteSession noteChannels
  constructor
  · split <;> exact ⟨rfl, rfl, rfl, rfl, rfl, fun _ => id⟩
  · split <;> exact ⟨rfl, rfl, rfl, rfl, rfl, fun _ => id⟩

theorem advanceSteady (w : World) (resp : RtspMessage) : Steady w (w.advance resp) := by
  unfold advance
  split
  · exact steadyTrans (setStateSteady w _) (sendRequestSteady _ _)
  · have described : Steady w { w with source := { w.source with sdp := resp.sdp } } :=
      ⟨rfl, rfl, rfl, rfl, rfl, fun _ => id⟩
    exact steadyTrans described (steadyTrans (setStateSteady _ _) (sendRequestSteady _ _))
  · exact steadyTrans (noteSteady w resp).2
      (steadyTrans (setStateSteady _ _) (sendRequestSteady _ _))
  · exact steadyRefl w

theorem handleResponseSteady (w : World) (resp : RtspMessage) : Steady w (w.handleResponse resp) := by
  unfold handleResponse
  split
  · split
    · refine ⟨rfl, rfl, rfl, rfl, ?_, fun _ => id⟩
      simp [retries, addTimer, connectRetry]
    · exact steadyRefl w
  · exact steadyTrans (noteSteady w resp).1 (advanceSteady _ resp)

theorem onUnitSteady (w : World) (u : Decoders.StreamUnit) :
    Steady w (Decoders.onUnit handleInterleavedData handleResponse w u) := by
  cases u with
  | interleaved channel payload => exact ⟨rfl, rfl, rfl, rfl, rfl, fun _ => id⟩
  | message msg => exact handleResponseSteady w msg

theorem afterMessagesSteady (i : ConnId) (ended : Decoders.LoopEnd World) :
    Steady ended.1 (afterMessages i ended) := by
  obtain ⟨w, rest⟩ := ended
  cases rest with
  | ok rest =>
    refine ⟨rfl, rfl, rfl, rfl, rfl, ?_⟩
    exact setConnLive fun registered open_ => ⟨registered, open_⟩
  | error e => exact ⟨rfl, rfl, rfl, rfl, rfl, fun _ => id⟩

theorem handleMessageSteady (w : World) (i : ConnId) (buf : ByteBuffer) :
    Steady w (w.handleMessage i buf) := by
  have steady : Steady w (Decoders.handleMessage handleInterleavedData handleResponse w buf).1 := by
    rw [Decoders.handleMessageRuns]
    exact runInvariant (fun s u before => steadyTrans before (onUnitSteady s u)) (steadyRefl w) _
  exact steadyTrans steady (afterMessagesSteady i _)

theorem onConnectSteady (w : World) (i : ConnId) :
    (w.onConnect i).source.conn = some i ∧ (w.onConnect i).clients = w.clients ∧
      (w.onConnect i).retries = w.retries ∧ ∀ j, (w.onConnect i).Live j → w.Live j := by
  have sent := sendRequestSteady
    { w with source := { w.source with conn := some i, state := .options, cseq := 0 } }
    (optionsRequest w.source.upstreamUrl)
  exact ⟨sent.conn, sent.clients, sent.retries, sent.live⟩

/-! The sockets of a source: at most the ones named here. -/
structure Only (w : World) (conn : Option ConnId) (connecting : Option ClientId)
    (retries : List ClientId) : Prop where
  live : ∀ i, w.Live i → conn = some i
  connecting : ∀ c, (w.clients c).connecting = true → connecting = some c
  retries : w.retries = retries

theorem steadyOnly {w after : World} (steady : Steady w after) {conn : Option ConnId}
    {connecting : Option ClientId} {retries : List ClientId} (h : Only w conn connecting retries) :
    Only after conn connecting retries :=
  ⟨fun i live => h.live i (steady.live i live), by rw [steady.clients]; exact h.connecting,
    steady.retries.trans h.retries⟩

theorem openConnOnly {w : World} {c : ClientId} (h : Only w none (some c) []) :
    Only (w.openConn c) none none [] := by
  refine ⟨fun i live => h.live i ?_, fun d connecting => ?_, h.retries⟩
  · refine setConnLive (fun registered _ => ?_) i live
    contradiction
  · rcases eq_or_ne d c with rfl | differ
    · rw [openConn, setClientSame] at connecting
      contradiction
    · rw [openConn, setClientOther _ differ] at connecting
      exact absurd (Option.some.inj (h.connecting d connecting)) (Ne.symm differ)

theorem handleConnectOnly {w : World} {c : ClientId} (h : Only w none (some c) []) :
    (w.handleConnect c).source.conn = some w.nextConn ∧
      Only (w.handleConnect c) (some w.nextConn) none [] := by
  have fresh := openConnOnly h
  obtain ⟨held, clients, retries, live⟩ := onConnectSteady (w.openConn c) w.nextConn
  refine ⟨held, fun j open_ => ?_, fun d connecting => ?_, retries.trans fresh.retries⟩
  · rcases eq_or_ne j w.nextConn with rfl | differ
    · rfl
    · rw [Live, handleConnect, register, setConnOther _ differ] at open_
      exact absurd (fresh.live j (live j open_)) nofun
  · rw [handleConnect, register, setConn, clients] at connecting
    exact fresh.connecting d connecting

theorem dropClientOnly {w : World} {conn : Option ConnId} {connecting : Option ClientId}
    {retries : List ClientId} (h : Only w conn connecting retries)
    (owned : ∀ c, connecting = some c → w.source.client = some c) :
    Only w.dropClient conn none retries := by
  unfold dropClient
  cases held : w.source.client with
  | none =>
    refine ⟨h.live, fun c open_ => ?_, h.retries⟩
    rw [owned c (h.connecting c open_)] at held
    contradiction
  | some c =>
    refine ⟨h.live, fun d open_ => ?_, h.retries⟩
    rcases eq_or_ne d c with rfl | differ
    · dsimp only at open_
      rw [setClientSame] at open_
      contradiction
    · dsimp only at open_
      rw [setClientOther _ differ] at open_
      have same := owned d (h.connecting d open_)
      rw [held] at same
      exact absurd (Option.some.inj same).symm differ

theorem makeClientOnly {w : World} {conn : Option ConnId} {retries : List ClientId}
    (h : Only w conn none retries) :
    w.makeClient.source.client = some w.nextClient ∧ Only w.makeClient conn none retries := by
  refine ⟨rfl, h.live, fun d open_ => ?_, h.retries⟩
  rcases eq_or_ne d w.nextClient with rfl | differ
  · rw [makeClient, setClientSame] at open_
    contradiction
  · rw [makeClient, setClientOther _ differ] at open_
    exact h.connecting d open_

theorem retriesErase {w : World} {n : Nat} {t : Timer} (found : w.timers[n]? = some t) :
    ∃ before after, w.retries = before ++ (connectRetry t).toList ++ after ∧
      (w.takeTimer n).retries = before ++ after := by
  obtain ⟨bound, rfl⟩ := List.getElem?_eq_some_iff.mp found
  refine ⟨(w.timers.take n).filterMap connectRetry,
    (w.timers.drop (n + 1)).filterMap connectRetry ++ w.tasks, ?_, ?_⟩
  · have whole : w.timers = w.timers.take n ++ w.timers[n] :: w.timers.drop (n + 1) := by
      rw [List.getElem_cons_drop, List.take_append_drop]
    unfold retries
    conv => lhs; rw [whole]
    rw [List.filterMap_append, List.filterMap_cons]
    cases connectRetry w.timers[n] <;> simp
  · simp only [retries, takeTimer, List.eraseIdx_eq_take_drop_succ, List.filterMap_append, List.append_assoc]

/-! No callback renames the stream of a source or stops it. -/
structure Lasting (w after : World) : Prop where
  stopping : after.source.stopping = w.source.stopping
  streamPath : after.source.streamPath = w.source.streamPath

theorem lastingRefl (w : World) : Lasting w w := ⟨rfl, rfl⟩

theorem lastingTrans {w mid after : World} (first : Lasting w mid) (last : Lasting mid after) :
    Lasting w after :=
  ⟨last.stopping.trans first.stopping, last.streamPath.trans first.streamPath⟩

theorem sendRequestLasting (w : World) (request : Nat → RtspMessage) :
    Lasting w (w.sendRequest request) := by
  unfold sendRequest send
  dsimp only
  split
  · exact ⟨rfl, rfl⟩
  · split <;> exact ⟨rfl, rfl⟩

theorem advanceLasting (w : World) (resp : RtspMessage) : Lasting w (w.advance resp) := by
  unfold advance
  split
  · have asking : Lasting w (w.setState .describe) := ⟨rfl, rfl⟩
    exact lastingTrans asking (sendRequestLasting _ _)
  · have described : Lasting w ({ w with source := { w.source with sdp := resp.sdp } }.setState .setup) :=
      ⟨rfl, rfl⟩
    exact lastingTrans described (sendRequestLasting _ _)
  · have noted : Lasting w ((w.noteChannels resp).setState .playing) := by
      unfold noteChannels
      split <;> exact ⟨rfl, rfl⟩
    exact lastingTrans noted (sendRequestLasting _ _)
  · exact lastingRefl w

theorem handleResponseLasting (w : World) (resp : RtspMessage) :
    Lasting w (w.handleResponse resp) := by
  unfold handleResponse
  split
  · split <;> exact ⟨rfl, rfl⟩
  · have noted : Lasting w (w.noteSession resp) := by
      unfold noteSession
      split <;> exact ⟨rfl, rfl⟩
    exact lastingTrans noted (advanceLasting _ resp)

theorem handleMessageLasting (w : World) (i : ConnId) (buf : ByteBuffer) :
    Lasting w (w.handleMessage i buf) := by
  have handled : Lasting w (Decoders.handleMessage handleInterleavedData handleResponse w buf).1 := by
    rw [Decoders.handleMessageRuns]
    refine runInvariant (fun before u lasting => lastingTrans lasting ?_) (lastingRefl w) _
    cases u with
    | interleaved channel payload => exact ⟨rfl, rfl⟩
    | message msg => exact handleResponseLasting before msg
  refine lastingTrans handled ?_
  unfold handleMessage afterMessages
  split <;> (rename_i same; rw [same]; exact ⟨rfl, rfl⟩)

theorem handleConnectLasting (w : World) (c : ClientId) : Lasting w (w.handleConnect c) := by
  have opened : Lasting w { w.openConn c with
      source := { w.source with conn := some w.nextConn, state := .options, cseq := 0 } } := ⟨rfl, rfl⟩
  have asked := lastingTrans opened (sendRequestLasting _ (optionsRequest w.source.upstreamUrl))
  exact ⟨asked.stopping, asked.streamPath⟩

theorem connectLasting (w : World) (c : ClientId) (result : ConnectResult) :
    Lasting w (w.connect c result) := by
  cases result with
  | immediate =>
    have noted : Lasting w (w.note (.connect c)) := ⟨rfl, rfl⟩
    exact lastingTrans noted (handleConnectLasting _ c)
  | resolveFailed | socketFailed | refused | inProgress => exact ⟨rfl, rfl⟩

theorem upstreamLasting (w : World) (result : ConnectResult) :
    Lasting w (w.connectToUpstream result) := by
  unfold connectToUpstream
  split
  · exact lastingRefl w
  · have dropped : Lasting w w.dropClient := by
      unfold dropClient
      split <;> exact ⟨rfl, rfl⟩
    have made : Lasting w.dropClient w.dropClient.makeClient := ⟨rfl, rfl⟩
    exact lastingTrans (lastingTrans dropped made) (connectLasting _ _ result)

theorem fireLasting (w : World) (n : Nat) (result : ConnectResult) : Lasting w (w.fire n result) := by
  unfold fire
  split
  · exact lastingRefl w
  · rename_i t _
    have taken : Lasting w (w.takeTimer n) := ⟨rfl, rfl⟩
    refine lastingTrans taken ?_
    have retried : Lasting (w.takeTimer n) ((w.takeTimer n).setState .connecting) := ⟨rfl, rfl⟩
    cases t with
    | connect c => exact connectLasting _ c result
    | reconnect => exact lastingTrans retried (upstreamLasting _ result)
    | retry404 =>
      rw [expire]
      split
      · exact lastingRefl _
      · exact lastingTrans retried (upstreamLasting _ result)

theorem handleLasting (w : World) (connect : ConnectResult) (e : Event) :
    Lasting w (w.handle connect e) := by
  cases e with
  | writable c failed =>
    simp only [handle, writable]
    split
    · split
      · exact ⟨rfl, rfl⟩
      · exact handleConnectLasting w c
    · exact lastingRefl w
  | fire n => exact fireLasting w n connect
  | runTask =>
    simp only [handle, runTask]
    split <;> exact ⟨rfl, rfl⟩
  | read i result =>
    simp only [handle, read]
    split
    · cases result with
      | data chunk => exact handleMessageLasting w i _
      | eof =>
        simp only [clientClosed, scheduleReconnect]
        split <;> exact ⟨rfl, rfl⟩
      | again | error => exact ⟨rfl, rfl⟩
    · exact lastingRefl w

theorem stepLasting (w : World) (input : Input) : Lasting w (w.step input) := by
  unfold step
  split
  · exact ⟨rfl, rfl⟩
  · have entered : Lasting w (w.entering input.writes) := ⟨rfl, rfl⟩
    exact lastingTrans entered (handleLasting _ _ _)

end World
end RtspRelay.Source
