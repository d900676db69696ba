import RtspRelay.HandshakeSides
import RtspRelay.Replacement

/-! The source's end of the handshake. Until its connection is there the source only
repeats its connect; after that it sends one request for each answer it reads. -/
namespace RtspRelay.HandshakeCaller
open Machine Buffer Protocol RoundTrip Source World Transition Decoders Exchange
open PrintedStream HandshakeScript HandshakeSides
open Connection (WriteResult ReadResult)
open Recovery (Connected Recovering recoveringOf)
open Replacement (Phase)

-- The callbacks of the loop that read nothing.
inductive Callback where
  | writable (c : ClientId) (failed : Bool)
  | fire (n : Nat)
  | runTask

def Callback.event : Callback → Event
  | .writable c failed => .writable c failed
  | .fire n => .fire n
  | .runTask => .runTask

def Callback.happening (connect : ConnectResult) : Callback → Happening
  | .writable c failed => .writable c failed
  | .fire n => .fire n connect
  | .runTask => .runTask

theorem callbackHappenings (w : World) (c : Callback) (connect : ConnectResult)
    (writes : List WriteResult) : happenings w (.event ⟨c.event, connect, writes⟩) =
      if w.crashed then [.enter []] else [.enter writes, c.happening connect] := by
  cases c <;> rfl

-- The requests of a log, the oldest first.
def sent : List Entry → List RtspMessage
  | [] => []
  | .asked _ req :: past => sent past ++ [req]
  | .answered _ _ :: past => sent past

theorem bytesSent (order : HeaderOrder) {log : List Entry} (only : ∀ i req, .asked i req ∈ log → i = 0) :
    bytesOn order 0 log = stream order ((sent log).map .message) := by
  induction log with
  | nil => rfl
  | cons entry past ih =>
    have before := ih fun i req asked => only i req (List.mem_cons_of_mem _ asked)
    cases entry with
    | answered i msg => exact before
    | asked i req =>
      rw [bytesOn, if_pos (only i req List.mem_cons_self), before, sent, List.map_append, stream, stream,
        List.flatMap_append]
      simp [bytes]

/-! What is kept as long as nothing fails, ends or is stopped. -/

def Peaceful : Happening → Prop
  | .enter writes => WriteResult.error ∉ writes
  | .ended _ | .broken _ | .stop _ => False
  | _ => True

structure Sound (order : HeaderOrder) (s : Watched) : Prop where
  recorded : Recorded s
  recovering : Recovering s.world
  order : s.world.order = order

theorem peacefulOrder {w : World} {hap : Happening} (peaceful : Peaceful hap) :
    (effect w hap).order = w.order := by
  have kept : Ordinary hap → (effect w hap).order = w.order := by
    intro ordinary
    have happened := happens w ordinary
    split at happened
    · exact happened.order
    · exact happened.order
  cases hap with
  | message i msg =>
    have effects : effect w (.message i msg) = w.handleResponse msg := rfl
    rw [effects]
    cases replies : reply w msg with
    | none => exact (silentIdle replies).order.trans (heardKept w msg).order
    | some req => exact (repliedSends replies).order.trans (readyKept w msg).order
  | enter | frame | stored | writable | fire | runTask => exact kept trivial
  | ended | broken | stop => exact peaceful.elim

theorem peacefulRecovering {w : World} (h : Recovering w) {hap : Happening} (peaceful : Peaceful hap) :
    Recovering (effect w hap) := by
  cases hap with
  | enter writes => exact recoveringOf h rfl peaceful rfl rfl id fun _ => .rfl
  | message i msg => exact Recovery.handleResponseRecovering h msg
  | frame i channel payload => exact Recovery.onUnitRecovering h (.interleaved channel payload)
  | stored i rest =>
    have ended : Recovering (w, rest).1 := h
    exact Recovery.afterMessagesRecovering i ended
  | writable c failed => exact Recovery.writableRecovering h c failed
  | fire n connect => exact Recovery.fireRecovering h n connect
  | runTask => exact Recovery.taskRecovering h
  | ended | broken | stop => exact peaceful.elim

theorem watchSound {order : HeaderOrder} {s : Watched} (h : Sound order s) {hap : Happening}
    (peaceful : Peaceful hap) : Sound order (watch s hap) :=
  ⟨watchRecorded h.recorded hap, peacefulRecovering h.recovering peaceful,
    (peacefulOrder peaceful).trans h.order⟩

theorem runSound {order : HeaderOrder} {s : Watched} (h : Sound order s) {hs : List Happening}
    (peaceful : ∀ hap ∈ hs, Peaceful hap) : Sound order (run watch s hs) := by
  induction hs generalizing s with
  | nil => exact h
  | cons hap rest ih =>
    obtain ⟨first, later⟩ := List.forall_mem_cons.mp peaceful
    exact ih (watchSound h first) later

/-! The source on its connection: `k` answers have been read. -/

section
variable {url id described : Bytes}

structure Asking (url id described : Bytes) (k : Nat) (s : Watched) : Prop where
  source : SourceAt url id described k s.world.source
  sent : sent s.log = (List.range (min (k + 1) 4)).map (asks url id)
  nextConn : s.world.nextConn = 1
  only : s.world.Only (some 0) none []
  timers : s.world.timers = []

theorem askingKept {k : Nat} {s after : Watched} (h : Asking url id described k s)
    (source : after.world.source = s.world.source) (log : after.log = s.log)
    (nextConn : after.world.nextConn = s.world.nextConn) (timers : after.world.timers = s.world.timers)
    (steady : Steady s.world after.world) : Asking url id described k after :=
  ⟨source ▸ h.source, log ▸ h.sent, nextConn.trans h.nextConn, steadyOnly steady h.only,
    timers.trans h.timers⟩

theorem enteredAsking {k : Nat} {s : Watched} (h : Asking url id described k s)
    (writes : List WriteResult) : Asking url id described k (watch s (.enter writes)) :=
  askingKept h rfl rfl rfl rfl ⟨rfl, rfl, rfl, rfl, rfl, fun _ live => live⟩

theorem messageAsking (text : IdText id) {k : Nat} {s : Watched} (h : Asking url id described k s)
    {msg : RtspMessage} (read : AnswerRead id described k msg) :
    Asking url id described (k + 1) (watch s (.message 0 msg)) := by
  obtain ⟨replies, source⟩ := answerHeard h.source text read
  have only := steadyOnly (handleResponseSteady s.world msg) h.only
  have kept := readyKept s.world msg
  rw [watchMessage, h.source.conn]
  by_cases small : k < 3
  · rw [if_pos small] at replies
    have sends := repliedSends replies
    refine ⟨source, ?_, sends.nextConn.trans (kept.nextConn.trans h.nextConn), only,
      sends.timers.trans (kept.timers.trans h.timers)⟩
    have here : min (k + 1) 4 = k + 1 := by omega
    have next : min (k + 1 + 1) 4 = k + 1 + 1 := by omega
    have before := h.sent
    rw [here] at before
    rw [replies, next, List.range_succ, List.map_append, ← before]
    rfl
  · rw [if_neg small] at replies
    have other : msg.statusCode ≠ 404 := by rw [read.ok]; decide
    have timers := (silentRest replies).2.2.2.2
    rw [if_neg other] at timers
    refine ⟨source, ?_, (silentIdle replies).nextConn.trans ((heardKept s.world msg).nextConn.trans
      h.nextConn), only, timers.trans h.timers⟩
    have same : min (k + 1 + 1) 4 = min (k + 1) 4 := by omega
    rw [replies, same]
    exact h.sent

theorem answersAsking (urlText : UrlText url) (text : IdText id) (order : HeaderOrder) {k l : Nat}
    {taken : List Piece} (carries : Carries (answers url id described) k l taken) {s : Watched}
    (h : Asking url id described k s) : Asking url id described l
      (run watch s ((taken.map (unitOf order)).map (unitHappening 0))) := by
  induction carries generalizing s with
  | done k => exact h
  | frame channel short rest ih =>
    exact ih (askingKept h rfl rfl rfl rfl ⟨rfl, rfl, rfl, rfl, rfl, fun _ live => live⟩)
  | message rest ih => exact ih (messageAsking text h (answerRead urlText text order described _))

theorem askingConnected {order : HeaderOrder} {k : Nat} {s : Watched} (sound : Sound order s)
    (h : Asking url id described k s) : Connected s.world 0 ∧
      (s.world.conns 0).tcp.accepted = stream order ((sent s.log).map .message) := by
  have talks : Recovery.Talks s.world.source.state := by
    rw [h.source.state]
    match k with
    | 0 | 1 | 2 | _ + 3 => exact ⟨nofun, nofun, nofun⟩
  obtain ⟨i, held, connected⟩ := sound.recovering.handshaking.talks talks
  rw [h.source.conn] at held
  cases held
  have first : ∀ i req, .asked i req ∈ s.log → i = 0 := by
    intro i req asked
    have known := sound.recorded.known i req asked
    rw [h.nextConn] at known
    exact Nat.lt_one_iff.mp known
  have bytes := sound.recorded.bytes 0 connected
  rw [sound.order, bytesSent order first] at bytes
  exact ⟨connected, bytes⟩

theorem storedAsking {k : Nat} {s : Watched} (h : Asking url id described k s)
    (rest : Except Exn ByteBuffer) : Asking url id described k (watch s (.stored 0 rest)) := by
  cases rest with
  | ok rest => exact askingKept h rfl rfl rfl rfl (afterMessagesSteady 0 (s.world, .ok rest))
  | error e => exact askingKept h rfl rfl rfl rfl (afterMessagesSteady 0 (s.world, .error e))

theorem readPeaceful (w : World) (buf : ByteBuffer) : ∀ hap ∈ readHappenings w 0 buf, Peaceful hap := by
  intro hap inside
  rcases List.mem_append.mp inside with unit | stored
  · obtain ⟨u, _, rfl⟩ := List.mem_map.mp unit
    cases u <;> trivial
  · rw [List.mem_singleton.mp stored]
    trivial

theorem storedBuffer (s : Watched) (rest : ByteBuffer) :
    ((watch s (.stored 0 (.ok rest))).world.conns 0).tcp.inputBuf = rest := by
  simp only [watch, effect, afterMessages, setConnSame]

theorem readCommands {w : World} (running : w.crashed = false) (live : w.Live 0) (chunk : Bytes)
    (connect : ConnectResult) (writes : List WriteResult) :
    happenings w (.event ⟨.read 0 (.data chunk), connect, writes⟩) =
      .enter writes :: readHappenings (w.entering writes) 0 ((w.conns 0).tcp.inputBuf.append chunk) := by
  have alive : (w.entering writes).Live 0 := live
  rw [happenings, running, if_neg Bool.false_ne_true, eventHappenings, if_pos alive]
  rfl

-- The answers `k` to `l` are on their way: in the source's buffer, and behind it.
def Awaiting (url id described : Bytes) (order : HeaderOrder) (k l : Nat) (w : World) (flight : Bytes) :
    Prop :=
  ∃ pieces, Carries (answers url id described) k l pieces ∧
    (w.conns 0).tcp.inputBuf.content ++ flight = stream order pieces

theorem readAsking (urlText : UrlText url) (text : IdText id) {order own : HeaderOrder}
    {k l : Nat} (printed : k < l → ∀ i, Plain order (.message (answers url id described i)))
    {s : Watched} (h : Asking url id described k s) (sound : Sound own s) (running : s.world.crashed = false)
    (live : s.world.Live 0) {chunk flight : Bytes}
    (awaits : Awaiting url id described order k l s.world (chunk ++ flight)) (connect : ConnectResult)
    {writes : List WriteResult} (works : WriteResult.error ∉ writes) {after : Watched}
    (reads : after = run watch s (happenings s.world (.event ⟨.read 0 (.data chunk), connect, writes⟩))) :
    ∃ m, k ≤ m ∧ m ≤ l ∧ Asking url id described m after ∧ Sound own after ∧
      (after.world.crashed = false → Awaiting url id described order m l after.world flight) := by
  obtain ⟨pieces, carries, whole⟩ := awaits
  have commands := readCommands running live chunk connect writes
  have entered := enteredAsking h writes
  have content : ((s.world.conns 0).tcp.inputBuf.append chunk).content =
      (s.world.conns 0).tcp.inputBuf.content ++ chunk := ByteBuffer.appendContent _ _
  rw [← List.append_assoc, ← content] at whole
  obtain ⟨taken, left, ends⟩ := decodePieces (carriesPlain printed carries) whole
  rw [ends.split] at carries
  obtain ⟨m, heard, awaited⟩ := carriesSplit carries
  have leaves := handleMessageLeaves handleInterleavedData handleResponse (s.world.entering writes)
    ((s.world.conns 0).tcp.inputBuf.append chunk)
  have sound' : Sound own after := by
    rw [reads, commands]
    exact runSound sound (List.forall_mem_cons.mpr ⟨works, readPeaceful _ _⟩)
  have asking := answersAsking urlText text order heard entered
  rw [commands, readHappenings, ends.units] at reads
  generalize (Decoders.handleMessage handleInterleavedData handleResponse (s.world.entering writes)
    ((s.world.conns 0).tcp.inputBuf.append chunk)).2 = rest at leaves reads
  have stored : after = watch (run watch (watch s (.enter writes))
      ((taken.map (unitOf order)).map (unitHappening 0))) (.stored 0 rest) := by
    rw [reads]
    exact runAppend (watch s (.enter writes)) _ [Happening.stored 0 rest]
  rw [stored] at sound' ⊢
  refine ⟨m, carriesLe heard, carriesLe awaited, storedAsking asking rest, sound', fun running => ?_⟩
  cases rest with
  | error e => contradiction
  | ok rest =>
    refine ⟨left, awaited, ?_⟩
    rw [storedBuffer]
    exact ends.rest rest.content leaves.symm

/-! The source before its connection is there. -/

def OnlyConnects (w : World) : Prop := ∀ t ∈ w.timers, ∃ c, t = .connect c

structure Waiting (url : Bytes) (s : Watched) : Prop where
  url : s.world.source.upstreamUrl = url
  sessionId : s.world.source.sessionId = []
  channels : s.world.source.rtpChannel = 0 ∧ s.world.source.rtcpChannel = 1
  resting : Resting s.world.source.state
  conn : s.world.source.conn = none
  nextConn : s.world.nextConn = 0
  conns : s.world.conns 0 = noConn
  log : s.log = []
  phase : Phase s.world
  timers : OnlyConnects s.world

theorem onlyAdd {w : World} (h : OnlyConnects w) (c : ClientId) : OnlyConnects (w.addTimer (.connect c)) := by
  intro t inside
  rcases List.mem_append.mp inside with old | new
  · exact h t old
  · exact ⟨c, List.mem_singleton.mp new⟩

theorem onlyTaken {w : World} (h : OnlyConnects w) (n : Nat) : OnlyConnects (w.takeTimer n) :=
  fun t inside => h t (List.mem_of_mem_eraseIdx inside)

theorem onlyOpened {w : World} (h : OnlyConnects w) (c : ClientId) : OnlyConnects (w.handleConnect c) := by
  have timers : (w.handleConnect c).timers = w.timers := (sendRequestSends _ _).timers
  rw [OnlyConnects, timers]
  exact h

theorem onlyConnected {w : World} (h : OnlyConnects w) (c : ClientId) (result : ConnectResult) :
    OnlyConnects (w.connect c result) := by
  cases result with
  | resolveFailed | inProgress => exact h
  | socketFailed | refused => exact onlyAdd h c
  | immediate =>
    have noted : OnlyConnects (w.note (.connect c)) := h
    exact onlyOpened noted c

theorem timersEmpty {w : World} (h : OnlyConnects w) (none : w.retries = []) : w.timers = [] := by
  obtain ⟨due, _⟩ := List.append_eq_nil_iff.mp none
  refine List.eq_nil_iff_forall_not_mem.mpr fun t inside => ?_
  obtain ⟨c, rfl⟩ := h t inside
  exact absurd (List.filterMap_eq_nil_iff.mp due _ inside) nofun

theorem dueConnect {w : World} (h : OnlyConnects w) {n : Nat} {t : Timer} (found : w.timers[n]? = some t) :
    ∃ c, t = .connect c := h t (List.mem_of_getElem? found)

theorem callbackPhase {w : World} (phase : Phase w) (timers : OnlyConnects w) (c : Callback)
    (connect : ConnectResult) :
    Phase (effect w (c.happening connect)) ∧ OnlyConnects (effect w (c.happening connect)) := by
  cases c with
  | writable c failed =>
    refine ⟨Replacement.phaseWritable phase c failed, ?_⟩
    simp only [Callback.happening, effect, World.writable]
    split
    · cases failed with
      | true => exact onlyAdd timers c
      | false => exact onlyOpened timers c
    · exact timers
  | fire n =>
    have noRetry : w.timers[n]? = some .reconnect ∨ w.timers[n]? = some .retry404 → False := by
      rintro (found | found)
      · obtain ⟨c, same⟩ := dueConnect timers found
        contradiction
      · obtain ⟨c, same⟩ := dueConnect timers found
        contradiction
    refine ⟨Replacement.phaseFire phase (fun retry => (noRetry retry).elim) connect, ?_⟩
    simp only [Callback.happening, effect, World.fire]
    split
    · exact timers
    · rename_i t found
      obtain ⟨c, rfl⟩ := dueConnect timers found
      exact onlyConnected (onlyTaken timers n) c connect
  | runTask =>
    refine ⟨Replacement.phaseTask phase, ?_⟩
    simp only [Callback.happening, effect, World.runTask]
    split
    · exact timers
    · exact onlyAdd timers _

/-! A callback that opens the connection ends in handleConnect; no other touches one. -/
theorem callbackOpens {w : World} (phase : Phase w) (timers : OnlyConnects w) {c : Callback}
    {connect : ConnectResult} (opening : opens w (c.happening connect) = true) :
    ∃ (v : World) (d : ClientId), effect w (c.happening connect) = v.handleConnect d ∧ v.Only none (some d) [] ∧
      v.nextConn = w.nextConn := by
  cases c with
  | writable c failed =>
    obtain ⟨connecting, works⟩ := Bool.and_eq_true_iff.mp opening
    refine ⟨w, c, ?_, (Replacement.phaseConnecting phase connecting).2, rfl⟩
    simp only [Callback.happening, effect, World.writable]
    rw [if_pos connecting, if_neg (by simpa using works)]
  | fire n =>
    obtain ⟨now, due⟩ := Bool.and_eq_true_iff.mp opening
    have immediate : connect = .immediate := of_decide_eq_true now
    subst immediate
    cases found : w.timers[n]? with
    | none =>
      rw [found] at due
      contradiction
    | some t =>
      obtain ⟨c, rfl⟩ := dueConnect timers found
      obtain ⟨_, only⟩ := Replacement.phaseTaken phase found
      refine ⟨(w.takeTimer n).note (.connect c), c, ?_, ⟨only.live, ?_, only.retries⟩, rfl⟩
      · simp only [Callback.happening, effect, World.fire, found]
        rfl
      · exact fun d open_ => absurd (only.connecting d open_).symm (Option.some_ne_none d)
  | runTask => contradiction

theorem callbackKeeps {w : World} (timers : OnlyConnects w) {c : Callback} {connect : ConnectResult}
    (closed : opens w (c.happening connect) = false) :
    (effect w (c.happening connect)).conns = w.conns := by
  cases c with
  | writable c failed =>
    simp only [Callback.happening, opens] at closed
    simp only [Callback.happening, effect, World.writable]
    split
    · rename_i connecting
      cases failed with
      | true => rfl
      | false =>
        rw [connecting] at closed
        contradiction
    · rfl
  | fire n =>
    simp only [Callback.happening, opens] at closed
    simp only [Callback.happening, effect, World.fire]
    split
    · rfl
    · rename_i t found
      obtain ⟨c, rfl⟩ := dueConnect timers found
      cases connect with
      | immediate =>
        rw [found] at closed
        contradiction
      | resolveFailed | socketFailed | refused | inProgress => rfl
  | runTask =>
    simp only [Callback.happening, effect, World.runTask]
    split <;> rfl

theorem sendBuffer (w : World) (i : ConnId) (data : Bytes) (j : ConnId) :
    ((w.send i data).conns j).tcp.inputBuf = (w.conns j).tcp.inputBuf := by
  unfold World.send
  dsimp only
  split
  · rcases eq_or_ne j i with rfl | differ
    · rw [setConnSame]
      exact (w.conns j).tcp.sendInput data _
    · rw [setConnOther _ differ]
  · rfl

theorem openedBuffer (w : World) (c : ClientId) :
    ((w.handleConnect c).conns w.nextConn).tcp.inputBuf = ByteBuffer.init 0 := by
  have sent := sendBuffer { w.openConn c with
    source := { w.source with conn := some w.nextConn, state := .options, cseq := 1 } } w.nextConn
    (serialize w.order (optionsRequest w.source.upstreamUrl 1)) w.nextConn
  have fresh : ((w.openConn c).conns w.nextConn).tcp.inputBuf = ByteBuffer.init 0 := by
    rw [World.openConn, setClient]
    dsimp only
    rw [setConnSame]
    rfl
  rw [World.handleConnect, registerTcp]
  exact sent.trans fresh

theorem openedAsking {s : Watched} (h : Waiting url s) {v : World} {c : ClientId}
    (only : v.Only none (some c) []) (number : v.nextConn = s.world.nextConn)
    (opened : Opened s.world (v.handleConnect c)) (timers : OnlyConnects (v.handleConnect c)) :
    Asking url id described 0 ⟨v.handleConnect c,
      .asked s.world.nextConn (optionsRequest s.world.source.upstreamUrl 1) :: s.log⟩ := by
  have settled := (handleConnectOnly only).2
  obtain ⟨sdp, rtp, rtcp⟩ := opened.described
  rw [number, h.nextConn] at settled
  refine ⟨⟨opened.url.trans h.url, ?_, opened.state.1, opened.state.2, opened.sessionId.trans h.sessionId,
    nofun, rtp.trans h.channels.1, rtcp.trans h.channels.2⟩, ?_, ?_, settled, ?_⟩
  · rw [opened.conn, h.nextConn]
  · rw [h.log, h.url]
    rfl
  · rw [opened.nextConn, h.nextConn]
  · exact timersEmpty timers settled.retries

theorem idleWaiting {s : Watched} (h : Waiting url s) {after : World} (idle : Idle s.world after)
    (conns : after.conns = s.world.conns) (phase : Phase after) (timers : OnlyConnects after) :
    Waiting url ⟨after, s.log⟩ := by
  obtain ⟨sdp, rtp, rtcp⟩ := idle.described
  have conn : after.source.conn = none := by
    rcases idle.conn with same | none
    · exact same.trans h.conn
    · exact none
  have first : after.conns 0 = noConn := by
    rw [conns]
    exact h.conns
  exact ⟨idle.url.trans h.url, idle.sessionId.trans h.sessionId, ⟨rtp.trans h.channels.1,
    rtcp.trans h.channels.2⟩, idleRests idle h.resting, conn, idle.nextConn.trans h.nextConn, first, h.log,
    phase, timers⟩

theorem callbackOrdinary (c : Callback) (connect : ConnectResult) : Ordinary (c.happening connect) := by
  cases c with
  | writable | fire | runTask => trivial

theorem callbackWaiting {s : Watched} (h : Waiting url s) (c : Callback) (connect : ConnectResult) :
    Waiting url (watch s (c.happening connect)) ∨
      (Asking url id described 0 (watch s (c.happening connect)) ∧
        ((watch s (c.happening connect)).world.conns 0).tcp.inputBuf.content = []) := by
  have ordinary := callbackOrdinary c connect
  obtain ⟨phase, timers⟩ := callbackPhase h.phase h.timers c connect
  have happened := happens s.world ordinary
  rw [watchOrdinary s ordinary]
  cases opening : opens s.world (c.happening connect) with
  | true =>
    obtain ⟨v, d, same, only, number⟩ := callbackOpens h.phase h.timers opening
    rw [opening, if_pos rfl, same] at happened
    rw [same] at timers
    rw [if_pos rfl, same]
    refine .inr ⟨openedAsking h only number happened timers, ?_⟩
    have buffer := openedBuffer v d
    rw [number, h.nextConn] at buffer
    dsimp only
    rw [buffer, ByteBuffer.initContent]
  | false =>
    have idle : Idle s.world (effect s.world (c.happening connect)) := by
      rw [opening, if_neg Bool.false_ne_true] at happened
      exact happened
    rw [if_neg Bool.false_ne_true]
    exact .inl (idleWaiting h idle (callbackKeeps h.timers opening) phase timers)

theorem settledCallback {w : World} (only : w.Only (some 0) none []) (timers : w.timers = [])
    (c : Callback) (connect : ConnectResult) :
    effect w (c.happening connect) = w ∧ opens w (c.happening connect) = false := by
  have tasks : w.tasks = [] := (List.append_eq_nil_iff.mp only.retries).2
  cases c with
  | writable c failed =>
    have quiet : (w.clients c).connecting = false := by
      by_contra open_
      exact absurd (only.connecting c (Bool.not_eq_false _ ▸ open_)) nofun
    simp only [Callback.happening, effect, World.writable, opens, quiet]
    exact ⟨rfl, rfl⟩
  | fire n =>
    simp only [Callback.happening, effect, World.fire, opens, timers, List.getElem?_nil, Bool.and_false]
    trivial
  | runTask =>
    simp only [Callback.happening, effect, World.runTask, opens, tasks]
    trivial

/-! The source at either stage: it has read `k` answers and sent `a` requests. -/
inductive Caller (url id described : Bytes) (s : Watched) : Nat → Nat → Prop where
  | waiting (h : Waiting url s) : Caller url id described s 0 0
  | asking {k : Nat} (h : Asking url id described k s) : Caller url id described s k (min (k + 1) 4)

theorem callerSent {s : Watched} {k a : Nat} (h : Caller url id described s k a) :
    a ≤ 4 ∧ sent s.log = (List.range a).map (asks url id) := by
  cases h with
  | waiting h =>
    rw [h.log]
    exact ⟨Nat.zero_le 4, rfl⟩
  | asking h => exact ⟨Nat.min_le_right _ 4, h.sent⟩

theorem callerAccepted {own : HeaderOrder} {s : Watched} (sound : Sound own s) {k a : Nat}
    (h : Caller url id described s k a) :
    (s.world.conns 0).tcp.accepted = stream own ((sent s.log).map .message) := by
  cases h with
  | waiting h =>
    rw [h.conns, h.log]
    rfl
  | asking h => exact (askingConnected sound h).2

theorem enteredWaiting {s : Watched} (h : Waiting url s) (writes : List WriteResult) :
    Waiting url (watch s (.enter writes)) :=
  ⟨h.url, h.sessionId, h.channels, h.resting, h.conn, h.nextConn, h.conns, h.log,
    Replacement.phaseOf h.phase rfl rfl rfl rfl rfl, h.timers⟩

theorem enteredCaller {s : Watched} {k a : Nat} (h : Caller url id described s k a)
    (writes : List WriteResult) : Caller url id described (watch s (.enter writes)) k a := by
  cases h with
  | waiting h => exact .waiting (enteredWaiting h writes)
  | asking h => exact .asking (enteredAsking h writes)

theorem awaitingSame {order : HeaderOrder} {k l : Nat} {w after : World} {flight : Bytes}
    (same : (after.conns 0).tcp.inputBuf.content = (w.conns 0).tcp.inputBuf.content)
    (awaits : Awaiting url id described order k l w flight) :
    Awaiting url id described order k l after flight := by
  rw [Awaiting, same]
  exact awaits

theorem callbackStep {order : HeaderOrder} {s : Watched} {k a l : Nat}
    (h : Caller url id described s k a) {flight : Bytes}
    (awaits : Awaiting url id described order k l s.world flight) (c : Callback) (connect : ConnectResult) :
    ∃ a', a ≤ a' ∧ Caller url id described (watch s (c.happening connect)) k a' ∧
      Awaiting url id described order k l (watch s (c.happening connect)).world flight := by
  cases h with
  | waiting h =>
    have before : (s.world.conns 0).tcp.inputBuf.content = [] := by
      rw [h.conns]
      rfl
    rcases callbackWaiting h c connect with waits | ⟨asks, empty⟩
    · have still : ((watch s (c.happening connect)).world.conns 0).tcp.inputBuf.content = [] := by
        rw [waits.conns]
        rfl
      exact ⟨0, Nat.le_refl 0, .waiting waits, awaitingSame (still.trans before.symm) awaits⟩
    · exact ⟨1, Nat.zero_le 1, .asking asks, awaitingSame (empty.trans before.symm) awaits⟩
  | asking h =>
    have ordinary := callbackOrdinary c connect
    obtain ⟨same, closed⟩ := settledCallback h.only h.timers c connect
    rw [watchOrdinary s ordinary, same, closed, if_neg Bool.false_ne_true]
    exact ⟨_, Nat.le_refl _, .asking h, awaits⟩

theorem callbackCaller {own order : HeaderOrder} {s : Watched} (sound : Sound own s) {k a l : Nat}
    (h : Caller url id described s k a) {flight : Bytes}
    (awaits : s.world.crashed = false → Awaiting url id described order k l s.world flight)
    (c : Callback) (connect : ConnectResult) {writes : List WriteResult}
    (works : WriteResult.error ∉ writes) {after : Watched}
    (called : after = run watch s (happenings s.world (.event ⟨c.event, connect, writes⟩))) :
    ∃ a', a ≤ a' ∧ Caller url id described after k a' ∧ Sound own after ∧ (after.world.crashed = false →
      Awaiting url id described order k l after.world flight) := by
  rw [callbackHappenings] at called
  cases crashed : s.world.crashed with
  | true =>
    rw [crashed, if_pos rfl] at called
    subst called
    refine ⟨a, Nat.le_refl a, enteredCaller h [], watchSound sound List.not_mem_nil, fun running => ?_⟩
    exact absurd (crashed.symm.trans running) nofun
  | false =>
    rw [crashed, if_neg Bool.false_ne_true] at called
    subst called
    obtain ⟨a', more, caller, awaits'⟩ := callbackStep (enteredCaller h writes) (awaits crashed) c connect
    have peaceful : Peaceful (c.happening connect) := by cases c <;> trivial
    have entered : Sound own (watch s (.enter writes)) := watchSound sound works
    exact ⟨a', more, caller, watchSound entered peaceful, fun _ => awaits'⟩

theorem callerLive {s : Watched} {k a : Nat} (h : Caller url id described s k a)
    (live : s.world.Live 0) : Asking url id described k s ∧ a = min (k + 1) 4 := by
  cases h with
  | waiting h =>
    rw [World.Live, h.conns] at live
    exact absurd live.1 Bool.false_ne_true
  | asking h => exact ⟨h, rfl⟩

/-! The source as it is started. -/

theorem createdWaiting (own : HeaderOrder) (url streamPath : Bytes) (writes : List WriteResult) :
    Waiting url ⟨created own url streamPath writes, []⟩ := by
  have none : (created own url streamPath writes).Only none none [] :=
    ⟨fun i live => absurd live.1 Bool.false_ne_true, fun c open_ => absurd open_ Bool.false_ne_true, rfl⟩
  exact ⟨rfl, rfl, ⟨rfl, rfl⟩, .inl rfl, rfl, rfl, rfl, rfl, .quiet none, List.forall_mem_nil _⟩

theorem beginCaller (own : HeaderOrder) (url id described streamPath : Bytes) (connect : ConnectResult)
    {writes : List WriteResult} (works : WriteResult.error ∉ writes) :
    ∃ a, Caller url id described (begin own url streamPath connect writes) 0 a ∧
      Sound own (begin own url streamPath connect writes) ∧
      ((begin own url streamPath connect writes).world.conns 0).tcp.inputBuf.content = [] := by
  have waits := createdWaiting own url streamPath writes
  have begun := beginCases own url streamPath connect writes
  have sound : Sound own (begin own url streamPath connect writes) := by
    refine ⟨beginRecorded own url streamPath connect writes,
      Recovery.startRecovering own url streamPath connect works, ?_⟩
    split at begun
    · exact begun.order
    · exact begun.order
  have free : ((created own url streamPath writes).setState .connecting).makeClient.Only none none [] :=
    (makeClientOnly ⟨fun i live => absurd live.1 Bool.false_ne_true,
      fun c open_ => absurd open_ Bool.false_ne_true, rfl⟩).2
  have fresh : OnlyConnects ((created own url streamPath writes).setState .connecting).makeClient :=
    List.forall_mem_nil _
  have timers := onlyConnected fresh 0 connect
  have phase := Replacement.phaseStart own url streamPath connect writes
  cases connect with
  | immediate =>
    have ready : (((created own url streamPath writes).setState .connecting).makeClient.note
        (.connect 0)).Only none (some 0) [] :=
      ⟨free.live, fun d open_ => absurd (free.connecting d open_) nofun, free.retries⟩
    have asks : Asking url id described 0 (begin own url streamPath .immediate writes) :=
      openedAsking waits ready rfl begun timers
    have buffer := openedBuffer (((created own url streamPath writes).setState
      .connecting).makeClient.note (.connect 0)) 0
    exact ⟨1, .asking asks, sound, congrArg ByteBuffer.content buffer⟩
  | resolveFailed | socketFailed | refused | inProgress =>
    have waiting := idleWaiting waits begun rfl phase timers
    exact ⟨0, .waiting waiting, sound, rfl⟩

end
end RtspRelay.HandshakeCaller
