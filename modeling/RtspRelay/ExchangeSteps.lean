import RtspRelay.Exchange
import RtspRelay.Recovery

/-! What each happening does to the source and to the bytes its connections were
given: it opens a connection, answers a response, stops, or sends nothing. -/
namespace RtspRelay.Exchange
open Machine Buffer Protocol Source World Decoders Transition
open Connection (WriteResult ReadResult)
open Recovery (Connected)

def Resting (state : Source.State) : Prop := state = .idle ∨ state = .connecting ∨ state = .error

structure Sends (w after : World) (req : RtspMessage) : Prop where
  source : after.source = { w.source with cseq := nextCseq w.source }
  timers : after.timers = w.timers
  nextConn : after.nextConn = w.nextConn
  order : after.order = w.order
  crashed : after.crashed = (w.crashed || w.source.conn.isNone)
  bytes : ∀ j, Connected after j → Connected w j ∧ (after.conns j).tcp.accepted =
    (w.conns j).tcp.accepted ++ if w.source.conn = some j then serialize w.order req else []

-- No request is sent and no connection opened.
structure Idle (w after : World) : Prop where
  url : after.source.upstreamUrl = w.source.upstreamUrl
  sessionId : after.source.sessionId = w.source.sessionId
  described : after.source.sdp = w.source.sdp ∧ after.source.rtpChannel = w.source.rtpChannel ∧
    after.source.rtcpChannel = w.source.rtcpChannel
  state : (after.source.state = w.source.state ∧ after.source.cseq = w.source.cseq) ∨
    Resting after.source.state
  conn : after.source.conn = w.source.conn ∨ after.source.conn = none
  nextConn : after.nextConn = w.nextConn
  order : after.order = w.order
  crashed : w.crashed = true → after.crashed = true
  bytes : ∀ j, Connected after j → Connected w j ∧
    (after.conns j).tcp.accepted = (w.conns j).tcp.accepted

structure Opened (w after : World) : Prop where
  url : after.source.upstreamUrl = w.source.upstreamUrl
  sessionId : after.source.sessionId = w.source.sessionId
  described : after.source.sdp = w.source.sdp ∧ after.source.rtpChannel = w.source.rtpChannel ∧
    after.source.rtcpChannel = w.source.rtcpChannel
  state : after.source.state = .options ∧ after.source.cseq = 1
  conn : after.source.conn = some w.nextConn
  nextConn : after.nextConn = w.nextConn + 1
  order : after.order = w.order
  crashed : w.crashed = true → after.crashed = true
  bytes : ∀ j, Connected after j → if j = w.nextConn
    then (after.conns j).tcp.accepted = serialize w.order (optionsRequest w.source.upstreamUrl 1)
    else Connected w j ∧ (after.conns j).tcp.accepted = (w.conns j).tcp.accepted

theorem idleRefl (w : World) : Idle w w :=
  ⟨rfl, rfl, ⟨rfl, rfl, rfl⟩, .inl ⟨rfl, rfl⟩, .inl rfl, rfl, rfl, id, fun _ connected => ⟨connected, rfl⟩⟩

theorem sendBytes {c : Connection.TcpConnection} (data : Bytes) (answer : WriteResult)
    (connected : c.state = .connected) (still : (c.sendInLoop data answer).1.state = .connected) :
    (c.sendInLoop data answer).1.accepted = c.accepted ++ data := by
  by_cases works : answer = .error
  · subst works
    unfold Connection.TcpConnection.sendInLoop at still ⊢
    rw [if_neg (not_not.mpr connected)] at still ⊢
    split
    · exact c.bufferedAccepted data
    · rename_i nothing
      rw [if_neg nothing] at still
      contradiction
  · exact (c.sendAccepted connected data works).1

theorem sendKeeps (w : World) (i : ConnId) (data : Bytes) :
    (w.send i data).source = w.source ∧ (w.send i data).timers = w.timers ∧
      (w.send i data).nextConn = w.nextConn ∧ (w.send i data).order = w.order ∧
      (w.send i data).crashed = w.crashed := by
  unfold World.send
  dsimp only
  split <;> exact ⟨rfl, rfl, rfl, rfl, rfl⟩

theorem sendAppends (w : World) (i : ConnId) (data : Bytes) (j : ConnId)
    (still : Connected (w.send i data) j) :
    Connected w j ∧ ((w.send i data).conns j).tcp.accepted =
      (w.conns j).tcp.accepted ++ if i = j then data else [] := by
  unfold Connected World.send at still ⊢
  dsimp only at still ⊢
  by_cases connected : (w.conns i).tcp.state = .connected
  · rw [if_pos connected] at still ⊢
    rcases eq_or_ne j i with rfl | differ
    · rw [setConnSame] at still ⊢
      rw [if_pos rfl]
      exact ⟨connected, sendBytes data _ connected still⟩
    · rw [setConnOther _ differ] at still ⊢
      rw [if_neg (Ne.symm differ), List.append_nil]
      exact ⟨still, rfl⟩
  · rw [if_neg connected] at still ⊢
    have differ : i ≠ j := fun same => connected (by rw [same]; exact still)
    rw [if_neg differ, List.append_nil]
    exact ⟨still, rfl⟩

theorem sendRequestSends (w : World) (request : Nat → RtspMessage) :
    Sends w (w.sendRequest request) (request (nextCseq w.source)) := by
  unfold World.sendRequest
  dsimp only
  split
  · rename_i lost
    have none : w.source.conn = none := lost
    refine ⟨rfl, rfl, rfl, rfl, by simp [none], fun j still => ⟨still, ?_⟩⟩
    rw [none, if_neg nofun, List.append_nil]
  · rename_i i held
    have some_ : w.source.conn = some i := held
    obtain ⟨source, timers, next, order, crashed⟩ := sendKeeps
      { w with source := { w.source with cseq := nextCseq w.source } } i
      (serialize w.order (request (nextCseq w.source)))
    refine ⟨source, timers, next, order, ?_, fun j still => ?_⟩
    · have present : w.source.conn.isNone = false := by rw [some_]; rfl
      rw [present, Bool.or_false]
      exact crashed
    · have appended := sendAppends _ i _ j still
      have given : (if w.source.conn = some j then serialize w.order (request (nextCseq w.source)) else [])
          = if i = j then serialize w.order (request (nextCseq w.source)) else [] := by
        simp only [some_, Option.some.injEq]
      rw [given]
      exact appended

theorem registerTcp (w : World) (i j : ConnId) : ((w.register i).conns j).tcp = (w.conns j).tcp := by
  unfold World.register
  rcases eq_or_ne j i with rfl | differ
  · rw [setConnSame]
  · rw [setConnOther _ differ]

theorem handleConnectSource (w : World) (c : ClientId) : (w.handleConnect c).source =
    { w.source with conn := some w.nextConn, state := .options, cseq := 1 } :=
  (sendRequestSends { w.openConn c with
    source := { w.source with conn := some w.nextConn, state := .options, cseq := 0 } }
    (optionsRequest w.source.upstreamUrl)).source

theorem handleConnectOpened (w : World) (c : ClientId) : Opened w (w.handleConnect c) := by
  have sends := sendRequestSends { w.openConn c with
    source := { w.source with conn := some w.nextConn, state := .options, cseq := 0 } }
    (optionsRequest w.source.upstreamUrl)
  have source := handleConnectSource w c
  refine ⟨by rw [source], by rw [source], by rw [source]; exact ⟨rfl, rfl, rfl⟩,
    by rw [source]; exact ⟨rfl, rfl⟩, by rw [source], sends.nextConn, sends.order,
    fun crashed => (sends.crashed.trans (Bool.or_false _)).trans crashed, fun j connected => ?_⟩
  have tcp : ((w.handleConnect c).conns j).tcp =
      (((w.openConn c).onConnect w.nextConn).conns j).tcp := registerTcp _ _ _
  rw [Connected, tcp] at connected
  obtain ⟨before, bytes⟩ := sends.bytes j connected
  rw [tcp]
  have conns : (w.openConn c).conns =
      Function.update w.conns w.nextConn ⟨.create w.nextConn, c, false⟩ := rfl
  dsimp only at bytes
  split
  · rename_i same
    subst same
    have fresh : (Connection.TcpConnection.create w.nextConn).accepted = [] := rfl
    have first : nextCseq { w.source with conn := some w.nextConn, state := .options, cseq := 0 } = 1 := rfl
    rw [if_pos rfl, conns, Function.update_self, fresh, List.nil_append, first] at bytes
    exact bytes
  · rename_i differ
    rw [if_neg fun same => differ (Option.some.inj same).symm, List.append_nil, conns,
      Function.update_of_ne differ] at bytes
    rw [Connected] at before
    dsimp only at before
    rw [conns, Function.update_of_ne differ] at before
    exact ⟨before, bytes⟩

theorem idleTrans {w mid after : World} (first : Idle w mid) (last : Idle mid after) :
    Idle w after := by
  obtain ⟨sdp, rtp, rtcp⟩ := first.described
  obtain ⟨sdp', rtp', rtcp'⟩ := last.described
  refine ⟨last.url.trans first.url, last.sessionId.trans first.sessionId,
    ⟨sdp'.trans sdp, rtp'.trans rtp, rtcp'.trans rtcp⟩, ?_, ?_, last.nextConn.trans first.nextConn,
    last.order.trans first.order, fun crashed => last.crashed (first.crashed crashed),
    fun j connected => ?_⟩
  · rcases last.state with ⟨state, cseq⟩ | quiet
    · rcases first.state with ⟨state', cseq'⟩ | quiet
      · exact .inl ⟨state.trans state', cseq.trans cseq'⟩
      · exact .inr (state ▸ quiet)
    · exact .inr quiet
  · rcases last.conn with same | none
    · rcases first.conn with same' | none
      · exact .inl (same.trans same')
      · exact .inr (same.trans none)
    · exact .inr none
  · obtain ⟨mid, bytes⟩ := last.bytes j connected
    obtain ⟨before, bytes'⟩ := first.bytes j mid
    exact ⟨before, bytes.trans bytes'⟩

theorem idleOpened {w mid after : World} (first : Idle w mid) (last : Opened mid after) :
    Opened w after := by
  obtain ⟨sdp, rtp, rtcp⟩ := first.described
  obtain ⟨sdp', rtp', rtcp'⟩ := last.described
  refine ⟨last.url.trans first.url, last.sessionId.trans first.sessionId,
    ⟨sdp'.trans sdp, rtp'.trans rtp, rtcp'.trans rtcp⟩, last.state, first.nextConn ▸ last.conn,
    first.nextConn ▸ last.nextConn, last.order.trans first.order,
    fun crashed => last.crashed (first.crashed crashed), fun j connected => ?_⟩
  have bytes := last.bytes j connected
  rw [first.nextConn, first.order, first.url] at bytes
  split at bytes
  · rename_i same
    rw [if_pos same]
    exact bytes
  · rename_i differ
    obtain ⟨before, bytes'⟩ := first.bytes j bytes.1
    rw [if_neg differ]
    exact ⟨before, bytes.2.trans bytes'⟩

/-! A change of the source's client, timers, tasks or acts alone. -/
theorem idleOf {w after : World} (source : after.source = { w.source with client := after.source.client })
    (conns : after.conns = w.conns) (nextConn : after.nextConn = w.nextConn)
    (order : after.order = w.order) (crashed : after.crashed = w.crashed) : Idle w after := by
  refine ⟨by rw [source], by rw [source], by rw [source]; exact ⟨rfl, rfl, rfl⟩,
    .inl (by rw [source]; exact ⟨rfl, rfl⟩), .inl (by rw [source]), nextConn, order,
    fun before => crashed.trans before, fun j connected => ?_⟩
  rw [Connected, conns] at connected
  rw [conns]
  exact ⟨connected, rfl⟩

theorem setStateIdle (w : World) {state : Source.State} (resting : Resting state) :
    Idle w (w.setState state) :=
  ⟨rfl, rfl, ⟨rfl, rfl, rfl⟩, .inr resting, .inl rfl, rfl, rfl, id, fun _ connected => ⟨connected, rfl⟩⟩

theorem connectCases (w : World) (c : ClientId) (result : ConnectResult) :
    if result = .immediate then Opened w (w.connect c result) else Idle w (w.connect c result) := by
  have noted : Idle w (w.note (.connect c)) := idleOf rfl rfl rfl rfl rfl
  cases result with
  | immediate => exact idleOpened noted (handleConnectOpened _ c)
  | resolveFailed | socketFailed | refused | inProgress => exact idleOf rfl rfl rfl rfl rfl

theorem upstreamCases {w : World} (running : w.source.stopping = false) (result : ConnectResult) :
    if result = .immediate then Opened w ((w.setState .connecting).connectToUpstream result)
    else Idle w ((w.setState .connecting).connectToUpstream result) := by
  have begun : Idle w (w.setState .connecting).dropClient.makeClient := by
    have dropped : Idle (w.setState .connecting) (w.setState .connecting).dropClient := by
      unfold World.dropClient
      split
      · exact idleRefl _
      · exact idleOf rfl rfl rfl rfl rfl
    exact idleTrans (setStateIdle w (.inr (.inl rfl)))
      (idleTrans dropped (idleOf rfl rfl rfl rfl rfl))
  have connects := connectCases (w.setState .connecting).dropClient.makeClient
    (w.setState .connecting).nextClient result
  have open_ : ¬ (w.setState .connecting).source.stopping = true := by simp [setState, running]
  have upstream : (w.setState .connecting).connectToUpstream result = (w.setState
      .connecting).dropClient.makeClient.connect (w.setState .connecting).nextClient result :=
    if_neg open_
  rw [upstream]
  by_cases now : result = .immediate
  · rw [if_pos now] at connects ⊢
    exact idleOpened begun connects
  · rw [if_neg now] at connects ⊢
    exact idleTrans begun connects

theorem setConnIdle (w : World) {i : ConnId} {up : Upstream}
    (keeps : up.tcp.state = .connected → Connected w i ∧ up.tcp.accepted = (w.conns i).tcp.accepted) :
    Idle w (w.setConn i up) := by
  refine ⟨rfl, rfl, ⟨rfl, rfl, rfl⟩, .inl ⟨rfl, rfl⟩, .inl rfl, rfl, rfl, id, fun j connected => ?_⟩
  rcases eq_or_ne j i with rfl | differ
  · rw [Connected, setConnSame] at connected
    rw [setConnSame]
    exact keeps connected
  · rw [Connected, setConnOther _ differ] at connected
    rw [setConnOther _ differ]
    exact ⟨connected, rfl⟩

theorem closedIdle (w : World) (c : ClientId) : Idle w (w.clientClosed c) := by
  have dropped : Idle w w.dropConn :=
    ⟨rfl, rfl, ⟨rfl, rfl, rfl⟩, .inl ⟨rfl, rfl⟩, .inr rfl, rfl, rfl, id,
      fun _ connected => ⟨connected, rfl⟩⟩
  have scheduled : Idle w.dropConn w.dropConn.scheduleReconnect := by
    unfold World.scheduleReconnect
    split
    · exact idleRefl _
    · exact idleTrans (setStateIdle w.dropConn (.inr (.inr rfl))) (idleOf rfl rfl rfl rfl rfl)
  exact idleTrans dropped (idleTrans scheduled (idleOf rfl rfl rfl rfl rfl))

theorem retriedCases (w : World) (n : Nat) (connect : ConnectResult) :
    if (decide (connect = .immediate) && !w.source.stopping) = true
      then Opened w (((w.takeTimer n).setState .connecting).connectToUpstream connect)
      else Idle w (((w.takeTimer n).setState .connecting).connectToUpstream connect) := by
  have taken : Idle w (w.takeTimer n) := idleOf rfl rfl rfl rfl rfl
  cases stopping : w.source.stopping with
  | true =>
    have stopped : ((w.takeTimer n).setState .connecting).connectToUpstream connect =
        (w.takeTimer n).setState .connecting := if_pos stopping
    rw [Bool.not_true, Bool.and_false, if_neg (by decide), stopped]
    exact idleTrans taken (setStateIdle _ (.inr (.inl rfl)))
  | false =>
    have connects := upstreamCases (w := w.takeTimer n) stopping connect
    simp only [Bool.not_false, Bool.and_true, decide_eq_true_eq]
    split at connects
    · rename_i now
      rw [if_pos now]
      exact idleOpened taken connects
    · rename_i later
      rw [if_neg later]
      exact idleTrans taken connects

theorem fireCases (w : World) (n : Nat) (connect : ConnectResult) :
    if opens w (.fire n connect) then Opened w (w.fire n connect) else Idle w (w.fire n connect) := by
  have taken : Idle w (w.takeTimer n) := idleOf rfl rfl rfl rfl rfl
  have retried := retriedCases w n connect
  cases found : w.timers[n]? with
  | none =>
    simp only [World.fire, opens, found, Bool.and_false, Bool.false_eq_true, if_false]
    exact idleRefl w
  | some t =>
    cases t with
    | connect c =>
      have connects := connectCases (w.takeTimer n) c connect
      simp only [World.fire, opens, found, Bool.and_true, decide_eq_true_eq]
      split at connects
      · rename_i now
        rw [if_pos now]
        exact idleOpened taken connects
      · rename_i later
        rw [if_neg later]
        exact idleTrans taken connects
    | reconnect =>
      simp only [World.fire, opens, found, World.expire]
      exact retried
    | retry404 =>
      simp only [World.fire, opens, found, World.expire]
      cases stopping : w.source.stopping with
      | true =>
        have stopped : (w.takeTimer n).source.stopping = true := stopping
        rw [if_pos stopped, Bool.not_true, Bool.and_false, if_neg (by decide)]
        exact taken
      | false =>
        have running : ¬ (w.takeTimer n).source.stopping = true := by simp [takeTimer, stopping]
        rw [stopping] at retried
        rw [if_neg running]
        exact retried

-- Neither a response nor a stop.
def Ordinary : Happening → Prop
  | .message _ _ | .stop _ => False
  | _ => True

theorem happens (w : World) {h : Happening} (ordinary : Ordinary h) :
    if opens w h then Opened w (effect w h) else Idle w (effect w h) := by
  cases h with
  | enter writes => exact idleOf rfl rfl rfl rfl rfl
  | frame i channel payload => exact idleOf rfl rfl rfl rfl rfl
  | runTask =>
    simp only [effect, World.runTask, opens, Bool.false_eq_true, if_false]
    split
    · exact idleRefl w
    · exact idleOf rfl rfl rfl rfl rfl
  | message | stop => exact ordinary.elim
  | stored i rest =>
    cases rest with
    | ok rest => exact setConnIdle w fun connected => ⟨connected, rfl⟩
    | error e => exact ⟨rfl, rfl, ⟨rfl, rfl, rfl⟩, .inl ⟨rfl, rfl⟩, .inl rfl, rfl, rfl, fun _ => rfl,
        fun _ connected => ⟨connected, rfl⟩⟩
  | writable c failed =>
    cases connecting : (w.clients c).connecting with
    | false =>
      simp only [effect, World.writable, opens, connecting, Bool.false_and, Bool.false_eq_true, if_false]
      exact idleRefl w
    | true =>
      simp only [effect, World.writable, opens, connecting, Bool.true_and, if_true]
      cases failed with
      | true => exact idleOf rfl rfl rfl rfl rfl
      | false => exact handleConnectOpened w c
  | ended i =>
    simp only [effect, World.read, opens, Bool.false_eq_true, if_false]
    split
    · exact idleTrans (setConnIdle w fun connected => by contradiction) (closedIdle _ _)
    · exact idleRefl w
  | broken i =>
    simp only [effect, World.read, opens, Bool.false_eq_true, if_false]
    split
    · exact setConnIdle w fun connected => by contradiction
    · exact idleRefl w
  | fire n connect => exact fireCases w n connect

/-! A response: what it leaves in the source before the next request is sent. -/

def heard (w : World) (msg : RtspMessage) : World := if msg.statusCode = 200 then w.noteSession msg else w

def ready (w : World) (msg : RtspMessage) : World :=
  match w.source.state with
  | .options => (heard w msg).setState .describe
  | .describe =>
    { heard w msg with source := { (heard w msg).source with sdp := msg.sdp } }.setState .setup
  | .setup => ((heard w msg).noteChannels msg).setState .playing
  | _ => heard w msg

theorem heardSource (w : World) (msg : RtspMessage) :
    (heard w msg).source = { w.source with sessionId := (heard w msg).source.sessionId } ∧
      heard w msg = { w with source := (heard w msg).source } := by
  unfold heard World.noteSession
  split
  · split <;> exact ⟨rfl, rfl⟩
  · exact ⟨rfl, rfl⟩

theorem noteChannelsSource (w : World) (msg : RtspMessage) :
    (w.noteChannels msg).source = { w.source with
      rtpChannel := (w.noteChannels msg).source.rtpChannel
      rtcpChannel := (w.noteChannels msg).source.rtcpChannel } := by
  unfold World.noteChannels
  split <;> rfl

theorem setupAskedForm (url : Bytes) (cseq : Nat) (sessionId : Bytes) :
    (setupAsked url cseq sessionId).method = .setup ∧ (setupAsked url cseq sessionId).cseq = cseq := by
  unfold setupAsked setupRequest RtspMessage.setSession
  split <;> exact ⟨rfl, rfl⟩

theorem noteSessionState (w : World) (msg : RtspMessage) :
    (w.noteSession msg).source.state = w.source.state := by
  unfold World.noteSession
  split <;> rfl

-- The request that answers a response, by the state it is sent in.
inductive Reply (w : World) (msg : RtspMessage) : RtspMessage → Prop where
  | describe (state : w.source.state = .options) :
      Reply w msg (describeRequest w.source.upstreamUrl (nextCseq w.source))
  | setup (state : w.source.state = .describe) : Reply w msg
      (setupAsked w.source.upstreamUrl (nextCseq w.source) (heard w msg).source.sessionId)
  | play (state : w.source.state = .setup) : Reply w msg
      (playRequest w.source.upstreamUrl (nextCseq w.source) (heard w msg).source.sessionId)

theorem readyState {w : World} {msg req : RtspMessage} (form : Reply w msg req) :
    (w.source.state = .options ∧ req.method = .describe ∧ (ready w msg).source.state = .describe) ∨
      (w.source.state = .describe ∧ req.method = .setup ∧ (ready w msg).source.state = .setup) ∨
      (w.source.state = .setup ∧ req.method = .play ∧ (ready w msg).source.state = .playing) := by
  cases form with
  | describe state => exact .inl ⟨state, rfl, by rw [ready, state]; rfl⟩
  | setup state => exact .inr (.inl ⟨state, (setupAskedForm _ _ _).1, by rw [ready, state]; rfl⟩)
  | play state => exact .inr (.inr ⟨state, rfl, by rw [ready, state]; rfl⟩)

theorem replied {w : World} {msg req : RtspMessage} (replies : reply w msg = some req) :
    msg.statusCode = 200 ∧ Reply w msg req := by
  unfold reply at replies
  split at replies
  · contradiction
  · rename_i good
    have ok := Classical.not_not.mp good
    have source := (heardSource w msg).1
    have same : w.noteSession msg = heard w msg := (if_pos ok).symm
    have cseq : nextCseq (heard w msg).source = nextCseq w.source := by rw [source]; rfl
    have url : (heard w msg).source.upstreamUrl = w.source.upstreamUrl := by rw [source]
    have state : (heard w msg).source.state = w.source.state := by rw [source]
    refine ⟨ok, ?_⟩
    dsimp only at replies
    rw [same, cseq, url, state] at replies
    split at replies <;> try contradiction
    · rename_i options
      cases Option.some.inj replies
      exact .describe options
    · rename_i describe
      cases Option.some.inj replies
      exact .setup describe
    · rename_i setup
      cases Option.some.inj replies
      exact .play setup

theorem replies {w : World} {msg : RtspMessage} (ok : msg.statusCode = 200)
    (state : w.source.state = .options ∨ w.source.state = .describe ∨ w.source.state = .setup) :
    ∃ req, reply w msg = some req := by
  unfold reply
  dsimp only
  rw [if_neg (not_not.mpr ok), noteSessionState]
  rcases state with state | state | state <;> rw [state] <;> exact ⟨_, rfl⟩

theorem repliedSends {w : World} {msg : RtspMessage} {req : RtspMessage}
    (replies : reply w msg = some req) : Sends (ready w msg) (w.handleResponse msg) req := by
  obtain ⟨good, state⟩ := replied replies
  have heardOk : heard w msg = w.noteSession msg := if_pos good
  have same : (w.noteSession msg).source.state = w.source.state := by
    rw [← heardOk, (heardSource w msg).1]
  have advance : w.handleResponse msg = (w.noteSession msg).advance msg := by
    rw [World.handleResponse, if_neg (not_not.mpr good)]
  rw [reply, if_neg (not_not.mpr good)] at replies
  rw [advance]
  unfold ready World.advance
  rw [same, heardOk]
  rcases state with state | state | state
  · simp only [same, state, Option.some.injEq] at replies ⊢
    rw [← replies]
    exact sendRequestSends _ _
  · simp only [same, state, Option.some.injEq] at replies ⊢
    rw [← replies]
    exact sendRequestSends _ _
  · simp only [same, state, Option.some.injEq] at replies ⊢
    have source := noteChannelsSource (w.noteSession msg) msg
    have url := congrArg RtspSource.upstreamUrl source
    have sessionId := congrArg RtspSource.sessionId source
    have cseq := congrArg nextCseq source
    dsimp only [nextCseq] at url sessionId cseq
    rw [← replies, nextCseq, ← url, ← sessionId, ← cseq]
    exact sendRequestSends _ _

theorem silentSource {w : World} {msg : RtspMessage} (silent : reply w msg = none) :
    (w.handleResponse msg).source = (heard w msg).source := by
  unfold heard World.handleResponse
  by_cases good : msg.statusCode = 200
  · rw [reply, if_neg (not_not.mpr good)] at silent
    rw [if_pos good, if_neg (not_not.mpr good)]
    unfold World.advance
    cases state : (w.noteSession msg).source.state <;> simp [state] at silent ⊢
  · rw [if_neg good, if_pos good]
    split <;> rfl

theorem silentIdle {w : World} {msg : RtspMessage} (silent : reply w msg = none) :
    Idle (heard w msg) (w.handleResponse msg) := by
  unfold heard World.handleResponse
  by_cases good : msg.statusCode = 200
  · have same : (w.noteSession msg).advance msg = w.noteSession msg := by
      rw [reply, if_neg (not_not.mpr good)] at silent
      unfold World.advance
      cases state : (w.noteSession msg).source.state <;> simp [state] at silent ⊢
    rw [if_pos good, if_neg (not_not.mpr good), same]
    exact idleRefl _
  · rw [if_neg good, if_pos good]
    split
    · exact idleOf rfl rfl rfl rfl rfl
    · exact idleRefl w

-- Nothing but what the source has learnt, and its state, is new.
structure Kept (w after : World) : Prop where
  conn : after.source.conn = w.source.conn
  cseq : after.source.cseq = w.source.cseq
  url : after.source.upstreamUrl = w.source.upstreamUrl
  stopping : after.source.stopping = w.source.stopping
  conns : after.conns = w.conns
  nextConn : after.nextConn = w.nextConn
  order : after.order = w.order
  timers : after.timers = w.timers
  crashed : after.crashed = w.crashed

theorem heardKept (w : World) (msg : RtspMessage) : Kept w (heard w msg) := by
  unfold heard World.noteSession
  split
  · split <;> exact ⟨rfl, rfl, rfl, rfl, rfl, rfl, rfl, rfl, rfl⟩
  · exact ⟨rfl, rfl, rfl, rfl, rfl, rfl, rfl, rfl, rfl⟩

theorem silentRest {w : World} {msg : RtspMessage} (silent : reply w msg = none) :
    (w.handleResponse msg).conns = w.conns ∧ (w.handleResponse msg).crashed = w.crashed ∧
      (w.handleResponse msg).source.conn = w.source.conn ∧
      (w.handleResponse msg).source.stopping = w.source.stopping ∧
      (w.handleResponse msg).timers =
        if msg.statusCode = 404 then w.timers ++ [.retry404] else w.timers := by
  have kept := heardKept w msg
  rw [silentSource silent, kept.conn, kept.stopping]
  unfold World.handleResponse
  by_cases good : msg.statusCode = 200
  · have same : (w.noteSession msg).advance msg = w.noteSession msg := by
      rw [reply, if_neg (not_not.mpr good)] at silent
      unfold World.advance
      cases state : (w.noteSession msg).source.state <;> simp [state] at silent ⊢
    have other : msg.statusCode ≠ 404 := by rw [good]; decide
    have heardOk : heard w msg = w.noteSession msg := if_pos good
    rw [if_neg (not_not.mpr good), same, if_neg other, ← heardOk]
    exact ⟨kept.conns, kept.crashed, rfl, rfl, kept.timers⟩
  · rw [if_pos good]
    split <;> exact ⟨rfl, rfl, rfl, rfl, rfl⟩

theorem readyHeard (w : World) (msg : RtspMessage) : Kept (heard w msg) (ready w msg) ∧
    (ready w msg).source.sessionId = (heard w msg).source.sessionId := by
  unfold ready World.noteChannels
  split
  · exact ⟨⟨rfl, rfl, rfl, rfl, rfl, rfl, rfl, rfl, rfl⟩, rfl⟩
  · exact ⟨⟨rfl, rfl, rfl, rfl, rfl, rfl, rfl, rfl, rfl⟩, rfl⟩
  · split <;> exact ⟨⟨rfl, rfl, rfl, rfl, rfl, rfl, rfl, rfl, rfl⟩, rfl⟩
  · exact ⟨⟨rfl, rfl, rfl, rfl, rfl, rfl, rfl, rfl, rfl⟩, rfl⟩

theorem readyLearns (w : World) (msg : RtspMessage) :
    (w.source.state ≠ .describe → (ready w msg).source.sdp = w.source.sdp) ∧
      (w.source.state ≠ .setup → (ready w msg).source.rtpChannel = w.source.rtpChannel ∧
        (ready w msg).source.rtcpChannel = w.source.rtcpChannel) := by
  have source := (heardSource w msg).1
  have channels := noteChannelsSource (heard w msg) msg
  have heardSdp : (heard w msg).source.sdp = w.source.sdp := by rw [source]
  have heardRtp : (heard w msg).source.rtpChannel = w.source.rtpChannel := by rw [source]
  have heardRtcp : (heard w msg).source.rtcpChannel = w.source.rtcpChannel := by rw [source]
  unfold ready
  split
  · exact ⟨fun _ => heardSdp, fun _ => ⟨heardRtp, heardRtcp⟩⟩
  · rename_i describe
    exact ⟨fun other => absurd describe other, fun _ => ⟨heardRtp, heardRtcp⟩⟩
  · rename_i setup
    have sdp : ((heard w msg).noteChannels msg).source.sdp = (heard w msg).source.sdp := by
      rw [channels]
    exact ⟨fun _ => sdp.trans heardSdp, fun other => absurd setup other⟩
  · exact ⟨fun _ => heardSdp, fun _ => ⟨heardRtp, heardRtcp⟩⟩

theorem keptTrans {w mid after : World} (first : Kept w mid) (last : Kept mid after) : Kept w after :=
  ⟨last.conn.trans first.conn, last.cseq.trans first.cseq, last.url.trans first.url,
    last.stopping.trans first.stopping, last.conns.trans first.conns,
    last.nextConn.trans first.nextConn, last.order.trans first.order,
    last.timers.trans first.timers, last.crashed.trans first.crashed⟩

theorem readyKept (w : World) (msg : RtspMessage) : Kept w (ready w msg) :=
  keptTrans (heardKept w msg) (readyHeard w msg).1

/-! What stop sends before it lets go of the connection. -/

def stopping (w : World) (writes : List WriteResult) : World :=
  ((w.entering writes).setStopping true).setState .idle

theorem stoppingIdle (w : World) (writes : List WriteResult) : Idle w (stopping w writes) :=
  ⟨rfl, rfl, ⟨rfl, rfl, rfl⟩, .inr (.inl rfl), .inl rfl, rfl, rfl, id,
    fun _ connected => ⟨connected, rfl⟩⟩

theorem stopSends (w : World) (writes : List WriteResult) :
    (requested w (.stop writes) = none ∧ Idle (stopping w writes) (w.stop writes)) ∨
    ∃ i mid, Connected w i ∧ w.source.conn = some i ∧
      requested w (.stop writes) =
        some (i, teardownRequest w.source.upstreamUrl (nextCseq w.source) w.source.sessionId) ∧
      Sends (stopping w writes) mid
        (teardownRequest w.source.upstreamUrl (nextCseq w.source) w.source.sessionId) ∧
      Idle mid (w.stop writes) := by
  have leaves : ∀ mid : World, Idle mid mid.dropClient.dropConn := by
    intro mid
    have dropped : Idle mid mid.dropClient := by
      unfold World.dropClient
      split
      · exact idleRefl mid
      · exact idleOf rfl rfl rfl rfl rfl
    exact idleTrans dropped ⟨rfl, rfl, ⟨rfl, rfl, rfl⟩, .inl ⟨rfl, rfl⟩, .inr rfl, rfl, rfl, id,
      fun _ connected => ⟨connected, rfl⟩⟩
  have stops : w.stop writes = (stopping w writes).sendTeardown.dropClient.dropConn := rfl
  have same : (stopping w writes).connConnected = w.connConnected := rfl
  rw [stops, World.sendTeardown, same]
  unfold World.connConnected requested
  cases held : w.source.conn with
  | none =>
    simp only [Bool.false_eq_true, if_false, Option.bind_none]
    exact .inl ⟨trivial, leaves _⟩
  | some i =>
    by_cases connected : (w.conns i).tcp.connected = true
    · simp only [connected, if_true, Option.bind_some]
      exact .inr ⟨i, _, of_decide_eq_true connected, rfl, rfl,
        sendRequestSends (stopping w writes) _, leaves _⟩
    · simp only [if_neg connected, Option.bind_some]
      exact .inl ⟨trivial, leaves _⟩

theorem idleRests {w after : World} (idle : Idle w after) (resting : Resting w.source.state) :
    Resting after.source.state := by
  rcases idle.state with ⟨same, _⟩ | rests
  · rw [same]
    exact resting
  · exact rests

theorem stopRests (w : World) (writes : List WriteResult) : Resting (w.stop writes).source.state := by
  rcases stopSends w writes with ⟨_, idle⟩ | ⟨_, mid, _, _, _, sends, idle⟩
  · exact idleRests idle (.inl rfl)
  · refine idleRests idle ?_
    rw [sends.source]
    exact .inl rfl

/-! The bytes a connection was given are the requests of the log. -/

def bytesOn (order : HeaderOrder) (i : ConnId) : List Entry → Bytes
  | [] => []
  | .asked j req :: past => bytesOn order i past ++ if j = i then serialize order req else []
  | .answered _ _ :: past => bytesOn order i past

structure Recorded (s : Watched) : Prop where
  held : ∀ i, s.world.source.conn = some i → i < s.world.nextConn
  known : ∀ i req, .asked i req ∈ s.log → i < s.world.nextConn
  bytes : ∀ i, Connected s.world i →
    (s.world.conns i).tcp.accepted = bytesOn s.world.order i s.log

theorem keptRecorded {w after : World} {log : List Entry} (kept : Kept w after)
    (h : Recorded ⟨w, log⟩) : Recorded ⟨after, log⟩ := by
  refine ⟨fun i held => ?_, fun i req asked => ?_, fun i connected => ?_⟩
  · rw [kept.nextConn]
    exact h.held i (kept.conn ▸ held)
  · rw [kept.nextConn]
    exact h.known i req asked
  · rw [Connected, kept.conns] at connected
    dsimp only
    rw [kept.conns, kept.order]
    exact h.bytes i connected

theorem idleRecorded {w after : World} {log : List Entry} (idle : Idle w after)
    (h : Recorded ⟨w, log⟩) : Recorded ⟨after, log⟩ := by
  refine ⟨fun i held => ?_, fun i req asked => ?_, fun i connected => ?_⟩
  · rw [idle.nextConn]
    rcases idle.conn with same | none
    · exact h.held i (same ▸ held)
    · rw [none] at held
      contradiction
  · rw [idle.nextConn]
    exact h.known i req asked
  · obtain ⟨before, bytes⟩ := idle.bytes i connected
    exact bytes.trans (idle.order.symm ▸ h.bytes i before)

theorem answeredRecorded {w : World} {log : List Entry} (h : Recorded ⟨w, log⟩) (i : ConnId)
    (msg : RtspMessage) : Recorded ⟨w, .answered i msg :: log⟩ :=
  ⟨h.held, fun j req asked => h.known j req (by simpa using asked), h.bytes⟩

theorem sendsRecorded {w after : World} {log : List Entry} {req : RtspMessage}
    (sends : Sends w after req) (h : Recorded ⟨w, log⟩) :
    Recorded ⟨after, ((w.source.conn.map fun i => Entry.asked i req).toList ++ log)⟩ := by
  have conn : after.source.conn = w.source.conn := by rw [sends.source]
  have held : ∀ i, after.source.conn = some i → i < after.nextConn := fun i there => by
    rw [sends.nextConn]
    exact h.held i (conn ▸ there)
  have old : ∀ i r, .asked i r ∈ log → i < after.nextConn := fun i r asked => by
    rw [sends.nextConn]
    exact h.known i r asked
  refine ⟨held, fun i r asked => ?_, fun j connected => ?_⟩
  · cases there : w.source.conn with
    | none =>
      rw [there] at asked
      exact old i r asked
    | some k =>
      rw [there] at asked
      rcases List.mem_cons.mp asked with same | earlier
      · cases same
        exact held _ (conn.trans there)
      · exact old i r earlier
  · obtain ⟨before, bytes⟩ := sends.bytes j connected
    have recorded : (w.conns j).tcp.accepted = bytesOn after.order j log :=
      sends.order.symm ▸ h.bytes j before
    refine bytes.trans ?_
    rw [recorded, ← sends.order]
    cases there : w.source.conn with
    | none => exact (List.append_nil _)
    | some k => simp [bytesOn]

theorem openedRecorded {w after : World} {log : List Entry} (opened : Opened w after)
    (h : Recorded ⟨w, log⟩) :
    Recorded ⟨after, .asked w.nextConn (optionsRequest w.source.upstreamUrl 1) :: log⟩ := by
  have fresh : ∀ past : List Entry, (∀ i req, .asked i req ∈ past → i < w.nextConn) →
      bytesOn w.order w.nextConn past = [] := by
    intro past known
    induction past with
    | nil => rfl
    | cons entry past ih =>
      have later := ih fun i req asked => known i req (List.mem_cons_of_mem _ asked)
      cases entry with
      | answered i msg => exact later
      | asked i req =>
        have differ : i ≠ w.nextConn := Nat.ne_of_lt (known i req List.mem_cons_self)
        rw [bytesOn, if_neg differ, later]
        rfl
  refine ⟨fun i held => ?_, fun i req asked => ?_, fun j connected => ?_⟩
  · rw [opened.conn] at held
    cases held
    rw [opened.nextConn]
    exact Nat.lt_succ_self _
  · rw [opened.nextConn]
    rcases List.mem_cons.mp asked with same | earlier
    · cases same
      exact Nat.lt_succ_self _
    · exact Nat.lt_succ_of_lt (h.known i req earlier)
  · have bytes := opened.bytes j connected
    dsimp only [bytesOn]
    rw [opened.order]
    by_cases same : j = w.nextConn
    · subst same
      rw [if_pos rfl] at bytes ⊢
      rw [fresh log h.known, List.nil_append]
      exact bytes
    · rw [if_neg same] at bytes
      rw [if_neg (Ne.symm same), List.append_nil]
      exact bytes.2.trans (h.bytes j bytes.1)

theorem ordinaryRequested (w : World) {h : Happening} (ordinary : Ordinary h) : requested w h =
      if opens w h then some (w.nextConn, optionsRequest w.source.upstreamUrl 1) else none := by
  cases h with
  | message | stop => exact ordinary.elim
  | enter | frame | stored | ended | broken | runTask | writable | fire => rfl

theorem watchOrdinary (s : Watched) {h : Happening} (ordinary : Ordinary h) :
    watch s h = ⟨effect s.world h, if opens s.world h then
      .asked s.world.nextConn (optionsRequest s.world.source.upstreamUrl 1) :: s.log else s.log⟩ := by
  have nothing : received h = [] := by
    cases h with
    | message => exact ordinary.elim
    | enter | frame | stored | ended | broken | runTask | writable | fire | stop => rfl
  rw [watch, ordinaryRequested s.world ordinary, nothing]
  split <;> rfl

theorem watchMessage (s : Watched) (i : ConnId) (msg : RtspMessage) :
    watch s (.message i msg) = ⟨s.world.handleResponse msg,
      ((reply s.world msg).bind fun req => s.world.source.conn.map fun j => Entry.asked j req).toList ++
        .answered i msg :: s.log⟩ := by
  simp only [watch, requested, received, effect]
  cases s.world.source.conn <;> cases reply s.world msg <;> rfl

/-! What the source holds behind a response and behind a stop. -/

theorem handledSource (w : World) (msg : RtspMessage) :
    (w.handleResponse msg).source.upstreamUrl = w.source.upstreamUrl ∧
      (w.handleResponse msg).source.sessionId = (heard w msg).source.sessionId := by
  cases replies : reply w msg with
  | none =>
    rw [silentSource replies]
    exact ⟨(heardKept w msg).url, rfl⟩
  | some req =>
    rw [(repliedSends replies).source]
    exact ⟨(readyKept w msg).url, (readyHeard w msg).2⟩

theorem stoppedSource (w : World) (writes : List WriteResult) :
    (w.stop writes).source.upstreamUrl = w.source.upstreamUrl ∧
      (w.stop writes).source.sessionId = w.source.sessionId := by
  rcases stopSends w writes with ⟨_, idle⟩ | ⟨_, mid, _, _, _, sends, idle⟩
  · exact ⟨idle.url, idle.sessionId⟩
  · rw [idle.url, idle.sessionId, sends.source]
    exact ⟨rfl, rfl⟩

theorem watchAsked {s : Watched} {hap : Happening} {i : ConnId} {req : RtspMessage}
    (asked : .asked i req ∈ (watch s hap).log) :
    requested s.world hap = some (i, req) ∨ .asked i req ∈ s.log := by
  have heardOnly : .asked i req ∉ received hap := by
    cases hap <;> simp [received]
  rcases List.mem_append.mp asked with now | before
  · rcases List.mem_append.mp now with sent | heard
    · obtain ⟨pair, found, same⟩ := Option.map_eq_some_iff.mp (Option.mem_toList.mp sent)
      cases same
      exact .inl found
    · exact absurd heard heardOnly
  · exact .inr before

/-! The source as it is started. -/

def created (order : HeaderOrder) (upstreamUrl streamPath : Bytes) (writes : List WriteResult) : World :=
  ((World.create order upstreamUrl streamPath).entering writes).setStopping false

theorem beginCases (order : HeaderOrder) (upstreamUrl streamPath : Bytes) (connect : ConnectResult)
    (writes : List WriteResult) : if connect = .immediate
    then Opened (created order upstreamUrl streamPath writes)
      (begin order upstreamUrl streamPath connect writes).world
    else Idle (created order upstreamUrl streamPath writes)
      (begin order upstreamUrl streamPath connect writes).world :=
  upstreamCases (w := created order upstreamUrl streamPath writes) rfl connect

/-! A property that opening a connection and being idle keep holds when the source
is started, and is kept by whatever is no response and no stop. -/
section
variable {P : Watched → Prop}
  (opens_ : ∀ {w after log}, Opened w after → P ⟨w, log⟩ →
    P ⟨after, .asked w.nextConn (optionsRequest w.source.upstreamUrl 1) :: log⟩)
  (idles : ∀ {w after log}, Idle w after → P ⟨w, log⟩ → P ⟨after, log⟩)
include opens_ idles

theorem beginKeeps (order : HeaderOrder) (upstreamUrl streamPath : Bytes) (connect : ConnectResult)
    (writes : List WriteResult) (fresh : P ⟨created order upstreamUrl streamPath writes, []⟩) :
    P (begin order upstreamUrl streamPath connect writes) := by
  have begun := beginCases order upstreamUrl streamPath connect writes
  split at begun
  · rename_i now
    have kept := opens_ begun fresh
    rw [begin, if_pos now]
    rw [begin] at kept
    exact kept
  · rename_i later
    have kept := idles begun fresh
    rw [begin, if_neg later]
    rw [begin] at kept
    exact kept

theorem ordinaryKeeps {s : Watched} {hap : Happening} (ordinary : Ordinary hap) (h : P s) :
    P (watch s hap) := by
  have happened := happens s.world ordinary
  rw [watchOrdinary s ordinary]
  split at happened
  · rename_i open_
    rw [if_pos open_]
    exact opens_ happened h
  · rename_i closed
    rw [if_neg closed]
    exact idles happened h
end

theorem watchRecorded {s : Watched} (h : Recorded s) (hap : Happening) : Recorded (watch s hap) := by
  cases hap with
  | message i msg =>
    rw [watchMessage]
    cases replies : reply s.world msg with
    | none => exact idleRecorded (silentIdle replies) (keptRecorded (heardKept _ _) (answeredRecorded h i msg))
    | some req =>
      have sends := repliedSends replies
      have recorded := sendsRecorded sends (keptRecorded (readyKept _ _) (answeredRecorded h i msg))
      rw [(readyKept s.world msg).conn] at recorded
      exact recorded
  | stop writes =>
    have stopped := idleRecorded (stoppingIdle s.world writes) h
    rcases stopSends s.world writes with ⟨none, idle⟩ | ⟨i, mid, _, held, some_, sends, idle⟩
    · rw [watch, none]
      exact idleRecorded idle stopped
    · have recorded := sendsRecorded sends stopped
      rw [watch, some_]
      have conn : (stopping s.world writes).source.conn = some i := held
      rw [conn] at recorded
      exact idleRecorded idle recorded
  | enter | frame | stored | writable | ended | broken | fire | runTask =>
    exact ordinaryKeeps openedRecorded idleRecorded trivial h

theorem beginRecorded (order : HeaderOrder) (upstreamUrl streamPath : Bytes) (connect : ConnectResult)
    (writes : List WriteResult) : Recorded (begin order upstreamUrl streamPath connect writes) :=
  beginKeeps openedRecorded idleRecorded order upstreamUrl streamPath connect writes
    ⟨nofun, nofun, fun i connected => by contradiction⟩

theorem traceRecorded (order : HeaderOrder) (upstreamUrl streamPath : Bytes) (connect : ConnectResult)
    (writes : List WriteResult) (hs : List Happening) :
    Recorded (run watch (begin order upstreamUrl streamPath connect writes) hs) :=
  runInvariant (I := Recorded) (fun _ hap recorded => watchRecorded recorded hap)
    (beginRecorded order upstreamUrl streamPath connect writes) hs

end RtspRelay.Exchange
