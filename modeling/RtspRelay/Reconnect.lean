import RtspRelay.HandshakeCaller
import RtspRelay.SourceReads

/-! A connection to the upstream from the moment a client that is still there has
established it, while nothing but its own data comes. However the source came to it, it
asks anew on it, and the answers decide what it then knows: the session it was given
before lives on until one of them names another, the SDP until the second of them. -/
namespace RtspRelay.Reconnect
open Machine Buffer Protocol Source World Decoders StreamDecoder Exchange Transition
open Connection (WriteResult ReadResult)
open Recovery (Connected)
open HandshakeSides (sourceState sourcePlaying)
open HandshakeScript (scriptCases)
open SourceReads (waiting)

def message : StreamUnit → Option RtspMessage
  | .interleaved _ _ => none
  | .message msg => some msg

-- The answers that move the handshake on.
def grantedBy (units : List StreamUnit) : List RtspMessage :=
  (units.filterMap message).filter fun msg => msg.statusCode = 200

def grants (bytes : Bytes) : List RtspMessage := grantedBy (decode interleavedDecoder bytes).1

def learnt (id : Bytes) (oks : List RtspMessage) : Bytes :=
  oks.foldl (fun id msg => if msg.sessionId = [] then id else msg.sessionId) id

def asks (url id : Bytes) (oks : List RtspMessage) : Nat → RtspMessage
  | 0 => optionsRequest url 1
  | 1 => describeRequest url 2
  | 2 => setupAsked url 3 (learnt id (oks.take 2))
  | _ => playRequest url 4 (learnt id (oks.take 3))

-- How many requests the answers so far have called for.
def requests (oks : List RtspMessage) : Nat := min (oks.length + 1) 4

structure Conversed (before : World) (oks : List RtspMessage) (w : World) : Prop where
  url : w.source.upstreamUrl = before.source.upstreamUrl
  conn : w.source.conn = some before.nextConn
  state : w.source.state = sourceState oks.length
  cseq : w.source.cseq = requests oks
  sessionId : w.source.sessionId = learnt before.source.sessionId oks
  sdp : w.source.sdp = oks[1]?.elim before.source.sdp RtspMessage.sdp
  sent : (w.conns before.nextConn).tcp.accepted = (List.range (requests oks)).flatMap fun k =>
    serialize before.order (asks before.source.upstreamUrl before.source.sessionId oks k)

-- A callback that ends in TcpClient::handleConnect, if its client is there.
def reaches (w : World) (connect : ConnectResult) : Event → Bool
  | .writable c failed => opens w (.writable c failed)
  | .fire n => opens w (.fire n connect)
  | .read _ _ | .runTask => false

def Establishes (w : World) (input : Source.Input) : Prop :=
  w.crashed = false ∧ w.dangles input.event = false ∧ reaches w input.connect input.event = true

instance (w : World) (input : Source.Input) : Decidable (Establishes w input) :=
  inferInstanceAs (Decidable (_ ∧ _))

/-! A connection on which nothing has failed, and whether the loop reports it. -/
structure Usable (w : World) (i : ConnId) : Prop where
  connected : Connected w i
  descriptor : 0 ≤ (w.conns i).tcp.fd
  works : WriteResult.error ∉ w.writes
  running : w.crashed = false

def Listed (w : World) (i : ConnId) : Prop := (w.conns i).registered = true

theorem usableSame {w after : World} {i : ConnId} (h : Usable w i) (conns : after.conns = w.conns)
    (writes : after.writes = w.writes) (crashed : after.crashed = w.crashed) : Usable after i := by
  have connected := h.connected
  have descriptor := h.descriptor
  refine ⟨?_, ?_, writes ▸ h.works, crashed.trans h.running⟩
  · rwa [Connected, conns]
  · rwa [conns]

theorem sendUsable {w : World} {i : ConnId} (h : Usable w i) (data : Bytes) :
    Usable (w.send i data) i ∧ (Listed w i → Listed (w.send i data) i) := by
  have works := Recovery.headWorks h.works
  have left : WriteResult.error ∉ w.writes.tail := fun inside => h.works (List.mem_of_mem_tail inside)
  have connected : (w.conns i).tcp.state = .connected := h.connected
  have fine : ((w.conns i).tcp.sendInLoop data (w.writes.headD .again)).2 ≠ .failed :=
    (w.conns i).tcp.sendEffect works
  obtain ⟨failed, _⟩ | ⟨_, state, descriptor⟩ :=
    (w.conns i).tcp.sendOutcome data (w.writes.headD .again)
  · exact absurd failed fine
  · unfold World.send
    dsimp only
    rw [if_pos connected]
    refine ⟨⟨?_, ?_, left, h.running⟩, fun listed => ?_⟩
    · rw [Connected, setConnSame]
      exact state.trans connected
    · rw [setConnSame]
      exact descriptor ▸ h.descriptor
    · rw [Listed, setConnSame]
      exact Bool.and_eq_true_iff.mpr ⟨listed, bne_iff_ne.mpr fine⟩

theorem sendRequestUsable {w : World} {i : ConnId} (h : Usable w i) (held : w.source.conn = some i)
    (request : Nat → RtspMessage) :
    Usable (w.sendRequest request) i ∧ (Listed w i → Listed (w.sendRequest request) i) := by
  have counted : Usable { w with source := { w.source with cseq := nextCseq w.source } } i :=
    usableSame h rfl rfl rfl
  have sends : w.sendRequest request = World.send
      { w with source := { w.source with cseq := nextCseq w.source } } i
      (serialize w.order (request (nextCseq w.source))) := by
    unfold World.sendRequest
    simp only [held]
    rfl
  obtain ⟨usable, listed⟩ := sendUsable counted (serialize w.order (request (nextCseq w.source)))
  rw [sends]
  exact ⟨usable, listed⟩

theorem handleConnectUsable {w : World} (running : w.crashed = false)
    (works : WriteResult.error ∉ w.writes) (c : ClientId) :
    Usable (w.handleConnect c) w.nextConn ∧ Listed (w.handleConnect c) w.nextConn := by
  have created : (w.openConn c).conns w.nextConn = ⟨.create w.nextConn, c, false⟩ := by
    simp only [World.openConn, World.setClient, setConnSame]
  have fresh : Usable { w.openConn c with
      source := { w.source with conn := some w.nextConn, state := .options, cseq := 0 } } w.nextConn := by
    refine ⟨?_, ?_, works, running⟩
    · rw [Connected, created]
      rfl
    · rw [created]
      exact Int.natCast_nonneg _
  have asked : Usable ((w.openConn c).onConnect w.nextConn) w.nextConn := (sendRequestUsable fresh rfl _).1
  refine ⟨⟨?_, ?_, asked.works, asked.running⟩, ?_⟩
  · rw [Connected, World.handleConnect, registerTcp]
    exact asked.connected
  · rw [World.handleConnect, registerTcp]
    exact asked.descriptor
  · rw [Listed, World.handleConnect, World.register, setConnSame]

/-! The callback that establishes a connection. -/

theorem upstreamConnects {w : World} (going : w.source.stopping = false) :
    ∃ (v : World) (c : ClientId), (w.setState .connecting).connectToUpstream .immediate = v.handleConnect c ∧
      v.nextConn = w.nextConn ∧ v.writes = w.writes ∧ v.crashed = w.crashed := by
  have open_ : ¬ (w.setState .connecting).source.stopping = true := Bool.eq_false_iff.mp going
  unfold World.connectToUpstream World.dropClient
  rw [if_neg open_]
  split <;> exact ⟨_, _, rfl, rfl, rfl, rfl⟩

theorem fireConnects {w : World} {n : Nat} (opening : opens w (.fire n .immediate) = true) :
    ∃ (v : World) (c : ClientId), w.fire n .immediate = v.handleConnect c ∧ v.nextConn = w.nextConn ∧
      v.writes = w.writes ∧ v.crashed = w.crashed := by
  unfold opens at opening
  obtain ⟨_, due⟩ := Bool.and_eq_true_iff.mp opening
  unfold World.fire
  cases found : w.timers[n]? with
  | none =>
    rw [found] at due
    contradiction
  | some t =>
    rw [found] at due
    cases t with
    | connect c => exact ⟨_, c, rfl, rfl, rfl, rfl⟩
    | reconnect =>
      have going : w.source.stopping = false := by simpa using due
      exact upstreamConnects (w := w.takeTimer n) going
    | retry404 =>
      have going : w.source.stopping = false := by simpa using due
      have open_ : ¬ (w.takeTimer n).source.stopping = true := Bool.eq_false_iff.mp going
      simp only [World.expire]
      rw [if_neg open_]
      exact upstreamConnects (w := w.takeTimer n) going

theorem establishedForm {w : World} {input : Source.Input} (establishes : Establishes w input) :
    ∃ (v : World) (c : ClientId), w.step input = v.handleConnect c ∧ v.nextConn = w.nextConn ∧
      v.writes = input.writes ∧ v.crashed = false ∧ Opened (w.entering input.writes) (v.handleConnect c) := by
  obtain ⟨event, connect, writes⟩ := input
  obtain ⟨running, -, opening⟩ := establishes
  have stepped : w.step ⟨event, connect, writes⟩ = (w.entering writes).handle connect event := by
    rw [World.step, if_neg (Bool.eq_false_iff.mp running)]
  have opened : ∀ {h : Happening}, Ordinary h → opens (w.entering writes) h = true →
      Opened (w.entering writes) (effect (w.entering writes) h) := by
    intro h ordinary opening
    have happened := happens (w.entering writes) ordinary
    rwa [if_pos opening] at happened
  rw [stepped]
  cases event with
  | read i result => contradiction
  | runTask => contradiction
  | writable c failed =>
    have form := opened (h := .writable c failed) trivial opening
    obtain ⟨connecting, fine⟩ : (w.clients c).connecting = true ∧ (!failed) = true :=
      Bool.and_eq_true_iff.mp opening
    have due : ((w.entering writes).clients c).connecting = true := connecting
    have same : (w.entering writes).writable c failed = (w.entering writes).handleConnect c := by
      cases failed with
      | true => contradiction
      | false => rw [World.writable, if_pos due, if_neg Bool.false_ne_true]
    have here : Opened (w.entering writes) ((w.entering writes).writable c failed) := form
    exact ⟨w.entering writes, c, same, rfl, rfl, running, same ▸ here⟩
  | fire n =>
    have form := opened (h := .fire n connect) trivial opening
    have open_ : opens w (.fire n connect) = true := opening
    have now : connect = .immediate := by
      unfold opens at open_
      exact of_decide_eq_true (Bool.and_eq_true_iff.mp open_).1
    subst now
    obtain ⟨v, c, same, next, answers, crashed⟩ := fireConnects (w := w.entering writes) opening
    have here : Opened (w.entering writes) ((w.entering writes).fire n .immediate) := form
    exact ⟨v, c, same, next, answers, crashed.trans running, same ▸ here⟩

/-! What one answer does. -/

structure Talking (before : World) (oks : List RtspMessage) (w : World) : Prop where
  conversed : Conversed before oks w
  usable : Usable w before.nextConn
  listed : Listed w before.nextConn
  order : w.order = before.order

theorem establishedTalking {w : World} {input : Source.Input} (establishes : Establishes w input)
    (works : WriteResult.error ∉ input.writes) : Talking w [] (w.step input) := by
  obtain ⟨v, c, stepped, next, answers, running, opened⟩ := establishedForm establishes
  obtain ⟨usable, listed⟩ := handleConnectUsable running (answers ▸ works) c
  rw [next] at usable listed
  have bytes := opened.bytes w.nextConn usable.connected
  have own : w.nextConn = (w.entering input.writes).nextConn := rfl
  rw [if_pos own] at bytes
  rw [stepped]
  refine ⟨⟨opened.url, opened.conn, opened.state.1, opened.state.2, opened.sessionId, opened.described.1, ?_⟩,
    usable, listed, opened.order⟩
  rw [bytes]
  exact (List.append_nil _).symm

theorem learntMore (id : Bytes) (oks : List RtspMessage) (msg : RtspMessage) : learnt id (oks ++ [msg]) =
    if msg.sessionId = [] then learnt id oks else msg.sessionId := List.foldl_append

theorem asksSoFar (url id : Bytes) {oks : List RtspMessage} {k : Nat} (early : k ≤ oks.length)
    (msg : RtspMessage) : asks url id (oks ++ [msg]) k = asks url id oks k := by
  cases k using scriptCases with
  | options | describe => rfl
  | setup => rw [asks, asks, List.take_append_of_le_length early]
  | play k =>
    have whole : (oks ++ [msg]).take 3 = oks.take 3 :=
      List.take_append_of_le_length (Nat.le_trans (Nat.le_add_left 3 k) early)
    exact congrArg (fun taken => playRequest url 4 (learnt id taken)) whole

theorem heardLearns {before w : World} {oks : List RtspMessage} (h : Conversed before oks w) {msg : RtspMessage}
    (ok : msg.statusCode = 200) :
    (heard w msg).source.sessionId = learnt before.source.sessionId (oks ++ [msg]) := by
  rw [heard, if_pos ok, learntMore, World.noteSession, ← h.sessionId]
  split <;> rfl

theorem readyConversed {before w : World} {oks : List RtspMessage} (h : Conversed before oks w)
    (msg : RtspMessage) : (ready w msg).source.state = sourceState (oks ++ [msg]).length ∧
      (ready w msg).source.sdp = (oks ++ [msg])[1]?.elim before.source.sdp RtspMessage.sdp := by
  have state := h.state
  have sdp := h.sdp
  have learns := readyLearns w msg
  have keeps (other : w.source.state ≠ .describe) : (ready w msg).source.sdp = w.source.sdp := learns.1 other
  rcases oks with _ | ⟨first, _ | ⟨second, _ | ⟨third, rest⟩⟩⟩
  · refine ⟨?_, (keeps fun same => ?_).trans sdp⟩
    · rw [ready, state]
      rfl
    · rw [state] at same
      contradiction
  · rw [ready, state]
    exact ⟨rfl, rfl⟩
  · refine ⟨?_, (keeps fun same => ?_).trans sdp⟩
    · rw [ready, state]
      rfl
    · rw [state] at same
      contradiction
  · refine ⟨?_, (keeps fun same => ?_).trans sdp⟩
    · rw [ready, state]
      exact (heardSource w msg).1 ▸ state
    · rw [state] at same
      contradiction

theorem handleResponseUsable {w : World} {i : ConnId} (h : Usable w i) (held : w.source.conn = some i)
    (msg : RtspMessage) :
    Usable (w.handleResponse msg) i ∧ (Listed w i → Listed (w.handleResponse msg) i) := by
  -- A request sent by a world that holds the same connections in the same state.
  have asking : ∀ (v : World) (request : Nat → RtspMessage), v.conns = w.conns → v.writes = w.writes →
      v.crashed = w.crashed → v.source.conn = some i →
      Usable (v.sendRequest request) i ∧ (Listed w i → Listed (v.sendRequest request) i) := by
    intro v request conns writes crashed conn
    obtain ⟨usable, listed⟩ := sendRequestUsable (usableSame h conns writes crashed) conn request
    refine ⟨usable, fun before => listed ?_⟩
    rwa [Listed, conns]
  have noted := heardKept w msg
  unfold World.handleResponse
  split
  · split <;> exact ⟨usableSame h rfl rfl rfl, id⟩
  · rename_i good
    have same : w.noteSession msg = heard w msg := (if_pos (not_not.mp good)).symm
    have writes : (heard w msg).writes = w.writes := by rw [(heardSource w msg).2]
    have conn : (heard w msg).source.conn = some i := noted.conn.trans held
    rw [same]
    unfold World.advance
    split
    · exact asking _ _ noted.conns writes noted.crashed conn
    · exact asking _ _ noted.conns writes noted.crashed conn
    · have channels : ((heard w msg).noteChannels msg).conns = (heard w msg).conns ∧
          ((heard w msg).noteChannels msg).writes = (heard w msg).writes ∧
          ((heard w msg).noteChannels msg).crashed = (heard w msg).crashed ∧
          ((heard w msg).noteChannels msg).source.conn = (heard w msg).source.conn := by
        unfold World.noteChannels
        split <;> exact ⟨rfl, rfl, rfl, rfl⟩
      obtain ⟨conns, answers, crashed, own⟩ := channels
      exact asking _ _ (conns.trans noted.conns) (answers.trans writes) (crashed.trans noted.crashed)
        (own.trans conn)
    · refine ⟨usableSame h noted.conns writes noted.crashed, fun listed => ?_⟩
      rwa [Listed, noted.conns]

theorem requestsMore {oks : List RtspMessage} (msg : RtspMessage) (small : oks.length < 3) :
    requests oks = oks.length + 1 ∧ requests (oks ++ [msg]) = oks.length + 2 := by
  unfold requests
  rw [List.length_append, List.length_singleton]
  omega

theorem grantedReply {before w : World} {oks : List RtspMessage} (h : Conversed before oks w)
    {msg req : RtspMessage} (replies : reply w msg = some req) : oks.length < 3 ∧
      req = asks before.source.upstreamUrl before.source.sessionId (oks ++ [msg]) (oks.length + 1) := by
  obtain ⟨ok, form⟩ := replied replies
  have learns := heardLearns h ok
  have state := h.state
  have number : nextCseq w.source = (requests oks + 1) % 2 ^ 32 := by rw [nextCseq, h.cseq]
  rcases oks with _ | ⟨first, _ | ⟨second, _ | ⟨third, rest⟩⟩⟩
  · cases form with
    | describe => exact ⟨Nat.succ_pos 2, by rw [h.url, number]; rfl⟩
    | setup from_ | play from_ => rw [from_] at state; contradiction
  · cases form with
    | setup => exact ⟨Nat.lt_of_sub_eq_succ rfl, by rw [h.url, number, learns]; rfl⟩
    | describe from_ | play from_ => rw [from_] at state; contradiction
  · cases form with
    | play => exact ⟨Nat.lt_succ_self 2, by rw [h.url, number, learns]; rfl⟩
    | describe from_ | setup from_ => rw [from_] at state; contradiction
  · cases form with
    | describe from_ | setup from_ | play from_ => rw [from_] at state; contradiction

theorem sentMore {before : World} {oks : List RtspMessage} (msg : RtspMessage) {sent : Bytes}
    (so : sent = (List.range (requests oks)).flatMap fun k =>
      serialize before.order (asks before.source.upstreamUrl before.source.sessionId oks k)) :
    sent = (List.range (requests oks)).flatMap fun k =>
      serialize before.order (asks before.source.upstreamUrl before.source.sessionId (oks ++ [msg]) k) := by
  refine so.trans (List.flatMap_congr fun k early => ?_)
  have reach : k < requests oks := List.mem_range.mp early
  rw [asksSoFar _ _ (by unfold requests at reach; omega)]

theorem grantedTalking {before w : World} {oks : List RtspMessage} (h : Talking before oks w)
    {msg : RtspMessage} (ok : msg.statusCode = 200) : Talking before (oks ++ [msg]) (w.handleResponse msg) := by
  obtain ⟨usable, listed⟩ := handleResponseUsable h.usable h.conversed.conn msg
  have learns := heardLearns h.conversed ok
  obtain ⟨state, sdp⟩ := readyConversed h.conversed msg
  have sentSoFar := sentMore msg h.conversed.sent
  cases replies : reply w msg with
  | some req =>
    obtain ⟨small, asked⟩ := grantedReply h.conversed replies
    obtain ⟨now, next⟩ := requestsMore msg small
    have sends := repliedSends replies
    have kept := readyKept w msg
    obtain ⟨_, bytes⟩ := sends.bytes before.nextConn usable.connected
    refine ⟨⟨?_, ?_, ?_, ?_, ?_, ?_, ?_⟩, usable, listed h.listed,
      sends.order.trans (kept.order.trans h.order)⟩
    · rw [sends.source]
      exact kept.url.trans h.conversed.url
    · rw [sends.source]
      exact kept.conn.trans h.conversed.conn
    · rw [sends.source]
      exact state
    · rw [sends.source, next, nextCseq, kept.cseq, h.conversed.cseq, now]
      exact Nat.mod_eq_of_lt (by omega)
    · rw [sends.source]
      exact (readyHeard w msg).2.trans learns
    · rw [sends.source]
      exact sdp
    · rw [bytes, kept.conns, kept.conn, if_pos h.conversed.conn, sentSoFar, now, next, kept.order, h.order, asked,
        List.range_succ (n := oks.length + 1), List.flatMap_append, List.flatMap_singleton]
  | none =>
    have kept := heardKept w msg
    have source := silentSource replies
    obtain ⟨conns, _⟩ := silentRest replies
    have large : 3 ≤ oks.length := by
      rcases Nat.lt_or_ge oks.length 3 with small | large
      · have shaking : w.source.state = .options ∨ w.source.state = .describe ∨ w.source.state = .setup := by
          rw [h.conversed.state]
          cases length : oks.length using scriptCases with
          | options => exact .inl rfl
          | describe => exact .inr (.inl rfl)
          | setup => exact .inr (.inr rfl)
          | play k => omega
        obtain ⟨req, answers⟩ := Exchange.replies ok shaking
        rw [replies] at answers
        contradiction
      · exact large
    have same : requests (oks ++ [msg]) = requests oks := by
      unfold requests
      rw [List.length_append]
      omega
    have playing : w.source.state = .playing := h.conversed.state.trans (sourcePlaying.mpr large)
    have heardIs : ready w msg = heard w msg := by rw [ready, playing]
    rw [heardIs] at state sdp
    refine ⟨⟨?_, ?_, ?_, ?_, ?_, ?_, ?_⟩, usable, listed h.listed,
      (silentIdle replies).order.trans (kept.order.trans h.order)⟩
    · rw [source]
      exact kept.url.trans h.conversed.url
    · rw [source]
      exact kept.conn.trans h.conversed.conn
    · rw [source]
      exact state
    · rw [source, kept.cseq, same]
      exact h.conversed.cseq
    · rw [source]
      exact learns
    · rw [source]
      exact sdp
    · rw [conns, same]
      exact sentSoFar

theorem refusedTalking {before w : World} {oks : List RtspMessage} (h : Talking before oks w)
    {msg : RtspMessage} (bad : msg.statusCode ≠ 200) : Talking before oks (w.handleResponse msg) := by
  obtain ⟨usable, listed⟩ := handleResponseUsable h.usable h.conversed.conn msg
  have silent : reply w msg = none := if_pos bad
  have unheard : heard w msg = w := if_neg bad
  have source : (w.handleResponse msg).source = w.source := (silentSource silent).trans (by rw [unheard])
  have order : (w.handleResponse msg).order = w.order := (silentIdle silent).order.trans (by rw [unheard])
  obtain ⟨conns, _⟩ := silentRest silent
  obtain ⟨url, conn, state, cseq, sessionId, sdp, sent⟩ := h.conversed
  exact ⟨⟨source ▸ url, source ▸ conn, source ▸ state, source ▸ cseq, source ▸ sessionId, source ▸ sdp,
    conns ▸ sent⟩, usable, listed h.listed, order.trans h.order⟩

theorem talkingSame {before w after : World} {oks : List RtspMessage} (h : Talking before oks w)
    (source : after.source = w.source) (tcp : (after.conns before.nextConn).tcp.accepted =
      (w.conns before.nextConn).tcp.accepted) (order : after.order = w.order)
    (usable : Usable after before.nextConn) (listed : Listed after before.nextConn) :
    Talking before oks after := by
  obtain ⟨url, conn, state, cseq, sessionId, sdp, sent⟩ := h.conversed
  exact ⟨⟨source ▸ url, source ▸ conn, source ▸ state, source ▸ cseq, source ▸ sessionId, source ▸ sdp,
    tcp.trans sent⟩, usable, listed, order.trans h.order⟩

/-! What a read does. -/

theorem unitsTalking {before w : World} {oks : List RtspMessage} (h : Talking before oks w)
    (units : List StreamUnit) : Talking before (oks ++ grantedBy units)
      (run (onUnit handleInterleavedData handleResponse) w units) := by
  induction units generalizing w oks with
  | nil => rwa [grantedBy, List.filterMap_nil, List.filter_nil, List.append_nil]
  | cons u rest ih =>
    cases u with
    | interleaved channel data =>
      exact ih (talkingSame h rfl rfl rfl (usableSame h.usable rfl rfl rfl) h.listed)
    | message msg =>
      rcases Classical.em (msg.statusCode = 200) with ok | bad
      · have later := ih (grantedTalking h ok)
        have more : grantedBy (.message msg :: rest) = msg :: grantedBy rest := by
          simp [grantedBy, message, ok]
        rwa [more, List.append_cons]
      · have later := ih (refusedTalking h bad)
        have same : grantedBy (.message msg :: rest) = grantedBy rest := by
          simp [grantedBy, message, bad]
        rwa [same]

-- The connection has brought `seen`, and what of it is no whole unit yet waits.
structure Reading (before : World) (seen : Bytes) (w : World) : Prop where
  talking : Talking before (grants seen) w
  rest : (decode interleavedDecoder seen).2 = .ok (waiting w before.nextConn)

theorem grantsMore {seen rest : Bytes} (left : (decode interleavedDecoder seen).2 = .ok rest) (chunk : Bytes) :
    grants (seen ++ chunk) = grants seen ++ grants (rest ++ chunk) ∧
      (decode interleavedDecoder (seen ++ chunk)).2 = (decode interleavedDecoder (rest ++ chunk)).2 := by
  unfold grants grantedBy
  rw [decodeAppend interleavedDecoder seen chunk, andThen, left]
  exact ⟨by rw [List.filterMap_append, List.filter_append], rfl⟩

theorem readTalking {before w : World} {seen chunk left : Bytes} (h : Reading before seen w)
    (connect : ConnectResult) {writes : List WriteResult} (works : WriteResult.error ∉ writes)
    (whole : (decode interleavedDecoder (seen ++ chunk)).2 = .ok left) :
    Reading before (seen ++ chunk) (w.step ⟨.read before.nextConn (.data chunk), connect, writes⟩) := by
  obtain ⟨talking, rest⟩ := h
  obtain ⟨more, ends⟩ := grantsMore rest chunk
  have live : (w.entering writes).Live before.nextConn := ⟨talking.listed, talking.usable.descriptor⟩
  have stepped : w.step ⟨.read before.nextConn (.data chunk), connect, writes⟩ = (w.entering writes).handleMessage
      before.nextConn ((w.conns before.nextConn).tcp.inputBuf.append chunk) := by
    rw [World.step, if_neg (Bool.eq_false_iff.mp talking.usable.running), World.handle, World.read, if_pos live]
    rfl
  have content : ((w.conns before.nextConn).tcp.inputBuf.append chunk).content =
      waiting w before.nextConn ++ chunk := ByteBuffer.appendContent _ _
  have entered : Talking before (grants seen) (w.entering writes) := by
    obtain ⟨connected, descriptor, _, running⟩ := talking.usable
    exact talkingSame talking rfl rfl rfl ⟨connected, descriptor, works, running⟩ talking.listed
  have leaves := handleMessageLeaves handleInterleavedData handleResponse (w.entering writes)
    ((w.conns before.nextConn).tcp.inputBuf.append chunk)
  have units := unitsTalking entered
    (decode interleavedDecoder ((w.conns before.nextConn).tcp.inputBuf.append chunk).content).1
  rw [← handleMessageRuns] at units
  rw [content] at leaves units
  rw [stepped, World.handleMessage]
  generalize Decoders.handleMessage handleInterleavedData handleResponse (w.entering writes)
    ((w.conns before.nextConn).tcp.inputBuf.append chunk) = ended at leaves units
  obtain ⟨after, leftover⟩ := ended
  rw [← ends, whole] at leaves
  cases leftover with
  | error e => contradiction
  | ok buf =>
    obtain ⟨connected, descriptor, works, running⟩ := units.usable
    have same := Except.ok.inj leaves
    refine ⟨talkingSame (w := after) (more ▸ units) rfl ?_ rfl ⟨?_, ?_, works, running⟩ ?_, ?_⟩
    · simp only [afterMessages, setConnSame]
      rfl
    · simp only [afterMessages, Connected, setConnSame]
      exact connected
    · simp only [afterMessages, setConnSame]
      exact descriptor
    · simp only [afterMessages, Listed, setConnSame]
      exact units.listed
    · simp only [afterMessages, waiting, setConnSame, same, whole]

-- A read of the connection `i`: what arrives, and what the socket takes of the requests it calls for.
structure Arrival where
  chunk : Bytes
  writes : List WriteResult

def Arrival.input (i : ConnId) (a : Arrival) : Source.Input := ⟨.read i (.data a.chunk), .inProgress, a.writes⟩

theorem establishedReading {w : World} {input : Source.Input} (establishes : Establishes w input)
    (works : WriteResult.error ∉ input.writes) : Reading w [] (w.step input) := by
  refine ⟨establishedTalking establishes works, ?_⟩
  obtain ⟨v, c, stepped, next, _⟩ := establishedForm establishes
  have buffer := HandshakeCaller.openedBuffer v c
  rw [next] at buffer
  rw [decodeMore interleavedDecoder interleavedDecoder.empty, waiting, stepped, buffer]
  exact congrArg Except.ok (ByteBuffer.initContent 0).symm

theorem arrivalsReading {before w : World} {seen left : Bytes} (h : Reading before seen w)
    {arrivals : List Arrival} (works : ∀ a ∈ arrivals, WriteResult.error ∉ a.writes)
    (whole : (decode interleavedDecoder (seen ++ arrivals.flatMap Arrival.chunk)).2 = .ok left) :
    Reading before (seen ++ arrivals.flatMap Arrival.chunk)
      (run World.step w (arrivals.map (Arrival.input before.nextConn))) := by
  induction arrivals generalizing w seen with
  | nil => rwa [List.flatMap_nil, List.append_nil]
  | cons a rest ih =>
    obtain ⟨first, later⟩ := List.forall_mem_cons.mp works
    rw [List.flatMap_cons, ← List.append_assoc] at whole ⊢
    -- What decodes to its end decodes up to any cut.
    have sofar : ∃ left, (decode interleavedDecoder (seen ++ a.chunk)).2 = .ok left := by
      rw [decodeAppend interleavedDecoder (seen ++ a.chunk), andThen] at whole
      cases cut : (decode interleavedDecoder (seen ++ a.chunk)).2 with
      | ok left => exact ⟨left, rfl⟩
      | error e =>
        rw [cut] at whole
        contradiction
    obtain ⟨left, cut⟩ := sofar
    exact ih (readTalking h .inProgress first cut) later whole

theorem handshakesAnew (w : World) (input : Source.Input) (establishes : Establishes w input)
    (arrivals : List Arrival) (works : WriteResult.error ∉ input.writes ∧
      ∀ a ∈ arrivals, WriteResult.error ∉ a.writes) (left : Bytes)
    (whole : (decode interleavedDecoder (arrivals.flatMap Arrival.chunk)).2 = .ok left) :
    let after := run World.step (w.step input) (arrivals.map (Arrival.input w.nextConn))
    let oks := grants (arrivals.flatMap Arrival.chunk)
    Conversed w oks after ∧ (after.source.state = .playing ↔ 3 ≤ oks.length) ∧
      waiting after w.nextConn = left ∧ after.crashed = false := by
  intro after oks
  have reading := arrivalsReading (establishedReading establishes works.1) works.2 whole
  refine ⟨reading.talking.conversed, ?_, ?_, reading.talking.usable.running⟩
  · rw [reading.talking.conversed.state]
    exact sourcePlaying
  · exact (Except.ok.inj (whole.symm.trans reading.rest)).symm

/-! A camera that played ends its connection and comes back under another session. -/

def ended : World := run World.step (Recovery.camera.start .inProgress [])
  [⟨.writable 0 false, .inProgress, Recovery.sent⟩, Recovery.answered, Recovery.answered, Recovery.answered,
    ⟨.read 0 .eof, .inProgress, []⟩]

def again (text : String) : Arrival := ⟨ascii text, Recovery.sent⟩

def welcomed : List Arrival :=
  [again "RTSP/1.0 200 OK\r\nCSeq: 1\r\n\r\nRTSP/1.0 200 OK\r\nCSe",
    again "q: 2\r\nSession: 9\r\n\r\nRTSP/1.0 200 OK\r\nCSeq: 3\r\n\r\n"]

theorem playsAgain :
    (run World.step (ended.step ⟨.fire 0, .immediate, Recovery.sent⟩)
      (welcomed.map (Arrival.input 1))).source.state = .playing := by
  have establishes : Establishes ended ⟨.fire 0, .immediate, Recovery.sent⟩ := by decide
  obtain ⟨_, playing, _⟩ := handshakesAnew ended ⟨.fire 0, .immediate, Recovery.sent⟩ establishes welcomed
    (by decide) [] (by decide)
  exact playing.mpr (by decide)

end RtspRelay.Reconnect
