import RtspRelay.HandshakeCaller

/-! A relay that pulls its stream from a relay: a source and a session on the two ends
of one connection. Each way the bytes arrive in order and none is lost; how they are cut
is free, and whole frames may stand between the messages of the session. -/
namespace RtspRelay.Handshake
open Machine Buffer Protocol RoundTrip Session Manager Transition Decoders Exchange
open PrintedStream HandshakeScript HandshakeSides HandshakeCaller
open Source (ConnectResult)
open Connection (WriteResult)
open Answers (Env Serving answerMessage)

-- getStreamSdp returns a std::string.
structure Surroundings extends Env where
  held : ∀ i, (sdp i).length ≤ stringMaxSize

-- `returned` is what getStreamSdp returned for each DESCRIBE.
structure Answerer where
  serving : Serving
  returned : List Bytes

-- The session has read `read` of the bytes given to the connection; what it has sent
-- and the source has not read is in `flight`.
structure Link where
  source : Watched
  answerer : Answerer
  buffer : Except Exn ByteBuffer
  read : Nat
  flight : Bytes

-- The connection is reliable, so write() does not fail.
abbrev Writes := { writes : List WriteResult // WriteResult.error ∉ writes }

inductive Move where
  | callback (c : Callback) (connect : ConnectResult) (writes : Writes)
  | toSession (n : Nat)
  | toSource (n : Nat) (writes : Writes)
  | frame (channel : UInt8) (data : { data : Bytes // data.length ≤ 65535 })

section
variable (env : Nat → Surroundings) (self : SessionId) (order : HeaderOrder)

def describedBy (e : Surroundings) (req : RtspMessage) : List Bytes :=
  if req.type = .request ∧ req.method = .describe then
    [e.manager.getStreamSdp e.sdp (extractStreamPath req.url)]
  else []

def answer (a : Answerer) (msg : RtspMessage) : Answerer :=
  ⟨answerMessage (fun n => (env n).toEnv) self a.serving msg,
    a.returned ++ describedBy (env a.serving.handled) msg⟩

def ignoreFrame (a : Answerer) (_channel : UInt8) (_data : Bytes) : Answerer := a

def accepted (s : Link) : Bytes := (s.source.world.conns 0).tcp.accepted

def unread (s : Link) : Bytes := (accepted s).drop s.read

def call (s : Link) (event : Source.Event) (connect : ConnectResult) (writes : Writes) : Watched :=
  run watch s.source (happenings s.source.world (.event ⟨event, connect, writes⟩))

-- The session has been called with the next `size` bytes.
def called (s : Link) (size : Nat) (out : LoopEnd Answerer) : Link :=
  let responses := out.1.serving.responses.drop s.answerer.serving.responses.length
  { s with answerer := out.1, buffer := out.2, read := s.read + size
           flight := s.flight ++ responses.flatMap (serialize order) }

def deliver (s : Link) (chunk : Bytes) : Link :=
  match s.buffer with
  | .error _ => s
  | .ok buf => called order s chunk.length
      (handleRtspMessage ignoreFrame (answer env self) s.answerer (buf.append chunk))

def step (s : Link) : Move → Link
  | .callback c connect writes => { s with source := call s c.event connect writes }
  | .toSession n => deliver env self order s ((unread s).take n)
  | .toSource n writes =>
    if s.source.world.crashed = false ∧ s.source.world.Live 0 then
      { s with source := call s (.read 0 (.data (s.flight.take n))) .refused writes
               flight := s.flight.drop n }
    else s
  | .frame channel data => { s with flight := s.flight ++ Interleaving.frame channel data }
end

theorem callWorld (s : Link) (event : Source.Event) (connect : ConnectResult) (writes : Writes) :
    (call s event connect writes).world = s.source.world.step ⟨event, connect, writes⟩ := by
  rw [call, watchWorld, commandRuns]
  rfl

def start (own : HeaderOrder) (upstreamUrl streamPath : Bytes) (connect : ConnectResult)
    (writes : Writes) (peerAddr : Bytes) (id : UInt32) : Link :=
  ⟨begin own upstreamUrl streamPath connect writes,
    ⟨⟨create peerAddr (generateSessionId id), 0, []⟩, []⟩, .ok (ByteBuffer.init 0), 0, []⟩

def steps : List (RtspMethod × Nat) := [(.options, 1), (.describe, 2), (.setup, 3), (.play, 4)]

structure Negotiated (url : Bytes) (s : Link) : Prop where
  sdp : s.answerer.returned = [s.source.world.source.sdp]
  sessionId : s.source.world.source.sessionId = s.answerer.serving.session.sessionId
  rtpChannel : s.source.world.source.rtpChannel = s.answerer.serving.session.rtpChannel
  rtcpChannel : s.source.world.source.rtcpChannel = s.answerer.serving.session.rtcpChannel
  state : s.answerer.serving.session.state = .setup ∨ s.answerer.serving.session.state = .playing
  streamPath : s.answerer.serving.session.streamPath = extractStreamPath url

structure Agreed (own : HeaderOrder) (url : Bytes) (s : Link) : Prop where
  requests : (sent s.source.log).map (fun req => (req.method, req.cseq)) <+: steps
  written : accepted s = (sent s.source.log).flatMap (serialize own)
  playing : s.source.world.source.state = .playing → Negotiated url s

def AllOk (s : Link) : Prop := ∀ resp ∈ s.answerer.serving.responses, resp.statusCode = 200
instance (s : Link) : Decidable (AllOk s) := inferInstanceAs (Decidable (∀ resp ∈ _, _))

/-! The session's end: `j` requests have been answered. -/

section
variable (env : Nat → Surroundings) (self : SessionId) {url id : Bytes}

-- The DESCRIBE is the second request.
def described (url : Bytes) : Bytes :=
  (env 1).manager.getStreamSdp (env 1).sdp (extractStreamPath url)

structure Serves (url id : Bytes) (j : Nat) (a : Answerer) : Prop where
  session : SessionAt url id j a.serving.session
  handled : a.serving.handled = j
  returned : a.returned = if j < 2 then [] else [described env url]
  responses : a.serving.responses = (List.range j).map (answers url id (described env url))

theorem describedHeld (url : Bytes) : (described env url).length ≤ stringMaxSize := by
  unfold described RelayManager.getStreamSdp
  split
  · exact Nat.zero_le _
  · exact (env 1).held _

theorem responsesGrow (a : Answerer) (units : List StreamUnit) : a.serving.responses <+:
    (run (onUnit ignoreFrame (answer env self)) a units).serving.responses := by
  induction units generalizing a with
  | nil => exact List.prefix_rfl
  | cons u rest ih =>
    refine List.IsPrefix.trans ?_ (ih _)
    cases u with
    | interleaved channel payload => exact List.prefix_rfl
    | message msg => exact List.prefix_append _ _

variable {env self}

theorem describedOnce (urlText : UrlText url) (text : IdText id) (order : HeaderOrder) (j : Nat) :
    describedBy (env j) (readMessage order (asks url id j)) =
      if j = 1 then [described env url] else [] := by
  have printable : Printable (asks url id j) := asksPrintable urlText text j
  obtain ⟨kind, named⟩ : (asks url id j).type = .request ∧ _ := asksRequest text j
  obtain ⟨isRequest, method, url'⟩ :
      (readMessage order (asks url id j)).type = .request ∧ _ ∧ _ := requestRead printable kind
  rw [describedBy, method, url'.trans named]
  match j with
  | 0 | _ + 3 => rw [if_neg fun both => by cases both.2]; rfl
  | 1 => rw [if_pos ⟨isRequest, rfl⟩]; rfl
  | 2 =>
    have setup : (asks url id 2).method = .setup := (setupAskedForm url 3 id).1
    rw [setup, if_neg fun both => by cases both.2]
    rfl

theorem describedSoFar (sdp : Bytes) (j : Nat) :
    (if j < 2 then [] else [sdp]) ++ (if j = 1 then [sdp] else []) = if j + 1 < 2 then [] else [sdp] := by
  rcases Nat.lt_trichotomy j 1 with before | now | later
  · rw [if_pos (by omega), if_neg (by omega), if_pos (by omega), List.append_nil]
  · rw [if_pos (by omega), if_pos now, if_neg (by omega), List.nil_append]
  · rw [if_neg (by omega), if_neg (by omega), if_neg (by omega), List.append_nil]

theorem requestServes (urlText : UrlText url) (text : IdText id) (order : HeaderOrder) {j : Nat}
    {a : Answerer} (h : Serves env url id j a) (small : j < 4)
    (fine : ∀ resp ∈ (answer env self a (readMessage order (asks url id j))).serving.responses,
      resp.statusCode = 200) :
    Serves env url id (j + 1) (answer env self a (readMessage order (asks url id j))) := by
  have same : j = 1 → described env url =
      (env j).manager.getStreamSdp (env j).sdp (extractStreamPath url) := fun one => by rw [one]; rfl
  obtain ⟨session, resp, responds, ok⟩ := requestServed h.session small urlText text order (env j).sdp
    (env j).udp (env j).manager self same
  obtain ⟨answered, shape, after, handled, responses⟩ : ∃ answered,
      answered = answer env self a (readMessage order (asks url id j)) ∧
      SessionAt url id (j + 1) answered.serving.session ∧ answered.serving.handled = j + 1 ∧
      answered.serving.responses = (List.range j).map (answers url id (described env url)) ++ [resp] := by
    refine ⟨_, rfl, ?_⟩
    dsimp only [answer, answerMessage]
    rw [h.handled, responds, h.responses]
    exact ⟨session, rfl, rfl⟩
  have returned : answered.returned = if j + 1 < 2 then [] else [described env url] := by
    rw [shape, answer, h.handled, h.returned, describedOnce urlText text order j]
    exact describedSoFar (described env url) j
  rw [← shape] at fine ⊢
  refine ⟨after, handled, returned, ?_⟩
  have good : resp = answers url id (described env url) j := by
    refine ok (fine resp ?_)
    rw [responses]
    exact List.mem_append_right _ (List.mem_singleton.mpr rfl)
  rw [responses, good, List.range_succ, List.map_append]
  rfl

theorem requestsServe (urlText : UrlText url) (text : IdText id) (order : HeaderOrder) {j l : Nat}
    {taken : List Piece} (carries : Carries (asks url id) j l taken) (last : l ≤ 4) {a : Answerer}
    (h : Serves env url id j a)
    (fine : ∀ resp ∈ (run (onUnit ignoreFrame (answer env self)) a
      (taken.map (unitOf order))).serving.responses, resp.statusCode = 200) :
    Serves env url id l (run (onUnit ignoreFrame (answer env self)) a (taken.map (unitOf order))) := by
  induction carries generalizing a with
  | done j => exact h
  | frame channel short rest ih => exact ih last h fine
  | message rest ih =>
    have small := Nat.lt_of_lt_of_le (carriesLe rest) last
    rename_i k _ pieces
    have grow : (answer env self a (readMessage order (asks url id k))).serving.responses <+: _ :=
      responsesGrow env self _ (pieces.map (unitOf order))
    exact ih last (requestServes urlText text order h small fun resp inside =>
      fine resp (grow.subset inside)) fine

-- A request that has been read was short.
theorem readShort {order : HeaderOrder} {j l : Nat} {taken : List Piece} (text : IdText id)
    (carries : Carries (asks url id) j l taken) (readable : ∀ p ∈ taken, Readable order p)
    (some_ : j < l) : url.length ≤ intMax := by
  induction carries with
  | done j => exact absurd some_ (Nat.lt_irrefl j)
  | frame channel short rest ih => exact ih (List.forall_mem_cons.mp readable).2 some_
  | message rest ih =>
    rename_i k _ _
    obtain ⟨small, _⟩ : (headerBlock order (asks url id k)).length ≤ intMax ∧ _ :=
      (List.forall_mem_cons.mp readable).1
    obtain ⟨kind, named⟩ : (asks url id k).type = .request ∧ _ := asksRequest text k
    rw [headerBlock, startText, if_pos kind, named] at small
    simp only [List.length_append] at small
    omega

/-! The link. -/

structure Consistent (env : Nat → Surroundings) (own order : HeaderOrder) (url id : Bytes) (k j a : Nat)
    (s : Link) : Prop where
  caller : Caller url id (described env url) s.source k a
  sound : Sound own s.source
  serves : Serves env url id j s.answerer
  behind : k ≤ j
  short : 0 < j → url.length ≤ intMax
  asked : ∀ buf, s.buffer = .ok buf → s.read ≤ (accepted s).length ∧
    ∃ pieces, Carries (asks url id) j a pieces ∧ buf.content ++ unread s = stream own pieces
  answered : s.source.world.crashed = false →
    Awaiting url id (described env url) order k j s.source.world s.flight

theorem rangeSplit {a b : Nat} (more : a ≤ b) : List.range b = List.range a ++ List.range' a (b - a) := by
  have whole : List.range' 0 a ++ List.range' (0 + a) (b - a) = List.range' 0 (a + (b - a)) :=
    List.range'_append_1
  rw [Nat.zero_add, Nat.add_sub_cancel' more, ← List.range_eq_range', ← List.range_eq_range'] at whole
  exact whole.symm

theorem callerAsked {own : HeaderOrder} {s : Watched} (sound : Sound own s) {k a : Nat}
    (h : Caller url id (described env url) s k a) : (s.world.conns 0).tcp.accepted =
      stream own ((List.range a).map fun i => .message (asks url id i)) := by
  rw [callerAccepted sound h, (callerSent h).2, List.map_map]
  rfl

/-! When the source has sent more, the session has more to read. -/
theorem moreAsked {own : HeaderOrder} {s after : Link} (sound : Sound own s.source)
    (sound' : Sound own after.source) {k l j a b : Nat}
    (h : Caller url id (described env url) s.source k a)
    (h' : Caller url id (described env url) after.source l b) (more : a ≤ b)
    (buffer : after.buffer = s.buffer) (read : after.read = s.read)
    (asked : ∀ buf, s.buffer = .ok buf → s.read ≤ (accepted s).length ∧
      ∃ pieces, Carries (asks url id) j a pieces ∧ buf.content ++ unread s = stream own pieces) :
    ∀ buf, after.buffer = .ok buf → after.read ≤ (accepted after).length ∧
      ∃ pieces, Carries (asks url id) j b pieces ∧ buf.content ++ unread after = stream own pieces := by
  intro buf held
  rw [buffer] at held
  obtain ⟨inside, pieces, carries, whole⟩ := asked buf held
  have grown : accepted after = accepted s ++
      stream own ((List.range' a (b - a)).map fun i => .message (asks url id i)) := by
    rw [accepted, accepted, callerAsked sound h, callerAsked sound' h', rangeSplit more, List.map_append,
      stream, List.flatMap_append]
    rfl
  have carries' : Carries (asks url id) a b _ := Nat.add_sub_cancel' more ▸
    carriesRange (asks url id) a (b - a)
  refine ⟨?_, _, carriesAppend carries carries', ?_⟩
  · rw [read, grown, List.length_append]
    exact Nat.le_add_right_of_le inside
  · rw [unread, read, grown, List.drop_append_of_le_length inside, ← List.append_assoc]
    rw [unread] at whole
    rw [whole, stream, stream, stream, List.flatMap_append]

/-! When the session has answered more, the source has more to wait for. -/
theorem moreAnswered {order : HeaderOrder} {sdp : Bytes} {k j l : Nat} {w : Source.World}
    {flight : Bytes} (more : j ≤ l) (awaits : Awaiting url id sdp order k j w flight) :
    Awaiting url id sdp order k l w
      (flight ++ ((List.range' j (l - j)).map (answers url id sdp)).flatMap (serialize order)) := by
  obtain ⟨pieces, carries, whole⟩ := awaits
  have carries' : Carries (answers url id sdp) j l _ := Nat.add_sub_cancel' more ▸
    carriesRange (answers url id sdp) j (l - j)
  refine ⟨_, carriesAppend carries carries', ?_⟩
  rw [← List.append_assoc, whole, stream, stream, List.flatMap_append, List.flatMap_map, List.flatMap_map]
  rfl

theorem sentAnswers {j l : Nat} {a after : Answerer} (h : Serves env url id j a)
    (h' : Serves env url id l after) (more : j ≤ l) :
    after.serving.responses.drop a.serving.responses.length =
      (List.range' j (l - j)).map (answers url id (described env url)) := by
  have length : a.serving.responses.length = ((List.range j).map (answers url id (described env url))).length :=
    congrArg List.length h.responses
  rw [length, h'.responses, rangeSplit more, List.map_append, List.drop_left]

theorem calledConsistent {own order : HeaderOrder} {k j l a : Nat} {s : Link}
    (h : Consistent env own order url id k j a s) (more : j ≤ l) {out : LoopEnd Answerer}
    (serves : Serves env url id l out.1) (short : j < l → url.length ≤ intMax) {size : Nat}
    (inside : size ≤ (unread s).length) (asked : ∀ buf, out.2 = .ok buf → ∃ pieces,
      Carries (asks url id) l a pieces ∧ buf.content ++ (unread s).drop size = stream own pieces)
    (fits : s.read ≤ (accepted s).length) : Consistent env own order url id k l a (called order s size out) := by
  refine ⟨h.caller, h.sound, serves, Nat.le_trans h.behind more, fun some_ => ?_, fun buf held => ?_,
    fun running => ?_⟩
  · rcases Nat.lt_or_eq_of_le more with less | rfl
    · exact short less
    · exact h.short some_
  · obtain ⟨pieces, carries, whole⟩ := asked buf held
    rw [unread, List.drop_drop] at whole
    refine ⟨?_, pieces, carries, whole⟩
    rw [unread, List.length_drop] at inside
    have same : accepted (called order s size out) = accepted s := rfl
    have reads : (called order s size out).read = s.read + size := rfl
    rw [same, reads]
    omega
  · have awaits := moreAnswered more (h.answered running)
    rw [← sentAnswers h.serves serves more] at awaits
    exact awaits

theorem deliverConsistent (urlText : UrlText url) (text : IdText id) {own order : HeaderOrder}
    {k j a : Nat} {s : Link} (h : Consistent env own order url id k j a s) (n : Nat)
    (fine : AllOk (deliver env self order s ((unread s).take n))) :
    ∃ l, Consistent env own order url id k l a (deliver env self order s ((unread s).take n)) := by
  cases held : s.buffer with
  | error e =>
    have same : deliver env self order s ((unread s).take n) = s := by rw [deliver, held]
    rw [same]
    exact ⟨j, h⟩
  | ok buf =>
    have same : deliver env self order s ((unread s).take n) = called order s ((unread s).take n).length
        (Decoders.handleMessage ignoreFrame (answer env self) s.answerer
          (buf.append ((unread s).take n))) := by
      rw [deliver, held]
      rfl
    obtain ⟨inside, pieces, carries, whole⟩ := h.asked buf held
    have content : (buf.append ((unread s).take n)).content ++ (unread s).drop n = stream own pieces := by
      rw [ByteBuffer.appendContent, List.append_assoc, List.take_append_drop]
      exact whole
    obtain ⟨taken, left, ends⟩ := decodePieces (carriesPlain (fun _ => asksPlain own urlText text) carries) content
    rw [ends.split] at carries
    obtain ⟨l, read, later⟩ := carriesSplit carries
    have last : l ≤ 4 := Nat.le_trans (carriesLe later) (callerSent h.caller).1
    have runs := handleMessageRuns ignoreFrame (answer env self) s.answerer (buf.append ((unread s).take n))
    have leaves := handleMessageLeaves ignoreFrame (answer env self) s.answerer
      (buf.append ((unread s).take n))
    rw [ends.units] at runs
    rw [same] at fine ⊢
    generalize Decoders.handleMessage ignoreFrame (answer env self) s.answerer
      (buf.append ((unread s).take n)) = out at runs leaves fine ⊢
    have serves : Serves env url id l out.1 := by
      rw [runs]
      refine requestsServe urlText text own read last h.serves ?_
      rw [← runs]
      exact fine
    refine ⟨l, calledConsistent h (carriesLe read) serves (readShort text read ends.readable)
      (List.length_take_le' n _) (fun buf' held' => ⟨left, later, ?_⟩) inside⟩
    rw [held'] at leaves
    have behind : (unread s).drop ((unread s).take n).length = (unread s).drop n := by
      rw [List.length_take]
      exact List.drop_eq_drop_min.symm
    rw [behind]
    exact ends.rest buf'.content leaves.symm

theorem readConsistent (urlText : UrlText url) (text : IdText id) {own order : HeaderOrder}
    {k j a : Nat} {s : Link} (h : Consistent env own order url id k j a s)
    (running : s.source.world.crashed = false) (live : s.source.world.Live 0) (n : Nat) (writes : Writes) :
    ∃ m b, Consistent env own order url id m j b
      { s with source := call s (.read 0 (.data (s.flight.take n))) .refused writes
               flight := s.flight.drop n } := by
  obtain ⟨asking, sent⟩ := callerLive h.caller live
  have awaits := h.answered running
  rw [← List.take_append_drop n s.flight] at awaits
  have printed : k < j → ∀ i, Plain order (.message (answers url id (described env url) i)) :=
    fun below => answersPlain order urlText text (h.short (Nat.zero_lt_of_lt below)) (describedHeld env url)
  obtain ⟨m, more, behind, asks, sound, left⟩ :=
    readAsking urlText text printed asking h.sound running live awaits .refused writes.2 rfl
  have grows : a ≤ min (m + 1) 4 := by omega
  exact ⟨m, _, .asking asks, sound, h.serves, behind, h.short,
    moreAsked h.sound sound h.caller (.asking asks) grows rfl rfl h.asked, left⟩

theorem framedConsistent {own order : HeaderOrder} {k j a : Nat} {s : Link}
    (h : Consistent env own order url id k j a s) (channel : UInt8) {data : Bytes}
    (short : data.length ≤ 65535) : Consistent env own order url id k j a
      { s with flight := s.flight ++ Interleaving.frame channel data } := by
  refine ⟨h.caller, h.sound, h.serves, h.behind, h.short, h.asked, fun running => ?_⟩
  obtain ⟨pieces, carries, whole⟩ := h.answered running
  refine ⟨_, carriesAppend carries (.frame channel short (.done j)), ?_⟩
  rw [← List.append_assoc, whole, stream, stream, List.flatMap_append, List.flatMap_singleton]
  rfl

theorem stepConsistent (urlText : UrlText url) (text : IdText id) {own order : HeaderOrder}
    {k j a : Nat} {s : Link} (h : Consistent env own order url id k j a s) (move : Move)
    (fine : AllOk (step env self order s move)) :
    ∃ k j a, Consistent env own order url id k j a (step env self order s move) := by
  cases move with
  | callback c connect writes =>
    obtain ⟨b, more, caller, sound, left⟩ :=
      callbackCaller h.sound h.caller h.answered c connect writes.2 rfl
    exact ⟨k, j, b, caller, sound, h.serves, h.behind, h.short,
      moreAsked h.sound sound h.caller caller more rfl rfl h.asked, left⟩
  | toSession n =>
    obtain ⟨l, delivered⟩ := deliverConsistent urlText text h n fine
    exact ⟨k, l, a, delivered⟩
  | toSource n writes =>
    rw [step]
    split
    · rename_i ready
      obtain ⟨m, b, read⟩ := readConsistent urlText text h ready.1 ready.2 n writes
      exact ⟨m, j, b, read⟩
    · exact ⟨k, j, a, h⟩
  | frame channel data => exact ⟨k, j, a, framedConsistent h channel data.2⟩

theorem responsesKept (order : HeaderOrder) (s : Link) (move : Move) : s.answerer.serving.responses <+:
    (step env self order s move).answerer.serving.responses := by
  cases move with
  | callback | frame => exact List.prefix_rfl
  | toSource n writes =>
    rw [step]
    split <;> exact List.prefix_rfl
  | toSession n =>
    rw [step, deliver]
    split
    · exact List.prefix_rfl
    · rename_i buf _
      have runs := handleMessageRuns ignoreFrame (answer env self) s.answerer
        (buf.append ((unread s).take n))
      have grow := responsesGrow env self s.answerer
        (StreamDecoder.decode interleavedDecoder (buf.append ((unread s).take n)).content).1
      rw [← runs] at grow
      exact grow

theorem runConsistent (urlText : UrlText url) (text : IdText id) {own order : HeaderOrder}
    {s : Link} (begun : ∃ k j a, Consistent env own order url id k j a s) (moves : List Move)
    (fine : AllOk (run (step env self order) s moves)) :
    ∃ k j a, Consistent env own order url id k j a (run (step env self order) s moves) := by
  have keeps : ∀ (s : Link) (move : Move),
      (AllOk s → ∃ k j a, Consistent env own order url id k j a s) →
      AllOk (step env self order s move) →
      ∃ k j a, Consistent env own order url id k j a (step env self order s move) := by
    intro s move before fine
    obtain ⟨k, j, a, h⟩ := before fun resp inside => fine resp ((responsesKept order s move).subset inside)
    exact stepConsistent urlText text h move fine
  exact runInvariant (I := fun s => AllOk s → ∃ k j a, Consistent env own order url id k j a s) keeps
    (fun _ => begun) moves fine

theorem startConsistent (own order : HeaderOrder) (url streamPath : Bytes) (connect : ConnectResult)
    (writes : Writes) (peerAddr : Bytes) (n : UInt32) : ∃ k j a,
      Consistent env own order url (generateSessionId n) k j a
        (start own url streamPath connect writes peerAddr n) := by
  obtain ⟨a, caller, sound, empty⟩ := beginCaller own url (generateSessionId n) (described env url)
    streamPath connect writes.2
  refine ⟨0, 0, a, caller, sound, ⟨⟨rfl, rfl, rfl, rfl, rfl⟩, rfl, rfl, rfl⟩, Nat.le_refl 0, nofun,
    fun buf held => ⟨Nat.zero_le _, ?_⟩, fun _ => ⟨[], .done 0, ?_⟩⟩
  · have carries := carriesRange (asks url (generateSessionId n)) 0 a
    rw [Nat.zero_add] at carries
    refine ⟨_, carries, ?_⟩
    have fresh : buf = ByteBuffer.init 0 := (Except.ok.inj held).symm
    rw [fresh, ByteBuffer.initContent, List.nil_append, unread, accepted, ← List.range_eq_range']
    exact callerAsked sound caller
  · have same : (start own url streamPath connect writes peerAddr n).source =
        begin own url streamPath connect writes := rfl
    rw [same, empty]
    rfl

theorem asksSteps (url id : Bytes) :
    ((List.range 4).map (asks url id)).map (fun req => (req.method, req.cseq)) = steps := by
  obtain ⟨method, cseq⟩ := setupAskedForm url 3 id
  have setup : ((asks url id 2).method, (asks url id 2).cseq) = (.setup, 3) := by
    have shape : asks url id 2 = setupAsked url 3 id := rfl
    rw [shape, method, cseq]
  simp only [List.range_succ, List.range_zero, List.nil_append, List.cons_append, List.map_cons,
    List.map_nil, setup, steps]
  rfl

theorem consistentAgreed {own order : HeaderOrder} {k j a : Nat} {s : Link}
    (h : Consistent env own order url id k j a s) : Agreed own url s := by
  obtain ⟨four, sent⟩ := callerSent h.caller
  refine ⟨?_, ?_, fun playing => ?_⟩
  · have first : List.range a <+: List.range 4 := ⟨_, (rangeSplit four).symm⟩
    rw [sent, ← asksSteps url id]
    exact (first.map _).map _
  · rw [accepted, callerAccepted h.sound h.caller, stream, List.flatMap_map]
    rfl
  · have stage : SourceAt url id (described env url) k s.source.world.source ∧ 3 ≤ k := by
      cases h.caller with
      | waiting waits =>
        have rests := waits.resting
        rw [playing] at rests
        rcases rests with no | no | no <;> contradiction
      | asking asks => exact ⟨asks.source, sourcePlaying.mp (asks.source.state.symm.trans playing)⟩
    obtain ⟨source, three⟩ := stage
    have late := Nat.le_trans three h.behind
    have session := h.serves.session
    have returned := h.serves.returned
    have path := session.streamPath
    have name := source.sessionId
    rw [if_neg (by omega)] at returned path name
    refine ⟨?_, name.trans session.sessionId.symm, source.channels.1.trans session.channels.1.symm,
      source.channels.2.trans session.channels.2.symm, ?_, path⟩
    · rw [returned, source.sdp (by omega)]
    · rw [session.state]
      obtain ⟨i, rfl⟩ := Nat.exists_eq_add_of_le late
      cases i with
      | zero => exact .inl rfl
      | succ i => exact .inr (by rw [Nat.add_comm 3, Nat.add_assoc]; rfl)

end

/-! Every response so far has status 200. -/
theorem relaysAgree (env : Nat → Surroundings) (self : SessionId) (own order : HeaderOrder)
    (url streamPath : Bytes) (urlText : UrlText url) (connect : ConnectResult) (writes : Writes)
    (peerAddr : Bytes) (id : UInt32) (moves : List Move)
    (fine : AllOk (run (step env self order) (start own url streamPath connect writes peerAddr id) moves)) :
    Agreed own url
      (run (step env self order) (start own url streamPath connect writes peerAddr id) moves) := by
  have begun : ∃ k j a, Consistent env own order url (generateSessionId id) k j a _ :=
    startConsistent own order url streamPath connect writes peerAddr id
  obtain ⟨k, j, a, h⟩ := runConsistent urlText (generatedText id) begun moves fine
  exact consistentAgreed h

/-! One stream of one relay, pulled by another; the messages are cut, and a packet
comes before the answer to PLAY. -/
def upstream (_ : Nat) : Surroundings where
  manager := ⟨(∅ : AList _).insert (ascii "/cam") ⟨0, ascii "rtsp://10.0.0.5/cam", []⟩, 500⟩
  sdp _ := ascii "v=0"
  udp := ⟨none, none⟩
  held _ := (by decide : (ascii "v=0").length ≤ stringMaxSize)

def sentWhole : Writes := ⟨Recovery.sent, by decide⟩

def pulled : List Move :=
  [.callback (.writable 0 false) .inProgress sentWhole, .toSession 20, .toSession 500,
    .toSource 500 sentWhole, .toSession 500, .toSource 500 sentWhole, .toSession 500,
    .toSource 500 sentWhole, .frame 0 ⟨[1, 2], by decide⟩, .toSession 500, .toSource 30 sentWhole,
    .toSource 500 sentWhole]

def pulledLink : Link :=
  start insertionOrder (ascii "rtsp://10.0.0.9/cam") (ascii "/cam") .inProgress sentWhole
    (ascii "10.0.0.7:5000") 7

theorem pulledAgrees :
    (run (step upstream 0 insertionOrder) pulledLink pulled).source.world.source.state = .playing ∧
      Agreed insertionOrder (ascii "rtsp://10.0.0.9/cam")
        (run (step upstream 0 insertionOrder) pulledLink pulled) := by
  have urlText : UrlText (ascii "rtsp://10.0.0.9/cam") := ⟨by decide, by decide⟩
  have ends : (run (step upstream 0 insertionOrder) pulledLink pulled).source.world.source.state = .playing ∧
      AllOk (run (step upstream 0 insertionOrder) pulledLink pulled) := by decide +kernel
  exact ⟨ends.1, relaysAgree upstream 0 insertionOrder insertionOrder _ _ urlText _ _ _ _ pulled ends.2⟩

end RtspRelay.Handshake
