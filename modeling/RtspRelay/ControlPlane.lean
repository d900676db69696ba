import RtspRelay.Program
import RtspRelay.RoundTrip

/-! The control plane from its bytes. What arrives on an HTTP connection is cut anywhere and
interleaved with the other connections, with players and with upstreams; the requests in
it are carried out once and in order for as long as nothing ends the program. -/
namespace RtspRelay.ControlPlane
open Machine ByteSearch Buffer Protocol Manager Session Service Routing StreamApi
open MessageText MessageFraming PrintedText RoundTrip StreamDecoder Decoders Transition
open Program hiding processRequest handleInterleavedData
open HttpMessage (HttpRequest httpGrammar)

/-! A request as a client writes it. -/

structure Sent where
  method : Bytes
  path : Bytes
  version : Bytes
  fields : List (Bytes × Bytes)
  body : Bytes

def startText (r : Sent) : Bytes := r.method ++ ascii " " ++ r.path ++ ascii " " ++ r.version
def headerText (r : Sent) : Bytes := startText r ++ closed r.fields
def requestText (r : Sent) : Bytes := headerText r ++ r.body

structure Sendable (r : Sent) : Prop where
  words : (32 : UInt8) ∉ r.method ∧ (32 : UInt8) ∉ r.path
  line : (13 : UInt8) ∉ r.method ∧ (13 : UInt8) ∉ r.path ∧ (13 : UInt8) ∉ r.version
  fields : ∀ f ∈ r.fields, FieldLine f
  length : given (ascii "Content-Length") r.fields = some (decimal r.body.length) ∨
    given (ascii "Content-Length") r.fields = none ∧ r.body = []
  small : (headerText r).length ≤ intMax ∧ r.body.length ≤ stringMaxSize

def readRequest (r : Sent) : HttpRequest where
  method := r.method
  path := r.path
  version := r.version
  headers := r.fields.foldl (fun map f => map.insert f.1 f.2) ∅
  body := r.body

section
variable {r : Sent} (h : Sendable r)
include h

theorem startWhole : find crlf (startText r) = none :=
  partsWhole (wholeFresh h.line.1) (wholeFresh h.line.2.1) (wholeFresh h.line.2.2)

theorem headReads : head httpGrammar (headerText r) = (true, { readRequest r with body := [] }) := by
  have parts := threePartsPrinted h.words.1 h.words.2 r.version
  have started : httpGrammar.startLine (startText r) httpGrammar.fresh =
      .ok (true, { method := r.method, path := r.path, version := r.version }) := by
    change HttpMessage.startLine (startText r) {} = _
    rw [HttpMessage.startLine, startText, parts]
    rfl
  have fields (fs : List (Bytes × Bytes)) (req : HttpRequest) :
      fs.foldl (fun m f => httpGrammar.field m f.1 f.2) req =
        { req with headers := fs.foldl (fun map f => map.insert f.1 f.2) req.headers } := by
    induction fs generalizing req with
    | nil => rfl
    | cons f rest ih => exact ih _
  unfold head headerText
  rw [printedStart (startWhole h)]
  dsimp only
  rw [List.take_left, started, printedFields (startWhole h) h.fields]
  dsimp only
  rw [fields]
  rfl

theorem declaredBody : declaredLength (headerText r) = r.body.length := by
  have lookup : (headerMap (headerText r)).lookup (ascii "Content-Length") =
      given (ascii "Content-Length") r.fields := by
    unfold headerMap headerText
    rw [printedFields (startWhole h) h.fields, givenInserted, AList.lookup_empty, Option.or_none]
  have fits := h.small.2
  unfold stringMaxSize at fits
  unfold declaredLength contentLength
  rw [lookup]
  rcases h.length with some_ | ⟨none_, empty⟩
  · have value := sizeTNonneg (x := min (2 ^ 63 - 1) (r.body.length : Int)) (by omega) (by omega)
    rw [some_]
    dsimp only
    rw [atoll, strtollDecimal]
    omega
  · rw [none_, empty]
    rfl

/-! The parser takes it whole, whatever follows. -/
theorem requestReads (behind : Bytes) : (messageDecoder httpGrammar).step (requestText r ++ behind) =
    .unit (readRequest r) (requestText r).length := by
  have shape := printedBlock (startWhole h) h.fields (r.body ++ behind) h.small.1
  have heads := headReads h
  have started : Started (headerText r) := (headStarted httpGrammar _).mp (congrArg Prod.fst heads)
  have declared := declaredBody h
  have framed : Framed httpGrammar (headerText r ++ (r.body ++ behind))
      ⟨true, readRequest r, (requestText r).length⟩ (headerText r) := by
    refine ⟨shape, started, ?_, ?_, declared ▸ h.small.2, ?_⟩
    · rw [requestText, List.length_append, declared]
    · simp only [requestText, List.length_append]
      omega
    · rw [declared, heads, List.drop_left, List.take_left]
      split
      · rename_i empty
        rw [readRequest, List.length_eq_zero_iff.mp empty]
      · rfl
  have whole : outcome httpGrammar (requestText r ++ behind) =
      .ok ⟨true, readRequest r, (requestText r).length⟩ := by
    rw [requestText, List.append_assoc]
    exact framedOutcome httpGrammar rfl framed
  change messageStep httpGrammar _ = _
  rw [messageStep, whole]
  rfl
end

/-! What the connections have brought. -/

def httpChunk : Event → Option (Client × Bytes)
  | .http client chunk _ => some (client, chunk)
  | _ => none

def playerChunk : Event → Option (SessionId × Bytes)
  | .player self chunk _ => some (self, chunk)
  | _ => none

section
variable (chunkOf : Event → Option (Nat × Bytes))

def broughtBy (k : Nat) (event : Event) : Bytes :=
  match chunkOf event with
  | some (from_, chunk) => if from_ = k then chunk else []
  | none => []

def receivedBy (k : Nat) (events : List Event) : Bytes := events.flatMap (broughtBy chunkOf k)

def more (seen : Nat → Bytes) (events : List Event) (k : Nat) : Bytes := seen k ++ receivedBy chunkOf k events

theorem moreNothing (seen : Nat → Bytes) : more chunkOf seen [] = seen := funext fun k => List.append_nil (seen k)

theorem moreCons (seen : Nat → Bytes) (event : Event) (rest : List Event) :
    more chunkOf seen (event :: rest) = more chunkOf (more chunkOf seen [event]) rest := by
  funext k
  simp only [more, receivedBy, List.flatMap_cons, List.flatMap_nil, List.append_nil, List.append_assoc]

theorem moreSilent {event : Event} (silent : chunkOf event = none) (seen : Nat → Bytes) :
    more chunkOf seen [event] = seen := by
  funext k
  rw [more, receivedBy, List.flatMap_singleton, broughtBy, silent, List.append_nil]

theorem moreChunk {event : Event} {own : Nat} {chunk : Bytes} (brings : chunkOf event = some (own, chunk))
    (seen : Nat → Bytes) : more chunkOf seen [event] = Function.update seen own (seen own ++ chunk) := by
  funext k
  rw [more, receivedBy, List.flatMap_singleton, broughtBy, brings, Function.update_apply]
  dsimp only
  rcases eq_or_ne own k with rfl | differ
  · rw [if_pos rfl, if_pos rfl]
  · rw [if_neg differ, if_neg differ.symm, List.append_nil]
end

-- The parser throws on what came in.
def Fails {υ : Type} (d : Decoder UInt8 υ Exn) (incoming : Bytes) : Prop := ∃ e, (decode d incoming).2 = .error e

theorem failsMore {υ : Type} {d : Decoder UInt8 υ Exn} {chunkOf : Event → Option (Nat × Bytes)} {seen : Nat → Bytes}
    (h : ∃ k, Fails d (seen k)) (events : List Event) : ∃ k, Fails d (more chunkOf seen events k) := by
  obtain ⟨k, e, failed⟩ := h
  refine ⟨k, e, ?_⟩
  rw [more, decodeAppend, andThen, failed]

/-! A chunk on one connection, by what its buffer is left with. -/

theorem keptContent {υ : Type} {d : Decoder UInt8 υ Exn} {seen : Nat → Bytes} {before after : Nat → ByteBuffer}
    {k : Nat} {chunk left : Bytes} (sofar : ∀ j, (decode d (seen j)).2 = .ok (before j).content)
    (ends : (decode d ((before k).content ++ chunk)).2 = .ok left) (kept : Kept before after k left) (j : Nat) :
    (decode d (Function.update seen k (seen k ++ chunk) j)).2 = .ok (after j).content := by
  rcases eq_or_ne j k with rfl | differ
  · rw [Function.update_self, decodeAppend, andThen, sofar j, kept.own]
    exact ends
  · rw [Function.update_of_ne differ, kept.others j differ]
    exact sofar j

theorem brokenOff {υ : Type} {d : Decoder UInt8 υ Exn} {seen : Nat → Bytes} {before : Nat → ByteBuffer} {k : Nat}
    {chunk : Bytes} {e : Exn} (sofar : ∀ j, (decode d (seen j)).2 = .ok (before j).content)
    (ends : (decode d ((before k).content ++ chunk)).2 = .error e) :
    ∃ j, Fails d (Function.update seen k (seen k ++ chunk) j) := by
  refine ⟨k, e, ?_⟩
  rw [Function.update_self, decodeAppend, andThen, sofar k]
  exact ends

/-! What ends the program. -/

variable (order : StreamOrder) (rtspPort : UInt16)

-- An event of an upstream that the program lives on after.
def Survives (p : Process) : Event → Prop
  | .source i input => (p.relay.sources i).dangles input.event = false ∧ ((p.relay.sources i).step input).crashed = false
  | _ => True

def executedBy (p : Process) (client : Client) : List HttpRequest :=
  (p.executed.filter fun e => decide (e.client = client)).map Executed.request

structure Heard (clients players : Nat → Bytes) (p : Process) : Prop where
  running : p.fault = false
  requests : ∀ k, (decode (messageDecoder httpGrammar) (clients k)).1 = executedBy p k
  inputs : ∀ k, (decode (messageDecoder httpGrammar) (clients k)).2 = .ok (p.inputs k).content
  received : ∀ self, (decode interleavedDecoder (players self)).2 = .ok (p.received self).content

def Broken (clients players : Nat → Bytes) : Prop :=
  (∃ k, Fails (messageDecoder httpGrammar) (clients k)) ∨ ∃ self, Fails interleavedDecoder (players self)

theorem heardWhole {clients players : Nat → Bytes} {p : Process} (h : Heard clients players p) :
    ¬ Broken clients players := by
  rintro (⟨k, e, failed⟩ | ⟨self, e, failed⟩)
  · rw [h.inputs k] at failed
    contradiction
  · rw [h.received self] at failed
    contradiction

theorem dispatchedBy (client : Client) (outside : Nat → Outside) (reqs : List HttpRequest)
    (acc : Relay × List Executed) : ∀ k,
    ((reqs.foldl (Program.dispatch order rtspPort client outside) acc).2.filter fun e => decide (e.client = k)).map
        Executed.request =
      (acc.2.filter fun e => decide (e.client = k)).map Executed.request ++ if k = client then reqs else [] := by
  induction reqs generalizing acc with
  | nil => exact fun k => by rw [ite_self, List.append_nil]; rfl
  | cons req rest ih =>
    intro k
    refine (ih (Program.dispatch order rtspPort client outside acc req) k).trans ?_
    simp only [Program.dispatch, List.filter_append, List.map_append, List.filter_cons, List.filter_nil,
      decide_eq_true_eq, eq_comm (a := client), List.append_assoc]
    split <;> rfl

section
variable {p : Process} {clients players : Nat → Bytes} (h : Heard clients players p)
include h

theorem httpHeard (client : Client) (chunk : Bytes) (outside : Nat → Outside) :
    let after := p.onHttp order rtspPort client chunk outside
    let clients' := Function.update clients client (clients client ++ chunk)
    Heard clients' players after ∨ after.fault = true ∧ Broken clients' players := by
  intro after
  dsimp only
  have served := onHttpServes order rtspPort p client chunk outside
  cases ends : (clientUnits p client chunk).2 with
  | error e => exact .inr ⟨served.failed e ends, .inl (brokenOff h.inputs ends)⟩
  | ok left =>
    obtain ⟨fault, kept⟩ := served.left left ends
    refine .inl ⟨fault.trans h.running, fun k => ?_, keptContent h.inputs ends kept, ?_⟩
    · have own := dispatchedBy order rtspPort client outside (clientUnits p client chunk).1 (p.relay, []) k
      have executed : executedBy after k = executedBy p k ++ if k = client then (clientUnits p client chunk).1 else [] := by
        rw [executedBy, served.executed, List.filter_append, List.map_append, own]
        rfl
      rw [executed]
      rcases eq_or_ne k client with rfl | differ
      · rw [if_pos rfl, Function.update_self, decodeAppend, andThen, h.inputs k, ← h.requests k]
        rfl
      · rw [if_neg differ, Function.update_of_ne differ, List.append_nil]
        exact h.requests k
    · rw [served.received]
      exact h.received

theorem playerHeard (self : SessionId) (chunk : Bytes) (udp : Nat → UdpAnswers) :
    let after := p.onPlayer self chunk udp
    let players' := Function.update players self (players self ++ chunk)
    Heard clients players' after ∨ after.fault = true ∧ Broken clients players' := by
  intro after
  dsimp only
  have played := onPlayerPlays p self chunk udp
  cases ends : (playerUnits p self chunk).2 with
  | error e => exact .inr ⟨played.failed e ends, .inr (brokenOff h.received ends)⟩
  | ok left =>
    obtain ⟨fault, kept⟩ := played.left left ends
    refine .inl ⟨fault.trans h.running, ?_, ?_, keptContent h.received ends kept⟩
    · intro k
      rw [executedBy, played.executed]
      exact h.requests k
    · rw [played.inputs]
      exact h.inputs

theorem stepHeard (event : Event) :
    let after := p.step order rtspPort event
    let clients' := more httpChunk clients [event]
    let players' := more playerChunk players [event]
    Heard clients' players' after ∨ after.fault = true ∧ (Broken clients' players' ∨ ¬ Survives p event) := by
  dsimp only
  rw [stepRunning h.running]
  cases event with
  | player self chunk udp =>
    rw [moreSilent httpChunk rfl, moreChunk playerChunk rfl]
    exact (playerHeard h self chunk udp).imp id fun broken => ⟨broken.1, .inl broken.2⟩
  | http client chunk outside =>
    rw [moreSilent playerChunk rfl, moreChunk httpChunk rfl]
    exact (httpHeard order rtspPort h client chunk outside).imp id fun broken => ⟨broken.1, .inl broken.2⟩
  | lost self =>
    rw [moreSilent playerChunk rfl, moreSilent httpChunk rfl]
    exact .inl ⟨h.running, h.requests, h.inputs, h.received⟩
  | source i input =>
    rw [moreSilent playerChunk rfl, moreSilent httpChunk rfl]
    dsimp only
    unfold Process.onSource
    split
    · rename_i dangling
      exact .inr ⟨rfl, .inr fun survives => Bool.false_ne_true (survives.1.symm.trans dangling)⟩
    · cases crashed : ((p.relay.sources i).step input).crashed with
      | true => exact .inr ⟨rfl, .inr fun survives => Bool.false_ne_true (survives.2.symm.trans crashed)⟩
      | false => exact .inl ⟨rfl, h.requests, h.inputs, h.received⟩

theorem heardSurvives {event : Event} (running : (p.step order rtspPort event).fault = false) : Survives p event := by
  rw [stepRunning h.running] at running
  cases event with
  | player | http | lost => trivial
  | source i input =>
    dsimp only at running
    unfold Process.onSource at running
    split at running
    · contradiction
    · rename_i steady
      exact ⟨Bool.eq_false_iff.mpr steady, running⟩
end

theorem runHeard {p : Process} {clients players : Nat → Bytes} (h : Heard clients players p) (events : List Event) :
    let after := run (Process.step order rtspPort) p events
    let clients' := more httpChunk clients events
    let players' := more playerChunk players events
    Heard clients' players' after ∧ Throughout (Process.step order rtspPort) Survives p events ∨
      after.fault = true ∧ (Broken clients' players' ∨ ¬ Throughout (Process.step order rtspPort) Survives p events) := by
  induction events generalizing p clients players with
  | nil =>
    rw [moreNothing, moreNothing]
    exact .inl ⟨h, trivial⟩
  | cons event rest ih =>
    rw [moreCons httpChunk clients event rest, moreCons playerChunk players event rest]
    rcases stepHeard order rtspPort h event with heard | ⟨fault, cause⟩
    · have survives := heardSurvives order rtspPort h heard.running
      rcases ih heard with ⟨heard', survive⟩ | ⟨fault, cause⟩
      · exact .inl ⟨heard', survives, survive⟩
      · exact .inr ⟨fault, cause.imp id fun dies both => dies both.2⟩
    · have ended : (run (Process.step order rtspPort) (p.step order rtspPort event) rest).fault = true :=
        runInvariant (I := fun p : Process => p.fault = true)
          (fun p event fault => (congrArg Process.fault (stepFaulted fault event)).trans fault) fault rest
      refine .inr ⟨ended, cause.imp (fun broken => ?_) fun dies both => dies both.1⟩
      exact broken.imp (fun failed => failsMore failed rest) fun failed => failsMore failed rest

/-! Clients that write requests: every request that has come in whole is carried out,
once and in its place. -/

-- What has come in of a client's requests: the whole ones, and the part of the next.
structure CarriedOut (sent : List Sent) (incoming : Bytes) (executed : List HttpRequest) (n : Nat) (left : Bytes) :
    Prop where
  executed : executed = (sent.take n).map readRequest
  whole : incoming = (sent.take n).flatMap requestText ++ left
  next : ∀ r ∈ sent[n]?, left.length < (requestText r).length

theorem startHeard (maxSources : Nat) (players : SessionId → Player) (headers : HeaderOrder) :
    Heard (fun _ => []) (fun _ => []) (Process.start maxSources players headers) := by
  have empty := ByteBuffer.initContent 0
  refine ⟨rfl, fun _ => ?_, fun _ => ?_, fun _ => ?_⟩
  · rw [decodeMore (messageDecoder httpGrammar) (messageDecoder httpGrammar).empty]
    rfl
  · rw [decodeMore (messageDecoder httpGrammar) (messageDecoder httpGrammar).empty, Process.start, empty]
  · rw [decodeMore interleavedDecoder interleavedDecoder.empty, Process.start, empty]

def camSent : Sent where
  method := ascii "POST"
  path := ascii "/api/streams"
  version := ascii "HTTP/1.1"
  fields := [(ascii "Content-Length", ascii "48")]
  body := ApiRequests.slashBody

theorem camSendable : Sendable camSent := by
  refine ⟨by decide, by decide, List.forall_mem_singleton.mpr ⟨by decide, by decide, by decide, by decide⟩,
    .inl (by decide), by decide, ?_⟩
  exact Nat.le_trans (by decide : camSent.body.length ≤ 48) (by decide)

def camChunks : List Event :=
  [.http 0 ((requestText camSent).take 30) fun _ => ApiRequests.offline,
    .player 3 (ascii "OPTIONS rtsp://relay/cam RTSP/1.0\r\nCSeq: 1\r\n\r\n") fun _ => ⟨none, none⟩,
    .http 0 ((requestText camSent).drop 30) fun _ => ApiRequests.offline]

def camProcess : Process := run (Process.step oldestFirst 8554)
  (Process.start 500 (fun _ => ⟨ascii "10.0.0.7:5000", ascii "00000001"⟩) Protocol.insertionOrder) camChunks

end RtspRelay.ControlPlane
