import RtspRelay.ApiRequests
import RtspRelay.ExchangeSteps
import RtspRelay.RequestLine

/-! The requests of a source as a parser reads them. The upstream URL stands in each request
line as the POST gave it; a session id comes out of a parsed header line. -/
namespace RtspRelay.RequestInjection
open Machine Buffer ByteSearch MessageText MessageFraming Protocol RoundTrip RequestLine
open Source Transition Exchange Manager Service StreamApi ApiRequests
open HttpMessage (HttpRequest)
open Connection (WriteResult)

-- The parser takes `req` to `url`, and all of its bytes; a header is one that `req` has, or its CSeq.
structure Alone (order : HeaderOrder) (url : Bytes) (req : RtspMessage) (out : Parsed RtspMessage) : Prop where
  ok : out.ok = true
  consumed : out.consumed = (serialize order req).length
  type : out.msg.type = .request
  method : out.msg.method = req.method
  url : out.msg.url = url
  cseq : out.msg.cseq = req.cseq
  headers : ∀ key, out.msg.headers.lookup key =
    (req.headers.insert (ascii "CSeq") (decimal req.cseq)).lookup key

def ReadAlone (order : HeaderOrder) (url : Bytes) (req : RtspMessage) : Prop :=
  ∀ buf : ByteBuffer, buf.content = serialize order req →
    ∃ out, Protocol.parse buf = .ok out ∧ Alone order url req out

-- The bytes of a request besides its URL.
def rest (order : HeaderOrder) (req : RtspMessage) : Nat := (serialize order { req with url := [] }).length

structure Plain (url : Bytes) : Prop where
  space : (32 : UInt8) ∉ url
  line : find crlf url = none

instance (url : Bytes) : Decidable (Plain url) :=
  decidable_of_iff ((32 : UInt8) ∉ url ∧ find crlf url = none) ⟨fun h => ⟨h.1, h.2⟩, fun h => ⟨h.space, h.line⟩⟩

/-! What all requests of a source have in common. -/

structure Sent (url : Bytes) (req : RtspMessage) : Prop where
  type : req.type = .request
  url : req.url = url
  version : req.version = ascii "RTSP/1.0"
  cseq : req.cseq < 2 ^ 32
  body : req.body = []
  headers : ∀ key val, req.headers.lookup key = some val → PrintableKey key ∧ SeparatedValue val

section
variable {url id : Bytes} {order : HeaderOrder} {m : RtspMessage}

theorem bareSent (method : RtspMethod) {cseq : Nat} (small : cseq < 2 ^ 32) :
    Sent url { type := .request, method := method, url := url, cseq := cseq } :=
  ⟨rfl, rfl, rfl, small, rfl, nofun⟩

theorem setSent (sent : Sent url m) {key : String} {val : Bytes} (named : PrintableKey (ascii key))
    (valued : SeparatedValue val) : Sent url (m.set key val) :=
  ⟨sent.type, sent.url, sent.version, sent.cseq, sent.body, headersInsert sent.headers ⟨named, valued⟩⟩

theorem setSessionSent (sent : Sent url m) (text : SeparatedValue id) : Sent url (m.setSession id) := by
  unfold RtspMessage.setSession
  split
  · exact sent
  · exact setSent sent (by decide) text

theorem optionsSent {cseq : Nat} (small : cseq < 2 ^ 32) : Sent url (optionsRequest url cseq) :=
  setSent (bareSent .options small) (by decide) (by decide)

theorem describeSent {cseq : Nat} (small : cseq < 2 ^ 32) : Sent url (describeRequest url cseq) :=
  setSent (setSent (bareSent .describe small) (by decide) (by decide)) (by decide) (by decide)

theorem setupSent {cseq : Nat} (small : cseq < 2 ^ 32) (text : SeparatedValue id) :
    Sent url (setupAsked url cseq id) := by
  have bare : Sent url _ := bareSent .setup small
  have session := setSessionSent bare text
  have ports : SeparatedValue (ascii "RTP/AVP;unicast;client_port=" ++ decimalInt 0 ++ ascii "-" ++ decimalInt 0) := by
    decide
  have transport : Sent url (RtspMessage.set _ "Transport" _) := setSent session (by decide) ports
  exact setSent (setSent transport (by decide) (by decide)) (by decide) (by decide)

theorem playSent {cseq : Nat} (small : cseq < 2 ^ 32) (text : SeparatedValue id) :
    Sent url (playRequest url cseq id) :=
  setSent (setSent (setSent (bareSent .play small) (by decide) text) (by decide) (by decide))
    (by decide) (by decide)

theorem teardownSent {cseq : Nat} (small : cseq < 2 ^ 32) (text : SeparatedValue id) :
    Sent url (teardownRequest url cseq id) :=
  setSent (setSent (bareSent .teardown small) (by decide) text) (by decide) (by decide)

/-! Such a request is read alone exactly when its URL is plain and leaves room for the rest. -/

theorem sentText (sent : Sent url m) : serialize order m = headerBlock order m := by
  have named := (headerAbsent fun key val found => (sent.headers key val found).1).1
  rw [serializeText named, sent.body, List.append_nil]

theorem sentLength (sent : Sent url m) :
    (serialize order m).length = url.length + rest order m := by
  have other : Sent [] { m with url := [] } :=
    ⟨sent.type, rfl, sent.version, sent.cseq, sent.body, sent.headers⟩
  have fields : writtenFields order { m with url := [] } = writtenFields order m := rfl
  rw [rest, sentText sent, sentText other, headerBlock, headerBlock, startText, startText, fields,
    if_pos sent.type, if_pos other.type, sent.url]
  simp only [List.length_append, List.length_nil]
  omega

theorem sentSeparated (sent : Sent url m) (plain : Plain url) : Separated m := by
  refine ⟨?_, sent.version, sent.cseq, sent.headers⟩
  unfold SeparatedStart
  rw [sent.type, sent.url]
  exact ⟨plain.space, plain.line⟩

theorem sentWritten (sent : Sent url m) :
    written m = m.headers.insert (ascii "CSeq") (decimal m.cseq) := if_pos sent.body

theorem plainAlone (sent : Sent url m) (plain : Plain url) (room : url.length + rest order m ≤ intMax) :
    ReadAlone order url m := by
  intro buf content
  have small : (headerBlock order m).length ≤ intMax := by
    rw [← sentText sent, sentLength sent]
    exact room
  have fits : m.body.length ≤ stringMaxSize := by
    rw [sent.body]
    exact Nat.zero_le _
  obtain ⟨out, parsed, back⟩ := smallReadsBack (sentSeparated sent plain) (t := [])
    (content.trans (List.append_nil _).symm) small fits
  obtain ⟨method, target⟩ := back.request sent.type
  refine ⟨out, parsed, back.ok, back.consumed, back.type.trans sent.type, method, target.trans sent.url,
    back.cseq, fun key => ?_⟩
  rw [← sentWritten sent]
  exact back.headers key

theorem bodyKeeps (msg : RtspMessage) (body : Bytes) :
    (setBody msg body).headers = msg.headers ∧ (setBody msg body).sessionId = msg.sessionId := by
  unfold setBody
  dsimp only
  repeat' split
  all_goals exact ⟨rfl, rfl⟩

theorem framedHeaders {content header : Bytes} {out : Parsed RtspMessage}
    (framed : Framed rtspGrammar content out header) : out.msg.headers = headerMap header := by
  have started := (headStarted rtspGrammar header).mpr framed.started
  have heads : (head rtspGrammar header).2.headers = headerMap header :=
    (headAccepted rtspGrammar header).2.1 started
  rw [framed.message]
  split
  · exact heads
  · exact (bodyKeeps _ _).1.trans heads

theorem aloneDeclares (sent : Sent url m) {content header : Bytes} {out : Parsed RtspMessage}
    (framed : Framed rtspGrammar content out header) (alone : Alone order url m out) :
    declaredLength header = 0 := by
  have bare := (headerAbsent fun key val found => (sent.headers key val found).1).2
  have absent : out.msg.headers.lookup (ascii "Content-Length") = none := by
    rw [alone.headers, AList.lookup_insert_ne (by decide)]
    exact bare
  rw [framedHeaders framed] at absent
  rw [declaredLength, contentLength, absent]

theorem aloneRoom (sent : Sent url m) {out : Parsed RtspMessage}
    (parsed : outcome rtspGrammar (serialize order m) = .ok out) (alone : Alone order url m out) :
    url.length + rest order m ≤ intMax := by
  obtain ⟨header, framed⟩ := outcomeFramed rtspGrammar parsed alone.ok
  have small := (blockHeader framed.shape).2.2.2.1
  have size := framed.size
  rw [aloneDeclares sent framed alone, alone.consumed, sentLength sent] at size
  omega

theorem alonePlain (sent : Sent url m) {out : Parsed RtspMessage}
    (parsed : outcome rtspGrammar (serialize order m) = .ok out) (alone : Alone order url m out) :
    Plain url := by
  have text : serialize order m = methodToString m.method ++ 32 ::
      (url ++ 32 :: (m.version ++ PrintedText.closed (writtenFields order m))) := by
    rw [sentText sent, headerBlock, startText, if_pos sent.type, sent.url]
    simp [ascii]
  rw [text] at parsed
  obtain ⟨header, u, cut, read⟩ := requestCut parsed alone.ok
  have same : u = url := read.url.symm.trans alone.url
  subst same
  exact ⟨(cutWhole cut).1, (cutWhole cut).2⟩

theorem sentAlone (sent : Sent url m) :
    ReadAlone order url m ↔ Plain url ∧ url.length + rest order m ≤ intMax := by
  refine ⟨fun reads => ?_, fun h => plainAlone sent h.1 h.2⟩
  obtain ⟨out, parsed, alone⟩ := reads ((ByteBuffer.init 0).append (serialize order m))
    (ByteBuffer.filledContent 0 _)
  rw [Protocol.parse, parseOutcome, ByteBuffer.filledContent] at parsed
  exact ⟨alonePlain sent parsed alone, aloneRoom sent parsed alone⟩
end

/-! The text of a parsed header line has no end of a line and no space in front. -/

theorem fieldSeparated {lines : Bytes} {f : Bytes × Bytes} (inside : f ∈ fieldsOf lines) :
    SeparatedValue f.2 := by
  induction h : lines.length using Nat.strongRecOn generalizing lines with
  | ind size ih =>
    cases found : find crlf lines with
    | none =>
      rw [fieldsOfNone found] at inside
      contradiction
    | some i =>
      have bound := (findOccurs found).2
      simp only [crlf, List.length_cons, List.length_nil] at bound
      rw [fieldsOfSome found] at inside
      split at inside
      · contradiction
      · rcases List.mem_append.mp inside with first | later
        · obtain ⟨colon, _, same⟩ := Option.map_eq_some_iff.mp (Option.mem_toList.mp first)
          have whole : find crlf (lines.take i) = none := firstPiece (by decide) found
          have suffix : f.2 <:+ lines.take i := by
            rw [← same]
            exact (List.dropWhile_suffix _).trans (List.drop_suffix _ _)
          obtain ⟨front, joined⟩ := suffix
          refine ⟨findAbsent fun j occurs => ?_, ?_⟩
          · refine findNone whole (front.length + j) ?_
            rw [← joined, ← List.drop_drop, List.drop_left]
            exact occurs
          · rw [← same]
            intro blank
            have stops := List.head?_dropWhile_not (· == (32 : UInt8)) ((lines.take i).drop (colon + 1))
            rw [blank] at stops
            simp at stops
        · exact ih _ (by simp only [List.length_drop]; omega) later rfl

theorem sessionSeparated {val : Bytes} (text : SeparatedValue val) : SeparatedValue (sessionValue val) := by
  unfold sessionValue
  split
  · rename_i semi _
    refine ⟨findTakeNone text.whole semi, fun blank => ?_⟩
    refine text.start ?_
    cases val with
    | nil => rw [List.take_nil] at blank; exact blank
    | cons b later =>
      cases semi with
      | zero => contradiction
      | succ n => exact blank
  · exact text

theorem startSession (line : Bytes) {accepted : Bool} {msg : RtspMessage}
    (started : startLine line {} = .ok (accepted, msg)) : msg.sessionId = [] := by
  obtain ⟨parts, found, _⟩ := threePartsOk line
  unfold startLine at started
  rw [substrOk (Nat.zero_le _), found] at started
  cases parts <;> simp only [bind, Except.bind] at started <;> split at started <;> cases started <;> rfl

theorem headSession (header : Bytes) : SeparatedValue (head rtspGrammar header).2.sessionId := by
  have empty : SeparatedValue [] := by decide
  unfold head
  split
  · exact empty
  · rename_i lineEnd _
    split
    · exact empty
    · rename_i accepted msg started
      have fresh : msg.sessionId = [] := startSession _ started
      split
      · have read := congrArg RtspMessage.sessionId (fieldsRead (fields header) msg)
        have folded : ((fields header).foldl (fun m f => rtspGrammar.field m f.1 f.2) msg).sessionId =
            (given (ascii "Session") (fields header)).elim msg.sessionId sessionValue := read
        dsimp only
        rw [folded, fresh]
        cases found : given (ascii "Session") (fields header) with
        | none => exact empty
        | some val =>
          have inside := givenMember found
          unfold fields at inside
          split at inside
          · contradiction
          · exact sessionSeparated (fieldSeparated inside)
      · dsimp only
        rw [fresh]
        exact empty

theorem parsedSession {content : Bytes} {out : Parsed RtspMessage}
    (parsed : outcome rtspGrammar content = .ok out) (ok : out.ok = true) :
    SeparatedValue out.msg.sessionId := by
  obtain ⟨header, framed⟩ := outcomeFramed rtspGrammar parsed ok
  have read := headSession header
  rw [framed.message]
  split
  · exact read
  · have bodied : ∀ body, (setBody (head rtspGrammar header).2 body).sessionId = _ := fun body =>
      (bodyKeeps _ body).2
    exact (bodied _).symm ▸ read

/-! A run: each request it logs is one of the five, with an id that came out of a parsed line. -/

structure Asking (url : Bytes) (s : Watched) : Prop where
  named : s.world.source.upstreamUrl = url
  session : SeparatedValue s.world.source.sessionId
  asked : ∀ i req, .asked i req ∈ s.log → Sent url req

def Heard : Happening → Prop
  | .message _ msg => SeparatedValue msg.sessionId
  | _ => True

section
variable {url : Bytes}

theorem openedAsking {w after : World} {log : List Entry} (opened : Opened w after)
    (h : Asking url ⟨w, log⟩) :
    Asking url ⟨after, .asked w.nextConn (optionsRequest w.source.upstreamUrl 1) :: log⟩ := by
  refine ⟨opened.url.trans h.named, opened.sessionId ▸ h.session, fun i req asked => ?_⟩
  rcases List.mem_cons.mp asked with now | before
  · have first : (1 : Nat) < 2 ^ 32 := by decide
    cases now
    exact h.named ▸ optionsSent first
  · exact h.asked i req before

theorem idleAsking {w after : World} {log : List Entry} (idle : Idle w after) (h : Asking url ⟨w, log⟩) :
    Asking url ⟨after, log⟩ :=
  ⟨idle.url.trans h.named, idle.sessionId ▸ h.session, h.asked⟩

theorem heardSession {w : World} (before : SeparatedValue w.source.sessionId) {msg : RtspMessage}
    (text : SeparatedValue msg.sessionId) : SeparatedValue (heard w msg).source.sessionId := by
  unfold heard World.noteSession
  split
  · split
    · exact before
    · exact text
  · exact before

theorem nextSmall (source : RtspSource) : nextCseq source < 2 ^ 32 := Nat.mod_lt _ (by decide)

theorem replySent {w : World} (named : w.source.upstreamUrl = url) {msg req : RtspMessage}
    (text : SeparatedValue (heard w msg).source.sessionId) (replies : reply w msg = some req) :
    Sent url req := by
  cases (replied replies).2 with
  | describe => exact named ▸ describeSent (nextSmall _)
  | setup => exact named ▸ setupSent (nextSmall _) text
  | play => exact named ▸ playSent (nextSmall _) text

theorem watchAsking {s : Watched} (h : Asking url s) {hap : Happening} (heard : Heard hap) :
    Asking url (watch s hap) := by
  cases hap with
  | message i msg =>
    have text := heardSession h.session heard
    obtain ⟨named, session⟩ := handledSource s.world msg
    refine ⟨named.trans h.named, session ▸ text, fun j req asked => ?_⟩
    rcases watchAsked asked with now | before
    · obtain ⟨_, _, sent⟩ := Option.bind_eq_some_iff.mp now
      obtain ⟨_, replies, same⟩ := Option.map_eq_some_iff.mp sent
      cases same
      exact replySent h.named text replies
    · exact h.asked j req before
  | stop writes =>
    obtain ⟨named, session⟩ := stoppedSource s.world writes
    refine ⟨named.trans h.named, session ▸ h.session, fun j req asked => ?_⟩
    rcases watchAsked asked with now | before
    · obtain ⟨_, _, sent⟩ := Option.bind_eq_some_iff.mp now
      split at sent
      · cases sent
        exact h.named ▸ teardownSent (nextSmall _) h.session
      · contradiction
    · exact h.asked j req before
  | enter | frame | stored | writable | ended | broken | fire | runTask =>
    exact ordinaryKeeps openedAsking idleAsking trivial h

theorem beginAsking (order : HeaderOrder) (url streamPath : Bytes) (connect : ConnectResult)
    (writes : List WriteResult) : Asking url (begin order url streamPath connect writes) :=
  beginKeeps openedAsking idleAsking order url streamPath connect writes
    ⟨rfl, (by decide : SeparatedValue []), nofun⟩

/-! Every message of a run was parsed out of received bytes. -/

theorem readHeard (w : World) (i : ConnId) (buf : ByteBuffer) : ∀ hap ∈ readHappenings w i buf, Heard hap := by
  intro hap inside
  rcases List.mem_append.mp inside with unit | stored
  · obtain ⟨u, taken, rfl⟩ := List.mem_map.mp unit
    cases u with
    | interleaved channel payload => trivial
    | message msg =>
      obtain ⟨rest, n, found⟩ := StreamDecoder.decodeTaken Decoders.interleavedDecoder taken
      have step : Decoders.interleavedStep rest = .unit (.message msg) n := found
      unfold Decoders.interleavedStep at step
      split at step
      · contradiction
      · split at step
        · obtain ⟨_, _, other⟩ := Decoders.frameUnit step
          contradiction
        · obtain ⟨_, lifted, same⟩ := Decoders.liftUnit step
          cases same
          obtain ⟨out, parsed, ok, rfl, _⟩ := Decoders.messageUnit lifted
          exact parsedSession parsed ok
  · cases List.mem_singleton.mp stored
    trivial

theorem happeningsHeard (w : World) (c : Command) : ∀ hap ∈ happenings w c, Heard hap := by
  intro hap inside
  cases c with
  | stop writes =>
    rw [happenings] at inside
    split at inside
    · contradiction
    · cases List.mem_singleton.mp inside
      trivial
  | event input =>
    rw [happenings] at inside
    split at inside
    · cases List.mem_singleton.mp inside
      trivial
    · rcases List.mem_cons.mp inside with rfl | inside
      · trivial
      · generalize input.event = e at inside
        cases e with
        | read i result =>
          cases result with
          | data chunk =>
            rw [eventHappenings] at inside
            split at inside
            · exact readHeard _ i _ hap inside
            · contradiction
          | again => contradiction
          | eof | error =>
            cases List.mem_singleton.mp inside
            trivial
        | writable | fire | runTask =>
          cases List.mem_singleton.mp inside
          trivial

theorem traceHeard (w : World) (commands : List Command) : ∀ hap ∈ trace w commands, Heard hap := by
  induction commands generalizing w with
  | nil => nofun
  | cons c rest ih =>
    intro hap inside
    rcases List.mem_append.mp inside with now | later
    · exact happeningsHeard w c hap now
    · exact ih (obey w c) hap later

theorem traceAsking (order : HeaderOrder) (url streamPath : Bytes) (connect : ConnectResult)
    (writes : List WriteResult) (commands : List Command) :
    Asking url (run watch (begin order url streamPath connect writes)
      (trace (begin order url streamPath connect writes).world commands)) :=
  runAlong (I := Asking url) (C := fun _ => Heard) (fun _ _ asking heard => watchAsking asking heard)
    (beginAsking order url streamPath connect writes) (throughoutAll (traceHeard _ commands) _)
end

/-! The source that a POST starts. -/

def postedSource (relay : Relay) (out : Outside) (b : Bytes) : Watched :=
  begin relay.order (postedUrl b) (postedPath b) out.connect out.writes

theorem postedStarts {order : StreamOrder} {rtspPort : UInt16} {out : Outside} {relay : Relay}
    {base : HttpRequest} {b : Bytes}
    (created : (api order rtspPort out relay (posting base b)).2.statusCode = 201) :
    (api order rtspPort out relay (posting base b)).1.sources relay.nextSource =
      (postedSource relay out b).world := by
  rw [postReached] at created ⊢
  unfold postStream at created ⊢
  dsimp only at created ⊢
  split at created
  · have status : (400 : Int) = 201 := created
    contradiction
  · rename_i named
    rw [if_neg named]
    split at created
    · have status : (409 : Int) = 201 := created
      contradiction
    · rename_i manager added
      have posted : relay.manager.addStream (postedPath b) (postedUrl b) relay.nextSource = some manager := added
      have started : (relay.addStream (postedPath b) (postedUrl b) out.connect out.writes).sources
          relay.nextSource = (postedSource relay out b).world := by
        rw [Relay.addStream, posted]
        exact Function.update_self _ _ _
      exact started

/-! The URL of the source is the posted text, neither checked nor escaped. -/
theorem requestsAlone (order : StreamOrder) (rtspPort : UInt16) (out : Outside) (relay : Relay)
    (base : HttpRequest) (b : Bytes)
    (created : (api order rtspPort out relay (posting base b)).2.statusCode = 201) :
    (api order rtspPort out relay (posting base b)).1.sources relay.nextSource =
        (postedSource relay out b).world ∧
      ∀ (commands : List Command) (i : ConnId) (req : RtspMessage),
        .asked i req ∈ (run watch (postedSource relay out b)
          (trace (postedSource relay out b).world commands)).log →
        (ReadAlone relay.order (postedUrl b) req ↔
          Plain (postedUrl b) ∧ (postedUrl b).length + rest relay.order req ≤ intMax) := by
  refine ⟨postedStarts created, fun commands i req asked => ?_⟩
  have asking : Asking (postedUrl b) _ := traceAsking relay.order (postedUrl b) (postedPath b) out.connect
    out.writes commands
  exact sentAlone (asking.asked i req asked)

def camSource : Watched := postedSource (fresh 500) ⟨.immediate, []⟩ slashBody

theorem camAsked : .asked 0 (optionsRequest (ascii "rtsp://10.0.0.9/cam") 1) ∈
    (run watch camSource (trace camSource.world [])).log := by
  have url : postedUrl slashBody = ascii "rtsp://10.0.0.9/cam" := by decide +kernel
  rw [← url]
  exact List.mem_singleton_self _

theorem camAlone : ReadAlone insertionOrder (postedUrl slashBody) (optionsRequest (ascii "rtsp://10.0.0.9/cam") 1) :=
  ((requestsAlone oldestFirst 8554 ⟨.immediate, []⟩ (fresh 500) {} slashBody (by decide +kernel)).2 [] 0 _
    camAsked).mpr ⟨by decide +kernel, by decide +kernel⟩

/-! The body holds the end of a header block and a second request. -/
def injectedBody : Bytes := ascii
  "\x7b\"path\":\"/cam\",\"upstream\":\"rtsp://10.0.0.9/a RTSP/1.0\r\n\r\nTEARDOWN rtsp://10.0.0.9/b\"\x7d"

theorem injectedRead : ¬ ∀ (order : StreamOrder) (rtspPort : UInt16) (out : Outside) (relay : Relay)
    (base : HttpRequest) (b : Bytes),
    (api order rtspPort out relay (posting base b)).2.statusCode = 201 →
    ∀ (commands : List Command) (i : ConnId) (req : RtspMessage),
      .asked i req ∈ (run watch (postedSource relay out b)
        (trace (postedSource relay out b).world commands)).log →
      ReadAlone relay.order (postedUrl b) req := by
  intro always
  have asked : .asked 0 (optionsRequest (postedUrl injectedBody) 1) ∈
      (run watch (postedSource (fresh 500) ⟨.immediate, []⟩ injectedBody)
        (trace (postedSource (fresh 500) ⟨.immediate, []⟩ injectedBody).world [])).log :=
    List.mem_singleton_self _
  have first : (1 : Nat) < 2 ^ 32 := by decide
  have alone := always oldestFirst 8554 ⟨.immediate, []⟩ (fresh 500) {} injectedBody (by decide +kernel) [] 0 _
    asked
  have plain := ((sentAlone (optionsSent first)).mp alone).1
  exact absurd plain (by decide +kernel)

end RtspRelay.RequestInjection
