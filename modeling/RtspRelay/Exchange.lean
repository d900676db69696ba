import RtspRelay.SourceSteps

/-! What a source and its upstream say to each other, one handler at a time. A
read callback is a run of the message handlers; the requests the source hands to
its connection and the messages it handles are logged beside it. -/
namespace RtspRelay.Exchange
open Machine Buffer Protocol Source World Decoders Transition
open Connection (WriteResult ReadResult)

/-! A callback of the loop, or a part of one: `enter` begins it, and `stored` is
what a read leaves behind. -/
inductive Happening where
  | enter (writes : List WriteResult)
  | message (i : ConnId) (msg : RtspMessage)
  | frame (i : ConnId) (channel : UInt8) (payload : Bytes)
  | stored (i : ConnId) (rest : Except Exn ByteBuffer)
  | writable (c : ClientId) (failed : Bool)
  | ended (i : ConnId)
  | broken (i : ConnId)
  | fire (n : Nat) (connect : ConnectResult)
  | runTask
  | stop (writes : List WriteResult)

def effect (w : World) : Happening → World
  | .enter writes => w.entering writes
  | .message _ msg => w.handleResponse msg
  | .frame _ channel payload => w.handleInterleavedData channel payload
  | .stored i rest => afterMessages i (w, rest)
  | .writable c failed => w.writable c failed
  | .ended i => w.read i .eof
  | .broken i => w.read i .error
  | .fire n connect => w.fire n connect
  | .runTask => w.runTask
  | .stop writes => w.stop writes

inductive Command where
  | event (input : Input)
  | stop (writes : List WriteResult)

def obey (w : World) : Command → World
  | .event input => w.step input
  | .stop writes => if w.crashed then w else w.stop writes

def unitHappening (i : ConnId) : StreamUnit → Happening
  | .interleaved channel payload => .frame i channel payload
  | .message msg => .message i msg

def readHappenings (w : World) (i : ConnId) (buf : ByteBuffer) : List Happening :=
  (StreamDecoder.decode interleavedDecoder buf.content).1.map (unitHappening i) ++
    [.stored i (Decoders.handleMessage handleInterleavedData handleResponse w buf).2]

def eventHappenings (w : World) (connect : ConnectResult) : Event → List Happening
  | .writable c failed => [.writable c failed]
  | .read i (.data chunk) =>
    if w.Live i then readHappenings w i ((w.conns i).tcp.inputBuf.append chunk) else []
  | .read i .eof => [.ended i]
  | .read _ .again => []
  | .read i .error => [.broken i]
  | .fire n => [.fire n connect]
  | .runTask => [.runTask]

def happenings (w : World) : Command → List Happening
  | .event input =>
    if w.crashed then [.enter []]
    else .enter input.writes :: eventHappenings (w.entering input.writes) input.connect input.event
  | .stop writes => if w.crashed then [] else [.stop writes]

-- The happenings of a run of callbacks.
def trace : World → List Command → List Happening
  | _, [] => []
  | w, c :: rest => happenings w c ++ trace (obey w c) rest

theorem readRuns (w : World) (i : ConnId) (buf : ByteBuffer) :
    run effect w (readHappenings w i buf) = w.handleMessage i buf := by
  have units : ∀ (units : List StreamUnit) (w : World), run effect w (units.map (unitHappening i)) =
      run (onUnit handleInterleavedData handleResponse) w units := by
    intro units
    induction units with
    | nil => intro w; rfl
    | cons u rest ih =>
      intro w
      cases u with
      | interleaved channel payload => exact ih _
      | message msg => exact ih _
  have all := units (StreamDecoder.decode interleavedDecoder buf.content).1 w
  rw [← handleMessageRuns] at all
  rw [readHappenings, runAppend, all]
  rfl

theorem eventRuns (w : World) (connect : ConnectResult) (e : Event) :
    run effect w (eventHappenings w connect e) = w.handle connect e := by
  cases e with
  | writable c failed => rfl
  | fire n => rfl
  | runTask => rfl
  | read i result =>
    cases result with
    | eof => rfl
    | error => rfl
    | again =>
      simp only [eventHappenings, World.handle, World.read]
      split <;> rfl
    | data chunk =>
      simp only [eventHappenings, World.handle, World.read]
      split
      · exact readRuns w i _
      · rfl

theorem commandRuns (w : World) (c : Command) : run effect w (happenings w c) = obey w c := by
  cases c with
  | stop writes =>
    simp only [happenings, obey]
    split <;> rfl
  | event input =>
    simp only [happenings, obey, World.step]
    split
    · rfl
    · exact eventRuns (w.entering input.writes) input.connect input.event

theorem traceRuns (w : World) (commands : List Command) :
    run effect w (trace w commands) = run obey w commands := by
  induction commands generalizing w with
  | nil => rfl
  | cons c rest ih =>
    rw [trace, runAppend, commandRuns, ih]
    rfl

/-! The log, the newest entry first. -/

inductive Entry where
  | asked (i : ConnId) (req : RtspMessage)
  | answered (i : ConnId) (msg : RtspMessage)

structure Watched where
  world : World
  log : List Entry

def setupAsked (url : Bytes) (cseq : Nat) (sessionId : Bytes) : RtspMessage :=
  (setupRequest url cseq 0 0 sessionId).set "Transport" (ascii "RTP/AVP/TCP;unicast;interleaved=0-1")

def nextCseq (source : RtspSource) : Nat := (source.cseq + 1) % 2 ^ 32

-- The request a response is followed by.
def reply (w : World) (resp : RtspMessage) : Option RtspMessage :=
  if resp.statusCode ≠ 200 then none
  else
    let source := (w.noteSession resp).source
    match source.state with
    | .options => some (describeRequest source.upstreamUrl (nextCseq source))
    | .describe => some (setupAsked source.upstreamUrl (nextCseq source) source.sessionId)
    | .setup => some (playRequest source.upstreamUrl (nextCseq source) source.sessionId)
    | _ => none

-- A connection is established in this happening.
def opens (w : World) : Happening → Bool
  | .writable c failed => (w.clients c).connecting && !failed
  | .fire n connect => decide (connect = .immediate) &&
    match w.timers[n]? with
    | none => false
    | some (.connect _) => true
    | some _ => !w.source.stopping
  | _ => false

def requested (w : World) : Happening → Option (ConnId × RtspMessage)
  | .message _ msg => w.source.conn.bind fun i => (reply w msg).map (i, ·)
  | .stop _ => w.source.conn.bind fun i =>
    if (w.conns i).tcp.connected then
      some (i, teardownRequest w.source.upstreamUrl (nextCseq w.source) w.source.sessionId)
    else none
  | h => if opens w h then some (w.nextConn, optionsRequest w.source.upstreamUrl 1) else none

def received : Happening → List Entry
  | .message i msg => [.answered i msg]
  | _ => []

def watch (s : Watched) (h : Happening) : Watched :=
  ⟨effect s.world h,
    ((requested s.world h).map fun r => Entry.asked r.1 r.2).toList ++ received h ++ s.log⟩

-- A source as RelayManager::addStream starts it.
def begin (order : HeaderOrder) (upstreamUrl streamPath : Bytes) (connect : ConnectResult)
    (writes : List WriteResult) : Watched :=
  ⟨(World.create order upstreamUrl streamPath).start connect writes,
    if connect = .immediate then [.asked 0 (optionsRequest upstreamUrl 1)] else []⟩

theorem watchWorld (s : Watched) (hs : List Happening) :
    (run watch s hs).world = run effect s.world hs := by
  induction hs generalizing s with
  | nil => rfl
  | cons h rest ih => exact ih (watch s h)

end RtspRelay.Exchange
