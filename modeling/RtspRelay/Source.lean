import Mathlib.Logic.Function.Basic
import RtspRelay.Connection
import RtspRelay.Decoders

/-! An upstream source with its TCP clients and the part of its event loop that
acts for it: connections, timers and posted tasks. An event is one callback of
the loop, so a read event reads once. A client that was replaced is destroyed,
but the closures that hold it stay: its connection and its retry still run. Its
own socket, if it was still connecting, is closed and reports nothing more. -/
namespace RtspRelay.Source
open Machine ByteSearch Buffer Protocol Connection

abbrev ClientId := Nat
abbrev ConnId := Nat

inductive State where
  | idle | connecting | options | describe | setup | playing | error
  deriving DecidableEq, Repr

def sourceStateToString : State → Bytes
  | .idle => ascii "Idle"
  | .connecting => ascii "Connecting"
  | .options => ascii "Options"
  | .describe => ascii "Describe"
  | .setup => ascii "Setup"
  | .playing => ascii "Playing"
  | .error => ascii "Error"

structure RtspSource where
  upstreamUrl : Bytes
  streamPath : Bytes
  upstreamHost : Bytes
  upstreamPort : UInt16
  upstreamPath : Bytes
  client : Option ClientId
  conn : Option ConnId
  state : State
  cseq : Nat
  sessionId : Bytes
  sdp : Bytes
  rtpChannel : UInt8
  rtcpChannel : UInt8
  stopping : Bool
  deriving DecidableEq, Repr

-- `connecting`: sock_fd_ is a socket waiting for its connect to complete.
structure TcpClient where
  host : Bytes
  port : UInt16
  connecting : Bool
  conn : Option ConnId
  destroyed : Bool
  deriving DecidableEq, Repr

-- A connection, the client its close callback belongs to, and its table entry.
structure Upstream where
  tcp : TcpConnection
  client : ClientId
  registered : Bool
  deriving DecidableEq

inductive Timer where
  | reconnect
  | retry404
  | connect (c : ClientId)
  deriving DecidableEq, Repr

inductive Act where
  | connect (c : ClientId)
  | packet (data : Bytes)
  deriving DecidableEq, Repr

inductive ConnectResult where
  | resolveFailed | socketFailed | refused | inProgress | immediate
  deriving DecidableEq, Repr

-- `tasks`: clients whose connect timer is posted; `writes`: coming answers of write().
structure World where
  source : RtspSource
  clients : ClientId → TcpClient
  nextClient : ClientId
  conns : ConnId → Upstream
  nextConn : ConnId
  timers : List Timer
  tasks : List ClientId
  writes : List WriteResult
  acts : List Act
  crashed : Bool
  order : HeaderOrder

inductive Event where
  | writable (c : ClientId) (failed : Bool)
  | read (i : ConnId) (result : ReadResult)
  | fire (n : Nat)
  | runTask

structure Input where
  event : Event
  connect : ConnectResult
  writes : List WriteResult

def parseUpstreamUrl (url : Bytes) : Bytes × UInt16 × Bytes :=
  match find (ascii "://") url with
  | none => (ascii "127.0.0.1", 554, url)
  | some pos =>
    let afterScheme := url.drop (pos + 3)
    let (hostPort, path) := match find [47] afterScheme with
      | some slash => (afterScheme.take slash, afterScheme.drop slash)
      | none => (afterScheme, ascii "/")
    match rfind 58 hostPort with
    | some colon => (hostPort.take colon, .ofInt (atoi (hostPort.drop (colon + 1))), path)
    | none => (hostPort, 554, path)

def RtspSource.create (upstreamUrl streamPath : Bytes) : RtspSource :=
  let parsed := parseUpstreamUrl upstreamUrl
  { upstreamUrl, streamPath, upstreamHost := parsed.1, upstreamPort := parsed.2.1
    upstreamPath := parsed.2.2, client := none, conn := none, state := .idle, cseq := 0
    sessionId := [], sdp := [], rtpChannel := 0, rtcpChannel := 1, stopping := false }

def noClient : TcpClient := ⟨[], 0, false, none, false⟩
def noConn : Upstream := ⟨(TcpConnection.create (-1)).handleClose, 0, false⟩

namespace World

def create (order : HeaderOrder) (upstreamUrl streamPath : Bytes) : World :=
  { source := .create upstreamUrl streamPath, clients := fun _ => noClient, nextClient := 0
    conns := fun _ => noConn, nextConn := 0, timers := [], tasks := [], writes := []
    acts := [], crashed := false, order }

def setConn (w : World) (i : ConnId) (up : Upstream) : World :=
  { w with conns := Function.update w.conns i up }

def setClient (w : World) (c : ClientId) (client : TcpClient) : World :=
  { w with clients := Function.update w.clients c client }

def addTimer (w : World) (t : Timer) : World := { w with timers := w.timers ++ [t] }

def note (w : World) (a : Act) : World := { w with acts := w.acts ++ [a] }

def setState (w : World) (state : State) : World := { w with source := { w.source with state := state } }

/-! Requests. The enableWriting that a full socket leaves posted changes no
callback, and no error callback is set on these connections. -/

def send (w : World) (i : ConnId) (data : Bytes) : World :=
  let up := w.conns i
  if up.tcp.state = .connected then
    let out := up.tcp.sendInLoop data (w.writes.headD .again)
    { w with writes := w.writes.tail }.setConn i
      { up with tcp := out.1, registered := up.registered && (out.2 != Effect.failed) }
  else w

-- `conn_->send` on a null conn_ is a crash.
def sendRequest (w : World) (request : Nat → RtspMessage) : World :=
  let w := { w with source := { w.source with cseq := (w.source.cseq + 1) % 2 ^ 32 } }
  match w.source.conn with
  | none => { w with crashed := true }
  | some i => w.send i (serialize w.order (request w.source.cseq))

def sendOptions (w : World) : World := w.sendRequest (optionsRequest w.source.upstreamUrl)

def sendDescribe (w : World) : World := w.sendRequest (describeRequest w.source.upstreamUrl)

def sendSetup (w : World) : World :=
  w.sendRequest fun cseq => (setupRequest w.source.upstreamUrl cseq 0 0 w.source.sessionId).set
    "Transport" (ascii "RTP/AVP/TCP;unicast;interleaved=0-1")

def sendPlay (w : World) : World :=
  w.sendRequest fun cseq => playRequest w.source.upstreamUrl cseq w.source.sessionId

def connConnected (w : World) : Bool :=
  match w.source.conn with
  | none => false
  | some i => (w.conns i).tcp.connected

def sendTeardown (w : World) : World :=
  if w.connConnected then
    w.sendRequest fun cseq => teardownRequest w.source.upstreamUrl cseq w.source.sessionId
  else w

/-! The TCP client. -/

def onConnect (w : World) (i : ConnId) : World :=
  { w with source := { w.source with conn := some i, state := .options, cseq := 0 } }.sendOptions

-- The new TcpConnection, before the connect callback.
def openConn (w : World) (c : ClientId) : World :=
  let i := w.nextConn
  ({ w with nextConn := i + 1 }.setConn i ⟨.create i, c, false⟩).setClient c
    { w.clients c with connecting := false, conn := some i }

def register (w : World) (i : ConnId) : World := w.setConn i { w.conns i with registered := true }

def handleConnect (w : World) (c : ClientId) : World :=
  ((w.openConn c).onConnect w.nextConn).register w.nextConn

def postRetry (w : World) (c : ClientId) : World := { w with tasks := w.tasks ++ [c] }

def setConnecting (w : World) (c : ClientId) (connecting : Bool) : World :=
  w.setClient c { w.clients c with connecting := connecting }

def connect (w : World) (c : ClientId) (result : ConnectResult) : World :=
  let w := w.note (.connect c)
  match result with
  | .resolveFailed => w.postRetry c
  | .socketFailed => w.addTimer (.connect c)
  | .refused => w.addTimer (.connect c)
  | .inProgress => w.setConnecting c true
  | .immediate => w.handleConnect c

-- The destructor closes a socket that is still connecting.
def dropClient (w : World) : World :=
  match w.source.client with
  | none => w
  | some c => { w.setClient c { w.clients c with connecting := false, destroyed := true } with
      source := { w.source with client := none } }

def makeClient (w : World) : World :=
  let c := w.nextClient
  { w with nextClient := c + 1, source := { w.source with client := some c } }.setClient c
    ⟨w.source.upstreamHost, w.source.upstreamPort, false, none, false⟩

def connectToUpstream (w : World) (result : ConnectResult) : World :=
  if w.source.stopping then w else w.dropClient.makeClient.connect w.nextClient result

def dropConn (w : World) : World := { w with source := { w.source with conn := none } }

def scheduleReconnect (w : World) : World :=
  if w.source.stopping then w else (w.setState .error).addTimer .reconnect

def forgetConn (w : World) (c : ClientId) : World := w.setClient c { w.clients c with conn := none }

-- TcpClient::handleClose with the source's close callback.
def clientClosed (w : World) (c : ClientId) : World := w.dropConn.scheduleReconnect.forgetConn c

def writable (w : World) (c : ClientId) (failed : Bool) : World :=
  if (w.clients c).connecting then
    if failed then (w.setConnecting c false).addTimer (.connect c)
    else w.handleConnect c
  else w

/-! The upstream's messages. -/

def handleInterleavedData (w : World) (_channel : UInt8) (data : Bytes) : World :=
  w.note (.packet data)

def noteSession (w : World) (resp : RtspMessage) : World :=
  if resp.sessionId = [] then w
  else { w with source := { w.source with sessionId := resp.sessionId } }

def noteChannels (w : World) (resp : RtspMessage) : World :=
  match (resp.headers.lookup (ascii "Transport")).bind (transportRange (ascii "interleaved=")) with
  | none => w
  | some range => { w with source := { w.source with
      rtpChannel := (channels range).1, rtcpChannel := (channels range).2 } }

def advance (w : World) (resp : RtspMessage) : World :=
  match w.source.state with
  | .options => (w.setState .describe).sendDescribe
  | .describe => ({ w with source := { w.source with sdp := resp.sdp } }.setState .setup).sendSetup
  | .setup => ((w.noteChannels resp).setState .playing).sendPlay
  | _ => w

def handleResponse (w : World) (resp : RtspMessage) : World :=
  if resp.statusCode ≠ 200 then
    if resp.statusCode = 404 then w.addTimer .retry404 else w
  else (w.noteSession resp).advance resp

-- What is left after the receive callback of connection `i`: nothing catches an exception.
def afterMessages (i : ConnId) : Decoders.LoopEnd World → World
  | (w, .ok rest) =>
    w.setConn i { w.conns i with tcp := { (w.conns i).tcp with inputBuf := rest } }
  | (w, .error _) => { w with crashed := true }

def handleMessage (w : World) (i : ConnId) (buf : ByteBuffer) : World :=
  afterMessages i (Decoders.handleMessage handleInterleavedData handleResponse w buf)

-- Registered and open: the loop still reports its events.
def Live (w : World) (i : ConnId) : Prop := (w.conns i).registered = true ∧ 0 ≤ (w.conns i).tcp.fd

instance (w : World) (i : ConnId) : Decidable (w.Live i) :=
  inferInstanceAs (Decidable (_ ∧ _))

-- handleClose and handleError of connection `i`, up to the close callback.
def endConn (w : World) (i : ConnId) : World :=
  w.setConn i { w.conns i with tcp := (w.conns i).tcp.handleClose, registered := false }

def failConn (w : World) (i : ConnId) : World :=
  w.setConn i { w.conns i with tcp := (w.conns i).tcp.handleError, registered := false }

def read (w : World) (i : ConnId) (result : ReadResult) : World :=
  if w.Live i then
    match result with
    | .data chunk => w.handleMessage i ((w.conns i).tcp.inputBuf.append chunk)
    | .eof => (w.endConn i).clientClosed (w.conns i).client
    | .again => w
    | .error => w.failConn i
  else w

def expire (w : World) (result : ConnectResult) : Timer → World
  | .reconnect => (w.setState .connecting).connectToUpstream result
  | .retry404 =>
    if w.source.stopping then w else (w.setState .connecting).connectToUpstream result
  | .connect c => w.connect c result

def takeTimer (w : World) (n : Nat) : World := { w with timers := w.timers.eraseIdx n }

def fire (w : World) (n : Nat) (result : ConnectResult) : World :=
  match w.timers[n]? with
  | none => w
  | some t => (w.takeTimer n).expire result t

def runTask (w : World) : World :=
  match w.tasks with
  | [] => w
  | c :: rest => { w with tasks := rest }.addTimer (.connect c)

def handle (w : World) (connect : ConnectResult) : Event → World
  | .writable c failed => w.writable c failed
  | .read i result => w.read i result
  | .fire n => w.fire n connect
  | .runTask => w.runTask

-- A step has its own answers of write() and shows only its own acts.
def entering (w : World) (writes : List WriteResult) : World := { w with writes, acts := [] }

def step (w : World) (input : Input) : World :=
  if w.crashed then w.entering []
  else (w.entering input.writes).handle input.connect input.event

def setStopping (w : World) (stopping : Bool) : World :=
  { w with source := { w.source with stopping := stopping } }

def start (w : World) (connect : ConnectResult) (writes : List WriteResult) : World :=
  (((w.entering writes).setStopping false).setState .connecting).connectToUpstream connect

def stop (w : World) (writes : List WriteResult) : World :=
  (((w.entering writes).setStopping true).setState .idle).sendTeardown.dropClient.dropConn

/-! Objects that are gone. A client's socket, its retry and the close callback of its
connection lead back to the client alone, the timer of a 404 answer to the source alone.
A removed source is kept by what else leads to it: an open connection, a reconnect. -/

def Freed (w : World) : Prop :=
  w.source.stopping = true ∧ (∀ i < w.nextConn, ¬ w.Live i) ∧ Timer.reconnect ∉ w.timers

instance (w : World) : Decidable w.Freed :=
  inferInstanceAs (Decidable (_ ∧ (∀ i < w.nextConn, ¬ w.Live i) ∧ _))

-- The callback uses an object that is gone; what it does then is not in the model.
def dangles (w : World) : Event → Bool
  | .writable c _ => (w.clients c).destroyed
  | .read i .eof => decide (w.Live i) && (w.clients (w.conns i).client).destroyed
  | .read _ _ => false
  | .fire n => match w.timers[n]? with
    | some .retry404 => decide w.Freed
    | some (.connect c) => (w.clients c).destroyed
    | _ => false
  | .runTask => match w.tasks with
    | c :: _ => (w.clients c).destroyed
    | [] => false

end World
end RtspRelay.Source
