import RtspRelay.General.Transition
import RtspRelay.EventLoop
import RtspRelay.Connection

/-! A connection under its event loop: the posted tasks, the batch being run and
the descriptor table. `send` may come from any thread; what is sent is a value
of `δ` read as bytes, so that a later part can tell the sends apart. The sends
of a callback are the `send` steps that follow the event. -/
namespace RtspRelay.ConnectionLoop
open Machine Buffer EventLoop Connection Transition

inductive Handler where
  | handleRead | handleWrite | handleError
  deriving DecidableEq, Repr

abbrev Callback := Events → List Handler

inductive Posted (δ : Type) where
  | sendInLoop (d : δ)
  | enableWriting
  | shutdown
  deriving DecidableEq

structure Loop (δ : Type) where
  conn : TcpConnection
  fdEntries : FdTable Callback
  batch : List (Posted δ)
  pendingTasks : List (Posted δ)
  queued : List δ

inductive Input (δ : Type) where
  | post (d : δ)
  | send (d : δ) (w : WriteResult)
  | shutdown
  | processTasks
  | runTask (w : WriteResult)
  | event (input output : Bool) (read : ReadResult) (writes : List WriteResult)

def selfCallback : Callback := fun ev =>
  (if ev.read then [.handleRead] else []) ++ (if ev.error then [.handleError] else [])

variable {δ : Type} (bytes : δ → Bytes)

def start (fd : Int) : Loop δ :=
  ⟨.create fd, addFd ∅ fd kEventRead selfCallback, [], [], []⟩

def runInLoop (s : Loop δ) (t : Posted δ) : Loop δ := { s with pendingTasks := s.pendingTasks ++ [t] }

-- handleClose and handleError drop the descriptor from the table first.
def closed (s : Loop δ) (c : TcpConnection) : Loop δ :=
  { s with conn := c, fdEntries := delFd s.fdEntries s.conn.fd }

def settle (s : Loop δ) : TcpConnection × Effect → Loop δ
  | (c, .none) => { s with conn := c }
  | (c, .enableWriting) => runInLoop { s with conn := c } .enableWriting
  | (c, .failed) => closed s c

def sendInLoop (s : Loop δ) (d : δ) (w : WriteResult) : Loop δ :=
  let out := s.conn.sendInLoop (bytes d) w
  let s := if s.conn.state = .connected ∧ out.2 ≠ .failed then { s with queued := s.queued ++ [d] } else s
  settle s out

def send (s : Loop δ) (d : δ) (w : WriteResult) : Loop δ :=
  if s.conn.state = .connected then sendInLoop bytes s d w else s

def post (s : Loop δ) (d : δ) : Loop δ :=
  if s.conn.state = .connected then runInLoop s (.sendInLoop d) else s

def shutdown (s : Loop δ) : Loop δ :=
  runInLoop { s with conn := { s.conn with state := .disconnecting } } .shutdown

def runTask (s : Loop δ) (w : WriteResult) : Posted δ → Loop δ
  | .sendInLoop d => sendInLoop bytes s d w
  | .enableWriting =>
    if s.conn.fd < 0 then s else { s with fdEntries := modFd s.fdEntries s.conn.fd kEventReadWrite }
  | .shutdown => { s with conn := s.conn.finish }

def handleRead (s : Loop δ) : ReadResult → Loop δ
  | .data chunk => { s with conn := { s.conn with inputBuf := s.conn.inputBuf.append chunk } }
  | .eof => closed s s.conn.handleClose
  | .again => s
  | .error => closed s s.conn.handleError

def disableWriting (s : Loop δ) : Loop δ :=
  if s.conn.fd < 0 then s else { s with fdEntries := modFd s.fdEntries s.conn.fd kEventRead }

def handleWrite (s : Loop δ) (writes : List WriteResult) : Loop δ :=
  let s := settle s (TcpConnection.writeLoop writes s.conn)
  if s.conn.outputBuf.readable = 0 then
    let s := disableWriting s
    if s.conn.state = .disconnecting then { s with conn := s.conn.finish } else s
  else s

def perform (read : ReadResult) (writes : List WriteResult) (s : Loop δ) : Handler → Loop δ
  | .handleRead => handleRead s read
  | .handleWrite => handleWrite s writes
  | .handleError => closed s s.conn.handleError

def deliver (s : Loop δ) (input output : Bool) (read : ReadResult) (writes : List WriteResult) :
    Loop δ :=
  ((dispatch s.fdEntries s.conn.fd input output).flatMap fun call => call.1 call.2).foldl
    (perform read writes) s

-- Tasks run before the loop waits for events.
def step (s : Loop δ) : Input δ → Loop δ
  | .post d => post s d
  | .send d w => send bytes s d w
  | .shutdown => shutdown s
  | .processTasks =>
    if s.batch = [] then { s with batch := s.pendingTasks, pendingTasks := [] } else s
  | .runTask w => match s.batch with
    | [] => s
    | t :: rest => runTask bytes { s with batch := rest } w t
  | .event input output read writes =>
    if s.batch = [] then deliver s input output read writes else s

theorem settleConn (s : Loop δ) (out : TcpConnection × Effect) : (settle s out).conn = out.1 := by
  obtain ⟨c, effect⟩ := out
  cases effect <;> rfl

theorem sendInLoopConn (s : Loop δ) (d : δ) (w : WriteResult) :
    (sendInLoop bytes s d w).conn = (s.conn.sendInLoop (bytes d) w).1 := settleConn _ _

/-! A send that does not fail queues its piece, and its bytes follow those the
connection has accepted; nothing else is posted than an enableWriting. -/

structure Sent (s after : Loop δ) (d : δ) : Prop where
  connected : after.conn.state = .connected
  accepted : after.conn.accepted = s.conn.accepted ++ bytes d
  queued : after.queued = s.queued ++ [d]
  batch : after.batch = s.batch
  posted : after.pendingTasks = s.pendingTasks ∨ after.pendingTasks = s.pendingTasks ++ [.enableWriting]

theorem queuedSent {s : Loop δ} (connected : s.conn.state = .connected) (d : δ) {w : WriteResult}
    (effect : (s.conn.sendInLoop (bytes d) w).2 ≠ .failed) : Sent bytes s (sendInLoop bytes s d w) d := by
  obtain ⟨accepted, still⟩ := TcpConnection.sendWhole connected (bytes d) effect
  unfold sendInLoop
  dsimp only
  rw [if_pos ⟨connected, effect⟩]
  rcases out : s.conn.sendInLoop (bytes d) w with ⟨c, e⟩
  rw [out] at effect accepted still
  cases e with
  | none => exact ⟨still, accepted, rfl, rfl, .inl rfl⟩
  | enableWriting => exact ⟨still, accepted, rfl, rfl, .inr rfl⟩
  | failed => exact absurd rfl effect

theorem sendInLoopSent {s : Loop δ} (connected : s.conn.state = .connected) (d : δ) {w : WriteResult}
    (works : w ≠ .error) : Sent bytes s (sendInLoop bytes s d w) d :=
  queuedSent bytes connected d (TcpConnection.sendEffect works)

end RtspRelay.ConnectionLoop
