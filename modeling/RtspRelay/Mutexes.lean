import Mathlib.Data.Fintype.Option
import RtspRelay.FanOutLocks
import RtspRelay.General.LockOrder
import RtspRelay.Source

/-! The mutexes of the relay, as its threads take them: the accept loop's thread, which
runs the API and every source, and one thread an IO loop. A call stands for what a
callback runs with no mutex held, so a callback is some calls one after the other. What
a branch depends on is an argument; a session in a sinks vector has handled a request,
so its loop has been entered. -/
namespace RtspRelay.Mutexes
open Manager LockOrder FanOutLocks
open Source (ConnId)

-- The connections whose output buffer is a ThreadSafeBuffer.
inductive Conn where
  | player (self : SessionId)
  | upstream (i : SourceId) (c : ConnId)
  | http (n : Nat)
  deriving DecidableEq, Repr

inductive Mutex where
  | streams
  | sinks (i : SourceId)
  | output (c : Conn)
  | tasks (loop : LoopId)
  deriving DecidableEq, Repr

-- RtspSession::close; the sinks of the path it leaves, if it is registered.
inductive Closing where
  | apart
  | leaves (found : Option SourceId)
  deriving DecidableEq, Repr

-- How far TcpConnection::sendInLoop comes.
inductive Sent where
  | notConnected
  | written
  | failed (closing : Closing)
  | kept
  deriving DecidableEq, Repr

-- TcpClient::connect; `later` waits for the socket or sets a timer.
inductive Connecting where
  | resolveFailed
  | later
  | immediate (c : ConnId) (sent : Sent)
  deriving DecidableEq, Repr

-- A sink's turn: nothing is sent, or the header and then the payload.
structure Turn where
  self : SessionId
  sends : Option (Sent × Sent)
  deriving DecidableEq, Repr

inductive Call where
  | runInLoop (loop : LoopId)
  | processTasks
  | send (c : Conn) (sent : Sent)
  | handleWrite (c : Conn) (failed : Option Closing)
  | ended (c : Conn) (closing : Closing)
  | shutdown (c : Conn)
  | shutdownTask (c : Conn)
  | connect (i : SourceId) (connecting : Connecting)
  | addStream (started : Option (SourceId × Connecting))
  | removeStream (stopped : Option (SourceId × ConnId × Sent))
  | destroy (stopped : List (SourceId × ConnId × Sent))
  | onRtpData (found : Option (SourceId × List Turn))
  | addSink (found : Option SourceId)
  | removeSink (found : Option SourceId)
  | getStreamSdp
  | hasStream
  | streamCount
  | getStreamInfo (found : Option SourceId)
  | eachStream (all : List SourceId)

section
variable (ioLoops : Nat) (nextLoop : SessionId → Nat)

def loopOf : Conn → LoopId
  | .player self => getNextLoop ioLoops (nextLoop self)
  | .upstream _ _ | .http _ => .accept

def runInLoop (loop : LoopId) : Script Mutex := guarded (.tasks loop) []

def readable (c : Conn) : Script Mutex := guarded (.output c) []

def append (c : Conn) : Script Mutex := guarded (.output c) []

-- addSink, removeSink and getStreamInfo: the vector's mutex inside the map's.
def inStream (found : Option SourceId) : Script Mutex :=
  guarded .streams (found.toList.flatMap fun i => guarded (.sinks i) [])

def close : Closing → Script Mutex
  | .apart => []
  | .leaves found => inStream found

-- The close and error callbacks; only a player's take a mutex.
def callback : Conn → Closing → Script Mutex
  | .player _, closing => close closing
  | .upstream _ _, _ | .http _, _ => []

def sendInLoop (c : Conn) : Sent → Script Mutex
  | .notConnected => []
  | .written => readable c
  | .failed closing => readable c ++ callback c closing
  | .kept => readable c ++ append c ++ runInLoop (loopOf ioLoops nextLoop c)

def send (here : LoopId) (c : Conn) (sent : Sent) : Script Mutex :=
  if sent = .notConnected then []
  else if loopOf ioLoops nextLoop c = here then sendInLoop ioLoops nextLoop c sent
  else runInLoop (loopOf ioLoops nextLoop c)

-- The error callback runs inside withBuffer.
def handleWrite (c : Conn) (failed : Option Closing) : Script Mutex :=
  guarded (.output c) (failed.toList.flatMap (callback c)) ++ readable c

def connect (here : LoopId) (i : SourceId) : Connecting → Script Mutex
  | .resolveFailed => runInLoop .accept
  | .later => []
  | .immediate c sent => send ioLoops nextLoop here (.upstream i c) sent

def stop (here : LoopId) (stopped : SourceId × ConnId × Sent) : Script Mutex :=
  send ioLoops nextLoop here (.upstream stopped.1 stopped.2.1) stopped.2.2

def sinkOnRtpData (here : LoopId) (turn : Turn) : Script Mutex :=
  turn.sends.toList.flatMap fun sent =>
    send ioLoops nextLoop here (.player turn.self) sent.1 ++ send ioLoops nextLoop here (.player turn.self) sent.2

def onRtpData (here : LoopId) (found : Option (SourceId × List Turn)) : Script Mutex :=
  guarded .streams [] ++ found.toList.flatMap fun stream =>
    guarded (.sinks stream.1) (stream.2.flatMap (sinkOnRtpData ioLoops nextLoop here))

def script (here : LoopId) : Call → Script Mutex
  | .runInLoop loop => runInLoop loop
  | .processTasks => guarded (.tasks here) []
  | .send c sent => send ioLoops nextLoop here c sent
  | .handleWrite c failed => handleWrite c failed
  | .ended c closing => callback c closing
  | .shutdown c => runInLoop (loopOf ioLoops nextLoop c)
  | .shutdownTask c => readable c
  | .connect i connecting => connect ioLoops nextLoop here i connecting
  | .addStream started => guarded .streams (started.toList.flatMap fun s => connect ioLoops nextLoop here s.1 s.2)
  | .removeStream stopped => guarded .streams (stopped.toList.flatMap (stop ioLoops nextLoop here))
  | .destroy stopped => guarded .streams (stopped.flatMap (stop ioLoops nextLoop here))
  | .onRtpData found => onRtpData ioLoops nextLoop here found
  | .addSink found | .removeSink found | .getStreamInfo found => inStream found
  | .getStreamSdp | .hasStream | .streamCount => guarded .streams []
  | .eachStream all => guarded .streams (all.flatMap fun i => guarded (.sinks i) [])

-- What belongs to a loop is called by its thread; the sources and the API are the accept loop's.
def On (here : LoopId) : Call → Prop
  | .handleWrite c _ | .ended c _ | .shutdownTask c => loopOf ioLoops nextLoop c = here
  | .connect _ _ | .addStream _ | .removeStream _ | .destroy _ | .onRtpData _ => here = .accept
  | _ => True

def loopAt : Option (Fin ioLoops) → LoopId
  | none => .accept
  | some i => .io i

def calls (t : Option (Fin ioLoops)) (s : Script Mutex) : Prop :=
  ∃ call, On ioLoops nextLoop (loopAt ioLoops t) call ∧ script ioLoops nextLoop (loopAt ioLoops t) call = s
end

/-! The order in which the mutexes are taken. -/
def rank : Mutex → Nat
  | .output (.player _) => 0
  | .streams => 1
  | .sinks _ => 2
  | .output (.upstream _ _) | .output (.http _) => 3
  | .tasks _ => 4

theorem onlyThere {l : Mutex} {low : Nat} (above : low ≤ rank l) : Climbs rank low (guarded l []) :=
  climbsGuarded above climbsNil

theorem runClimbs (loop : LoopId) : Climbs rank 4 (runInLoop loop) := onlyThere (Nat.le_refl 4)

theorem outputBelow (c : Conn) : rank (.output c) ≤ 3 := by
  cases c with
  | player self => exact Nat.zero_le 3
  | upstream i c => exact Nat.le_refl 3
  | http n => exact Nat.le_refl 3

theorem inStreamClimbs (found : Option SourceId) : Climbs rank 1 (inStream found) :=
  climbsGuarded (Nat.le_refl 1) (climbsFlat (fun _ => onlyThere (Nat.le_refl 2)) _)

theorem closeClimbs (closing : Closing) : Climbs rank 1 (close closing) := by
  cases closing with
  | apart => exact climbsNil
  | leaves found => exact inStreamClimbs found

theorem callbackClimbs (c : Conn) (closing : Closing) :
    Climbs rank (rank (.output c) + 1) (callback c closing) := by
  cases c with
  | player self => exact closeClimbs closing
  | upstream i c => exact climbsNil
  | http n => exact climbsNil

section
variable {ioLoops : Nat} {nextLoop : SessionId → Nat} {here : LoopId}

theorem sendInLoopClimbs (c : Conn) (sent : Sent) :
    Climbs rank (rank (.output c)) (sendInLoop ioLoops nextLoop c sent) := by
  have own : Climbs rank (rank (.output c)) (readable c) := onlyThere (Nat.le_refl _)
  cases sent with
  | notConnected => exact climbsNil
  | written => exact own
  | failed closing => exact climbsAppend own (climbsMono (callbackClimbs c closing) (Nat.le_succ _))
  | kept =>
    have low : rank (.output c) ≤ 4 := Nat.le_succ_of_le (outputBelow c)
    exact climbsAppend (climbsAppend own (onlyThere (Nat.le_refl _))) (climbsMono (runClimbs _) low)

theorem sendClimbs (c : Conn) (sent : Sent) : Climbs rank (rank (.output c)) (send ioLoops nextLoop here c sent) := by
  unfold send
  split
  · exact climbsNil
  · split
    · exact sendInLoopClimbs c sent
    · exact climbsMono (runClimbs _) (Nat.le_succ_of_le (outputBelow c))

-- With an IO loop no player is on the accept loop, so what the accept loop sends is posted.
theorem postedClimbs (some_ : 0 < ioLoops) (self : SessionId) (sent : Sent) :
    Climbs rank 4 (send ioLoops nextLoop .accept (.player self) sent) := by
  have elsewhere : loopOf ioLoops nextLoop (.player self) ≠ .accept := by
    rw [loopOf, getNextLoop, if_neg (Nat.ne_of_gt some_)]
    intro same
    cases same
  unfold send
  rw [if_neg elsewhere]
  split
  · exact climbsNil
  · exact runClimbs _

theorem connectClimbs (i : SourceId) (connecting : Connecting) :
    Climbs rank 3 (connect ioLoops nextLoop here i connecting) := by
  cases connecting with
  | resolveFailed => exact climbsMono (runClimbs _) (Nat.le_succ 3)
  | later => exact climbsNil
  | immediate c sent => exact sendClimbs (.upstream i c) sent

theorem stopClimbs (stopped : SourceId × ConnId × Sent) : Climbs rank 3 (stop ioLoops nextLoop here stopped) :=
  sendClimbs (.upstream stopped.1 stopped.2.1) stopped.2.2

theorem onRtpDataClimbs (some_ : 0 < ioLoops) (found : Option (SourceId × List Turn)) :
    Climbs rank 1 (onRtpData ioLoops nextLoop .accept found) := by
  refine climbsAppend (onlyThere (Nat.le_refl 1)) (climbsFlat (fun stream => ?_) _)
  refine climbsGuarded (Nat.le_succ 1) (climbsFlat (fun turn => climbsFlat (fun sent => ?_) _) _)
  exact climbsMono (climbsAppend (postedClimbs some_ _ _) (postedClimbs some_ _ _)) (Nat.le_succ 3)

theorem scriptClimbs (some_ : 0 < ioLoops) {call : Call} (on : On ioLoops nextLoop here call) :
    Climbs rank 0 (script ioLoops nextLoop here call) := by
  have zero {low : Nat} {s : Script Mutex} (climbs : Climbs rank low s) : Climbs rank 0 s :=
    climbsMono climbs (Nat.zero_le low)
  have inMap {s : Script Mutex} (climbs : Climbs rank 3 s) : Climbs rank 0 (guarded .streams s) :=
    climbsGuarded (Nat.zero_le 1) (climbsMono climbs (Nat.le_succ 2))
  cases call with
  | runInLoop loop => exact zero (runClimbs loop)
  | processTasks => exact onlyThere (Nat.zero_le 4)
  | send c sent => exact zero (sendClimbs c sent)
  | handleWrite c failed =>
    exact climbsAppend (climbsGuarded (Nat.zero_le _) (climbsFlat (callbackClimbs c) _)) (onlyThere (Nat.zero_le _))
  | ended c closing => exact zero (callbackClimbs c closing)
  | shutdown c => exact zero (runClimbs _)
  | shutdownTask c => exact onlyThere (Nat.zero_le _)
  | connect i connecting => exact zero (connectClimbs i connecting)
  | addStream started => exact inMap (climbsFlat (fun s : SourceId × Connecting => connectClimbs s.1 s.2) _)
  | removeStream stopped => exact inMap (climbsFlat stopClimbs _)
  | destroy stopped => exact inMap (climbsFlat stopClimbs _)
  | onRtpData found =>
    cases (show here = .accept from on)
    exact zero (onRtpDataClimbs some_ found)
  | addSink found | removeSink found | getStreamInfo found => exact zero (inStreamClimbs found)
  | getStreamSdp | hasStream | streamCount => exact onlyThere (Nat.zero_le 1)
  | eachStream all =>
    exact climbsGuarded (Nat.zero_le 1) (climbsFlat (fun i => onlyThere (Nat.le_refl 2)) all)
end

/-! Without an IO loop a fan-out whose write fails waits for a mutex it holds. -/

def cutOff : Call := .onRtpData (some (0, [⟨0, some (.failed (.leaves (some 0)), .notConnected)⟩]))

theorem aloneStuck (nextLoop : SessionId → Nat) :
    ∃ c, Reachable (calls 0 nextLoop) c ∧ ¬ Returnable c := by
  let own : Mutex := .sinks 0
  let taken : Script Mutex := [.lock .streams, .unlock .streams, .lock own, .lock (.output (.player 0)),
    .unlock (.output (.player 0)), .lock .streams]
  let left : Script Mutex := [.lock own, .unlock own, .unlock .streams, .unlock own]
  have allowed : calls 0 nextLoop none (taken ++ left) := ⟨cutOff, rfl, rfl⟩
  refine ⟨solo none [.streams, own] left, aloneReached taken left allowed rfl, ?_⟩
  exact stuckStays (soloStuck (by simp)) (t := none) (by simp [solo, left])

/-! No call is ever lost to another, in any order of the threads, and no mutex is held
twice, exactly when there is an IO loop. -/
theorem neverStuckIff (ioLoops : Nat) (nextLoop : SessionId → Nat) :
    (∀ c, Reachable (calls ioLoops nextLoop) c → Returnable c ∧ Exclusive c) ↔ 0 < ioLoops := by
  constructor
  · intro fine
    rcases Nat.eq_zero_or_pos ioLoops with rfl | some_
    · obtain ⟨c, reached, lost⟩ := aloneStuck nextLoop
      exact absurd (fine c reached).1 lost
    · exact some_
  · intro some_ c reached
    have disciplined : ∀ t s, calls ioLoops nextLoop t s → Ascends rank [] s := by
      rintro t s ⟨call, on, rfl⟩
      exact climbsCall (scriptClimbs some_ on)
    have ordered := reachedOrdered disciplined reached
    exact ⟨orderedReturnable ordered, ordered.exclusive⟩

end RtspRelay.Mutexes
