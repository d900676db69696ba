import RtspRelay.ConnectionLoop
import RtspRelay.Session

/-! The call chain under RelayManager::onRtpData, with the mutexes its thread holds.
The sources run on the accept loop; what is sent to a session of another loop is
posted, and no call of the chain waits for it. Tasks the chain posts take no mutex. -/
namespace RtspRelay.FanOutLocks
open Machine Buffer Manager Session Connection Transition

inductive LoopId where
  | accept
  | io (i : Nat)
  deriving DecidableEq, Repr

def getNextLoop (ioLoops nextLoop : Nat) : LoopId :=
  if ioLoops = 0 then .accept else .io (nextLoop % ioLoops)

inductive Mutex where
  | streams
  | sinks (path : Bytes)
  deriving DecidableEq, Repr

inductive Fault where
  | relocked (m : Mutex)
  | vectorChanged
  deriving DecidableEq, Repr

-- `iterated`: the stream whose sinks vector a loop is going through.
structure Chain where
  manager : RelayManager
  sessions : SessionId → RtspSession
  conns : SessionId → TcpConnection
  loops : SessionId → LoopId
  held : List Mutex
  iterated : Option Bytes
  writes : List WriteResult
  posted : List (SessionId × Bytes)

namespace Chain

def lock (s : Chain) (m : Mutex) : Except Fault Chain :=
  if m ∈ s.held then .error (.relocked m) else .ok { s with held := m :: s.held }

def unlock (s : Chain) (m : Mutex) : Chain := { s with held := s.held.erase m }

def setSession (s : Chain) (self : SessionId) (session : RtspSession) : Chain :=
  { s with sessions := Function.update s.sessions self session }

def setConn (s : Chain) (self : SessionId) (c : TcpConnection) : Chain :=
  { s with conns := Function.update s.conns self c }

def nextWrite (s : Chain) : WriteResult := s.writes.headD .again

def removeSink (s : Chain) (path : Bytes) (self : SessionId) : Except Fault Chain := do
  let s ← s.lock .streams
  if s.manager.hasStream path then
    let s ← s.lock (.sinks path)
    if s.iterated = some path ∧ self ∈ s.manager.sinks path then .error .vectorChanged
    else
      let s := { s with manager := s.manager.removeSink path self }
      .ok ((s.unlock (.sinks path)).unlock .streams)
  else .ok (s.unlock .streams)

def teardown (s : Chain) (self : SessionId) : Chain :=
  s.setSession self { s.sessions self with state := .teardown }

def closeSockets (s : Chain) (self : SessionId) : Chain :=
  s.setSession self (closeUdpSockets (s.sessions self))

def close (s : Chain) (self : SessionId) : Except Fault Chain :=
  let old := s.sessions self
  if old.state = .teardown then .ok s
  else
    (if old.state = .playing ∧ old.streamPath ≠ [] then (s.teardown self).removeSink old.streamPath self
      else .ok (s.teardown self)).map (closeSockets · self)

-- A connected socket with nothing buffered makes the write() whose result is next.
def sendInLoop (s : Chain) (self : SessionId) (data : Bytes) : Except Fault Chain :=
  let c := s.conns self
  let out := c.sendInLoop data s.nextWrite
  let s := if c.state = .connected ∧ c.outputBuf.readable = 0 then { s with writes := s.writes.tail } else s
  match out.2 with
  | .failed => (s.setConn self out.1).close self
  | _ => .ok (s.setConn self out.1)

def send (s : Chain) (self : SessionId) (data : Bytes) : Except Fault Chain :=
  if (s.conns self).state ≠ .connected then .ok s
  else if s.loops self = .accept then s.sendInLoop self data
  else .ok { s with posted := s.posted ++ [(self, data)] }

-- RtspSession::onRtpData; a datagram calls nothing of the relay.
def sinkOnRtpData (data : Bytes) (s : Chain) (self : SessionId) : Except Fault Chain :=
  match Session.onRtpData { s.sessions self with connected := (s.conns self).connected } data with
  | some (.interleaved header payload) => do
    let s ← s.send self header
    s.send self payload
  | _ => .ok s

def onRtpData (s : Chain) (path data : Bytes) : Except Fault Chain := do
  let s ← s.lock .streams
  if s.manager.hasStream path then
    let s ← (s.unlock .streams).lock (.sinks path)
    let s ← (s.manager.onRtpData path).foldlM (sinkOnRtpData data) { s with iterated := some path }
    .ok ({ s with iterated := none }.unlock (.sinks path))
  else .ok (s.unlock .streams)

end Chain

structure Sessions where
  sessions : SessionId → RtspSession
  conns : SessionId → TcpConnection
  nextLoop : SessionId → Nat

-- A packet's call, made by the accept loop's thread with no mutex held.
def start (ioLoops : Nat) (manager : RelayManager) (all : Sessions) (writes : List WriteResult) : Chain :=
  ⟨manager, all.sessions, all.conns, fun self => getNextLoop ioLoops (all.nextLoop self), [], none, writes, []⟩

def NotReentered (s : Chain) (path data : Bytes) : Prop :=
  ∃ after, s.onRtpData path data = .ok after ∧ after.manager.sinks path = s.manager.sinks path

-- The first write() of the turn fails, or it takes the whole header and the second fails.
def WriteFails (s : Chain) (self : SessionId) : Prop :=
  (s.conns self).state = .connected ∧ (s.conns self).outputBuf.content = [] ∧
    match s.writes with
    | .error :: _ => True
    | .wrote n _ :: .error :: _ => 4 ≤ n
    | _ => False

-- No write on the source's own thread fails for a playing TCP session of the stream.
def HarmlessTurn (path : Bytes) (s : Chain) (self : SessionId) : Prop :=
  s.loops self = .accept → (s.sessions self).state = .playing →
    (s.sessions self).transport = .tcpInterleaved → (s.sessions self).streamPath = path → path ≠ [] →
    ¬ WriteFails s self

-- The vector is about to be gone through.
def fanning (s : Chain) (path : Bytes) : Chain := { s with held := [.sinks path], iterated := some path }

/-! Outside a fan-out a session closes as its own model says. -/

theorem removeFree {s : Chain} (free : s.held = []) (idle : s.iterated = none) (path : Bytes) (self : SessionId) :
    ∃ after, s.removeSink path self = .ok after ∧ after.manager = s.manager.removeSink path self ∧
      after.sessions = s.sessions := by
  rw [Chain.removeSink, Chain.lock, free, if_neg List.not_mem_nil]
  simp only [bind, Except.bind]
  split
  · have apart : ¬ (s.iterated = some path ∧ self ∈ s.manager.sinks path) := by simp [idle]
    have sinksFree : Mutex.sinks path ∉ [Mutex.streams] := by simp
    simp only [Chain.lock, if_neg sinksFree, if_neg apart]
    exact ⟨_, rfl, rfl, rfl⟩
  · rename_i absent
    refine ⟨_, rfl, ?_, rfl⟩
    have none := Option.not_isSome_iff_eq_none.mp absent
    simp [Chain.unlock, RelayManager.removeSink, none]

theorem closeSame {s : Chain} (free : s.held = []) (idle : s.iterated = none) (self : SessionId) :
    ∃ after, s.close self = .ok after ∧
      (after.manager, after.sessions self) = Session.close s.manager self (s.sessions self) := by
  unfold Chain.close Session.close
  dsimp only
  split
  · exact ⟨s, rfl, rfl⟩
  · split
    · obtain ⟨left, removed, manager, same⟩ :=
        removeFree (s := s.teardown self) free idle (s.sessions self).streamPath self
      rw [removed]
      refine ⟨_, rfl, ?_⟩
      simp [Chain.closeSockets, Chain.setSession, manager, same, Chain.teardown]
    · refine ⟨_, rfl, ?_⟩
      simp [Chain.closeSockets, Chain.setSession, Chain.teardown]

/-! During the loop the stream's mutex is held and its vector stays. -/
structure Fanning (path : Bytes) (vector : List SessionId) (s : Chain) : Prop where
  held : s.held = [.sinks path]
  iterated : s.iterated = some path
  registered : s.manager.hasStream path = true
  vector : s.manager.sinks path = vector

section
variable {path : Bytes} {vector : List SessionId} {s : Chain} {self : SessionId}

/-! Leaving another stream changes nothing of this one; leaving it takes its mutex again. -/

theorem removeOther (h : Fanning path vector s) {other : Bytes} (differ : other ≠ path) (self : SessionId) :
    ∃ after, s.removeSink other self = .ok after ∧ Fanning path vector after ∧
      after.sessions = s.sessions := by
  have free : Mutex.streams ∉ s.held := by rw [h.held]; simp
  have locked : s.lock .streams = .ok { s with held := [.streams, .sinks path] } := by
    rw [Chain.lock, if_neg free, h.held]
  rw [Chain.removeSink, locked]
  simp only [bind, Except.bind]
  split
  · have freeSinks : Mutex.sinks other ∉ [Mutex.streams, .sinks path] := by simp [differ]
    have apart : ¬ (s.iterated = some other ∧ self ∈ s.manager.sinks other) := fun both => by
      rw [h.iterated] at both
      exact differ (Option.some.inj both.1).symm
    have vector : (s.manager.removeSink other self).sinks path = vector := by
      rw [RelayManager.removeSinkSinks, if_neg (Ne.symm differ)]
      exact h.vector
    have registered : (s.manager.removeSink other self).hasStream path = true :=
      (RelayManager.removeSinkHas _ _ _ _).trans h.registered
    simp only [Chain.lock, if_neg freeSinks, if_neg apart]
    exact ⟨_, rfl, ⟨by simp [Chain.unlock], h.iterated, registered, vector⟩, rfl⟩
  · exact ⟨_, rfl, ⟨by simp [Chain.unlock], h.iterated, h.registered, h.vector⟩, rfl⟩

theorem removeOwn (h : Fanning path vector s) (self : SessionId) :
    s.removeSink path self = .error (.relocked (.sinks path)) := by
  have free : Mutex.streams ∉ s.held := by rw [h.held]; simp
  have taken : Mutex.sinks path ∈ [Mutex.streams, .sinks path] := by simp
  have locked : s.lock .streams = .ok { s with held := [.streams, .sinks path] } := by
    rw [Chain.lock, if_neg free, h.held]
  rw [Chain.removeSink, locked]
  simp only [bind, Except.bind, h.registered, if_true, Chain.lock, if_pos taken]

/-! Closing a session relocks exactly when it plays the stream. -/

def Plays (path : Bytes) (session : RtspSession) : Prop :=
  session.state = .playing ∧ session.streamPath = path ∧ path ≠ []

theorem closeOther (h : Fanning path vector s) (apart : ¬ Plays path (s.sessions self)) :
    ∃ after, s.close self = .ok after ∧ Fanning path vector after ∧ ¬ Plays path (after.sessions self) := by
  have ended : Fanning path vector (s.teardown self) := ⟨h.held, h.iterated, h.registered, h.vector⟩
  have state : ((s.teardown self).sessions self).state = .teardown := by
    simp [Chain.teardown, Chain.setSession]
  have gone : ∀ left : Chain, left.sessions = (s.teardown self).sessions →
      ¬ Plays path ((left.closeSockets self).sessions self) := fun left same plays => by
    have playing := plays.1
    simp [Chain.closeSockets, Chain.setSession, closeUdpSockets, same, state] at playing
  unfold Chain.close
  dsimp only
  split
  · exact ⟨s, rfl, h, apart⟩
  · split
    · rename_i leaves
      have differ : (s.sessions self).streamPath ≠ path := fun same =>
        apart ⟨leaves.1, same, same ▸ leaves.2⟩
      obtain ⟨left, removed, still, same⟩ := removeOther ended differ self
      rw [removed]
      exact ⟨_, rfl, ⟨still.held, still.iterated, still.registered, still.vector⟩, gone left same⟩
    · exact ⟨_, rfl, ⟨ended.held, ended.iterated, ended.registered, ended.vector⟩, gone _ rfl⟩

theorem closeOwn (h : Fanning path vector s) (plays : Plays path (s.sessions self)) :
    s.close self = .error (.relocked (.sinks path)) := by
  obtain ⟨playing, same, some⟩ := plays
  have running : (s.sessions self).state ≠ .teardown := by rw [playing]; nofun
  have ended : Fanning path vector (s.teardown self) := ⟨h.held, h.iterated, h.registered, h.vector⟩
  rw [Chain.close, if_neg running, if_pos ⟨playing, same ▸ some⟩, same, removeOwn ended self]
  rfl

/-! A send fails in place, or it leaves the sessions and the locks alone. -/

def SendFails (s : Chain) (self : SessionId) : Prop :=
  (s.conns self).state = .connected ∧ s.loops self = .accept ∧ (s.conns self).outputBuf.content = [] ∧
    s.nextWrite = .error

structure Undisturbed (s after : Chain) : Prop where
  manager : after.manager = s.manager
  sessions : after.sessions = s.sessions
  held : after.held = s.held
  iterated : after.iterated = s.iterated

theorem undisturbedFanning {after : Chain} (h : Fanning path vector s) (same : Undisturbed s after) :
    Fanning path vector after :=
  ⟨same.held.trans h.held, same.iterated.trans h.iterated, by rw [same.manager]; exact h.registered,
    by rw [same.manager]; exact h.vector⟩

theorem sendFailed (data : Bytes) (fails : SendFails s self) :
    ∃ failed, Undisturbed s failed ∧ s.send self data = failed.close self := by
  obtain ⟨connected, own, empty, next⟩ := fails
  have nothing := TcpConnection.readableEmpty.mpr empty
  have out := TcpConnection.sendError connected empty data
  refine ⟨{ s with writes := s.writes.tail }.setConn self (s.conns self).handleError,
    ⟨rfl, rfl, rfl, rfl⟩, ?_⟩
  rw [Chain.send, if_neg (not_not.mpr connected), if_pos own, Chain.sendInLoop]
  simp only [next, out, if_pos (And.intro connected nothing)]

-- What a send of the session's own thread leaves.
def buffered (s : Chain) (self : SessionId) (data : Bytes) : Chain :=
  let c := s.conns self
  (if c.state = .connected ∧ c.outputBuf.readable = 0 then { s with writes := s.writes.tail } else s).setConn
    self (c.sendInLoop data s.nextWrite).1

theorem bufferedUndisturbed (s : Chain) (self : SessionId) (data : Bytes) :
    Undisturbed s (buffered s self data) := by
  unfold buffered
  dsimp only
  split <;> exact ⟨rfl, rfl, rfl, rfl⟩

theorem sendBuffers (data : Bytes) (connected : (s.conns self).state = .connected)
    (own : s.loops self = .accept) (works : ¬ SendFails s self) :
    s.send self data = .ok (buffered s self data) := by
  have effect : ((s.conns self).sendInLoop data s.nextWrite).2 ≠ .failed := by
    have step := (s.conns self).sendSteps data s.nextWrite
    generalize next : s.nextWrite = w at step ⊢
    generalize (s.conns self).sendInLoop data w = out at step ⊢
    cases step with
    | dropped apart => exact absurd connected apart
    | behind | wrote | again => exact TcpConnection.bufferedEffect _ _
    | failed _ empty => exact absurd ⟨connected, own, empty, next⟩ works
  rw [Chain.send, if_neg (not_not.mpr connected), if_pos own, Chain.sendInLoop]
  split
  · rename_i failed
    exact absurd failed effect
  · rfl

theorem sendWorks (data : Bytes) (works : ¬ SendFails s self) :
    ∃ after, s.send self data = .ok after ∧ Undisturbed s after := by
  by_cases connected : (s.conns self).state = .connected
  · by_cases own : s.loops self = .accept
    · exact ⟨_, sendBuffers data connected own works, bufferedUndisturbed s self data⟩
    · rw [Chain.send, if_neg (not_not.mpr connected), if_neg own]
      exact ⟨_, rfl, rfl, rfl, rfl, rfl⟩
  · rw [Chain.send, if_pos connected]
    exact ⟨s, rfl, rfl, rfl, rfl, rfl⟩

theorem sendOther (h : Fanning path vector s) (apart : ¬ Plays path (s.sessions self)) (data : Bytes) :
    ∃ after, s.send self data = .ok after ∧ Fanning path vector after ∧ ¬ Plays path (after.sessions self) := by
  by_cases fails : SendFails s self
  · obtain ⟨failed, same, closes⟩ := sendFailed data fails
    rw [closes]
    exact closeOther (undisturbedFanning h same) (by rw [same.sessions]; exact apart)
  · obtain ⟨after, sent, same⟩ := sendWorks data fails
    exact ⟨after, sent, undisturbedFanning h same, by rw [same.sessions]; exact apart⟩

theorem sendOwn (h : Fanning path vector s) (plays : Plays path (s.sessions self)) (data : Bytes)
    (fails : SendFails s self) : s.send self data = .error (.relocked (.sinks path)) := by
  obtain ⟨failed, same, closes⟩ := sendFailed data fails
  rw [closes]
  exact closeOwn (undisturbedFanning h same) (by rw [same.sessions]; exact plays)

/-! The two sends of a turn: the second can only fail when the first has taken the
whole header. -/

theorem bufferedContent (c : TcpConnection) (rest : Bytes) :
    (c.buffered rest).1.outputBuf.content = c.outputBuf.content ++ rest := by
  unfold TcpConnection.buffered
  split
  · rename_i none
    rw [none, List.append_nil]
  · exact ByteBuffer.appendContent _ rest

theorem sendEmpties {c : TcpConnection} {data : Bytes} {w : WriteResult} (connected : c.state = .connected)
    (some : data ≠ []) (works : c.outputBuf.content = [] → w ≠ .error) :
    (c.sendInLoop data w).1.outputBuf.content = [] ↔
      c.outputBuf.content = [] ∧ ∃ n positive, w = .wrote n positive ∧ data.length ≤ n := by
  have step := c.sendSteps data w
  generalize c.sendInLoop data w = out at step ⊢
  cases step with
  | dropped apart => exact absurd connected apart
  | behind _ waiting =>
    rw [bufferedContent]
    simp [waiting]
  | @wrote _ positive _ empty => simp [bufferedContent, empty, positive]
  | again _ empty => simp [bufferedContent, empty, some]
  | failed _ empty => exact absurd rfl (works empty)

theorem secondFails {header : Bytes} (size : header.length = 4) (own : s.loops self = .accept)
    (connected : (s.conns self).state = .connected) (works : ¬ SendFails s self) :
    SendFails (buffered s self header) self ↔ (s.conns self).outputBuf.content = [] ∧
      (∃ n positive, s.nextWrite = .wrote n positive ∧ 4 ≤ n) ∧ s.writes.tail.headD .again = .error := by
  have some : header ≠ [] := List.length_pos_iff.mp (by omega)
  have conn : (buffered s self header).conns self = ((s.conns self).sendInLoop header s.nextWrite).1 :=
    Function.update_self _ _ _
  have loops : (buffered s self header).loops self = .accept := by
    unfold buffered
    dsimp only
    split <;> exact own
  have takes : (s.conns self).outputBuf.content = [] → s.nextWrite ≠ .error := fun empty next =>
    works ⟨connected, own, empty, next⟩
  have empties := sendEmpties connected some takes
  rw [size] at empties
  rw [SendFails, loops, conn, empties]
  constructor
  · rintro ⟨-, -, ⟨empty, wrote⟩, next⟩
    have used : (buffered s self header).writes = s.writes.tail :=
      congrArg Chain.writes (if_pos ⟨connected, TcpConnection.readableEmpty.mpr empty⟩)
    rw [Chain.nextWrite, used] at next
    exact ⟨empty, wrote, next⟩
  · rintro ⟨empty, wrote, next⟩
    have used : (buffered s self header).writes = s.writes.tail :=
      congrArg Chain.writes (if_pos ⟨connected, TcpConnection.readableEmpty.mpr empty⟩)
    have still := (TcpConnection.sendAccepted connected header (takes empty)).2
    have later : (buffered s self header).nextWrite = .error := by rw [Chain.nextWrite, used]; exact next
    exact ⟨still, rfl, ⟨empty, wrote⟩, later⟩

theorem writeFailsEither {header : Bytes} (size : header.length = 4) (own : s.loops self = .accept)
    (connected : (s.conns self).state = .connected) : WriteFails s self ↔
      SendFails s self ∨ (¬ SendFails s self ∧ SendFails (buffered s self header) self) := by
  have first : SendFails s self ↔ (s.conns self).outputBuf.content = [] ∧ s.nextWrite = .error :=
    ⟨fun fails => ⟨fails.2.2.1, fails.2.2.2⟩, fun both => ⟨connected, own, both.1, both.2⟩⟩
  by_cases fails : SendFails s self
  · obtain ⟨empty, next⟩ := first.mp fails
    refine iff_of_true ⟨connected, empty, ?_⟩ (.inl fails)
    rcases writes : s.writes with _ | ⟨w, rest⟩
    · simp [Chain.nextWrite, writes] at next
    · obtain rfl : w = .error := by simpa [Chain.nextWrite, writes] using next
      trivial
  · simp only [fails, not_false_eq_true, false_or, true_and, secondFails size own connected fails]
    by_cases empty : (s.conns self).outputBuf.content = []
    · have next : s.nextWrite ≠ .error := fun next => fails (first.mpr ⟨empty, next⟩)
      simp only [WriteFails, connected, empty, true_and]
      rcases writes : s.writes with _ | ⟨w, rest⟩
      · simp [Chain.nextWrite, writes]
      · rw [Chain.nextWrite, writes, List.headD_cons] at next
        cases w with
        | error => exact absurd rfl next
        | again => simp [Chain.nextWrite, writes]
        | wrote n positive =>
          rcases rest with _ | ⟨w, rest⟩
          · simp [Chain.nextWrite, writes]
          · cases w <;> simp [Chain.nextWrite, writes, positive]
    · exact iff_of_false (fun fails => empty fails.2.1) fun both => empty both.1

/-! One turn: it relocks exactly when a write of its own thread fails for a session that
plays the stream. -/

theorem interleavedTurn (data : Bytes) (s : Chain) (self : SessionId) :
    (s.sinkOnRtpData data self = .ok s ∧ ((s.sessions self).state = .playing →
        (s.sessions self).transport = .tcpInterleaved → (s.conns self).state ≠ .connected)) ∨
      ((s.sessions self).state = .playing ∧ (s.sessions self).transport = .tcpInterleaved ∧
        (s.conns self).state = .connected ∧ ∃ header : Bytes, header.length = 4 ∧
          s.sinkOnRtpData data self = (s.send self header).bind fun s => s.send self data) := by
  unfold Chain.sinkOnRtpData Session.onRtpData
  dsimp only
  by_cases playing : (s.sessions self).state = .playing
  · rw [if_neg (not_not.mpr playing)]
    cases transport : (s.sessions self).transport with
    | udp =>
      refine .inl ⟨?_, nofun⟩
      cases (s.sessions self).udpRtpFd <;> rfl
    | tcpInterleaved =>
      by_cases connected : (s.conns self).state = .connected
      · have up : (s.conns self).connected = true := decide_eq_true connected
        refine .inr ⟨playing, rfl, connected, interleavedHeader (s.sessions self).rtpChannel data.length, rfl, ?_⟩
        simp only [up, if_true]
        rfl
      · have down : (s.conns self).connected = false := decide_eq_false connected
        refine .inl ⟨?_, fun _ _ => connected⟩
        simp [down]
  · rw [if_pos playing]
    exact .inl ⟨rfl, fun same => absurd same playing⟩

-- One of the two sends fails in place.
def TurnFails (s : Chain) (self : SessionId) (header : Bytes) : Prop :=
  SendFails s self ∨ (¬ SendFails s self ∧ ∀ mid, s.send self header = .ok mid → SendFails mid self)

theorem turnFails {header : Bytes} (size : header.length = 4) (connected : (s.conns self).state = .connected) :
    TurnFails s self header ↔ s.loops self = .accept ∧ WriteFails s self := by
  by_cases own : s.loops self = .accept
  · rw [writeFailsEither size own connected, TurnFails, and_iff_right own]
    refine or_congr_right (and_congr_right fun works => ?_)
    rw [sendBuffers header connected own works]
    exact ⟨fun fails => fails _ rfl, fun fails mid same => by cases same; exact fails⟩
  · have posts : s.send self header = .ok { s with posted := s.posted ++ [(self, header)] } := by
      rw [Chain.send, if_neg (not_not.mpr connected), if_neg own]
    refine iff_of_false ?_ fun both => own both.1
    rintro (fails | ⟨-, fails⟩)
    · exact own fails.2.1
    · exact own (fails _ posts).2.1

theorem turnWorks {header : Bytes} (data : Bytes) (h : Fanning path vector s)
    (harmless : Plays path (s.sessions self) → ¬ TurnFails s self header) :
    ∃ after, (s.send self header).bind (fun s => s.send self data) = .ok after ∧ Fanning path vector after := by
  by_cases plays : Plays path (s.sessions self)
  · have works : ¬ SendFails s self := fun fails => harmless plays (.inl fails)
    obtain ⟨mid, sent, same⟩ := sendWorks header works
    have still : ¬ SendFails mid self := fun fails => harmless plays (.inr ⟨works, fun other also => by
      cases sent.symm.trans also
      exact fails⟩)
    obtain ⟨after, done, last⟩ := sendWorks data still
    rw [sent]
    exact ⟨after, done, undisturbedFanning (undisturbedFanning h same) last⟩
  · obtain ⟨mid, sent, keeps, apart⟩ := sendOther h plays header
    obtain ⟨after, done, last, -⟩ := sendOther keeps apart data
    rw [sent]
    exact ⟨after, done, last⟩

theorem turnRelocks {header : Bytes} (data : Bytes) (h : Fanning path vector s)
    (plays : Plays path (s.sessions self)) (fails : TurnFails s self header) :
    (s.send self header).bind (fun s => s.send self data) = .error (.relocked (.sinks path)) := by
  rcases fails with first | ⟨works, second⟩
  · rw [sendOwn h plays header first]
    rfl
  · obtain ⟨mid, sent, same⟩ := sendWorks header works
    rw [sent]
    exact sendOwn (undisturbedFanning h same) (by rw [same.sessions]; exact plays) data (second mid sent)

theorem turnExact (data : Bytes) (h : Fanning path vector s) :
    ((∃ after, s.sinkOnRtpData data self = .ok after) ↔ HarmlessTurn path s self) ∧
      ∀ after, s.sinkOnRtpData data self = .ok after → Fanning path vector after := by
  rcases interleavedTurn data s self with ⟨silent, off⟩ | ⟨playing, transport, connected, header, size, sends⟩
  · refine ⟨iff_of_true ⟨s, silent⟩ fun _ playing tcp _ _ fails => off playing tcp fails.1, fun after same => ?_⟩
    cases silent.symm.trans same
    exact h
  · rw [sends]
    have condition : HarmlessTurn path s self ↔ (Plays path (s.sessions self) → ¬ TurnFails s self header) := by
      rw [turnFails size connected]
      exact ⟨fun harmless plays fails => harmless fails.1 playing transport plays.2.1 plays.2.2 fails.2,
        fun harmless own _ _ same some fails => harmless ⟨playing, same, some⟩ ⟨own, fails⟩⟩
    rw [condition]
    by_cases harmless : Plays path (s.sessions self) → ¬ TurnFails s self header
    · obtain ⟨after, done, keeps⟩ := turnWorks data h harmless
      refine ⟨iff_of_true ⟨after, done⟩ harmless, fun other also => ?_⟩
      cases done.symm.trans also
      exact keeps
    · obtain ⟨plays, fails⟩ := Classical.not_imp.mp harmless
      rw [turnRelocks data h plays (not_not.mp fails)]
      exact ⟨iff_of_false nofun harmless, nofun⟩

end

/-! The whole call: the loop over the vector is entered with its mutex, and left as it was. -/

theorem onRtpDataRegistered {s : Chain} (free : s.held = []) {path : Bytes} (data : Bytes)
    (registered : s.manager.hasStream path = true) : s.onRtpData path data =
      ((s.manager.sinks path).foldlM (Chain.sinkOnRtpData data) (fanning s path)).map fun s =>
        { s with iterated := none }.unlock (.sinks path) := by
  have locked : s.lock .streams = .ok { s with held := [.streams] } := by
    rw [Chain.lock, free, if_neg List.not_mem_nil]
  rw [Chain.onRtpData, locked]
  simp only [bind, Except.bind, registered, if_true, Chain.unlock, List.erase_cons_head, Chain.lock,
    List.not_mem_nil, if_false]
  show Except.bind ((s.manager.sinks path).foldlM (Chain.sinkOnRtpData data) (fanning s path)) _ = _
  cases (s.manager.sinks path).foldlM (Chain.sinkOnRtpData data) (fanning s path) <;> rfl

theorem turnsHarmless {s : Chain} {path data : Bytes} {vector : List SessionId} (h : Fanning path vector s) :
    (∃ after, vector.foldlM (Chain.sinkOnRtpData data) s = .ok after) ↔
      Throughout (orStay (Chain.sinkOnRtpData data)) (HarmlessTurn path) s vector := by
  rw [foldlMOk]
  refine throughoutAlong (I := Fanning path vector) (fun s self keeps works => ?_)
    (fun s self keeps => (turnExact data keeps).1) h vector
  obtain ⟨after, done⟩ := works
  rw [orStay, done]
  exact (turnExact data keeps).2 after done

section
variable {ioLoops : Nat} {manager : RelayManager} {all : Sessions} {writes : List WriteResult} {path : Bytes}

theorem unregisteredQuiet (unregistered : manager.hasStream path = false) (data : Bytes) :
    NotReentered (start ioLoops manager all writes) path data := by
  refine ⟨start ioLoops manager all writes, ?_, rfl⟩
  simp [Chain.onRtpData, Chain.lock, Chain.unlock, start, bind, Except.bind, unregistered]

theorem registeredExact (registered : manager.hasStream path = true) (data : Bytes) :
    NotReentered (start ioLoops manager all writes) path data ↔
      Throughout (orStay (Chain.sinkOnRtpData data)) (HarmlessTurn path)
        (fanning (start ioLoops manager all writes) path) (manager.sinks path) := by
  have begins : Fanning path (manager.sinks path) (fanning (start ioLoops manager all writes) path) :=
    ⟨rfl, rfl, registered, rfl⟩
  rw [← turnsHarmless begins, NotReentered, onRtpDataRegistered rfl data registered]
  constructor
  · rintro ⟨after, done, -⟩
    cases fanned : (manager.sinks path).foldlM (Chain.sinkOnRtpData data)
        (fanning (start ioLoops manager all writes) path) with
    | ok last => exact ⟨last, rfl⟩
    | error fault =>
      rw [show (start ioLoops manager all writes).manager = manager from rfl, fanned] at done
      contradiction
  · rintro ⟨last, fanned⟩
    have keeps := foldlMKeeps (fun s self after h => (turnExact data h).2 after) begins fanned
    refine ⟨{ last with iterated := none }.unlock (.sinks path), ?_, keeps.vector⟩
    rw [show (start ioLoops manager all writes).manager = manager from rfl, fanned]
    rfl
end

theorem notReenteredExact (ioLoops : Nat) (manager : RelayManager) (all : Sessions)
    (writes : List WriteResult) (path data : Bytes) :
    NotReentered (start ioLoops manager all writes) path data ↔
      Throughout (orStay (Chain.sinkOnRtpData data)) (HarmlessTurn path)
        (fanning (start ioLoops manager all writes) path) (manager.sinks path) := by
  cases registered : manager.hasStream path with
  | false =>
    rw [RelayManager.sinksUnregistered registered]
    exact iff_of_true (unregisteredQuiet registered data) trivial
  | true => exact registeredExact registered data

/-! With IO loops no session shares the thread of the sources. -/

theorem sendPosts {s : Chain} {self : SessionId} (other : s.loops self ≠ .accept) (data : Bytes) :
    ∃ after, s.send self data = .ok after ∧ after.loops = s.loops := by
  by_cases connected : (s.conns self).state = .connected
  · rw [Chain.send, if_neg (not_not.mpr connected), if_neg other]
    exact ⟨_, rfl, rfl⟩
  · rw [Chain.send, if_pos connected]
    exact ⟨s, rfl, rfl⟩

theorem turnPosts {s : Chain} {self : SessionId} (other : s.loops self ≠ .accept) (data : Bytes) :
    (orStay (Chain.sinkOnRtpData data) s self).loops = s.loops := by
  rcases interleavedTurn data s self with ⟨silent, -⟩ | ⟨-, -, -, header, -, sends⟩
  · rw [orStay, silent]
  · obtain ⟨mid, first, same⟩ := sendPosts other header
    obtain ⟨after, second, last⟩ := sendPosts (s := mid) (by rw [same]; exact other) data
    have turn : s.sinkOnRtpData data self = .ok after := sends.trans (by rw [first]; exact second)
    rw [orStay, turn]
    exact last.trans same

theorem ioLoopsApart {ioLoops : Nat} (some : 0 < ioLoops) (manager : RelayManager) (all : Sessions)
    (writes : List WriteResult) (path data : Bytes) :
    NotReentered (start ioLoops manager all writes) path data := by
  cases registered : manager.hasStream path with
  | false => exact unregisteredQuiet registered data
  | true =>
    rw [registeredExact registered]
    have apart : ∀ self, (fanning (start ioLoops manager all writes) path).loops self ≠ .accept := fun self => by
      simp [fanning, start, getNextLoop, Nat.ne_of_gt some]
    generalize fanning (start ioLoops manager all writes) path = s at apart
    induction manager.sinks path generalizing s with
    | nil => trivial
    | cons self rest ih =>
      refine ⟨fun own => absurd own (apart self), ih _ fun other => ?_⟩
      rw [turnPosts (apart self) data]
      exact apart other

/-! One session on the accept loop plays the stream over TCP, and its socket fails. -/

def playing : RtspSession :=
  { Session.create (ascii "10.0.0.7:5000") (ascii "00000001") with state := .playing, streamPath := ascii "/cam" }

def oneSink : RelayManager := ⟨(∅ : AList _).insert (ascii "/cam") ⟨0, [], [1]⟩, 500⟩

theorem failedWriteRelocks :
    ¬ ∀ (ioLoops : Nat) (manager : RelayManager) (all : Sessions) (writes : List WriteResult) (path data : Bytes),
      NotReentered (start ioLoops manager all writes) path data := by
  intro always
  have registered : oneSink.hasStream (ascii "/cam") = true := rfl
  have quiet := always 0 oneSink ⟨fun _ => playing, fun _ => .create 7, fun _ => 0⟩ [.error] (ascii "/cam") []
  have harmless := ((registeredExact registered []).mp quiet).1
  exact harmless rfl rfl rfl rfl (by decide) ⟨rfl, rfl, trivial⟩

end RtspRelay.FanOutLocks
