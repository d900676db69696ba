import RtspRelay.General.Delivery
import RtspRelay.ConnectionLoop

/-! The bytes of a connection whose `send` is called from its own loop and from other
threads at once. A send on the loop's thread writes at once what another thread's
send posts as a task; what no write has taken waits in the output buffer. -/
namespace RtspRelay.SendOrder
open Machine Connection ConnectionLoop Transition Delivery

inductive Thread (τ : Type) where
  | loop
  | other (t : τ)
  deriving DecidableEq, Repr

structure Payload (τ : Type) where
  thread : Thread τ
  data : Bytes
  deriving DecidableEq, Repr

-- `calls`: the sends that found the socket connected, oldest first.
structure Sending (τ : Type) where
  loop : Loop (Payload τ)
  calls : List (Payload τ)

inductive Input (τ : Type) where
  | send (t : Thread τ) (data : Bytes) (w : WriteResult)
  | shutdown
  | processTasks
  | runTask (w : WriteResult)
  | event (input output : Bool) (read : ReadResult) (writes : List WriteResult)
  | writable (writes : List WriteResult)

section
variable {τ : Type}

def start (fd : Int) : Sending τ := ⟨ConnectionLoop.start fd, []⟩

def dispatched (p : Payload τ) (w : WriteResult) : ConnectionLoop.Input (Payload τ) :=
  match p.thread with
  | .loop => .send p w
  | .other _ => .post p

def loopStep (s : Sending τ) (input : ConnectionLoop.Input (Payload τ)) : Sending τ :=
  { s with loop := ConnectionLoop.step Payload.data s.loop input }

/-! A writable event runs `handleWrite` here whether or not the table has a callback
for it. -/
def step (s : Sending τ) : Input τ → Sending τ
  | .send t data w =>
    let p : Payload τ := ⟨t, data⟩
    let after := loopStep s (dispatched p w)
    if s.loop.conn.state = .connected then { after with calls := s.calls ++ [p] } else after
  | .shutdown => loopStep s .shutdown
  | .processTasks => loopStep s .processTasks
  | .runTask w => loopStep s (.runTask w)
  | .event input output read writes => loopStep s (.event input output read writes)
  | .writable writes => if s.loop.batch = [] then { s with loop := handleWrite s.loop writes } else s

-- The payloads of the posted tasks that have not run.
def waiting (loop : Loop (Payload τ)) : List (Payload τ) :=
  (loop.batch ++ loop.pendingTasks).filterMap fun
    | .sendInLoop p => some p
    | _ => none

def Intact [DecidableEq τ] (s : Sending τ) : Prop :=
  ∃ carried, s.loop.conn.accepted = carried.flatMap Payload.data ∧
    Delivers Payload.thread s.calls carried (waiting s.loop)
end

/-! The steps that carry no payload leave bytes and tasks as they are, or the socket
is no longer connected. -/

section
variable {δ : Type}

structure Same (s after : Loop δ) : Prop where
  connected : s.conn.state = .connected
  accepted : after.conn.accepted = s.conn.accepted
  queued : after.queued = s.queued
  batch : after.batch = s.batch
  pendingTasks : after.pendingTasks = s.pendingTasks

def Quiet (s after : Loop δ) : Prop := after.conn.state = .connected → Same s after

theorem quietRefl (s : Loop δ) : Quiet s s := fun connected => ⟨connected, rfl, rfl, rfl, rfl⟩

theorem quietTrans {s mid after : Loop δ} (first : Quiet s mid) (last : Quiet mid after) :
    Quiet s after := by
  intro connected
  have second := last connected
  have begun := first second.connected
  exact ⟨begun.connected, second.accepted.trans begun.accepted, second.queued.trans begun.queued,
    second.batch.trans begun.batch, second.pendingTasks.trans begun.pendingTasks⟩

theorem quietClosed (s : Loop δ) {c : TcpConnection} (gone : c.state = .disconnected) :
    Quiet s (closed s c) := by
  intro connected
  have state : c.state = .connected := connected
  rw [gone] at state
  contradiction

theorem quietRead (s : Loop δ) (read : ReadResult) : Quiet s (handleRead s read) := by
  cases read with
  | data chunk => exact fun connected => ⟨connected, rfl, rfl, rfl, rfl⟩
  | eof => exact quietClosed s rfl
  | again => exact quietRefl s
  | error => exact quietClosed s rfl

theorem writeLoopEnds (writes : List WriteResult) (c : TcpConnection) :
    (TcpConnection.writeLoop writes c).2 = .none ∧
        (TcpConnection.writeLoop writes c).1.state = c.state ∨
      (TcpConnection.writeLoop writes c).2 = .failed ∧
        (TcpConnection.writeLoop writes c).1.state = .disconnected := by
  induction writes generalizing c with
  | nil => exact .inl ⟨rfl, rfl⟩
  | cons w rest ih =>
    unfold TcpConnection.writeLoop
    split
    · cases w with
      | wrote n positive => exact ih _
      | again => exact .inl ⟨rfl, rfl⟩
      | error => exact .inr ⟨rfl, rfl⟩
    · exact .inl ⟨rfl, rfl⟩

theorem quietSettled (s : Loop δ) (writes : List WriteResult) :
    Quiet s (settle s (TcpConnection.writeLoop writes s.conn)) := by
  have accepted := TcpConnection.writeLoopAccepted writes s.conn
  have ends := writeLoopEnds writes s.conn
  rcases out : TcpConnection.writeLoop writes s.conn with ⟨c, effect⟩
  rw [out] at accepted ends
  rcases ends with ⟨rfl, state⟩ | ⟨rfl, gone⟩
  · exact fun connected => ⟨state.symm.trans connected, accepted, rfl, rfl, rfl⟩
  · exact quietClosed s gone

theorem quietDisable (s : Loop δ) : Quiet s (disableWriting s) := by
  unfold disableWriting
  split
  · exact quietRefl s
  · exact fun connected => ⟨connected, rfl, rfl, rfl, rfl⟩

theorem quietFinish (s : Loop δ) : Quiet s { s with conn := s.conn.finish } := by
  intro connected
  have same := TcpConnection.finishKeeps s.conn
  exact ⟨same.1.symm.trans connected, same.2, rfl, rfl, rfl⟩

theorem quietWrite (s : Loop δ) (writes : List WriteResult) : Quiet s (handleWrite s writes) := by
  unfold handleWrite
  dsimp only
  split
  · split
    · exact quietTrans (quietSettled s writes) (quietTrans (quietDisable _) (quietFinish _))
    · exact quietTrans (quietSettled s writes) (quietDisable _)
  · exact quietSettled s writes

theorem quietPerform (read : ReadResult) (writes : List WriteResult) (s : Loop δ) (h : Handler) :
    Quiet s (perform read writes s h) := by
  cases h with
  | handleRead => exact quietRead s read
  | handleWrite => exact quietWrite s writes
  | handleError => exact quietClosed s rfl

theorem quietDeliver (s : Loop δ) (input output : Bool) (read : ReadResult) (writes : List WriteResult) :
    Quiet s (deliver s input output read writes) := by
  unfold deliver
  generalize (EventLoop.dispatch s.fdEntries s.conn.fd input output).flatMap (fun call => call.1 call.2) =
    handlers
  induction handlers generalizing s with
  | nil => exact quietRefl s
  | cons h rest ih => exact quietTrans (quietPerform read writes s h) (ih _)

theorem sendInLoopWhole {bytes : δ → Bytes} {s : Loop δ} {d : δ} {w : WriteResult}
    (connected : (sendInLoop bytes s d w).conn.state = .connected) :
    s.conn.state = .connected ∧ Sent bytes s (sendInLoop bytes s d w) d := by
  rw [sendInLoopConn] at connected
  rcases s.conn.sendOutcome (bytes d) w with ⟨-, gone, -⟩ | ⟨works, kept, -⟩
  · rw [gone] at connected
    contradiction
  · have before := kept.symm.trans connected
    exact ⟨before, queuedSent bytes before d works⟩
end

/-! What has been queued for the socket, and what the tasks still hold. -/

section
variable {τ : Type} [DecidableEq τ] {s : Sending τ}

structure Ordered (s : Sending τ) : Prop where
  bytes : s.loop.conn.accepted = s.loop.queued.flatMap Payload.data
  delivers : Delivers Payload.thread s.calls s.loop.queued (waiting s.loop)
  posted : ∀ p ∈ waiting s.loop, p.thread ≠ .loop

def OrderedWhile (s : Sending τ) : Prop := s.loop.conn.state = .connected → Ordered s

theorem orderedIntact (h : OrderedWhile s) : s.loop.conn.state = .connected → Intact s :=
  fun connected => ⟨s.loop.queued, (h connected).bytes, (h connected).delivers⟩

theorem orderedStart (fd : Int) : OrderedWhile (start fd : Sending τ) :=
  fun _ => ⟨rfl, deliversStart, fun _ inside => nomatch inside⟩

structure Kept (loop after : Loop (Payload τ)) : Prop where
  connected : loop.conn.state = .connected
  accepted : after.conn.accepted = loop.conn.accepted
  queued : after.queued = loop.queued
  waiting : waiting after = waiting loop

theorem orderedKept (h : OrderedWhile s) {after : Loop (Payload τ)}
    (kept : after.conn.state = .connected → Kept s.loop after) : OrderedWhile { s with loop := after } := by
  intro connected
  have same := kept connected
  have before := h same.connected
  refine ⟨?_, ?_, ?_⟩
  · rw [same.accepted, same.queued]
    exact before.bytes
  · rw [same.queued, same.waiting]
    exact before.delivers
  · rw [same.waiting]
    exact before.posted

theorem orderedQuiet (h : OrderedWhile s) {after : Loop (Payload τ)} (quiet : Quiet s.loop after) :
    OrderedWhile { s with loop := after } := by
  refine orderedKept h fun connected => ?_
  have same := quiet connected
  exact ⟨same.connected, same.accepted, same.queued, by
    rw [waiting, waiting, same.batch, same.pendingTasks]⟩

omit [DecidableEq τ] in
theorem waitingPosted (loop : Loop (Payload τ)) {after : Loop (Payload τ)} (batch : after.batch = loop.batch)
    (posted : after.pendingTasks = loop.pendingTasks ∨
      after.pendingTasks = loop.pendingTasks ++ [.enableWriting]) : waiting after = waiting loop := by
  rw [waiting, waiting, batch]
  rcases posted with same | enables
  · rw [same]
  · simp [enables]

theorem orderedDirect (h : OrderedWhile s) {p : Payload τ} (direct : p.thread = .loop) (w : WriteResult) :
    OrderedWhile ⟨sendInLoop Payload.data s.loop p w, s.calls ++ [p]⟩ := by
  intro connected
  obtain ⟨begun, sent⟩ := sendInLoopWhole connected
  have before := h begun
  have tasks := waitingPosted s.loop sent.batch sent.posted
  refine ⟨?_, ?_, ?_⟩
  · rw [sent.accepted, sent.queued, before.bytes, List.flatMap_append]
    simp
  · rw [sent.queued, tasks]
    refine overtakes before.delivers fun q inside => ?_
    rw [direct]
    exact before.posted q inside
  · rw [tasks]
    exact before.posted

theorem orderedPosted (h : OrderedWhile s) {p : Payload τ} (posted : p.thread ≠ .loop) :
    OrderedWhile ⟨runInLoop s.loop (.sendInLoop p), s.calls ++ [p]⟩ := by
  intro connected
  have before := h connected
  have tasks : waiting (runInLoop s.loop (.sendInLoop p)) = waiting s.loop ++ [p] := by
    simp [waiting, runInLoop]
  refine ⟨before.bytes, ?_, ?_⟩
  · rw [tasks]
    exact sentLast before.delivers p
  · rw [tasks]
    intro q inside
    rcases List.mem_append.mp inside with old | new
    · exact before.posted q old
    · rw [List.mem_singleton.mp new]
      exact posted

theorem orderedSend (h : OrderedWhile s) (t : Thread τ) (data : Bytes) (w : WriteResult) :
    OrderedWhile (step s (.send t data w)) := by
  simp only [step]
  by_cases connected : s.loop.conn.state = .connected
  · rw [if_pos connected, loopStep]
    cases t with
    | loop =>
      simp only [dispatched, ConnectionLoop.step, send, if_pos connected]
      exact orderedDirect h rfl w
    | other t =>
      simp only [dispatched, ConnectionLoop.step, post, if_pos connected]
      exact orderedPosted h nofun
  · rw [if_neg connected, loopStep]
    cases t with
    | loop =>
      simp only [dispatched, ConnectionLoop.step, send, if_neg connected]
      exact h
    | other t =>
      simp only [dispatched, ConnectionLoop.step, post, if_neg connected]
      exact h

theorem orderedSwap (h : OrderedWhile s) : OrderedWhile (step s .processTasks) := by
  simp only [step, loopStep, ConnectionLoop.step]
  split
  · rename_i empty
    exact orderedKept h fun connected => ⟨connected, rfl, rfl, by simp [waiting, empty]⟩
  · exact h

theorem orderedRun (h : OrderedWhile s) (w : WriteResult) : OrderedWhile (step s (.runTask w)) := by
  simp only [step, loopStep, ConnectionLoop.step]
  split
  · exact h
  · rename_i t rest next
    cases t with
    | sendInLoop p =>
      intro connected
      obtain ⟨begun, sent⟩ := sendInLoopWhole connected
      have before := h begun
      have front : waiting s.loop = p :: waiting { s.loop with batch := rest } := by
        simp [waiting, next]
      have tasks := waitingPosted { s.loop with batch := rest } sent.batch sent.posted
      refine ⟨?_, ?_, ?_⟩
      · simp only [runTask]
        rw [sent.accepted, sent.queued, before.bytes, List.flatMap_append]
        simp
      · simp only [runTask]
        rw [sent.queued, tasks]
        exact nextArrives (front ▸ before.delivers)
      · simp only [runTask]
        rw [tasks]
        exact fun q inside => before.posted q (front ▸ List.mem_cons_of_mem p inside)
    | enableWriting =>
      have tasks : waiting { s.loop with batch := rest } = waiting s.loop := by simp [waiting, next]
      simp only [runTask]
      split
      · exact orderedKept h fun connected => ⟨connected, rfl, rfl, tasks⟩
      · exact orderedKept h fun connected => ⟨connected, rfl, rfl, tasks⟩
    | shutdown =>
      have tasks : waiting { s.loop with batch := rest } = waiting s.loop := by simp [waiting, next]
      refine orderedKept h fun connected => ?_
      have same := quietFinish { s.loop with batch := rest } connected
      exact ⟨same.connected, same.accepted, rfl, tasks⟩

theorem orderedStep (h : OrderedWhile s) (input : Input τ) : OrderedWhile (step s input) := by
  cases input with
  | send t data w => exact orderedSend h t data w
  | shutdown => exact fun connected => nomatch connected
  | processTasks => exact orderedSwap h
  | runTask w => exact orderedRun h w
  | event input output read writes =>
    simp only [step, loopStep, ConnectionLoop.step]
    split
    · exact orderedQuiet h (quietDeliver s.loop input output read writes)
    · exact h
  | writable writes =>
    simp only [step]
    split
    · exact orderedQuiet h (quietWrite s.loop writes)
    · exact h

theorem streamIntact (fd : Int) (inputs : List (Input τ)) :
    Always step (fun s => s.loop.conn.state = .connected → Intact s) (start fd) inputs := by
  have begun : OrderedWhile (start fd : Sending τ) := orderedStart fd
  refine alwaysInvariant ?_ ?_ begun inputs
  · intro s input keeps
    exact orderedStep keeps input
  · intro s keeps
    exact orderedIntact keeps
end

end RtspRelay.SendOrder
