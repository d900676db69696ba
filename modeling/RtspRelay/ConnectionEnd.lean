import RtspRelay.ConnectionLoop

/-! The end of a connection, with its callbacks running inside its own calls. A
callback may send and shut down like any other code; when it returns, the call that
ran it goes on: handleRead reads again behind the message callback, handleWrite
looks at the state. A callback that is not set is one that returns at once. -/
namespace RtspRelay.ConnectionEnd
open Machine Buffer EventLoop Connection ConnectionLoop Transition

-- What goes on when the callback on top returns.
inductive Frame where
  | message
  | complete
  | plain
  deriving DecidableEq, Repr

-- The socket calls, and the two ways to end.
inductive Occurrence where
  | read
  | write
  | closed
  | failed
  deriving DecidableEq, Repr

def Occurrence.ends : Occurrence → Bool
  | .closed | .failed => true
  | .read | .write => false

structure Life where
  loop : Loop Bytes
  stack : List Frame
  log : List Occurrence

inductive Input where
  | post (data : Bytes)
  | send (data : Bytes) (w : WriteResult)
  | shutdown
  | processTasks
  | runTask (w : WriteResult)
  | readable (r : ReadResult)
  | writable (writes : List WriteResult)
  | return_ (r : ReadResult)

def start (fd : Nat) : Life := ⟨ConnectionLoop.start fd, [], []⟩

namespace Life

def note (s : Life) (o : Occurrence) : Life := { s with log := s.log ++ [o] }

def enter (s : Life) (frame : Frame) : Life := { s with stack := frame :: s.stack }

def setLoop (s : Life) (loop : Loop Bytes) : Life := { s with loop := loop }

-- handleClose and handleError, up to their callback.
def endBy (s : Life) (o : Occurrence) (c : TcpConnection) : Life :=
  ((s.setLoop (closed s.loop c)).note o).enter .plain

def completes (c : TcpConnection) (data : Bytes) : WriteResult → Bool
  | .wrote n _ => c.outputBuf.readable = 0 && data.length ≤ n
  | _ => false

def noteWrite (s : Life) : Life := if 0 < s.loop.conn.outputBuf.readable then s else s.note .write

def settled (s : Life) (out : TcpConnection × Effect) : Life :=
  match out.2 with
  | .failed => s.endBy .failed out.1
  | _ => s.setLoop (settle s.loop out)

def sendInLoop (s : Life) (data : Bytes) (w : WriteResult) : Life :=
  if s.loop.conn.state ≠ .connected then s
  else
    let after := s.noteWrite.settled (s.loop.conn.sendInLoop data w)
    if completes s.loop.conn data w then after.enter .plain else after

def send (s : Life) (data : Bytes) (w : WriteResult) : Life :=
  if s.loop.conn.state = .connected then s.sendInLoop data w else s

-- One turn of handleRead's loop; the read of a closed descriptor fails.
def readOnce (s : Life) (r : ReadResult) : Life :=
  match if s.loop.conn.fd < 0 then .error else r with
  | .data chunk => ((s.note .read).setLoop (handleRead s.loop (.data chunk))).enter .message
  | .eof => (s.note .read).endBy .closed s.loop.conn.handleClose
  | .again => s.note .read
  | .error => (s.note .read).endBy .failed s.loop.conn.handleError

-- The write() calls of handleWrite's loop.
def writeCalls : List WriteResult → TcpConnection → List Occurrence
  | [], c => if 0 < c.outputBuf.readable then [.write] else []
  | w :: rest, c =>
    if 0 < c.outputBuf.readable then
      match w with
      | .wrote n _ => .write :: writeCalls rest
        { c with written := c.written ++ c.outputBuf.content.take n
                 outputBuf := c.outputBuf.skip n }
      | _ => [.write]
    else []

def handleWrite (s : Life) (writes : List WriteResult) : Life :=
  let after := { s with log := s.log ++ writeCalls writes s.loop.conn }.settled
    (TcpConnection.writeLoop writes s.loop.conn)
  if after.loop.conn.outputBuf.readable = 0 then
    (after.setLoop (disableWriting after.loop)).enter .complete
  else after

-- handleWrite behind its callback.
def completed (s : Life) : Life :=
  if s.loop.conn.state = .disconnecting then
    s.setLoop { s.loop with conn := { s.loop.conn with shutWr := true } }
  else s

def returnTo (s : Life) (r : ReadResult) : Frame → Life
  | .message => s.readOnce r
  | .complete => s.completed
  | .plain => s

def runTask (s : Life) (w : WriteResult) : Posted Bytes → Life
  | .sendInLoop data => s.sendInLoop data w
  | t => s.setLoop (ConnectionLoop.runTask id s.loop w t)

def Idle (s : Life) : Prop := s.stack = [] ∧ s.loop.batch = []
instance (s : Life) : Decidable s.Idle := inferInstanceAs (Decidable (_ ∧ _))

-- The loop reports events of a descriptor in its table only.
def Watched (s : Life) : Prop := s.Idle ∧ (s.loop.fdEntries.lookup s.loop.conn.fd).isSome = true
instance (s : Life) : Decidable s.Watched := inferInstanceAs (Decidable (_ ∧ _))

def step (s : Life) : Input → Life
  | .post data => s.setLoop (post s.loop data)
  | .send data w => s.send data w
  | .shutdown => s.setLoop (shutdown s.loop)
  | .processTasks =>
    if s.Idle then s.setLoop { s.loop with batch := s.loop.pendingTasks, pendingTasks := [] } else s
  | .runTask w =>
    if s.stack = [] then
      match s.loop.batch with
      | [] => s
      | t :: rest => (s.setLoop { s.loop with batch := rest }).runTask w t
    else s
  | .readable r => if s.Watched then s.readOnce r else s
  | .writable writes => if s.Watched then s.handleWrite writes else s
  | .return_ r =>
    match s.stack with
    | [] => s
    | frame :: rest => { s with stack := rest }.returnTo r frame

end Life

/-! A connection ends once: nothing follows its end, neither a read or a write nor a
second end, and its state and descriptor stay. -/
structure EndsOnce (s : Life) : Prop where
  last : ∀ before o after, s.log = before ++ o :: after → o.ends = true → after = []
  finished : (∃ o ∈ s.log, o.ends = true) → s.loop.conn.state = .disconnected ∧ s.loop.conn.fd = -1

-- No shutdown() behind the end, and no return into handleRead's loop.
def EndsCalls (s : Life) : Input → Prop
  | .shutdown => s.loop.conn.state ≠ .disconnected
  | .return_ _ => s.stack.head? = some .message → s.loop.conn.state ≠ .disconnected
  | _ => True

/-! The two phases. -/

structure Open (s : Life) : Prop where
  state : s.loop.conn.state ≠ .disconnected
  running : ∀ o ∈ s.log, o.ends = false

structure Over (s : Life) : Prop where
  state : s.loop.conn.state = .disconnected
  fd : s.loop.conn.fd = -1
  ended : ∃ before o, s.log = before ++ [o] ∧ o.ends = true ∧ ∀ x ∈ before, x.ends = false

structure Lived (s : Life) : Prop where
  phase : Open s ∨ Over s
  noEntry : s.loop.fdEntries.lookup (-1) = none

theorem writeCallsRun (writes : List WriteResult) (c : TcpConnection) :
    ∀ o ∈ Life.writeCalls writes c, o.ends = false := by
  induction writes generalizing c with
  | nil =>
    unfold Life.writeCalls
    split <;> simp [Occurrence.ends]
  | cons w rest ih =>
    unfold Life.writeCalls
    split
    · cases w with
      | wrote n positive => simpa [Occurrence.ends] using ih _
      | again => simp [Occurrence.ends]
      | error => simp [Occurrence.ends]
    · simp

/-! One lemma for each thing a step does with a connection that lives. -/

theorem noEntryMod {table : FdTable Callback} (none : table.lookup (-1) = none) (fd : Int) (events : Events) :
    (modFd table fd events).lookup (-1) = .none := by
  have same := modFdPresent table fd events (-1)
  rw [none] at same
  exact Option.isNone_iff_eq_none.mp (by simpa using same)

theorem noEntryDel {table : FdTable Callback} (none : table.lookup (-1) = none) (fd : Int) :
    (delFd table fd).lookup (-1) = .none := by
  rcases eq_or_ne (-1 : Int) fd with rfl | differ
  · exact AList.lookup_erase (-1) table
  · rw [delFd, AList.lookup_erase_ne differ]
    exact none

section
variable {s : Life}

theorem livedLoop (h : Lived s) {loop : Loop Bytes} (state : loop.conn.state = s.loop.conn.state)
    (fd : loop.conn.fd = s.loop.conn.fd) (noEntry : loop.fdEntries.lookup (-1) = none) :
    Lived (s.setLoop loop) := by
  refine ⟨?_, noEntry⟩
  rcases h.phase with opened | finished
  · exact .inl ⟨fun ended => opened.state (state.symm.trans ended), opened.running⟩
  · exact .inr ⟨state.trans finished.state, fd.trans finished.fd, finished.ended⟩

theorem livedEnter (h : Lived s) (frame : Frame) : Lived (s.enter frame) :=
  ⟨h.phase.imp (fun o => ⟨o.state, o.running⟩) (fun o => ⟨o.state, o.fd, o.ended⟩), h.noEntry⟩

theorem livedReturn (h : Lived s) (rest : List Frame) : Lived { s with stack := rest } :=
  ⟨h.phase.imp (fun o => ⟨o.state, o.running⟩) (fun o => ⟨o.state, o.fd, o.ended⟩), h.noEntry⟩

theorem openLog (opened : Open s) {calls : List Occurrence} (running : ∀ o ∈ calls, o.ends = false) :
    Open { s with log := s.log ++ calls } := by
  refine ⟨opened.state, fun o inside => ?_⟩
  rcases List.mem_append.mp inside with before | now
  · exact opened.running o before
  · exact running o now

theorem openNote (opened : Open s) {o : Occurrence} (running : o.ends = false) : Open (s.note o) :=
  openLog opened (by simpa using running)

theorem overEnd (opened : Open s) {o : Occurrence} (ends : o.ends = true) {c : TcpConnection}
    (state : c.state = .disconnected) (fd : c.fd = -1) : Over (s.endBy o c) :=
  ⟨state, fd, s.log, o, rfl, ends, opened.running⟩

theorem livedEnd (h : Lived s) (opened : Open s) {o : Occurrence} (ends : o.ends = true) {c : TcpConnection}
    (state : c.state = .disconnected) (fd : c.fd = -1) : Lived (s.endBy o c) :=
  ⟨.inr (overEnd opened ends state fd), noEntryDel h.noEntry s.loop.conn.fd⟩

theorem livedSettled (h : Lived s) (opened : Open s) {out : TcpConnection × Effect}
    (outcome : TcpConnection.FailsOrKeeps s.loop.conn out) : Lived (s.settled out) := by
  obtain ⟨c, effect⟩ := out
  rcases outcome with ⟨failed, state, fd⟩ | ⟨works, state, fd⟩
  · obtain rfl : effect = .failed := failed
    exact livedEnd h opened rfl state fd
  · cases effect with
    | none => exact livedLoop h state fd h.noEntry
    | enableWriting => exact livedLoop h state fd h.noEntry
    | failed => exact absurd rfl works

theorem livedOpen (h : Lived s) (alive : s.loop.conn.state ≠ .disconnected) : Open s :=
  h.phase.resolve_right fun finished => alive finished.state

theorem livedNoteWrite (h : Lived s) (opened : Open s) :
    Lived s.noteWrite ∧ Open s.noteWrite ∧ s.noteWrite.loop = s.loop := by
  unfold Life.noteWrite
  split
  · exact ⟨h, opened, rfl⟩
  · have noted := openNote (o := .write) opened rfl
    exact ⟨⟨.inl noted, h.noEntry⟩, noted, rfl⟩

theorem livedSend (h : Lived s) (data : Bytes) (w : WriteResult) : Lived (s.sendInLoop data w) := by
  unfold Life.sendInLoop
  split
  · exact h
  · rename_i connected
    have opened : Open s := livedOpen h fun ended => by simp [ended] at connected
    obtain ⟨noted, still, same⟩ := livedNoteWrite h opened
    have sent : Lived (s.noteWrite.settled (s.loop.conn.sendInLoop data w)) := by
      refine livedSettled noted still ?_
      rw [same]
      exact s.loop.conn.sendOutcome data w
    dsimp only
    split
    · exact livedEnter sent .plain
    · exact sent

-- A turn of handleRead's loop is only harmless while the connection is open.
theorem livedRead (h : Lived s) (opened : Open s) (r : ReadResult) : Lived (s.readOnce r) := by
  have noted : Open (s.note .read) := openNote opened rfl
  have living : Lived (s.note .read) := ⟨.inl noted, h.noEntry⟩
  unfold Life.readOnce
  split
  · rename_i chunk _
    have taken : Lived ((s.note .read).setLoop (handleRead s.loop (.data chunk))) :=
      livedLoop living rfl rfl h.noEntry
    exact livedEnter taken .message
  · exact livedEnd living noted rfl rfl rfl
  · exact living
  · exact livedEnd living noted rfl rfl rfl

theorem livedDisable (h : Lived s) : Lived (s.setLoop (disableWriting s.loop)) := by
  unfold disableWriting
  split
  · exact h
  · exact livedLoop h rfl rfl (noEntryMod h.noEntry _ _)

theorem livedWrite (h : Lived s) (opened : Open s) (writes : List WriteResult) :
    Lived (s.handleWrite writes) := by
  have noted := openLog opened (writeCallsRun writes s.loop.conn)
  have written := livedSettled ⟨.inl noted, h.noEntry⟩ noted (TcpConnection.writeOutcome writes s.loop.conn)
  unfold Life.handleWrite
  dsimp only
  split
  · exact livedEnter (livedDisable written) .complete
  · exact written

theorem livedTask (h : Lived s) (w : WriteResult) (t : Posted Bytes) : Lived (s.runTask w t) := by
  cases t with
  | sendInLoop data => exact livedSend h data w
  | enableWriting =>
    simp only [Life.runTask, ConnectionLoop.runTask]
    split
    · exact h
    · exact livedLoop h rfl rfl (noEntryMod h.noEntry _ _)
  | shutdown =>
    have fd : s.loop.conn.finish.fd = s.loop.conn.fd := by
      unfold TcpConnection.finish
      split <;> rfl
    exact livedLoop h s.loop.conn.finishKeeps.1 fd h.noEntry

theorem livedCompleted (h : Lived s) : Lived s.completed := by
  unfold Life.completed
  split
  · exact livedLoop h rfl rfl h.noEntry
  · exact h

/-! No descriptor of the table is -1, so the loop reports nothing behind the end. -/
theorem watchedOpen (h : Lived s) (watched : s.Watched) : Open s := by
  refine h.phase.resolve_right fun finished => ?_
  have present := watched.2
  rw [finished.fd, h.noEntry] at present
  contradiction

theorem livedStep (h : Lived s) {input : Input} (calls : EndsCalls s input) : Lived (s.step input) := by
  cases input with
  | post data =>
    simp only [Life.step, post]
    split
    · exact livedLoop h rfl rfl h.noEntry
    · exact h
  | send data w =>
    simp only [Life.step, Life.send]
    split
    · exact livedSend h data w
    · exact h
  | shutdown =>
    have opened : Open s := livedOpen h calls
    have closing : Open (s.setLoop (shutdown s.loop)) := ⟨nofun, opened.running⟩
    exact ⟨.inl closing, h.noEntry⟩
  | processTasks =>
    simp only [Life.step]
    split
    · exact livedLoop h rfl rfl h.noEntry
    · exact h
  | runTask w =>
    simp only [Life.step]
    split
    · split
      · exact h
      · rename_i t rest next
        have taken : Lived (s.setLoop { s.loop with batch := rest }) := livedLoop h rfl rfl h.noEntry
        exact livedTask taken w t
    · exact h
  | readable r =>
    simp only [Life.step]
    split
    · rename_i watched
      exact livedRead h (watchedOpen h watched) r
    · exact h
  | writable writes =>
    simp only [Life.step]
    split
    · rename_i watched
      exact livedWrite h (watchedOpen h watched) writes
    · exact h
  | return_ r =>
    simp only [Life.step]
    split
    · exact h
    · rename_i frame rest top
      have back := livedReturn h rest
      cases frame with
      | message => exact livedRead back (livedOpen back (calls (by rw [top, List.head?_cons]))) r
      | complete => exact livedCompleted back
      | plain => exact back
end

theorem livedStart (fd : Nat) : Lived (start fd) := by
  have first : Open (start fd) := ⟨nofun, nofun⟩
  refine ⟨.inl first, ?_⟩
  have differ : (-1 : Int) ≠ fd := by omega
  show (addFd ∅ (fd : Int) kEventRead selfCallback).lookup (-1) = none
  rw [addFd, AList.lookup_insert_ne differ, AList.lookup_empty]

theorem livedEndsOnce {s : Life} (h : Lived s) : EndsOnce s := by
  rcases h.phase with opened | finished
  · refine ⟨fun before o after log ends => ?_, fun ⟨o, inside, ends⟩ => ?_⟩
    · have running := opened.running o (by simp [log])
      rw [ends] at running
      contradiction
    · have running := opened.running o inside
      rw [ends] at running
      contradiction
  · refine ⟨fun before o after log ends => ?_, fun _ => ⟨finished.state, finished.fd⟩⟩
    obtain ⟨first, last, whole, -, running⟩ := finished.ended
    rcases List.eq_nil_or_concat after with rfl | ⟨middle, final, rfl⟩
    · rfl
    · rw [whole, List.concat_eq_append, ← List.cons_append, ← List.append_assoc] at log
      have inside : o ∈ first := by
        rw [(List.append_inj' log rfl).1]
        simp
      have ran := running o inside
      rw [ends] at ran
      contradiction

/-! shutdown() behind the end revives the state; a return into handleRead reads the
closed descriptor and reports a second error. -/
theorem endedTwice {s : Life} {input : Input} (h : Lived s) (calls : ¬ EndsCalls s input) :
    ¬ EndsOnce (s.step input) := by
  intro once
  cases input with
  | shutdown =>
    have ended : s.loop.conn.state = .disconnected := not_not.mp calls
    obtain ⟨before, o, log, ends, -⟩ := (h.phase.resolve_left fun opened => opened.state ended).ended
    have inside : o ∈ (s.step .shutdown).log := by
      show o ∈ s.log
      simp [log]
    have state := (once.finished ⟨o, inside, ends⟩).1
    contradiction
  | return_ r =>
    simp only [EndsCalls, not_forall, not_not] at calls
    obtain ⟨top, ended⟩ := calls
    have finished := h.phase.resolve_left fun opened => opened.state ended
    obtain ⟨before, o, log, ends, -⟩ := finished.ended
    obtain ⟨rest, stack⟩ := List.head?_eq_some_iff.mp top
    have closedFd : s.loop.conn.fd < 0 := by rw [finished.fd]; decide
    have again : (s.step (.return_ r)).log = before ++ o :: [.read, .failed] := by
      simp [Life.step, stack, Life.returnTo, Life.readOnce, closedFd, Life.endBy, Life.note, Life.setLoop,
        Life.enter, log]
    have nothing := once.last before o [.read, .failed] again ends
    contradiction
  | post | send | processTasks | runTask | readable | writable => exact absurd trivial calls

theorem endsOnceExact (fd : Nat) (inputs : List Input) :
    Always Life.step EndsOnce (start fd) inputs ↔ Throughout Life.step EndsCalls (start fd) inputs :=
  alwaysExact (fun _ _ h => livedStep h) (fun _ => livedEndsOnce) (fun _ _ => endedTwice) (livedStart fd)

/-! A message whose answer cannot be written, behind which handleRead goes on. -/
def failedAnswer : List Input := [.readable (.data [1]), .send [1] .error, .return_ .again, .return_ .again]

theorem failedAnswerEndsTwice :
    ¬ ∀ (fd : Nat) (inputs : List Input), Always Life.step EndsOnce (start fd) inputs := by
  intro always
  have last := alwaysLast (always 7 failedAnswer)
  have log : (run Life.step (start 7) failedAnswer).log = [.read, .write] ++ .failed :: [.read, .failed] := by
    decide
  have nothing := last.last _ _ _ log rfl
  contradiction

end RtspRelay.ConnectionEnd
