import RtspRelay.ConnectionLoop

/-! Whether buffered output can still reach the socket. `start` registers the
read event only and `modFd` adds no callback, so a writable event runs nothing:
what keeps output moving is at most an enableWriting that has not run yet. -/
namespace RtspRelay.WriteDrain
open Machine Buffer EventLoop Connection ConnectionLoop Transition

variable {δ : Type}

def EnablePending (s : Loop δ) : Prop := Posted.enableWriting ∈ s.batch ++ s.pendingTasks

def WriteWatched (s : Loop δ) : Prop :=
  ∃ entry cb, s.fdEntries.lookup s.conn.fd = some entry ∧ entry.events.write = true ∧
    entry.writeCb = some cb ∧ Handler.handleWrite ∈ cb kEventWrite

def EventDrains (s : Loop δ) : Prop :=
  ∀ n (positive : 0 < n), n ≤ s.conn.outputBuf.readable →
    (deliver s false true .again [.wrote n positive, .again]).conn.outputBuf.content =
      s.conn.outputBuf.content.drop n

def Stuck (s : Loop δ) : Prop := s.conn.outputBuf.content ≠ [] ∧ 0 ≤ s.conn.fd

def Drainable (s : Loop δ) : Prop := Stuck s → EnablePending s ∨ (WriteWatched s ∧ EventDrains s)

-- The step does not run the only outstanding enableWriting over buffered output.
def LeavesEnable (s : Loop δ) : Input δ → Prop
  | .runTask _ => ∀ rest, s.batch = .enableWriting :: rest → Stuck s →
      Posted.enableWriting ∈ rest ++ s.pendingTasks
  | _ => True

def Unwatched (table : FdTable Callback) : Prop :=
  ∀ fd entry, table.lookup fd = some entry → entry.writeCb = none

theorem unwatchedMod {table : FdTable Callback} (h : Unwatched table) (fd : Int) (events : Events) :
    Unwatched (modFd table fd events) := by
  intro other entry found
  have same := modFdWriteCb table fd events other
  rw [found, Option.map_some] at same
  obtain ⟨before, present, cb⟩ := Option.map_eq_some_iff.mp same.symm
  rw [← cb]
  exact h other before present

theorem unwatchedDel {table : FdTable Callback} (h : Unwatched table) (fd : Int) :
    Unwatched (delFd table fd) := by
  intro other entry found
  rcases eq_or_ne other fd with rfl | differ
  · rw [delFd, AList.lookup_erase] at found
    contradiction
  · rw [delFd, AList.lookup_erase_ne differ] at found
    exact h other entry found

theorem unwatchedAdd (fd : Int) : Unwatched (addFd ∅ fd kEventRead selfCallback) := by
  intro other entry found
  rcases eq_or_ne other fd with rfl | differ
  · rw [addFd, AList.lookup_insert] at found
    cases Option.some.inj found
    rfl
  · rw [addFd, AList.lookup_insert_ne differ, AList.lookup_empty] at found
    contradiction

/-! The invariant of every step but the one that runs the last enableWriting. -/
structure Awaiting (s : Loop δ) : Prop where
  unwatched : Unwatched s.fdEntries
  pending : Stuck s → EnablePending s

theorem awaitingStart (fd : Int) : Awaiting (start fd : Loop δ) :=
  ⟨unwatchedAdd fd, fun stuck => absurd (ByteBuffer.initContent 0) stuck.1⟩

theorem awaitingRunInLoop {s : Loop δ} (h : Awaiting s) (t : Posted δ) : Awaiting (runInLoop s t) := by
  refine ⟨h.unwatched, fun stuck => ?_⟩
  have before := h.pending stuck
  rw [EnablePending, runInLoop, ← List.append_assoc]
  exact List.mem_append_left [t] before

theorem awaitingSettle {s : Loop δ} (h : Awaiting s) {out : TcpConnection × Effect}
    (leaves : out.1.outputBuf.content ≠ [] → 0 ≤ out.1.fd → out.2 = .enableWriting ∨ Stuck s) :
    Awaiting (settle s out) := by
  obtain ⟨c, effect⟩ := out
  cases effect with
  | none =>
    refine ⟨h.unwatched, fun stuck => ?_⟩
    rcases leaves stuck.1 stuck.2 with enables | before
    · contradiction
    · exact h.pending before
  | enableWriting =>
    refine ⟨h.unwatched, fun _ => ?_⟩
    simp [EnablePending, settle, runInLoop]
  | failed =>
    refine ⟨unwatchedDel h.unwatched s.conn.fd, fun stuck => ?_⟩
    rcases leaves stuck.1 stuck.2 with enables | before
    · contradiction
    · exact h.pending before

theorem awaitingQueued {s : Loop δ} (h : Awaiting s) (q : List δ) : Awaiting { s with queued := q } :=
  ⟨h.unwatched, h.pending⟩

theorem awaitingClosed {s : Loop δ} (h : Awaiting s) {c : TcpConnection} (dead : c.fd = -1) :
    Awaiting (closed s c) := by
  refine ⟨unwatchedDel h.unwatched s.conn.fd, fun stuck => ?_⟩
  have live : 0 ≤ c.fd := stuck.2
  rw [dead] at live
  exact absurd live (by decide)

theorem awaitingFinish {s : Loop δ} (h : Awaiting s) :
    Awaiting { s with conn := s.conn.finish } := by
  have same : s.conn.finish.outputBuf = s.conn.outputBuf ∧ s.conn.finish.fd = s.conn.fd := by
    unfold TcpConnection.finish
    split <;> exact ⟨rfl, rfl⟩
  refine ⟨h.unwatched, fun stuck => h.pending ?_⟩
  rw [Stuck, same.1, same.2] at stuck
  exact stuck

variable (bytes : δ → Bytes)

theorem awaitingSendInLoop {s : Loop δ} (h : Awaiting s) (d : δ) (w : WriteResult) :
    Awaiting (sendInLoop bytes s d w) := by
  unfold sendInLoop
  dsimp only
  split
  · exact awaitingSettle (awaitingQueued h _) TcpConnection.sendLeaves
  · exact awaitingSettle h TcpConnection.sendLeaves

theorem awaitingRead {s : Loop δ} (h : Awaiting s) (read : ReadResult) :
    Awaiting (handleRead s read) := by
  cases read with
  | data chunk => exact ⟨h.unwatched, h.pending⟩
  | eof => exact awaitingClosed h rfl
  | again => exact h
  | error => exact awaitingClosed h rfl

theorem awaitingWrite {s : Loop δ} (h : Awaiting s) (writes : List WriteResult) :
    Awaiting (handleWrite s writes) := by
  have written : Awaiting (settle s (TcpConnection.writeLoop writes s.conn)) :=
    awaitingSettle h fun left live =>
      .inr (TcpConnection.writeLoopLeaves writes s.conn left live)
  have disabled : Awaiting (disableWriting (settle s (TcpConnection.writeLoop writes s.conn))) := by
    unfold disableWriting
    split
    · exact written
    · exact ⟨unwatchedMod written.unwatched _ _, written.pending⟩
  unfold handleWrite
  dsimp only
  split
  · split
    · exact awaitingFinish disabled
    · exact disabled
  · exact written

theorem awaitingDeliver {s : Loop δ} (h : Awaiting s) (input output : Bool) (read : ReadResult)
    (writes : List WriteResult) : Awaiting (deliver s input output read writes) := by
  unfold deliver
  generalize (dispatch s.fdEntries s.conn.fd input output).flatMap (fun call => call.1 call.2) = calls
  induction calls generalizing s with
  | nil => exact h
  | cons handler rest ih =>
    refine ih ?_
    cases handler with
    | handleRead => exact awaitingRead h read
    | handleWrite => exact awaitingWrite h writes
    | handleError => exact awaitingClosed h rfl

theorem awaitingTask {s : Loop δ} {t : Posted δ} {rest : List (Posted δ)} (h : Awaiting s)
    (next : s.batch = t :: rest) (w : WriteResult)
    (leaves : t = .enableWriting → Stuck s → Posted.enableWriting ∈ rest ++ s.pendingTasks) :
    Awaiting (runTask bytes { s with batch := rest } w t) := by
  have taken : Awaiting { s with batch := rest } := by
    refine ⟨h.unwatched, fun stuck => ?_⟩
    have outstanding := h.pending stuck
    rw [EnablePending, next, List.cons_append] at outstanding
    rcases List.mem_cons.mp outstanding with this | later
    · exact leaves this.symm stuck
    · exact later
  cases t with
  | sendInLoop d => exact awaitingSendInLoop bytes taken d w
  | enableWriting =>
    simp only [runTask]
    split
    · exact taken
    · exact ⟨unwatchedMod taken.unwatched _ _, taken.pending⟩
  | shutdown => exact awaitingFinish taken

theorem awaitingStep {s : Loop δ} {input : Input δ} (h : Awaiting s) (leaves : LeavesEnable s input) :
    Awaiting (step bytes s input) := by
  cases input with
  | post d =>
    simp only [step, post]
    split
    · exact awaitingRunInLoop h _
    · exact h
  | send d w =>
    simp only [step, send]
    split
    · exact awaitingSendInLoop bytes h d w
    · exact h
  | shutdown =>
    have shut : Awaiting { s with conn := { s.conn with state := .disconnecting } } :=
      ⟨h.unwatched, h.pending⟩
    exact awaitingRunInLoop shut .shutdown
  | processTasks =>
    simp only [step]
    split
    · rename_i empty
      refine ⟨h.unwatched, fun stuck => ?_⟩
      simpa [EnablePending, empty] using h.pending stuck
    · exact h
  | runTask w =>
    simp only [step]
    split
    · exact h
    · rename_i t rest next
      refine awaitingTask bytes h next w fun same => ?_
      subst same
      exact leaves rest next
  | event input output read writes =>
    simp only [step]
    split
    · exact awaitingDeliver h input output read writes
    · exact h

theorem awaitingDrainable {s : Loop δ} (h : Awaiting s) : Drainable s := fun stuck => .inl (h.pending stuck)

/-! Running the last enableWriting only changes the interest set. -/
theorem lastEnableSticks {s : Loop δ} {input : Input δ} (h : Awaiting s)
    (runsLast : ¬ LeavesEnable s input) : ¬ Drainable (step bytes s input) := by
  cases input with
  | runTask w =>
    simp only [LeavesEnable, not_forall] at runsLast
    obtain ⟨rest, next, stuck, gone⟩ := runsLast
    have fd : ¬ s.conn.fd < 0 := Int.not_lt.mpr stuck.2
    simp only [step, next, runTask, if_neg fd]
    intro drains
    rcases drains stuck with pending | ⟨⟨entry, cb, found, _, stored, _⟩, _⟩
    · exact gone pending
    · rw [unwatchedMod h.unwatched _ _ _ entry found] at stored
      contradiction
  | post | send | shutdown | processTasks | event => exact absurd trivial runsLast

theorem alwaysDrainable (fd : Int) (inputs : List (Input Bytes)) :
    Always (step id) Drainable (start fd) inputs ↔ Throughout (step id) LeavesEnable (start fd) inputs :=
  alwaysExact (fun _ _ => awaitingStep id) (fun _ => awaitingDrainable)
    (fun _ _ => lastEnableSticks id) (awaitingStart fd)

/-! Two bytes that the socket does not take, and the loop's next pass. -/
def blockedSend : List (Input Bytes) := [.send [1, 2] .again, .processTasks]

theorem blockedSendSticks :
    ¬ ∀ (fd : Int) (inputs : List (Input Bytes)), Always (step id) Drainable (start fd) inputs := by
  intro always
  have waiting : Awaiting (run (step id) (start 7) blockedSend) :=
    alwaysLast (alwaysAlong (fun _ _ => awaitingStep id) (fun _ => id) (awaitingStart 7)
      ⟨trivial, trivial, trivial⟩)
  have runsLast : ¬ LeavesEnable (run (step id) (start 7) blockedSend) (.runTask .again) := by
    intro leaves
    have none := leaves [] rfl ⟨by decide, by decide⟩
    contradiction
  have last := alwaysLast (always 7 (blockedSend ++ [.runTask .again]))
  exact lastEnableSticks id waiting runsLast last

end RtspRelay.WriteDrain
