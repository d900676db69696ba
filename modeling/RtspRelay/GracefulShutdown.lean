import RtspRelay.SendOrder

/-! What shutdown() does to payloads that send() has taken. A call from another
thread tests or sets the state first and posts its task in a second step, so the
loop and other calls may come between; a send that was posted tests the state
again when its task runs. No socket call fails here. A peer that ends its side is
no failure, and the connection is closed at once. -/
namespace RtspRelay.GracefulShutdown
open Machine Connection ConnectionLoop Transition Delivery
open SendOrder (Thread Payload waiting)

inductive Call where
  | send (data : Bytes)
  | shutdown
  deriving DecidableEq, Repr

-- A call that has tested or set the state and has the rest of it to do.
structure Entered (τ : Type) where
  thread : Thread τ
  call : Call
  deriving DecidableEq, Repr

-- `calls`: the sends that found the socket connected, oldest first.
structure Calling (τ : Type) where
  loop : Loop (Payload τ)
  calls : List (Payload τ)
  entered : List (Entered τ)

inductive Input (τ : Type) where
  | send (t : Thread τ) (data : Bytes)
  | shutdown (t : Thread τ)
  | proceed (t : Thread τ) (w : WriteResult) (works : w ≠ .error)
  | processTasks
  | runTask (w : WriteResult) (works : w ≠ .error)
  | read (result : ReadResult) (works : result ≠ .error)
  | writable (writes : List WriteResult) (work : WriteResult.error ∉ writes)

section
variable {τ : Type}

def start (fd : Int) : Calling τ := ⟨ConnectionLoop.start fd, [], []⟩

-- The second half of a call: a send on the loop's thread goes to the socket, the rest is posted.
def carryOn (loop : Loop (Payload τ)) (w : WriteResult) : Entered τ → Loop (Payload τ)
  | ⟨.loop, .send data⟩ => sendInLoop Payload.data loop ⟨.loop, data⟩ w
  | ⟨.other t, .send data⟩ => runInLoop loop (.sendInLoop ⟨.other t, data⟩)
  | ⟨_, .shutdown⟩ => runInLoop loop .shutdown

def setState (loop : Loop (Payload τ)) (state : State) : Loop (Payload τ) :=
  { loop with conn := { loop.conn with state := state } }

variable [DecidableEq τ]

-- A thread is in one call at a time, and the loop runs nothing while its own is in one.
def Busy (s : Calling τ) (t : Thread τ) : Prop := ∃ e ∈ s.entered, e.thread = t

instance (s : Calling τ) (t : Thread τ) : Decidable (Busy s t) :=
  inferInstanceAs (Decidable (∃ e ∈ s.entered, e.thread = t))

-- An event is reported for an open descriptor, after the tasks of the turn.
def Reports (s : Calling τ) : Prop := ¬ Busy s .loop ∧ s.loop.batch = [] ∧ 0 ≤ s.loop.conn.fd

instance (s : Calling τ) : Decidable (Reports s) := inferInstanceAs (Decidable (_ ∧ _))

def step (s : Calling τ) : Input τ → Calling τ
  | .send t data =>
    if Busy s t then s
    else if s.loop.conn.state = .connected then
      { s with calls := s.calls ++ [⟨t, data⟩], entered := s.entered ++ [⟨t, .send data⟩] }
    else s
  | .shutdown t =>
    if Busy s t then s
    else { s with loop := setState s.loop .disconnecting, entered := s.entered ++ [⟨t, .shutdown⟩] }
  | .proceed t w _ =>
    match s.entered.find? fun e => decide (e.thread = t) with
    | none => s
    | some e => { s with
        loop := carryOn s.loop w e, entered := s.entered.eraseP fun e => decide (e.thread = t) }
  | .processTasks =>
    if ¬ Busy s .loop ∧ s.loop.batch = [] then
      { s with loop := { s.loop with batch := s.loop.pendingTasks, pendingTasks := [] } }
    else s
  | .runTask w _ =>
    if Busy s .loop then s
    else match s.loop.batch with
      | [] => s
      | t :: rest => { s with loop := runTask Payload.data { s.loop with batch := rest } w t }
  | .read result _ => if Reports s then { s with loop := handleRead s.loop result } else s
  | .writable writes _ => if Reports s then { s with loop := handleWrite s.loop writes } else s

def Entered.payload : Entered τ → Option (Payload τ)
  | ⟨t, .send data⟩ => some ⟨t, data⟩
  | ⟨_, .shutdown⟩ => none

-- The payloads of posted tasks, and those whose send has still to post or write them.
def transit (s : Calling τ) : List (Payload τ) := waiting s.loop ++ s.entered.filterMap Entered.payload

-- The payload, if its task ran now, would be written or buffered.
def TakenWhenRun (s : Calling τ) (p : Payload τ) : Prop :=
  ∀ w : WriteResult, w ≠ .error →
    (sendInLoop Payload.data s.loop p w).queued = s.loop.queued ++ [p]

structure Kept (s : Calling τ) : Prop where
  bytes : s.loop.conn.accepted = s.loop.queued.flatMap Payload.data
  delivers : Delivers Payload.thread s.calls s.loop.queued (transit s)
  taken : ∀ p ∈ transit s, TakenWhenRun s p
  finished : s.loop.conn.shutWr = true → s.loop.conn.outputBuf.content = [] ∧ transit s = []

-- Neither shutdown() nor the peer's end comes while a payload is in transit.
def NothingInTransit (s : Calling τ) : Input τ → Prop
  | .shutdown t => ¬ Busy s t → transit s = []
  | .read .eof _ => Reports s → transit s = []
  | _ => True
end

/-! Steps whose socket calls do not fail keep the state and the write side open. -/

theorem sendShutWr (c : TcpConnection) (data : Bytes) (w : WriteResult) :
    (c.sendInLoop data w).1.shutWr = c.shutWr := by
  unfold TcpConnection.sendInLoop TcpConnection.buffered
  cases w <;> (dsimp only; repeat' split) <;> rfl

section
variable {δ : Type}

theorem sendInLoopShutWr (bytes : δ → Bytes) (s : Loop δ) (d : δ) (w : WriteResult) :
    (sendInLoop bytes s d w).conn.shutWr = s.conn.shutWr := by
  rw [sendInLoopConn]
  exact sendShutWr _ _ _

theorem writeLoopWorks {writes : List WriteResult} (work : WriteResult.error ∉ writes) (c : TcpConnection) :
    (TcpConnection.writeLoop writes c).2 = .none ∧
      (TcpConnection.writeLoop writes c).1.state = c.state ∧
      (TcpConnection.writeLoop writes c).1.shutWr = c.shutWr := by
  induction writes generalizing c with
  | nil => exact ⟨rfl, rfl, rfl⟩
  | cons w rest ih =>
    obtain ⟨works, later⟩ := List.ne_and_not_mem_of_not_mem_cons work
    unfold TcpConnection.writeLoop
    split
    · cases w with
      | wrote n positive => exact ih later _
      | again => exact ⟨rfl, rfl, rfl⟩
      | error => exact absurd rfl works
    · exact ⟨rfl, rfl, rfl⟩

theorem finishShutWr (c : TcpConnection) (closed : c.finish.shutWr = true) :
    c.shutWr = true ∨ c.outputBuf.content = [] := by
  unfold TcpConnection.finish at closed
  split at closed
  · rename_i empty
    exact .inr (TcpConnection.readableEmpty.mp empty)
  · exact .inl closed

theorem finishOutput (c : TcpConnection) : c.finish.outputBuf = c.outputBuf := by
  unfold TcpConnection.finish
  split <;> rfl

theorem writeLoopEmpty (writes : List WriteResult) {c : TcpConnection} (empty : c.outputBuf.content = []) :
    TcpConnection.writeLoop writes c = (c, .none) := by
  have nothing : ¬ 0 < c.outputBuf.readable := by
    rw [TcpConnection.readableEmpty.mpr empty]
    exact Nat.lt_irrefl 0
  cases writes with
  | nil => rfl
  | cons w rest =>
    unfold TcpConnection.writeLoop
    rw [if_neg nothing]

def Finished (c : TcpConnection) : Prop := c.shutWr = true → c.outputBuf.content = []

theorem finishedFinish {c : TcpConnection} (done : Finished c) : Finished c.finish := by
  intro shut
  rw [finishOutput]
  exact (finishShutWr c shut).elim done id

/-! What handleWrite does when no write fails. -/
structure Wrote (s after : Loop δ) : Prop where
  state : after.conn.state = s.conn.state
  accepted : after.conn.accepted = s.conn.accepted
  queued : after.queued = s.queued
  batch : after.batch = s.batch
  pendingTasks : after.pendingTasks = s.pendingTasks
  shutWr : after.conn.shutWr = true → s.conn.shutWr = true ∨ s.conn.state = .disconnecting
  finished : Finished s.conn → Finished after.conn

theorem wroteTrans {s mid after : Loop δ} (first : Wrote s mid) (last : Wrote mid after) : Wrote s after := by
  refine ⟨last.state.trans first.state, last.accepted.trans first.accepted, last.queued.trans first.queued,
    last.batch.trans first.batch, last.pendingTasks.trans first.pendingTasks, fun shut => ?_,
    fun done => last.finished (first.finished done)⟩
  rcases last.shutWr shut with before | closing
  · exact first.shutWr before
  · exact .inr (first.state.symm.trans closing)

theorem wroteSettled (s : Loop δ) {writes : List WriteResult} (work : WriteResult.error ∉ writes) :
    Wrote s (settle s (TcpConnection.writeLoop writes s.conn)) := by
  have accepted := TcpConnection.writeLoopAccepted writes s.conn
  obtain ⟨effect, state, shutWr⟩ := writeLoopWorks work s.conn
  have empties := @writeLoopEmpty writes s.conn
  rcases out : TcpConnection.writeLoop writes s.conn with ⟨c, e⟩
  rw [out] at accepted effect state shutWr empties
  obtain rfl : e = .none := effect
  refine ⟨state, accepted, rfl, rfl, rfl, fun shut => .inl (shutWr.symm.trans shut), fun done shut => ?_⟩
  have before := done (shutWr.symm.trans shut)
  have same : c = s.conn := congrArg Prod.fst (empties before)
  rw [← same] at before
  exact before

theorem wroteDisable (s : Loop δ) : Wrote s (disableWriting s) := by
  unfold disableWriting
  split <;> exact ⟨rfl, rfl, rfl, rfl, rfl, .inl, id⟩

theorem wroteFinish {s : Loop δ} (closing : s.conn.state = .disconnecting) :
    Wrote s { s with conn := s.conn.finish } := by
  have kept := TcpConnection.finishKeeps s.conn
  exact ⟨kept.1, kept.2, rfl, rfl, rfl, fun _ => .inr closing, finishedFinish⟩

theorem wroteWorks (s : Loop δ) {writes : List WriteResult} (work : WriteResult.error ∉ writes) :
    Wrote s (handleWrite s writes) := by
  have written := wroteTrans (wroteSettled s work) (wroteDisable _)
  unfold handleWrite
  dsimp only
  split
  · split
    · rename_i closing
      exact wroteTrans written (wroteFinish closing)
    · exact written
  · exact wroteSettled s work
end

/-! The two phases of a connection without socket errors: before shutdown() or the
peer's end, and after it, when nothing may be left in transit. -/

section
variable {τ : Type} {s : Calling τ}

structure Open (s : Calling τ) : Prop where
  connected : s.loop.conn.state = .connected
  shutWr : s.loop.conn.shutWr = false
  early : Posted.shutdown ∉ s.loop.batch ++ s.loop.pendingTasks
  sends : ∀ e ∈ s.entered, e.call ≠ .shutdown

structure Closing (s : Calling τ) : Prop where
  state : s.loop.conn.state ≠ .connected
  nothing : transit s = []

variable [DecidableEq τ]

structure Ordered (s : Calling τ) : Prop where
  bytes : s.loop.conn.accepted = s.loop.queued.flatMap Payload.data
  delivers : Delivers Payload.thread s.calls s.loop.queued (transit s)
  posted : ∀ p ∈ waiting s.loop, p.thread ≠ .loop

structure Flushing (s : Calling τ) : Prop where
  ordered : Ordered s
  phase : Open s ∨ Closing s
  finished : Finished s.loop.conn

theorem flushingStart (fd : Int) : Flushing (start fd : Calling τ) := by
  have first : Open (start fd : Calling τ) := ⟨rfl, rfl, List.not_mem_nil, nofun⟩
  exact ⟨⟨rfl, deliversStart, nofun⟩, .inl first, nofun⟩

theorem flushingKept (h : Flushing s) : Kept s := by
  refine ⟨h.ordered.bytes, h.ordered.delivers, fun p inside w works => ?_, fun shut => ⟨h.finished shut, ?_⟩⟩
  · rcases h.phase with opened | closing
    · exact (sendInLoopSent Payload.data opened.connected p works).queued
    · rw [closing.nothing] at inside
      contradiction
  · rcases h.phase with opened | closing
    · rw [opened.shutWr] at shut
      contradiction
    · exact closing.nothing

theorem openFlushing (ordered : Ordered s) (opened : Open s) : Flushing s := by
  refine ⟨ordered, .inl opened, fun shut => ?_⟩
  rw [opened.shutWr] at shut
  contradiction

-- The entered call of a thread, and what was entered around it.
theorem enteredFound {t : Thread τ} {e : Entered τ}
    (found : (s.entered.find? fun e => decide (e.thread = t)) = some e) :
    e.thread = t ∧ ∃ before after, s.entered = before ++ e :: after ∧
      (s.entered.eraseP fun e => decide (e.thread = t)) = before ++ after ∧ ∀ b ∈ before, b.thread ≠ t := by
  obtain ⟨mine, before, after, split, others⟩ := List.find?_eq_some_iff_append.mp found
  have apart (b : Entered τ) (inside : b ∈ before) : b.thread ≠ t := by simpa using others b inside
  refine ⟨of_decide_eq_true mine, before, after, split, ?_, apart⟩
  rw [split, List.eraseP_append_right _ fun b inside => by simpa using apart b inside]
  exact congrArg (before ++ ·) (List.eraseP_cons_of_pos mine)

omit [DecidableEq τ] in
theorem payloadThread {e : Entered τ} {p : Payload τ} (same : e.payload = some p) : p.thread = e.thread := by
  obtain ⟨t, call⟩ := e
  cases call with
  | send data =>
    cases same
    rfl
  | shutdown => exact absurd same.symm (Option.some_ne_none p)

omit [DecidableEq τ] in
theorem payloadsApart {before : List (Entered τ)} {t : Thread τ} (others : ∀ b ∈ before, b.thread ≠ t) :
    ∀ p ∈ before.filterMap Entered.payload, p.thread ≠ t := by
  intro p inside
  obtain ⟨e, member, same⟩ := List.mem_filterMap.mp inside
  rw [payloadThread same]
  exact others e member

/-! While it is open, every step keeps what was accepted in order. -/

theorem orderedSame (h : Ordered s) {after : Loop (Payload τ)}
    (accepted : after.conn.accepted = s.loop.conn.accepted) (queued : after.queued = s.loop.queued)
    (tasks : waiting after = waiting s.loop) : Ordered { s with loop := after } := by
  refine ⟨?_, ?_, by rw [tasks]; exact h.posted⟩
  · rw [accepted, queued]
    exact h.bytes
  · rw [queued, transit, tasks]
    exact h.delivers

-- A payload at the head of the tasks is written or buffered.
theorem orderedArrives (loop : Loop (Payload τ)) {calls : List (Payload τ)} {entered : List (Entered τ)}
    {p : Payload τ} (bytes : loop.conn.accepted = loop.queued.flatMap Payload.data)
    (delivers : Delivers Payload.thread calls loop.queued (p :: transit ⟨loop, calls, entered⟩))
    (posted : ∀ p ∈ waiting loop, p.thread ≠ .loop) {after : Loop (Payload τ)}
    (sent : Sent Payload.data loop after p) : Ordered ⟨after, calls, entered⟩ := by
  have tasks := SendOrder.waitingPosted loop sent.batch sent.posted
  refine ⟨?_, ?_, by rw [tasks]; exact posted⟩
  · rw [sent.accepted, sent.queued, bytes, List.flatMap_append, List.flatMap_singleton]
  · rw [sent.queued, transit, tasks]
    exact nextArrives delivers

omit [DecidableEq τ] in
theorem openSent {loop after : Loop (Payload τ)} {p : Payload τ} (sent : Sent Payload.data loop after p)
    (early : Posted.shutdown ∉ loop.batch ++ loop.pendingTasks) :
    Posted.shutdown ∉ after.batch ++ after.pendingTasks := by
  rw [sent.batch]
  rcases sent.posted with same | enables
  · rw [same]
    exact early
  · rw [enables, ← List.append_assoc, List.mem_append, not_or]
    exact ⟨early, by simp⟩

omit [DecidableEq τ] in
theorem waitingPost (loop : Loop (Payload τ)) (p : Payload τ) :
    waiting (runInLoop loop (.sendInLoop p)) = waiting loop ++ [p] := by
  simp [waiting, runInLoop]

omit [DecidableEq τ] in
theorem waitingShutdown (loop : Loop (Payload τ)) : waiting (runInLoop loop .shutdown) = waiting loop := by
  simp [waiting, runInLoop]

theorem openProceeds (h : Ordered s) (opened : Open s) {t : Thread τ} {e : Entered τ} {w : WriteResult}
    (found : (s.entered.find? fun e => decide (e.thread = t)) = some e) (works : w ≠ .error) :
    Flushing { s with
      loop := carryOn s.loop w e, entered := s.entered.eraseP fun e => decide (e.thread = t) } := by
  obtain ⟨mine, before, after, split, erased, others⟩ := enteredFound found
  have apart := payloadsApart others
  have here : e ∈ s.entered := split ▸ List.mem_append_right before List.mem_cons_self
  have sends (e : Entered τ) (inside : e ∈ before ++ after) : e.call ≠ .shutdown := by
    refine opened.sends e ?_
    rw [split]
    exact List.mem_append.mpr ((List.mem_append.mp inside).imp id (List.mem_cons_of_mem _))
  rw [erased]
  obtain ⟨t', call⟩ := e
  obtain rfl : t' = t := mine
  cases call with
  | shutdown => exact absurd rfl (opened.sends _ here)
  | send data =>
    have delivers := h.delivers
    rw [transit, split, List.filterMap_append] at delivers
    change Delivers Payload.thread s.calls s.loop.queued (waiting s.loop ++
      (before.filterMap Entered.payload ++ (⟨t', data⟩ : Payload τ) :: after.filterMap Entered.payload)) at delivers
    cases t' with
    | loop =>
      have sent := sendInLoopSent Payload.data opened.connected ⟨.loop, data⟩ works
      have alone : ∀ b ∈ waiting s.loop ++ before.filterMap Entered.payload, b.thread ≠ .loop :=
        fun b inside => (List.mem_append.mp inside).elim (h.posted b) (apart b)
      rw [← List.append_assoc] at delivers
      refine openFlushing ?_ ⟨sent.connected, ?_, openSent sent opened.early, sends⟩
      · refine orderedArrives s.loop h.bytes ?_ h.posted sent
        have moved := comesForward [] delivers alone
        rw [transit, List.filterMap_append, ← List.append_assoc]
        exact moved
      · exact (sendInLoopShutWr _ _ _ _).trans opened.shutWr
    | other t =>
      refine openFlushing ⟨h.bytes, ?_, ?_⟩ ⟨opened.connected, opened.shutWr, ?_, sends⟩
      · have moved := comesForward _ delivers apart
        rw [transit, carryOn, waitingPost, List.filterMap_append, List.append_assoc]
        exact moved
      · rw [carryOn, waitingPost]
        intro p inside
        rcases List.mem_append.mp inside with old | new
        · exact h.posted p old
        · rw [List.mem_singleton.mp new]
          nofun
      · simpa [carryOn, runInLoop] using opened.early

theorem openRuns (h : Ordered s) (opened : Open s) {t : Posted (Payload τ)} {rest : List (Posted (Payload τ))}
    (next : s.loop.batch = t :: rest) {w : WriteResult} (works : w ≠ .error) :
    Flushing { s with loop := runTask Payload.data { s.loop with batch := rest } w t } := by
  have early := opened.early
  rw [next, List.cons_append, List.mem_cons, not_or] at early
  cases t with
  | sendInLoop p =>
    have sent := sendInLoopSent Payload.data (s := { s.loop with batch := rest }) opened.connected p works
    have front : waiting s.loop = p :: waiting { s.loop with batch := rest } := by simp [waiting, next]
    have delivers := h.delivers
    rw [transit, front] at delivers
    have posted (q : Payload τ) (inside : q ∈ waiting { s.loop with batch := rest }) : q.thread ≠ .loop :=
      h.posted q (front ▸ List.mem_cons_of_mem p inside)
    have arrived := orderedArrives { s.loop with batch := rest } h.bytes delivers posted sent
    refine openFlushing arrived ⟨sent.connected, ?_, ?_, opened.sends⟩
    · exact (sendInLoopShutWr _ _ _ _).trans opened.shutWr
    · exact openSent sent early.2
  | enableWriting =>
    have tasks : waiting { s.loop with batch := rest } = waiting s.loop := by simp [waiting, next]
    simp only [runTask]
    split
    · exact openFlushing (orderedSame h rfl rfl tasks) ⟨opened.connected, opened.shutWr, early.2, opened.sends⟩
    · exact openFlushing (orderedSame h rfl rfl tasks) ⟨opened.connected, opened.shutWr, early.2, opened.sends⟩
  | shutdown => exact absurd rfl early.1

/-! After it nothing is in transit, so nothing is refused. -/

theorem closingSame (h : Ordered s) {after : Calling τ} (before : transit s = [])
    (state : after.loop.conn.state ≠ .connected) (nothing : transit after = [])
    (accepted : after.loop.conn.accepted = s.loop.conn.accepted) (queued : after.loop.queued = s.loop.queued)
    (calls : after.calls = s.calls) (finished : Finished after.loop.conn) : Flushing after := by
  have delivers := h.delivers
  rw [before] at delivers
  refine ⟨⟨?_, ?_, ?_⟩, .inr ⟨state, nothing⟩, finished⟩
  · rw [accepted, queued]
    exact h.bytes
  · rw [calls, queued, nothing]
    exact delivers
  · rw [(List.append_eq_nil_iff.mp nothing).1]
    nofun

theorem shutdownFlushing (h : Flushing s) (t : Thread τ) (nothing : transit s = []) :
    Flushing { s with loop := setState s.loop .disconnecting, entered := s.entered ++ [⟨t, .shutdown⟩] } := by
  refine closingSame h.ordered nothing State.noConfusion ?_ rfl rfl rfl h.finished
  rw [transit, List.filterMap_append]
  exact (congrArg (waiting s.loop ++ ·) (List.append_nil _)).trans nothing

theorem endedFlushing (h : Flushing s) (nothing : transit s = []) :
    Flushing { s with loop := handleRead s.loop .eof } :=
  closingSame h.ordered nothing State.noConfusion nothing rfl rfl rfl h.finished

theorem openStep (h : Flushing s) (opened : Open s) (input : Input τ) (nothing : NothingInTransit s input) :
    Flushing (step s input) := by
  have ordered := h.ordered
  cases input with
  | send t data =>
    rw [step]
    split
    · exact h
    rw [if_pos opened.connected]
    have whole : transit { s with calls := s.calls ++ [⟨t, data⟩], entered := s.entered ++ [⟨t, .send data⟩] } =
        transit s ++ [⟨t, data⟩] := by
      rw [transit, transit, List.filterMap_append, List.append_assoc]
      rfl
    refine openFlushing ⟨ordered.bytes, ?_, ordered.posted⟩ ⟨opened.connected, opened.shutWr, opened.early, ?_⟩
    · rw [whole]
      exact sentLast ordered.delivers _
    · intro e inside
      rcases List.mem_append.mp inside with old | new
      · exact opened.sends e old
      · rw [List.mem_singleton.mp new]
        nofun
  | shutdown t =>
    rw [step]
    split
    · exact h
    · rename_i free
      exact shutdownFlushing h t (nothing free)
  | proceed t w works =>
    rw [step]
    cases found : s.entered.find? fun e => decide (e.thread = t) with
    | none => exact h
    | some e => exact openProceeds ordered opened found works
  | processTasks =>
    rw [step]
    split
    · rename_i idle
      have early := opened.early
      rw [idle.2] at early
      have tasks : waiting { s.loop with batch := s.loop.pendingTasks, pendingTasks := [] } = waiting s.loop := by
        simp [waiting, idle.2]
      exact openFlushing (orderedSame ordered rfl rfl tasks)
        ⟨opened.connected, opened.shutWr, by simpa using early, opened.sends⟩
    · exact h
  | runTask w works =>
    rw [step]
    split
    · exact h
    cases next : s.loop.batch with
    | nil => exact h
    | cons t rest => exact openRuns ordered opened next works
  | read result works =>
    rw [step]
    split
    · rename_i reports
      cases result with
      | data chunk => exact ⟨orderedSame ordered rfl rfl rfl, .inl ⟨opened.connected, opened.shutWr, opened.early,
          opened.sends⟩, h.finished⟩
      | eof => exact endedFlushing h (nothing reports)
      | again => exact h
      | error => exact absurd rfl works
    · exact h
  | writable writes work =>
    rw [step]
    split
    · have wrote := wroteWorks s.loop work
      have tasks : waiting (handleWrite s.loop writes) = waiting s.loop := by
        rw [waiting, waiting, wrote.batch, wrote.pendingTasks]
      refine openFlushing (orderedSame ordered wrote.accepted wrote.queued tasks)
        ⟨wrote.state.trans opened.connected, ?_, ?_, opened.sends⟩
      · refine Bool.eq_false_iff.mpr fun shut => ?_
        rcases wrote.shutWr shut with before | closing
        · rw [opened.shutWr] at before
          contradiction
        · rw [opened.connected] at closing
          contradiction
      · rw [wrote.batch, wrote.pendingTasks]
        exact opened.early
    · exact h

-- What is left of a call then is the posting of a shutdown.
theorem closingProceeds (h : Flushing s) (closing : Closing s) {t : Thread τ} {e : Entered τ} (w : WriteResult)
    (found : (s.entered.find? fun e => decide (e.thread = t)) = some e) : Flushing { s with
      loop := carryOn s.loop w e, entered := s.entered.eraseP fun e => decide (e.thread = t) } := by
  obtain ⟨-, before, after, split, erased, -⟩ := enteredFound found
  obtain ⟨tasks, entered⟩ := List.append_eq_nil_iff.mp closing.nothing
  rw [split, List.filterMap_append] at entered
  obtain ⟨first, last⟩ := List.append_eq_nil_iff.mp entered
  rw [erased]
  obtain ⟨t', call⟩ := e
  cases call with
  | send data => exact absurd last (List.cons_ne_nil _ _)
  | shutdown =>
    have posted : carryOn s.loop w ⟨t', .shutdown⟩ = runInLoop s.loop .shutdown := by cases t' <;> rfl
    rw [posted]
    refine closingSame h.ordered closing.nothing closing.state ?_ rfl rfl rfl h.finished
    rw [transit, waitingShutdown, tasks, List.filterMap_append, first]
    exact last

theorem closingRuns (h : Flushing s) (closing : Closing s) {t : Posted (Payload τ)}
    {rest : List (Posted (Payload τ))} (next : s.loop.batch = t :: rest) (w : WriteResult) :
    Flushing { s with loop := runTask Payload.data { s.loop with batch := rest } w t } := by
  obtain ⟨tasks, entered⟩ := List.append_eq_nil_iff.mp closing.nothing
  rw [waiting, next] at tasks
  cases t with
  | sendInLoop p => simp at tasks
  | enableWriting =>
    have left : waiting { s.loop with batch := rest } = [] := by simpa [waiting] using tasks
    have nothing := List.append_eq_nil_iff.mpr ⟨left, entered⟩
    simp only [runTask]
    split
    · exact closingSame h.ordered closing.nothing closing.state nothing rfl rfl rfl h.finished
    · exact closingSame h.ordered closing.nothing closing.state nothing rfl rfl rfl h.finished
  | shutdown =>
    have left : waiting { s.loop with batch := rest } = [] := by simpa [waiting] using tasks
    have kept := TcpConnection.finishKeeps s.loop.conn
    refine closingSame h.ordered closing.nothing ?_ (List.append_eq_nil_iff.mpr ⟨left, entered⟩) kept.2 rfl rfl
      (finishedFinish h.finished)
    exact fun connected => closing.state (kept.1.symm.trans connected)

theorem closingStep (h : Flushing s) (closing : Closing s) (input : Input τ) : Flushing (step s input) := by
  have nothing := closing.nothing
  cases input with
  | send t data =>
    rw [step, if_neg closing.state, ite_self]
    exact h
  | shutdown t =>
    rw [step]
    split
    · exact h
    · exact shutdownFlushing h t nothing
  | proceed t w works =>
    rw [step]
    cases found : s.entered.find? fun e => decide (e.thread = t) with
    | none => exact h
    | some e => exact closingProceeds h closing w found
  | processTasks =>
    rw [step]
    split
    · rename_i idle
      refine closingSame h.ordered nothing closing.state ?_ rfl rfl rfl h.finished
      rw [transit, waiting, idle.2] at nothing
      simpa [transit, waiting] using nothing
    · exact h
  | runTask w works =>
    rw [step]
    split
    · exact h
    cases next : s.loop.batch with
    | nil => exact h
    | cons t rest => exact closingRuns h closing next w
  | read result works =>
    rw [step]
    split
    · cases result with
      | data chunk => exact closingSame h.ordered nothing closing.state nothing rfl rfl rfl h.finished
      | eof => exact endedFlushing h nothing
      | again => exact h
      | error => exact absurd rfl works
    · exact h
  | writable writes work =>
    rw [step]
    split
    · have wrote := wroteWorks s.loop work
      refine closingSame h.ordered nothing ?_ ?_ wrote.accepted wrote.queued rfl (wrote.finished h.finished)
      · exact fun connected => closing.state (wrote.state.symm.trans connected)
      · rw [transit, waiting, wrote.batch, wrote.pendingTasks]
        exact nothing
    · exact h

theorem flushingStep (h : Flushing s) {input : Input τ} (nothing : NothingInTransit s input) :
    Flushing (step s input) := by
  rcases h.phase with opened | closing
  · exact openStep h opened input nothing
  · exact closingStep h closing input

/-! A payload in transit when the state changes: its task will find it changed. -/

omit [DecidableEq τ] in
theorem refused {s : Calling τ} (state : s.loop.conn.state ≠ .connected) (p : Payload τ) : ¬ TakenWhenRun s p := by
  intro taken
  have same : (sendInLoop Payload.data s.loop p .again).queued = s.loop.queued := by
    rw [sendInLoop, TcpConnection.sendInLoop, if_pos state, if_neg fun sent => state sent.1]
    rfl
  have queued := taken .again WriteResult.noConfusion
  rw [same] at queued
  simp at queued

theorem transitDropped {input : Input τ} (lost : ¬ NothingInTransit s input) : ¬ Kept (step s input) := by
  intro kept
  cases input with
  | shutdown t =>
    obtain ⟨free, left⟩ := Classical.not_imp.mp lost
    rw [step, if_neg free] at kept
    obtain ⟨p, inside⟩ := List.exists_mem_of_ne_nil _ left
    refine refused State.noConfusion p (kept.taken p ?_)
    rw [transit, List.filterMap_append]
    exact List.mem_append.mpr ((List.mem_append.mp inside).imp id (List.mem_append_left _))
  | read result works =>
    cases result with
    | eof =>
      obtain ⟨reports, left⟩ := Classical.not_imp.mp lost
      rw [step, if_pos reports] at kept
      obtain ⟨p, inside⟩ := List.exists_mem_of_ne_nil _ left
      exact refused State.noConfusion p (kept.taken p inside)
    | data | again | error => exact lost trivial
  | send | proceed | processTasks | runTask | writable => exact lost trivial

theorem shutdownKeeps (fd : Int) (inputs : List (Input τ)) :
    Always step Kept (start fd) inputs ↔ Throughout step NothingInTransit (start fd) inputs :=
  alwaysExact (fun _ _ h => flushingStep h) (fun _ => flushingKept) (fun _ _ _ => transitDropped)
    (flushingStart fd)
end

/-! A payload from another thread, and shutdown() before its task has run. -/
def postedThenShut : List (Input Unit) :=
  [.send (.other ()) [1], .proceed (.other ()) .again (by decide), .shutdown .loop]

theorem postedSendLost :
    ¬ ∀ (fd : Int) (inputs : List (Input Unit)), Always step Kept (start fd) inputs := by
  intro always
  have lost : ¬ NothingInTransit (run step (start 7) (postedThenShut.take 2)) (.shutdown (.loop : Thread Unit)) :=
    fun meets => absurd (meets (by decide)) (by decide)
  exact transitDropped lost (alwaysLast (always 7 postedThenShut))

end RtspRelay.GracefulShutdown
