import RtspRelay.ConnectionLoop
import RtspRelay.ApiRequests

/-! An HTTP connection and its server. Every request that onMessage decodes runs its
handler, sends the response and shuts the connection down; the loop goes on with what
is left in the buffer. The connection is only watched for reading. -/
namespace RtspRelay.PipelinedRequests
open Machine Buffer Connection ConnectionLoop Routing StreamDecoder Decoders Transition
open HttpMessage (HttpRequest httpGrammar)
open Protocol (HeaderOrder)

structure Answer where
  request : HttpRequest
  text : Bytes

-- `writes` are the results that the write() of each response will have.
structure Serving (σ : Type) where
  app : σ
  loop : Loop Answer
  executed : List Answer
  writes : List WriteResult
  fault : Option Exn

inductive Input where
  | readable (r : ReadResult)
  | processTasks
  | runTask (w : WriteResult)

section
variable {σ : Type} (server : HttpServer σ) (order : HeaderOrder)

def start (app : σ) (fd : Nat) (writes : List WriteResult) : Serving σ :=
  ⟨app, ConnectionLoop.start fd, [], writes, none⟩

namespace Serving

def nextWrite (s : Serving σ) : WriteResult := s.writes.headD .again

def setLoop (s : Serving σ) (loop : Loop Answer) : Serving σ := { s with loop := loop }

def answer (s : Serving σ) (req : HttpRequest) : Answer :=
  ⟨req, (Routing.dispatch server s.app req).2.serialize order⟩

def dispatch (s : Serving σ) (req : HttpRequest) : Serving σ :=
  { s with
    app := (Routing.dispatch server s.app req).1
    loop := shutdown (send Answer.text s.loop (s.answer server order req) s.nextWrite)
    executed := s.executed ++ [s.answer server order req]
    writes := s.writes.tail }

def setInput (s : Serving σ) (buf : ByteBuffer) : Serving σ :=
  s.setLoop { s.loop with conn := { s.loop.conn with inputBuf := buf } }

-- An exception ends the program.
def onMessage (s : Serving σ) : Serving σ :=
  let out := Decoders.onMessage (dispatch server order) s s.loop.conn.inputBuf
  match out.2 with
  | .ok buf => out.1.setInput buf
  | .error e => { out.1 with fault := some e }

def readOnce (s : Serving σ) (r : ReadResult) : Serving σ :=
  let read := s.setLoop (handleRead s.loop r)
  match r with
  | .data _ => read.onMessage server order
  | _ => read

-- A closed connection reads nothing.
def step (s : Serving σ) (input : Input) : Serving σ :=
  if s.fault = none then
    match input with
    | .readable r => if 0 ≤ s.loop.conn.fd then s.readOnce server order r else s
    | .processTasks => s.setLoop (ConnectionLoop.step Answer.text s.loop .processTasks)
    | .runTask w => s.setLoop (ConnectionLoop.step Answer.text s.loop (.runTask w))
  else s

end Serving

-- What the handlers of the answered requests make of the application.
def effects (app : σ) (answers : List Answer) : σ :=
  answers.foldl (fun app answer => (Routing.dispatch server app answer.request).1) app

structure Answered (app : σ) (s : Serving σ) : Prop where
  sent : s.loop.queued = s.executed
  bytes : s.loop.conn.accepted = s.executed.flatMap Answer.text
  effects : s.app = effects server app s.loop.queued

def completed (s : Serving σ) (chunk : Bytes) : List HttpRequest :=
  (decode (messageDecoder httpGrammar) (s.loop.conn.inputBuf.content ++ chunk)).1

-- At most one request is complete, on a connected connection that takes the response.
def OneRequest (s : Serving σ) : Input → Prop
  | .readable (.data chunk) => s.fault = none → 0 ≤ s.loop.conn.fd → completed s chunk ≠ [] →
      s.loop.conn.state = .connected ∧ (completed s chunk).length = 1 ∧ s.nextWrite ≠ .error
  | _ => True
end

/-! A request behind the end of sending runs its handler all the same. -/
section
variable {σ : Type}

theorem onMessageRuns {τ : Type} (handle : τ → HttpRequest → τ) (s : τ) (buf : ByteBuffer) :
    observed (Decoders.onMessage handle s buf) =
      ((decode (messageDecoder httpGrammar) buf.content).1.foldl handle s,
        (decode (messageDecoder httpGrammar) buf.content).2) := by
  rw [Decoders.onMessage, requestLoopDecoder]
  exact bufferLoopDecodes (messageDecoder httpGrammar) handle s buf

/-! onMessage is the handlers of the decoded requests; the rest stays in the buffer. -/
structure Dispatched (server : HttpServer σ) (order : HeaderOrder) (s after : Serving σ)
    (requests : List HttpRequest) : Prop where
  app : after.app = (requests.foldl (Serving.dispatch server order) s).app
  executed : after.executed = (requests.foldl (Serving.dispatch server order) s).executed
  queued : after.loop.queued = (requests.foldl (Serving.dispatch server order) s).loop.queued
  state : after.loop.conn.state = (requests.foldl (Serving.dispatch server order) s).loop.conn.state
  accepted : after.loop.conn.accepted =
    (requests.foldl (Serving.dispatch server order) s).loop.conn.accepted
  batch : after.loop.batch = (requests.foldl (Serving.dispatch server order) s).loop.batch
  pendingTasks : after.loop.pendingTasks =
    (requests.foldl (Serving.dispatch server order) s).loop.pendingTasks

section
variable (server : HttpServer σ) (order : HeaderOrder)

theorem readDispatched (s : Serving σ) (chunk : Bytes) :
    Dispatched server order (s.setLoop (handleRead s.loop (.data chunk)))
      (s.readOnce server order (.data chunk)) (completed s chunk) := by
  let read := s.setLoop (handleRead s.loop (.data chunk))
  have content : read.loop.conn.inputBuf.content = s.loop.conn.inputBuf.content ++ chunk :=
    ByteBuffer.appendContent _ chunk
  have runs := congrArg Prod.fst (onMessageRuns (Serving.dispatch server order) read read.loop.conn.inputBuf)
  rw [content] at runs
  have states : (Decoders.onMessage (Serving.dispatch server order) read read.loop.conn.inputBuf).1 =
      (completed s chunk).foldl (Serving.dispatch server order) read := runs
  show Dispatched server order read (read.onMessage server order) (completed s chunk)
  unfold Serving.onMessage
  dsimp only
  rw [states]
  split <;> exact ⟨rfl, rfl, rfl, rfl, rfl, rfl, rfl⟩

theorem dispatchState (s : Serving σ) (req : HttpRequest) :
    (s.dispatch server order req).loop.conn.state ≠ .connected := nofun

theorem dispatchLate {s : Serving σ} (late : s.loop.conn.state ≠ .connected) (req : HttpRequest) :
    (s.dispatch server order req).loop.queued = s.loop.queued := by
  simp only [Serving.dispatch, send, if_neg late, shutdown, runInLoop]

theorem lateQueued {s : Serving σ} (late : s.loop.conn.state ≠ .connected) (requests : List HttpRequest) :
    (requests.foldl (Serving.dispatch server order) s).loop.queued = s.loop.queued := by
  induction requests generalizing s with
  | nil => rfl
  | cons req rest ih => exact (ih (dispatchState server order s req)).trans (dispatchLate server order late req)

theorem executedLength (s : Serving σ) (requests : List HttpRequest) :
    (requests.foldl (Serving.dispatch server order) s).executed.length =
      s.executed.length + requests.length := by
  induction requests generalizing s with
  | nil => rfl
  | cons req rest ih =>
    rw [List.foldl_cons, ih, Serving.dispatch]
    simp only [List.length_append, List.length_cons, List.length_nil]
    omega

/-! The one send that can succeed. -/

theorem dispatchSent {s : Serving σ} (connected : s.loop.conn.state = .connected) (req : HttpRequest)
    (works : s.nextWrite ≠ .error) :
    (s.dispatch server order req).loop.queued = s.loop.queued ++ [s.answer server order req] ∧
      (s.dispatch server order req).loop.conn.accepted =
        s.loop.conn.accepted ++ (s.answer server order req).text := by
  have sent := sendInLoopSent Answer.text connected (s.answer server order req) works
  simp only [Serving.dispatch, send, if_pos connected]
  exact ⟨sent.queued, sent.accepted⟩

theorem failedQueued {s : Serving σ} (connected : s.loop.conn.state = .connected)
    (empty : s.loop.conn.outputBuf.content = []) (fails : s.nextWrite = .error) (req : HttpRequest) :
    (s.dispatch server order req).loop.queued = s.loop.queued := by
  have out := TcpConnection.sendError connected empty (s.answer server order req).text
  simp only [Serving.dispatch, send, if_pos connected, shutdown, runInLoop, sendInLoop, fails, out, ne_eq,
    not_true_eq_false, and_false, if_false, settle, closed]

end

/-! The connection before its first request, and every later state. -/

structure Untouched (s : Serving σ) : Prop where
  connected : s.loop.conn.state = .connected
  executed : s.executed = []
  batch : s.loop.batch = []
  pendingTasks : s.loop.pendingTasks = []

structure Served (server : HttpServer σ) (app : σ) (s : Serving σ) : Prop where
  answered : Answered server app s
  phase : Untouched s ∨ s.loop.conn.state ≠ .connected

theorem servedStart (server : HttpServer σ) (app : σ) (fd : Nat) (writes : List WriteResult) :
    Served server app (start app fd writes) :=
  ⟨⟨rfl, rfl, rfl⟩, .inl ⟨rfl, rfl, rfl, rfl⟩⟩

section
variable {server : HttpServer σ} {order : HeaderOrder} {app : σ} {s : Serving σ}

theorem untouchedOutput (h : Answered server app s) (first : Untouched s) :
    s.loop.conn.outputBuf.content = [] := by
  have accepted : s.loop.conn.accepted = [] := by rw [h.bytes, first.executed]; rfl
  exact (List.append_eq_nil_iff.mp accepted).2

theorem servedNothing {after : Serving σ} (h : Served server app s)
    (same : Dispatched server order s after []) : Served server app after := by
  refine ⟨⟨?_, ?_, ?_⟩, h.phase.imp (fun first => ⟨?_, ?_, ?_, ?_⟩) fun late => ?_⟩
  · rw [same.queued, same.executed]
    exact h.answered.sent
  · rw [same.accepted, same.executed]
    exact h.answered.bytes
  · rw [same.app, same.queued]
    exact h.answered.effects
  · exact same.state.trans first.connected
  · exact same.executed.trans first.executed
  · exact same.batch.trans first.batch
  · exact same.pendingTasks.trans first.pendingTasks
  · rw [same.state]
    exact late

theorem servedOne {after : Serving σ} {req : HttpRequest} (h : Served server app s)
    (connected : s.loop.conn.state = .connected) (works : s.nextWrite ≠ .error)
    (one : Dispatched server order s after [req]) : Served server app after := by
  have sent := dispatchSent server order connected req works
  refine ⟨⟨?_, ?_, ?_⟩, .inr ?_⟩
  · rw [one.queued, one.executed]
    exact sent.1.trans (congrArg (· ++ _) h.answered.sent)
  · rw [one.accepted, one.executed]
    refine sent.2.trans ?_
    rw [h.answered.bytes]
    simp [Serving.dispatch]
  · rw [one.app, one.queued]
    show (Routing.dispatch server s.app req).1 = effects server app (s.dispatch server order req).loop.queued
    rw [sent.1, effects, List.foldl_append, h.answered.effects]
    rfl
  · rw [one.state]
    exact dispatchState server order s req

/-! A turn of the loop that leaves what has been sent and executed. -/
theorem servedLoop (h : Served server app s) {loop : Loop Answer} (queued : loop.queued = s.loop.queued)
    (accepted : loop.conn.accepted = s.loop.conn.accepted)
    (phase : (s.loop.conn.state = .connected → loop.conn.state = .connected ∧ loop.batch = s.loop.batch ∧
        loop.pendingTasks = s.loop.pendingTasks) ∨ loop.conn.state ≠ .connected)
    (late : s.loop.conn.state ≠ .connected → loop.conn.state ≠ .connected) :
    Served server app (s.setLoop loop) := by
  refine ⟨⟨queued.trans h.answered.sent, accepted.trans h.answered.bytes, ?_⟩, ?_⟩
  · have same := h.answered.effects
    rwa [← queued] at same
  · rcases h.phase with first | behind
    · rcases phase with stays | ended
      · obtain ⟨connected, batch, pendingTasks⟩ := stays first.connected
        exact .inl ⟨connected, first.executed, batch.trans first.batch, pendingTasks.trans first.pendingTasks⟩
      · exact .inr ended
    · exact .inr (late behind)

theorem readKept (h : Served server app s) (r : ReadResult) :
    Served server app (s.setLoop (handleRead s.loop r)) := by
  cases r with
  | data chunk => exact servedLoop h rfl rfl (.inl fun connected => ⟨connected, rfl, rfl⟩) id
  | again => exact servedLoop h rfl rfl (.inl fun connected => ⟨connected, rfl, rfl⟩) id
  | eof => exact servedLoop h rfl rfl (.inr nofun) nofun
  | error => exact servedLoop h rfl rfl (.inr nofun) nofun

/-! No task is posted in front of the first request, and behind it none can send. -/
theorem taskKept (h : Served server app s) (w : WriteResult) :
    Served server app (s.setLoop (ConnectionLoop.step Answer.text s.loop (.runTask w))) := by
  rcases h.phase with first | late
  · simp only [ConnectionLoop.step, first.batch]
    exact h
  · simp only [ConnectionLoop.step]
    split
    · exact h
    · rename_i t rest next
      have taken : Served server app (s.setLoop { s.loop with batch := rest }) :=
        servedLoop h rfl rfl (.inl fun connected => absurd connected late) id
      cases t with
      | sendInLoop answer =>
        simp only [runTask, sendInLoop, TcpConnection.sendInLoop, if_pos late, settle, late, false_and, if_false]
        exact taken
      | enableWriting =>
        simp only [runTask]
        split
        · exact taken
        · exact servedLoop taken rfl rfl (.inl fun connected => absurd connected late) id
      | shutdown =>
        have kept := s.loop.conn.finishKeeps
        refine servedLoop taken rfl kept.2 (.inl fun connected => absurd connected late) fun _ => ?_
        rw [← kept.1] at late
        exact late

theorem servedStep {input : Input} (h : Served server app s) (one : OneRequest s input) :
    Served server app (s.step server order input) := by
  unfold Serving.step
  split
  · rename_i works
    cases input with
    | readable r =>
      dsimp only
      split
      · rename_i live
        cases r with
        | data chunk =>
          have read := readKept h (.data chunk)
          have dispatched := readDispatched server order s chunk
          rcases Decidable.em (completed s chunk = []) with none | some
          · rw [none] at dispatched
            exact servedNothing read dispatched
          · obtain ⟨connected, single, takes⟩ := one works live some
            obtain ⟨req, only⟩ := List.length_eq_one_iff.mp single
            rw [only] at dispatched
            exact servedOne read connected takes dispatched
        | eof => exact readKept h .eof
        | again => exact readKept h .again
        | error => exact readKept h .error
      · exact h
    | processTasks =>
      simp only [ConnectionLoop.step]
      split
      · rename_i empty
        rcases h.phase with first | late
        · have nothing : s.loop.pendingTasks = s.loop.batch := first.pendingTasks.trans empty.symm
          exact servedLoop h rfl rfl (.inl fun connected => ⟨connected, nothing, first.pendingTasks.symm⟩) id
        · exact servedLoop h rfl rfl (.inl fun connected => absurd connected late) id
      · exact h
    | runTask w => exact taskKept h w
  · exact h

/-! Otherwise more handlers run than responses are accepted. -/
theorem unanswered (order : HeaderOrder) (req : HttpRequest) (rest : List HttpRequest) (h : Served server app s)
    (dropped : ¬ (s.loop.conn.state = .connected ∧ rest = [] ∧ s.nextWrite ≠ .error)) :
    ((req :: rest).foldl (Serving.dispatch server order) s).loop.queued.length <
      ((req :: rest).foldl (Serving.dispatch server order) s).executed.length := by
  have executed := executedLength server order s (req :: rest)
  have queued := lateQueued server order (dispatchState server order s req) rest
  have same := congrArg List.length h.answered.sent
  rw [executed, List.foldl_cons, queued, List.length_cons]
  rcases h.phase with first | late
  · have empty := untouchedOutput h.answered first
    by_cases fails : s.nextWrite = .error
    · rw [failedQueued server order first.connected empty fails]
      omega
    · have more : rest ≠ [] := fun none => dropped ⟨first.connected, none, fails⟩
      have positive := List.length_pos_of_ne_nil more
      rw [(dispatchSent server order first.connected req fails).1, List.length_append, List.length_singleton]
      omega
  · rw [dispatchLate server order late]
    omega

theorem unansweredStep {input : Input} (h : Served server app s) (more : ¬ OneRequest s input) :
    ¬ Answered server app (s.step server order input) := by
  cases input with
  | processTasks | runTask => exact absurd trivial more
  | readable r =>
    cases r with
    | eof | again | error => exact absurd trivial more
    | data chunk =>
      intro answered
      simp only [OneRequest, not_forall] at more
      obtain ⟨works, live, some, dropped⟩ := more
      simp only [Serving.step, if_pos works, if_pos live] at answered
      have dispatched := readDispatched server order s chunk
      obtain ⟨req, rest, requests⟩ := List.exists_cons_of_ne_nil some
      have fewer := unanswered order req rest (readKept h (.data chunk))
        fun ⟨connected, alone, takes⟩ => dropped ⟨connected, by rw [requests, alone]; rfl, takes⟩
      rw [← requests, ← dispatched.queued, ← dispatched.executed, answered.sent] at fewer
      exact Nat.lt_irrefl _ fewer

theorem executedAnswered (app : σ) (fd : Nat) (writes : List WriteResult) (inputs : List Input) :
    Always (Serving.step server order) (Answered server app) (start app fd writes) inputs ↔
      Throughout (Serving.step server order) OneRequest (start app fd writes) inputs :=
  alwaysExact (fun _ _ h => servedStep h) (fun _ h => h.answered) (fun _ _ h => unansweredStep h)
    (servedStart server app fd writes)
end
end

/-! Two streams posted in one buffer: both are added, one is answered. -/

def postText (body : Bytes) : Bytes :=
  ascii "POST /api/streams HTTP/1.1\r\nContent-Length: " ++ decimal body.length ++ ascii "\r\n\r\n" ++ body

def pipelined : Bytes :=
  postText (ascii "\x7b\"path\":\"/a\",\"upstream\":\"rtsp://h/a\"\x7d") ++
    postText (ascii "\x7b\"path\":\"/b\",\"upstream\":\"rtsp://h/b\"\x7d")

theorem pipelinedUnanswered :
    ¬ ∀ (server : HttpServer Service.Relay) (order : HeaderOrder) (app : Service.Relay) (fd : Nat)
        (writes : List WriteResult) (inputs : List Input),
      Always (Serving.step server order) (Answered server app) (start app fd writes) inputs := by
  intro always
  have answered := (always (StreamApi.registerHttpRoutes StreamApi.oldestFirst 8554 ApiRequests.offline)
    Protocol.insertionOrder (ApiRequests.fresh 500) 7 [] [.readable (.data pipelined)]).2
  have one : OneRequest (start (ApiRequests.fresh 500) 7 []) (.readable (.data pipelined)) :=
    Classical.byContradiction fun several => unansweredStep (servedStart _ _ 7 []) several answered
  have two : (decode (messageDecoder httpGrammar) pipelined).1.length = 2 := by decide +kernel
  have some : (decode (messageDecoder httpGrammar) pipelined).1 ≠ [] := fun none => by
    rw [none] at two
    contradiction
  have single := (one rfl (by decide) some).2.1
  exact absurd (two.symm.trans single) (by decide)

end RtspRelay.PipelinedRequests
