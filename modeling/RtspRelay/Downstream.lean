import RtspRelay.ConnectionLoop
import RtspRelay.Session

/-! The bytes a player's connection carries when the packets come from another
thread: a packet is posted as a header and a payload, while a response is sent
directly by an fd event of the connection's loop. The connection stays
connected. -/
namespace RtspRelay.Downstream
open Machine Protocol Session Connection ConnectionLoop Transition

structure Frame where
  channel : UInt8
  data : Bytes
  deriving DecidableEq, Repr

inductive Piece where
  | header (f : Frame)
  | payload (f : Frame)
  | response (msg : RtspMessage)

inductive DownUnit where
  | frame (f : Frame)
  | response (msg : RtspMessage)

def pieces (units : List DownUnit) : List Piece :=
  units.flatMap fun
    | .frame f => [.header f, .payload f]
    | .response msg => [.response msg]

-- `midFrame`: the source's thread has posted this header but not yet its payload.
structure Link where
  loop : Loop Piece
  midFrame : Option Frame

inductive Input where
  | header (f : Frame)
  | payload
  | processTasks
  | runTask (w : WriteResult) (works : w ≠ .error)
  | respond (msg : RtspMessage) (w : WriteResult) (works : w ≠ .error)

variable (order : HeaderOrder)

def pieceBytes : Piece → Bytes
  | .header f => interleavedHeader f.channel f.data.length
  | .payload f => f.data
  | .response msg => serialize order msg

def start (fd : Int) : Link := ⟨ConnectionLoop.start fd, none⟩

-- The fd events come after the batch.
def step (s : Link) : Input → Link
  | .header f => match s.midFrame with
    | none => ⟨ConnectionLoop.step (pieceBytes order) s.loop (.post (.header f)), some f⟩
    | some _ => s
  | .payload => match s.midFrame with
    | none => s
    | some f => ⟨ConnectionLoop.step (pieceBytes order) s.loop (.post (.payload f)), none⟩
  | .processTasks =>
    { s with loop := ConnectionLoop.step (pieceBytes order) s.loop .processTasks }
  | .runTask w _ => { s with loop := ConnectionLoop.step (pieceBytes order) s.loop (.runTask w) }
  | .respond msg w _ =>
    if s.loop.batch = [] then
      { s with loop := ConnectionLoop.step (pieceBytes order) s.loop (.send (.response msg) w) }
    else s

-- Whole units, after which the header of the next frame may stand.
def Whole (queued : List Piece) : Prop :=
  ∃ units tail, (tail = [] ∨ ∃ f, tail = [.header f]) ∧ queued = pieces units ++ tail

structure CarriesUnits (s : Link) : Prop where
  whole : Whole s.loop.queued
  bytes : s.loop.conn.accepted = s.loop.queued.flatMap (pieceBytes order)

def sends (tasks : List (Posted Piece)) : List Piece :=
  tasks.filterMap fun
    | .sendInLoop d => some d
    | _ => none

-- What is posted, or about to be, and not queued yet.
def future (s : Link) : List Piece :=
  sends (s.loop.batch ++ s.loop.pendingTasks) ++ (s.midFrame.map .payload).toList

-- The loop has queued a header whose payload it has not been given.
def Split (s : Link) : Prop := ∃ f rest, future s = .payload f :: rest

def RespondsBetween (s : Link) : Input → Prop
  | .respond _ _ _ => s.loop.batch = [] → ¬ Split s
  | _ => True

theorem piecesAppend (us vs : List DownUnit) : pieces (us ++ vs) = pieces us ++ pieces vs :=
  List.flatMap_append

/-! The queue and the future are cut at the same place: between two units, or
both between a header and its payload. -/
structure Aligned (s : Link) : Prop where
  connected : s.loop.conn.state = .connected
  bytes : s.loop.conn.accepted = s.loop.queued.flatMap (pieceBytes order)
  cut : ∃ (units : List DownUnit) (frames : List Frame),
    (s.loop.queued = pieces units ∧ future s = pieces (frames.map .frame)) ∨
    ∃ f, s.loop.queued = pieces units ++ [.header f] ∧
      future s = .payload f :: pieces (frames.map .frame)

theorem alignedStart (fd : Int) : Aligned order (start fd) := ⟨rfl, rfl, [], [], .inl ⟨rfl, rfl⟩⟩

theorem alignedWhole {s : Link} (h : Aligned order s) : CarriesUnits order s := by
  refine ⟨?_, h.bytes⟩
  obtain ⟨units, frames, ⟨queued, _⟩ | ⟨f, queued, _⟩⟩ := h.cut
  · exact ⟨units, [], .inl rfl, by rw [queued, List.append_nil]⟩
  · exact ⟨units, [.header f], .inr ⟨f, rfl⟩, queued⟩

theorem alignedSame {s after : Link} (h : Aligned order s) (conn : after.loop.conn = s.loop.conn)
    (queued : after.loop.queued = s.loop.queued) (same : future after = future s) :
    Aligned order after := by
  refine ⟨by rw [conn]; exact h.connected, by rw [conn, queued]; exact h.bytes, ?_⟩
  rw [queued, same]
  exact h.cut

/-! What is still to come, behind each of the posts. -/

theorem headerFuture {s : Link} (idle : s.midFrame = none) (f : Frame) :
    future ⟨runInLoop s.loop (.sendInLoop (.header f)), some f⟩ = future s ++ pieces [.frame f] := by
  simp [future, runInLoop, idle, sends, pieces]

theorem payloadFuture {s : Link} {f : Frame} (mid : s.midFrame = some f) :
    future ⟨runInLoop s.loop (.sendInLoop (.payload f)), none⟩ = future s := by
  simp [future, runInLoop, mid, sends]

theorem swapFuture {s : Link} (empty : s.loop.batch = []) :
    future { s with loop := { s.loop with batch := s.loop.pendingTasks, pendingTasks := [] } } = future s := by
  simp [future, empty]

theorem alignedHeader {s : Link} (h : Aligned order s) (f : Frame) :
    Aligned order (step order s (.header f)) := by
  simp only [step]
  split
  · rename_i idle
    simp only [ConnectionLoop.step, post, if_pos h.connected]
    refine ⟨h.connected, h.bytes, ?_⟩
    obtain ⟨units, frames, ⟨queued, ahead⟩ | ⟨g, queued, ahead⟩⟩ := h.cut
    · refine ⟨units, frames ++ [f], .inl ⟨queued, ?_⟩⟩
      rw [headerFuture idle, ahead, List.map_append, piecesAppend]
      rfl
    · refine ⟨units, frames ++ [f], .inr ⟨g, queued, ?_⟩⟩
      rw [headerFuture idle, ahead, List.map_append, piecesAppend]
      rfl
  · exact h

theorem alignedPayload {s : Link} (h : Aligned order s) : Aligned order (step order s .payload) := by
  simp only [step]
  split
  · exact h
  · rename_i f mid
    simp only [ConnectionLoop.step, post, if_pos h.connected]
    exact alignedSame order h rfl rfl (payloadFuture mid)

theorem alignedSwap {s : Link} (h : Aligned order s) :
    Aligned order (step order s .processTasks) := by
  simp only [step, ConnectionLoop.step]
  split
  · rename_i empty
    exact alignedSame order h rfl rfl (swapFuture empty)
  · exact h

/-! Queueing the next piece of the future moves the cut one piece on. -/
theorem alignedQueue {s after : Link} (h : Aligned order s) {d : Piece} {rest : List Piece}
    (next : future s = d :: rest) (connected : after.loop.conn.state = .connected)
    (accepted : after.loop.conn.accepted = s.loop.conn.accepted ++ pieceBytes order d)
    (queues : after.loop.queued = s.loop.queued ++ [d]) (left : future after = rest) :
    Aligned order after := by
  refine ⟨connected, ?_, ?_⟩
  · rw [accepted, queues, h.bytes, List.flatMap_append]
    simp
  · rw [left, queues]
    obtain ⟨units, frames, ⟨queued, ahead⟩ | ⟨f, queued, ahead⟩⟩ := h.cut
    · rw [next] at ahead
      cases frames with
      | nil => contradiction
      | cons f frames =>
        obtain ⟨rfl, rfl⟩ := List.cons.inj ahead
        exact ⟨units, frames, .inr ⟨f, by rw [queued], rfl⟩⟩
    · rw [next] at ahead
      obtain ⟨rfl, rfl⟩ := List.cons.inj ahead
      refine ⟨units ++ [.frame f], frames, .inl ⟨?_, rfl⟩⟩
      rw [queued, piecesAppend, List.append_assoc]
      rfl

theorem futureRun {s : Link} {after : Loop Piece} {rest : List (Posted Piece)}
    (batch : after.batch = rest) (posted : after.pendingTasks = s.loop.pendingTasks ∨
      after.pendingTasks = s.loop.pendingTasks ++ [.enableWriting]) :
    future { s with loop := after } =
      sends (rest ++ s.loop.pendingTasks) ++ (s.midFrame.map .payload).toList := by
  unfold future
  rw [batch]
  rcases posted with same | enables
  · rw [same]
  · simp [enables, sends]

theorem alignedRun {s : Link} (h : Aligned order s) (w : WriteResult) (works : w ≠ .error) :
    Aligned order (step order s (.runTask w works)) := by
  simp only [step, ConnectionLoop.step]
  split
  · exact h
  · rename_i t rest next
    cases t with
    | sendInLoop d =>
      have taken : ({ s.loop with batch := rest } : Loop Piece).conn.state = .connected := h.connected
      have sent := sendInLoopSent (pieceBytes order) taken d works
      refine alignedQueue order h ?_ sent.connected sent.accepted sent.queued
        (futureRun sent.batch sent.posted)
      simp [future, next, sends]
    | enableWriting =>
      simp only [runTask]
      split <;>
      · refine alignedSame order h rfl rfl ?_
        simp [future, next, sends]
    | shutdown =>
      have kept := TcpConnection.finishKeeps s.loop.conn
      have same := @futureRun s { s.loop with batch := rest, conn := s.loop.conn.finish } rest rfl
        (.inl rfl)
      refine ⟨kept.1.trans h.connected, kept.2.trans h.bytes, ?_⟩
      simp only [runTask]
      rw [same]
      simpa [future, next, sends] using h.cut

theorem alignedRespond {s : Link} (h : Aligned order s) (msg : RtspMessage) (w : WriteResult)
    (works : w ≠ .error) (between : RespondsBetween s (.respond msg w works)) :
    Aligned order (step order s (.respond msg w works)) := by
  simp only [step]
  split
  · rename_i empty
    simp only [ConnectionLoop.step, send, if_pos h.connected]
    have sent := sendInLoopSent (pieceBytes order) h.connected (.response msg) works
    have same := futureRun (sent.batch.trans empty) sent.posted
    refine ⟨sent.connected, ?_, ?_⟩
    · rw [sent.accepted, sent.queued, h.bytes, List.flatMap_append]
      simp
    · obtain ⟨units, frames, ⟨queued, ahead⟩ | ⟨f, queued, ahead⟩⟩ := h.cut
      · refine ⟨units ++ [.response msg], frames, .inl ⟨?_, ?_⟩⟩
        · rw [sent.queued, queued, piecesAppend]
          rfl
        · rw [same, ← ahead, future, empty]
      · exact absurd ⟨f, _, ahead⟩ (between empty)
  · exact h

theorem alignedStep {s : Link} {input : Input} (h : Aligned order s)
    (between : RespondsBetween s input) : Aligned order (step order s input) := by
  cases input with
  | header f => exact alignedHeader order h f
  | payload => exact alignedPayload order h
  | processTasks => exact alignedSwap order h
  | runTask w works => exact alignedRun order h w works
  | respond msg w works => exact alignedRespond order h msg w works between

/-! A response queued right behind a header is in no sequence of whole units. -/
theorem headerThenResponse (units : List DownUnit) (f : Frame) (msg : RtspMessage) :
    ¬ Whole (pieces units ++ [.header f] ++ [.response msg]) := by
  rintro ⟨others, tail, short, same⟩
  induction units generalizing others with
  | nil =>
    cases others with
    | nil => rcases short with rfl | ⟨g, rfl⟩ <;> simp [pieces] at same
    | cons v others => cases v <;> simp [pieces] at same
  | cons u units ih =>
    cases others with
    | nil => rcases short with rfl | ⟨g, rfl⟩ <;> cases u <;> simp [pieces] at same
    | cons v others =>
      cases u <;> cases v <;> simp [pieces] at same
      · exact ih others (by simpa [pieces] using same.2)
      · exact ih others (by simpa [pieces] using same.2)

theorem respondSplits {s : Link} {input : Input} (h : Aligned order s)
    (inside : ¬ RespondsBetween s input) : ¬ CarriesUnits order (step order s input) := by
  cases input with
  | respond msg w works =>
    simp only [RespondsBetween, not_forall, not_not] at inside
    obtain ⟨empty, g, rest, split⟩ := inside
    simp only [step, if_pos empty, ConnectionLoop.step, send, if_pos h.connected]
    have sent := sendInLoopSent (pieceBytes order) h.connected (.response msg) works
    intro carries
    have whole := carries.whole
    rw [sent.queued] at whole
    obtain ⟨units, frames, ⟨queued, ahead⟩ | ⟨f, queued, ahead⟩⟩ := h.cut
    · rw [split] at ahead
      cases frames <;> simp [pieces] at ahead
    · rw [queued] at whole
      exact headerThenResponse units f msg whole
  | header | payload | processTasks | runTask => exact absurd trivial inside

theorem wholeUnits (fd : Int) (inputs : List Input) :
    Always (step order) (CarriesUnits order) (start fd) inputs ↔
      Throughout (step order) RespondsBetween (start fd) inputs :=
  alwaysExact (fun _ _ => alignedStep order) (fun _ => alignedWhole order)
    (fun _ _ => respondSplits order) (alignedStart order fd)

/-! The swap of processTasks falls between the two posts of a packet, and a
request is answered before the next swap. -/
def splitPacket : List Input :=
  [.header ⟨0, [7]⟩, .processTasks, .runTask (.wrote 4 (by decide)) (by decide)]

theorem splitPacketSplits :
    ¬ ∀ (order : HeaderOrder) (fd : Int) (inputs : List Input),
      Always (step order) (CarriesUnits order) (start fd) inputs := by
  intro always
  let order := insertionOrder
  let answer : Input := .respond (okResponse 1 []) .again (by decide)
  have waiting : Aligned order (run (step order) (start 7) splitPacket) :=
    alwaysLast (alwaysAlong (fun _ _ => alignedStep order) (fun _ => id) (alignedStart order 7)
      ⟨trivial, trivial, trivial, trivial⟩)
  have inside : ¬ RespondsBetween (run (step order) (start 7) splitPacket) answer := by
    intro whole
    exact whole rfl ⟨⟨0, [7]⟩, [], rfl⟩
  have last := alwaysLast (always order 7 (splitPacket ++ [answer]))
  exact respondSplits order waiting inside last

end RtspRelay.Downstream
