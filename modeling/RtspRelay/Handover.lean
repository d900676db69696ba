import RtspRelay.Downstream
import RtspRelay.General.Transcript

/-! What a player's connection is handed, responses by its own loop and frames by the
source's thread, and what its socket has taken of it. A frame is handed over when its
header is posted. -/
namespace RtspRelay.Handover
open Machine Buffer Protocol Session Connection Downstream Transition
open ConnectionLoop hiding step start Input

def answers (units : List DownUnit) : List RtspMessage :=
  units.filterMap fun
    | .response msg => some msg
    | .frame _ => none

def frames (units : List DownUnit) : List Frame :=
  units.filterMap fun
    | .frame f => some f
    | .response _ => none

-- Each kind in its order, as far as it has come.
structure InOrder (sofar given : List DownUnit) : Prop where
  answers : answers sofar <+: answers given
  frames : frames sofar <+: frames given

theorem inOrderTrans {first mid last : List DownUnit} (h : InOrder first mid) (h' : InOrder mid last) :
    InOrder first last := ⟨h.answers.trans h'.answers, h.frames.trans h'.frames⟩

theorem takeInOrder (n : Nat) (units : List DownUnit) : InOrder (units.take n) units :=
  ⟨(List.take_prefix n units).filterMap _, (List.take_prefix n units).filterMap _⟩

theorem inOrderMember {sofar given : List DownUnit} (h : InOrder sofar given) {u : DownUnit} (inside : u ∈ sofar) :
    u ∈ given := by
  cases u with
  | response msg =>
    have there := h.answers.subset (List.mem_filterMap.mpr ⟨.response msg, inside, rfl⟩)
    obtain ⟨other, given, same⟩ := List.mem_filterMap.mp there
    cases other with
    | response msg' => exact Option.some.inj same ▸ given
    | frame f => contradiction
  | frame f =>
    have there := h.frames.subset (List.mem_filterMap.mpr ⟨.frame f, inside, rfl⟩)
    obtain ⟨other, given, same⟩ := List.mem_filterMap.mp there
    cases other with
    | frame f' => exact Option.some.inj same ▸ given
    | response msg => contradiction

def handed (s : Link) : Input → List DownUnit
  | .header f => if s.midFrame = none then [.frame f] else []
  | .respond msg _ _ => if s.loop.batch = [] then [.response msg] else []
  | .payload | .processTasks | .runTask _ _ => []

def unitBytes (order : HeaderOrder) : DownUnit → Bytes
  | .frame f => interleavedHeader f.channel f.data.length ++ f.data
  | .response msg => serialize order msg

-- Nothing is on its way to the queue, and nothing waits for the socket.
def Drained (s : Link) : Prop := future s = [] ∧ s.loop.conn.outputBuf.content = []

/-! The sends among the pieces. -/

def responses (queued : List Piece) : List RtspMessage :=
  queued.filterMap fun
    | .response msg => some msg
    | .header _ | .payload _ => none

def headers (queued : List Piece) : List Frame :=
  queued.filterMap fun
    | .header f => some f
    | .payload _ | .response _ => none

theorem responsesAppend (first last : List Piece) : responses (first ++ last) = responses first ++ responses last :=
  List.filterMap_append

theorem headersAppend (first last : List Piece) : headers (first ++ last) = headers first ++ headers last :=
  List.filterMap_append

theorem answersAppend (first last : List DownUnit) : answers (first ++ last) = answers first ++ answers last :=
  List.filterMap_append

theorem framesAppend (first last : List DownUnit) : frames (first ++ last) = frames first ++ frames last :=
  List.filterMap_append

theorem pickedPieces {α : Type} {ofPiece : Piece → Option α} {ofUnit : DownUnit → Option α}
    (each : ∀ u, (pieces [u]).filterMap ofPiece = (ofUnit u).toList) (units : List DownUnit) :
    (pieces units).filterMap ofPiece = units.filterMap ofUnit := by
  induction units with
  | nil => rfl
  | cons u rest ih =>
    rw [← List.singleton_append, piecesAppend, List.filterMap_append, List.filterMap_append, each, ih]
    cases picked : ofUnit u <;> simp [picked]

theorem responsesPieces (units : List DownUnit) : responses (pieces units) = answers units :=
  pickedPieces (fun u => by cases u <;> rfl) units

theorem headersPieces (units : List DownUnit) : headers (pieces units) = frames units :=
  pickedPieces (fun u => by cases u <;> rfl) units

theorem answersFrames (packets : List Frame) : answers (packets.map .frame) = [] := by
  rw [answers, List.filterMap_map]
  exact List.filterMap_eq_nil_iff.mpr fun _ _ => rfl

theorem bytesPieces (order : HeaderOrder) (units : List DownUnit) :
    (pieces units).flatMap (pieceBytes order) = units.flatMap (unitBytes order) := by
  rw [pieces, List.flatMap_assoc]
  refine List.flatMap_congr fun u _ => ?_
  cases u with
  | frame f => exact congrArg (_ ++ ·) (List.append_nil _)
  | response msg => exact List.append_nil _

/-! A step, by what is handed over in it. -/

inductive Turn (s after : Link) : List DownUnit → Prop where
  | passes (same : after.loop.queued ++ future after = s.loop.queued ++ future s) : Turn s after []
  | frame (f : Frame) (queued : after.loop.queued = s.loop.queued)
      (ahead : future after = future s ++ pieces [.frame f]) : Turn s after [.frame f]
  | response (msg : RtspMessage) (queued : after.loop.queued = s.loop.queued ++ [.response msg])
      (ahead : future after = future s) : Turn s after [.response msg]

variable {order : HeaderOrder}

theorem runTurn {s : Link} (connected : s.loop.conn.state = .connected) (w : WriteResult) (works : w ≠ .error) :
    Turn s (step order s (.runTask w works)) [] := by
  refine .passes ?_
  simp only [step, ConnectionLoop.step]
  split
  · rfl
  · rename_i t rest next
    cases t with
    | sendInLoop d =>
      have sent := sendInLoopSent (pieceBytes order) (s := { s.loop with batch := rest }) connected d works
      rw [runTask, sent.queued, futureRun sent.batch sent.posted]
      simp [future, next, sends]
    | enableWriting =>
      simp only [runTask]
      split <;> simp [future, next, sends]
    | shutdown => simp [runTask, future, next, sends]

theorem stepTurns {s : Link} (connected : s.loop.conn.state = .connected) (input : Input) :
    Turn s (step order s input) (handed s input) := by
  cases input with
  | header f =>
    simp only [step, handed]
    cases mid : s.midFrame with
    | some g => exact .passes rfl
    | none =>
      simp only [ConnectionLoop.step, post, if_pos connected]
      exact .frame f rfl (headerFuture mid f)
  | payload =>
    simp only [step, handed]
    cases mid : s.midFrame with
    | none => exact .passes rfl
    | some f =>
      simp only [ConnectionLoop.step, post, if_pos connected]
      exact .passes (congrArg (_ ++ ·) (payloadFuture mid))
  | processTasks =>
    simp only [step, handed, ConnectionLoop.step]
    split
    · rename_i empty
      exact .passes (congrArg (_ ++ ·) (swapFuture empty))
    · exact .passes rfl
  | runTask w works => exact runTurn connected w works
  | respond msg w works =>
    simp only [step, handed]
    split
    · rename_i empty
      simp only [ConnectionLoop.step, send, if_pos connected]
      have sent := sendInLoopSent (pieceBytes order) connected (.response msg) works
      refine .response msg sent.queued ?_
      rw [futureRun (sent.batch.trans empty) sent.posted, future, empty]
    · exact .passes rfl

/-! So the queue and what is to come hold all that was handed over, each kind in its order. -/

structure Follows (s : Link) (sofar : List DownUnit) : Prop where
  responses : responses (s.loop.queued ++ future s) = answers sofar
  headers : headers (s.loop.queued ++ future s) = frames sofar

theorem futureSilent {s : Link} (h : Aligned order s) : responses (future s) = [] := by
  obtain ⟨units, packets, ⟨_, ahead⟩ | ⟨f, _, ahead⟩⟩ := h.cut
  · rw [ahead, responsesPieces, answersFrames]
  · rw [ahead]
    exact (responsesPieces _).trans (answersFrames _)

theorem followsTurn {s after : Link} {sofar given : List DownUnit} (h : Follows s sofar) (aligned : Aligned order s)
    (turn : Turn s after given) : Follows after (sofar ++ given) := by
  have said := h.responses
  have shown := h.headers
  cases turn with
  | passes same =>
    rw [List.append_nil]
    exact ⟨(congrArg responses same).trans said, (congrArg headers same).trans shown⟩
  | frame f queued ahead =>
    refine ⟨?_, ?_⟩
    · rw [queued, ahead, ← List.append_assoc, responsesAppend, said, answersAppend]
      rfl
    · rw [queued, ahead, ← List.append_assoc, headersAppend, shown, framesAppend]
      rfl
  | response msg queued ahead =>
    have silent := futureSilent aligned
    rw [responsesAppend, silent, List.append_nil] at said
    rw [headersAppend] at shown
    refine ⟨?_, ?_⟩
    · rw [queued, ahead, responsesAppend, responsesAppend, said, silent, answersAppend, List.append_nil]
      rfl
    · have silent' : headers [.response msg] = [] ∧ frames [.response msg] = [] := ⟨rfl, rfl⟩
      rw [queued, ahead, headersAppend, headersAppend, framesAppend, silent'.1, silent'.2, shown.symm]
      rw [List.append_nil, List.append_nil]

theorem runFollows {fd : Int} {moves : List Input} (between : Throughout (step order) RespondsBetween (start fd) moves) :
    let link := run (step order) (start fd) moves
    Aligned order link ∧ Follows link (transcript (step order) handed (start fd) moves) := by
  have begun : Aligned order (start fd) ∧ Follows (start fd) [] := ⟨alignedStart order fd, rfl, rfl⟩
  have keeps (s : Link) (sofar : List DownUnit) (input : Input) (h : Aligned order s ∧ Follows s sofar)
      (meets : RespondsBetween s input) :
      Aligned order (step order s input) ∧ Follows (step order s input) (sofar ++ handed s input) :=
    ⟨alignedStep order h.1 meets, followsTurn h.2 h.1 (stepTurns h.1.connected input)⟩
  exact transcriptAlong (I := fun s sofar => Aligned order s ∧ Follows s sofar) keeps begun between

/-! What the connection has accepted: a prefix of whole units, all that were handed over
once nothing is left to come. -/
theorem acceptedUnits {s : Link} {sofar : List DownUnit} (aligned : Aligned order s) (follows : Follows s sofar) :
    ∃ units, s.loop.conn.accepted <+: units.flatMap (unitBytes order) ∧ InOrder units sofar ∧
      (future s = [] → s.loop.conn.accepted = units.flatMap (unitBytes order) ∧ InOrder sofar units) := by
  have said := follows.responses
  have shown := follows.headers
  rw [responsesAppend] at said
  rw [headersAppend] at shown
  have inOrder {units : List DownUnit} (said' : responses s.loop.queued = answers units)
      (shown' : headers s.loop.queued = frames units) : InOrder units sofar :=
    ⟨⟨_, said' ▸ said⟩, ⟨_, shown' ▸ shown⟩⟩
  obtain ⟨units, packets, ⟨queued, _⟩ | ⟨f, queued, ahead⟩⟩ := aligned.cut
  · have said' := (congrArg responses queued).trans (responsesPieces units)
    have shown' := (congrArg headers queued).trans (headersPieces units)
    have bytes : s.loop.conn.accepted = units.flatMap (unitBytes order) := by
      rw [aligned.bytes, queued, bytesPieces]
    refine ⟨units, bytes ▸ List.prefix_rfl, inOrder said' shown', fun ended => ⟨bytes, ?_, ?_⟩⟩
    · rw [← said, ended, ← said']
      exact (List.append_nil _) ▸ List.prefix_rfl
    · rw [← shown, ended, ← shown']
      exact (List.append_nil _) ▸ List.prefix_rfl
  · have whole : responses (pieces units ++ [.header f]) = answers (units ++ [.frame f]) ∧
        headers (pieces units ++ [.header f]) = frames (units ++ [.frame f]) := by
      rw [answersAppend, framesAppend, ← responsesPieces, ← headersPieces]
      exact ⟨responsesAppend _ _, headersAppend _ _⟩
    refine ⟨units ++ [.frame f], ?_, inOrder (queued ▸ whole.1) (queued ▸ whole.2), fun ended => ?_⟩
    · rw [aligned.bytes, queued, List.flatMap_append, List.flatMap_append, bytesPieces]
      exact (List.prefix_append_right_inj _).mpr ⟨f.data, by simp [pieceBytes, unitBytes]⟩
    · rw [ended] at ahead
      contradiction

end RtspRelay.Handover
