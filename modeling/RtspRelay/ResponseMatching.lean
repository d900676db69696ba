import RtspRelay.ExchangeSteps

/-! Which response moves the handshake on. Every request is numbered, a response's
CSeq is read, and nothing compares the two: any 200 is taken for the answer. -/
namespace RtspRelay.ResponseMatching
open Machine Protocol Source World Transition Exchange
open Connection (WriteResult)

def lastAsked : List Entry → Option RtspMessage
  | [] => none
  | .asked _ req :: _ => some req
  | .answered _ _ :: past => lastAsked past

-- The request each state of the handshake waits on, and its number on the connection.
def awaited : Source.State → Option (RtspMethod × Nat)
  | .options => some (.options, 1)
  | .describe => some (.describe, 2)
  | .setup => some (.setup, 3)
  | _ => none

def Answers (s : Watched) (msg : RtspMessage) (method : RtspMethod) : Prop :=
  msg.statusCode = 200 ∧
    ∃ req, lastAsked s.log = some req ∧ req.method = method ∧ req.cseq = msg.cseq

structure Matched (s : Watched) (msg : RtspMessage) : Prop where
  leaves : ∀ method n, awaited s.world.source.state = some (method, n) →
    (s.world.handleResponse msg).source.state ≠ s.world.source.state → Answers s msg method
  described : (s.world.handleResponse msg).source.sdp ≠ s.world.source.sdp → Answers s msg .describe
  negotiated : ((s.world.handleResponse msg).source.rtpChannel ≠ s.world.source.rtpChannel ∨
    (s.world.handleResponse msg).source.rtcpChannel ≠ s.world.source.rtcpChannel) →
    Answers s msg .setup

def Matches (s : Watched) : Happening → Prop
  | .message _ msg => s.world.crashed = false → Matched s msg
  | _ => True

def Numbered (s : Watched) : Happening → Prop
  | .message _ msg => s.world.crashed = false → msg.statusCode = 200 →
      ∀ pair ∈ awaited s.world.source.state, msg.cseq = pair.2
  | _ => True
instance (s) : (hap : Happening) → Decidable (Numbered s hap)
  | .message _ _ => by unfold Numbered; infer_instance
  | .enter _ | .frame _ _ _ | .stored _ _ | .writable _ _ | .ended _ | .broken _ | .fire _ _ | .runTask
  | .stop _ => .isTrue trivial

/-! In each state of the handshake the request waited on was the last one sent. -/
def Standing (s : Watched) : Prop :=
  s.world.crashed = false → ∀ method n, awaited s.world.source.state = some (method, n) →
    s.world.source.cseq = n ∧
      ∃ req, lastAsked s.log = some req ∧ req.method = method ∧ req.cseq = n

theorem restingAwaits {state : Source.State} (resting : Resting state) : awaited state = none := by
  rcases resting with rfl | rfl | rfl <;> rfl

theorem awaitedWaits {state : Source.State} {method : RtspMethod} {n : Nat}
    (awaits : awaited state = some (method, n)) :
    state = .options ∨ state = .describe ∨ state = .setup := by
  cases state with
  | options => exact .inl rfl
  | describe => exact .inr (.inl rfl)
  | setup => exact .inr (.inr rfl)
  | idle | connecting | playing | error => contradiction

theorem openedStanding {w after : World} {log : List Entry} (opened : Opened w after) :
    Standing ⟨after, .asked w.nextConn (optionsRequest w.source.upstreamUrl 1) :: log⟩ := by
  intro _ method n awaits
  rw [opened.state.1] at awaits
  cases awaits
  exact ⟨opened.state.2, _, rfl, rfl, rfl⟩

theorem idleStanding {w after : World} {log : List Entry} (idle : Idle w after)
    (h : Standing ⟨w, log⟩) : Standing ⟨after, log⟩ := by
  intro running method n awaits
  have before : w.crashed = false := by
    by_contra crashed
    rw [idle.crashed (Bool.not_eq_false _ ▸ crashed)] at running
    contradiction
  rcases idle.state with ⟨state, cseq⟩ | resting
  · have there : w.source.cseq = n ∧ _ := h before method n (state ▸ awaits)
    exact ⟨cseq.trans there.1, there.2⟩
  · rw [restingAwaits resting] at awaits
    contradiction

theorem replyCseq {w : World} {msg req : RtspMessage} (form : Reply w msg req) :
    req.cseq = nextCseq w.source := by
  cases form with
  | describe | play => rfl
  | setup => exact (setupAskedForm _ _ _).2

theorem repliedStanding {s : Watched} (h : Standing s) (i : ConnId) {msg req : RtspMessage}
    (replies : reply s.world msg = some req) : Standing (watch s (.message i msg)) := by
  have form := (replied replies).2
  have sends := repliedSends replies
  have kept := readyKept s.world msg
  intro running method n awaits
  rw [watchMessage] at running awaits ⊢
  dsimp only at running awaits ⊢
  rw [sends.crashed, kept.crashed, kept.conn] at running
  obtain ⟨before, held⟩ := Bool.or_eq_false_iff.mp running
  obtain ⟨j, conn⟩ := Option.ne_none_iff_exists'.mp (Option.isNone_eq_false_iff.mp held |> Option.isSome_iff_ne_none.mp)
  have cseq : (s.world.handleResponse msg).source.cseq = nextCseq s.world.source := by
    rw [sends.source]
    exact congrArg (fun n => (n + 1) % 2 ^ 32) kept.cseq
  have state : (s.world.handleResponse msg).source.state = (ready s.world msg).source.state := by
    rw [sends.source]
  have last : lastAsked (((reply s.world msg).bind fun req =>
      s.world.source.conn.map fun j => Entry.asked j req).toList ++ .answered i msg :: s.log) =
      some req := by
    rw [replies, conn]
    rfl
  rw [state] at awaits
  rw [cseq, last]
  have number := replyCseq form
  rcases readyState form with ⟨from_, asks, to_⟩ | ⟨from_, asks, to_⟩ | ⟨_, _, to_⟩
  · have was := (h before _ _ (by rw [from_]; rfl)).1
    rw [to_] at awaits
    cases awaits
    rw [nextCseq, was] at number ⊢
    exact ⟨rfl, req, rfl, asks, number⟩
  · have was := (h before _ _ (by rw [from_]; rfl)).1
    rw [to_] at awaits
    cases awaits
    rw [nextCseq, was] at number ⊢
    exact ⟨rfl, req, rfl, asks, number⟩
  · rw [to_] at awaits
    cases awaits

theorem watchStanding {s : Watched} (h : Standing s) (hap : Happening) : Standing (watch s hap) := by
  cases hap with
  | message i msg =>
    cases replies : reply s.world msg with
    | none =>
      rw [watchMessage, replies]
      have kept := heardKept s.world msg
      have source := (heardSource s.world msg).1
      refine idleStanding (silentIdle replies) fun running method n awaits => ?_
      have state : (heard s.world msg).source.state = s.world.source.state := by rw [source]
      have before := h (kept.crashed ▸ running) method n (state ▸ awaits)
      exact ⟨kept.cseq.trans before.1, before.2⟩
    | some req => exact repliedStanding h i replies
  | stop writes =>
    intro _ method n awaits
    have rests : awaited (watch s (.stop writes)).world.source.state = none :=
      restingAwaits (stopRests s.world writes)
    rw [rests] at awaits
    contradiction
  | enter | frame | stored | writable | ended | broken | fire | runTask =>
    exact ordinaryKeeps (fun opened _ => openedStanding opened) idleStanding trivial h

theorem repliedMatched {s : Watched} {msg req : RtspMessage} (replies : reply s.world msg = some req)
    (answers : ∀ method n, awaited s.world.source.state = some (method, n) → Answers s msg method) :
    Matched s msg := by
  have source := (repliedSends replies).source
  obtain ⟨sdp, channels⟩ := readyLearns s.world msg
  refine ⟨fun method n awaits _ => answers method n awaits, fun changed => ?_, fun changed => ?_⟩
  · rw [source] at changed
    have describe : s.world.source.state = .describe := Classical.not_not.mp fun other =>
      changed (sdp other)
    exact answers .describe 2 (by rw [describe]; rfl)
  · rw [source] at changed
    have setup : s.world.source.state = .setup := Classical.not_not.mp fun other =>
      changed.elim (fun rtp => rtp (channels other).1) fun rtcp => rtcp (channels other).2
    exact answers .setup 3 (by rw [setup]; rfl)

theorem silentMatched {s : Watched} {msg : RtspMessage} (silent : reply s.world msg = none) :
    Matched s msg := by
  have same := silentSource silent
  have source := (heardSource s.world msg).1
  refine ⟨fun _ _ _ leaves => ?_, fun changed => ?_, fun changed => ?_⟩
  · exact absurd (by rw [same, source]) leaves
  · exact absurd (by rw [same, source]) changed
  · rcases changed with changed | changed
    · exact absurd (by rw [same, source]) changed
    · exact absurd (by rw [same, source]) changed

theorem matchedExact {s : Watched} (h : Standing s) (hap : Happening) :
    Matches s hap ↔ Numbered s hap := by
  cases hap with
  | message i msg =>
    constructor
    · intro matched running ok ⟨method, n⟩ awaits
      obtain ⟨req, replies⟩ := replies ok (awaitedWaits awaits)
      have source := (repliedSends replies).source
      have leaves : (s.world.handleResponse msg).source.state ≠ s.world.source.state := by
        rw [source]
        rcases readyState (replied replies).2 with ⟨from_, _, to_⟩ | ⟨from_, _, to_⟩ | ⟨from_, _, to_⟩
        · rw [from_]; exact fun same => by rw [to_] at same; contradiction
        · rw [from_]; exact fun same => by rw [to_] at same; contradiction
        · rw [from_]; exact fun same => by rw [to_] at same; contradiction
      obtain ⟨_, asked, last, _, number⟩ := (matched running).leaves method n awaits leaves
      obtain ⟨_, sent, lastSent, _, numbered⟩ := h running method n awaits
      rw [last] at lastSent
      cases lastSent
      exact number.symm.trans numbered
    · intro numbered running
      cases replies : reply s.world msg with
      | none => exact silentMatched replies
      | some req =>
        refine repliedMatched replies fun method n awaits => ?_
        have ok := (replied replies).1
        obtain ⟨_, req, last, asks, number⟩ := h running method n awaits
        exact ⟨ok, req, last, asks, number.trans (numbered running ok (method, n) awaits).symm⟩
  | enter | frame | stored | writable | ended | broken | fire | runTask | stop => exact Iff.rfl

theorem beginStanding (order : HeaderOrder) (upstreamUrl streamPath : Bytes)
    (connect : ConnectResult) (writes : List WriteResult) :
    Standing (begin order upstreamUrl streamPath connect writes) :=
  beginKeeps (fun opened _ => openedStanding opened) idleStanding order upstreamUrl streamPath
    connect writes fun _ _ _ awaits => by contradiction

theorem runMatched {s : Watched} (h : Standing s) (hs : List Happening) :
    Throughout watch Matches s hs ↔ Throughout watch Numbered s hs :=
  throughoutExact (I := Standing) (fun _ hap before => watchStanding before hap)
    (C := Matches) (D := Numbered) (fun _ hap standing => matchedExact standing hap) h hs

theorem answersMatched (order : HeaderOrder) (upstreamUrl streamPath : Bytes)
    (connect : ConnectResult) (writes : List WriteResult) (commands : List Command) :
    Throughout watch Matches (begin order upstreamUrl streamPath connect writes)
        (trace (begin order upstreamUrl streamPath connect writes).world commands) ↔
      Throughout watch Numbered (begin order upstreamUrl streamPath connect writes)
        (trace (begin order upstreamUrl streamPath connect writes).world commands) :=
  runMatched (beginStanding order upstreamUrl streamPath connect writes) _

/-! The answer to OPTIONS comes twice; the second is taken for a description. -/
def duplicated : List Command :=
  [.event ⟨.writable 0 false, .inProgress, Recovery.sent⟩, .event Recovery.answered,
    .event Recovery.answered]

theorem duplicateDescribes : ¬ ∀ (order : HeaderOrder) (upstreamUrl streamPath : Bytes)
    (connect : ConnectResult) (writes : List WriteResult) (commands : List Command),
    Throughout watch Matches (begin order upstreamUrl streamPath connect writes)
      (trace (begin order upstreamUrl streamPath connect writes).world commands) := by
  intro always
  have run := always insertionOrder (ascii "rtsp://10.0.0.9/cam") (ascii "/cam") .inProgress [] duplicated
  rw [runMatched (beginStanding _ _ _ _ _)] at run
  revert run
  decide

end RtspRelay.ResponseMatching
