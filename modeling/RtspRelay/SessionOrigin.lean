import RtspRelay.Answers
import RtspRelay.ExchangeSteps

/-! Whose session the source names. A connect restarts the state and the CSeq;
the session id stays, so a request may carry the id of an earlier connection. -/
namespace RtspRelay.SessionOrigin
open Machine Protocol Source World Transition Exchange
open Connection (WriteResult)
open Recovery (Connected)
open Answers (lookupSet lookupSetSame)

def sessionHeader (req : RtspMessage) : Bytes := (req.headers.lookup (ascii "Session")).getD []

-- Connection `i` has received the session id.
def givenOn (i : ConnId) (sessionId : Bytes) : List Entry → Prop
  | [] => False
  | .answered j msg :: past => (j = i ∧ msg.sessionId = sessionId) ∨ givenOn i sessionId past
  | .asked _ _ :: past => givenOn i sessionId past

instance decideGiven (i : ConnId) (sessionId : Bytes) :
    (log : List Entry) → Decidable (givenOn i sessionId log)
  | [] => inferInstanceAs (Decidable False)
  | .answered j msg :: past =>
    have := decideGiven i sessionId past
    inferInstanceAs (Decidable ((j = i ∧ msg.sessionId = sessionId) ∨ _))
  | .asked _ _ :: past => decideGiven i sessionId past

-- The session id of the last 200 that carried one, on whatever connection.
def latest : List Entry → Option Bytes
  | [] => none
  | .answered _ msg :: past =>
    if msg.statusCode = 200 ∧ msg.sessionId ≠ [] then some msg.sessionId else latest past
  | .asked _ _ :: past => latest past

def Own (s : Watched) (hap : Happening) : Prop :=
  s.world.crashed = false → ∀ i req, requested s.world hap = some (i, req) → Connected s.world i →
    req.method = .setup ∨ req.method = .play ∨ req.method = .teardown → sessionHeader req ≠ [] →
    givenOn i (sessionHeader req) (received hap ++ s.log)

-- SETUP, PLAY or TEARDOWN is due.
def Due (w : World) : Happening → Prop
  | .message _ msg => msg.statusCode = 200 ∧ (w.source.state = .describe ∨ w.source.state = .setup)
  | .stop _ => True
  | _ => False
instance (w) : (hap : Happening) → Decidable (Due w hap)
  | .message _ _ => by unfold Due; infer_instance
  | .stop _ => .isTrue trivial
  | .enter _ | .frame _ _ _ | .stored _ _ | .writable _ _ | .ended _ | .broken _ | .fire _ _ | .runTask =>
    .isFalse id

def LatestOwn (s : Watched) (hap : Happening) : Prop :=
  s.world.crashed = false → Due s.world hap → ∀ i ∈ s.world.source.conn, Connected s.world i →
    ∀ sessionId ∈ latest (received hap ++ s.log), givenOn i sessionId (received hap ++ s.log)
instance (s hap) : Decidable (LatestOwn s hap) := by unfold LatestOwn Connected; infer_instance

def Holding (s : Watched) : Prop := s.world.source.sessionId = (latest s.log).getD []

theorem latestNonempty {log : List Entry} {sessionId : Bytes} (found : latest log = some sessionId) :
    sessionId ≠ [] := by
  induction log with
  | nil => contradiction
  | cons entry past ih =>
    cases entry with
    | asked i req => exact ih found
    | answered i msg =>
      rw [latest] at found
      split at found
      · rename_i carries
        cases Option.some.inj found
        exact carries.2
      · exact ih found

theorem heardHolding {s : Watched} (h : Holding s) (i : ConnId) (msg : RtspMessage) :
    (heard s.world msg).source.sessionId = (latest (.answered i msg :: s.log)).getD [] := by
  unfold heard World.noteSession
  rw [latest]
  by_cases ok : msg.statusCode = 200
  · by_cases empty : msg.sessionId = []
    · rw [if_pos ok, if_pos empty, if_neg fun carries => carries.2 empty]
      exact h
    · rw [if_pos ok, if_neg empty, if_pos ⟨ok, empty⟩]
      rfl
  · rw [if_neg ok, if_neg fun carries => ok carries.1]
    exact h

theorem askedLatest (asked : Option Entry) (log : List Entry)
    (isAsked : ∀ entry ∈ asked, ∃ i req, entry = .asked i req) :
    latest (asked.toList ++ log) = latest log := by
  cases asked with
  | none => rfl
  | some entry =>
    obtain ⟨i, req, rfl⟩ := isAsked entry rfl
    rfl

theorem watchHolding {s : Watched} (h : Holding s) (hap : Happening) : Holding (watch s hap) := by
  cases hap with
  | message i msg =>
    have learnt := heardHolding h i msg
    rw [watchMessage, Holding]
    cases replies : reply s.world msg with
    | none =>
      rw [(handledSource s.world msg).2]
      exact learnt
    | some req =>
      rw [(handledSource s.world msg).2, askedLatest _ _ fun entry there => by
        obtain ⟨j, _, rfl⟩ := Option.map_eq_some_iff.mp there
        exact ⟨j, req, rfl⟩]
      exact learnt
  | stop writes =>
    have last : latest (watch s (.stop writes)).log = latest s.log := by
      dsimp only [watch, received]
      rw [List.append_nil]
      refine askedLatest _ _ fun entry there => ?_
      obtain ⟨pair, _, rfl⟩ := Option.map_eq_some_iff.mp there
      exact ⟨pair.1, pair.2, rfl⟩
    rw [Holding, last]
    exact (stoppedSource s.world writes).2.trans h
  | enter | frame | stored | writable | ended | broken | fire | runTask =>
    exact ordinaryKeeps (fun opened h => opened.sessionId.trans h)
      (fun idle h => idle.sessionId.trans h) trivial h

/-! The Session header of each request is the id the source holds. -/

theorem setSessionHeader (m : RtspMessage) (bare : m.headers.lookup (ascii "Session") = none)
    (sessionId : Bytes) : sessionHeader (m.setSession sessionId) = sessionId := by
  unfold RtspMessage.setSession sessionHeader
  split
  · rename_i empty
    rw [bare, empty]
    rfl
  · rw [lookupSetSame]
    rfl

theorem setupHeader (url : Bytes) (cseq : Nat) (sessionId : Bytes) :
    sessionHeader (setupAsked url cseq sessionId) = sessionId := by
  refine Eq.trans ?_
    (setSessionHeader { type := .request, method := .setup, url := url, cseq := cseq } rfl sessionId)
  unfold setupAsked setupRequest sessionHeader
  rw [lookupSet _ _ _ _ (by decide), lookupSet _ _ _ _ (by decide), lookupSet _ _ _ _ (by decide)]

theorem playHeader (url : Bytes) (cseq : Nat) (sessionId : Bytes) :
    sessionHeader (playRequest url cseq sessionId) = sessionId := by
  unfold playRequest sessionHeader
  rw [lookupSet _ _ _ _ (by decide), lookupSet _ _ _ _ (by decide), lookupSetSame]
  rfl

theorem teardownHeader (url : Bytes) (cseq : Nat) (sessionId : Bytes) :
    sessionHeader (teardownRequest url cseq sessionId) = sessionId := by
  unfold teardownRequest sessionHeader
  rw [lookupSet _ _ _ _ (by decide), lookupSetSame]
  rfl

/-! What a happening asks for with a session. -/

theorem messageRequested {w : World} {i j : ConnId} {msg req : RtspMessage}
    (asks : requested w (.message i msg) = some (j, req)) :
    w.source.conn = some j ∧ reply w msg = some req := by
  obtain ⟨k, conn, rest⟩ := Option.bind_eq_some_iff.mp asks
  obtain ⟨_, replies, same⟩ := Option.map_eq_some_iff.mp rest
  cases same
  exact ⟨conn, replies⟩

-- A request that names a session, and the id in it.
theorem namesSession {s : Watched} (h : Holding s) {hap : Happening} {i : ConnId} {req : RtspMessage}
    (asks : requested s.world hap = some (i, req))
    (names : req.method = .setup ∨ req.method = .play ∨ req.method = .teardown) :
    Due s.world hap ∧ s.world.source.conn = some i ∧
      sessionHeader req = (latest (received hap ++ s.log)).getD [] := by
  have opening (ordinary : Ordinary hap) : False := by
    rw [ordinaryRequested s.world ordinary] at asks
    split at asks
    · cases asks
      rcases names with names | names | names <;> cases names
    · contradiction
  cases hap with
  | message k msg =>
    obtain ⟨conn, replies⟩ := messageRequested asks
    obtain ⟨ok, form⟩ := replied replies
    have learnt := heardHolding h k msg
    cases form with
    | describe => rcases names with names | names | names <;> cases names
    | setup state => exact ⟨⟨ok, .inl state⟩, conn, (setupHeader _ _ _).trans learnt⟩
    | play state => exact ⟨⟨ok, .inr state⟩, conn, (playHeader _ _ _).trans learnt⟩
  | stop writes =>
    obtain ⟨k, conn, rest⟩ := Option.bind_eq_some_iff.mp asks
    split at rest
    · cases rest
      exact ⟨trivial, conn, (teardownHeader _ _ _).trans h⟩
    · contradiction
  | enter | frame | stored | writable | ended | broken | fire | runTask =>
    exact (opening trivial).elim

theorem dueRequested {w : World} {hap : Happening} (due : Due w hap) {i : ConnId}
    (conn : w.source.conn = some i) (connected : Connected w i) :
    ∃ req, requested w hap = some (i, req) ∧
      (req.method = .setup ∨ req.method = .play ∨ req.method = .teardown) := by
  cases hap with
  | message k msg =>
    obtain ⟨ok, state⟩ := due
    obtain ⟨req, replies⟩ := replies ok (.inr state)
    refine ⟨req, ?_, ?_⟩
    · rw [requested, conn, Option.bind_some, replies]
      rfl
    · cases (replied replies).2 with
      | describe options => rcases state with state | state <;> rw [options] at state <;> contradiction
      | setup => exact .inl (setupAskedForm _ _ _).1
      | play => exact .inr (.inl rfl)
  | stop writes =>
    refine ⟨teardownRequest w.source.upstreamUrl (nextCseq w.source) w.source.sessionId, ?_, .inr (.inr rfl)⟩
    rw [requested, conn, Option.bind_some]
    exact if_pos (decide_eq_true connected)
  | enter | frame | stored | writable | ended | broken | fire | runTask => exact due.elim

theorem ownExact {s : Watched} (h : Holding s) (hap : Happening) : Own s hap ↔ LatestOwn s hap := by
  constructor
  · intro own running due i conn connected sessionId carried
    obtain ⟨req, asks, names⟩ := dueRequested due conn connected
    have header := (namesSession h asks names).2.2
    have found : latest (received hap ++ s.log) = some sessionId := carried
    rw [found, Option.getD_some] at header
    have given := own running i req asks connected names (header ▸ latestNonempty found)
    rwa [header] at given
  · intro own running i req asks connected names nonempty
    obtain ⟨due, conn, header⟩ := namesSession h asks names
    cases found : latest (received hap ++ s.log) with
    | none =>
      rw [found] at header
      exact absurd header nonempty
    | some sessionId =>
      rw [found, Option.getD_some] at header
      rw [header]
      exact own running due i conn connected sessionId found

theorem beginHolding (order : HeaderOrder) (upstreamUrl streamPath : Bytes)
    (connect : ConnectResult) (writes : List WriteResult) :
    Holding (begin order upstreamUrl streamPath connect writes) :=
  beginKeeps (fun opened h => opened.sessionId.trans h) (fun idle h => idle.sessionId.trans h)
    order upstreamUrl streamPath connect writes rfl

theorem runOwn {s : Watched} (h : Holding s) (hs : List Happening) :
    Throughout watch Own s hs ↔ Throughout watch LatestOwn s hs :=
  throughoutExact (I := Holding) (fun _ hap before => watchHolding before hap)
    (C := Own) (D := LatestOwn) (fun _ hap holding => ownExact holding hap) h hs

theorem sessionsOwn (order : HeaderOrder) (upstreamUrl streamPath : Bytes)
    (connect : ConnectResult) (writes : List WriteResult) (commands : List Command) :
    Throughout watch Own (begin order upstreamUrl streamPath connect writes)
        (trace (begin order upstreamUrl streamPath connect writes).world commands) ↔
      Throughout watch LatestOwn (begin order upstreamUrl streamPath connect writes)
        (trace (begin order upstreamUrl streamPath connect writes).world commands) :=
  runOwn (beginHolding order upstreamUrl streamPath connect writes) _

/-! The first connection is given session A and ends; the second is given none,
and its SETUP names A. -/
def plain (i : ConnId) : Command :=
  .event ⟨.read i (.data (ascii "RTSP/1.0 200 OK\r\n\r\n")), .inProgress, Recovery.sent⟩

def reconnected : List Command :=
  [.event ⟨.writable 0 false, .inProgress, Recovery.sent⟩,
    .event ⟨.read 0 (.data (ascii "RTSP/1.0 200 OK\r\nSession: A\r\n\r\n")), .inProgress, Recovery.sent⟩,
    .event ⟨.read 0 .eof, .inProgress, []⟩, .event ⟨.fire 0, .immediate, Recovery.sent⟩,
    plain 1, plain 1]

theorem oldSessionSent : ¬ ∀ (order : HeaderOrder) (upstreamUrl streamPath : Bytes)
    (connect : ConnectResult) (writes : List WriteResult) (commands : List Command),
    Throughout watch Own (begin order upstreamUrl streamPath connect writes)
      (trace (begin order upstreamUrl streamPath connect writes).world commands) := by
  intro always
  have run := always insertionOrder (ascii "rtsp://10.0.0.9/cam") (ascii "/cam") .inProgress [] reconnected
  rw [runOwn (beginHolding _ _ _ _ _)] at run
  revert run
  decide

end RtspRelay.SessionOrigin
