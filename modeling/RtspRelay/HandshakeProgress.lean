import Mathlib.Data.Fintype.Defs
import RtspRelay.ExchangeSteps

/-! Whether a connected source still has something to wait for. Only a 200 moves
the handshake on and only a 404 starts a timer; PLAY is taken for granted as soon
as it is sent. -/
namespace RtspRelay.HandshakeProgress
open Machine Protocol Source World Transition Exchange
open Connection (WriteResult)
open Recovery (Connected)

-- A response answers the requests of its connection that have its CSeq.
def unanswered (i : ConnId) : List Entry → List RtspMessage
  | [] => []
  | .asked j req :: past => if j = i then req :: unanswered i past else unanswered i past
  | .answered j msg :: past =>
    if j = i then (unanswered i past).filter (·.cseq ≠ msg.cseq) else unanswered i past

def granted (i : ConnId) : List Entry → Prop
  | [] => False
  | .asked _ _ :: past => granted i past
  | .answered j msg :: past => (j = i ∧ msg.statusCode = 200 ∧
      ∃ req ∈ unanswered i past, req.method = .play ∧ req.cseq = msg.cseq) ∨ granted i past

instance decideGranted (i : ConnId) : (log : List Entry) → Decidable (granted i log)
  | [] => inferInstanceAs (Decidable False)
  | .asked _ _ :: past => decideGranted i past
  | .answered j msg :: past =>
    have := decideGranted i past
    inferInstanceAs (Decidable ((j = i ∧ msg.statusCode = 200 ∧
      ∃ req ∈ unanswered i past, req.method = .play ∧ req.cseq = msg.cseq) ∨ granted i past))

def Alive (s : Watched) : Prop :=
  s.world.crashed = false → s.world.source.stopping = false →
    ∀ j ∈ s.world.source.conn, Connected s.world j →
      unanswered j s.log ≠ [] ∨ granted j s.log ∨ s.world.timers ≠ []

def Honest (s : Watched) : Prop :=
  s.world.crashed = false → s.world.source.stopping = false →
    sourceStateToString s.world.source.state = ascii "Playing" →
    ∃ j, s.world.source.conn = some j ∧ granted j s.log

def Shaking (state : Source.State) : Prop := state = .options ∨ state = .describe ∨ state = .setup

-- A response, or an expired timer, leaves something to wait for.
def Moves (s : Watched) : Happening → Prop
  | .message i msg => s.world.crashed = false → s.world.source.stopping = false →
      ∀ j ∈ s.world.source.conn, Connected s.world j →
        (msg.statusCode = 200 ∧ Shaking s.world.source.state) ∨ msg.statusCode = 404 ∨
          unanswered j (.answered i msg :: s.log) ≠ [] ∨ granted j (.answered i msg :: s.log) ∨
          s.world.timers ≠ []
  | .fire n connect => s.world.crashed = false → s.world.source.stopping = false →
      ∀ j ∈ s.world.source.conn, Connected s.world j → n < s.world.timers.length →
        ¬ (connect = .inProgress ∨ connect = .resolveFailed) ∨ unanswered j s.log ≠ [] ∨
          granted j s.log ∨ s.world.timers.eraseIdx n ≠ []
  | _ => True
instance (s) : (hap : Happening) → Decidable (Moves s hap)
  | .message _ _ | .fire _ _ => by unfold Moves Shaking Connected; infer_instance
  | .enter _ | .frame _ _ _ | .stored _ _ | .writable _ _ | .ended _ | .broken _ | .runTask | .stop _ =>
    .isTrue trivial

-- No 200 is handled while SETUP waits.
def Unfinished (s : Watched) : Happening → Prop
  | .message _ msg => s.world.crashed = false → s.world.source.stopping = false →
      s.world.source.state = .setup → msg.statusCode = 200 → s.world.source.conn = none
  | _ => True
instance (s hap) : Decidable (Unfinished s hap) := by unfold Unfinished; split <;> infer_instance

theorem playingText {state : Source.State} (text : sourceStateToString state = ascii "Playing") :
    state = .playing := by
  cases state <;> first | rfl | exact absurd text (by decide)

/-! What a happening does to the timers, and that only stop stops. -/

theorem stoppingKept (w : World) {h : Happening} (ordinary : Ordinary h) :
    (effect w h).source.stopping = w.source.stopping := by
  cases h with
  | message | stop => exact ordinary.elim
  | enter | frame => rfl
  | stored i rest => cases rest <;> rfl
  | writable c failed => exact (handleLasting w .inProgress (.writable c failed)).stopping
  | ended i => exact (handleLasting w .inProgress (.read i .eof)).stopping
  | broken i => exact (handleLasting w .inProgress (.read i .error)).stopping
  | fire n connect => exact (fireLasting w n connect).stopping
  | runTask => exact (handleLasting w .inProgress .runTask).stopping

theorem timersStay {w : World} {h : Happening} (ordinary : Ordinary h) (noFire : ∀ n connect, h ≠ .fire n connect)
    (closed : opens w h = false) (waiting : w.timers ≠ []) : (effect w h).timers ≠ [] := by
  have more : ∀ t : Timer, w.timers ++ [t] ≠ [] := fun t => List.append_ne_nil_of_left_ne_nil waiting _
  cases h with
  | message | stop => exact ordinary.elim
  | fire n connect => exact absurd rfl (noFire n connect)
  | enter | frame => exact waiting
  | stored i rest => cases rest <;> exact waiting
  | runTask =>
    simp only [effect, World.runTask]
    split
    · exact waiting
    · exact more _
  | writable c failed =>
    simp only [opens] at closed
    simp only [effect, World.writable]
    split
    · rename_i connecting
      cases failed with
      | true => exact more _
      | false => rw [connecting] at closed; contradiction
    · exact waiting
  | ended i =>
    simp only [effect, World.read]
    split
    · unfold World.clientClosed World.scheduleReconnect
      split
      · exact waiting
      · exact more _
    · exact waiting
  | broken i =>
    simp only [effect, World.read]
    split <;> exact waiting

/-! A timer that expires without opening a connection. -/

def retryOf (c : ClientId) : ConnectResult → List Timer
  | .socketFailed | .refused => [.connect c]
  | _ => []

structure Later (w after : World) (result : ConnectResult) : Prop where
  conn : after.source.conn = w.source.conn
  conns : after.conns = w.conns
  crashed : after.crashed = w.crashed
  timers : ∃ c, after.timers = w.timers ++ retryOf c result

theorem connectLater (w : World) (c : ClientId) {result : ConnectResult} (later : result ≠ .immediate) :
    Later w (w.connect c result) result := by
  cases result with
  | immediate => contradiction
  | resolveFailed | inProgress => exact ⟨rfl, rfl, rfl, c, (List.append_nil _).symm⟩
  | socketFailed | refused => exact ⟨rfl, rfl, rfl, c, rfl⟩

theorem upstreamLater {w : World} (running : w.source.stopping = false) {result : ConnectResult}
    (later : result ≠ .immediate) : Later w ((w.setState .connecting).connectToUpstream result) result := by
  have connects := connectLater (w.setState .connecting).dropClient.makeClient
    (w.setState .connecting).nextClient later
  have open_ : ¬ (w.setState .connecting).source.stopping = true := by simp [setState, running]
  have upstream : (w.setState .connecting).connectToUpstream result = (w.setState
      .connecting).dropClient.makeClient.connect (w.setState .connecting).nextClient result :=
    if_neg open_
  have dropped : Later w (w.setState .connecting).dropClient .inProgress := by
    unfold World.dropClient
    split
    · exact ⟨rfl, rfl, rfl, 0, (List.append_nil _).symm⟩
    · exact ⟨rfl, rfl, rfl, 0, (List.append_nil _).symm⟩
  obtain ⟨_, timers⟩ := dropped.timers
  obtain ⟨c, retry⟩ := connects.timers
  rw [upstream]
  refine ⟨connects.conn.trans dropped.conn, connects.conns.trans dropped.conns,
    connects.crashed.trans dropped.crashed, c, retry.trans ?_⟩
  exact congrArg (· ++ retryOf c result) (timers.trans (List.append_nil _))

theorem fireLater {w : World} {n : Nat} (due : n < w.timers.length)
    (running : w.source.stopping = false) {result : ConnectResult} (later : result ≠ .immediate) :
    Later (w.takeTimer n) (w.fire n result) result := by
  unfold World.fire
  rw [List.getElem?_eq_getElem due]
  dsimp only
  cases w.timers[n] with
  | connect c => exact connectLater _ c later
  | reconnect => exact upstreamLater (w := w.takeTimer n) running later
  | retry404 =>
    have open_ : ¬ (w.takeTimer n).source.stopping = true := by simp [takeTimer, running]
    rw [World.expire, if_neg open_]
    exact upstreamLater (w := w.takeTimer n) running later

/-! A response that no request follows. -/

theorem silentStays {s : Watched} {msg : RtspMessage} (silent : reply s.world msg = none) :
    ¬ (msg.statusCode = 200 ∧ Shaking s.world.source.state) := by
  rintro ⟨ok, state⟩
  obtain ⟨req, there⟩ := replies ok state
  rw [silent] at there
  contradiction

theorem silentAlive {s : Watched} (i : ConnId) {msg : RtspMessage} (silent : reply s.world msg = none) :
    Alive (watch s (.message i msg)) ↔ Moves s (.message i msg) := by
  obtain ⟨conns, crashed, conn, stopping, timers⟩ := silentRest silent
  have stays := silentStays silent
  rw [watchMessage, silent]
  unfold Alive Moves Connected
  dsimp only [Option.bind_none, Option.toList_none, List.nil_append]
  rw [conns, crashed, conn, stopping, timers]
  constructor
  · intro alive running open_ j held connected
    rcases alive running open_ j held connected with waiting | played | pending
    · exact .inr (.inr (.inl waiting))
    · exact .inr (.inr (.inr (.inl played)))
    · split at pending
      · rename_i missing
        exact .inr (.inl missing)
      · exact .inr (.inr (.inr (.inr pending)))
  · intro moves running open_ j held connected
    rcases moves running open_ j held connected with on | missing | waiting | played | pending
    · exact absurd on stays
    · rw [if_pos missing]
      exact .inr (.inr (List.append_ne_nil_of_right_ne_nil _ (List.cons_ne_nil _ _)))
    · exact .inl waiting
    · exact .inr (.inl played)
    · split
      · exact .inr (.inr (List.append_ne_nil_of_left_ne_nil pending _))
      · exact .inr (.inr pending)

theorem repliedAlive {s : Watched} (i : ConnId) {msg req : RtspMessage}
    (replies : reply s.world msg = some req) :
    Alive (watch s (.message i msg)) ∧ Moves s (.message i msg) := by
  have sends := repliedSends replies
  have kept := readyKept s.world msg
  obtain ⟨ok, form⟩ := replied replies
  have shaking : Shaking s.world.source.state := by
    cases form with
    | describe state => exact .inl state
    | setup state => exact .inr (.inl state)
    | play state => exact .inr (.inr state)
  refine ⟨?_, fun _ _ _ _ _ => .inl ⟨ok, shaking⟩⟩
  intro _ _ j held _
  rw [watchMessage, replies] at held ⊢
  have conn : (s.world.handleResponse msg).source.conn = s.world.source.conn := by
    rw [sends.source]
    exact kept.conn
  have mine : s.world.source.conn = some j := conn.symm.trans held
  refine .inl ?_
  rw [Option.bind_some, mine]
  dsimp only [Option.map_some, Option.toList_some, List.cons_append, unanswered]
  rw [if_pos rfl]
  exact List.cons_ne_nil _ _

theorem openedAlive {w after : World} {log : List Entry} (opened : Opened w after) :
    Alive ⟨after, .asked w.nextConn (optionsRequest w.source.upstreamUrl 1) :: log⟩ := by
  intro _ _ j held _
  rw [opened.conn] at held
  cases held
  refine .inl ?_
  rw [unanswered, if_pos rfl]
  exact List.cons_ne_nil _ _

theorem ordinaryAlive {s : Watched} (h : Alive s) {hap : Happening} (ordinary : Ordinary hap)
    (noFire : ∀ n connect, hap ≠ .fire n connect) : Alive (watch s hap) := by
  have happened := happens s.world ordinary
  have stopping := stoppingKept s.world ordinary
  rw [watchOrdinary s ordinary]
  cases open_ : opens s.world hap with
  | true =>
    rw [if_pos open_] at happened
    exact openedAlive happened
  | false =>
    rw [if_neg (by simp [open_])] at happened
    intro running notStopped j held connected
    have before : s.world.crashed = false := Bool.eq_false_iff.mpr fun crashed =>
      Bool.eq_false_iff.mp running (happened.crashed crashed)
    have mine : s.world.source.conn = some j := by
      rcases happened.conn with same | gone
      · exact same.symm.trans held
      · exact absurd (gone.symm.trans held) nofun
    rcases h before (stopping.symm.trans notStopped) j mine (happened.bytes j connected).1 with
      waiting | played | pending
    · exact .inl waiting
    · exact .inr (.inl played)
    · exact .inr (.inr (timersStay ordinary noFire open_ pending))

theorem stoppedAlive {s : Watched} (stopped : s.world.source.stopping = true) : Alive s := by
  intro _ running
  rw [stopped] at running
  contradiction

theorem fireOpens {w : World} {n : Nat} (due : n < w.timers.length)
    (running : w.source.stopping = false) (connect : ConnectResult) :
    opens w (.fire n connect) = decide (connect = .immediate) := by
  simp only [opens, List.getElem?_eq_getElem due, running, Bool.not_false]
  cases w.timers[n] <;> exact Bool.and_true _

theorem retryNonempty (c : ClientId) (result : ConnectResult) (later : result ≠ .immediate) :
    retryOf c result ≠ [] ↔ ¬ (result = .inProgress ∨ result = .resolveFailed) := by
  cases result <;> simp [retryOf] at later ⊢

/-! The attempt of the timer does not end at once: what it leaves pending is a timer or a socket. -/
theorem laterAlive {s : Watched} {n : Nat} (due : n < s.world.timers.length)
    (stopping : s.world.source.stopping = false) {connect : ConnectResult} (now : connect ≠ .immediate) :
    Alive { s with world := effect s.world (.fire n connect) } ↔ Moves s (.fire n connect) := by
  have later := fireLater due stopping now
  have stays := (fireLasting s.world n connect).stopping
  obtain ⟨c, timers⟩ := later.timers
  have left : (s.world.fire n connect).timers ≠ [] ↔
      ¬ (connect = .inProgress ∨ connect = .resolveFailed) ∨ s.world.timers.eraseIdx n ≠ [] := by
    rw [timers, ← retryNonempty c connect now, or_comm, Ne, List.append_eq_nil_iff, not_and_or]
    exact Iff.rfl
  unfold Alive Moves Connected
  dsimp only [effect]
  rw [left, later.conns, later.crashed, later.conn, stays]
  constructor
  · intro alive running open_ j held connected _
    rcases alive running open_ j held connected with waiting | played | retried | pending
    · exact .inr (.inl waiting)
    · exact .inr (.inr (.inl played))
    · exact .inl retried
    · exact .inr (.inr (.inr pending))
  · intro moves running open_ j held connected
    rcases moves running open_ j held connected due with retried | waiting | played | pending
    · exact .inr (.inr (.inl retried))
    · exact .inl waiting
    · exact .inr (.inl played)
    · exact .inr (.inr (.inr pending))

theorem fireAlive {s : Watched} (h : Alive s) (n : Nat) (connect : ConnectResult) :
    Alive (watch s (.fire n connect)) ↔ Moves s (.fire n connect) := by
  cases stopping : s.world.source.stopping with
  | true =>
    have stopped : (s.world.fire n connect).source.stopping = true :=
      (fireLasting s.world n connect).stopping.trans stopping
    refine iff_of_true (stoppedAlive stopped) fun _ running => ?_
    rw [stopping] at running
    contradiction
  | false =>
    have fired : watch s (.fire n connect) = _ := watchOrdinary s trivial
    rw [fired]
    by_cases due : n < s.world.timers.length
    · rw [fireOpens due stopping connect]
      by_cases now : connect = .immediate
      · have happened := happens s.world (h := .fire n connect) trivial
        rw [fireOpens due stopping connect, if_pos (decide_eq_true now)] at happened
        rw [if_pos (decide_eq_true now)]
        exact iff_of_true (openedAlive happened) fun _ _ _ _ _ _ => .inl (by rw [now]; decide)
      · rw [if_neg (by simp [now])]
        exact laterAlive due stopping now
    · have missing : s.world.timers[n]? = none := List.getElem?_eq_none (Nat.le_of_not_lt due)
      have nothing : s.world.fire n connect = s.world := by rw [World.fire, missing]
      have closed : opens s.world (.fire n connect) = false := by rw [opens, missing, Bool.and_false]
      rw [closed, if_neg (by decide), effect, nothing]
      exact iff_of_true h fun _ _ _ _ _ there => absurd there due

theorem aliveExact {s : Watched} (h : Alive s) (hap : Happening) :
    Alive (watch s hap) ↔ Moves s hap := by
  cases hap with
  | message i msg =>
    cases replies : reply s.world msg with
    | none => exact silentAlive i replies
    | some req => exact iff_of_true (repliedAlive i replies).1 (repliedAlive i replies).2
  | stop writes => exact iff_of_true (fun _ _ _ held _ => absurd held nofun) trivial
  | fire n connect => exact fireAlive h n connect
  | enter | frame | stored | writable | ended | broken | runTask =>
    exact iff_of_true (ordinaryAlive h trivial nofun) trivial

/-! PLAY is asked for with the state it ends in, so it cannot have been answered. -/

theorem unansweredAsked {i : ConnId} {log : List Entry} {req : RtspMessage}
    (waiting : req ∈ unanswered i log) : .asked i req ∈ log := by
  induction log with
  | nil => contradiction
  | cons entry past ih =>
    refine List.mem_cons.mpr ?_
    cases entry with
    | asked j sent =>
      rw [unanswered] at waiting
      split at waiting
      · rename_i same
        subst same
        rcases List.mem_cons.mp waiting with first | earlier
        · exact .inl (first ▸ rfl)
        · exact .inr (ih earlier)
      · exact .inr (ih waiting)
    | answered j msg =>
      rw [unanswered] at waiting
      split at waiting
      · exact .inr (ih (List.mem_of_mem_filter waiting))
      · exact .inr (ih waiting)

theorem grantedAsked {i : ConnId} {log : List Entry} (played : granted i log) :
    ∃ req, .asked i req ∈ log ∧ req.method = .play := by
  induction log with
  | nil => exact played.elim
  | cons entry past ih =>
    have earlier : granted i past → ∃ req, .asked i req ∈ entry :: past ∧ req.method = .play :=
      fun before => (ih before).imp fun _ asked => ⟨List.mem_cons_of_mem _ asked.1, asked.2⟩
    cases entry with
    | asked j req => exact earlier played
    | answered j msg =>
      rcases played with ⟨_, _, req, waiting, play, _⟩ | before
      · exact ⟨req, List.mem_cons_of_mem _ (unansweredAsked waiting), play⟩
      · exact earlier before

structure Unplayed (s : Watched) : Prop where
  recorded : Recorded s
  playless : ∀ j, s.world.source.conn = some j → Shaking s.world.source.state →
    ∀ req, .asked j req ∈ s.log → req.method ≠ .play

theorem restingShaking {state : Source.State} (resting : Resting state) : ¬ Shaking state := by
  rcases resting with rfl | rfl | rfl <;> unfold Shaking <;> decide

theorem openedUnplayed {w after : World} {log : List Entry} (opened : Opened w after)
    (h : Unplayed ⟨w, log⟩) :
    Unplayed ⟨after, .asked w.nextConn (optionsRequest w.source.upstreamUrl 1) :: log⟩ := by
  refine ⟨openedRecorded opened h.recorded, fun j held _ req asked => ?_⟩
  rw [opened.conn] at held
  cases held
  rcases List.mem_cons.mp asked with first | earlier
  · cases first
    nofun
  · exact absurd (h.recorded.known _ _ earlier) (Nat.lt_irrefl _)

theorem idleUnplayed {w after : World} {log : List Entry} (idle : Idle w after)
    (h : Unplayed ⟨w, log⟩) : Unplayed ⟨after, log⟩ := by
  refine ⟨idleRecorded idle h.recorded, fun j held shaking req asked => ?_⟩
  have mine : w.source.conn = some j := by
    rcases idle.conn with same | gone
    · exact same.symm.trans held
    · exact absurd (gone.symm.trans held) nofun
  rcases idle.state with ⟨state, _⟩ | resting
  · exact h.playless j mine (state ▸ shaking) req asked
  · exact absurd shaking (restingShaking resting)

theorem silentState {w : World} {msg : RtspMessage} (silent : reply w msg = none) :
    (w.handleResponse msg).source.state = w.source.state := by
  rw [silentSource silent, (heardSource w msg).1]

theorem repliedState {w : World} {msg req : RtspMessage} (replies : reply w msg = some req) :
    (w.handleResponse msg).source.state = (ready w msg).source.state ∧
      (w.handleResponse msg).source.conn = w.source.conn ∧
      (w.handleResponse msg).source.stopping = w.source.stopping ∧
      (w.handleResponse msg).crashed = (w.crashed || w.source.conn.isNone) := by
  have sends := repliedSends replies
  have kept := readyKept w msg
  rw [sends.source, sends.crashed, ← kept.conn, ← kept.crashed, ← kept.stopping]
  exact ⟨rfl, rfl, rfl, rfl⟩

theorem watchUnplayed {s : Watched} (h : Unplayed s) (hap : Happening) : Unplayed (watch s hap) := by
  cases hap with
  | message i msg =>
    refine ⟨watchRecorded h.recorded _, fun j held shaking req asked => ?_⟩
    rw [watchMessage] at held shaking asked
    cases replies : reply s.world msg with
    | none =>
      dsimp only at held shaking
      rw [(silentRest replies).2.2.1] at held
      rw [silentState replies] at shaking
      rw [replies] at asked
      exact h.playless j held shaking req (by simpa using asked)
    | some sent =>
      obtain ⟨state, conn, _⟩ := repliedState replies
      dsimp only at held shaking
      rw [conn] at held
      rw [state] at shaking
      rw [replies, held] at asked
      have before : Shaking s.world.source.state ∧ sent.method ≠ .play := by
        rcases readyState (replied replies).2 with ⟨from_, asks, _⟩ | ⟨from_, asks, _⟩ | ⟨_, _, to_⟩
        · exact ⟨.inl from_, by rw [asks]; decide⟩
        · exact ⟨.inr (.inl from_), by rw [asks]; decide⟩
        · rw [to_] at shaking
          rcases shaking with state | state | state <;> contradiction
      rcases List.mem_cons.mp asked with first | earlier
      · cases first
        exact before.2
      · exact h.playless j held before.1 req (by simpa using earlier)
  | stop writes =>
    exact ⟨watchRecorded h.recorded _, fun _ held => absurd held nofun⟩
  | enter | frame | stored | writable | ended | broken | fire | runTask =>
    exact ordinaryKeeps openedUnplayed idleUnplayed trivial h

-- While no 200 is handled in kSetup the source never gets to kPlaying.
def NotPlaying (s : Watched) : Prop :=
  s.world.crashed = false → s.world.source.stopping = false → s.world.source.state ≠ .playing

theorem ordinaryNotPlaying {s : Watched} (h : NotPlaying s) {hap : Happening}
    (ordinary : Ordinary hap) : NotPlaying (watch s hap) := by
  have happened := happens s.world ordinary
  have stopping := stoppingKept s.world ordinary
  intro running notStopped
  rw [watchOrdinary s ordinary] at running notStopped ⊢
  dsimp only at running notStopped ⊢
  split at happened
  · rw [happened.state.1]
    decide
  · rcases happened.state with ⟨state, _⟩ | resting
    · rw [state]
      refine h (Bool.eq_false_iff.mpr fun crashed => ?_) (stopping.symm.trans notStopped)
      exact Bool.eq_false_iff.mp running (happened.crashed crashed)
    · rcases resting with state | state | state <;> rw [state] <;> decide

theorem messageNotPlaying {s : Watched} (h : NotPlaying s) (i : ConnId) (msg : RtspMessage)
    (unfinished : Unfinished s (.message i msg)) : NotPlaying (watch s (.message i msg)) := by
  intro running notStopped
  rw [watchMessage] at running notStopped ⊢
  dsimp only at running notStopped ⊢
  cases replies : reply s.world msg with
  | none =>
    obtain ⟨_, crashed, _, stopping, _⟩ := silentRest replies
    rw [silentState replies]
    exact h (crashed.symm.trans running) (stopping.symm.trans notStopped)
  | some req =>
    obtain ⟨state, _, stopping, crashed⟩ := repliedState replies
    obtain ⟨before, held⟩ := Bool.or_eq_false_iff.mp (crashed.symm.trans running)
    rw [state]
    rcases readyState (replied replies).2 with ⟨_, _, to_⟩ | ⟨_, _, to_⟩ | ⟨from_, _, _⟩
    · rw [to_]
      decide
    · rw [to_]
      decide
    · rw [unfinished before (stopping.symm.trans notStopped) from_ (replied replies).1] at held
      contradiction

theorem finishedLies {s : Watched} (h : Unplayed s) {hap : Happening} (finished : ¬ Unfinished s hap) :
    ¬ Honest (watch s hap) := by
  cases hap with
  | message i msg =>
    simp only [Unfinished, Classical.not_imp] at finished
    obtain ⟨running, notStopped, setup, ok, held⟩ := finished
    obtain ⟨j, mine⟩ := Option.ne_none_iff_exists'.mp held
    obtain ⟨req, replies⟩ := replies ok (.inr (.inr setup))
    obtain ⟨state, conn, stopping, crashed⟩ := repliedState replies
    intro honest
    rw [watchMessage, replies, mine] at honest
    have playing : (s.world.handleResponse msg).source.state = .playing := by
      rw [state, ready, setup]
      rfl
    have still : (s.world.handleResponse msg).crashed = false := by
      rw [crashed, running, mine]
      rfl
    obtain ⟨k, same, played⟩ := honest still (stopping.trans notStopped) (by rw [playing]; rfl)
    rw [conn, mine] at same
    cases same
    have before : granted j (.answered i msg :: s.log) := played
    obtain ⟨play, asked, method⟩ := grantedAsked before
    exact h.playless j mine (.inr (.inr setup)) play (by simpa using asked) method
  | enter | frame | stored | writable | ended | broken | fire | runTask | stop =>
    exact absurd trivial finished

theorem honestExact {s : Watched} (h : Unplayed s) (fresh : NotPlaying s) (hs : List Happening) :
    Always watch Honest s hs ↔ Throughout watch Unfinished s hs := by
  refine alwaysExact (I := fun s => Unplayed s ∧ NotPlaying s) (C := Unfinished)
    (fun s hap before unfinished => ⟨watchUnplayed before.1 hap, ?_⟩)
    (fun s before running notStopped text => absurd (playingText text) (before.2 running notStopped))
    (fun s hap before finished => finishedLies before.1 finished) ⟨h, fresh⟩
  cases hap with
  | message i msg => exact messageNotPlaying before.2 i msg unfinished
  | stop writes =>
    intro _ _ playing
    have rests : Resting (watch s (.stop writes)).world.source.state := stopRests s.world writes
    rw [playing] at rests
    rcases rests with state | state | state <;> contradiction
  | enter | frame | stored | writable | ended | broken | fire | runTask =>
    exact ordinaryNotPlaying before.2 trivial

theorem runAlive {s : Watched} (h : Alive s) (hs : List Happening) :
    Always watch Alive s hs ↔ Throughout watch Moves s hs :=
  alwaysExact (I := Alive) (C := Moves) (fun _ hap before moves => (aliveExact before hap).mpr moves)
    (fun _ alive => alive) (fun _ hap before stuck alive => stuck ((aliveExact before hap).mp alive)) h

section
variable (order : HeaderOrder) (upstreamUrl streamPath : Bytes) (connect : ConnectResult)
  (writes : List WriteResult)

theorem beginUnplayed : Unplayed (begin order upstreamUrl streamPath connect writes) :=
  beginKeeps openedUnplayed idleUnplayed order upstreamUrl streamPath connect writes
    ⟨⟨nofun, nofun, fun i connected => by contradiction⟩, nofun⟩

theorem beginNotPlaying : NotPlaying (begin order upstreamUrl streamPath connect writes) := by
  have begun := beginCases order upstreamUrl streamPath connect writes
  intro _ _
  split at begun
  · rw [begun.state.1]
    decide
  · rcases begun.state with ⟨state, _⟩ | state | state | state <;> rw [state] <;> nofun

theorem beginAlive : Alive (begin order upstreamUrl streamPath connect writes) := by
  have begun := beginCases order upstreamUrl streamPath connect writes
  split at begun
  · rename_i now
    have alive : Alive ⟨_, [.asked 0 (optionsRequest upstreamUrl 1)]⟩ := openedAlive begun
    rw [begin, if_pos now]
    rw [begin] at alive
    exact alive
  · intro _ _ j held _
    rcases begun.conn with same | gone
    · exact absurd (same.symm.trans held).symm (Option.some_ne_none j)
    · exact absurd (gone.symm.trans held).symm (Option.some_ne_none j)

theorem progressExact (commands : List Command) :
    (Always watch Alive (begin order upstreamUrl streamPath connect writes)
        (trace (begin order upstreamUrl streamPath connect writes).world commands) ↔
      Throughout watch Moves (begin order upstreamUrl streamPath connect writes)
        (trace (begin order upstreamUrl streamPath connect writes).world commands)) ∧
    (Always watch Honest (begin order upstreamUrl streamPath connect writes)
        (trace (begin order upstreamUrl streamPath connect writes).world commands) ↔
      Throughout watch Unfinished (begin order upstreamUrl streamPath connect writes)
        (trace (begin order upstreamUrl streamPath connect writes).world commands)) :=
  ⟨runAlive (beginAlive order upstreamUrl streamPath connect writes) _,
    honestExact (beginUnplayed order upstreamUrl streamPath connect writes)
      (beginNotPlaying order upstreamUrl streamPath connect writes) _⟩
end

/-! OPTIONS is refused and nothing follows; and three answers make PLAY a success
before it is answered. -/
def connected : Command := .event ⟨.writable 0 false, .inProgress, Recovery.sent⟩

def refused : List Command := [connected,
  .event ⟨.read 0 (.data (ascii "RTSP/1.0 401 Unauthorized\r\nCSeq: 1\r\n\r\n")), .inProgress, []⟩]

def accepted : List Command :=
  [connected, .event Recovery.answered, .event Recovery.answered, .event Recovery.answered]

theorem refusalStalls :
    (¬ ∀ (order : HeaderOrder) (upstreamUrl streamPath : Bytes) (connect : ConnectResult)
      (writes : List WriteResult) (commands : List Command),
      Always watch Alive (begin order upstreamUrl streamPath connect writes)
        (trace (begin order upstreamUrl streamPath connect writes).world commands)) ∧
    ¬ ∀ (order : HeaderOrder) (upstreamUrl streamPath : Bytes) (connect : ConnectResult)
      (writes : List WriteResult) (commands : List Command),
      Always watch Honest (begin order upstreamUrl streamPath connect writes)
        (trace (begin order upstreamUrl streamPath connect writes).world commands) := by
  constructor
  · intro always
    have run := always insertionOrder (ascii "rtsp://10.0.0.9/cam") (ascii "/cam") .inProgress [] refused
    rw [runAlive (beginAlive _ _ _ _ _)] at run
    revert run
    decide
  · intro always
    have run := always insertionOrder (ascii "rtsp://10.0.0.9/cam") (ascii "/cam") .inProgress [] accepted
    rw [honestExact (beginUnplayed _ _ _ _ _) (beginNotPlaying _ _ _ _ _)] at run
    revert run
    decide

end RtspRelay.HandshakeProgress
