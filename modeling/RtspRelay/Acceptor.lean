import Mathlib.Data.Int.CardIntervalMod
import RtspRelay.IoShutdown

/-! The accept loop of a TcpServer and the IO loops it hands its connections to, in
turn. A loop belongs to the thread that made it until its own thread has entered it:
up to then the accepting thread takes itself for the loop's and sets up at once. -/
namespace RtspRelay.Acceptor
open Transition TaskQueue
open IoShutdown (EventLoop Turn turn)

-- Who posts to an IO loop: the accept loop, or another thread.
inductive Poster where
  | acceptLoop
  | other (thread : Nat)
  deriving DecidableEq

inductive Handing where
  | inline
  | task (n : Nat)
  deriving DecidableEq

-- `none` is the accept loop itself.
structure Placement where
  loop : Option Nat
  handing : Handing
  deriving DecidableEq

-- `posting`: behind the push of a runInLoop and before its wakeup. Connections are named by
-- the order they were accepted in.
structure TcpServer where
  ioLoops : List (EventLoop Poster)
  nextLoop : Nat
  accepting : Bool
  posting : Option Nat
  placements : List Placement

inductive AcceptResult where
  | connection | again | interrupted | failed

inductive Input where
  | readable
  | accept (result : AcceptResult)
  | wakeup
  | io (i : Nat) (t : Turn Poster)

def start (ioThreads : Nat) : TcpServer :=
  ⟨List.replicate ioThreads IoShutdown.fresh, 0, false, none, []⟩

def getNextLoop (s : TcpServer) : Option Nat × TcpServer :=
  if s.ioLoops = [] then (none, s)
  else (some (s.nextLoop % s.ioLoops.length), { s with nextLoop := (s.nextLoop + 1) % 2 ^ 64 })

-- The thread that made the loops is the one that accepts.
def isInLoopThread (e : EventLoop Poster) : Bool := e.place = .created

def place (s : TcpServer) (p : Placement) : TcpServer := { s with placements := s.placements ++ [p] }

def runInLoop (s : TcpServer) (i : Nat) : TcpServer :=
  { s with ioLoops := s.ioLoops.modify i (turn · (.act (.push .acceptLoop))), posting := some i }

def wakeup (s : TcpServer) (i : Nat) : TcpServer :=
  { s with ioLoops := s.ioLoops.modify i (turn · (.act (.write .acceptLoop))), posting := none }

def handOn (s : TcpServer) : TcpServer :=
  match getNextLoop s with
  | (none, s) => place s ⟨none, .inline⟩
  | (some i, s) =>
    match s.ioLoops[i]? with
    | none => s
    | some e =>
      if isInLoopThread e then place s ⟨some i, .inline⟩
      else runInLoop (place s ⟨some i, .task e.loop.posted⟩) i

-- The posts of the accept loop are its own steps.
def ByAcceptLoop : Turn Poster → Bool
  | .act (.push p) | .act (.write p) => p = .acceptLoop
  | _ => false

def step (s : TcpServer) : Input → TcpServer
  | .readable => { s with accepting := true }
  | .accept result =>
    if s.accepting ∧ s.posting = none then
      match result with
      | .connection => handOn s
      | .interrupted => s
      | .again | .failed => { s with accepting := false }
    else s
  | .wakeup =>
    match s.posting with
    | none => s
    | some i => wakeup s i
  | .io i t => if ByAcceptLoop t then s else { s with ioLoops := s.ioLoops.modify i (turn · t) }

-- The connection a task of loop `i` sets up, if it is one of the accept loop's.
def setupOf (placements : List Placement) (i n : Nat) : Option Nat :=
  placements.findIdx? fun p => p = ⟨some i, .task n⟩

def givenTo (i : Nat) (p : Placement) : Bool := p.loop = some i && p.handing ≠ .inline

-- The connections handed to loop `i` as tasks, in the order they were accepted in.
def given (placements : List Placement) (i : Nat) : List Nat :=
  (placements.zipIdx.filter fun entry => givenTo i entry.1).map Prod.snd

def load (placements : List Placement) (i : Nat) : Nat := placements.countP fun p => p.loop = some i

structure Placed (ioThreads : Nat) (s : TcpServer) : Prop where
  turns : ∀ (k : Nat) (p : Placement), s.placements[k]? = some p →
    p.loop = if ioThreads = 0 then none else some (k % 2 ^ 64 % ioThreads)
  setUp : ∀ (i : Nat) (e : EventLoop Poster), s.ioLoops[i]? = some e →
    (ranIn e.loop.log ++ e.loop.tasks ++ e.loop.pendingTasks).filterMap (setupOf s.placements i) =
      given s.placements i
  once : ∀ (i : Nat) (e : EventLoop Poster), s.ioLoops[i]? = some e →
    (ranIn e.loop.log).Nodup ∧ (given s.placements i).Nodup
  awake : ∀ (i : Nat) (e : EventLoop Poster), s.ioLoops[i]? = some e → e.loop.phase = .epollWait →
    e.loop.pendingTasks ≠ [] → 0 < e.loop.wakeup ∨ ∃ t, e.loop.posting t = true
  balanced : s.placements.length ≤ 2 ^ 64 → ∀ i < ioThreads, ∀ j < ioThreads,
    load s.placements i ≤ load s.placements j + 1

/-! One loop: whatever it does, its tasks keep their order and their number grows. -/

structure Sound (e : EventLoop Poster) : Prop where
  ordered : Ordered e.loop
  awake : Awake e.loop
  before : e.place ≠ .inside → e.loop.phase = .processTasks ∧ e.loop.selfPosting = false

theorem freshSound : Sound IoShutdown.fresh := ⟨orderedStart, awakeStart, fun _ => ⟨rfl, rfl⟩⟩

theorem outsideKeeps {a : TaskQueue.Input Poster} (outside : IoShutdown.FromOutside a) (s : TaskLoop Poster) :
    (TaskQueue.step s a).phase = s.phase ∧ (TaskQueue.step s a).selfPosting = s.selfPosting := by
  cases a with
  | push t | write t =>
    rw [TaskQueue.step]
    split <;> exact ⟨rfl, rfl⟩
  | _ => exact outside.elim

theorem turnSound {e : EventLoop Poster} (h : Sound e) (t : Turn Poster) : Sound (turn e t) := by
  obtain ⟨ordered, awake, before⟩ := h
  cases t with
  | enter =>
    rw [turn]
    split
    · rename_i created
      have outside : e.place ≠ .inside := fun inside => by
        rw [created] at inside
        contradiction
      exact ⟨orderedMoved ordered rfl rfl rfl rfl ordered.idle, ⟨awake.self, awake.woken⟩,
        fun _ => before outside⟩
    · exact ⟨ordered, awake, before⟩
  | check =>
    rw [turn]
    split
    · rename_i entering
      have outside : e.place ≠ .inside := fun inside => by
        rw [entering] at inside
        contradiction
      obtain ⟨phase, quiet⟩ := before outside
      have idle : e.loop.phase ≠ .runTasks := fun running => by
        rw [phase] at running
        contradiction
      exact ⟨orderedWhile ordered idle, awakeWhile quiet, fun outside => absurd rfl outside⟩
    · exact ⟨ordered, awake, before⟩
  | act a =>
    rw [turn]
    split
    · exact ⟨ordered, awake, before⟩
    · split
      · rename_i allowed
        refine ⟨orderedStep ordered a, awakeStep awake a, fun outside => ?_⟩
        obtain ⟨phase, quiet⟩ := before outside
        obtain ⟨samePhase, sameSelf⟩ := outsideKeeps (allowed.resolve_left outside) e.loop
        exact ⟨samePhase.trans phase, sameSelf.trans quiet⟩
      · exact ⟨ordered, awake, before⟩

theorem taskStepPosts (s : TaskLoop Poster) (a : TaskQueue.Input Poster) :
    s.posted ≤ (TaskQueue.step s a).posted := by
  cases a with
  | push t =>
    rw [TaskQueue.step]
    split
    · exact Nat.le_refl _
    · exact Nat.le_succ _
  | pushSelf =>
    rw [TaskQueue.step]
    split
    · exact Nat.le_succ _
    · exact Nat.le_refl _
  | write t | writeSelf | swap =>
    rw [TaskQueue.step]
    split <;> exact Nat.le_refl _
  | quit | quitWrite => exact Nat.le_refl _
  | runTask =>
    rw [TaskQueue.step, runTask]
    split
    · split <;> exact Nat.le_refl _
    · exact Nat.le_refl _
  | next =>
    rw [TaskQueue.step, next]
    repeat' split
    all_goals exact Nat.le_refl _
  | wait result =>
    rw [TaskQueue.step]
    split
    · cases result <;> exact Nat.le_refl _
    · exact Nat.le_refl _
  | readWakeup =>
    rw [TaskQueue.step, readWakeup]
    repeat' split
    all_goals exact Nat.le_refl _

theorem turnPosts (e : EventLoop Poster) (t : Turn Poster) : e.loop.posted ≤ (turn e t).loop.posted := by
  cases t with
  | enter | check =>
    rw [turn]
    split <;> exact Nat.le_refl _
  | act a =>
    rw [turn]
    split
    · exact Nat.le_refl _
    · split
      · exact taskStepPosts e.loop a
      · exact Nat.le_refl _

-- Only the accept loop itself is behind a push of its own.
theorem turnPosting {t : Turn Poster} (other : ByAcceptLoop t = false) (e : EventLoop Poster) :
    (turn e t).loop.posting .acceptLoop = e.loop.posting .acceptLoop := by
  cases t with
  | enter | check =>
    rw [turn]
    split <;> rfl
  | act a =>
    rw [turn]
    split
    · rfl
    · split
      · cases a with
        | push t =>
          have differ : Poster.acceptLoop ≠ t := fun same => of_decide_eq_false other same.symm
          simp only [TaskQueue.step]
          split
          · rfl
          · exact if_neg differ
        | write t =>
          have differ : Poster.acceptLoop ≠ t := fun same => of_decide_eq_false other same.symm
          simp only [TaskQueue.step]
          split
          · exact if_neg differ
          · rfl
        | pushSelf | writeSelf | swap =>
          simp only [TaskQueue.step]
          split <;> rfl
        | quit | quitWrite => rfl
        | runTask =>
          simp only [TaskQueue.step, runTask]
          split
          · split <;> rfl
          · rfl
        | next =>
          simp only [TaskQueue.step, next]
          repeat' split
          all_goals rfl
        | wait result =>
          simp only [TaskQueue.step]
          split
          · cases result <;> rfl
          · rfl
        | readWakeup =>
          simp only [TaskQueue.step, readWakeup]
          repeat' split
          all_goals rfl
      · rfl

/-! What a new placement changes for a loop. -/

section
variable {placements : List Placement} {i : Nat}

theorem setupKept {p : Placement} {n : Nat} (other : p ≠ ⟨some i, .task n⟩) :
    setupOf (placements ++ [p]) i n = setupOf placements i n := by
  unfold setupOf
  rw [List.findIdx?_append, List.findIdx?_singleton, if_neg (by simpa using other), Option.map_none, Option.or_none]

theorem setupUnknown {n : Nat} (fresh : ⟨some i, .task n⟩ ∉ placements) : setupOf placements i n = none := by
  refine List.findIdx?_eq_none_iff.mpr fun p inside => decide_eq_false fun same => fresh ?_
  exact same ▸ inside

theorem setupNew {n : Nat} (fresh : ⟨some i, .task n⟩ ∉ placements) :
    setupOf (placements ++ [⟨some i, .task n⟩]) i n = some placements.length := by
  have unknown := setupUnknown fresh
  unfold setupOf at unknown ⊢
  rw [List.findIdx?_append, unknown, List.findIdx?_singleton, if_pos (decide_eq_true rfl), Option.map_some,
    Option.none_or, Nat.zero_add]

theorem givenMore (p : Placement) : given (placements ++ [p]) i =
    given placements i ++ if givenTo i p then [placements.length] else [] := by
  unfold given
  rw [List.zipIdx_append, List.filter_append, List.map_append, Nat.zero_add]
  cases fits : givenTo i p <;> simp [fits]

-- With its first `posted` tasks a loop has all that was given to it.
structure Accounts (placements : List Placement) (i posted : Nat) : Prop where
  known : ∀ n, ⟨some i, .task n⟩ ∈ placements → n < posted
  all : (List.range posted).filterMap (setupOf placements i) = given placements i

theorem accountsGrow {posted later : Nat} (h : Accounts placements i posted) (more : posted ≤ later) :
    Accounts placements i later := by
  refine ⟨fun n inside => Nat.lt_of_lt_of_le (h.known n inside) more, ?_⟩
  obtain ⟨extra, rfl⟩ := Nat.exists_eq_add_of_le more
  have none_ : ((List.range extra).map (posted + ·)).filterMap (setupOf placements i) = [] := by
    rw [List.filterMap_eq_nil_iff]
    intro n late
    obtain ⟨d, _, rfl⟩ := List.mem_map.mp late
    exact setupUnknown fun inside => Nat.not_lt.mpr (Nat.le_add_right posted d) (h.known _ inside)
  rw [List.range_add, List.filterMap_append, none_, List.append_nil, h.all]

theorem accountsOther {posted : Nat} (h : Accounts placements i posted) {p : Placement}
    (other : givenTo i p = false) : Accounts (placements ++ [p]) i posted := by
  have apart : ∀ n, p ≠ ⟨some i, .task n⟩ := by
    rintro n rfl
    exact absurd other (by simp [givenTo])
  refine ⟨fun n inside => ?_, ?_⟩
  · rcases List.mem_append.mp inside with old | new
    · exact h.known n old
    · exact absurd (List.mem_singleton.mp new).symm (apart n)
  · rw [givenMore, if_neg (Bool.eq_false_iff.mp other), List.append_nil, ← h.all]
    exact List.filterMap_congr fun n _ => setupKept (apart n)

theorem accountsHere {posted : Nat} (h : Accounts placements i posted) :
    Accounts (placements ++ [⟨some i, .task posted⟩]) i (posted + 1) := by
  have fresh : ⟨some i, .task posted⟩ ∉ placements := fun inside => Nat.lt_irrefl _ (h.known posted inside)
  have here : givenTo i ⟨some i, .task posted⟩ = true := by simp [givenTo]
  refine ⟨fun n inside => ?_, ?_⟩
  · rcases List.mem_append.mp inside with old | new
    · exact Nat.lt_succ_of_lt (h.known n old)
    · cases List.mem_singleton.mp new
      exact Nat.lt_succ_self _
  · have before : (List.range posted).filterMap (setupOf (placements ++ [⟨some i, .task posted⟩]) i) =
        (List.range posted).filterMap (setupOf placements i) := by
      refine List.filterMap_congr fun n early => setupKept ?_
      rintro same
      cases same
      exact Nat.lt_irrefl _ (List.mem_range.mp early)
    rw [givenMore, if_pos here, List.range_succ, List.filterMap_append, before, h.all,
      List.filterMap_cons_some (setupNew fresh), List.filterMap_nil]
end

/-! The whole server. -/

structure Orderly (n : Nat) (s : TcpServer) : Prop where
  loops : s.ioLoops.length = n
  sound : ∀ (i : Nat) (e : EventLoop Poster), s.ioLoops[i]? = some e → Sound e
  accounts : ∀ (i : Nat) (e : EventLoop Poster), s.ioLoops[i]? = some e →
    Accounts s.placements i e.loop.posted
  posting : ∀ (i : Nat) (e : EventLoop Poster), s.ioLoops[i]? = some e → e.loop.posting .acceptLoop = true →
    s.posting = some i
  next : 0 < n → s.nextLoop = s.placements.length % 2 ^ 64
  turns : ∀ (k : Nat) (p : Placement), s.placements[k]? = some p →
    p.loop = if n = 0 then none else some (k % 2 ^ 64 % n)

theorem startOrderly (n : Nat) : Orderly n (start n) := by
  have same : ∀ (i : Nat) (e : EventLoop Poster), (start n).ioLoops[i]? = some e → e = IoShutdown.fresh :=
    fun i e found => List.eq_of_mem_replicate (List.mem_of_getElem? found)
  refine ⟨List.length_replicate, fun i e found => ?_, fun i e found => ?_, fun i e found => ?_,
    fun _ => rfl, nofun⟩
  · rw [same i e found]
    exact freshSound
  · rw [same i e found]
    exact ⟨nofun, rfl⟩
  · rw [same i e found]
    nofun

theorem modifyFound {loops : List (EventLoop Poster)} {f : EventLoop Poster → EventLoop Poster} {i j : Nat}
    {e : EventLoop Poster} (found : (loops.modify i f)[j]? = some e) :
    ∃ old, loops[j]? = some old ∧ e = if i = j then f old else old := by
  rw [List.getElem?_modify, Option.map_eq_map, Option.map_eq_some_iff] at found
  obtain ⟨old, there, rfl⟩ := found
  refine ⟨old, there, ?_⟩
  split <;> rfl

-- A turn of one loop, and no connection placed.
theorem turnOrderly {n : Nat} {s after : TcpServer} (h : Orderly n s) (i : Nat) (t : Turn Poster)
    (loops : after.ioLoops = s.ioLoops.modify i (turn · t)) (next : after.nextLoop = s.nextLoop)
    (placements : after.placements = s.placements)
    (posting : ∀ (j : Nat) (e : EventLoop Poster), after.ioLoops[j]? = some e →
      e.loop.posting .acceptLoop = true → after.posting = some j) : Orderly n after := by
  refine ⟨?_, fun j e found => ?_, fun j e found => ?_, posting, fun some_ => ?_, fun k p found => ?_⟩
  · rw [loops, List.length_modify]
    exact h.loops
  · rw [loops] at found
    obtain ⟨old, there, rfl⟩ := modifyFound found
    split
    · exact turnSound (h.sound j old there) t
    · exact h.sound j old there
  · rw [loops] at found
    obtain ⟨old, there, rfl⟩ := modifyFound found
    rw [placements]
    split
    · exact accountsGrow (h.accounts j old there) (turnPosts old t)
    · exact h.accounts j old there
  · rw [next, placements]
    exact h.next some_
  · rw [placements] at found
    exact h.turns k p found

theorem turnsMore {n : Nat} {s : TcpServer} (h : Orderly n s) {p : Placement}
    (turn : p.loop = if n = 0 then none else some (s.placements.length % 2 ^ 64 % n)) (k : Nat) (q : Placement)
    (found : (s.placements ++ [p])[k]? = some q) : q.loop = if n = 0 then none else some (k % 2 ^ 64 % n) := by
  rcases Nat.lt_trichotomy k s.placements.length with old | rfl | beyond
  · rw [List.getElem?_append_left old] at found
    exact h.turns k q found
  · rw [List.getElem?_concat_length] at found
    cases Option.some.inj found
    exact turn
  · rw [List.getElem?_eq_none (by rw [List.length_append, List.length_singleton]; omega)] at found
    contradiction

theorem nextMore {m : Nat} : (m % 2 ^ 64 + 1) % 2 ^ 64 = (m + 1) % 2 ^ 64 := by omega

theorem turnPush (e : EventLoop Poster) :
    (turn e (.act (.push .acceptLoop))).loop = TaskQueue.step e.loop (.push .acceptLoop) := by
  simp only [turn, IoShutdown.CallsQuit, IoShutdown.FromOutside, if_false, or_true, if_true]

theorem turnWrite (e : EventLoop Poster) :
    (turn e (.act (.write .acceptLoop))).loop = TaskQueue.step e.loop (.write .acceptLoop) := by
  simp only [turn, IoShutdown.CallsQuit, IoShutdown.FromOutside, if_false, or_true, if_true]

theorem pushPosts {s : TaskLoop Poster} (idle : s.posting .acceptLoop = false) :
    (TaskQueue.step s (.push .acceptLoop)).posted = s.posted + 1 := by
  rw [TaskQueue.step, if_neg (Bool.eq_false_iff.mp idle)]
  rfl

theorem writeIdles (s : TaskLoop Poster) :
    (TaskQueue.step s (.write .acceptLoop)).posting .acceptLoop = false := by
  rw [TaskQueue.step]
  split
  · simp [setPosting]
  · rename_i idle
    exact Bool.eq_false_iff.mpr idle

-- The accept loop has written for its last push, so the next one goes through.
theorem postOrderly {n i : Nat} {s : TcpServer} (h : Orderly n s) (positive : 0 < n) (idle : s.posting = none)
    (mine : i = s.placements.length % 2 ^ 64 % n) {e : EventLoop Poster} (found : s.ioLoops[i]? = some e) :
    Orderly n (runInLoop { place s ⟨some i, .task e.loop.posted⟩ with
      nextLoop := (s.nextLoop + 1) % 2 ^ 64 } i) := by
  have quiet : ∀ (j : Nat) (f : EventLoop Poster), s.ioLoops[j]? = some f →
      f.loop.posting .acceptLoop = false := by
    intro j f there
    refine Bool.eq_false_iff.mpr fun posting => ?_
    have held := h.posting j f there posting
    rw [idle] at held
    contradiction
  have owed : some i = if n = 0 then none else some (s.placements.length % 2 ^ 64 % n) := by
    rw [if_neg (Nat.ne_of_gt positive), mine]
  refine ⟨?_, fun j f there => ?_, fun j f there => ?_, fun j f there posting => ?_, fun _ => ?_,
    turnsMore h owed⟩
  · rw [runInLoop, List.length_modify]
    exact h.loops
  · obtain ⟨old, before, rfl⟩ := modifyFound there
    split
    · exact turnSound (h.sound j old before) _
    · exact h.sound j old before
  · obtain ⟨old, before, rfl⟩ := modifyFound there
    split
    · rename_i same
      subst same
      have own : e = old := Option.some.inj (found.symm.trans before)
      subst own
      rw [turnPush, pushPosts (quiet i e found)]
      exact accountsHere (h.accounts i e found)
    · rename_i differ
      exact accountsOther (h.accounts j old before) (by simp [givenTo, differ])
  · obtain ⟨old, before, rfl⟩ := modifyFound there
    split at posting
    · rename_i same
      exact congrArg some same
    · rw [quiet j old before] at posting
      contradiction
  · rw [runInLoop, place, h.next positive, nextMore, List.length_append, List.length_singleton]

theorem handOnOrderly {n : Nat} {s : TcpServer} (h : Orderly n s) (idle : s.posting = none) :
    Orderly n (handOn s) := by
  unfold handOn getNextLoop
  rcases Nat.eq_zero_or_pos n with rfl | positive
  · have none_ : s.ioLoops = [] := List.length_eq_zero_iff.mp h.loops
    rw [if_pos none_]
    refine ⟨h.loops, h.sound, fun i e found => ?_, h.posting, nofun, turnsMore h rfl⟩
    have nothing : s.ioLoops[i]? = some e := found
    rw [none_] at nothing
    contradiction
  · have some_ : s.ioLoops ≠ [] := List.ne_nil_of_length_pos (h.loops ▸ positive)
    rw [if_neg some_]
    obtain ⟨i, mine⟩ : ∃ i, i = s.placements.length % 2 ^ 64 % n := ⟨_, rfl⟩
    have turn_ : s.nextLoop % s.ioLoops.length = i := by rw [h.next positive, h.loops, mine]
    have owed : some i = if n = 0 then none else some (s.placements.length % 2 ^ 64 % n) := by
      rw [if_neg (Nat.ne_of_gt positive), mine]
    have next : (s.nextLoop + 1) % 2 ^ 64 = (s.placements.length + 1) % 2 ^ 64 := by
      rw [h.next positive, nextMore]
    rw [turn_]
    dsimp only
    split
    · rename_i missing
      have beyond := List.getElem?_eq_none_iff.mp missing
      have below : i < n := mine ▸ Nat.mod_lt _ positive
      exact absurd below (Nat.not_lt.mpr (h.loops ▸ beyond))
    · rename_i e found
      split
      · refine ⟨h.loops, h.sound, fun j f there => ?_, h.posting, fun _ => ?_, turnsMore h owed⟩
        · exact accountsOther (h.accounts j f there) (by simp [givenTo])
        · rw [place, List.length_append]
          exact next
      · exact postOrderly h positive idle mine found

theorem stepOrderly {n : Nat} {s : TcpServer} (h : Orderly n s) (input : Input) : Orderly n (step s input) := by
  obtain ⟨loops, sound, accounts, posting, next, turns⟩ := h
  cases input with
  | readable => exact ⟨loops, sound, accounts, posting, next, turns⟩
  | accept result =>
    simp only [step]
    split
    · rename_i free
      cases result with
      | connection => exact handOnOrderly ⟨loops, sound, accounts, posting, next, turns⟩ free.2
      | again | failed | interrupted => exact ⟨loops, sound, accounts, posting, next, turns⟩
    · exact ⟨loops, sound, accounts, posting, next, turns⟩
  | wakeup =>
    simp only [step]
    split
    · exact ⟨loops, sound, accounts, posting, next, turns⟩
    · rename_i i held
      refine turnOrderly ⟨loops, sound, accounts, posting, next, turns⟩ i _ rfl rfl rfl fun j e found waits => ?_
      obtain ⟨old, there, rfl⟩ := modifyFound found
      split at waits
      · rw [turnWrite, writeIdles] at waits
        contradiction
      · rename_i differ
        have own := posting j old there waits
        rw [held] at own
        exact absurd (Option.some.inj own) differ
  | io i t =>
    simp only [step]
    split
    · exact ⟨loops, sound, accounts, posting, next, turns⟩
    · rename_i foreign
      refine turnOrderly ⟨loops, sound, accounts, posting, next, turns⟩ i t rfl rfl rfl fun j e found waits => ?_
      obtain ⟨old, there, rfl⟩ := modifyFound found
      split at waits
      · rw [turnPosting (Bool.eq_false_iff.mpr foreign)] at waits
        exact posting j old there waits
      · exact posting j old there waits

/-! The loads: the connections of a loop are every `n`-th one. -/

theorem loadCount {n i : Nat} {s : TcpServer} (h : Orderly n s) (positive : 0 < n) (below : i < n)
    (few : s.placements.length ≤ 2 ^ 64) : load s.placements i = s.placements.length.count (· ≡ i [MOD n]) := by
  have loops : s.placements.map Placement.loop = (List.range s.placements.length).map fun k => some (k % n) := by
    refine List.ext_getElem? fun k => ?_
    rw [List.getElem?_map, List.getElem?_map]
    cases found : s.placements[k]? with
    | none =>
      have beyond := List.getElem?_eq_none_iff.mp found
      rw [List.getElem?_eq_none (by rw [List.length_range]; exact beyond)]
      rfl
    | some p =>
      obtain ⟨inside, _⟩ := List.getElem?_eq_some_iff.mp found
      have small : k % 2 ^ 64 = k := Nat.mod_eq_of_lt (Nat.lt_of_lt_of_le inside few)
      rw [List.getElem?_range inside, Option.map_some, Option.map_some, h.turns k p found,
        if_neg (Nat.ne_of_gt positive), small]
  have counted : load s.placements i = (s.placements.map Placement.loop).countP fun l => l = some i := by
    rw [List.countP_map]
    rfl
  rw [counted, loops, List.countP_map]
  refine List.countP_congr fun k _ => ?_
  have mod : i % n = i := Nat.mod_eq_of_lt below
  simp [Nat.ModEq, mod]

theorem loadsBalanced {n : Nat} {s : TcpServer} (h : Orderly n s) (few : s.placements.length ≤ 2 ^ 64)
    {i j : Nat} (i_ : i < n) (j_ : j < n) : load s.placements i ≤ load s.placements j + 1 := by
  have positive := Nat.lt_of_le_of_lt (Nat.zero_le i) i_
  rw [loadCount h positive i_ few, loadCount h positive j_ few, Nat.count_modEq_card _ positive,
    Nat.count_modEq_card _ positive]
  split <;> split <;> omega

theorem orderlyPlaced {n : Nat} {s : TcpServer} (h : Orderly n s) : Placed n s := by
  refine ⟨h.turns, fun i e found => ?_, fun i e found => ⟨?_, ?_⟩, fun i e found phase some_ => ?_,
    fun few i i_ j j_ => loadsBalanced h few i_ j_⟩
  · have ordered := (h.sound i e found).ordered
    rw [ordered.queue, ordered.numbered]
    exact (h.accounts i e found).all
  · have ordered := (h.sound i e found).ordered
    exact (orderedWakes ordered (awakeWait (h.sound i e found).awake)).once
  · have numbers : (s.placements.zipIdx.map Prod.snd).Nodup := by
      rw [List.zipIdx_map_snd]
      exact List.nodup_range'
    exact numbers.sublist (List.filter_sublist.map Prod.snd)
  · exact awakeWait (h.sound i e found).awake phase some_

/-! A loop that its thread has entered is handed its connections as tasks. -/

def Entered (s : TcpServer) (i : Nat) : Prop :=
  ∀ e : EventLoop Poster, s.ioLoops[i]? = some e → e.place ≠ .created

theorem turnEntered {e : EventLoop Poster} (entered : e.place ≠ .created) (t : Turn Poster) :
    (turn e t).place ≠ .created := by
  cases t with
  | enter => rwa [turn, if_neg entered]
  | check =>
    rw [turn]
    split
    · intro same
      cases same
    · exact entered
  | act a =>
    rw [turn]
    split
    · exact entered
    · split <;> exact entered

theorem modifyEntered {s : TcpServer} {i : Nat} (h : Entered s i) (j : Nat) (t : Turn Poster) (e : EventLoop Poster)
    (found : (s.ioLoops.modify j (turn · t))[i]? = some e) : e.place ≠ .created := by
  obtain ⟨old, there, rfl⟩ := modifyFound found
  split
  · exact turnEntered (h old there) t
  · exact h old there

-- What a step adds to the placements, if anything.
inductive Adds (i : Nat) (s : TcpServer) : TcpServer → Prop where
  | nothing {after} (entered : Entered after i) (same : after.placements = s.placements) : Adds i s after
  | one {after} (entered : Entered after i) (p : Placement) (more : after.placements = s.placements ++ [p])
      (posted : p.loop = some i → p.handing ≠ .inline) : Adds i s after

theorem handOnAdds {s : TcpServer} {i : Nat} (h : Entered s i) : Adds i s (handOn s) := by
  unfold handOn getNextLoop
  split
  · rename_i chosen
    split at chosen
    · cases chosen
      exact .one h _ rfl nofun
    · cases chosen
  · rename_i j next chosen
    split at chosen
    · cases chosen
    · cases chosen
      dsimp only
      split
      · exact .nothing h rfl
      · rename_i e found
        split
        · rename_i created
          refine .one h _ rfl fun same => ?_
          cases Option.some.inj same
          exact absurd (of_decide_eq_true created) (h e found)
        · exact .one (modifyEntered h _ _) _ rfl fun _ => nofun

theorem stepAdds {s : TcpServer} {i : Nat} (h : Entered s i) (input : Input) : Adds i s (step s input) := by
  cases input with
  | readable => exact .nothing h rfl
  | accept result =>
    simp only [step]
    split
    · cases result with
      | connection => exact handOnAdds h
      | again | failed | interrupted => exact .nothing h rfl
    · exact .nothing h rfl
  | wakeup =>
    simp only [step]
    split
    · exact .nothing h rfl
    · exact .nothing (modifyEntered h _ _) rfl
  | io j t =>
    simp only [step]
    split
    · exact .nothing h rfl
    · exact .nothing (modifyEntered h j t) rfl

theorem runAdds {s : TcpServer} {i : Nat} (h : Entered s i) (inputs : List Input) :
    ∃ more, (run step s inputs).placements = s.placements ++ more ∧
      ∀ p ∈ more, p.loop = some i → p.handing ≠ .inline := by
  induction inputs generalizing s with
  | nil => exact ⟨[], (List.append_nil _).symm, nofun⟩
  | cons input rest ih =>
    cases stepAdds h input with
    | nothing entered same =>
      obtain ⟨more, all, posted⟩ := ih entered
      exact ⟨more, all.trans (by rw [same]), posted⟩
    | one entered p placed first =>
      obtain ⟨more, all, posted⟩ := ih entered
      refine ⟨p :: more, all.trans (by rw [placed, List.append_assoc]; rfl), ?_⟩
      exact List.forall_mem_cons.mpr ⟨first, posted⟩

theorem connectionsPlaced (ioThreads : Nat) (first last : List Input) :
    let s := run step (start ioThreads) first
    let after := run step s last
    Placed ioThreads after ∧ ∀ i, Entered s i →
      ∀ p ∈ after.placements.drop s.placements.length, p.loop = some i → p.handing ≠ .inline := by
  intro s after
  have begun : Orderly ioThreads s :=
    runInvariant (I := Orderly ioThreads) (fun _ input h => stepOrderly h input) (startOrderly ioThreads) first
  have orderly : Orderly ioThreads after :=
    runInvariant (I := Orderly ioThreads) (fun _ input h => stepOrderly h input) begun last
  refine ⟨orderlyPlaced orderly, fun i entered => ?_⟩
  obtain ⟨more, all, posted⟩ := runAdds entered last
  have later : after.placements.drop s.placements.length = more := by
    rw [all, List.drop_left]
  rw [later]
  exact posted

end RtspRelay.Acceptor
