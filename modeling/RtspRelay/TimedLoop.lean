import Mathlib.Order.Defs.LinearOrder
import RtspRelay.Timers

/-! The loop of an EventLoop in time. Its clock goes on while callbacks run and while it
waits; the timeout of the wait comes from the nearest timer. What keeps a timer back is
then the work of the callbacks and the lateness of the wait, and nothing else. No sum of
a time and a delay is taken to overflow its int64_t. -/
namespace RtspRelay.TimedLoop
open Transition Timers

section
variable {κ : Type}

-- Where the loop is: behind the wait since a time, in a pass that read `now`, or in the wait
-- that is asked to be over at a deadline.
inductive Phase where
  | dispatch (since : Int)
  | processTimers (now : Int)
  | epollWait (deadline : Int)
  deriving DecidableEq

structure EventLoop (κ : Type) where
  clock : Int
  queue : TimerQueue κ
  phase : Phase

inductive Input (κ : Type) where
  | elapse (ms : Nat)
  | addTimer (delayMs : Int) (cb : Option κ) (repeats : Bool)
  | cancelTimer (id : Nat)
  | processTimers
  | next
  | returned
  | epollWait
  | woken

def nearest : List (Timer κ) → Int → Int
  | [], least => least
  | t :: rest, least => nearest rest (if t.expireMs < least then t.expireMs else least)

def calcTimeout (timers : List (Timer κ)) (now : Int) : Int :=
  match timers with
  | [] => 100
  | t :: rest =>
    let diff := nearest (t :: rest) t.expireMs - now
    if diff ≤ 0 then 0 else if 1000 < diff then 1000 else diff

def start (clock : Int) : EventLoop κ := ⟨clock, Timers.start, .dispatch clock⟩

variable (partition : Partition (Timer κ))

def act (s : EventLoop κ) (input : Timers.Input κ) : EventLoop κ :=
  { s with queue := Timers.step partition s.queue input }

-- A callback of the loop runs in the first two phases only.
def step (s : EventLoop κ) : Input κ → EventLoop κ
  | .elapse ms => { s with clock := s.clock + ms }
  | .addTimer delayMs cb repeats =>
    match s.phase with
    | .epollWait _ => s
    | _ => act partition s (.addTimer s.clock delayMs cb repeats)
  | .cancelTimer id =>
    match s.phase with
    | .epollWait _ => s
    | _ => act partition s (.cancelTimer id)
  | .processTimers =>
    match s.phase with
    | .dispatch _ => { act partition s (.processTimers s.clock) with phase := .processTimers s.clock }
    | _ => s
  | .next =>
    match s.phase with
    | .processTimers _ => act partition s .next
    | _ => s
  | .returned =>
    match s.phase with
    | .processTimers _ => act partition s .returned
    | _ => s
  | .epollWait =>
    match s.phase with
    | .processTimers _ =>
      if s.queue.pass = none then
        { s with phase := .epollWait (s.clock + calcTimeout s.queue.timers s.clock) }
      else s
    | _ => s
  | .woken =>
    match s.phase with
    | .epollWait _ => { s with phase := .dispatch s.clock }
    | _ => s
end

-- How long, in ms, the work between a wait and the next pass takes, the callbacks of a pass,
-- and how late a wait returns.
structure Delays where
  work : Nat
  callbacks : Nat
  wait : Nat

def Delays.overdue (d : Delays) : Int := d.callbacks + d.wait + d.work + d.callbacks

def Delays.latest (d : Delays) : Phase → Int
  | .dispatch since => since + d.work
  | .processTimers now => now + d.callbacks
  | .epollWait deadline => deadline + d.wait

section
variable {κ : Type}

def OnTime (d : Delays) (s : EventLoop κ) : Prop := s.clock ≤ d.latest s.phase
instance (d : Delays) (s : EventLoop κ) : Decidable (OnTime d s) := inferInstanceAs (Decidable (_ ≤ _))

def delayOf : Input κ → Int
  | .addTimer delayMs _ _ => delayMs
  | _ => 0

-- A step that keeps the delays; no timer is asked for in the past.
def Meets (partition : Partition (Timer κ)) (d : Delays) (s : EventLoop κ) (input : Input κ) : Prop :=
  OnTime d (step partition s input) ∧ 0 ≤ delayOf input
instance (partition : Partition (Timer κ)) (d : Delays) (s : EventLoop κ) (input : Input κ) :
    Decidable (Meets partition d s input) := inferInstanceAs (Decidable (_ ∧ _))

def running (s : EventLoop κ) : Option (Timer κ) := s.queue.pass.bind Pass.running

def held (s : EventLoop κ) : List (Timer κ) :=
  s.queue.timers ++ s.queue.pass.elim [] Pass.expired ++ (running s).toList

structure Punctual (d : Delays) (s : EventLoop κ) : Prop where
  notEarly : ∀ t ∈ running s, t.expireMs ≤ s.clock
  notLate : ∀ t ∈ held s, s.clock ≤ t.expireMs + d.overdue
  waits : ∀ deadline, s.phase = .epollWait deadline →
    ∀ t ∈ s.queue.timers, deadline ≤ t.expireMs + d.callbacks

end

/-! The timeout. -/

section
variable {κ : Type}

theorem nearestLeast (timers : List (Timer κ)) (least : Int) :
    nearest timers least ≤ least ∧ ∀ t ∈ timers, nearest timers least ≤ t.expireMs := by
  induction timers generalizing least with
  | nil => exact ⟨Int.le_refl _, nofun⟩
  | cons t rest ih =>
    rw [nearest]
    split
    · rename_i nearer
      obtain ⟨below, all⟩ := ih t.expireMs
      exact ⟨Int.le_trans below (Int.le_of_lt nearer), List.forall_mem_cons.mpr ⟨below, all⟩⟩
    · rename_i farther
      obtain ⟨below, all⟩ := ih least
      exact ⟨below, List.forall_mem_cons.mpr ⟨Int.le_trans below (Int.not_lt.mp farther), all⟩⟩

theorem timeoutBounds (timers : List (Timer κ)) (now : Int) :
    0 ≤ calcTimeout timers now ∧ calcTimeout timers now ≤ 1000 := by
  unfold calcTimeout
  split
  · decide
  · dsimp only
    split
    · decide
    · split <;> omega

theorem timeoutNearest {timers : List (Timer κ)} {t : Timer κ} (inside : t ∈ timers) {now : Int} {slack : Nat}
    (due : now ≤ t.expireMs + slack) : now + calcTimeout timers now ≤ t.expireMs + slack := by
  cases timers with
  | nil => contradiction
  | cons u rest =>
    have least := (nearestLeast (u :: rest) u.expireMs).2 t inside
    unfold calcTimeout
    dsimp only
    split
    · omega
    · split <;> omega
end

/-! What each phase knows of the timers. -/

section
variable {κ : Type}

-- A timer of the table can be kept back by what is still to come in its phase only.
structure Knows (d : Delays) (s : EventLoop κ) : Prop where
  onTime : OnTime d s
  table : ∀ t ∈ s.queue.timers, match s.phase with
    | .dispatch since => since ≤ t.expireMs + d.callbacks + d.wait
    | .processTimers now => now ≤ t.expireMs
    | .epollWait deadline => deadline ≤ t.expireMs + d.callbacks
  pass : ∀ pass ∈ s.queue.pass, s.phase = .processTimers pass.now ∧
    ∀ t ∈ pass.running.toList ++ pass.expired,
      t.expireMs ≤ pass.now ∧ pass.now ≤ t.expireMs + d.callbacks + d.wait + d.work
  clock : match s.phase with
    | .dispatch since => since ≤ s.clock
    | .processTimers now => now ≤ s.clock
    | .epollWait _ => True

theorem knowsPunctual {d : Delays} {s : EventLoop κ} (h : Knows d s) : Punctual d s := by
  obtain ⟨onTime, table, pass, clock⟩ := h
  have overdue : d.overdue = d.callbacks + d.wait + d.work + d.callbacks := rfl
  refine ⟨fun t current => ?_, fun t inside => ?_, fun deadline waiting t inside => ?_⟩
  · obtain ⟨p, under, same⟩ := Option.bind_eq_some_iff.mp current
    obtain ⟨phase, all⟩ := pass p under
    have due := (all t (List.mem_append_left _ (Option.mem_toList.mpr same))).1
    rw [phase] at clock
    exact Int.le_trans due clock
  · have inPass : (∀ t ∈ s.queue.timers, s.clock ≤ t.expireMs + d.overdue) ∧ ∀ p ∈ s.queue.pass,
        ∀ t ∈ p.running.toList ++ p.expired, s.clock ≤ t.expireMs + d.overdue := by
      refine ⟨fun t there => ?_, fun p under t there => ?_⟩
      · have known := table t there
        unfold OnTime Delays.latest at onTime
        split at onTime <;> simp only [*] at known <;> omega
      · obtain ⟨phase, all⟩ := pass p under
        have late := (all t there).2
        rw [OnTime, phase, Delays.latest] at onTime
        omega
    rcases List.mem_append.mp inside with before | current
    · rcases List.mem_append.mp before with there | expired
      · exact inPass.1 t there
      · cases under : s.queue.pass with
        | none =>
          rw [under] at expired
          contradiction
        | some p =>
          rw [under] at expired
          exact inPass.2 p under t (List.mem_append_right _ expired)
    · obtain ⟨p, under, same⟩ := Option.bind_eq_some_iff.mp (Option.mem_toList.mp current)
      exact inPass.2 p under t (List.mem_append_left _ (Option.mem_toList.mpr same))
  · have known := table t inside
    rwa [waiting] at known

variable {partition : Partition (Timer κ)} {d : Delays} {s : EventLoop κ}

theorem noPass (h : Knows d s) (other : ∀ now, s.phase ≠ .processTimers now) : s.queue.pass = none := by
  cases under : s.queue.pass with
  | none => rfl
  | some p => exact absurd (h.pass p under).1 (other p.now)

-- The table loses timers, or gets one that is not due before now.
theorem tableKnows (h : Knows d s) {timers : List (Timer κ)} {id : Nat}
    (some_ : ∀ t ∈ timers, t ∈ s.queue.timers ∨ s.clock ≤ t.expireMs)
    (works : ∀ deadline, s.phase ≠ .epollWait deadline) :
    Knows d { s with queue := { s.queue with timers := timers, nextTimerId := id } } := by
  obtain ⟨onTime, table, pass, clock⟩ := h
  refine ⟨onTime, fun t inside => ?_, pass, clock⟩
  cases phase : s.phase with
  | epollWait deadline => exact absurd phase (works deadline)
  | dispatch since | processTimers now =>
    rw [phase] at clock
    rcases some_ t inside with old | later
    · have known := table t old
      rwa [phase] at known
    · dsimp only at clock ⊢
      omega

theorem addKnows (h : Knows d s) {delayMs : Int} (future : 0 ≤ delayMs) (cb : Option κ) (repeats : Bool)
    (works : ∀ deadline, s.phase ≠ .epollWait deadline) :
    Knows d (act partition s (.addTimer s.clock delayMs cb repeats)) := by
  refine tableKnows h (fun t inside => ?_) works
  rcases List.mem_append.mp inside with old | new
  · exact .inl old
  · rw [List.mem_singleton.mp new]
    exact .inr (by dsimp only; omega)

theorem cancelKnows (h : Knows d s) (id : Nat) (works : ∀ deadline, s.phase ≠ .epollWait deadline) :
    Knows d (act partition s (.cancelTimer id)) :=
  tableKnows h (fun _ inside => .inl (List.mem_of_mem_filter inside)) works

theorem processKnows (h : Knows d s) {since : Int} (phase : s.phase = .dispatch since) :
    Knows d { act partition s (.processTimers s.clock) with phase := .processTimers s.clock } := by
  have idle := noPass h (by rw [phase]; nofun)
  obtain ⟨onTime, table, pass, clock⟩ := h
  have begun : act partition s (.processTimers s.clock) =
      { s with queue := Timers.processTimers partition s.queue s.clock } := by
    simp only [act, Timers.step, idle]
  rw [OnTime, phase, Delays.latest] at onTime
  rw [begun]
  refine ⟨?_, fun t inside => ?_, fun p under => ?_, Int.le_refl _⟩
  · exact Int.le_add_of_nonneg_right (Int.natCast_nonneg _)
  · have later := partition.front _ s.queue.timers t inside
    exact Int.le_of_lt (of_decide_eq_true later)
  · cases Option.some.inj under
    refine ⟨rfl, fun t inside => ?_⟩
    have due := partition.back _ s.queue.timers t inside
    have old : t ∈ s.queue.timers :=
      (partition.same _ s.queue.timers).mem_iff.mp (List.mem_append_right _ inside)
    have known := table t old
    rw [phase] at known
    dsimp only at known onTime ⊢
    exact ⟨Int.not_lt.mp (of_decide_eq_false due), by omega⟩

theorem nextKnows (h : Knows d s) : Knows d (act partition s .next) := by
  obtain ⟨onTime, table, pass, clock⟩ := h
  simp only [act, Timers.step]
  split
  · rename_i now t rest under
    obtain ⟨phase, all⟩ := pass _ under
    refine ⟨onTime, table, fun p new => ?_, clock⟩
    cases Option.some.inj new
    exact ⟨phase, all⟩
  · refine ⟨onTime, table, fun p new => ?_, clock⟩
    contradiction
  · exact ⟨onTime, table, pass, clock⟩

theorem returnedKnows (h : Knows d s) : Knows d (act partition s .returned) := by
  obtain ⟨onTime, table, pass, clock⟩ := h
  simp only [act, Timers.step]
  split
  · rename_i now t rest under
    obtain ⟨phase, all⟩ := pass _ under
    have left : ∀ u ∈ rest, u.expireMs ≤ now ∧ now ≤ u.expireMs + d.callbacks + d.wait + d.work :=
      fun u inside => all u (List.mem_append_right _ inside)
    unfold requeue
    split
    · rename_i periodic
      refine ⟨onTime, fun u inside => ?_, fun p new => ?_, clock⟩
      · rcases List.mem_append.mp inside with old | new
        · exact table u old
        · rw [List.mem_singleton.mp new, phase]
          dsimp only
          omega
      · cases Option.some.inj new
        exact ⟨phase, left⟩
    · refine ⟨onTime, table, fun p new => ?_, clock⟩
      cases Option.some.inj new
      exact ⟨phase, left⟩
  · exact ⟨onTime, table, pass, clock⟩

theorem waitKnows (h : Knows d s) {now : Int} (phase : s.phase = .processTimers now) (ended : s.queue.pass = none) :
    Knows d { s with phase := .epollWait (s.clock + calcTimeout s.queue.timers s.clock) } := by
  obtain ⟨onTime, table, pass, clock⟩ := h
  have waits := (timeoutBounds s.queue.timers s.clock).1
  rw [OnTime, phase, Delays.latest] at onTime
  refine ⟨?_, fun t inside => ?_, fun p under => ?_, trivial⟩
  · dsimp only [OnTime, Delays.latest]
    omega
  · have known := table t inside
    rw [phase] at known
    dsimp only at known onTime ⊢
    exact timeoutNearest inside (by omega)
  · have passing : s.queue.pass = some p := under
    rw [ended] at passing
    contradiction

theorem wokenKnows (h : Knows d s) {deadline : Int} (phase : s.phase = .epollWait deadline) :
    Knows d { s with phase := .dispatch s.clock } := by
  have idle := noPass h (by rw [phase]; nofun)
  obtain ⟨onTime, table, pass, clock⟩ := h
  rw [OnTime, phase, Delays.latest] at onTime
  refine ⟨?_, fun t inside => ?_, fun p under => ?_, Int.le_refl _⟩
  · exact Int.le_add_of_nonneg_right (Int.natCast_nonneg _)
  · have known := table t inside
    rw [phase] at known
    dsimp only at known onTime ⊢
    omega
  · have passing : s.queue.pass = some p := under
    rw [idle] at passing
    contradiction

theorem stepKnows (h : Knows d s) {input : Input κ} (meets : Meets partition d s input) :
    Knows d (step partition s input) := by
  obtain ⟨onTime, future⟩ := meets
  cases input with
  | elapse ms =>
    refine ⟨onTime, h.table, h.pass, ?_⟩
    have clock := h.clock
    simp only [step]
    split <;> simp only [*] at clock
    · omega
    · omega
    · trivial
  | addTimer delayMs cb repeats =>
    simp only [step]
    split
    · exact h
    · rename_i works
      exact addKnows h future cb repeats works
  | cancelTimer id =>
    simp only [step]
    split
    · exact h
    · rename_i works
      exact cancelKnows h id works
  | processTimers =>
    simp only [step]
    split
    · exact processKnows h (by assumption)
    · exact h
  | next =>
    simp only [step]
    split
    · exact nextKnows h
    · exact h
  | returned =>
    simp only [step]
    split
    · exact returnedKnows h
    · exact h
  | epollWait =>
    simp only [step]
    split
    · split
      · exact waitKnows h (by assumption) (by assumption)
      · exact h
    · exact h
  | woken =>
    simp only [step]
    split
    · exact wokenKnows h (by assumption)
    · exact h

theorem startKnows (d : Delays) (clock : Int) : Knows d (start clock : EventLoop κ) :=
  ⟨Int.le_add_of_nonneg_right (Int.natCast_nonneg _), nofun, nofun, Int.le_refl _⟩

end

theorem timersPunctual {κ : Type} (partition : Partition (Timer κ)) (d : Delays) (clock : Int)
    (inputs : List (Input κ)) (meets : Throughout (step partition) (Meets partition d) (start clock) inputs) :
    Always (step partition) (Punctual d) (start clock) inputs :=
  alwaysAlong (fun _ _ h meets => stepKnows h meets) (fun _ => knowsPunctual) (startKnows d clock) meets

/-! A periodic timer of 40 ms; its first wait returns 1 ms late, and 2 ms of work follow. -/
def everyForty : List (Input Unit) :=
  [.addTimer 40 (some ()) true, .processTimers, .next, .epollWait, .elapse 41, .woken, .elapse 2,
    .processTimers, .next, .elapse 1, .returned, .next, .epollWait]

theorem everyFortyPunctual :
    Always (step (stable _)) (Punctual ⟨2, 1, 1⟩) (start 0) everyForty :=
  timersPunctual (stable (Timer Unit)) ⟨2, 1, 1⟩ 0 everyForty (by decide)

end RtspRelay.TimedLoop
