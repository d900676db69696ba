import Mathlib.Algebra.Ring.Nat
import Mathlib.Data.List.Basic
import RtspRelay.General.Transition

/-! The task queue of an event loop and the descriptor that wakes it: `runInLoop` on
any thread, a push under the lock and then a write, against the steps of the loop's
own thread. A task is named by its place in the order of the pushes. -/
namespace RtspRelay.TaskQueue
open Transition

-- Where the thread of the loop is; `runTasks` is behind the swap of `processTasks`.
inductive Phase where
  | processTasks | runTasks | processTimers | epollWait | dispatch | handleWakeup | stopped
  deriving DecidableEq, Repr

-- Tasks, timers and descriptors run callbacks, which may post.
def RunsCallbacks : Phase → Prop
  | .runTasks | .processTimers | .dispatch => True
  | _ => False
instance (p) : Decidable (RunsCallbacks p) := by cases p <;> unfold RunsCallbacks <;> infer_instance

inductive Entry where
  | pushed (task : Nat)
  | swapped
  | ran (task : Nat)
  deriving DecidableEq, Repr

structure TaskLoop (τ : Type) where
  pendingTasks : List Nat
  tasks : List Nat
  wakeup : Nat
  phase : Phase
  posting : τ → Bool
  selfPosting : Bool
  ready : Bool
  quit : Bool
  posted : Nat
  log : List Entry

inductive WaitResult where
  | interrupted
  | failed
  | events (wakeup : Bool)
  deriving DecidableEq, Repr

inductive Input (τ : Type) where
  | push (t : τ)
  | write (t : τ)
  | pushSelf
  | writeSelf
  | quit
  | quitWrite
  | swap
  | runTask
  | next
  | wait (result : WaitResult)
  | readWakeup

-- The largest value an eventfd holds; a write beyond it fails with EAGAIN.
def maxCounter : Nat := 2 ^ 64 - 2

section
variable {τ : Type}

def start : TaskLoop τ := ⟨[], [], 0, .processTasks, fun _ => false, false, false, false, 0, []⟩

def pushTask (s : TaskLoop τ) : TaskLoop τ :=
  { s with pendingTasks := s.pendingTasks ++ [s.posted], posted := s.posted + 1
           log := s.log ++ [.pushed s.posted] }

def writeWakeup (s : TaskLoop τ) : TaskLoop τ :=
  { s with wakeup := if s.wakeup < maxCounter then s.wakeup + 1 else s.wakeup }

def whileCheck (s : TaskLoop τ) : TaskLoop τ :=
  { s with phase := if s.quit then .stopped else .processTasks }

def swap (s : TaskLoop τ) : TaskLoop τ :=
  { s with tasks := s.pendingTasks, pendingTasks := [], phase := .runTasks, log := s.log ++ [.swapped] }

def runTask (s : TaskLoop τ) : TaskLoop τ :=
  match s.tasks with
  | [] => s
  | task :: rest => { s with tasks := rest, log := s.log ++ [.ran task] }

def next (s : TaskLoop τ) : TaskLoop τ :=
  match s.phase with
  | .runTasks => if s.tasks = [] then { s with phase := .processTimers } else s
  | .processTimers => { s with phase := .epollWait }
  | .dispatch => if s.ready then s else whileCheck s
  | _ => s

def returned (s : TaskLoop τ) : WaitResult → TaskLoop τ
  | .interrupted => whileCheck s
  | .failed => { s with phase := .stopped }
  | .events wakeup => { s with phase := .dispatch, ready := wakeup && decide (0 < s.wakeup) }

-- One `read`: it takes the whole counter, or ends the loop of `handleWakeup`.
def readWakeup (s : TaskLoop τ) : TaskLoop τ :=
  match s.phase with
  | .dispatch => if s.ready then { s with phase := .handleWakeup, ready := false } else s
  | .handleWakeup => if 0 < s.wakeup then { s with wakeup := 0 } else { s with phase := .dispatch }
  | _ => s

variable [DecidableEq τ]

def setPosting (s : TaskLoop τ) (t : τ) (b : Bool) : TaskLoop τ :=
  { s with posting := fun u => if u = t then b else s.posting u }

-- The thread of the loop does nothing else between its own push and write.
def step (s : TaskLoop τ) : Input τ → TaskLoop τ
  | .push t => if s.posting t then s else setPosting (pushTask s) t true
  | .write t => if s.posting t then setPosting (writeWakeup s) t false else s
  | .pushSelf =>
    if RunsCallbacks s.phase ∧ s.selfPosting = false then { pushTask s with selfPosting := true } else s
  | .writeSelf => if s.selfPosting then { writeWakeup s with selfPosting := false } else s
  | .quit => { s with quit := true }
  | .quitWrite => writeWakeup s
  | .swap => if s.phase = .processTasks then swap s else s
  | .runTask => if s.phase = .runTasks ∧ s.selfPosting = false then runTask s else s
  | .next => if s.selfPosting then s else next s
  | .wait result => if s.phase = .epollWait then returned s result else s
  | .readWakeup => if s.selfPosting then s else readWakeup s
end

def pushedIn (log : List Entry) : List Nat :=
  log.filterMap fun
    | .pushed task => some task
    | _ => none

def ranIn (log : List Entry) : List Nat :=
  log.filterMap fun
    | .ran task => some task
    | _ => none

-- The task was in the queue when it was last swapped out.
def PushedBeforeSwap (log : List Entry) (task : Nat) : Prop :=
  ∃ early late, log = early ++ .swapped :: late ∧ .pushed task ∈ early ∧ .swapped ∉ late

section
variable {τ : Type}

structure Wakes (s : TaskLoop τ) : Prop where
  distinct : (pushedIn s.log).Nodup
  once : (ranIn s.log).Nodup
  order : ranIn s.log <+: pushedIn s.log
  queue : ranIn s.log ++ s.tasks ++ s.pendingTasks = pushedIn s.log
  nextBatch : ∀ before task after, s.log = before ++ .ran task :: after → PushedBeforeSwap before task
  awake : s.phase = .epollWait → s.pendingTasks ≠ [] → 0 < s.wakeup ∨ ∃ t, s.posting t = true

/-! What has run, the rest of the batch and the queue are the pushes in their order. -/

structure Ordered (s : TaskLoop τ) : Prop where
  numbered : pushedIn s.log = List.range s.posted
  queue : ranIn s.log ++ s.tasks ++ s.pendingTasks = pushedIn s.log
  idle : s.phase ≠ .runTasks → s.tasks = []
  batch : ∀ task ∈ s.tasks, PushedBeforeSwap s.log task
  nextBatch : ∀ before task after, s.log = before ++ .ran task :: after → PushedBeforeSwap before task
end

theorem pushedInAppend (log : List Entry) (e : Entry) :
    pushedIn (log ++ [e]) = pushedIn log ++ pushedIn [e] := List.filterMap_append

theorem ranInAppend (log : List Entry) (e : Entry) : ranIn (log ++ [e]) = ranIn log ++ ranIn [e] :=
  List.filterMap_append

theorem beforeSwapLater {log : List Entry} {task : Nat} (h : PushedBeforeSwap log task) {e : Entry}
    (other : e ≠ .swapped) : PushedBeforeSwap (log ++ [e]) task := by
  obtain ⟨early, late, rfl, inside, none_⟩ := h
  refine ⟨early, late ++ [e], by rw [List.append_assoc]; rfl, inside, ?_⟩
  rw [List.mem_append, List.mem_singleton]
  rintro (old | new)
  · exact none_ old
  · exact other new.symm

theorem nextBatchSnoc {log : List Entry} {e : Entry}
    (h : ∀ before task after, log = before ++ .ran task :: after → PushedBeforeSwap before task)
    (last : ∀ task, e = .ran task → PushedBeforeSwap log task) :
    ∀ before task after, log ++ [e] = before ++ .ran task :: after → PushedBeforeSwap before task := by
  intro before task after same
  rcases List.eq_nil_or_concat after with rfl | ⟨front, final, rfl⟩
  · obtain ⟨rfl, one⟩ := List.append_inj' same rfl
    exact last task (List.cons.inj one).1
  · rw [List.concat_eq_append, ← List.cons_append, ← List.append_assoc] at same
    exact h before task front (List.append_inj' same rfl).1

theorem pushedInside {log : List Entry} {task : Nat} (inside : task ∈ pushedIn log) :
    .pushed task ∈ log := by
  obtain ⟨e, there, same⟩ := List.mem_filterMap.mp inside
  cases e with
  | pushed other =>
    obtain rfl := Option.some.inj same
    exact there
  | swapped => contradiction
  | ran other => contradiction

section
variable {τ : Type} {s : TaskLoop τ}

theorem orderedWakes (h : Ordered s)
    (awake : s.phase = .epollWait → s.pendingTasks ≠ [] → 0 < s.wakeup ∨ ∃ t, s.posting t = true) :
    Wakes s := by
  have distinct : (pushedIn s.log).Nodup := by
    rw [h.numbered]
    exact List.nodup_range
  have order : ranIn s.log <+: pushedIn s.log := by
    rw [← h.queue, List.append_assoc]
    exact List.prefix_append _ _
  exact ⟨distinct, distinct.sublist order.sublist, order, h.queue, h.nextBatch, awake⟩

theorem orderedStart : Ordered (start : TaskLoop τ) where
  numbered := rfl
  queue := rfl
  idle _ := rfl
  batch _ inside := nomatch inside
  nextBatch before task after same := absurd same.symm (by simp [start])

theorem orderedPush (h : Ordered s) : Ordered (pushTask s) where
  numbered := by
    simp only [pushTask]
    rw [pushedInAppend, h.numbered, List.range_succ]
    rfl
  queue := by
    simp only [pushTask]
    rw [pushedInAppend, ranInAppend, ← h.queue]
    simp [pushedIn, ranIn]
  idle := h.idle
  batch task inside := beforeSwapLater (h.batch task inside) nofun
  nextBatch := nextBatchSnoc h.nextBatch nofun

theorem orderedSwap (h : Ordered s) (phase : s.phase = .processTasks) : Ordered (swap s) where
  numbered := by
    simp only [swap]
    rw [pushedInAppend, h.numbered]
    exact List.append_nil _
  queue := by
    have empty := h.idle (by rw [phase]; nofun)
    have before := h.queue
    rw [empty, List.append_nil] at before
    simp only [swap]
    rw [pushedInAppend, ranInAppend, ← before]
    simp [pushedIn, ranIn]
  idle other := absurd rfl other
  batch task inside := by
    have among : task ∈ pushedIn s.log := by
      rw [← h.queue]
      exact List.mem_append_right _ inside
    exact ⟨s.log, [], rfl, pushedInside among, List.not_mem_nil⟩
  nextBatch := nextBatchSnoc h.nextBatch nofun

theorem orderedRun (h : Ordered s) (phase : s.phase = .runTasks) : Ordered (runTask s) := by
  unfold runTask
  split
  · exact h
  · rename_i task rest batch
    have front := h.batch task (by rw [batch]; exact List.mem_cons_self)
    refine ⟨?_, ?_, fun other => absurd phase other, ?_, ?_⟩
    · simp only
      rw [pushedInAppend, h.numbered]
      exact List.append_nil _
    · have before := h.queue
      rw [batch] at before
      simp only
      rw [pushedInAppend, ranInAppend, ← before]
      simp [pushedIn, ranIn]
    · intro other inside
      have old := h.batch other (by rw [batch]; exact List.mem_cons_of_mem task inside)
      exact beforeSwapLater old nofun
    · refine nextBatchSnoc h.nextBatch fun other same => ?_
      obtain rfl := Entry.ran.inj same
      exact front

theorem orderedMoved (h : Ordered s) {after : TaskLoop τ} (log : after.log = s.log)
    (tasks : after.tasks = s.tasks) (pending : after.pendingTasks = s.pendingTasks)
    (posted : after.posted = s.posted) (idle : after.phase ≠ .runTasks → s.tasks = []) : Ordered after where
  numbered := by
    rw [log, posted]
    exact h.numbered
  queue := by
    rw [log, tasks, pending]
    exact h.queue
  idle other := tasks.trans (idle other)
  batch := by
    rw [log, tasks]
    exact h.batch
  nextBatch := by
    rw [log]
    exact h.nextBatch

theorem orderedWhile (h : Ordered s) (phase : s.phase ≠ .runTasks) : Ordered (whileCheck s) :=
  orderedMoved h rfl rfl rfl rfl fun _ => h.idle phase

theorem orderedNext (h : Ordered s) : Ordered (next s) := by
  unfold next
  split
  · split
    · rename_i empty
      exact orderedMoved h rfl rfl rfl rfl fun _ => empty
    · exact h
  · rename_i phase
    exact orderedMoved h rfl rfl rfl rfl fun _ => h.idle (by rw [phase]; nofun)
  · rename_i phase
    split
    · exact h
    · exact orderedWhile h (by rw [phase]; nofun)
  · exact h

theorem orderedReturned (h : Ordered s) (phase : s.phase = .epollWait) (result : WaitResult) :
    Ordered (returned s result) := by
  have other : s.phase ≠ .runTasks := by rw [phase]; nofun
  cases result with
  | interrupted => exact orderedWhile h other
  | failed => exact orderedMoved h rfl rfl rfl rfl fun _ => h.idle other
  | events wakeup => exact orderedMoved h rfl rfl rfl rfl fun _ => h.idle other

theorem orderedRead (h : Ordered s) : Ordered (readWakeup s) := by
  unfold readWakeup
  split
  · rename_i phase
    split
    · exact orderedMoved h rfl rfl rfl rfl fun _ => h.idle (by rw [phase]; nofun)
    · exact h
  · rename_i phase
    split
    · exact orderedMoved h rfl rfl rfl rfl fun _ => h.idle (by rw [phase]; nofun)
    · exact orderedMoved h rfl rfl rfl rfl fun _ => h.idle (by rw [phase]; nofun)
  · exact h

variable [DecidableEq τ]

theorem orderedStep (h : Ordered s) (input : Input τ) : Ordered (step s input) := by
  cases input with
  | push t =>
    simp only [step]
    split
    · exact h
    · have pushed := orderedPush h
      exact orderedMoved pushed rfl rfl rfl rfl pushed.idle
  | write t =>
    simp only [step]
    split
    · exact orderedMoved h rfl rfl rfl rfl h.idle
    · exact h
  | pushSelf =>
    simp only [step]
    split
    · have pushed := orderedPush h
      exact orderedMoved pushed rfl rfl rfl rfl pushed.idle
    · exact h
  | writeSelf =>
    simp only [step]
    split
    · exact orderedMoved h rfl rfl rfl rfl h.idle
    · exact h
  | quit => exact orderedMoved h rfl rfl rfl rfl h.idle
  | quitWrite => exact orderedMoved h rfl rfl rfl rfl h.idle
  | swap =>
    simp only [step]
    split
    · exact orderedSwap h (by assumption)
    · exact h
  | runTask =>
    simp only [step]
    split
    · rename_i running
      exact orderedRun h running.1
    · exact h
  | next =>
    simp only [step]
    split
    · exact h
    · exact orderedNext h
  | wait result =>
    simp only [step]
    split
    · exact orderedReturned h (by assumption) result
    · exact h
  | readWakeup =>
    simp only [step]
    split
    · exact h
    · exact orderedRead h
end

/-! Behind the swap and up to the end of the wait, a task that came too late has its
write before it or in the counter: nothing reads the counter there. -/

def BehindSwap : Phase → Prop
  | .runTasks | .processTimers | .epollWait => True
  | _ => False

section
variable {τ : Type} {s : TaskLoop τ}

structure Awake (s : TaskLoop τ) : Prop where
  self : s.selfPosting = true → RunsCallbacks s.phase
  woken : BehindSwap s.phase → s.pendingTasks ≠ [] →
    0 < s.wakeup ∨ (∃ t, s.posting t = true) ∨ s.selfPosting = true

theorem writePositive (s : TaskLoop τ) : 0 < (writeWakeup s).wakeup := by
  unfold writeWakeup
  rcases Nat.lt_or_ge s.wakeup maxCounter with below | full
  · rw [if_pos below]
    exact Nat.succ_pos _
  · rw [if_neg (Nat.not_lt.mpr full)]
    exact Nat.lt_of_lt_of_le (by decide) full

theorem awakeStart : Awake (start : TaskLoop τ) :=
  ⟨fun posting => (nomatch posting), fun _ some_ => absurd rfl some_⟩

theorem awakeWait (h : Awake s) (phase : s.phase = .epollWait) (some_ : s.pendingTasks ≠ []) :
    0 < s.wakeup ∨ ∃ t, s.posting t = true := by
  rcases h.woken (by rw [phase]; trivial) some_ with counter | other | self
  · exact .inl counter
  · exact .inr other
  · have callbacks := h.self self
    rw [phase] at callbacks
    exact callbacks.elim

theorem awakeSwap (s : TaskLoop τ) : Awake (swap s) :=
  ⟨fun _ => trivial, fun _ some_ => absurd rfl some_⟩

theorem awakeRun (h : Awake s) : Awake (runTask s) := by
  unfold runTask
  split
  · exact h
  · exact ⟨h.self, h.woken⟩

/-! A phase in front of the swap asks for nothing. -/
theorem awakeFront {after : TaskLoop τ} (quiet : after.selfPosting = false)
    (front : ¬ BehindSwap after.phase) : Awake after :=
  ⟨fun posting => absurd (posting.symm.trans quiet) nofun, fun behind => absurd behind front⟩

theorem awakeWhile (quiet : s.selfPosting = false) : Awake (whileCheck s) := by
  refine awakeFront quiet ?_
  unfold whileCheck
  dsimp only
  split <;> exact id

theorem awakeNext (h : Awake s) (quiet : s.selfPosting = false) : Awake (next s) := by
  have idle : ∀ {p : Prop}, s.selfPosting = true → p := fun posting =>
    absurd (posting.symm.trans quiet) nofun
  unfold next
  split
  · rename_i phase
    split
    · exact ⟨idle, fun _ => h.woken (by rw [phase]; trivial)⟩
    · exact h
  · rename_i phase
    exact ⟨idle, fun _ => h.woken (by rw [phase]; trivial)⟩
  · split
    · exact h
    · exact awakeWhile quiet
  · exact h

theorem awakeReturned (h : Awake s) (phase : s.phase = .epollWait) (result : WaitResult) :
    Awake (returned s result) := by
  have quiet : s.selfPosting = false := by
    refine Bool.eq_false_iff.mpr fun posting => ?_
    have callbacks := h.self posting
    rw [phase] at callbacks
    exact callbacks
  cases result with
  | interrupted => exact awakeWhile quiet
  | failed => exact awakeFront quiet id
  | events wakeup => exact awakeFront quiet id

theorem awakeRead (h : Awake s) (quiet : s.selfPosting = false) : Awake (readWakeup s) := by
  unfold readWakeup
  split
  · split
    · exact awakeFront quiet id
    · exact h
  · rename_i phase
    split
    · refine awakeFront quiet ?_
      rw [phase]
      exact id
    · exact awakeFront quiet id
  · exact h

variable [DecidableEq τ]

theorem awakeStep (h : Awake s) (input : Input τ) : Awake (step s input) := by
  cases input with
  | push t =>
    simp only [step]
    split
    · exact h
    · exact ⟨h.self, fun _ _ => .inr (.inl ⟨t, by simp [setPosting]⟩)⟩
  | write t =>
    simp only [step]
    split
    · exact ⟨h.self, fun _ _ => .inl (writePositive s)⟩
    · exact h
  | pushSelf =>
    simp only [step]
    split
    · rename_i callbacks
      exact ⟨fun _ => callbacks.1, fun _ _ => .inr (.inr rfl)⟩
    · exact h
  | writeSelf =>
    simp only [step]
    split
    · exact ⟨fun posting => (nomatch posting), fun _ _ => .inl (writePositive s)⟩
    · exact h
  | quit => exact ⟨h.self, h.woken⟩
  | quitWrite => exact ⟨h.self, fun _ _ => .inl (writePositive s)⟩
  | swap =>
    simp only [step]
    split
    · exact awakeSwap s
    · exact h
  | runTask =>
    simp only [step]
    split
    · exact awakeRun h
    · exact h
  | next =>
    simp only [step]
    split
    · exact h
    · rename_i quiet
      exact awakeNext h (Bool.eq_false_iff.mpr quiet)
  | wait result =>
    simp only [step]
    split
    · exact awakeReturned h (by assumption) result
    · exact h
  | readWakeup =>
    simp only [step]
    split
    · exact h
    · rename_i quiet
      exact awakeRead h (Bool.eq_false_iff.mpr quiet)

theorem noLostWakeup (inputs : List (Input τ)) : Always step Wakes start inputs := by
  refine alwaysInvariant (I := fun s => Ordered s ∧ Awake s) ?_ ?_ ⟨orderedStart, awakeStart⟩ inputs
  · rintro s input ⟨ordered, awake⟩
    exact ⟨orderedStep ordered input, awakeStep awake input⟩
  · rintro s ⟨ordered, awake⟩
    exact orderedWakes ordered (awakeWait awake)
end

end RtspRelay.TaskQueue
