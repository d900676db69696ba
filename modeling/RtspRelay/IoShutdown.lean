import RtspRelay.TaskQueue

/-! The end of the program: the main loop and the loops of the IO threads, each entered
by its own thread, the signal handler and the joins of ~TcpServer. -/
namespace RtspRelay.IoShutdown
open Transition TaskQueue

-- `entering` is behind `quit_ = false` and before the first test of the `while`.
inductive Place where
  | created | entering | inside
  deriving DecidableEq, Repr

-- `told`: quit() has been called on the loop.
structure EventLoop (τ : Type) where
  place : Place
  told : Bool
  loop : TaskLoop τ

-- A thread in its loop, and the posts of other threads.
inductive Turn (τ : Type) where
  | enter
  | check
  | act (a : TaskQueue.Input τ)

-- quit() is no part of a loop's own turns.
def FromOutside {τ : Type} : TaskQueue.Input τ → Prop
  | .push _ | .write _ => True
  | _ => False
instance {τ : Type} (a : TaskQueue.Input τ) : Decidable (FromOutside a) := by
  cases a <;> unfold FromOutside <;> infer_instance

def CallsQuit {τ : Type} : TaskQueue.Input τ → Prop
  | .quit | .quitWrite => True
  | _ => False
instance {τ : Type} (a : TaskQueue.Input τ) : Decidable (CallsQuit a) := by
  cases a <;> unfold CallsQuit <;> infer_instance

inductive Stage where
  | starting
  | looping
  | joining (i : Nat)
  deriving DecidableEq, Repr

-- `toAdd` is what is left of the loop over cfg.io_threads.
structure Process (τ : Type) where
  main : EventLoop τ
  globalMainLoop : Bool
  toAdd : Nat
  ioLoops : List (EventLoop τ)
  stage : Stage

inductive Input (τ : Type) where
  | addIoThread
  | io (i : Nat) (turn : Turn τ)
  | mainLoop
  | main (turn : Turn τ)
  | signal
  | endOfMain
  | joined

section
variable {τ : Type}

def fresh : EventLoop τ := ⟨.created, false, TaskQueue.start⟩

def start (ioThreads : Nat) : Process τ := ⟨fresh, true, ioThreads, [], .starting⟩

variable [DecidableEq τ]

def turn (e : EventLoop τ) : Turn τ → EventLoop τ
  | .enter => if e.place = .created then { e with place := .entering, loop := { e.loop with quit := false } } else e
  | .check => if e.place = .entering then { e with place := .inside, loop := whileCheck e.loop } else e
  | .act a =>
    if CallsQuit a then e
    else if e.place = .inside ∨ FromOutside a then { e with loop := TaskQueue.step e.loop a }
    else e

def quit (e : EventLoop τ) : EventLoop τ :=
  { e with told := true, loop := TaskQueue.step (TaskQueue.step e.loop .quit) .quitWrite }

def Left (e : EventLoop τ) : Prop := e.place = .inside ∧ e.loop.phase = .stopped
instance (e : EventLoop τ) : Decidable (Left e) := inferInstanceAs (Decidable (_ ∧ _))

def step (p : Process τ) : Input τ → Process τ
  | .addIoThread =>
    if p.stage = .starting ∧ 0 < p.toAdd then { p with toAdd := p.toAdd - 1, ioLoops := p.ioLoops ++ [fresh] } else p
  | .io i t => { p with ioLoops := p.ioLoops.modify i (turn · t) }
  | .mainLoop =>
    if p.stage = .starting ∧ p.toAdd = 0 then { p with main := turn p.main .enter, stage := .looping } else p
  | .main t => if p.stage = .looping then { p with main := turn p.main t } else p
  | .signal => if p.globalMainLoop then { p with main := quit p.main } else p
  | .endOfMain =>
    if p.stage = .looping ∧ Left p.main then { p with globalMainLoop := false, stage := .joining 0 } else p
  | .joined =>
    match p.stage with
    | .joining i => if ∃ e ∈ p.ioLoops[i]?, Left e then { p with stage := .joining (i + 1) } else p
    | _ => p

end

variable {τ : Type}

-- What ~TcpServer relies on when it joins a thread.
def OrderlyJoin (p : Process τ) : Prop :=
  ∀ i e, p.stage = .joining i → p.ioLoops[i]? = some e → e.told = true ∧ e.loop.quit = true

variable [DecidableEq τ]

/-! ### No one tells an IO loop -/

theorem taskStepQuit {a : TaskQueue.Input τ} (other : ¬CallsQuit a) (s : TaskLoop τ) :
    (TaskQueue.step s a).quit = s.quit := by
  cases a with
  | quit => exact absurd trivial other
  | quitWrite => exact absurd trivial other
  | push t => rw [TaskQueue.step]; split <;> rfl
  | write t => rw [TaskQueue.step]; split <;> rfl
  | pushSelf => rw [TaskQueue.step]; split <;> rfl
  | writeSelf => rw [TaskQueue.step]; split <;> rfl
  | swap => rw [TaskQueue.step]; split <;> rfl
  | runTask =>
    rw [TaskQueue.step]
    split
    · rw [runTask]; split <;> rfl
    · rfl
  | next =>
    rw [TaskQueue.step, next]
    split
    · rfl
    · repeat' split
      all_goals rfl
  | wait result =>
    rw [TaskQueue.step]
    split
    · cases result <;> rfl
    · rfl
  | readWakeup =>
    rw [TaskQueue.step, readWakeup]
    repeat' split
    all_goals rfl

def Untold (e : EventLoop τ) : Prop := e.told = false ∧ e.loop.quit = false

theorem turnUntold {e : EventLoop τ} (untold : Untold e) (t : Turn τ) : Untold (turn e t) := by
  obtain ⟨told, quit⟩ := untold
  cases t with
  | enter => rw [turn]; split <;> exact ⟨told, by first | rfl | exact quit⟩
  | check => rw [turn]; split <;> exact ⟨told, quit⟩
  | act a =>
    rw [turn]
    split
    · exact ⟨told, quit⟩
    · rename_i other
      split
      · exact ⟨told, (taskStepQuit other e.loop).trans quit⟩
      · exact ⟨told, quit⟩

def AllUntold (p : Process τ) : Prop := ∀ (i : Nat) (e : EventLoop τ), p.ioLoops[i]? = some e → Untold e

theorem stepUntold {p : Process τ} (untold : AllUntold p) (a : Input τ) : AllUntold (step p a) := by
  cases a with
  | addIoThread =>
    rw [step]
    split
    · intro i e found
      rcases List.mem_append.mp (List.mem_of_getElem? found) with old | new
      · obtain ⟨j, below, same⟩ := List.mem_iff_getElem.mp old
        exact untold j e (same ▸ List.getElem?_eq_getElem below)
      · rw [List.mem_singleton.mp new]
        exact ⟨rfl, rfl⟩
    · exact untold
  | io i t =>
    intro j e found
    rw [step, List.getElem?_modify, Option.map_eq_map, Option.map_eq_some_iff] at found
    obtain ⟨before, there, rfl⟩ := found
    split
    · exact turnUntold (untold j before there) t
    · exact untold j before there
  | mainLoop => rw [step]; split <;> exact untold
  | main t => rw [step]; split <;> exact untold
  | signal => rw [step]; split <;> exact untold
  | endOfMain => rw [step]; split <;> exact untold
  | joined =>
    rw [step]
    repeat' split
    all_goals exact untold

omit [DecidableEq τ] in
theorem startUntold (n : Nat) : AllUntold (start n : Process τ) := nofun

theorem neverTold (n : Nat) (inputs : List (Input τ)) : Always step AllUntold (start n) inputs :=
  alwaysInvariant (I := AllUntold) (fun _ a untold => stepUntold untold a) (fun _ untold => untold)
    (startUntold n) inputs

/-! ### A join that has begun does not end -/

-- epoll_wait does not fail in an IO thread.
def Waits : Input τ → Prop
  | .io _ (.act (.wait .failed)) => False
  | _ => True

theorem taskStepRuns {a : TaskQueue.Input τ} (other : ¬CallsQuit a) (waits : a ≠ .wait .failed) {s : TaskLoop τ}
    (quit : s.quit = false) (running : s.phase ≠ .stopped) : (TaskQueue.step s a).phase ≠ .stopped := by
  have checked : (whileCheck s).phase ≠ .stopped := by
    rw [whileCheck, quit]
    exact Phase.noConfusion
  cases a with
  | quit => exact absurd trivial other
  | quitWrite => exact absurd trivial other
  | push t => rw [TaskQueue.step]; split <;> exact running
  | write t => rw [TaskQueue.step]; split <;> exact running
  | pushSelf => rw [TaskQueue.step]; split <;> exact running
  | writeSelf => rw [TaskQueue.step]; split <;> exact running
  | swap => rw [TaskQueue.step]; split; exacts [Phase.noConfusion, running]
  | runTask =>
    rw [TaskQueue.step]
    split
    · rw [runTask]; split <;> exact running
    · exact running
  | next =>
    rw [TaskQueue.step, next]
    split
    · exact running
    · repeat' split
      all_goals first | exact running | exact checked | exact Phase.noConfusion
  | wait result =>
    rw [TaskQueue.step]
    split
    · cases result with
      | interrupted => exact checked
      | failed => exact absurd rfl waits
      | events wakeup => exact Phase.noConfusion
    · exact running
  | readWakeup =>
    rw [TaskQueue.step, readWakeup]
    repeat' split
    all_goals first | exact running | exact Phase.noConfusion

def Runs (e : EventLoop τ) : Prop := Untold e ∧ e.loop.phase ≠ .stopped

theorem turnRuns {e : EventLoop τ} (runs : Runs e) {t : Turn τ} (waits : t ≠ .act (.wait .failed)) :
    Runs (turn e t) := by
  refine ⟨turnUntold runs.1 t, ?_⟩
  obtain ⟨⟨-, quit⟩, running⟩ := runs
  cases t with
  | enter => rw [turn]; split <;> exact running
  | check =>
    rw [turn]
    split
    · rw [whileCheck, quit]
      exact Phase.noConfusion
    · exact running
  | act a =>
    rw [turn]
    split
    · exact running
    · rename_i other
      split
      · exact taskStepRuns other (fun failed => waits (failed ▸ rfl)) quit running
      · exact running

def Joining (i : Nat) (p : Process τ) : Prop := p.stage = .joining i ∧ ∃ e, p.ioLoops[i]? = some e ∧ Runs e

theorem stepJoining {i : Nat} {p : Process τ} (joining : Joining i p) {a : Input τ} (waits : Waits a) :
    Joining i (step p a) := by
  obtain ⟨stage, e, found, runs⟩ := joining
  cases a with
  | addIoThread => rw [step, if_neg (by rw [stage]; nofun)]; exact ⟨stage, e, found, runs⟩
  | io j t =>
    refine ⟨stage, if j = i then turn e t else e, ?_, ?_⟩
    · rw [step, List.getElem?_modify, found]
      rfl
    · split
      · exact turnRuns runs (by rintro rfl; exact waits)
      · exact runs
  | mainLoop => rw [step, if_neg (by rw [stage]; nofun)]; exact ⟨stage, e, found, runs⟩
  | main t => rw [step, if_neg (by rw [stage]; nofun)]; exact ⟨stage, e, found, runs⟩
  | signal => rw [step]; split <;> exact ⟨stage, e, found, runs⟩
  | endOfMain => rw [step, if_neg (by rw [stage]; nofun)]; exact ⟨stage, e, found, runs⟩
  | joined =>
    have waiting : ¬∃ e ∈ p.ioLoops[i]?, Left e := by
      rintro ⟨e', found', left⟩
      rw [found] at found'
      cases found'
      exact runs.2 left.2
    simp only [step, stage, if_neg waiting]
    exact ⟨stage, e, found, runs⟩

theorem joinNeverEnds {i : Nat} {p : Process τ} (joining : Joining i p) {inputs : List (Input τ)}
    (waits : ∀ a ∈ inputs, Waits a) : Always step (fun p => p.stage = .joining i) p inputs :=
  alwaysAlong (C := fun _ => Waits) (fun _ _ joining waits => stepJoining joining waits)
    (fun _ joining => joining.1) joining
    (throughoutAll waits p)

/-! ### Every run that ends reaches such a join -/

def adding (n : Nat) : List (Input τ) := List.replicate n .addIoThread

-- The threads are added, the main loop is entered, told to quit, and left.
def stopping (n : Nat) : List (Input τ) := adding n ++ [.mainLoop, .signal, .main .check, .endOfMain]

theorem addedAll (n : Nat) (p : Process τ) (stage : p.stage = .starting) (enough : n ≤ p.toAdd) :
    run step p (adding n) = { p with toAdd := p.toAdd - n, ioLoops := p.ioLoops ++ List.replicate n fresh } := by
  induction n generalizing p with
  | zero => simp [adding, run]
  | succ n ih =>
    have first : step p .addIoThread = { p with toAdd := p.toAdd - 1, ioLoops := p.ioLoops ++ [fresh] } :=
      if_pos ⟨stage, by omega⟩
    rw [adding, List.replicate_succ, run, List.foldl_cons, first]
    have rest : n ≤ p.toAdd - 1 := by omega
    refine (ih { p with toAdd := p.toAdd - 1, ioLoops := p.ioLoops ++ [fresh] } stage rest).trans ?_
    simp only [List.append_assoc, List.replicate_succ, List.singleton_append, Nat.sub_sub, Nat.add_comm 1 n]

theorem stoppingJoins (n : Nat) :
    run step (start n : Process τ) (stopping n) =
      { main := turn (quit (turn fresh .enter)) .check, globalMainLoop := false, toAdd := 0
        ioLoops := List.replicate n fresh, stage := .joining 0 } := by
  rw [stopping, runAppend, addedAll n _ rfl (Nat.le_refl n)]
  simp only [start, Nat.sub_self, List.nil_append]
  rfl

theorem freshJoining {n : Nat} (some : 0 < n) : Joining 0 (run step (start n : Process τ) (stopping n)) := by
  rw [stoppingJoins]
  exact ⟨rfl, fresh, by rw [List.getElem?_replicate, if_pos some], ⟨⟨rfl, rfl⟩, Phase.noConfusion⟩⟩

theorem shutdownHangs {n : Nat} (some : 0 < n) {inputs : List (Input τ)} (waits : ∀ a ∈ inputs, Waits a) :
    Always step (fun p => p.stage = .joining 0) (run step (start n) (stopping n)) inputs :=
  joinNeverEnds (freshJoining some) waits

theorem joinUntold {n : Nat} (some : 0 < n) : ¬Always step OrderlyJoin (start n : Process τ) (stopping n) := by
  intro always
  obtain ⟨stage, e, found, ⟨told, -⟩, -⟩ := freshJoining (τ := τ) some
  have orderly := (alwaysLast always 0 e stage found).1
  rw [told] at orderly
  exact Bool.noConfusion orderly

/-! ### Without IO threads there is nothing to join -/

def NoIoThreads (p : Process τ) : Prop := p.toAdd = 0 ∧ p.ioLoops = []

theorem stepNoIoThreads {p : Process τ} (none : NoIoThreads p) (a : Input τ) : NoIoThreads (step p a) := by
  obtain ⟨added, empty⟩ := none
  cases a with
  | addIoThread => rw [step, if_neg (by rw [added]; exact fun h => Nat.lt_irrefl 0 h.2)]; exact ⟨added, empty⟩
  | io i t => exact ⟨added, by rw [step, empty, List.modify_nil]⟩
  | mainLoop => rw [step]; split <;> exact ⟨added, empty⟩
  | main t => rw [step]; split <;> exact ⟨added, empty⟩
  | signal => rw [step]; split <;> exact ⟨added, empty⟩
  | endOfMain => rw [step]; split <;> exact ⟨added, empty⟩
  | joined =>
    rw [step]
    repeat' split
    all_goals exact ⟨added, empty⟩

theorem noneOrderly (inputs : List (Input τ)) : Always step OrderlyJoin (start 0) inputs := by
  refine alwaysInvariant (I := NoIoThreads) (fun _ a none => stepNoIoThreads none a) ?_ ⟨rfl, rfl⟩ inputs
  intro p none i e _ found
  rw [none.2] at found
  exact absurd found (Option.some_ne_none e).symm

theorem orderlyExact (n : Nat) : (∀ inputs, Always step OrderlyJoin (start n : Process τ) inputs) ↔ n = 0 := by
  constructor
  · intro all
    by_contra some
    exact joinUntold (Nat.pos_of_ne_zero some) (all (stopping n))
  · rintro rfl
    exact noneOrderly

-- With the default of four IO threads.
theorem notTold : ¬∀ n inputs, Always step OrderlyJoin (start n : Process Unit) inputs :=
  fun all => joinUntold (by decide) (all 4 (stopping 4))

end RtspRelay.IoShutdown
