import Mathlib.Data.List.Perm.Basic
import RtspRelay.General.Transition

/-! The timers of an event loop. A pass of `processTimers` moves the expired timers to
a vector of its own and puts a periodic one back behind its callback; `cancelTimer`
looks in the table only, so it misses what a pass holds. -/
namespace RtspRelay.Timers
open Transition

structure Timer (κ : Type) where
  id : Nat
  expireMs : Int
  intervalMs : Int
  cb : Option κ
  deriving DecidableEq, Repr

-- std::partition promises the two groups, not the order in them.
structure Partition (α : Type) where
  apply : (α → Bool) → List α → List α × List α
  front : ∀ p items, ∀ a ∈ (apply p items).1, p a = true
  back : ∀ p items, ∀ a ∈ (apply p items).2, p a = false
  same : ∀ p items, ((apply p items).1 ++ (apply p items).2).Perm items

-- `running` is the timer whose callback the pass is in, `expired` what comes after it.
structure Pass (κ : Type) where
  now : Int
  running : Option (Timer κ)
  expired : List (Timer κ)
  deriving DecidableEq, Repr

structure TimerQueue (κ : Type) where
  timers : List (Timer κ)
  nextTimerId : Nat
  pass : Option (Pass κ)
  deriving DecidableEq, Repr

inductive Input (κ : Type) where
  | addTimer (now delayMs : Int) (cb : Option κ) (repeats : Bool)
  | cancelTimer (id : Nat)
  | processTimers (now : Int)
  | next
  | returned

inductive Event where
  | invoked (id : Nat)
  | rearmed (id : Nat)
  deriving DecidableEq, Repr

section
variable {κ : Type}

def start : TimerQueue κ := ⟨[], 1, none⟩

def addTimer (s : TimerQueue κ) (now delayMs : Int) (cb : Option κ) (repeats : Bool) : TimerQueue κ :=
  { s with timers := s.timers ++ [⟨s.nextTimerId, now + delayMs, if repeats then delayMs else 0, cb⟩]
           nextTimerId := s.nextTimerId + 1 }

def cancelTimer (s : TimerQueue κ) (id : Nat) : TimerQueue κ :=
  { s with timers := s.timers.filter fun t => decide (t.id ≠ id) }

def requeue (s : TimerQueue κ) (pass : Pass κ) (t : Timer κ) : TimerQueue κ :=
  if 0 < t.intervalMs then
    { s with timers := s.timers ++ [{ t with expireMs := pass.now + t.intervalMs }]
             pass := some { pass with running := none } }
  else { s with pass := some { pass with running := none } }

variable (partition : Partition (Timer κ))

def processTimers (s : TimerQueue κ) (now : Int) : TimerQueue κ :=
  let parts := partition.apply (fun t => decide (now < t.expireMs)) s.timers
  { s with timers := parts.1, pass := some ⟨now, none, parts.2⟩ }

def step (s : TimerQueue κ) : Input κ → TimerQueue κ
  | .addTimer now delayMs cb repeats => addTimer s now delayMs cb repeats
  | .cancelTimer id => cancelTimer s id
  | .processTimers now => match s.pass with
    | none => processTimers partition s now
    | some _ => s
  | .next => match s.pass with
    | some ⟨now, none, t :: rest⟩ => { s with pass := some ⟨now, some t, rest⟩ }
    | some ⟨_, none, []⟩ => { s with pass := none }
    | _ => s
  | .returned => match s.pass with
    | some ⟨now, some t, rest⟩ => requeue s ⟨now, some t, rest⟩ t
    | _ => s

-- An empty callback is not called.
def events (s : TimerQueue κ) : Input κ → List Event
  | .next => match s.pass with
    | some ⟨_, none, t :: _⟩ => if t.cb.isSome then [.invoked t.id] else []
    | _ => []
  | .returned => match s.pass with
    | some ⟨_, some t, _⟩ => if 0 < t.intervalMs then [.rearmed t.id] else []
    | _ => []
  | _ => []

def trace : TimerQueue κ → List (Input κ) → List Event
  | _, [] => []
  | s, input :: rest => events s input ++ trace (step partition s input) rest

def About (id : Nat) (e : Event) : Prop := e = .invoked id ∨ e = .rearmed id

-- Whatever happens later, the callback is not called and the timer not put back.
def Silent (s : TimerQueue κ) (id : Nat) : Prop :=
  ∀ later, ∀ e ∈ trace partition s later, ¬ About id e

-- The pass under way will still call the callback, or put the timer back.
def Held (s : TimerQueue κ) (id : Nat) : Prop :=
  match s.pass with
  | none => False
  | some pass => (∃ t ∈ pass.running, t.id = id ∧ 0 < t.intervalMs) ∨
      ∃ t ∈ pass.expired, t.id = id ∧ (t.cb.isSome = true ∨ 0 < t.intervalMs)

/-! Out of the table and not held, a timer stays out. -/

structure Gone (s : TimerQueue κ) (id : Nat) : Prop where
  issued : id < s.nextTimerId
  table : ∀ t ∈ s.timers, t.id ≠ id
  free : ¬ Held s id
end

section
variable {κ : Type} {partition : Partition (Timer κ)} {s : TimerQueue κ} {id : Nat}

theorem heldPass {pass : Pass κ} (under : s.pass = some pass) : Held s id ↔
    (∃ t ∈ pass.running, t.id = id ∧ 0 < t.intervalMs) ∨
      ∃ t ∈ pass.expired, t.id = id ∧ (t.cb.isSome = true ∨ 0 < t.intervalMs) := by
  rw [Held, under]

theorem goneCancelled (issued : id < s.nextTimerId) (free : ¬ Held s id) : Gone (cancelTimer s id) id where
  issued := issued
  table t inside := by
    rw [cancelTimer, List.mem_filter, decide_eq_true_eq] at inside
    exact inside.2
  free := free

theorem goneAdd (gone : Gone s id) (now delayMs : Int) (cb : Option κ) (repeats : Bool) :
    Gone (addTimer s now delayMs cb repeats) id where
  issued := Nat.lt_succ_of_lt gone.issued
  table t inside := by
    rcases List.mem_append.mp inside with old | new
    · exact gone.table t old
    · rw [List.mem_singleton.mp new]
      exact Nat.ne_of_gt gone.issued
  free := gone.free

theorem goneOther (gone : Gone s id) (other : Nat) : Gone (cancelTimer s other) id where
  issued := gone.issued
  table t inside := gone.table t (List.mem_of_mem_filter inside)
  free := gone.free

theorem goneProcess (gone : Gone s id) (now : Int) : Gone (processTimers partition s now) id where
  issued := gone.issued
  table t inside := by
    refine gone.table t ((partition.same _ s.timers).mem_iff.mp (List.mem_append_left _ inside))
  free := by
    rw [heldPass rfl]
    rintro (⟨t, none_, _⟩ | ⟨t, inside, named, _⟩)
    · contradiction
    · exact gone.table t ((partition.same _ s.timers).mem_iff.mp (List.mem_append_right _ inside)) named

theorem goneNext (gone : Gone s id) {now : Int} {t : Timer κ} {rest : List (Timer κ)}
    (under : s.pass = some ⟨now, none, t :: rest⟩) :
    Gone { s with pass := some ⟨now, some t, rest⟩ } id where
  issued := gone.issued
  table := gone.table
  free := by
    have free := gone.free
    rw [heldPass under] at free
    rw [heldPass rfl]
    rintro (⟨u, same, named, periodic⟩ | ⟨u, inside, named, active⟩)
    · obtain rfl := Option.some.inj same
      exact free (.inr ⟨t, List.mem_cons_self, named, .inr periodic⟩)
    · exact free (.inr ⟨u, List.mem_cons_of_mem t inside, named, active⟩)

theorem goneRequeue (gone : Gone s id) {now : Int} {t : Timer κ} {rest : List (Timer κ)}
    (under : s.pass = some ⟨now, some t, rest⟩) : Gone (requeue s ⟨now, some t, rest⟩ t) id := by
  have free := gone.free
  rw [heldPass under] at free
  have after : ∀ timers, ¬ Held { s with timers := timers, pass := some ⟨now, none, rest⟩ } id := by
    intro timers
    rw [heldPass rfl]
    rintro (⟨u, none_, _⟩ | left)
    · contradiction
    · exact free (.inr left)
  unfold requeue
  split
  · rename_i periodic
    refine ⟨gone.issued, fun u inside => ?_, after _⟩
    rcases List.mem_append.mp inside with old | new
    · exact gone.table u old
    · rw [List.mem_singleton.mp new]
      exact fun named => free (.inl ⟨t, rfl, named, periodic⟩)
  · exact ⟨gone.issued, gone.table, after _⟩

theorem goneStep (gone : Gone s id) (input : Input κ) : Gone (step partition s input) id := by
  cases input with
  | addTimer now delayMs cb repeats => exact goneAdd gone now delayMs cb repeats
  | cancelTimer other => exact goneOther gone other
  | processTimers now =>
    simp only [step]
    split
    · exact goneProcess gone now
    · exact gone
  | next =>
    simp only [step]
    split
    · exact goneNext gone (by assumption)
    · exact ⟨gone.issued, gone.table, not_false⟩
    · exact gone
  | returned =>
    simp only [step]
    split
    · exact goneRequeue gone (by assumption)
    · exact gone

theorem goneQuiet (gone : Gone s id) (input : Input κ) : ∀ e ∈ events s input, ¬ About id e := by
  have free := gone.free
  cases input with
  | next =>
    simp only [events]
    split
    · rename_i under
      rw [heldPass under] at free
      split
      · rename_i called
        intro e inside
        rw [List.mem_singleton.mp inside]
        rintro (same | other)
        · exact free (.inr ⟨_, List.mem_cons_self, Event.invoked.inj same, .inl called⟩)
        · contradiction
      · exact fun e inside => nomatch inside
    · exact fun e inside => nomatch inside
  | returned =>
    simp only [events]
    split
    · rename_i under
      rw [heldPass under] at free
      split
      · rename_i periodic
        intro e inside
        rw [List.mem_singleton.mp inside]
        rintro (other | same)
        · contradiction
        · exact free (.inl ⟨_, rfl, Event.rearmed.inj same, periodic⟩)
      · exact fun e inside => nomatch inside
    · exact fun e inside => nomatch inside
  | addTimer | cancelTimer | processTimers => exact fun e inside => nomatch inside

theorem goneSilent (gone : Gone s id) : Silent partition s id := by
  intro later
  induction later generalizing s with
  | nil => exact fun e inside => nomatch inside
  | cons input rest ih =>
    intro e inside
    rcases List.mem_append.mp inside with first | last
    · exact goneQuiet gone input e first
    · exact ih (goneStep gone input) e last

/-! What a pass holds, its loop comes to. -/

theorem heldReturned {now : Int} {t : Timer κ} {rest : List (Timer κ)}
    (under : s.pass = some ⟨now, some t, rest⟩) :
    (step partition s .returned).pass = some ⟨now, none, rest⟩ := by
  simp only [step, under, requeue]
  split <;> rfl

theorem heldComes {now : Int} {expired : List (Timer κ)} (under : s.pass = some ⟨now, none, expired⟩)
    {t : Timer κ} (inside : t ∈ expired) (active : t.cb.isSome = true ∨ 0 < t.intervalMs) :
    ∃ later, ∃ e ∈ trace partition s later, About t.id e := by
  induction expired generalizing s with
  | nil => contradiction
  | cons u rest ih =>
    have begun : step partition s .next = { s with pass := some ⟨now, some u, rest⟩ } := by
      simp only [step, under]
    rcases List.mem_cons.mp inside with rfl | later
    · rcases active with called | periodic
      · refine ⟨[.next], .invoked t.id, ?_, .inl rfl⟩
        simp [trace, events, under, called]
      · refine ⟨[.next, .returned], .rearmed t.id, ?_, .inr rfl⟩
        simp [trace, events, under, begun, periodic]
    · have after : (step partition (step partition s .next) .returned).pass = some ⟨now, none, rest⟩ := by
        rw [begun]
        exact heldReturned rfl
      obtain ⟨inputs, e, there, about⟩ := ih after later
      refine ⟨.next :: .returned :: inputs, e, ?_, about⟩
      exact List.mem_append_right _ (List.mem_append_right _ there)

theorem heldFires (held : Held s id) : ∃ later, ∃ e ∈ trace partition s later, About id e := by
  cases under : s.pass with
  | none =>
    rw [Held, under] at held
    exact held.elim
  | some pass =>
    obtain ⟨now, running, expired⟩ := pass
    rw [heldPass under] at held
    cases running with
    | none =>
      rcases held with ⟨t, none_, _⟩ | ⟨t, inside, rfl, active⟩
      · contradiction
      · exact heldComes under inside active
    | some current =>
      rcases held with ⟨t, same, rfl, periodic⟩ | ⟨t, inside, rfl, active⟩
      · obtain rfl := Option.some.inj same
        refine ⟨[.returned], .rearmed current.id, ?_, .inr rfl⟩
        simp [trace, events, under, periodic]
      · obtain ⟨later, e, there, about⟩ := heldComes (heldReturned under) inside active
        exact ⟨.returned :: later, e, List.mem_append_right _ there, about⟩
end

theorem cancelledExact {κ : Type} (partition : Partition (Timer κ)) (s : TimerQueue κ) (id : Nat)
    (issued : id < s.nextTimerId) :
    Silent partition (step partition s (.cancelTimer id)) id ↔ ¬ Held s id := by
  constructor
  · intro silent held
    have fires : ∃ later, ∃ e ∈ trace partition (cancelTimer s id) later, About id e := heldFires held
    obtain ⟨later, e, there, about⟩ := fires
    exact silent later e there about
  · intro free
    exact goneSilent (goneCancelled issued free)

def stable (α : Type) : Partition α where
  apply p items := items.partition p
  front p items a inside := by
    rw [List.partition_eq_filter_filter] at inside
    exact (List.mem_filter.mp inside).2
  back p items a inside := by
    rw [List.partition_eq_filter_filter] at inside
    simpa using (List.mem_filter.mp inside).2
  same p items := by
    rw [List.partition_eq_filter_filter]
    exact List.filter_append_perm p items

theorem earlySilent :
    Silent (stable (Timer Unit)) (step (stable _)
      (run (step (stable _)) start [.addTimer 0 3000 (some ()) false]) (.cancelTimer 1)) 1 :=
  (cancelledExact (stable (Timer Unit)) (run (step (stable _)) start [.addTimer 0 3000 (some ()) false]) 1
    (by decide)).mpr not_false

/-! A periodic timer cancels itself and is put back all the same. -/
def inOwnCallback : List (Input Unit) := [.addTimer 0 40 (some ()) true, .processTimers 40, .next]

theorem selfCancelRearmed :
    ¬ ∀ (partition : Partition (Timer Unit)) (inputs : List (Input Unit)) (id : Nat),
      id < (run (step partition) start inputs).nextTimerId →
      Silent partition (step partition (run (step partition) start inputs) (.cancelTimer id)) id := by
  intro always
  have silent := always (stable (Timer Unit)) inOwnCallback 1 (by decide)
  exact silent [.returned] (.rearmed 1) (by decide) (.inr rfl)

end RtspRelay.Timers
