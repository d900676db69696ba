import RtspRelay.Timers

/-! One whole pass of `processTimers` whose callbacks may add timers: what it runs, what it
leaves in the table and which ids are in use. The times are int64_t; no sum of a time and
a delay is taken to overflow. -/
namespace RtspRelay.TimerPass
open Transition Timers

structure Addition (κ : Type) where
  now : Int
  delayMs : Int
  cb : Option κ
  repeats : Bool

section
variable {κ : Type}

def Addition.input (a : Addition κ) : Input κ := .addTimer a.now a.delayMs a.cb a.repeats

def Addition.timer (a : Addition κ) (id : Nat) : Timer κ :=
  ⟨id, a.now + a.delayMs, if a.repeats then a.delayMs else 0, a.cb⟩

-- The timers that a run adds, with the ids it gives them.
def timersMade : Nat → List (Input κ) → List (Timer κ)
  | _, [] => []
  | id, .addTimer now delayMs cb repeats :: rest =>
    Addition.timer ⟨now, delayMs, cb, repeats⟩ id :: timersMade (id + 1) rest
  | id, _ :: rest => timersMade id rest

def invokedIn (events : List Event) : List Nat :=
  events.filterMap fun
    | .invoked id => some id
    | .rearmed _ => none

def rearmedIn (events : List Event) : List Nat :=
  events.filterMap fun
    | .rearmed id => some id
    | .invoked _ => none

def Due (now : Int) (t : Timer κ) : Prop := t.expireMs ≤ now
instance (now : Int) (t : Timer κ) : Decidable (Due now t) := inferInstanceAs (Decidable (_ ≤ _))

def rearm (now : Int) (t : Timer κ) : Timer κ := { t with expireMs := now + t.intervalMs }

def periodic (items : List (Timer κ)) : List (Timer κ) := items.filter fun t => decide (0 < t.intervalMs)

def called (items : List (Timer κ)) : List (Timer κ) := items.filter fun t => t.cb.isSome

variable (partition : Partition (Timer κ)) (behave : TimerQueue κ → Timer κ → List (Addition κ))

-- The loop over the expired timers: a callback adds what `behave` says it adds in the state it runs in.
def loopInputs : List (Timer κ) → TimerQueue κ → List (Input κ)
  | [], _ => [.next]
  | t :: rest, s =>
    let begun := step partition s .next
    let turn := .next :: ((if t.cb.isSome then behave begun t else []).map Addition.input ++ [.returned])
    turn ++ loopInputs rest (run (step partition) s turn)

def passInputs (s : TimerQueue κ) (now : Int) : List (Input κ) :=
  let begun := step partition s (.processTimers now)
  .processTimers now :: loopInputs partition behave (begun.pass.elim [] Pass.expired) begun

structure Issued (s : TimerQueue κ) : Prop where
  below : ∀ t ∈ s.timers, t.id < s.nextTimerId
  distinct : (s.timers.map Timer.id).Nodup

end

-- What a pass that began in `s` has done when its inputs are over.
structure Conserves {κ : Type} (now : Int) (s after : TimerQueue κ) (made : List (Timer κ)) (events : List Event) :
    Prop where
  ended : after.pass = none
  ran : (invokedIn events).Perm ((called (s.timers.filter fun t => Due now t)).map Timer.id)
  rearmed : (rearmedIn events).Perm ((periodic (s.timers.filter fun t => Due now t)).map Timer.id)
  table : after.timers.Perm ((s.timers.filter fun t => ¬Due now t) ++
    (periodic (s.timers.filter fun t => Due now t)).map (rearm now) ++ made)
  issued : Issued s → Issued after

section
variable {κ : Type} (partition : Partition (Timer κ)) (behave : TimerQueue κ → Timer κ → List (Addition κ))

theorem madeAppend (id : Nat) (first last : List (Input κ)) :
    timersMade id (first ++ last) = timersMade id first ++ timersMade (id + (timersMade id first).length) last := by
  induction first generalizing id with
  | nil => rfl
  | cons input first ih =>
    cases input with
    | addTimer now delayMs cb repeats =>
      simp only [List.cons_append, timersMade, ih, List.length_cons, Nat.add_assoc, Nat.add_comm 1]
    | cancelTimer | processTimers | next | returned => exact ih id

theorem traceAppend (s : TimerQueue κ) (first last : List (Input κ)) :
    trace partition s (first ++ last) =
      trace partition s first ++ trace partition (run (step partition) s first) last := by
  induction first generalizing s with
  | nil => rfl
  | cons input first ih => rw [List.cons_append, trace, trace, ih, List.append_assoc]; rfl

-- A callback only adds to the table.
theorem additionsRun (adds : List (Addition κ)) (s : TimerQueue κ) :
    run (step partition) s (adds.map Addition.input) =
        { s with timers := s.timers ++ timersMade s.nextTimerId (adds.map Addition.input)
                 nextTimerId := s.nextTimerId + adds.length } ∧
      trace partition s (adds.map Addition.input) = [] ∧
      (timersMade s.nextTimerId (adds.map Addition.input)).length = adds.length := by
  induction adds generalizing s with
  | nil => exact ⟨by simp [run, timersMade], rfl, rfl⟩
  | cons a adds ih =>
    obtain ⟨ran, quiet, count⟩ := ih (addTimer s a.now a.delayMs a.cb a.repeats)
    refine ⟨?_, quiet, congrArg (· + 1) count⟩
    refine ran.trans ?_
    simp only [addTimer, List.map_cons, Addition.input, timersMade, Addition.timer, List.append_assoc,
      List.singleton_append, List.length_cons, Nat.add_assoc, Nat.add_comm 1]

-- The state behind one turn of the loop, whose callback has added `adds`.
def turned (s : TimerQueue κ) (now : Int) (t : Timer κ) (rest : List (Timer κ)) (adds : List (Addition κ)) :
    TimerQueue κ where
  timers := s.timers ++ timersMade s.nextTimerId (adds.map Addition.input) ++ (periodic [t]).map (rearm now)
  nextTimerId := s.nextTimerId + adds.length
  pass := some ⟨now, none, rest⟩

theorem turnRun {s : TimerQueue κ} {now : Int} {t : Timer κ} {rest : List (Timer κ)}
    (under : s.pass = some ⟨now, none, t :: rest⟩) (adds : List (Addition κ)) :
    run (step partition) s (.next :: (adds.map Addition.input ++ [.returned])) = turned s now t rest adds ∧
      trace partition s (.next :: (adds.map Addition.input ++ [.returned])) =
        (called [t]).map (fun t => .invoked t.id) ++ (periodic [t]).map (fun t => .rearmed t.id) := by
  have begun : step partition s .next = { s with pass := some ⟨now, some t, rest⟩ } := by simp only [step, under]
  obtain ⟨ran, quiet, -⟩ := additionsRun partition adds { s with pass := some ⟨now, some t, rest⟩ }
  have first : events s .next = (called [t]).map fun t => .invoked t.id := by
    simp only [events, under, called, List.filter_cons, List.filter_nil]
    split <;> rfl
  constructor
  · rw [run, List.foldl_cons, begun, List.foldl_append]
    change List.foldl (step partition) (run (step partition) _ _) [.returned] = _
    rw [ran]
    simp only [List.foldl_cons, List.foldl_nil, step, requeue, turned, periodic, List.filter_cons, List.filter_nil]
    by_cases again : 0 < t.intervalMs
    · simp only [again, if_true, decide_true, List.map_cons, List.map_nil, rearm]
    · simp only [again, if_false, decide_false, Bool.false_eq_true, List.map_nil, List.append_nil]
  · rw [trace, first, begun, traceAppend, quiet, ran]
    simp only [trace, events, List.nil_append, List.append_nil, periodic, List.filter_cons, List.filter_nil]
    by_cases again : 0 < t.intervalMs
    · simp only [again, if_true, decide_true, List.map_cons, List.map_nil]
    · simp only [again, if_false, decide_false, Bool.false_eq_true, List.map_nil]

-- What the loop over `expired` does from a state between two callbacks.
structure LoopDone (now : Int) (expired : List (Timer κ)) (s after : TimerQueue κ) (made : List (Timer κ))
    (events : List Event) : Prop where
  ended : after.pass = none
  ran : invokedIn events = (called expired).map Timer.id
  rearmed : rearmedIn events = (periodic expired).map Timer.id
  table : after.timers.Perm (s.timers ++ ((periodic expired).map (rearm now) ++ made))
  next : after.nextTimerId = s.nextTimerId + made.length

theorem turnMade (id : Nat) (adds : List (Addition κ)) :
    timersMade id (.next :: (adds.map Addition.input ++ [.returned])) = timersMade id (adds.map Addition.input) := by
  change timersMade id (adds.map Addition.input ++ [.returned]) = _
  rw [madeAppend]
  exact List.append_nil _

theorem invokedTurn (ts us : List (Timer κ)) (later : List Event) :
    invokedIn (ts.map (fun t => .invoked t.id) ++ us.map (fun t => .rearmed t.id) ++ later) =
      ts.map Timer.id ++ invokedIn later := by
  induction ts with
  | nil =>
    induction us with
    | nil => rfl
    | cons u us ih => exact ih
  | cons t ts ih => exact congrArg (t.id :: ·) ih

theorem rearmedTurn (ts us : List (Timer κ)) (later : List Event) :
    rearmedIn (ts.map (fun t => .invoked t.id) ++ us.map (fun t => .rearmed t.id) ++ later) =
      us.map Timer.id ++ rearmedIn later := by
  induction ts with
  | nil =>
    induction us with
    | nil => rfl
    | cons u us ih => exact congrArg (u.id :: ·) ih
  | cons t ts ih => exact ih

theorem calledCons (t : Timer κ) (rest : List (Timer κ)) : called (t :: rest) = called [t] ++ called rest :=
  List.filter_append [t] rest

theorem periodicCons (t : Timer κ) (rest : List (Timer κ)) : periodic (t :: rest) = periodic [t] ++ periodic rest :=
  List.filter_append [t] rest

theorem loopTurn {s after : TimerQueue κ} {now : Int} {t : Timer κ} {rest made : List (Timer κ)} {later : List Event}
    (adds : List (Addition κ)) (done : LoopDone now rest (turned s now t rest adds) after made later)
    (count : (timersMade s.nextTimerId (adds.map Addition.input)).length = adds.length) :
    LoopDone now (t :: rest) s after (timersMade s.nextTimerId (adds.map Addition.input) ++ made)
      ((called [t]).map (fun t => .invoked t.id) ++ (periodic [t]).map (fun t => .rearmed t.id) ++ later) where
  ended := done.ended
  ran := by rw [invokedTurn, done.ran, calledCons t rest, List.map_append]
  rearmed := by rw [rearmedTurn, done.rearmed, periodicCons t rest, List.map_append]
  table := by
    refine done.table.trans ?_
    rw [turned, periodicCons t rest, List.map_append]
    simp only [List.append_assoc]
    refine List.Perm.append_left _ ?_
    have swap : (timersMade s.nextTimerId (adds.map Addition.input) ++
        ((periodic [t]).map (rearm now) ++ (periodic rest).map (rearm now)) ++ made).Perm
        ((periodic [t]).map (rearm now) ++ (periodic rest).map (rearm now) ++
          timersMade s.nextTimerId (adds.map Addition.input) ++ made) :=
      List.perm_append_comm.append_right made
    simpa only [List.append_assoc] using swap
  next := by
    rw [done.next, turned, List.length_append, count, Nat.add_assoc]

theorem loopRun (expired : List (Timer κ)) {s : TimerQueue κ} {now : Int} (under : s.pass = some ⟨now, none, expired⟩) :
    LoopDone now expired s (run (step partition) s (loopInputs partition behave expired s))
      (timersMade s.nextTimerId (loopInputs partition behave expired s))
      (trace partition s (loopInputs partition behave expired s)) := by
  induction expired generalizing s with
  | nil =>
    have last : step partition s .next = { s with pass := none } := by simp only [step, under]
    have quiet : events s .next = [] := by simp only [events, under]
    rw [loopInputs, run, List.foldl_cons, List.foldl_nil, last, trace, trace, quiet]
    exact ⟨rfl, rfl, rfl, by simp [timersMade, periodic], rfl⟩
  | cons t rest ih =>
    rw [loopInputs]
    generalize (if t.cb.isSome then behave (step partition s .next) t else []) = adds
    obtain ⟨ran, events⟩ := turnRun partition under adds
    obtain ⟨-, -, count⟩ := additionsRun partition adds s
    rw [runAppend, traceAppend, events, ran, madeAppend, turnMade, count]
    exact loopTurn adds (ih rfl) count

theorem filterKept {α : Type} {p : α → Bool} {items : List α} (all : ∀ a ∈ items, p a = true) :
    items.filter p = items :=
  List.filter_eq_self.mpr all

theorem filterDropped {α : Type} {p : α → Bool} {items : List α} (all : ∀ a ∈ items, p a = false) :
    items.filter p = [] := by
  refine List.filter_eq_nil_iff.mpr fun a inside => ?_
  rw [all a inside]
  exact Bool.noConfusion

theorem partitionFront (p : Timer κ → Bool) (items : List (Timer κ)) :
    (partition.apply p items).1.Perm (items.filter p) := by
  have parted := (partition.same p items).filter p
  rwa [List.filter_append, filterKept (partition.front p items), filterDropped (partition.back p items),
    List.append_nil] at parted

theorem partitionBack (p : Timer κ → Bool) (items : List (Timer κ)) :
    (partition.apply p items).2.Perm (items.filter fun t => !p t) := by
  have parted := (partition.same p items).filter fun t => !p t
  have front : ∀ t ∈ (partition.apply p items).1, (!p t) = false := fun t inside => by
    rw [partition.front p items t inside]
    rfl
  have back : ∀ t ∈ (partition.apply p items).2, (!p t) = true := fun t inside => by
    rw [partition.back p items t inside]
    rfl
  rwa [List.filter_append, filterDropped front, filterKept back, List.nil_append] at parted

theorem madeIds (id : Nat) (inputs : List (Input κ)) :
    (timersMade id inputs).map Timer.id = List.range' id (timersMade id inputs).length := by
  induction inputs generalizing id with
  | nil => rfl
  | cons input inputs ih =>
    cases input with
    | addTimer now delayMs cb repeats =>
      rw [timersMade, List.map_cons, ih, List.length_cons, List.range'_succ]
      rfl
    | cancelTimer | processTimers | next | returned => exact ih id

theorem rearmIds (now : Int) (items : List (Timer κ)) : (items.map (rearm now)).map Timer.id = items.map Timer.id := by
  rw [List.map_map]
  rfl

-- The ids that stay are some of those that were there, and the new ones are above them.
theorem issuedAfter {s after : TimerQueue κ} {now : Int} {made : List (Timer κ)} {inputs : List (Input κ)}
    (isMade : made = timersMade s.nextTimerId inputs)
    (table : after.timers.Perm ((s.timers.filter fun t => ¬Due now t) ++
      (periodic (s.timers.filter fun t => Due now t)).map (rearm now) ++ made))
    (next : after.nextTimerId = s.nextTimerId + made.length) (issued : Issued s) : Issued after := by
  have newIds : made.map Timer.id = List.range' s.nextTimerId made.length := by rw [isMade, madeIds]
  have stay : ((s.timers.filter fun t => ¬Due now t) ++ periodic (s.timers.filter fun t => Due now t)).Sublist
      ((s.timers.filter fun t => ¬Due now t) ++ s.timers.filter fun t => Due now t) :=
    List.Sublist.append_left List.filter_sublist _
  have whole : ((s.timers.filter fun t => ¬Due now t) ++ s.timers.filter fun t => Due now t).Perm s.timers := by
    have parted := List.filter_append_perm (fun t => decide (Due now t)) s.timers
    refine List.perm_append_comm.trans ?_
    simpa only [decide_not] using parted
  have ids : (after.timers.map Timer.id).Perm
      (((s.timers.filter fun t => ¬Due now t) ++ periodic (s.timers.filter fun t => Due now t)).map Timer.id ++
        List.range' s.nextTimerId made.length) := by
    have mapped := table.map Timer.id
    rwa [List.map_append, List.map_append, rearmIds, newIds, ← List.map_append] at mapped
  have old : ∀ id ∈ ((s.timers.filter fun t => ¬Due now t) ++
      periodic (s.timers.filter fun t => Due now t)).map Timer.id, id < s.nextTimerId := by
    intro id inside
    obtain ⟨t, there, rfl⟩ := List.mem_map.mp inside
    exact issued.below t (whole.mem_iff.mp (stay.mem there))
  refine ⟨fun t inside => ?_, ids.nodup_iff.mpr (List.nodup_append.mpr ⟨?_, List.nodup_range', ?_⟩)⟩
  · rcases List.mem_append.mp (ids.mem_iff.mp (List.mem_map_of_mem inside)) with before | new
    · exact Nat.lt_of_lt_of_le (old t.id before) (by omega)
    · rw [List.mem_range'_1] at new
      omega
  · exact ((whole.map Timer.id).nodup_iff.mpr issued.distinct).sublist (stay.map Timer.id)
  · intro a before b new same
    have low := old a before
    rw [List.mem_range'_1] at new
    omega

theorem dueParts (now : Int) (timers : List (Timer κ)) :
    (partition.apply (fun t => decide (now < t.expireMs)) timers).1.Perm (timers.filter fun t => ¬Due now t) ∧
      (partition.apply (fun t => decide (now < t.expireMs)) timers).2.Perm (timers.filter fun t => Due now t) := by
  have later (t : Timer κ) : decide (now < t.expireMs) = decide ¬Due now t :=
    decide_eq_decide.mpr Int.not_le.symm
  have due (t : Timer κ) : (!decide (now < t.expireMs)) = decide (Due now t) := by
    rw [later, decide_not, Bool.not_not]
  have front := partitionFront partition (fun t => decide (now < t.expireMs)) timers
  have back := partitionBack partition (fun t => decide (now < t.expireMs)) timers
  rw [List.filter_congr fun t _ => due t] at back
  exact ⟨front.trans (List.Perm.of_eq (List.filter_congr fun t _ => later t)), back⟩

end

theorem passDone {κ : Type} (partition : Partition (Timer κ)) (behave : TimerQueue κ → Timer κ → List (Addition κ))
    {s : TimerQueue κ} (idle : s.pass = none) (now : Int) :
    Conserves now s (run (step partition) s (passInputs partition behave s now))
      (timersMade s.nextTimerId (passInputs partition behave s now))
      (trace partition s (passInputs partition behave s now)) := by
  obtain ⟨timers, nextTimerId, pass⟩ := s
  obtain rfl : pass = none := idle
  obtain ⟨front, back⟩ := dueParts partition now timers
  have done := loopRun partition behave
    (partition.apply (fun t => decide (now < t.expireMs)) timers).2
    (s := processTimers partition ⟨timers, nextTimerId, none⟩ now) rfl
  have table : (run (step partition) ⟨timers, nextTimerId, none⟩
      (passInputs partition behave ⟨timers, nextTimerId, none⟩ now)).timers.Perm ((timers.filter fun t => ¬Due now t) ++
      (periodic (timers.filter fun t => Due now t)).map (rearm now) ++
      timersMade nextTimerId (passInputs partition behave ⟨timers, nextTimerId, none⟩ now)) := by
    refine done.table.trans ?_
    rw [List.append_assoc]
    exact front.append (((back.filter _).map _).append_right _)
  exact
    { ended := done.ended
      ran := (List.Perm.of_eq done.ran).trans ((back.filter _).map _)
      rearmed := (List.Perm.of_eq done.rearmed).trans ((back.filter _).map _)
      table := table
      issued := issuedAfter rfl table done.next }

/-! ### Between passes -/

section
variable {κ : Type} (partition : Partition (Timer κ))

inductive Between : TimerQueue κ → Prop where
  | start : Between start
  | addTimer {s} (now delayMs : Int) (cb : Option κ) (repeats : Bool) : Between s →
      Between (addTimer s now delayMs cb repeats)
  | cancelTimer {s} (id : Nat) : Between s → Between (cancelTimer s id)
  | pass {s} (behave : TimerQueue κ → Timer κ → List (Addition κ)) (now : Int) : Between s →
      Between (run (step partition) s (passInputs partition behave s now))

variable {partition}

theorem betweenIssued {s : TimerQueue κ} (between : Between partition s) : s.pass = none ∧ Issued s := by
  induction between with
  | start => exact ⟨rfl, nofun, List.nodup_nil⟩
  | addTimer now delayMs cb repeats _ ih =>
    obtain ⟨idle, below, distinct⟩ := ih
    refine ⟨idle, fun t inside => ?_, ?_⟩
    · rcases List.mem_append.mp inside with old | new
      · exact Nat.lt_succ_of_lt (below t old)
      · rw [List.mem_singleton.mp new]
        exact Nat.lt_succ_self _
    · rw [addTimer, List.map_append]
      refine List.nodup_append.mpr ⟨distinct, List.pairwise_singleton _ _, fun a old b new => ?_⟩
      obtain ⟨t, there, rfl⟩ := List.mem_map.mp old
      rw [List.mem_singleton.mp new]
      exact Nat.ne_of_lt (below t there)
  | cancelTimer id _ ih =>
    obtain ⟨idle, below, distinct⟩ := ih
    exact ⟨idle, fun t inside => below t (List.mem_of_mem_filter inside),
      distinct.sublist (List.filter_sublist.map _)⟩
  | @pass s behave now _ ih =>
    have conserves := passDone partition behave ih.1 now
    exact ⟨conserves.ended, conserves.issued ih.2⟩

end

-- Whatever the table, the order in its parts and the additions of the callbacks.
theorem passConserves {κ : Type} (partition : Partition (Timer κ))
    (behave : TimerQueue κ → Timer κ → List (Addition κ)) (timers : List (Timer κ)) (nextTimerId : Nat) (now : Int) :
    let s : TimerQueue κ := ⟨timers, nextTimerId, none⟩
    let inputs := passInputs partition behave s now
    Conserves now s (run (step partition) s inputs) (timersMade nextTimerId inputs) (trace partition s inputs) :=
  passDone partition behave rfl now

end RtspRelay.TimerPass
