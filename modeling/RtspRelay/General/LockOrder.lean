import Mathlib.Algebra.BigOperators.Group.Finset.Basic
import Mathlib.Algebra.Order.BigOperators.Group.Finset
import Mathlib.Data.Finset.Max
import Mathlib.Data.Fintype.Basic
import Mathlib.Data.List.Nodup
import Mathlib.Logic.Relation

/-! Threads that share non-recursive mutexes. A call is the list of the mutexes it
takes and gives back. Where every call takes them in the order of one ranking, no
state is stuck: what was begun can always be finished. -/
namespace RtspRelay.LockOrder

variable {Thread Lock : Type} [DecidableEq Thread] [DecidableEq Lock]

inductive Action (Lock : Type) where
  | lock (l : Lock)
  | unlock (l : Lock)
  deriving DecidableEq, Repr

abbrev Script (Lock : Type) := List (Action Lock)

-- The mutexes a thread holds, the last taken first, and what is left of its call.
structure Config (Thread Lock : Type) where
  held : Thread → List Lock
  left : Thread → Script Lock

def idle : Config Thread Lock := ⟨fun _ => [], fun _ => []⟩

inductive Advance : Config Thread Lock → Config Thread Lock → Prop
  | lock {c : Config Thread Lock} (t : Thread) {l : Lock} {rest : Script Lock}
      (next : c.left t = .lock l :: rest) (free : ∀ u, l ∉ c.held u) :
      Advance c ⟨Function.update c.held t (l :: c.held t), Function.update c.left t rest⟩
  | unlock {c : Config Thread Lock} (t : Thread) {l : Lock} {rest : Script Lock}
      (next : c.left t = .unlock l :: rest) :
      Advance c ⟨Function.update c.held t ((c.held t).erase l), Function.update c.left t rest⟩

inductive Step (calls : Thread → Script Lock → Prop) : Config Thread Lock → Config Thread Lock → Prop
  | call {c : Config Thread Lock} (t : Thread) {s : Script Lock} (over_ : c.left t = []) (allowed : calls t s) :
      Step calls c ⟨c.held, Function.update c.left t s⟩
  | advance {c after : Config Thread Lock} (moves : Advance c after) : Step calls c after

def Reachable (calls : Thread → Script Lock → Prop) (c : Config Thread Lock) : Prop :=
  Relation.ReflTransGen (Step calls) idle c

def Finished (c : Config Thread Lock) : Prop := ∀ t, c.left t = [] ∧ c.held t = []

-- Every call that was begun can be finished, and no other call has to begin for it.
def Returnable (c : Config Thread Lock) : Prop :=
  ∃ after, Relation.ReflTransGen Advance c after ∧ Finished after

def Exclusive (c : Config Thread Lock) : Prop := ∀ l t u, l ∈ c.held t → l ∈ c.held u → t = u

/-! The discipline: a mutex is taken only above all that are held, and at the end none is. -/
section
variable (rank : Lock → Nat)

def Ascends : List Lock → Script Lock → Prop
  | held, [] => held = []
  | held, .lock l :: rest => (∀ h ∈ held, rank h < rank l) ∧ Ascends (l :: held) rest
  | held, .unlock l :: rest => l ∈ held ∧ Ascends (held.erase l) rest

-- A piece of a call that takes nothing below `low` and leaves what is held as it was.
def Climbs (low : Nat) (s : Script Lock) : Prop :=
  ∀ held rest, (∀ h ∈ held, rank h < low) → Ascends rank held rest → Ascends rank held (s ++ rest)
end

-- A lock_guard over a block.
def guarded (l : Lock) (body : Script Lock) : Script Lock := .lock l :: (body ++ [.unlock l])

section
variable {rank : Lock → Nat} {low : Nat}

theorem climbsNil : Climbs rank low [] := fun _ _ _ ascends => ascends

theorem climbsAppend {s u : Script Lock} (first : Climbs rank low s) (last : Climbs rank low u) :
    Climbs rank low (s ++ u) := by
  intro held rest below ascends
  rw [List.append_assoc]
  exact first held _ below (last held rest below ascends)

theorem climbsMono {high : Nat} {s : Script Lock} (climbs : Climbs rank high s) (le : low ≤ high) :
    Climbs rank low s :=
  fun held rest below ascends => climbs held rest (fun h inside => Nat.lt_of_lt_of_le (below h inside) le) ascends

theorem climbsGuarded {l : Lock} {body : Script Lock} (above : low ≤ rank l)
    (inner : Climbs rank (rank l + 1) body) : Climbs rank low (guarded l body) := by
  intro held rest below ascends
  have under : ∀ h ∈ held, rank h < rank l := fun h inside => Nat.lt_of_lt_of_le (below h inside) above
  refine ⟨under, ?_⟩
  show Ascends rank (l :: held) ((body ++ [.unlock l]) ++ rest)
  rw [List.append_assoc]
  refine inner _ _ (fun h inside => ?_) ?_
  · rcases List.mem_cons.mp inside with rfl | older
    · exact Nat.lt_succ_self _
    · exact Nat.lt_succ_of_lt (under h older)
  · refine ⟨List.mem_cons_self, ?_⟩
    rw [List.erase_cons_head]
    exact ascends

theorem climbsFlat {α : Type} {f : α → Script Lock} (each : ∀ a, Climbs rank low (f a)) (all : List α) :
    Climbs rank low (all.flatMap f) := by
  induction all with
  | nil => exact climbsNil
  | cons a rest ih =>
    rw [List.flatMap_cons]
    exact climbsAppend (each a) ih

theorem climbsCall {s : Script Lock} (climbs : Climbs rank low s) : Ascends rank [] s := by
  have call := climbs [] [] (by simp) rfl
  rwa [List.append_nil] at call
end

/-! What every step keeps. -/

structure Ordered (rank : Lock → Nat) (c : Config Thread Lock) : Prop where
  ascends : ∀ t, Ascends rank (c.held t) (c.left t)
  nodup : ∀ t, (c.held t).Nodup
  exclusive : Exclusive c

section
variable {rank : Lock → Nat} {c after : Config Thread Lock}

theorem advanceOrdered (h : Ordered rank c) (moves : Advance c after) : Ordered rank after := by
  cases moves with
  | lock t next free =>
    rename_i l rest
    have own := h.ascends t
    rw [next] at own
    have held : ∀ u k, k ∈ Function.update c.held t (l :: c.held t) u → (u = t ∧ k = l) ∨ k ∈ c.held u := by
      intro u k inside
      rcases eq_or_ne u t with rfl | differ
      · rw [Function.update_self] at inside
        exact (List.mem_cons.mp inside).imp (⟨rfl, ·⟩) id
      · rw [Function.update_of_ne differ] at inside
        exact .inr inside
    refine ⟨fun u => ?_, fun u => ?_, fun k u v one other => ?_⟩
    · rcases eq_or_ne u t with rfl | differ
      · simp only [Function.update_self]
        exact own.2
      · simp only [Function.update_of_ne differ]
        exact h.ascends u
    · rcases eq_or_ne u t with rfl | differ
      · simp only [Function.update_self]
        exact List.nodup_cons.mpr ⟨free u, h.nodup u⟩
      · simp only [Function.update_of_ne differ]
        exact h.nodup u
    · rcases held u k one with ⟨rfl, rfl⟩ | before
      · rcases held v k other with ⟨rfl, _⟩ | before'
        · rfl
        · exact absurd before' (free v)
      · rcases held v k other with ⟨rfl, rfl⟩ | before'
        · exact absurd before (free u)
        · exact h.exclusive k u v before before'
  | unlock t next =>
    rename_i l rest
    have own := h.ascends t
    rw [next] at own
    have held : ∀ u k, k ∈ Function.update c.held t ((c.held t).erase l) u → k ∈ c.held u := by
      intro u k inside
      rcases eq_or_ne u t with rfl | differ
      · rw [Function.update_self] at inside
        exact List.mem_of_mem_erase inside
      · rw [Function.update_of_ne differ] at inside
        exact inside
    refine ⟨fun u => ?_, fun u => ?_, fun k u v one other => h.exclusive k u v (held u k one) (held v k other)⟩
    · rcases eq_or_ne u t with rfl | differ
      · simp only [Function.update_self]
        exact own.2
      · simp only [Function.update_of_ne differ]
        exact h.ascends u
    · rcases eq_or_ne u t with rfl | differ
      · simp only [Function.update_self]
        exact (h.nodup u).erase l
      · simp only [Function.update_of_ne differ]
        exact h.nodup u

theorem emptyHeld {held : List Lock} (ascends : Ascends rank held []) : held = [] := ascends

theorem stepOrdered {calls : Thread → Script Lock → Prop}
    (disciplined : ∀ t s, calls t s → Ascends rank [] s) (h : Ordered rank c) (moves : Step calls c after) :
    Ordered rank after := by
  cases moves with
  | advance moves => exact advanceOrdered h moves
  | call t over_ allowed =>
    refine ⟨fun u => ?_, h.nodup, h.exclusive⟩
    rcases eq_or_ne u t with rfl | differ
    · have ended := h.ascends u
      rw [over_] at ended
      simp only [Function.update_self, emptyHeld ended]
      exact disciplined u _ allowed
    · simp only [Function.update_of_ne differ]
      exact h.ascends u

theorem reachedOrdered {calls : Thread → Script Lock → Prop}
    (disciplined : ∀ t s, calls t s → Ascends rank [] s) (reached : Reachable calls c) : Ordered rank c := by
  induction reached with
  | refl => exact ⟨fun _ => rfl, fun _ => List.nodup_nil, fun _ _ _ inside => absurd inside List.not_mem_nil⟩
  | tail _ moves ih => exact stepOrdered disciplined ih moves

/-! A thread that cannot move waits for a mutex whose holder waits for a higher one. -/

-- The mutex a thread is waiting for.
def wanted (c : Config Thread Lock) (t : Thread) : Option Lock :=
  match c.left t with
  | .lock l :: _ => some l
  | _ => none

theorem stuckWants (stuck : ∀ after, ¬ Advance c after) {t : Thread} (unfinished : c.left t ≠ []) :
    ∃ l rest u, c.left t = .lock l :: rest ∧ l ∈ c.held u := by
  cases todo : c.left t with
  | nil => exact absurd todo unfinished
  | cons a rest =>
    cases a with
    | unlock l => exact absurd (Advance.unlock t todo) (stuck _)
    | lock l =>
      by_contra free
      have nobody : ∀ u, l ∉ c.held u := fun u inside => free ⟨l, rest, u, rfl, inside⟩
      exact stuck _ (Advance.lock t todo nobody)

-- Where nothing moves and something is left, it stays.
theorem stuckStays (stuck : ∀ after, ¬ Advance c after) {t : Thread} (unfinished : c.left t ≠ []) :
    ¬ Returnable c := by
  rintro ⟨after, path, finished⟩
  rcases Relation.ReflTransGen.cases_head path with rfl | ⟨next, moves, _⟩
  · exact unfinished (finished t).1
  · exact stuck next moves

variable [Fintype Thread]

theorem advances (h : Ordered rank c) {t : Thread} (unfinished : c.left t ≠ []) : ∃ after, Advance c after := by
  by_contra none_
  have stuck : ∀ after, ¬ Advance c after := fun after moves => none_ ⟨after, moves⟩
  let waiting := Finset.univ.filter fun u => c.left u ≠ []
  obtain ⟨v, waits, highest⟩ := waiting.exists_max_image (fun u => ((wanted c u).map rank).getD 0)
    ⟨t, Finset.mem_filter.mpr ⟨Finset.mem_univ t, unfinished⟩⟩
  obtain ⟨l, rest, u, wants, holds⟩ := stuckWants stuck (Finset.mem_filter.mp waits).2
  -- The holder has to give `l` back, so it is not done, and it waits as well.
  have held : c.left u ≠ [] := fun ended => by
    have own := h.ascends u
    rw [ended] at own
    rw [emptyHeld own] at holds
    contradiction
  obtain ⟨k, more, _, next, _⟩ := stuckWants stuck held
  have own := h.ascends u
  rw [next] at own
  have higher := highest u (Finset.mem_filter.mpr ⟨Finset.mem_univ u, held⟩)
  simp only [wanted, wants, next, Option.map_some, Option.getD_some] at higher
  exact absurd (own.1 l holds) (Nat.not_lt.mpr higher)

def remaining (c : Config Thread Lock) : Nat := ∑ t, (c.left t).length

theorem advanceShrinks (moves : Advance c after) : remaining after < remaining c := by
  have shorter : ∀ (t : Thread) (a : Action Lock) (rest : Script Lock), c.left t = a :: rest →
      ∑ u, (Function.update c.left t rest u).length < ∑ u, (c.left u).length := by
    intro t a rest next
    refine Finset.sum_lt_sum (fun u _ => ?_) ⟨t, Finset.mem_univ t, ?_⟩
    · rcases eq_or_ne u t with rfl | differ
      · rw [Function.update_self, next]
        exact Nat.le_succ _
      · rw [Function.update_of_ne differ]
    · rw [Function.update_self, next]
      exact Nat.lt_succ_self _
  cases moves with
  | lock t next free => exact shorter t _ _ next
  | unlock t next => exact shorter t _ _ next

theorem orderedReturnable (h : Ordered rank c) : Returnable c := by
  induction size : remaining c using Nat.strong_induction_on generalizing c with
  | _ n ih =>
    rcases Classical.em (∃ t, c.left t ≠ []) with ⟨t, unfinished⟩ | done
    · obtain ⟨next, moves⟩ := advances h unfinished
      obtain ⟨after, path, finished⟩ := ih _ (size ▸ advanceShrinks moves) (advanceOrdered h moves) rfl
      exact ⟨after, .head moves path, finished⟩
    · refine ⟨c, .refl, fun t => ?_⟩
      have ended : c.left t = [] := by_contra fun unfinished => done ⟨t, unfinished⟩
      have own := h.ascends t
      rw [ended] at own
      exact ⟨ended, own⟩
end

/-! A thread that runs alone. -/

def solo (t : Thread) (held : List Lock) (left : Script Lock) : Config Thread Lock :=
  ⟨Function.update (fun _ => []) t held, Function.update (fun _ => []) t left⟩

section
variable {t : Thread} {held : List Lock} {l : Lock} {rest : Script Lock}

omit [DecidableEq Lock] in
theorem soloHeld (t u : Thread) {k : Lock} (inside : k ∈ (solo t held rest).held u) : k ∈ held := by
  rcases eq_or_ne u t with rfl | differ
  · simpa [solo] using inside
  · simp [solo, differ] at inside

theorem soloLock (free : l ∉ held) : Advance (solo t held (.lock l :: rest)) (solo t (l :: held) rest) := by
  have next : (solo t held (.lock l :: rest)).left t = .lock l :: rest := by simp [solo]
  have moves := Advance.lock t next fun u inside => free (soloHeld t u inside)
  simpa [solo] using moves

theorem soloUnlock : Advance (solo t held (.unlock l :: rest)) (solo t (held.erase l) rest) := by
  have next : (solo t held (.unlock l :: rest)).left t = .unlock l :: rest := by simp [solo]
  have moves := Advance.unlock t next
  simpa [solo] using moves

-- It cannot take what it holds.
theorem soloStuck (taken : l ∈ held) (after : Config Thread Lock) :
    ¬ Advance (solo t held (.lock l :: rest)) after := by
  intro moves
  have mine : l ∈ (solo t held (.lock l :: rest)).held t := by simpa [solo] using taken
  have own : ∀ {u : Thread} {a : Action Lock} {more : Script Lock},
      (solo t held (.lock l :: rest)).left u = a :: more → a = .lock l := by
    intro u a more next
    rcases eq_or_ne u t with rfl | differ
    · simp only [solo, Function.update_self] at next
      exact (List.cons.inj next).1.symm
    · simp [solo, differ] at next
  cases moves with
  | lock u next free =>
    cases own next
    exact free t mine
  | unlock u next => cases own next
end

-- What it holds after a piece of a call, if nothing in it is taken twice.
def alone : List Lock → Script Lock → Option (List Lock)
  | held, [] => some held
  | held, .lock l :: rest => if l ∈ held then none else alone (l :: held) rest
  | held, .unlock l :: rest => alone (held.erase l) rest

theorem aloneAdvances {t : Thread} {held after : List Lock} (piece rest : Script Lock)
    (runs : alone held piece = some after) :
    Relation.ReflTransGen Advance (solo t held (piece ++ rest)) (solo t after rest) := by
  induction piece generalizing held with
  | nil =>
    cases Option.some.inj runs
    exact .refl
  | cons a more ih =>
    cases a with
    | lock l =>
      rw [alone] at runs
      split at runs
      · contradiction
      · rename_i free
        exact .head (soloLock free) (ih runs)
    | unlock l => exact .head soloUnlock (ih runs)

theorem aloneReached {calls : Thread → Script Lock → Prop} {t : Thread} {after : List Lock}
    (piece rest : Script Lock) (allowed : calls t (piece ++ rest)) (runs : alone [] piece = some after) :
    Reachable calls (solo t after rest) := by
  have begun : Step calls idle (solo t [] (piece ++ rest)) := by
    have starts := Step.call (c := idle) t rfl allowed
    simpa [solo, idle] using starts
  exact .head begun ((aloneAdvances piece rest runs).lift id fun _ _ => Step.advance)

end RtspRelay.LockOrder
