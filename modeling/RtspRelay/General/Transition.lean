import Mathlib.Logic.Basic

/-! Runs of a deterministic system under a list of inputs: what every state of a
run satisfies, what every step of it meets, and how the two determine each
other through one fact about a single step. -/
namespace RtspRelay.Transition

variable {σ α : Type} (step : σ → α → σ)

def run (s : σ) (inputs : List α) : σ := inputs.foldl step s

def Always (P : σ → Prop) : σ → List α → Prop
  | s, [] => P s
  | s, a :: rest => P s ∧ Always P (step s a) rest

def Throughout (C : σ → α → Prop) : σ → List α → Prop
  | _, [] => True
  | s, a :: rest => C s a ∧ Throughout C (step s a) rest

instance decideThroughout (C : σ → α → Prop) [∀ s a, Decidable (C s a)] :
    ∀ (s : σ) (inputs : List α), Decidable (Throughout step C s inputs)
  | _, [] => .isTrue trivial
  | s, a :: rest =>
    have := decideThroughout C (step s a) rest
    inferInstanceAs (Decidable (C s a ∧ Throughout step C (step s a) rest))

variable {step}

theorem runAppend (s : σ) (first last : List α) :
    run step s (first ++ last) = run step (run step s first) last := List.foldl_append

theorem alwaysHead {P : σ → Prop} {s : σ} {inputs : List α} (h : Always step P s inputs) : P s := by
  cases inputs with
  | nil => exact h
  | cons a rest => exact h.1

theorem alwaysLast {P : σ → Prop} {s : σ} {inputs : List α} (h : Always step P s inputs) :
    P (run step s inputs) := by
  induction inputs generalizing s with
  | nil => exact h
  | cons a rest ih => exact ih h.2

theorem throughoutMono {C D : σ → α → Prop} (weaker : ∀ s a, C s a → D s a) {s : σ}
    {inputs : List α} (h : Throughout step C s inputs) : Throughout step D s inputs := by
  induction inputs generalizing s with
  | nil => trivial
  | cons a rest ih => exact ⟨weaker s a h.1, ih h.2⟩

theorem throughoutAll {C : α → Prop} {inputs : List α} (all : ∀ a ∈ inputs, C a) (s : σ) :
    Throughout step (fun _ => C) s inputs := by
  induction inputs generalizing s with
  | nil => trivial
  | cons a rest ih =>
    obtain ⟨here, later⟩ := List.forall_mem_cons.mp all
    exact ⟨here, ih later _⟩

theorem runInvariant {I : σ → Prop} (keeps : ∀ s a, I s → I (step s a)) {s : σ} (start : I s)
    (inputs : List α) : I (run step s inputs) := by
  induction inputs generalizing s with
  | nil => exact start
  | cons a rest ih => exact ih (keeps s a start)

theorem alwaysInvariant {I P : σ → Prop} (keeps : ∀ s a, I s → I (step s a)) (holds : ∀ s, I s → P s)
    {s : σ} (start : I s) (inputs : List α) : Always step P s inputs := by
  induction inputs generalizing s with
  | nil => exact holds s start
  | cons a rest ih => exact ⟨holds s start, ih (keeps s a start)⟩

/-! Two demands on a step that agree wherever an invariant holds. -/
theorem throughoutExact {I : σ → Prop} {C D : σ → α → Prop} (keeps : ∀ s a, I s → I (step s a))
    (same : ∀ s a, I s → (C s a ↔ D s a)) {s : σ} (start : I s) (inputs : List α) :
    Throughout step C s inputs ↔ Throughout step D s inputs := by
  induction inputs generalizing s with
  | nil => exact Iff.rfl
  | cons a rest ih => exact and_congr (same s a start) (ih (keeps s a start))

/-! The same when only the steps that meet the demand keep the invariant. -/
theorem throughoutAlong {I : σ → Prop} {C D : σ → α → Prop} (keeps : ∀ s a, I s → C s a → I (step s a))
    (same : ∀ s a, I s → (C s a ↔ D s a)) {s : σ} (start : I s) (inputs : List α) :
    Throughout step C s inputs ↔ Throughout step D s inputs := by
  induction inputs generalizing s with
  | nil => exact Iff.rfl
  | cons a rest ih =>
    by_cases meets : C s a
    · exact and_congr (same s a start) (ih (keeps s a start meets))
    · exact iff_of_false (fun h => meets h.1) (fun h => meets ((same s a start).mpr h.1))

theorem runAlong {I : σ → Prop} {C : σ → α → Prop} (keeps : ∀ s a, I s → C s a → I (step s a)) {s : σ}
    (start : I s) {inputs : List α} (meets : Throughout step C s inputs) : I (run step s inputs) := by
  induction inputs generalizing s with
  | nil => exact start
  | cons a rest ih => exact ih (keeps s a start meets.1) meets.2

/-! An invariant that only steps meeting `C` keep, and what it gives for the
states of a run. -/
section
variable {I P : σ → Prop} {C : σ → α → Prop} (keeps : ∀ s a, I s → C s a → I (step s a))
include keeps

theorem alwaysAlong (holds : ∀ s, I s → P s) {s : σ} {inputs : List α} (start : I s)
    (meets : Throughout step C s inputs) : Always step P s inputs := by
  induction inputs generalizing s with
  | nil => exact holds s start
  | cons a rest ih => exact ⟨holds s start, ih (keeps s a start meets.1) meets.2⟩

/-! When a step outside `C` is also seen in the state it leads to, the runs whose
states all satisfy `P` are the runs whose steps all meet `C`. -/
theorem alwaysExact (holds : ∀ s, I s → P s) (breaks : ∀ s a, I s → ¬ C s a → ¬ P (step s a))
    {s : σ} {inputs : List α} (start : I s) :
    Always step P s inputs ↔ Throughout step C s inputs := by
  refine ⟨?_, alwaysAlong keeps holds start⟩
  induction inputs generalizing s with
  | nil => intro _; trivial
  | cons a rest ih =>
    intro always
    have meets : C s a := Classical.byContradiction fun outside =>
      breaks s a start outside (alwaysHead always.2)
    exact ⟨meets, ih (keeps s a start meets) always.2⟩
end

/-! A system whose steps can fail: it stays where it is behind a failure. -/

variable {ε : Type}

def orStay (step : σ → α → Except ε σ) (s : σ) (a : α) : σ :=
  match step s a with
  | .ok after => after
  | .error _ => s

theorem foldlMOk (step : σ → α → Except ε σ) (s : σ) (inputs : List α) :
    (∃ after, inputs.foldlM step s = .ok after) ↔
      Throughout (orStay step) (fun s a => ∃ after, step s a = .ok after) s inputs := by
  induction inputs generalizing s with
  | nil => exact iff_of_true ⟨s, rfl⟩ trivial
  | cons a rest ih =>
    rw [Throughout, ← ih, List.foldlM_cons, orStay]
    cases step s a with
    | ok after => simp [bind, Except.bind]
    | error fault => simp [bind, Except.bind]

theorem foldlMKeeps {step : σ → α → Except ε σ} {I : σ → Prop}
    (keeps : ∀ s a after, I s → step s a = .ok after → I after) {s after : σ} (start : I s)
    {inputs : List α} (ends : inputs.foldlM step s = .ok after) : I after := by
  induction inputs generalizing s with
  | nil => cases ends; exact start
  | cons a rest ih =>
    rw [List.foldlM_cons] at ends
    cases first : step s a with
    | ok mid =>
      rw [first] at ends
      exact ih (keeps s a mid start first) ends
    | error fault =>
      rw [first] at ends
      contradiction

end RtspRelay.Transition
