import Mathlib.Data.List.Forall2

/-! A system whose steps give outputs, and what it means that another one, which keeps a
log, does as it does. -/
namespace RtspRelay.Simulation

variable {σ τ α ω ε : Type}

def outputs (step : σ → α → σ × ω) : σ → List α → List ω
  | _, [] => []
  | s, a :: rest => (step s a).2 :: outputs step (step s a).1 rest

def final (step : σ → α → σ × ω) (s : σ) (inputs : List α) : σ := inputs.foldl (fun s a => (step s a).1) s

theorem outputsLast (step : σ → α → σ × ω) (s : σ) (inputs : List α) (a : α) :
    outputs step s (inputs ++ [a]) = outputs step s inputs ++ [(step (final step s inputs) a).2] := by
  induction inputs generalizing s with
  | nil => rfl
  | cons b rest ih => exact congrArg ((step s b).2 :: ·) (ih (step s b).1)

theorem finalLast (step : σ → α → σ × ω) (s : σ) (inputs : List α) (a : α) :
    final step s (inputs ++ [a]) = (step (final step s inputs) a).1 := List.foldl_concat ..

/-! A log of what a system has been asked and what it answered: whatever inputs its
entries ask of the specification, the outputs agree and the states are related. -/

variable {spec : τ → α → τ × ω} {Related : σ → τ → Prop} {Asks : ε → α → Prop} {Agrees : ε → ω → Prop}

def Records (spec : τ → α → τ × ω) (Related : σ → τ → Prop) (Asks : ε → α → Prop) (Agrees : ε → ω → Prop)
    (start : τ) (s : σ) (log : List ε) : Prop :=
  ∀ inputs, List.Forall₂ Asks log inputs →
    List.Forall₂ Agrees log (outputs spec start inputs) ∧ Related s (final spec start inputs)

theorem recordsNothing {start : τ} {s : σ} (related : Related s start) :
    Records spec Related Asks Agrees start s [] := by
  intro inputs asked
  cases asked
  exact ⟨.nil, related⟩

theorem recordsStill {start : τ} {s after : σ} {log : List ε} (h : Records spec Related Asks Agrees start s log)
    (keeps : ∀ t, Related s t → Related after t) : Records spec Related Asks Agrees start after log :=
  fun inputs asked => ⟨(h inputs asked).1, keeps _ (h inputs asked).2⟩

theorem recordsNext {start : τ} {s after : σ} {log : List ε} {entry : ε}
    (h : Records spec Related Asks Agrees start s log)
    (next : ∀ t a, Related s t → Asks entry a → Related after (spec t a).1 ∧ Agrees entry (spec t a).2) :
    Records spec Related Asks Agrees start after (log ++ [entry]) := by
  intro inputs asked
  have early := List.forall₂_take log.length asked
  have late := List.forall₂_drop log.length asked
  rw [List.take_left] at early
  rw [List.drop_left] at late
  obtain ⟨a, rest, asks, nothing, last⟩ := List.forall₂_cons_left_iff.mp late
  cases nothing
  obtain ⟨agree, related⟩ := h _ early
  obtain ⟨relates, agrees⟩ := next _ a related asks
  rw [← List.take_append_drop log.length inputs, last, outputsLast, finalLast]
  exact ⟨List.rel_append agree (.cons agrees .nil), relates⟩

end RtspRelay.Simulation
