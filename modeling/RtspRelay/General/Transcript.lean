import RtspRelay.General.Transition

/-! What the steps of a run show, in order. -/
namespace RtspRelay.Transition

variable {σ α ω : Type} (step : σ → α → σ) (shown : σ → α → List ω)

def transcript : σ → List α → List ω
  | _, [] => []
  | s, a :: rest => shown s a ++ transcript (step s a) rest

variable {step shown}

/-! Nothing is shown from states that no step leaves and whose steps show nothing. -/
theorem transcriptSilent {I : σ → Prop} (keeps : ∀ s a, I s → I (step s a)) (silent : ∀ s a, I s → shown s a = [])
    {s : σ} (start : I s) (inputs : List α) : transcript step shown s inputs = [] := by
  induction inputs generalizing s with
  | nil => rfl
  | cons a rest ih => rw [transcript, silent s a start, ih (keeps s a start)]; rfl

/-! What relates a state to all that has been shown so far. -/
theorem transcriptAlong {I : σ → List ω → Prop} {C : σ → α → Prop}
    (keeps : ∀ s sofar a, I s sofar → C s a → I (step s a) (sofar ++ shown s a)) {s : σ} {sofar : List ω}
    (start : I s sofar) {inputs : List α} (meets : Throughout step C s inputs) :
    I (run step s inputs) (sofar ++ transcript step shown s inputs) := by
  induction inputs generalizing s sofar with
  | nil =>
    rw [transcript, List.append_nil]
    exact start
  | cons a rest ih =>
    rw [transcript, ← List.append_assoc]
    exact ih (keeps s sofar a start meets.1) meets.2

end RtspRelay.Transition
