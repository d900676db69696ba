import Mathlib.Logic.Basic

/-! Loops whose body throws, breaks off or goes on. That a loop ends is a relation,
which no bound on the number of its turns enters; the run with such a bound is where a
loop ends as soon as the bound covers a measure that every turn lowers. -/
namespace RtspRelay.WhileLoop

variable {ε σ : Type} (turn : σ → Except ε (Option σ))

inductive Ends : σ → Except ε σ → Prop where
  | done {s : σ} (last : turn s = .ok none) : Ends s (.ok s)
  | threw {s : σ} {fault : ε} (last : turn s = .error fault) : Ends s (.error fault)
  | next {s s' : σ} {out : Except ε σ} (goes : turn s = .ok (some s')) (later : Ends s' out) : Ends s out

def runFor : Nat → σ → Except ε σ
  | 0, s => .ok s
  | n + 1, s => do
    match ← turn s with
    | none => .ok s
    | some s' => runFor n s'

variable {turn}

theorem endsUnique {s : σ} {out out' : Except ε σ} (first : Ends turn s out) (second : Ends turn s out') :
    out = out' := by
  induction first with
  | done last =>
    cases second with
    | done => rfl
    | threw last' => simp [last] at last'
    | next goes => simp [last] at goes
  | threw last =>
    cases second with
    | done last' => simp [last] at last'
    | threw last' => simpa [last] using last'
    | next goes => simp [last] at goes
  | next goes later ih =>
    cases second with
    | done last => simp [goes] at last
    | threw last => simp [goes] at last
    | next goes' later' =>
      rw [goes] at goes'
      cases goes'
      exact ih later'

/-! A loop that never throws while `I` holds ends once a measure bounds its turns. -/
theorem endsMeasure {I : σ → Prop} {size : σ → Nat}
    (lowers : ∀ s, I s → turn s = .ok none ∨ ∃ s', turn s = .ok (some s') ∧ I s' ∧ size s' < size s)
    {n : Nat} {s : σ} (start : I s) (bounded : size s ≤ n) :
    ∃ s', runFor turn n s = .ok s' ∧ Ends turn s (.ok s') := by
  induction n generalizing s with
  | zero =>
    rcases lowers s start with last | ⟨s', -, -, less⟩
    · exact ⟨s, rfl, .done last⟩
    · omega
  | succ n ih =>
    rcases lowers s start with last | ⟨s', goes, kept, less⟩
    · exact ⟨s, by simp [runFor, last, bind, Except.bind], .done last⟩
    · obtain ⟨out, ran, ends⟩ := ih kept (by omega)
      exact ⟨out, by simpa [runFor, goes, bind, Except.bind] using ran, .next goes ends⟩

end RtspRelay.WhileLoop
