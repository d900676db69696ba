import Mathlib.Data.List.Basic
import Mathlib.Data.List.Induction

/-! A register that some of a run's inputs write. It holds what the last of these wrote. -/
namespace RtspRelay.LastWrite

variable {α β : Type}

def held (writes : α → Option β) (start : β) (inputs : List α) : β :=
  inputs.foldl (fun old a => (writes a).getD old) start

theorem heldLast (writes : α → Option β) (start : β) (inputs : List α) (a : α) :
    held writes start (inputs ++ [a]) = (writes a).getD (held writes start inputs) := List.foldl_concat ..

theorem heldSince {writes : α → Option β} {start value : β} {inputs : List α}
    (holds : held writes start inputs = value) (new : value ≠ start) :
    ∃ early a late, inputs = early ++ a :: late ∧ writes a = some value ∧ ∀ b ∈ late, writes b = none := by
  induction inputs using List.reverseRecOn with
  | nil => exact absurd holds.symm new
  | append_singleton inputs a ih =>
    rw [heldLast] at holds
    cases write : writes a with
    | some written =>
      rw [write] at holds
      exact ⟨inputs, a, [], rfl, holds ▸ write, List.forall_mem_nil _⟩
    | none =>
      rw [write] at holds
      obtain ⟨early, first, late, rfl, wrote, kept⟩ := ih holds
      refine ⟨early, first, late ++ [a], by simp, wrote, fun b inside => ?_⟩
      rcases List.mem_append.mp inside with before | last
      · exact kept b before
      · rw [List.mem_singleton.mp last]
        exact write

end RtspRelay.LastWrite
