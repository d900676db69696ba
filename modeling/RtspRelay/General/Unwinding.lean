import RtspRelay.General.Transcript

/-! What an observer cannot notice. Two states are related when they look alike to
it. A hidden input keeps the relation by itself and shows nothing; every other input
keeps it when both states take it, and shows the same in both. Then a run shows what
the run without its hidden inputs shows. -/
namespace RtspRelay.Unwinding
open Transition

variable {σ α ω : Type}

structure Unwinds (step : σ → α → σ) (shown : σ → α → List ω) (hidden : α → Bool)
    (Alike : σ → σ → Prop) : Prop where
  respects : ∀ s t a, Alike s t → hidden a = true → Alike (step s a) t ∧ shown s a = []
  consistent : ∀ s t a, Alike s t → hidden a = false →
    Alike (step s a) (step t a) ∧ shown s a = shown t a

variable {step : σ → α → σ} {shown : σ → α → List ω} {hidden : α → Bool} {Alike : σ → σ → Prop}

theorem purged (h : Unwinds step shown hidden Alike) {s t : σ} (alike : Alike s t) (inputs : List α) :
    Alike (run step s inputs) (run step t (inputs.filter fun a => !hidden a)) ∧
      transcript step shown s inputs = transcript step shown t (inputs.filter fun a => !hidden a) := by
  induction inputs generalizing s t with
  | nil => exact ⟨alike, rfl⟩
  | cons a rest ih =>
    cases unseen : hidden a with
    | true =>
      obtain ⟨still, nothing⟩ := h.respects s t a alike unseen
      obtain ⟨last, same⟩ := ih still
      rw [List.filter_cons_of_neg (by simp [unseen]), transcript, nothing]
      exact ⟨last, same⟩
    | false =>
      obtain ⟨both, equal⟩ := h.consistent s t a alike unseen
      obtain ⟨last, same⟩ := ih both
      rw [List.filter_cons_of_pos (by simp [unseen]), transcript, transcript, equal, same]
      exact ⟨last, rfl⟩

/-! The same where a system can come to a halt, on a hidden input as on any other. The run
without the hidden inputs then shows at least as much, and as much if nothing halts. -/

structure UnwindsRunning (step : σ → α → σ) (shown : σ → α → List ω) (hidden : α → Bool)
    (halted : σ → Prop) (Alike : σ → σ → Prop) : Prop where
  stays : ∀ s a, halted s → halted (step s a)
  silent : ∀ s a, halted s → shown s a = []
  respects : ∀ s t a, Alike s t → hidden a = true →
    shown s a = [] ∧ (halted (step s a) ∨ Alike (step s a) t)
  consistent : ∀ s t a, Alike s t → hidden a = false →
    shown s a = shown t a ∧ (halted (step s a) ∨ Alike (step s a) (step t a))

variable {halted : σ → Prop}

theorem haltedShows (h : UnwindsRunning step shown hidden halted Alike) {s : σ} (stopped : halted s)
    (inputs : List α) : halted (run step s inputs) ∧ transcript step shown s inputs = [] :=
  ⟨runInvariant h.stays stopped inputs, transcriptSilent h.stays h.silent stopped inputs⟩

theorem purgedRunning (h : UnwindsRunning step shown hidden halted Alike) {s t : σ} (alike : Alike s t)
    (inputs : List α) :
    transcript step shown s inputs <+: transcript step shown t (inputs.filter fun a => !hidden a) ∧
      (¬ halted (run step s inputs) →
        Alike (run step s inputs) (run step t (inputs.filter fun a => !hidden a)) ∧
        transcript step shown s inputs = transcript step shown t (inputs.filter fun a => !hidden a)) := by
  induction inputs generalizing s t with
  | nil => exact ⟨List.prefix_refl [], fun _ => ⟨alike, rfl⟩⟩
  | cons a rest ih =>
    cases unseen : hidden a with
    | true =>
      obtain ⟨nothing, after⟩ := h.respects s t a alike unseen
      rw [List.filter_cons_of_neg (by simp [unseen]), transcript, nothing, List.nil_append]
      rcases after with stopped | still
      · obtain ⟨last, quiet⟩ := haltedShows h stopped rest
        rw [quiet]
        exact ⟨List.nil_prefix, fun goes => absurd last goes⟩
      · exact ih still
    | false =>
      obtain ⟨equal, after⟩ := h.consistent s t a alike unseen
      rw [List.filter_cons_of_pos (by simp [unseen]), transcript, transcript, equal]
      rcases after with stopped | both
      · obtain ⟨last, quiet⟩ := haltedShows h stopped rest
        rw [quiet, List.append_nil]
        exact ⟨List.prefix_append _ _, fun goes => absurd last goes⟩
      · obtain ⟨sofar, whole⟩ := ih both
        refine ⟨(List.prefix_append_right_inj _).mpr sofar, fun goes => ?_⟩
        obtain ⟨ends, same⟩ := whole goes
        exact ⟨ends, congrArg _ same⟩

end RtspRelay.Unwinding
