import Mathlib.Data.List.Perm.Subperm

/-! Resources that are handed out and given back, as a history of events, oldest
first. A resource may be handed out again once it has been given back; whether each
one is given back once is a statement about every place of the history. -/
namespace RtspRelay.Ledger

inductive Event (α : Type) where
  | obtained (a : α)
  | refused
  | released (a : α)
  deriving DecidableEq, Repr

def asked {α : Type} : Option α → Event α
  | none => .refused
  | some a => .obtained a

section
variable {α : Type} [DecidableEq α]

def after (held : List α) : Event α → List α
  | .obtained a => a :: held
  | .refused => held
  | .released a => held.filter (· ≠ a)

def heldAfter (events : List (Event α)) : List α := events.foldl after []

def obtainedIn : List (Event α) → List α
  | [] => []
  | .obtained a :: rest => a :: obtainedIn rest
  | _ :: rest => obtainedIn rest

-- How often `a` is given back until it is handed out again.
def releases (a : α) : List (Event α) → Nat
  | [] => 0
  | .obtained b :: rest => if b = a then 0 else releases a rest
  | .refused :: rest => releases a rest
  | .released b :: rest => (if b = a then 1 else 0) + releases a rest

def ReleasedOnce (events : List (Event α)) : Prop :=
  ∀ before a later, events = before ++ .obtained a :: later → releases a later = 1

/-! What is handed out is fresh and what is given back is held. -/
def Fits (events : List (Event α)) : Event α → Prop
  | .obtained a => a ∉ heldAfter events
  | .refused => True
  | .released a => a ∈ heldAfter events

-- Nothing has been given back twice, and what is still out not at all.
def Tracked (events : List (Event α)) : Prop :=
  ∀ before a later, events = before ++ .obtained a :: later →
    releases a later = if a ∈ obtainedIn later ∨ a ∉ heldAfter events then 1 else 0

theorem heldSnoc (events : List (Event α)) (e : Event α) :
    heldAfter (events ++ [e]) = after (heldAfter events) e := by
  rw [heldAfter, List.foldl_append]
  rfl

omit [DecidableEq α] in
theorem obtainedSnoc (events : List (Event α)) (e : Event α) :
    obtainedIn (events ++ [e]) = obtainedIn events ++ obtainedIn [e] := by
  induction events with
  | nil => rfl
  | cons first rest ih =>
    cases first with
    | obtained a =>
      simp only [List.cons_append, obtainedIn]
      rw [ih]
    | refused => exact ih
    | released a => exact ih

theorem releasesSnoc (a : α) (events : List (Event α)) (e : Event α) :
    releases a (events ++ [e]) =
      releases a events + if e = .released a ∧ a ∉ obtainedIn events then 1 else 0 := by
  induction events with
  | nil =>
    cases e with
    | released b => simp [releases, obtainedIn]
    | obtained b => simp [releases]
    | refused => rfl
  | cons first rest ih =>
    cases first with
    | obtained b =>
      simp only [List.cons_append, releases, obtainedIn, List.mem_cons, not_or]
      by_cases same : b = a
      · simp [same]
      · simp [same, ih, Ne.symm same]
    | refused => exact ih
    | released b =>
      rw [List.cons_append, releases, ih, releases, Nat.add_assoc]
      rfl

theorem trackedStart : Tracked ([] : List (Event α)) := by
  intro before a later same
  exact absurd same.symm (by simp)

theorem trackedSnoc {events : List (Event α)} {e : Event α} (tracked : Tracked events)
    (fits : Fits events e) : Tracked (events ++ [e]) := by
  intro before a later same
  rcases List.eq_nil_or_concat later with rfl | ⟨front, last, rfl⟩
  · obtain ⟨-, one⟩ := List.append_inj' same rfl
    obtain rfl : e = .obtained a := (List.cons.inj one).1
    simp [releases, obtainedIn, heldSnoc, after]
  · rw [List.concat_eq_append] at same ⊢
    rw [← List.cons_append, ← List.append_assoc] at same
    obtain ⟨whole, one⟩ := List.append_inj' same rfl
    obtain rfl : e = last := (List.cons.inj one).1
    have earlier := tracked before a front whole
    rw [releasesSnoc, obtainedSnoc, heldSnoc, earlier]
    cases e with
    | obtained b =>
      have fresh : b ∉ heldAfter events := fits
      by_cases same : a = b
      · subst same
        simp [obtainedIn, fresh]
      · simp [obtainedIn, after, same]
    | refused => simp [obtainedIn, after]
    | released b =>
      have held : b ∈ heldAfter events := fits
      by_cases same : a = b
      · subst same
        by_cases again : a ∈ obtainedIn front <;> simp [obtainedIn, after, held, again]
      · simp [obtainedIn, after, same, Ne.symm same]

theorem releasedOnce {events : List (Event α)} (tracked : Tracked events)
    (returned : heldAfter events = []) : ReleasedOnce events := by
  intro before a later same
  rw [tracked before a later same, returned]
  simp

theorem heldNodup {events : List (Event α)} {e : Event α} (nodup : (heldAfter events).Nodup)
    (fits : Fits events e) : (heldAfter (events ++ [e])).Nodup := by
  rw [heldSnoc]
  cases e with
  | obtained a => exact List.nodup_cons.mpr ⟨fits, nodup⟩
  | refused => exact nodup
  | released a => exact nodup.filter _

-- What is handed out and given back at once leaves no trace in what is held.
theorem heldBriefly {events : List (Event α)} {a : α} (fresh : a ∉ heldAfter events) :
    heldAfter (events ++ [.obtained a] ++ [.released a]) = heldAfter events := by
  rw [heldSnoc, heldSnoc, after, after, List.filter_cons_of_neg (by simp), List.filter_eq_self]
  intro b inside
  simp only [decide_eq_true_eq]
  rintro rfl
  exact fresh inside
end

end RtspRelay.Ledger
