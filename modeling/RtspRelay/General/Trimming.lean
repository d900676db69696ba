import Mathlib.Data.List.DropRight

/-! A list without the elements of one kind at its two ends. -/
namespace RtspRelay.Trimming

variable {α : Type} (p : α → Bool)

def trim (s : List α) : List α := (s.dropWhile p).rdropWhile p

variable {p}

theorem dropLeft {w : List α} (blank : ∀ a ∈ w, p a = true) (s : List α) : (w ++ s).dropWhile p = s.dropWhile p :=
  List.dropWhile_append_of_pos blank

theorem dropBefore {x : α} (solid : p x = false) (k v : List α) :
    (k ++ x :: v).dropWhile p = k.dropWhile p ++ x :: v := by
  induction k with
  | nil => exact List.dropWhile_cons_of_neg (by rw [solid]; exact Bool.noConfusion)
  | cons a k ih =>
    rw [List.cons_append, List.dropWhile_cons, List.dropWhile_cons, ih]
    split <;> rfl

theorem dropRight (s : List α) {w : List α} (blank : ∀ a ∈ w, p a = true) : (s ++ w).rdropWhile p = s.rdropWhile p := by
  have reversed : ∀ a ∈ w.reverse, p a = true := fun a inside => blank a (List.mem_reverse.mp inside)
  rw [List.rdropWhile, List.reverse_append, dropLeft reversed]
  rfl

theorem dropBehind {x : α} (solid : p x = false) (k v : List α) :
    (k ++ x :: v).rdropWhile p = k ++ x :: v.rdropWhile p := by
  have reversed : (k ++ x :: v).reverse = v.reverse ++ x :: k.reverse := by
    rw [List.reverse_append, List.reverse_cons, List.append_assoc]
    rfl
  rw [List.rdropWhile, reversed, dropBefore solid, List.reverse_append, List.reverse_cons, List.reverse_reverse,
    List.append_assoc]
  rfl

theorem trimLeft {w : List α} (blank : ∀ a ∈ w, p a = true) (s : List α) : trim p (w ++ s) = trim p s := by
  rw [trim, dropLeft blank]
  rfl

theorem trimAround {x : α} (solid : p x = false) (k v : List α) :
    trim p (k ++ x :: v) = k.dropWhile p ++ x :: v.rdropWhile p := by
  rw [trim, dropBefore solid, dropBehind solid]

-- Either all of it is of that kind, or there is a first and a last element that is not.
theorem blankOrSolid (s : List α) :
    (∀ a ∈ s, p a = true) ∨ ∃ w x t, s = w ++ x :: t ∧ (∀ a ∈ w, p a = true) ∧ p x = false := by
  induction s with
  | nil => exact .inl nofun
  | cons a s ih =>
    cases kind : p a with
    | false => exact .inr ⟨[], a, s, rfl, nofun, kind⟩
    | true =>
      rcases ih with all | ⟨w, x, t, rfl, blank, solid⟩
      · exact .inl (List.forall_mem_cons.mpr ⟨kind, all⟩)
      · exact .inr ⟨a :: w, x, t, rfl, List.forall_mem_cons.mpr ⟨kind, blank⟩, solid⟩

theorem trimBlank {s : List α} (blank : ∀ a ∈ s, p a = true) : trim p s = [] := by
  rw [← List.append_nil s, trimLeft blank]
  rfl

theorem trimRight (s : List α) {w : List α} (blank : ∀ a ∈ w, p a = true) : trim p (s ++ w) = trim p s := by
  rcases blankOrSolid s with all | ⟨k, x, t, rfl, front, solid⟩
  · rw [trimLeft all, trimBlank all, trimBlank blank]
  · rw [List.append_assoc, trimLeft front, trimLeft front, trim, trim, List.cons_append]
    have first : ¬p x = true := by rw [solid]; exact Bool.noConfusion
    rw [List.dropWhile_cons_of_neg first, List.dropWhile_cons_of_neg first, ← List.cons_append, dropRight _ blank]

theorem trimHead (s : List α) : (trim p s).head? = (s.dropWhile p).head? := by
  rcases blankOrSolid s with all | ⟨w, x, t, rfl, front, solid⟩
  · have none := dropLeft all []
    rw [List.append_nil] at none
    rw [trimBlank all, none]
    rfl
  · rw [trimLeft front, dropLeft front, ← List.nil_append (x :: t), trimAround solid, dropBefore solid]
    rfl

theorem trimOfLeft (s : List α) : trim p (s.dropWhile p) = trim p s := by
  rw [trim, List.dropWhile_idempotent]
  rfl

theorem trimOfRight (s : List α) : trim p (s.rdropWhile p) = trim p s := by
  have split : s.rdropWhile p ++ s.rtakeWhile p = s := List.rdropWhile_append_rtakeWhile
  have cut := trimRight (s.rdropWhile p) (w := s.rtakeWhile p) fun a inside => List.mem_rtakeWhile_imp inside
  rw [split] at cut
  exact cut.symm

theorem trimSolid {s : List α} (solid : ∀ a ∈ s, p a = false) : trim p s = s := by
  have front : s.dropWhile p = s := by
    cases s with
    | nil => rfl
    | cons a s => exact List.dropWhile_cons_of_neg (by rw [solid a List.mem_cons_self]; exact Bool.noConfusion)
  rw [trim, front, List.rdropWhile_eq_self_iff]
  intro some last
  rw [solid _ (List.getLast_mem some)] at last
  exact Bool.noConfusion last

theorem trimMember {s : List α} {a : α} (inside : a ∈ trim p s) : a ∈ s :=
  (List.dropWhile_sublist p).mem ((List.rdropWhile_prefix p _).mem inside)

end RtspRelay.Trimming
