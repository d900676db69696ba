import Mathlib.Data.List.Infix
import Mathlib.Data.List.TakeDrop

/-! First occurrence of a pattern in a list, and the splitting of a list at a
two-element separator. An occurrence is determined by the elements up to its
end: nothing appended later moves it. -/
namespace RtspRelay.ByteSearch

variable {α : Type} [DecidableEq α]

def find (pat : List α) : List α → Option Nat
  | [] => if pat = [] then some 0 else none
  | a :: rest => if pat.isPrefixOf (a :: rest) then some 0 else (find pat rest).map (· + 1)

-- The search from position `pos` on, with absolute positions in the answer.
def findFrom (pat s : List α) (pos : Nat) : Option Nat := (find pat (s.drop pos)).map (· + pos)

theorem findOccurs {pat s : List α} {i : Nat} (h : find pat s = some i) :
    pat <+: s.drop i ∧ i + pat.length ≤ s.length := by
  induction s generalizing i with
  | nil =>
    simp only [find] at h
    split at h <;> try contradiction
    rename_i empty
    cases Option.some.inj h
    simp [empty]
  | cons a rest ih =>
    simp only [find] at h
    split at h
    · rename_i here
      cases Option.some.inj h
      have occurs := List.isPrefixOf_iff_prefix.mp here
      exact ⟨by simpa using occurs, by simpa using occurs.length_le⟩
    · obtain ⟨k, hk, rfl⟩ := Option.map_eq_some_iff.mp h
      obtain ⟨occurs, bound⟩ := ih hk
      exact ⟨by simpa using occurs, by simp only [List.length_cons]; omega⟩

theorem findFirst {pat s : List α} {i : Nat} (h : find pat s = some i) :
    ∀ j < i, ¬ pat <+: s.drop j := by
  induction s generalizing i with
  | nil =>
    simp only [find] at h
    split at h <;> try contradiction
    cases Option.some.inj h
    simp
  | cons a rest ih =>
    simp only [find] at h
    split at h
    · cases Option.some.inj h
      simp
    · rename_i absent
      obtain ⟨k, hk, rfl⟩ := Option.map_eq_some_iff.mp h
      intro j before
      cases j with
      | zero => simpa [List.isPrefixOf_iff_prefix] using absent
      | succ j => simpa using ih hk j (by omega)

theorem findNone {pat s : List α} (h : find pat s = none) : ∀ j, ¬ pat <+: s.drop j := by
  induction s with
  | nil =>
    simp only [find] at h
    split at h <;> try contradiction
    rename_i nonempty
    intro j
    simpa using nonempty
  | cons a rest ih =>
    simp only [find] at h
    split at h <;> try contradiction
    rename_i absent
    intro j
    cases j with
    | zero => simpa [List.isPrefixOf_iff_prefix] using absent
    | succ j => simpa using ih (by simpa using h) j

theorem findExact {pat s : List α} {i : Nat} :
    find pat s = some i ↔ pat <+: s.drop i ∧ i ≤ s.length ∧ ∀ j < i, ¬ pat <+: s.drop j := by
  constructor
  · intro h
    obtain ⟨occurs, bound⟩ := findOccurs h
    exact ⟨occurs, by omega, findFirst h⟩
  · rintro ⟨occurs, bound, first⟩
    cases h : find pat s with
    | none => exact absurd occurs (findNone h i)
    | some k =>
      rcases Nat.lt_trichotomy k i with lt | eq | gt
      · exact absurd (findOccurs h).1 (first k lt)
      · rw [eq]
      · exact absurd occurs (findFirst h i gt)

theorem findAppend {pat s : List α} {i : Nat} (h : find pat s = some i) (t : List α) :
    find pat (s ++ t) = some i := by
  obtain ⟨occurs, bound⟩ := findOccurs h
  refine findExact.mpr ⟨?_, by simp only [List.length_append]; omega, ?_⟩
  · rw [List.drop_append_of_le_length (by omega)]
    exact occurs.trans (List.prefix_append _ _)
  · intro j before there
    rw [List.drop_append_of_le_length (by omega)] at there
    have room : pat.length ≤ (s.drop j).length := by simp only [List.length_drop]; omega
    exact findFirst h j before (List.prefix_of_prefix_length_le there (List.prefix_append _ _) room)

theorem findTake {pat s : List α} {i n : Nat} (h : find pat s = some i)
    (room : i + pat.length ≤ n) : find pat (s.take n) = some i := by
  cases found : find pat (s.take n) with
  | some k =>
    have same := findAppend found (s.drop n)
    rw [List.take_append_drop, h] at same
    exact same.symm
  | none =>
    obtain ⟨occurs, bound⟩ := findOccurs h
    have inside : pat <+: (s.take n).drop i := by
      rw [List.drop_take]
      exact List.prefix_take_iff.mpr ⟨occurs, by omega⟩
    exact absurd inside (findNone found i)

theorem findSplit {pat s : List α} {i : Nat} (h : find pat s = some i) :
    s = s.take i ++ pat ++ s.drop (i + pat.length) := by
  obtain ⟨⟨tail, same⟩, bound⟩ := findOccurs h
  have rest : tail = s.drop (i + pat.length) := by
    rw [← List.drop_drop, ← same, List.drop_left]
  rw [List.append_assoc, ← rest, same, List.take_append_drop]

theorem findAbsent {pat s : List α} (absent : ∀ j, ¬ pat <+: s.drop j) : find pat s = none := by
  cases found : find pat s with
  | none => rfl
  | some i => exact absurd (findOccurs found).1 (absent i)

/-! An element outside the pattern ends every occurrence in front of it. -/

omit [DecidableEq α] in
theorem prefixBarrier {pat a b : List α} {x : α} (outside : x ∉ pat) (occurs : pat <+: a ++ x :: b) :
    pat <+: a := by
  induction a generalizing pat with
  | nil =>
    cases pat with
    | nil => exact List.nil_prefix
    | cons y rest =>
      have same := (List.cons_prefix_cons.mp occurs).1
      exact absurd (List.mem_cons.mpr (.inl same.symm)) outside
  | cons y a ih =>
    cases pat with
    | nil => exact List.nil_prefix
    | cons z rest =>
      obtain ⟨rfl, later⟩ := List.cons_prefix_cons.mp occurs
      have rest : x ∉ rest := fun inside => outside (List.mem_cons_of_mem z inside)
      exact List.cons_prefix_cons.mpr ⟨rfl, ih rest later⟩

theorem findBarrier {pat a b : List α} {x : α} (outside : x ∉ pat) (nonempty : pat ≠ [])
    (before : find pat a = none) :
    find pat (a ++ x :: b) = (find pat b).map (· + (a.length + 1)) := by
  induction a with
  | nil =>
    have here : ¬ pat <+: x :: b := fun occurs =>
      nonempty (List.prefix_nil.mp (prefixBarrier (a := []) outside occurs))
    simp only [List.nil_append, find, List.isPrefixOf_iff_prefix, if_neg here]
    rfl
  | cons y a ih =>
    have here : ¬ pat <+: y :: a ++ x :: b := fun occurs =>
      findNone before 0 (prefixBarrier outside occurs)
    have later : find pat a = none := findAbsent fun j => findNone before (j + 1)
    rw [List.cons_append] at here ⊢
    simp only [find, List.isPrefixOf_iff_prefix, if_neg here, ih later, Option.map_map]
    rfl

/-! Text without the pattern's first element puts the first occurrence off. -/
theorem findAfter {pat a : List α} {x : α} (fresh : x ∉ a) (b : List α) :
    find (x :: pat) (a ++ b) = (find (x :: pat) b).map (· + a.length) := by
  induction a with
  | nil => simp
  | cons y a ih =>
    have differ : x ≠ y := fun same => fresh (List.mem_cons.mpr (.inl same))
    have later : x ∉ a := fun inside => fresh (List.mem_cons_of_mem y inside)
    have here : ¬ x :: pat <+: y :: (a ++ b) := fun occurs =>
      differ (List.cons_prefix_cons.mp occurs).1
    simp only [List.cons_append, find, List.isPrefixOf_iff_prefix, if_neg here, ih later,
      Option.map_map]
    rfl

theorem findPast {pat pre : List α} (s : List α)
    (absent : ∀ j < pre.length, ¬ pat <+: (pre ++ s).drop j) :
    find pat (pre ++ s) = (find pat s).map (· + pre.length) := by
  induction pre with
  | nil => simp
  | cons x pre ih =>
    have here : ¬ pat <+: x :: (pre ++ s) := absent 0 (Nat.zero_lt_succ _)
    have later := ih fun j inside => absent (j + 1) (Nat.succ_lt_succ inside)
    simp only [List.cons_append, find, List.isPrefixOf_iff_prefix, if_neg here, later, Option.map_map]
    rfl

theorem findSingleton {a : α} {s : List α} : (find [a] s).isSome = true ↔ a ∈ s := by
  constructor
  · intro h
    obtain ⟨i, hi⟩ := Option.isSome_iff_exists.mp h
    rw [findSplit hi]
    simp
  · intro member
    obtain ⟨pre, post, rfl⟩ := List.append_of_mem member
    cases h : find [a] (pre ++ a :: post) with
    | some _ => rfl
    | none => exact absurd (by simp) (findNone h pre.length)

theorem findSingletonNone {a : α} {s : List α} (absent : a ∉ s) : find [a] s = none := by
  cases found : find [a] s with
  | none => rfl
  | some i =>
    have present : (find [a] s).isSome = true := by rw [found]; rfl
    exact absurd (findSingleton.mp present) absent

theorem findSingletonFresh {a : α} {s : List α} {i : Nat} (h : find [a] s = some i) :
    a ∉ s.take i := by
  intro member
  obtain ⟨j, inside, same⟩ := List.mem_iff_getElem.mp member
  simp only [List.length_take] at inside
  have here : [a] <+: s.drop j := by
    rw [List.drop_eq_getElem_cons (by omega)]
    simp only [List.getElem_take] at same
    simp [same]
  exact findFirst h j (by omega) here

/-! A pair of different elements is not cut by the end of a text without it. -/
theorem findPairAfter {a b : α} (differ : a ≠ b) {s : List α} (absent : find [a, b] s = none)
    (t : List α) : find [a, b] (s ++ a :: b :: t) = some s.length := by
  refine findExact.mpr ⟨?_, by simp, fun j before there => ?_⟩
  · rw [List.drop_left]
    exact ⟨t, rfl⟩
  · rw [List.drop_append_of_le_length (Nat.le_of_lt before)] at there
    rcases shape : s.drop j with _ | ⟨x, _ | ⟨y, rest⟩⟩
    · have none := List.drop_eq_nil_iff.mp shape
      omega
    · rw [shape] at there
      have second := (List.cons_prefix_cons.mp (List.cons_prefix_cons.mp there).2).1
      exact differ second.symm
    · rw [shape] at there
      obtain ⟨rfl, later⟩ := List.cons_prefix_cons.mp there
      obtain ⟨rfl, _⟩ := List.cons_prefix_cons.mp later
      exact findNone absent j (by rw [shape]; exact ⟨rest, rfl⟩)

/-! What stands in front of the first occurrence. -/

theorem findCut {pat s : List α} {i n : Nat} (found : find pat s = some i) (short : n < i + pat.length) :
    find pat (s.take n) = none := by
  cases again : find pat (s.take n) with
  | none => rfl
  | some j =>
    have whole := findAppend again (s.drop n)
    rw [List.take_append_drop, found] at whole
    cases Option.some.inj whole
    have bound := (findOccurs again).2
    simp only [List.length_take] at bound
    omega

theorem firstPiece {pat s : List α} (nonempty : pat ≠ []) {i : Nat} (found : find pat s = some i) :
    find pat (s.take i) = none :=
  findCut found (Nat.lt_add_of_pos_right (List.length_pos_of_ne_nil nonempty))

theorem firstSplit {a : α} {s : List α} (fresh : a ∉ s) (t : List α) :
    find [a] (s ++ a :: t) = some s.length := by
  rw [findAfter fresh]
  simp [find]

theorem splitUnique {a : α} {s s' t t' : List α} (fresh : a ∉ s) (fresh' : a ∉ s')
    (same : s ++ a :: t = s' ++ a :: t') : s = s' := by
  have first := firstSplit fresh t
  rw [same, firstSplit fresh' t'] at first
  exact (List.append_inj same (Option.some.inj first).symm).1

theorem findWithin {pat a b : List α} (absent : find pat (a ++ b) = none) : find pat a = none := by
  cases found : find pat a with
  | none => rfl
  | some i =>
    rw [findAppend found b] at absent
    contradiction

theorem findTakeNone {pat s : List α} (absent : find pat s = none) (n : Nat) : find pat (s.take n) = none := by
  rw [← List.take_append_drop n s] at absent
  exact findWithin absent

/-! A renaming that reflects the pattern's elements keeps every occurrence in place. -/

omit [DecidableEq α] in
theorem prefixRenamed {β : Type} {f : α → β} {pat : List α} (reflects : ∀ x ∈ pat, ∀ y, f y = f x → y = x)
    (s : List α) : pat.map f <+: s.map f ↔ pat <+: s := by
  refine ⟨fun occurs => ?_, fun ⟨t, same⟩ => ⟨t.map f, by rw [← List.map_append, same]⟩⟩
  induction pat generalizing s with
  | nil => exact List.nil_prefix
  | cons x rest ih =>
    cases s with
    | nil => exact absurd (List.prefix_nil.mp occurs) (List.cons_ne_nil _ _)
    | cons y s =>
      obtain ⟨same, later⟩ := List.cons_prefix_cons.mp occurs
      obtain rfl := reflects x List.mem_cons_self y same.symm
      exact List.cons_prefix_cons.mpr
        ⟨rfl, ih (fun z inside => reflects z (List.mem_cons_of_mem y inside)) s later⟩

theorem findRenamed {β : Type} [DecidableEq β] {f : α → β} {pat : List α}
    (reflects : ∀ x ∈ pat, ∀ y, f y = f x → y = x) (s : List α) : find (pat.map f) (s.map f) = find pat s := by
  induction s with
  | nil => cases pat <;> rfl
  | cons a rest ih =>
    have here := prefixRenamed reflects (a :: rest)
    rw [List.map_cons] at here ⊢
    simp only [find, List.isPrefixOf_iff_prefix, here, ih]

section Lines
variable (a b : α)

-- The pieces between occurrences of the separator `a b`; the last piece is
-- what follows the last separator.
def splitPair : List α → List (List α)
  | [] => [[]]
  | x :: y :: rest =>
    if x = a ∧ y = b then [] :: splitPair rest
    else match splitPair (y :: rest) with
      | [] => [[x]]
      | piece :: pieces => (x :: piece) :: pieces
  | [x] => [[x]]

theorem splitPairNonempty (s : List α) : splitPair a b s ≠ [] := by
  fun_induction splitPair a b s <;> simp_all

theorem splitPairNone {s : List α} (h : find [a, b] s = none) : splitPair a b s = [s] := by
  fun_induction splitPair a b s with
  | case1 => rfl
  | case2 x y rest same ih => exact absurd (by simp [same]) (findNone h 0)
  | case3 x y rest differ none ih => exact absurd none (splitPairNonempty a b _)
  | case4 x y rest differ piece pieces eq ih =>
    have tail : find [a, b] (y :: rest) = none := by
      unfold find at h
      split at h <;> try contradiction
      simpa using h
    have whole := ih tail
    rw [eq] at whole
    simp_all
  | case5 x => rfl

theorem splitPairSome {s : List α} {i : Nat} (h : find [a, b] s = some i) :
    splitPair a b s = s.take i :: splitPair a b (s.drop (i + 2)) := by
  fun_induction splitPair a b s generalizing i with
  | case1 => simp [find] at h
  | case2 x y rest same ih =>
    obtain ⟨rfl, rfl⟩ := same
    simp only [find, List.isPrefixOf, BEq.rfl, Bool.and_self, if_true, Option.some.injEq] at h
    subst h
    simp
  | case3 x y rest differ none ih => exact absurd none (splitPairNonempty a b _)
  | case4 x y rest differ piece pieces eq ih =>
    unfold find at h
    have absent : ([a, b].isPrefixOf (x :: y :: rest)) = false := by
      simp only [List.isPrefixOf, Bool.and_true, Bool.and_eq_false_iff, beq_eq_false_iff_ne]
      by_contra both
      push Not at both
      exact differ ⟨both.1.symm, both.2.symm⟩
    simp only [absent, Bool.false_eq_true, if_false] at h
    obtain ⟨k, hk, rfl⟩ := Option.map_eq_some_iff.mp h
    have whole := ih hk
    rw [eq] at whole
    obtain ⟨rfl, rfl⟩ := List.cons.inj whole
    rw [show k + 1 + 2 = (k + 2) + 1 by omega]
    simp
  | case5 x => simp [find] at h

-- The pieces that a separator ends.
theorem splitPairEnded {s : List α} {i : Nat} (h : find [a, b] s = some i) :
    (splitPair a b s).dropLast = s.take i :: (splitPair a b (s.drop (i + 2))).dropLast := by
  rw [splitPairSome a b h, List.dropLast_cons_of_ne_nil (splitPairNonempty a b _)]

/-! A fact about a text and its pieces goes through piece by piece. -/
@[elab_as_elim]
theorem piecewise {motive : List α → Prop} (last : ∀ s, find [a, b] s = none → motive s)
    (piece : ∀ s i, find [a, b] s = some i → i + 2 ≤ s.length → motive (s.drop (i + 2)) → motive s)
    (s : List α) : motive s := by
  induction size : s.length using Nat.strong_induction_on generalizing s with
  | _ n ih =>
    cases found : find [a, b] s with
    | none => exact last s found
    | some i =>
      have bound := (findOccurs found).2
      simp only [List.length_cons, List.length_nil] at bound
      exact piece s i found bound (ih _ (by simp only [List.length_drop]; omega) _ rfl)

theorem splitPairAppend (differ : a ≠ b) (s t : List α) :
    splitPair a b (s ++ a :: b :: t) = splitPair a b s ++ splitPair a b t := by
  fun_induction splitPair a b s with
  | case1 => simp [splitPair]
  | case2 x y rest same ih => simp [splitPair, same, ih]
  | case3 x y rest differ none ih => exact absurd none (splitPairNonempty a b _)
  | case4 x y rest apart piece pieces eq ih =>
    rw [eq] at ih
    simp only [List.cons_append] at ih ⊢
    rw [splitPair, if_neg apart, ih]
  | case5 x =>
    have apart : ¬ (x = a ∧ a = b) := fun both => differ both.2
    simp [splitPair, apart]

-- What is appended can only change the last piece.
theorem splitPairPrefix (s t : List α) : (splitPair a b s).dropLast <+: splitPair a b (s ++ t) := by
  induction s using piecewise a b with
  | last s absent =>
    rw [splitPairNone a b absent]
    exact List.nil_prefix
  | piece s i found bound ih =>
    rw [splitPairEnded a b found, splitPairSome a b (findAppend found t),
      List.take_append_of_le_length (by omega), List.drop_append_of_le_length bound]
    exact List.cons_prefix_cons.mpr ⟨rfl, ih⟩

theorem firstPieceEmpty {s : List α} {pieces : List (List α)} (empty : splitPair a b s = [] :: pieces) :
    [a, b] <+: s ++ [a, b] := by
  cases found : find [a, b] s with
  | none =>
    rw [splitPairNone a b found] at empty
    rw [(List.cons.inj empty).1]
    exact List.prefix_rfl
  | some i =>
    rw [splitPairSome a b found] at empty
    obtain ⟨occurs, bound⟩ := findOccurs found
    have start : i = 0 := by
      have size := congrArg List.length (List.cons.inj empty).1
      simp only [List.length_take, List.length_cons, List.length_nil] at size bound
      omega
    rw [start, List.drop_zero] at occurs
    exact occurs.trans (List.prefix_append _ _)

/-! An empty piece behind the first one stands for two separators in a row. -/
theorem piecesFilled {s : List α} (single : find [a, b, a, b] (s ++ [a, b]) = none) :
    [] ∉ (splitPair a b s).tail := by
  induction s using piecewise a b with
  | last s absent =>
    rw [splitPairNone a b absent]
    exact List.not_mem_nil
  | piece s i found bound ih =>
    have rest : find [a, b, a, b] (s.drop (i + 2) ++ [a, b]) = none := findAbsent fun j occurs => by
      rw [← List.drop_append_of_le_length bound, List.drop_drop] at occurs
      exact findNone single _ occurs
    have later := ih rest
    rw [splitPairSome a b found, List.tail_cons]
    cases shape : splitPair a b (s.drop (i + 2)) with
    | nil => exact List.not_mem_nil
    | cons piece pieces =>
      rw [shape] at later
      intro inside
      rcases List.mem_cons.mp inside with empty | deep
      · obtain ⟨tail, same⟩ := firstPieceEmpty a b (empty ▸ shape)
        have here : s.drop i = a :: b :: s.drop (i + 2) := by
          obtain ⟨⟨front, whole⟩, _⟩ := findOccurs found
          rw [← List.drop_drop, ← whole]
          rfl
        refine findNone single i ⟨tail, ?_⟩
        rw [List.drop_append_of_le_length (by omega), here]
        exact congrArg (fun rest => a :: b :: rest) same
      · exact later deep

end Lines
end RtspRelay.ByteSearch
