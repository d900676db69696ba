import Mathlib.Data.List.Basic

/-! Arrays that are copied into and out of within their bounds, and an array that keeps
the last elements of a growing stream, each at its position modulo the array's length. -/
namespace RtspRelay.CircularBuffer

variable {α : Type}

inductive Fault where
  | underflow
  | outside
  deriving DecidableEq, Repr

def difference (a b : Nat) : Except Fault Nat := if b ≤ a then .ok (a - b) else .error .underflow

def load (cells : List α) (pos n : Nat) : Except Fault (List α) :=
  if pos + n ≤ cells.length then .ok ((cells.drop pos).take n) else .error .outside

def store (cells : List α) (pos : Nat) (s : List α) : Except Fault (List α) :=
  if pos + s.length ≤ cells.length then .ok (cells.take pos ++ s ++ cells.drop (pos + s.length))
  else .error .outside

theorem loadOk {cells : List α} {pos n : Nat} (fits : pos + n ≤ cells.length) :
    load cells pos n = .ok ((cells.drop pos).take n) := if_pos fits

theorem storeOk {cells : List α} {pos : Nat} {s : List α} (fits : pos + s.length ≤ cells.length) :
    store cells pos s = .ok (cells.take pos ++ s ++ cells.drop (pos + s.length)) := if_pos fits

theorem storedLength {cells : List α} {pos : Nat} {s : List α} (fits : pos + s.length ≤ cells.length) :
    (cells.take pos ++ s ++ cells.drop (pos + s.length)).length = cells.length := by
  rw [List.length_append, List.length_append, List.length_take, List.length_drop]
  omega

theorem storedInside {cells : List α} {pos i : Nat} {s : List α} (fits : pos + s.length ≤ cells.length)
    (inside : i < s.length) : (cells.take pos ++ s ++ cells.drop (pos + s.length))[pos + i]? = s[i]? := by
  have front : (cells.take pos).length = pos := List.length_take_of_le (by omega)
  rw [List.append_assoc, List.getElem?_append_right (by omega), front, Nat.add_sub_cancel_left,
    List.getElem?_append_left inside]

theorem storedOutside {cells : List α} {pos i : Nat} {s : List α} (fits : pos + s.length ≤ cells.length)
    (outside : i < pos ∨ pos + s.length ≤ i) :
    (cells.take pos ++ s ++ cells.drop (pos + s.length))[i]? = cells[i]? := by
  have front : (cells.take pos).length = pos := List.length_take_of_le (by omega)
  rcases outside with before | behind
  · rw [List.append_assoc, List.getElem?_append_left (by omega), List.getElem?_take_of_lt before]
  · rw [List.getElem?_append_right (by rw [List.length_append]; omega), List.getElem?_drop, List.length_append,
      front]
    congr 1
    omega

/-! ### The last elements of a stream -/

-- Every element of the stream less than a whole array's length back is in its place.
structure Window (cells stream : List α) : Prop where
  holds : ∀ k, k < stream.length → stream.length ≤ k + cells.length → cells[k % cells.length]? = stream[k]?

theorem windowStart (cells : List α) : Window cells [] := ⟨fun _ none => absurd none (Nat.not_lt_zero _)⟩

theorem modForward {cap total i : Nat} (fits : total % cap + i < cap) : (total + i) % cap = total % cap + i := by
  rw [Nat.add_mod, Nat.mod_eq_of_lt (show i < cap by omega), Nat.mod_eq_of_lt fits]

theorem modOnce {cap i : Nat} (past : cap ≤ i) (near : i < cap + cap) : i % cap = i - cap := by
  rw [Nat.mod_eq_sub_mod past, Nat.mod_eq_of_lt (by omega)]

theorem modFull {cap total i : Nat} (full : total % cap + i = cap) : (total + i) % cap = 0 := by
  rw [← Nat.mod_add_mod, full, Nat.mod_self]

theorem modAcross {cap total i : Nat} (positive : 0 < cap) (past : cap ≤ total % cap + i) :
    (total + i) % cap = (i - (cap - total % cap)) % cap := by
  have low := Nat.mod_lt total positive
  have lap : (total + (cap - total % cap)) % cap = 0 := modFull (by omega)
  have parts : total + i = total + (cap - total % cap) + (i - (cap - total % cap)) := by omega
  rw [parts, Nat.add_mod, lap, Nat.zero_add, Nat.mod_mod]

-- A place at most a lap behind another, modulo the lap.
theorem modBehind {cap total k : Nat} (positive : 0 < cap) (before : k ≤ total) (near : total ≤ k + cap) :
    total % cap = k % cap + (total - k) ∨ total % cap + cap = k % cap + (total - k) := by
  have low := Nat.mod_lt k positive
  have sum : total % cap = (k % cap + (total - k)) % cap := by
    rw [Nat.mod_add_mod, Nat.add_sub_cancel' before]
  by_cases fits : k % cap + (total - k) < cap
  · exact .inl (by rw [sum, Nat.mod_eq_of_lt fits])
  · refine .inr ?_
    rw [sum, modOnce (by omega) (by omega)]
    omega

section
variable {cells stream s : List α}

-- Storing behind the last element; the piece ends at the array's end at the latest.
theorem windowStore (window : Window cells stream)
    (fits : stream.length % cells.length + s.length ≤ cells.length) :
    ∃ after, store cells (stream.length % cells.length) s = .ok after ∧ after.length = cells.length ∧
      Window after (stream ++ s) := by
  have length := storedLength fits
  refine ⟨_, storeOk fits, length, ⟨fun k below near => ?_⟩⟩
  rw [length] at near ⊢
  rw [List.length_append] at below near
  by_cases older : k < stream.length
  · rw [List.getElem?_append_left older, ← window.holds k older (by omega)]
    apply storedOutside fits
    have positive : 0 < cells.length := by omega
    rcases modBehind positive (Nat.le_of_lt older) (by omega) with ahead | wrapped <;> omega
  · obtain ⟨i, rfl⟩ := Nat.exists_eq_add_of_le (Nat.le_of_not_lt older)
    have inside : i < s.length := by omega
    rw [modForward (by omega), storedInside fits inside, List.getElem?_append_right (by omega),
      Nat.add_sub_cancel_left]

-- A piece that goes on at the array's start.
theorem windowStoreAcross (window : Window cells stream)
    (past : cells.length < stream.length % cells.length + s.length) (small : s.length < cells.length) :
    ∃ middle after,
      store cells (stream.length % cells.length) (s.take (cells.length - stream.length % cells.length)) = .ok middle ∧
      store middle 0 (s.drop (cells.length - stream.length % cells.length)) = .ok after ∧
      after.length = cells.length ∧ Window after (stream ++ s) := by
  have low : stream.length % cells.length < cells.length := Nat.mod_lt _ (by omega)
  obtain ⟨t, cut⟩ : ∃ t, cells.length - stream.length % cells.length = t := ⟨_, rfl⟩
  rw [cut]
  have head : (s.take t).length = t := List.length_take_of_le (by omega)
  obtain ⟨middle, stored, sameSize, half⟩ := windowStore window (s := s.take t) (by rw [head]; omega)
  have full : (stream ++ s.take t).length % middle.length = 0 := by
    rw [List.length_append, head, sameSize]
    exact modFull (by omega)
  obtain ⟨after, storedLast, lastSize, whole⟩ := windowStore half (s := s.drop t)
    (by rw [full, List.length_drop]; omega)
  rw [full] at storedLast
  rw [List.append_assoc, List.take_append_drop] at whole
  exact ⟨middle, after, stored, storedLast, lastSize.trans sameSize, whole⟩

-- Loading from the position of an element that is still there.
theorem windowLoad (window : Window cells stream) (pos n : Nat) (fits : pos % cells.length + n ≤ cells.length)
    (inside : pos + n ≤ stream.length) (near : stream.length ≤ pos + cells.length) :
    load cells (pos % cells.length) n = .ok ((stream.drop pos).take n) := by
  rw [loadOk fits]
  congr 1
  apply List.ext_getElem?
  intro i
  by_cases below : i < n
  · rw [List.getElem?_take_of_lt below, List.getElem?_take_of_lt below, List.getElem?_drop, List.getElem?_drop,
      ← modForward (by omega)]
    exact window.holds (pos + i) (by omega) (by omega)
  · rw [List.getElem?_eq_none (by rw [List.length_take]; omega),
      List.getElem?_eq_none (by rw [List.length_take]; omega)]

end

-- How far behind one position is, from the two modulo the lap.
theorem modDistance {cap total pos : Nat} (before : pos ≤ total) :
    (if pos % cap ≤ total % cap then total % cap - pos % cap else cap - pos % cap + total % cap) =
      (total - pos) % cap := by
  rcases Nat.eq_zero_or_pos cap with rfl | positive
  · rw [Nat.mod_zero, Nat.mod_zero, Nat.mod_zero, if_pos before]
  · have low := Nat.mod_lt pos positive
    have high := Nat.mod_lt total positive
    have sum : total % cap = (pos % cap + (total - pos) % cap) % cap := by
      rw [← Nat.add_mod, Nat.add_sub_cancel' before]
    have gap := Nat.mod_lt (total - pos) positive
    by_cases fits : pos % cap + (total - pos) % cap < cap
    · rw [Nat.mod_eq_of_lt fits] at sum
      rw [if_pos (by omega)]
      omega
    · rw [modOnce (i := pos % cap + (total - pos) % cap) (by omega) (by omega)] at sum
      rw [if_neg (by omega)]
      omega

end RtspRelay.CircularBuffer
