import Mathlib.Data.List.Basic

/-! Items of several senders on their way to one receiver: what each sender has
handed over is what has arrived of it followed by what is in transit. -/
namespace RtspRelay.Delivery

variable {α κ : Type} [DecidableEq κ] (sender : α → κ)

def sentBy (k : κ) (items : List α) : List α := items.filter fun a => decide (sender a = k)

def Delivers (given arrived transit : List α) : Prop :=
  ∀ k, sentBy sender k given = sentBy sender k arrived ++ sentBy sender k transit

variable {sender} {given arrived transit : List α} {a : α}

theorem sentByAppend (k : κ) (first last : List α) :
    sentBy sender k (first ++ last) = sentBy sender k first ++ sentBy sender k last :=
  List.filter_append first last

theorem deliversStart : Delivers sender [] [] [] := fun _ => rfl

theorem sentLast (h : Delivers sender given arrived transit) (a : α) :
    Delivers sender (given ++ [a]) arrived (transit ++ [a]) := by
  intro k
  rw [sentByAppend, sentByAppend, h k, List.append_assoc]

theorem nextArrives (h : Delivers sender given arrived (a :: transit)) :
    Delivers sender given (arrived ++ [a]) transit := by
  intro k
  rw [h k, ← List.singleton_append, sentByAppend, sentByAppend, List.append_assoc]

/-! An item may overtake those in transit when none of them has its sender. -/
theorem overtakes (h : Delivers sender given arrived transit) (alone : ∀ b ∈ transit, sender b ≠ sender a) :
    Delivers sender (given ++ [a]) (arrived ++ [a]) transit := by
  intro k
  rw [sentByAppend, sentByAppend, h k]
  rcases eq_or_ne (sender a) k with rfl | differ
  · have nothing : sentBy sender (sender a) transit = [] :=
      List.filter_eq_nil_iff.mpr fun b inside => by simpa using alone b inside
    rw [nothing, List.append_nil, List.append_nil]
  · have other : sentBy sender k [a] = [] :=
      List.filter_eq_nil_iff.mpr fun b inside => by simpa [List.mem_singleton.mp inside] using differ
    rw [other, List.append_nil, List.append_nil]

/-! The first item in transit of its sender may come to the front of any part of it. -/
theorem comesForward (front : List α) {before after : List α}
    (h : Delivers sender given arrived (front ++ (before ++ a :: after)))
    (first : ∀ b ∈ before, sender b ≠ sender a) : Delivers sender given arrived (front ++ a :: (before ++ after)) := by
  intro k
  have cut (rest : List α) : sentBy sender k (a :: rest) = sentBy sender k [a] ++ sentBy sender k rest :=
    sentByAppend k [a] rest
  rw [h k, sentByAppend, sentByAppend, sentByAppend, cut after, cut (before ++ after), sentByAppend]
  rcases eq_or_ne (sender a) k with rfl | differ
  · have nothing : sentBy sender (sender a) before = [] :=
      List.filter_eq_nil_iff.mpr fun b inside => by simpa using first b inside
    rw [nothing, List.nil_append, List.nil_append]
  · have other : sentBy sender k [a] = [] :=
      List.filter_eq_nil_iff.mpr fun b inside => by simpa [List.mem_singleton.mp inside] using differ
    rw [other, List.nil_append, List.nil_append]

end RtspRelay.Delivery
