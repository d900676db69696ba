import RtspRelay.MessageText

/-! What a parser takes off the front of a buffer, when it throws, and that
bytes received later change neither. The declared length is attacker-chosen; the
sum with the header length wraps before it is compared. -/
namespace RtspRelay.MessageFraming
open Machine Buffer ByteSearch MessageText

def Started (header : Bytes) : Prop :=
  match startOf header with
  | none => False
  | some line => Accepts line
instance (header) : Decidable (Started header) := by unfold Started; split <;> infer_instance

/- The size computations that go wrong: an int sum past INT_MAX, and a declared
length no string can have that passes the wrapped bounds test. -/
def Hostile (content : Bytes) : Prop :=
  match block content with
  | .missing => False
  | .overlong => True
  | .header header => Started header ∧ stringMaxSize < declaredLength header ∧
      (header.length + declaredLength header) % 2 ^ 64 ≤ content.length
instance (content) : Decidable (Hostile content) := by unfold Hostile; split <;> infer_instance

theorem declaredLt (header : Bytes) : declaredLength header < 2 ^ 64 := by
  unfold declaredLength contentLength
  split
  · exact sizeTLt _
  · omega

section
variable {μ : Type} (g : Grammar μ)

theorem headStarted (header : Bytes) : (head g header).1 = true ↔ Started header := by
  rw [(headAccepted g header).1]
  unfold Started
  cases startOf header <;> simp

theorem outcomeError {content : Bytes} {e : Exn} :
    outcome g content = .error e ↔ e = .lengthError ∧ Hostile content := by
  unfold outcome Hostile
  cases block content with
  | missing => simp
  | overlong => simp [eq_comm]
  | header header =>
    simp only [headStarted]
    by_cases started : Started header
    · simp only [if_pos started, finish]
      by_cases short : content.length < (header.length + declaredLength header) % 2 ^ 64
      · simp only [if_pos short, Nat.not_le.mpr short, and_false, reduceCtorEq]
      · have long := Nat.not_lt.mp short
        simp only [if_neg short, started, long, and_true, true_and]
        by_cases huge : stringMaxSize < declaredLength header
        · simp [huge, Nat.zero_lt_of_lt huge, eq_comm]
        · by_cases positive : 0 < declaredLength header <;> simp [huge, positive]
    · simp [started]

theorem outcomeFalse {content : Bytes} {out : Parsed μ} (h : outcome g content = .ok out)
    (failed : out.ok = false) : out.consumed = 0 := by
  unfold outcome at h
  cases shape : block content with
  | missing => rw [shape] at h; rw [← Except.ok.inj h]
  | overlong => simp [shape] at h
  | header header =>
    simp only [shape] at h
    split at h
    · unfold finish at h
      dsimp only at h
      split at h
      · rw [← Except.ok.inj h]
      · split at h
        · split at h
          · simp at h
          · rw [← Except.ok.inj h] at failed
            simp at failed
        · rw [← Except.ok.inj h] at failed
          simp at failed
    · rw [← Except.ok.inj h]

-- A message is its header block and the declared number of bytes behind it.
structure Framed (content : Bytes) (out : Parsed μ) (header : Bytes) : Prop where
  shape : block content = .header header
  started : Started header
  size : out.consumed = header.length + declaredLength header
  buffered : out.consumed ≤ content.length
  representable : declaredLength header ≤ stringMaxSize
  message : out.msg = if declaredLength header = 0 then (head g header).2
    else g.setBody (head g header).2 ((content.drop header.length).take (declaredLength header))

theorem totalExact {header : Bytes} (small : header.length ≤ intMax)
    (fits : declaredLength header ≤ stringMaxSize) :
    (header.length + declaredLength header) % 2 ^ 64 = header.length + declaredLength header := by
  unfold intMax at small
  unfold stringMaxSize at fits
  exact Nat.mod_eq_of_lt (by omega)

theorem framedOutcome {content header : Bytes} {out : Parsed μ} (ok : out.ok = true)
    (h : Framed g content out header) : outcome g content = .ok out := by
  have small := (blockHeader h.shape).2.2.2.1
  have total := totalExact small h.representable
  have enough : ¬ content.length < header.length + declaredLength header := by
    rw [← h.size]
    exact Nat.not_lt.mpr h.buffered
  obtain ⟨out, msg, consumed⟩ := out
  obtain ⟨rfl, rfl, rfl⟩ := And.intro ok (And.intro h.size h.message)
  unfold outcome finish
  simp only [h.shape, (headStarted g header).mpr h.started, total, if_true, if_neg enough,
    if_neg (Nat.not_lt.mpr h.representable)]
  by_cases none : declaredLength header = 0
  · simp [none]
  · simp [none, Nat.pos_of_ne_zero none]

theorem outcomeFramed {content : Bytes} {out : Parsed μ} (h : outcome g content = .ok out)
    (ok : out.ok = true) : ∃ header, Framed g content out header := by
  unfold outcome at h
  cases shape : block content with
  | missing => rw [shape] at h; rw [← Except.ok.inj h] at ok; simp at ok
  | overlong => simp [shape] at h
  | header header =>
    have small := (blockHeader shape).2.2.2.1
    have bound := declaredLt header
    rw [shape] at h
    dsimp only at h
    by_cases started : (head g header).1 = true
    · rw [if_pos started] at h
      unfold finish at h
      dsimp only at h
      by_cases short : content.length < (header.length + declaredLength header) % 2 ^ 64
      · rw [if_pos short] at h; rw [← Except.ok.inj h] at ok; simp at ok
      · rw [if_neg short] at h
        have begun := (headStarted g header).mp started
        refine ⟨header, ?_⟩
        by_cases positive : 0 < declaredLength header
        · rw [if_pos positive] at h
          by_cases huge : stringMaxSize < declaredLength header
          · simp [huge] at h
          · have fits := Nat.not_lt.mp huge
            have total := totalExact small fits
            rw [if_neg huge, total] at h
            rw [total] at short
            rw [← Except.ok.inj h]
            exact ⟨shape, begun, rfl, Nat.not_lt.mp short, fits,
              by simp [Nat.ne_of_gt positive]⟩
        · have fits : declaredLength header ≤ stringMaxSize := by omega
          have total := totalExact small fits
          rw [if_neg positive, total] at h
          rw [total] at short
          rw [← Except.ok.inj h]
          exact ⟨shape, begun, rfl, Nat.not_lt.mp short, fits,
            by simp [Nat.eq_zero_of_not_pos positive]⟩
    · rw [if_neg started] at h; rw [← Except.ok.inj h] at ok; simp at ok

theorem framedAppend {content header : Bytes} {out : Parsed μ}
    (h : Framed g content out header) (t : Bytes) : Framed g (content ++ t) out header := by
  have inside := (blockHeader h.shape).2.2.1
  have buffered := h.buffered
  refine ⟨blockAppend h.shape t, h.started, h.size, by simp only [List.length_append]; omega,
    h.representable, ?_⟩
  rw [h.size] at buffered
  rw [List.drop_append_of_le_length inside,
    List.take_append_of_le_length (by simp only [List.length_drop]; omega)]
  exact h.message

theorem framedBody {content header : Bytes} {out : Parsed μ} (h : Framed g content out header) :
    g.bodyOf out.msg = (content.take out.consumed).drop header.length ∧
      out.consumed = header.length + (g.bodyOf out.msg).length := by
  have buffered := h.buffered
  have body : g.bodyOf out.msg = (content.drop header.length).take (declaredLength header) := by
    rw [h.message]
    split
    · rename_i none
      rw [(headAccepted g header).2.2, none, List.take_zero]
    · rw [g.bodySet]
  rw [h.size] at buffered
  rw [body, h.size]
  constructor
  · rw [List.drop_take, Nat.add_sub_cancel_left]
  · simp only [List.length_take, List.length_drop]
    omega

theorem outcomeAppend {content : Bytes} {out : Parsed μ} (h : outcome g content = .ok out)
    (ok : out.ok = true) (t : Bytes) : outcome g (content ++ t) = .ok out := by
  obtain ⟨header, framed⟩ := outcomeFramed g h ok
  exact framedOutcome g ok (framedAppend g framed t)

theorem hostileAppend {content : Bytes} (h : Hostile content) (t : Bytes) :
    Hostile (content ++ t) := by
  unfold Hostile at h ⊢
  cases shape : block content with
  | missing => simp [shape] at h
  | overlong => simp [blockOverlongAppend shape t]
  | header header =>
    simp only [shape] at h
    simp only [blockAppend shape t, List.length_append]
    exact ⟨h.1, h.2.1, by omega⟩

theorem outcomeErrorAppend {content : Bytes} {e : Exn} (h : outcome g content = .error e)
    (t : Bytes) : outcome g (content ++ t) = .error e := by
  obtain ⟨same, hostile⟩ := (outcomeError g).mp h
  exact (outcomeError g).mpr ⟨same, hostileAppend hostile t⟩

theorem outcomeConsumed {content : Bytes} {out : Parsed μ} (h : outcome g content = .ok out)
    (ok : out.ok = true) : 4 ≤ out.consumed ∧ out.consumed ≤ content.length := by
  obtain ⟨header, framed⟩ := outcomeFramed g h ok
  have low := (blockHeader framed.shape).2.1
  have size := framed.size
  exact ⟨by omega, framed.buffered⟩

end
end RtspRelay.MessageFraming
