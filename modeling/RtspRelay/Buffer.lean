import RtspRelay.Machine

/-! The receive buffer: a vector with a read and a write position. Its content
is the bytes between the two; every operation is described by what it does to
the content. Allocation failure is not modelled. -/
namespace RtspRelay.Buffer
open Machine

structure ByteBuffer where
  data : Bytes
  readPos : Nat
  writePos : Nat
  ordered : readPos ≤ writePos
  inside : writePos ≤ data.length
  deriving DecidableEq

namespace ByteBuffer

def init (cap : Nat) : ByteBuffer :=
  ⟨List.replicate cap 0, 0, 0, Nat.le_refl 0, Nat.zero_le _⟩

def readable (b : ByteBuffer) : Nat := b.writePos - b.readPos
def writable (b : ByteBuffer) : Nat := b.data.length - b.writePos

def content (b : ByteBuffer) : Bytes := (b.data.take b.writePos).drop b.readPos

theorem contentLength (b : ByteBuffer) : b.content.length = b.readable := by
  have := b.inside
  simp only [content, readable, List.length_drop, List.length_take]
  omega

def compact (b : ByteBuffer) : ByteBuffer :=
  if b.readPos = 0 then b
  else if b.readPos = b.writePos then ⟨b.data, 0, 0, Nat.le_refl 0, Nat.zero_le _⟩
  else ⟨b.content ++ b.data.drop b.readable, 0, b.readable, Nat.zero_le _, by
    simp [contentLength]⟩

def skip (b : ByteBuffer) (n : Nat) : ByteBuffer :=
  compact ⟨b.data, b.readPos + min n b.readable, b.writePos, by
    have := b.ordered; unfold readable; omega, b.inside⟩

def ensureWritable (b : ByteBuffer) (cap : Nat) : ByteBuffer :=
  if cap ≤ b.writable then b
  else if cap ≤ b.readPos + b.writable then b.compact
  else ⟨b.data ++ List.replicate (b.writePos + cap - b.data.length) 0, b.readPos, b.writePos,
    b.ordered, by have := b.inside; simp only [List.length_append]; omega⟩

-- `memcpy` of `s` to the write position, which `ensureWritable` made room for.
def store (b : ByteBuffer) (s : Bytes) (_room : s.length ≤ b.writable) : ByteBuffer :=
  ⟨b.data.take b.writePos ++ s ++ b.data.drop (b.writePos + s.length), b.readPos,
    b.writePos + s.length, by have := b.ordered; omega, by
    have := b.inside
    simp only [List.length_append, List.length_take, List.length_drop]
    omega⟩

theorem compactContent (b : ByteBuffer) : b.compact.content = b.content := by
  unfold compact
  split
  · rfl
  · split
    · rename_i same
      simp [content, same]
    · simp [content, ← contentLength]

theorem compactWritable (b : ByteBuffer) : b.readPos + b.writable ≤ b.compact.writable := by
  have := b.ordered
  have := b.inside
  unfold compact
  split
  · omega
  · split <;> simp only [writable, readable, List.length_append, contentLength, List.length_drop] <;>
      omega

theorem ensureWritableRoom (b : ByteBuffer) (cap : Nat) : cap ≤ (b.ensureWritable cap).writable := by
  have := compactWritable b
  have := b.inside
  unfold ensureWritable
  split
  · assumption
  · split
    · omega
    · simp only [writable, List.length_append, List.length_replicate]
      omega

theorem ensureWritableContent (b : ByteBuffer) (cap : Nat) :
    (b.ensureWritable cap).content = b.content := by
  unfold ensureWritable
  split
  · rfl
  · split
    · exact compactContent b
    · simp only [content, List.take_append_of_le_length b.inside]

def append (b : ByteBuffer) (s : Bytes) : ByteBuffer :=
  (b.ensureWritable s.length).store s (ensureWritableRoom b s.length)

def clear (b : ByteBuffer) : ByteBuffer := ⟨b.data, 0, 0, Nat.le_refl 0, Nat.zero_le _⟩

-- Position of `pattern` relative to `readPtr()` as an `int`, or -1.
def find (b : ByteBuffer) (pattern : Bytes) : Int :=
  if pattern.length = 0 ∨ b.readable < pattern.length then -1
  else match ByteSearch.find pattern b.content with
    | some p => int32 p
    | none => -1

@[simp] theorem initContent (cap : Nat) : (init cap).content = [] := by simp [init, content]

theorem storeContent (b : ByteBuffer) (s : Bytes) (room : s.length ≤ b.writable) :
    (b.store s room).content = b.content ++ s := by
  have hw := b.inside
  have ho := b.ordered
  have full : (b.data.take b.writePos).length = b.writePos := by simp [hw]
  have front : (b.data.take b.writePos ++ s ++ b.data.drop (b.writePos + s.length)).take
      (b.writePos + s.length) = b.data.take b.writePos ++ s :=
    List.take_left' (by simp only [List.length_append, full])
  simp only [content, store]
  rw [front, List.drop_append_of_le_length (by omega)]

@[simp] theorem appendContent (b : ByteBuffer) (s : Bytes) :
    (b.append s).content = b.content ++ s := by
  unfold append
  rw [storeContent, ensureWritableContent]

theorem filledContent (cap : Nat) (s : Bytes) : ((init cap).append s).content = s := by
  rw [appendContent, initContent, List.nil_append]

@[simp] theorem skipContent (b : ByteBuffer) (n : Nat) : (b.skip n).content = b.content.drop n := by
  unfold skip
  rw [compactContent]
  simp only [content, ← List.drop_drop, ← contentLength]
  rcases Nat.le_total n (List.drop b.readPos (List.take b.writePos b.data)).length with le | ge
  · rw [Nat.min_eq_left le]
  · rw [Nat.min_eq_right ge, List.drop_length, List.drop_eq_nil_of_le ge]

@[simp] theorem clearContent (b : ByteBuffer) : b.clear.content = [] := by simp [clear, content]

theorem findContent (b : ByteBuffer) {pattern : Bytes} (nonempty : pattern ≠ []) :
    b.find pattern = match ByteSearch.find pattern b.content with
      | some p => int32 p
      | none => -1 := by
  unfold find
  split
  · rename_i short
    have positive := List.length_pos_of_ne_nil nonempty
    cases h : ByteSearch.find pattern b.content with
    | none => rfl
    | some p =>
      have bound := (ByteSearch.findOccurs h).2
      rw [contentLength] at bound
      omega
  · rfl

end ByteBuffer
end RtspRelay.Buffer
