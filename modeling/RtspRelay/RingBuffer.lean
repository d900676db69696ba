import RtspRelay.Machine
import RtspRelay.General.CircularBuffer
import RtspRelay.General.Transition

/-! The ring buffer behind one stream and any number of readers, each with its own offset.
Beside the offsets the runs keep what was written and what each reader was handed. -/
namespace RtspRelay.Ring
open Machine CircularBuffer Transition

structure RingBuffer where
  buffer : Bytes
  capacity : Nat
  writeOffset : Nat
  deriving DecidableEq, Repr

def init (capacity : Nat) : RingBuffer := ⟨List.replicate capacity 0, capacity, 0⟩

namespace RingBuffer

def write (r : RingBuffer) (data : Bytes) : Except Fault (Bool × RingBuffer) := do
  let len := data.length
  if r.capacity ≤ len then .ok (false, r)
  else
    let newOffset := r.writeOffset + len
    if r.capacity < newOffset then
      let tail ← difference r.capacity r.writeOffset
      let buffer ← store r.buffer r.writeOffset (data.take tail)
      let buffer ← store buffer 0 (data.drop tail)
      let rest ← difference len tail
      .ok (true, { r with buffer := buffer, writeOffset := rest % r.capacity })
    else
      let buffer ← store r.buffer r.writeOffset data
      .ok (true, { r with buffer := buffer, writeOffset := if newOffset = r.capacity then 0 else newOffset })

def available (r : RingBuffer) (offset : Nat) : Except Fault Nat := do
  if offset ≤ r.writeOffset then difference r.writeOffset offset
  else
    let tail ← difference r.capacity offset
    .ok (tail + r.writeOffset)

-- The number of bytes, the bytes and the reader's new offset.
def read (r : RingBuffer) (offset len : Nat) : Except Fault (Nat × Bytes × Nat) := do
  let available ← r.available offset
  let n := min len available
  if n = 0 then .ok (0, [], offset)
  else if offset + n ≤ r.capacity then
    let bytes ← load r.buffer offset n
    .ok (n, bytes, if offset + n = r.capacity then 0 else offset + n)
  else
    let tail ← difference r.capacity offset
    let first ← load r.buffer offset tail
    let rest ← difference n tail
    let second ← load r.buffer 0 rest
    .ok (n, first ++ second, rest)

end RingBuffer

/-! ### One call -/

-- The buffer behind all that was written into it.
structure Holds (r : RingBuffer) (stream : Bytes) : Prop where
  size : r.buffer.length = r.capacity
  offset : r.writeOffset = stream.length % r.capacity
  window : Window r.buffer stream
  none : r.capacity = 0 → stream = []

theorem initHolds (capacity : Nat) : Holds (init capacity) [] :=
  ⟨List.length_replicate, (Nat.zero_mod _).symm, windowStart _, fun _ => rfl⟩

theorem writeRefused {r : RingBuffer} {data : Bytes} (large : r.capacity ≤ data.length) :
    r.write data = .ok (false, r) := if_pos large

theorem writeHolds {r : RingBuffer} {stream data : Bytes} (holds : Holds r stream)
    (small : data.length < r.capacity) :
    ∃ after, r.write data = .ok (true, after) ∧ after.capacity = r.capacity ∧ Holds after (stream ++ data) := by
  have size := holds.size
  have place := holds.offset
  have low : r.writeOffset < r.capacity := by
    rw [place]
    exact Nat.mod_lt _ (by omega)
  rw [RingBuffer.write]
  simp only [if_neg (Nat.not_le_of_lt small)]
  by_cases wraps : r.capacity < r.writeOffset + data.length
  · have tail : difference r.capacity r.writeOffset = .ok (r.capacity - r.writeOffset) := if_pos (Nat.le_of_lt low)
    have rest : difference data.length (r.capacity - r.writeOffset) =
        .ok (data.length - (r.capacity - r.writeOffset)) := if_pos (by omega)
    obtain ⟨middle, last, stored, storedLast, sameSize, whole⟩ := windowStoreAcross holds.window (s := data)
      (by rw [size, ← place]; exact wraps) (by omega)
    rw [size, ← place] at stored storedLast
    simp only [if_pos wraps, bind, Except.bind, tail, stored, storedLast, rest]
    refine ⟨_, rfl, rfl, ⟨by simp only; omega, ?_, whole, fun zero => by simp only at zero; omega⟩⟩
    simp only [List.length_append]
    rw [modAcross (by omega) (by omega), ← place]
  · obtain ⟨after, stored, sameSize, whole⟩ := windowStore holds.window (s := data)
      (by rw [size, ← place]; omega)
    rw [size, ← place] at stored
    simp only [if_neg wraps, bind, Except.bind, stored]
    refine ⟨_, rfl, rfl, ⟨by simp only; omega, ?_, whole, fun zero => by simp only at zero; omega⟩⟩
    simp only [List.length_append]
    split
    next full => exact (modFull (by omega)).symm
    next => rw [modForward (by omega), place]

theorem availableHolds {r : RingBuffer} {stream : Bytes} (holds : Holds r stream) {pos : Nat}
    (before : pos ≤ stream.length) :
    r.available (pos % r.capacity) = .ok ((stream.length - pos) % r.capacity) := by
  rw [RingBuffer.available, holds.offset, ← modDistance before]
  split
  next ahead => exact if_pos ahead
  next behind =>
    have positive : 0 < r.capacity := by
      by_contra zero
      rw [Nat.eq_zero_of_not_pos zero, Nat.mod_zero, Nat.mod_zero] at behind
      exact behind before
    have tail : difference r.capacity (pos % r.capacity) = .ok (r.capacity - pos % r.capacity) :=
      if_pos (Nat.le_of_lt (Nat.mod_lt pos positive))
    simp only [bind, Except.bind, tail]

-- `n` bytes read from `pos` on, right if nothing from there on is overwritten.
def Handing (r : RingBuffer) (stream : Bytes) (pos n : Nat) (result : Except Fault (Nat × Bytes × Nat)) : Prop :=
  ∃ bytes, result = .ok (bytes.length, bytes, (pos + bytes.length) % r.capacity) ∧ bytes.length = n ∧
    (stream.length ≤ pos + r.capacity → bytes = (stream.drop pos).take bytes.length)

section
variable {r : RingBuffer} {stream : Bytes} {pos n : Nat}

theorem readStraight (holds : Holds r stream) (inside : pos + n ≤ stream.length)
    (fits : pos % r.capacity + n ≤ r.capacity) : Handing r stream pos n (do
      let bytes ← load r.buffer (pos % r.capacity) n
      .ok (n, bytes, if pos % r.capacity + n = r.capacity then 0 else pos % r.capacity + n)) := by
  have size := holds.size
  have taken : load r.buffer (pos % r.capacity) n = .ok ((r.buffer.drop (pos % r.capacity)).take n) :=
    loadOk (by omega)
  have length : ((r.buffer.drop (pos % r.capacity)).take n).length = n := by
    rw [List.length_take, List.length_drop]
    omega
  have next : (if pos % r.capacity + n = r.capacity then 0 else pos % r.capacity + n) = (pos + n) % r.capacity := by
    split
    next full => exact (modFull full).symm
    next => exact (modForward (by omega)).symm
  simp only [bind, Except.bind, taken, next]
  refine ⟨_, by rw [length], length, fun near => ?_⟩
  have right := windowLoad holds.window pos n (by rw [size]; exact fits) inside (by rw [size]; exact near)
  rw [size, taken] at right
  rw [length]
  exact Except.ok.inj right

-- Through the end of the array and on from its start.
theorem readWrapped (holds : Holds r stream) (inside : pos + n ≤ stream.length) (low : n < r.capacity)
    (past : r.capacity < pos % r.capacity + n) : Handing r stream pos n (do
      let tail ← difference r.capacity (pos % r.capacity)
      let first ← load r.buffer (pos % r.capacity) tail
      let rest ← difference n tail
      let second ← load r.buffer 0 rest
      .ok (n, first ++ second, rest)) := by
  have size := holds.size
  have place := Nat.mod_lt pos (Nat.lt_of_le_of_lt (Nat.zero_le n) low)
  have tail : difference r.capacity (pos % r.capacity) = .ok (r.capacity - pos % r.capacity) :=
    if_pos (Nat.le_of_lt place)
  have rest : difference n (r.capacity - pos % r.capacity) = .ok (n - (r.capacity - pos % r.capacity)) :=
    if_pos (by omega)
  obtain ⟨t, cut⟩ : ∃ t, r.capacity - pos % r.capacity = t := ⟨_, rfl⟩
  rw [cut] at tail rest
  have lap : (pos + t) % r.capacity = 0 := modFull (by omega)
  have first : load r.buffer (pos % r.capacity) t = .ok ((r.buffer.drop (pos % r.capacity)).take t) :=
    loadOk (by omega)
  have second : load r.buffer 0 (n - t) = .ok ((r.buffer.drop 0).take (n - t)) := loadOk (by omega)
  have length : ((r.buffer.drop (pos % r.capacity)).take t ++ (r.buffer.drop 0).take (n - t)).length = n := by
    rw [List.length_append, List.length_take, List.length_drop, List.length_take, List.length_drop]
    omega
  have next : n - t = (pos + n) % r.capacity := by
    rw [modAcross (by omega) (Nat.le_of_lt past), cut, Nat.mod_eq_of_lt (by omega)]
  simp only [bind, Except.bind, tail, rest, first, second]
  refine ⟨_, by rw [length, ← next], length, fun near => ?_⟩
  have front := windowLoad holds.window pos t (by rw [size]; omega) (by omega) (by rw [size]; exact near)
  have back := windowLoad holds.window (pos + t) (n - t) (by rw [size, lap]; omega) (by omega)
    (by rw [size]; omega)
  rw [size, first] at front
  rw [size, lap, second] at back
  rw [length, Except.ok.inj front, Except.ok.inj back, ← List.drop_drop, ← List.take_add]
  congr 1
  omega

end

-- A reader at `pos` is handed what it has not read, as far as its distance is known modulo the capacity.
theorem readHolds {r : RingBuffer} {stream : Bytes} (holds : Holds r stream) {pos : Nat}
    (before : pos ≤ stream.length) (len : Nat) :
    Handing r stream pos (min len ((stream.length - pos) % r.capacity)) (r.read (pos % r.capacity) len) := by
  rw [RingBuffer.read, availableHolds holds before]
  simp only [bind, Except.bind]
  generalize count : min len ((stream.length - pos) % r.capacity) = n
  by_cases none : n = 0
  · rw [if_pos none]
    exact ⟨[], rfl, none.symm, fun _ => rfl⟩
  have fewer := Nat.mod_le (stream.length - pos) r.capacity
  have positive : 0 < r.capacity := by
    by_contra zero
    rw [holds.none (Nat.eq_zero_of_not_pos zero), List.length_nil, Nat.zero_sub, Nat.zero_mod, Nat.min_zero] at count
    exact none count.symm
  have gap := Nat.mod_lt (stream.length - pos) positive
  rw [if_neg none]
  by_cases fits : pos % r.capacity + n ≤ r.capacity
  · rw [if_pos fits]
    exact readStraight holds (by omega) fits
  · rw [if_neg fits]
    exact readWrapped holds (by omega) (by omega) (Nat.lt_of_not_le fits)

/-! ### Runs -/

variable {ι : Type}

structure World (ι : Type) where
  ring : RingBuffer
  offset : ι → Nat
  accepted : Bytes
  received : ι → Bytes

inductive Input (ι : Type) where
  | write (data : Bytes)
  | read (i : ι) (len : Nat)
  deriving DecidableEq, Repr

def start (capacity : Nat) : World ι := ⟨init capacity, fun _ => 0, [], fun _ => []⟩

variable [DecidableEq ι]

def hand (w : World ι) (i : ι) (bytes : Bytes) (offset : Nat) : World ι :=
  { w with
    offset := fun j => if j = i then offset else w.offset j
    received := fun j => if j = i then w.received i ++ bytes else w.received j }

def step (w : World ι) : Input ι → Except Fault (World ι)
  | .write data => do
    let (done, ring) ← w.ring.write data
    .ok { w with ring := ring, accepted := if done then w.accepted ++ data else w.accepted }
  | .read i len => do
    let (_, bytes, offset) ← w.ring.read (w.offset i) len
    .ok (hand w i bytes offset)

def unread (w : World ι) (i : ι) : Nat := w.accepted.length - (w.received i).length

structure Coherent (w : World ι) : Prop where
  ring : Holds w.ring w.accepted
  offset : ∀ i, w.offset i = (w.received i).length % w.ring.capacity
  behind : ∀ i, (w.received i).length ≤ w.accepted.length

omit [DecidableEq ι] in
theorem startCoherent (capacity : Nat) : Coherent (start capacity : World ι) :=
  ⟨initHolds capacity, fun _ => (Nat.zero_mod _).symm, fun _ => Nat.le_refl 0⟩

section
variable {w : World ι}

theorem writeStep (coherent : Coherent w) {data : Bytes} (small : data.length < w.ring.capacity) :
    ∃ ring, step w (.write data) = .ok { w with ring := ring, accepted := w.accepted ++ data } ∧
      ring.capacity = w.ring.capacity ∧ Coherent { w with ring := ring, accepted := w.accepted ++ data } := by
  obtain ⟨ring, written, same, holds⟩ := writeHolds coherent.ring small
  refine ⟨ring, by rw [step, written]; rfl, same, ⟨holds, fun i => ?_, fun i => ?_⟩⟩
  · rw [same]
    exact coherent.offset i
  · rw [List.length_append]
    exact Nat.le_add_right_of_le (coherent.behind i)

theorem refusedStep {data : Bytes} (large : w.ring.capacity ≤ data.length) : step w (.write data) = .ok w := by
  rw [step, writeRefused large]
  rfl

theorem handMine (w : World ι) (i : ι) (bytes : Bytes) (offset : Nat) :
    (hand w i bytes offset).received i = w.received i ++ bytes := if_pos rfl

theorem handOther (w : World ι) {i j : ι} (other : j ≠ i) (bytes : Bytes) (offset : Nat) :
    (hand w i bytes offset).received j = w.received j ∧ (hand w i bytes offset).offset j = w.offset j :=
  ⟨if_neg other, if_neg other⟩

theorem handCoherent (coherent : Coherent w) {i : ι} {bytes : Bytes} (fits : bytes.length ≤ unread w i) :
    Coherent (hand w i bytes (((w.received i).length + bytes.length) % w.ring.capacity)) := by
  have behind := coherent.behind i
  rw [unread] at fits
  refine ⟨coherent.ring, fun j => ?_, fun j => ?_⟩
  · by_cases same : j = i
    · subst same
      rw [handMine, List.length_append]
      exact if_pos rfl
    · obtain ⟨received, offset⟩ := handOther w same bytes (((w.received i).length + bytes.length) % w.ring.capacity)
      rw [received, offset]
      exact coherent.offset j
  · by_cases same : j = i
    · subst same
      rw [handMine, List.length_append]
      change _ ≤ w.accepted.length
      omega
    · rw [(handOther w same bytes _).1]
      exact coherent.behind j

-- The bytes a reader is handed.
structure Handed (w : World ι) (i : ι) (len : Nat) (bytes : Bytes) (offset : Nat) : Prop where
  read : w.ring.read (w.offset i) len = .ok (bytes.length, bytes, offset)
  count : bytes.length = min len (unread w i % w.ring.capacity)
  right : unread w i ≤ w.ring.capacity → bytes = (w.accepted.drop (w.received i).length).take bytes.length
  step : step w (.read i len) = .ok (hand w i bytes offset)
  coherent : Coherent (hand w i bytes offset)

theorem readStep (coherent : Coherent w) (i : ι) (len : Nat) : ∃ bytes offset, Handed w i len bytes offset := by
  obtain ⟨bytes, read, count, right⟩ := readHolds coherent.ring (coherent.behind i) len
  have fewer := Nat.mod_le (unread w i) w.ring.capacity
  rw [← coherent.offset i] at read
  exact ⟨bytes, _,
    { read := read, count := count, right := fun near => right (by rw [unread] at near; omega)
      step := by rw [step, read]; rfl
      coherent := handCoherent coherent (by rw [unread] at fewer ⊢; omega) }⟩

theorem stepCoherent (coherent : Coherent w) (a : Input ι) : Coherent (orStay step w a) := by
  rw [orStay]
  cases a with
  | write data =>
    by_cases small : data.length < w.ring.capacity
    · obtain ⟨ring, done, -, after⟩ := writeStep coherent small
      rw [done]
      exact after
    · rw [refusedStep (Nat.le_of_not_lt small)]
      exact coherent
  | read i len =>
    obtain ⟨_, _, handed⟩ := readStep coherent i len
    rw [handed.step]
    exact handed.coherent

end

/-! ### A reader that keeps up -/

def KeepsUp (i : ι) (w : World ι) (a : Input ι) : Prop :=
  ∀ data, a = .write data → data.length < w.ring.capacity → unread w i + data.length < w.ring.capacity

def InOrder (i : ι) (w : World ι) : Prop := w.received i <+: w.accepted

def Answers (i : ι) (w : World ι) (a : Input ι) : Prop :=
  (∃ after, step w a = .ok after) ∧
    ∀ len, a = .read i len → ∃ bytes offset,
      w.ring.read (w.offset i) len = .ok (min len (unread w i), bytes, offset) ∧ bytes.length = min len (unread w i)

structure Following (i : ι) (w : World ι) : Prop extends Coherent w where
  near : unread w i < w.ring.capacity
  inOrder : InOrder i w

-- What is handed to a reader goes on where it stopped.
theorem handedInOrder {i : ι} {w : World ι} (inOrder : InOrder i w) (near : unread w i ≤ w.ring.capacity)
    {len offset : Nat} {bytes : Bytes} (handed : Handed w i len bytes offset) :
    InOrder i (hand w i bytes offset) := by
  obtain ⟨rest, split⟩ := inOrder
  have next := handed.right near
  rw [← split, List.drop_left] at next
  rw [InOrder, handMine, next]
  change _ <+: w.accepted
  rw [← split]
  exact (List.prefix_append_right_inj _).mpr (List.take_prefix _ _)

theorem followingStep {i : ι} {w : World ι} (following : Following i w) (a : Input ι) (keepsUp : KeepsUp i w a) :
    Following i (orStay step w a) ∧ Answers i w a := by
  have coherent := following.toCoherent
  have kept := stepCoherent coherent a
  have near := following.near
  cases a with
  | write data =>
    by_cases small : data.length < w.ring.capacity
    · obtain ⟨ring, done, same, -⟩ := writeStep coherent small
      have room := keepsUp data rfl small
      have behind := coherent.behind i
      rw [orStay, done] at kept ⊢
      refine ⟨⟨kept, ?_, ?_⟩, ⟨_, done⟩, fun _ same => by contradiction⟩
      · rw [unread] at room
        simp only [unread, List.length_append, same]
        omega
      · exact following.inOrder.trans (List.prefix_append _ _)
    · have done := refusedStep (Nat.le_of_not_lt small)
      rw [orStay, done]
      exact ⟨following, ⟨_, done⟩, fun _ same => by contradiction⟩
  | read j len =>
    obtain ⟨bytes, offset, handed⟩ := readStep coherent j len
    have done := handed.step
    rw [orStay, done] at kept ⊢
    by_cases same : j = i
    · subst same
      refine ⟨⟨kept, ?_, handedInOrder following.inOrder (Nat.le_of_lt near) handed⟩, ⟨_, done⟩, ?_⟩
      · rw [unread, handMine, List.length_append]
        rw [unread] at near
        change w.accepted.length - _ < w.ring.capacity
        omega
      · intro len' this
        cases this
        have count := handed.count
        rw [Nat.mod_eq_of_lt near] at count
        exact ⟨bytes, offset, by rw [handed.read, count], count⟩
    · have others := (handOther w (Ne.symm same) bytes offset).1
      refine ⟨⟨kept, ?_, ?_⟩, ⟨_, done⟩, ?_⟩
      · rw [unread, others]
        exact near
      · rw [InOrder, others]
        exact following.inOrder
      · intro len' this
        cases this
        exact absurd rfl same

omit [DecidableEq ι] in
theorem followingStart {capacity : Nat} (positive : 0 < capacity) (i : ι) : Following i (start capacity : World ι) :=
  ⟨startCoherent capacity, positive, List.prefix_rfl⟩

theorem readersInOrder {capacity : Nat} (positive : 0 < capacity) (i : ι) (inputs : List (Input ι))
    (keepsUp : Throughout (orStay step) (KeepsUp i) (start capacity) inputs) :
    Always (orStay step) (InOrder i) (start capacity) inputs ∧
      Throughout (orStay step) (Answers i) (start capacity) inputs := by
  have begins := followingStart positive i
  have keeps (w : World ι) (a : Input ι) (following : Following i w) (up : KeepsUp i w a) :=
    followingStep following a up
  refine ⟨alwaysAlong (fun w a f up => (keeps w a f up).1) (fun w following => following.inOrder) begins keepsUp, ?_⟩
  have both := (throughoutAlong (fun w a f up => (keeps w a f up).1)
    (fun w a f => ⟨fun up => ⟨up, (keeps w a f up).2⟩, And.left⟩) begins inputs).mp keepsUp
  exact throughoutMono (fun _ _ => And.right) both

-- A reader that drains the buffer between two writes keeps up, through the end of the array.
theorem drainedInOrder :
    let inputs : List (Input Unit) := [.write [1, 2, 3], .read () 8, .write [4, 5, 6], .read () 8]
    Always (orStay step) (InOrder ()) (start 4) inputs ∧ Throughout (orStay step) (Answers ()) (start 4) inputs :=
  readersInOrder (by decide) () _
    ⟨fun _ same _ => by cases same; decide, nofun, fun _ same _ => by cases same; decide, nofun, trivial⟩

/-! ### A reader that is overrun -/

-- What a read must be: nothing once unread bytes are overwritten, else the next bytes of the stream.
def Detects (w : World ι) : Input ι → Prop
  | .write data => ∃ after, step w (.write data) = .ok after
  | .read i len => ∃ n bytes offset, w.ring.read (w.offset i) len = .ok (n, bytes, offset) ∧ bytes.length = n ∧
      (w.ring.capacity ≤ unread w i → n = 0) ∧ bytes <+: w.accepted.drop (w.received i).length

def Apart (w : World ι) : Input ι → Prop
  | .write _ => True
  | .read i len => len = 0 ∨ unread w i < w.ring.capacity ∨ unread w i % w.ring.capacity = 0

theorem detectsApart {w : World ι} (coherent : Coherent w) (a : Input ι) : Detects w a ↔ Apart w a := by
  cases a with
  | write data =>
    refine iff_of_true ?_ trivial
    by_cases small : data.length < w.ring.capacity
    · obtain ⟨ring, done, -⟩ := writeStep coherent small
      exact ⟨_, done⟩
    · exact ⟨w, refusedStep (Nat.le_of_not_lt small)⟩
  | read i len =>
    obtain ⟨bytes, offset, handed⟩ := readStep coherent i len
    have count := handed.count
    constructor
    · rintro ⟨n, bytes', offset', read, -, stops, -⟩
      rw [handed.read] at read
      cases read
      by_cases near : unread w i < w.ring.capacity
      · exact .inr (.inl near)
      · have stopped := stops (Nat.le_of_not_lt near)
        rw [Apart]
        omega
    · intro apart
      refine ⟨_, bytes, offset, handed.read, rfl, fun lapped => ?_, ?_⟩
      · rw [Apart] at apart
        omega
      · by_cases near : unread w i ≤ w.ring.capacity
        · rw [handed.right near]
          exact List.take_prefix _ _
        · have none : bytes.length = 0 := by
            rw [Apart] at apart
            omega
          rw [List.length_eq_zero_iff.mp none]
          exact List.nil_prefix

theorem overrunDetected (capacity : Nat) (inputs : List (Input ι)) :
    Throughout (orStay step) Detects (start capacity) inputs ↔
      Throughout (orStay step) Apart (start capacity) inputs :=
  throughoutExact (I := Coherent) (fun _ a coherent => stepCoherent coherent a)
    (fun _ a coherent => detectsApart coherent a)
    (startCoherent capacity) inputs

-- Six bytes written into four: the reader, six behind, is handed the last two.
theorem overrunMissed :
    ¬∀ (capacity : Nat) (inputs : List (Input Unit)), Throughout (orStay step) Detects (start capacity) inputs := by
  intro all
  obtain ⟨-, -, ⟨n, bytes, offset, read, -, stops, -⟩, -⟩ := all 4 [.write [1, 2, 3], .write [4, 5, 6], .read () 8]
  have handed : Except.ok (2, [5, 6], 2) = Except.ok (ε := Fault) (n, bytes, offset) := read
  cases handed
  exact absurd (stops (by decide)) (by decide)

end RtspRelay.Ring
