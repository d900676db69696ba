import RtspRelay.Buffer
import RtspRelay.General.CircularBuffer

/-! The receive buffer as its calls find it: a vector and two positions that nothing ties
together. Sizes are natural numbers, so sums that leave size_t are not modelled; a
difference below zero and a copy that leaves the vector are faults. -/
namespace RtspRelay.ByteQueue
open Machine Buffer CircularBuffer

structure RawBuffer where
  data : Bytes
  readPos : Nat
  writePos : Nat
  deriving DecidableEq, Repr

def init (cap : Nat) : RawBuffer := ⟨List.replicate cap 0, 0, 0⟩

-- The regions may overlap: all is read before the first byte is written.
def memmove (data : Bytes) (dest src n : Nat) : Except Fault Bytes := do
  let moved ← load data src n
  store data dest moved

def resize (data : Bytes) (n : Nat) : Bytes := data.take n ++ List.replicate (n - data.length) 0

namespace RawBuffer

def readable (b : RawBuffer) : Except Fault Nat := difference b.writePos b.readPos
def writable (b : RawBuffer) : Except Fault Nat := difference b.data.length b.writePos

def compact (b : RawBuffer) : Except Fault RawBuffer := do
  if b.readPos = 0 then .ok b
  else if b.readPos = b.writePos then .ok ⟨b.data, 0, 0⟩
  else
    let r ← b.readable
    let data ← memmove b.data 0 b.readPos r
    .ok ⟨data, 0, r⟩

def skip (b : RawBuffer) (n : Nat) : Except Fault RawBuffer := do
  let r ← b.readable
  compact { b with readPos := b.readPos + min n r }

def hasRead (b : RawBuffer) (n : Nat) : Except Fault RawBuffer := b.skip n

def ensureWritable (b : RawBuffer) (cap : Nat) : Except Fault RawBuffer := do
  let w ← b.writable
  if cap ≤ w then .ok b
  else if cap ≤ b.readPos + w then b.compact
  else .ok { b with data := resize b.data (b.writePos + cap) }

def append (b : RawBuffer) (s : Bytes) : Except Fault RawBuffer := do
  let b ← b.ensureWritable s.length
  let data ← store b.data b.writePos s
  .ok { b with data := data, writePos := b.writePos + s.length }

def peek (b : RawBuffer) (len : Nat) : Except Fault (Nat × Bytes) := do
  let r ← b.readable
  let n := min len r
  let bytes ← load b.data b.readPos n
  .ok (n, bytes)

def read (b : RawBuffer) (len : Nat) : Except Fault ((Nat × Bytes) × RawBuffer) := do
  let (n, bytes) ← b.peek len
  let b ← b.skip n
  .ok ((n, bytes), b)

-- `memcmp` at `start + i` and on, `k` places in all.
def scan (data pattern : Bytes) (start : Nat) : Nat → Nat → Except Fault (Option Nat)
  | 0, _ => .ok none
  | k + 1, i => do
    let here ← load data (start + i) pattern.length
    if here = pattern then .ok (some i) else scan data pattern start k (i + 1)

def find (b : RawBuffer) (pattern : Bytes) : Except Fault Int := do
  let r ← b.readable
  if pattern.length = 0 ∨ r < pattern.length then .ok (-1)
  else
    match ← scan b.data pattern b.readPos (r - pattern.length + 1) 0 with
    | some i => .ok (int32 i)
    | none => .ok (-1)

def findCRLF (b : RawBuffer) : Except Fault Int := b.find crlf

-- `pos + 2` on ints; `beyond` is what a sum past INT_MAX comes to, which the language leaves open.
def pastLine (beyond : Int → Int) (pos : Int) : Int := if pos + 2 ≤ intMax then pos + 2 else beyond (pos + 2)

def readLine (beyond : Int → Int) (b : RawBuffer) : Except Fault (Bytes × RawBuffer) := do
  let pos ← b.findCRLF
  if pos < 0 then .ok ([], b)
  else
    let line ← load b.data b.readPos pos.toNat
    let b ← b.skip (sizeT (pastLine beyond pos))
    .ok (line, b)

def clear (b : RawBuffer) : RawBuffer := ⟨b.data, 0, 0⟩

end RawBuffer

/-! ### The buffer whose positions are in order -/

def raw (b : ByteBuffer) : RawBuffer := ⟨b.data, b.readPos, b.writePos⟩

@[simp] theorem rawData (b : ByteBuffer) : (raw b).data = b.data := rfl
@[simp] theorem rawReadPos (b : ByteBuffer) : (raw b).readPos = b.readPos := rfl
@[simp] theorem rawWritePos (b : ByteBuffer) : (raw b).writePos = b.writePos := rfl

theorem readableRaw (b : ByteBuffer) : (raw b).readable = .ok b.readable := if_pos b.ordered

theorem writableRaw (b : ByteBuffer) : (raw b).writable = .ok b.writable := if_pos b.inside

theorem loadRaw (b : ByteBuffer) {n : Nat} (fits : n ≤ b.readable) :
    load b.data b.readPos n = .ok (b.content.take n) := by
  have ordered := b.ordered
  have inside := b.inside
  rw [ByteBuffer.readable] at fits
  rw [load, if_pos (by omega), ByteBuffer.content, List.drop_take, List.take_take, Nat.min_eq_left fits]

theorem loadWhole (b : ByteBuffer) : load b.data b.readPos b.readable = .ok b.content := by
  rw [loadRaw b (Nat.le_refl _), ← b.contentLength, List.take_length]

theorem compactRaw (b : ByteBuffer) : (raw b).compact = .ok (raw b.compact) := by
  have ordered := b.ordered
  have inside := b.inside
  simp only [RawBuffer.compact, ByteBuffer.compact, rawData, rawReadPos, rawWritePos, readableRaw]
  by_cases front : b.readPos = 0
  · rw [if_pos front, if_pos front]
  rw [if_neg front, if_neg front]
  by_cases empty : b.readPos = b.writePos
  · rw [if_pos empty, if_pos empty]
    rfl
  · have moved : memmove b.data 0 b.readPos b.readable = .ok (b.content ++ b.data.drop b.readable) := by
      have fits : b.content.length ≤ b.data.length := by
        rw [b.contentLength, ByteBuffer.readable]
        omega
      simp only [memmove, bind, Except.bind, loadWhole, store, Nat.zero_add, if_pos fits]
      rw [b.contentLength]
      rfl
    rw [if_neg empty, if_neg empty]
    simp only [bind, Except.bind, moved]
    rfl

theorem skipRaw (b : ByteBuffer) (n : Nat) : (raw b).skip n = .ok (raw (b.skip n)) := by
  rw [RawBuffer.skip, readableRaw]
  exact compactRaw ⟨b.data, b.readPos + min n b.readable, b.writePos, _, b.inside⟩

theorem ensureWritableRaw (b : ByteBuffer) (cap : Nat) :
    (raw b).ensureWritable cap = .ok (raw (b.ensureWritable cap)) := by
  rw [RawBuffer.ensureWritable, writableRaw, ByteBuffer.ensureWritable]
  simp only [bind, Except.bind]
  by_cases room : cap ≤ b.writable
  · rw [if_pos room, if_pos room]
  rw [if_neg room, if_neg room]
  by_cases moved : cap ≤ b.readPos + b.writable
  · rw [if_pos moved, if_pos (show cap ≤ (raw b).readPos + b.writable from moved), compactRaw]
  · have grown : b.data.take (b.writePos + cap) = b.data := by
      apply List.take_of_length_le
      rw [ByteBuffer.writable] at room
      omega
    rw [if_neg moved, if_neg (show ¬cap ≤ (raw b).readPos + b.writable from moved)]
    simp only [raw, resize, grown]

theorem appendRaw (b : ByteBuffer) (s : Bytes) : (raw b).append s = .ok (raw (b.append s)) := by
  have room := b.ensureWritableRoom s.length
  have inside := (b.ensureWritable s.length).inside
  rw [ByteBuffer.writable] at room
  rw [RawBuffer.append, ensureWritableRaw]
  simp only [bind, Except.bind, rawData, rawReadPos, rawWritePos]
  rw [store, if_pos (by omega)]
  rfl

theorem peekRaw (b : ByteBuffer) (len : Nat) :
    (raw b).peek len = .ok (min len b.content.length, b.content.take len) := by
  rw [RawBuffer.peek, readableRaw]
  simp only [bind, Except.bind, rawData, rawReadPos, loadRaw b (Nat.min_le_right _ _)]
  rw [← b.contentLength, ← List.take_take, List.take_length]

theorem readRaw (b : ByteBuffer) (len : Nat) :
    (raw b).read len =
      .ok ((min len b.content.length, b.content.take len), raw (b.skip (min len b.content.length))) := by
  rw [RawBuffer.read, peekRaw]
  simp only [bind, Except.bind, skipRaw]

theorem scanRaw (b : ByteBuffer) {pattern : Bytes} (short : pattern.length ≤ b.content.length) (k i : Nat)
    (places : i + k = b.content.length - pattern.length + 1)
    (before : ∀ j < i, ¬ pattern <+: b.content.drop j) :
    RawBuffer.scan b.data pattern b.readPos k i = .ok (ByteSearch.find pattern b.content) := by
  induction k generalizing i with
  | zero =>
    have absent : ∀ j, ¬ pattern <+: b.content.drop j := by
      intro j occurs
      by_cases early : j < i
      · exact before j early occurs
      · have fits := occurs.length_le
        rw [List.length_drop] at fits
        have some := List.length_pos_of_ne_nil
          (fun empty : pattern = [] => before 0 (by omega) (empty ▸ List.nil_prefix))
        omega
    rw [RawBuffer.scan, ByteSearch.findAbsent absent]
  | succ k ih =>
    have load : load b.data (b.readPos + i) pattern.length = .ok ((b.content.drop i).take pattern.length) := by
      have ordered := b.ordered
      have inside := b.inside
      have length := b.contentLength
      rw [ByteBuffer.readable] at length
      rw [load, if_pos (by omega), ByteBuffer.content, List.drop_drop, List.drop_take, List.take_take,
        Nat.min_eq_left (by omega)]
    rw [RawBuffer.scan, load]
    simp only [bind, Except.bind]
    by_cases here : (b.content.drop i).take pattern.length = pattern
    · have occurs : pattern <+: b.content.drop i := List.prefix_iff_eq_take.mpr here.symm
      rw [if_pos here, ByteSearch.findExact.mpr ⟨occurs, by omega, before⟩]
    · rw [if_neg here]
      refine ih (i + 1) (by omega) ?_
      intro j upTo occurs
      rcases Nat.lt_succ_iff_lt_or_eq.mp upTo with early | rfl
      · exact before j early occurs
      · exact here (List.prefix_iff_eq_take.mp occurs).symm

theorem findCRLFRaw (b : ByteBuffer) : (raw b).findCRLF = .ok (b.find crlf) := by
  rw [RawBuffer.findCRLF, RawBuffer.find, readableRaw, ByteBuffer.find]
  simp only [bind, Except.bind, rawData, rawReadPos]
  by_cases short : crlf.length = 0 ∨ b.readable < crlf.length
  · rw [if_pos short, if_pos short]
  · rw [if_neg short, if_neg short, ← b.contentLength]
    have long : crlf.length ≤ b.content.length := by
      rw [b.contentLength]
      omega
    rw [scanRaw b long _ 0 (by omega) (fun j below => absurd below (Nat.not_lt_zero j))]
    cases ByteSearch.find crlf b.content <;> rfl

/-! ### Runs of calls -/

inductive Call where
  | append (s : Bytes)
  | skip (n : Nat)
  | hasRead (n : Nat)
  | peek (len : Nat)
  | read (len : Nat)
  | readLine
  | ensureWritable (cap : Nat)
  | compact
  | clear
  deriving DecidableEq, Repr

inductive Answer where
  | done
  | taken (n : Nat) (bytes : Bytes)
  | line (s : Bytes)
  deriving DecidableEq, Repr

section
variable (beyond : Int → Int)

def perform (b : RawBuffer) : Call → Except Fault (Answer × RawBuffer)
  | .append s => do .ok (.done, ← b.append s)
  | .skip n => do .ok (.done, ← b.skip n)
  | .hasRead n => do .ok (.done, ← b.hasRead n)
  | .peek len => do
    let (n, bytes) ← b.peek len
    .ok (.taken n bytes, b)
  | .read len => do
    let ((n, bytes), b) ← b.read len
    .ok (.taken n bytes, b)
  | .readLine => do
    let (line, b) ← b.readLine beyond
    .ok (.line line, b)
  | .ensureWritable cap => do .ok (.done, ← b.ensureWritable cap)
  | .compact => do .ok (.done, ← b.compact)
  | .clear => .ok (.done, b.clear)

def serve (b : RawBuffer) : List Call → Except Fault (List Answer × RawBuffer)
  | [] => .ok ([], b)
  | call :: calls => do
    let (answer, b) ← perform beyond b call
    let (answers, b) ← serve b calls
    .ok (answer :: answers, b)

end

-- The queue of bytes a call finds and the one it leaves. A line whose end is no int still
-- takes bytes from the front only.
inductive Serves : Bytes → Call → Answer → Bytes → Prop where
  | append {q s} : Serves q (.append s) .done (q ++ s)
  | skip {q n} : Serves q (.skip n) .done (q.drop n)
  | hasRead {q n} : Serves q (.hasRead n) .done (q.drop n)
  | peek {q len} : Serves q (.peek len) (.taken (min len q.length) (q.take len)) q
  | read {q len} : Serves q (.read len) (.taken (min len q.length) (q.take len)) (q.drop len)
  | noLine {q} : ByteSearch.find crlf q = none → Serves q .readLine (.line []) q
  | line {q} {p : Nat} : ByteSearch.find crlf q = some p → p + 2 ≤ intMax →
      Serves q .readLine (.line (q.take p)) (q.drop (p + 2))
  | farLine {q} {p : Nat} (j k : Nat) : ByteSearch.find crlf q = some p → intMax < p + 2 →
      Serves q .readLine (.line (q.take j)) (q.drop k)
  | ensureWritable {q cap} : Serves q (.ensureWritable cap) .done q
  | compact {q} : Serves q .compact .done q
  | clear {q} : Serves q .clear .done []

inductive Served : Bytes → List Call → List Answer → Bytes → Prop where
  | start {q} : Served q [] [] q
  | next {q q' q'' call answer calls answers} : Serves q call answer q' → Served q' calls answers q'' →
      Served q (call :: calls) (answer :: answers) q''

theorem dropClamped (q : Bytes) (n : Nat) : q.drop (min n q.length) = q.drop n := by
  rcases Nat.le_total n q.length with inside | past
  · rw [Nat.min_eq_left inside]
  · rw [Nat.min_eq_right past, List.drop_length, List.drop_eq_nil_of_le past]

variable (beyond : Int → Int)

theorem sizeTNat {n : Nat} (small : (n : Int) ≤ intMax) : sizeT n = n := by
  rw [intMax] at small
  have := sizeTNonneg (Int.natCast_nonneg n) (by omega)
  omega

theorem pastNear {p : Nat} (near : p + 2 ≤ intMax) : sizeT (RawBuffer.pastLine beyond p) = p + 2 := by
  rw [RawBuffer.pastLine, if_pos near]
  exact sizeTNat near

theorem lineTaken {b : ByteBuffer} {pos : Int} (found : b.find crlf = pos) (inside : ¬pos < 0)
    (fits : pos.toNat ≤ b.readable) :
    (raw b).readLine beyond =
      .ok (b.content.take pos.toNat, raw (b.skip (sizeT (RawBuffer.pastLine beyond pos)))) := by
  rw [RawBuffer.readLine, findCRLFRaw, found]
  simp only [bind, Except.bind, if_neg inside, rawData, rawReadPos, loadRaw b fits, skipRaw]

theorem lineMissed {b : ByteBuffer} {pos : Int} (found : b.find crlf = pos) (missed : pos < 0) :
    (raw b).readLine beyond = .ok ([], raw b) := by
  rw [RawBuffer.readLine, findCRLFRaw, found]
  simp only [bind, Except.bind, if_pos missed]

theorem readLineServes (b : ByteBuffer) :
    ∃ line b', (raw b).readLine beyond = .ok (line, raw b') ∧ Serves b.content .readLine (.line line) b'.content := by
  have search := b.findContent (show crlf ≠ [] by decide)
  cases found : ByteSearch.find crlf b.content with
  | none =>
    rw [found] at search
    exact ⟨[], b, lineMissed beyond search (by decide), .noLine found⟩
  | some p =>
    rw [found] at search
    have bound := (ByteSearch.findOccurs found).2
    have below := int32Le p
    by_cases near : p + 2 ≤ intMax
    · have same : int32 p = p := int32Small (by rw [intMax]; omega) (by omega)
      have fits : (p : Int).toNat ≤ b.readable := by
        rw [← b.contentLength]
        omega
      refine ⟨_, _, lineTaken beyond (search.trans same) (by omega) fits, ?_⟩
      rw [ByteBuffer.skipContent, pastNear beyond near]
      exact .line found near
    by_cases missed : int32 p < 0
    · exact ⟨[], b, lineMissed beyond search missed, .farLine 0 0 found (by omega)⟩
    · have fits : (int32 p).toNat ≤ b.readable := by
        rw [← b.contentLength]
        omega
      refine ⟨_, _, lineTaken beyond search missed fits, ?_⟩
      rw [ByteBuffer.skipContent]
      exact .farLine _ _ found (by omega)

theorem performServes (b : ByteBuffer) (call : Call) :
    ∃ answer b', perform beyond (raw b) call = .ok (answer, raw b') ∧ Serves b.content call answer b'.content := by
  cases call with
  | append s =>
    refine ⟨.done, b.append s, by rw [perform, appendRaw]; rfl, ?_⟩
    rw [ByteBuffer.appendContent]
    exact .append
  | skip n =>
    refine ⟨.done, b.skip n, by rw [perform, skipRaw]; rfl, ?_⟩
    rw [ByteBuffer.skipContent]
    exact .skip
  | hasRead n =>
    refine ⟨.done, b.skip n, by rw [perform, RawBuffer.hasRead, skipRaw]; rfl, ?_⟩
    rw [ByteBuffer.skipContent]
    exact .hasRead
  | peek len => exact ⟨_, b, by rw [perform, peekRaw]; rfl, .peek⟩
  | read len =>
    refine ⟨_, b.skip (min len b.content.length), by rw [perform, readRaw]; rfl, ?_⟩
    rw [ByteBuffer.skipContent, dropClamped]
    exact .read
  | readLine =>
    obtain ⟨line, b', done, serves⟩ := readLineServes beyond b
    exact ⟨.line line, b', by rw [perform, done]; rfl, serves⟩
  | ensureWritable cap =>
    refine ⟨.done, b.ensureWritable cap, by rw [perform, ensureWritableRaw]; rfl, ?_⟩
    rw [ByteBuffer.ensureWritableContent]
    exact .ensureWritable
  | compact =>
    refine ⟨.done, b.compact, by rw [perform, compactRaw]; rfl, ?_⟩
    rw [ByteBuffer.compactContent]
    exact .compact
  | clear =>
    refine ⟨.done, b.clear, rfl, ?_⟩
    rw [ByteBuffer.clearContent]
    exact .clear

theorem serveServed (b : ByteBuffer) (calls : List Call) :
    ∃ answers b', serve beyond (raw b) calls = .ok (answers, raw b') ∧
      Served b.content calls answers b'.content := by
  induction calls generalizing b with
  | nil => exact ⟨[], b, rfl, .start⟩
  | cons call calls ih =>
    obtain ⟨answer, b', done, serves⟩ := performServes beyond b call
    obtain ⟨answers, b'', rest, served⟩ := ih b'
    refine ⟨answer :: answers, b'', ?_, .next serves served⟩
    rw [serve, done]
    simp only [bind, Except.bind, rest]

-- What holds of the buffer after the calls that served `q`.
structure Kept (b : RawBuffer) (q : Bytes) : Prop where
  ordered : b.readPos ≤ b.writePos
  inside : b.writePos ≤ b.data.length
  content : (b.data.take b.writePos).drop b.readPos = q
  room : ∀ cap, ∃ b', b.ensureWritable cap = .ok b' ∧ cap ≤ b'.data.length - b'.writePos

theorem keptRaw (b : ByteBuffer) : Kept (raw b) b.content :=
  ⟨b.ordered, b.inside, rfl, fun cap => ⟨_, ensureWritableRaw b cap, b.ensureWritableRoom cap⟩⟩

-- After each call: the calls up to it are themselves such a list.
theorem bufferIsQueue (cap : Nat) (calls : List Call) :
    ∃ answers b q, serve beyond (init cap) calls = .ok (answers, b) ∧ Served [] calls answers q ∧ Kept b q := by
  obtain ⟨answers, b, done, served⟩ := serveServed beyond (.init cap) calls
  rw [ByteBuffer.initContent] at served
  exact ⟨answers, raw b, b.content, done, served, keptRaw b⟩

end RtspRelay.ByteQueue
