import RtspRelay.Buffer

/-! Text messages with a start line, header lines and a body counted by
Content-Length. The RTSP and the HTTP parser are two copies of one text; the
copy is kept here once, and the parts in which they differ are a grammar. -/
namespace RtspRelay.MessageText
open Machine Buffer ByteSearch

abbrev Headers := AList (fun _ : Bytes => Bytes)

structure Parsed (μ : Type) where
  ok : Bool
  msg : μ
  consumed : Nat

def Accepts (line : Bytes) : Prop := 2 ≤ line.count 32
instance (line) : Decidable (Accepts line) := by unfold Accepts; infer_instance

structure Grammar (μ : Type) where
  fresh : μ
  startLine : Bytes → μ → Except Exn (Bool × μ)
  field : μ → Bytes → Bytes → μ
  headers : μ → Headers
  bodyOf : μ → Bytes
  setBody : μ → Bytes → μ
  freshHeaders : headers fresh = ∅
  freshBody : bodyOf fresh = []
  starts : ∀ line msg, ∃ out, startLine line msg = .ok (decide (Accepts line), out) ∧
    headers out = headers msg ∧ bodyOf out = bodyOf msg
  fieldHeaders : ∀ msg key val, headers (field msg key val) = (headers msg).insert key val
  fieldBody : ∀ msg key val, bodyOf (field msg key val) = bodyOf msg
  bodySet : ∀ msg bytes, bodyOf (setBody msg bytes) = bytes

def threeParts (line : Bytes) : Except Exn (Option (Bytes × Bytes × Bytes)) :=
  match find [32] line with
  | none => .ok none
  | some sp1 => match findFrom [32] line (sp1 + 1) with
    | none => .ok none
    | some sp2 => do
      let first ← substr line 0 sp1
      let second ← substr line (sp1 + 1) (sp2 - sp1 - 1)
      let third ← substrFrom line (sp2 + 1)
      .ok (some (first, second, third))

-- `valStart` after the loop that skips the blanks behind the colon.
def valueStart (line : Bytes) (colon : Nat) : Nat :=
  colon + 1 + ((line.drop (colon + 1)).takeWhile (· == 32)).length

section
variable {μ : Type}

def headerLine (field : μ → Bytes → Bytes → μ) (msg : μ) (line : Bytes) : Except Exn μ :=
  match find [58] line with
  | none => .ok msg
  | some colon => do
    let key ← substr line 0 colon
    let val ← substrFrom line (valueStart line colon)
    .ok (field msg key val)

def headerLoop (field : μ → Bytes → Bytes → μ) (header : Bytes) : Nat → Nat → μ → Except Exn μ
  | 0, _, msg => .ok msg
  | fuel + 1, pos, msg =>
    if pos < header.length - 2 then
      match findFrom crlf header pos with
      | none => .ok msg
      | some nextLine =>
        if nextLine = pos then .ok msg
        else do
          let line ← substr header pos (nextLine - pos)
          let msg ← headerLine field msg line
          headerLoop field header fuel (nextLine + 2) msg
    else .ok msg

def contentLength (headers : Headers) : Nat :=
  match headers.lookup (ascii "Content-Length") with
  | some val => sizeT (atoll val)
  | none => 0

-- The sum is an int before it is a size_t.
def headerLen (buf : ByteBuffer) : Nat := sizeT (int32 (buf.find crlfcrlf + 4))

def parseBody (g : Grammar μ) (buf : ByteBuffer) (header : Bytes) (msg : μ) :
    Except Exn (Parsed μ) :=
  let headerLen := header.length
  let contentLength := contentLength (g.headers msg)
  if buf.readable < (headerLen + contentLength) % 2 ^ 64 then .ok ⟨false, msg, 0⟩
  else if 0 < contentLength then do
    let body ← makeString (buf.content.drop headerLen) contentLength
    .ok ⟨true, g.setBody msg body, (headerLen + contentLength) % 2 ^ 64⟩
  else .ok ⟨true, msg, (headerLen + contentLength) % 2 ^ 64⟩

def parseHeader (g : Grammar μ) (buf : ByteBuffer) (header : Bytes) : Except Exn (Parsed μ) :=
  match find crlf header with
  | none => .ok ⟨false, g.fresh, 0⟩
  | some lineEnd => do
    let firstLine ← substr header 0 lineEnd
    let (accepted, msg) ← g.startLine firstLine g.fresh
    if accepted then
      let msg ← headerLoop g.field header header.length (lineEnd + 2) msg
      parseBody g buf header msg
    else .ok ⟨false, msg, 0⟩

def parse (g : Grammar μ) (buf : ByteBuffer) : Except Exn (Parsed μ) :=
  if buf.find crlfcrlf < 0 then .ok ⟨false, g.fresh, 0⟩
  else do
    let header ← makeString buf.content (headerLen buf)
    parseHeader g buf header
end

/-! What the header block of a buffer is, and which fields its lines name,
without positions. -/

inductive Block where
  | missing
  | overlong
  | header (bytes : Bytes)
  deriving DecidableEq, Repr

def block (content : Bytes) : Block :=
  match find crlfcrlf content with
  | none => .missing
  | some p =>
    if int32 p < 0 then .missing
    else if intMax < int32 p + 4 then .overlong
    else .header (content.take (int32 p + 4).toNat)

def splitField (line : Bytes) : Option (Bytes × Bytes) :=
  (find [58] line).map (fun colon => (line.take colon, (line.drop (colon + 1)).dropWhile (· == 32)))

-- The fields of the terminated lines in front of the first empty one.
def fieldsOf (lines : Bytes) : List (Bytes × Bytes) :=
  ((splitPair 13 10 lines).dropLast.takeWhile (fun line => !line.isEmpty)).filterMap splitField

def startOf (header : Bytes) : Option Bytes := (find crlf header).map header.take

def fields (header : Bytes) : List (Bytes × Bytes) :=
  match find crlf header with
  | none => []
  | some lineEnd => fieldsOf (header.drop (lineEnd + 2))

def headerMap (header : Bytes) : Headers :=
  (fields header).foldl (fun map field => map.insert field.1 field.2) ∅

def declaredLength (header : Bytes) : Nat := contentLength (headerMap header)

theorem threePartsOk (line : Bytes) :
    ∃ parts, threeParts line = .ok parts ∧ (parts.isSome = true ↔ Accepts line) := by
  unfold threeParts Accepts findFrom
  cases h1 : find [32] line with
  | none =>
    have absent : (32 : UInt8) ∉ line := by
      rw [← findSingleton, h1]
      decide
    exact ⟨none, rfl, by simp [List.count_eq_zero_of_not_mem absent]⟩
  | some sp1 =>
    have bound := (findOccurs h1).2
    have before := List.count_eq_zero_of_not_mem (findSingletonFresh h1)
    have total : line.count 32 = (line.drop (sp1 + 1)).count 32 + 1 := by
      conv => lhs; rw [findSplit h1]
      simp [before]
    simp only [List.length_singleton] at bound
    cases h2 : find [32] (line.drop (sp1 + 1)) with
    | none =>
      have absent : (32 : UInt8) ∉ line.drop (sp1 + 1) := by
        rw [← findSingleton, h2]
        decide
      rw [List.count_eq_zero_of_not_mem absent] at total
      exact ⟨none, by simp only [h2, Option.map_none], by simp [total]⟩
    | some k =>
      have inner := (findOccurs h2).2
      have present : (32 : UInt8) ∈ line.drop (sp1 + 1) := by
        rw [← findSingleton, h2]
        rfl
      have positive := List.count_pos_iff.mpr present
      simp only [List.length_singleton, List.length_drop] at inner
      simp only [h2, Option.map_some, substrOk (Nat.zero_le _), bind, Except.bind,
        substrOk (show sp1 + 1 ≤ line.length by omega),
        substrFromOk (show k + (sp1 + 1) + 1 ≤ line.length by omega)]
      exact ⟨_, rfl, by simp only [Option.isSome_some, true_iff]; omega⟩

theorem headerLineOk {μ : Type} (field : μ → Bytes → Bytes → μ) (msg : μ) (line : Bytes) :
    headerLine field msg line =
      .ok ((splitField line).elim msg (fun f => field msg f.1 f.2)) := by
  unfold headerLine splitField
  cases h : find [58] line with
  | none => rfl
  | some colon =>
    have bound := (findOccurs h).2
    simp only [List.length_singleton] at bound
    have blanks := List.takeWhile_append_dropWhile (p := (· == 32)) (l := line.drop (colon + 1))
    have sizes := congrArg List.length blanks
    simp only [List.length_append, List.length_drop] at sizes
    have start : valueStart line colon ≤ line.length := by unfold valueStart; omega
    have rest : line.drop (valueStart line colon) = (line.drop (colon + 1)).dropWhile (· == 32) := by
      unfold valueStart
      rw [← List.drop_drop]
      nth_rewrite 2 [← blanks]
      rw [List.drop_left]
    simp only [substrOk (Nat.zero_le _), substrFromOk start, rest, bind, Except.bind]
    rfl

theorem fieldsOfShort {lines : Bytes} (short : lines.length ≤ 2) : fieldsOf lines = [] := by
  unfold fieldsOf
  cases h : find [13, 10] lines with
  | none => rw [splitPairNone 13 10 h]; rfl
  | some i =>
    have bound := (findOccurs h).2
    simp only [List.length_cons, List.length_nil] at bound
    have start : i = 0 := by omega
    subst start
    rw [splitPairEnded 13 10 h]
    rfl

theorem fieldsOfNone {lines : Bytes} (h : find crlf lines = none) : fieldsOf lines = [] := by
  unfold fieldsOf
  rw [splitPairNone 13 10 h]
  rfl

theorem fieldsOfSome {lines : Bytes} {i : Nat} (h : find crlf lines = some i) :
    fieldsOf lines = if i = 0 then [] else
      (splitField (lines.take i)).toList ++ fieldsOf (lines.drop (i + 2)) := by
  have bound := (findOccurs h).2
  unfold fieldsOf
  rw [splitPairEnded 13 10 h]
  split
  · rename_i start
    simp [start]
  · rename_i later
    have nonempty : (lines.take i).isEmpty = false := by
      rw [List.isEmpty_eq_false_iff]
      intro none
      have := congrArg List.length none
      simp only [List.length_take, List.length_nil] at this
      omega
    simp only [List.takeWhile_cons, nonempty, Bool.not_false, if_true, List.filterMap_cons]
    cases splitField (lines.take i) <;> rfl

theorem splitNamed {name : Bytes} (ends : (58 : UInt8) ∉ name) (value : Bytes) :
    splitField (name ++ 58 :: value) = some (name, value.dropWhile (· == 32)) := by
  have behind : (name ++ 58 :: value).drop (name.length + 1) = value := by
    rw [← List.drop_drop, List.drop_left]
    rfl
  rw [splitField, firstSplit ends, Option.map_some, List.take_left, behind]

-- The lines may be cut at any place.
theorem lineCut {line : Bytes} (some : line ≠ []) (whole : find crlf line = none) (tail : Bytes) (m : Nat) :
    fieldsOf ((line ++ crlf ++ tail).take m) =
      if line.length + 2 ≤ m then (splitField line).toList ++ fieldsOf (tail.take (m - (line.length + 2)))
      else [] := by
  have found : find crlf (line ++ crlf ++ tail) = Option.some line.length := by
    rw [List.append_assoc]
    exact findPairAfter (by decide) whole tail
  have positive := List.length_pos_of_ne_nil some
  split
  · rename_i inside
    have cut := findTake found (n := m) inside
    have start : ((line ++ crlf ++ tail).take m).take line.length = line := by
      rw [List.take_take, Nat.min_eq_left (by omega), List.append_assoc, List.take_left]
    have rest : ((line ++ crlf ++ tail).take m).drop (line.length + 2) = tail.take (m - (line.length + 2)) := by
      rw [List.drop_take, List.drop_left' (by simp [crlf])]
    rw [fieldsOfSome cut, if_neg (by omega), start, rest]
  · rename_i short
    exact fieldsOfNone (findCut found (Nat.not_le.mp short))

theorem headerLoopOk {μ : Type} (field : μ → Bytes → Bytes → μ) (header : Bytes)
    (fuel pos : Nat) (msg : μ) (enough : header.length ≤ pos + fuel) :
    headerLoop field header fuel pos msg =
      .ok ((fieldsOf (header.drop pos)).foldl (fun m f => field m f.1 f.2) msg) := by
  induction fuel generalizing pos msg with
  | zero =>
    rw [fieldsOfShort (by simp only [List.length_drop]; omega)]
    rfl
  | succ fuel ih =>
    simp only [headerLoop]
    split
    · cases h : find crlf (header.drop pos) with
      | none => simp [findFrom, h, fieldsOfNone h]
      | some i =>
        have bound := (findOccurs h).2
        simp only [List.length_drop, crlf, List.length_cons, List.length_nil] at bound
        simp only [findFrom, h, Option.map_some, fieldsOfSome h]
        by_cases start : i = 0
        · simp [start]
        · have line : substr header pos (i + pos - pos) = .ok ((header.drop pos).take i) := by
            rw [substrOk (by omega), Nat.add_sub_cancel]
          rw [if_neg (by omega), if_neg start]
          simp only [line, headerLineOk, bind, Except.bind]
          rw [ih _ _ (by omega), List.drop_drop, List.foldl_append]
          rw [show pos + (i + 2) = i + pos + 2 by omega]
          cases splitField ((header.drop pos).take i) <;> rfl
    · rw [fieldsOfShort (by simp only [List.length_drop]; omega)]
      rfl

/-! The parser as a function of the content alone. -/

def head {μ : Type} (g : Grammar μ) (header : Bytes) : Bool × μ :=
  match find crlf header with
  | none => (false, g.fresh)
  | some lineEnd => match g.startLine (header.take lineEnd) g.fresh with
    | .error _ => (false, g.fresh)
    | .ok (accepted, msg) =>
      (accepted, if accepted then (fields header).foldl (fun m f => g.field m f.1 f.2) msg else msg)

def finish {μ : Type} (g : Grammar μ) (content header : Bytes) (msg : μ) : Except Exn (Parsed μ) :=
  let total := (header.length + declaredLength header) % 2 ^ 64
  if content.length < total then .ok ⟨false, msg, 0⟩
  else if 0 < declaredLength header then
    if stringMaxSize < declaredLength header then .error .lengthError
    else .ok ⟨true, g.setBody msg ((content.drop header.length).take (declaredLength header)), total⟩
  else .ok ⟨true, msg, total⟩

def outcome {μ : Type} (g : Grammar μ) (content : Bytes) : Except Exn (Parsed μ) :=
  match block content with
  | .missing => .ok ⟨false, g.fresh, 0⟩
  | .overlong => .error .lengthError
  | .header header =>
    if (head g header).1 then finish g content header (head g header).2
    else .ok ⟨false, (head g header).2, 0⟩

theorem crlfcrlfNonempty : crlfcrlf ≠ [] := by decide

theorem emptyLine {s : Bytes} (double : crlfcrlf <+: s) : crlf <+: s ∧ crlf <+: s.drop 2 := by
  obtain ⟨rest, same⟩ := double
  rw [← same]
  exact ⟨⟨[13, 10] ++ rest, rfl⟩, ⟨rest, rfl⟩⟩

theorem lineSkipped {line : Bytes} (some : line ≠ []) (whole : find crlf line = none) (tail : Bytes) :
    find crlfcrlf (crlf ++ line ++ (crlf ++ tail)) =
      (find crlfcrlf (crlf ++ tail)).map (· + (crlf ++ line).length) := by
  have found : find crlf (line ++ (crlf ++ tail)) = Option.some line.length :=
    findPairAfter (by decide) whole tail
  have positive := List.length_pos_of_ne_nil some
  refine findPast _ fun j before double => ?_
  obtain ⟨here, next⟩ := emptyLine double
  rw [List.drop_drop, List.append_assoc, Nat.add_comm, ← List.drop_drop] at next
  have behind : line.length ≤ j := Nat.not_lt.mp fun early => findFirst found j early next
  simp only [List.length_append, crlf, List.length_cons, List.length_nil] at before
  rcases Nat.lt_or_ge j 2 with front | inside
  · obtain rfl : j = 1 := by omega
    have first := (List.cons_prefix_cons.mp here).1
    contradiction
  · obtain ⟨k, rfl⟩ := Nat.exists_eq_add_of_le inside
    rw [← List.drop_drop, List.append_assoc] at here
    exact findFirst found k (by omega) here

theorem blockFound {content : Bytes} {p : Nat} (found : find crlfcrlf content = some p) :
    block content = if int32 p < 0 then .missing else if intMax < int32 p + 4 then .overlong
      else .header (content.take (int32 p + 4).toNat) := by
  unfold block
  rw [found]

theorem blockHeader {content header : Bytes} (h : block content = .header header) :
    header = content.take header.length ∧ 4 ≤ header.length ∧ header.length ≤ content.length ∧
      header.length ≤ intMax ∧
      ∃ p, find crlfcrlf content = some p ∧ int32 p + 4 = header.length := by
  cases found : find crlfcrlf content with
  | none => simp [block, found] at h
  | some p =>
    rw [blockFound found] at h
    by_cases negative : int32 p < 0
    · simp [negative] at h
    · by_cases tooLong : intMax < int32 p + 4
      · simp [negative, tooLong] at h
      · rw [if_neg negative, if_neg tooLong] at h
        have slice := Block.header.inj h
        have bound := (findOccurs found).2
        have trunc := int32Le p
        simp only [crlfcrlf, List.length_cons, List.length_nil] at bound
        have size : (content.take (int32 p + 4).toNat).length = (int32 p + 4).toNat := by
          rw [List.length_take]; omega
        rw [slice] at size
        rw [size, slice]
        exact ⟨rfl, by omega, by omega, by omega, p, rfl, by omega⟩

theorem blockAppend {content header : Bytes} (h : block content = .header header) (t : Bytes) :
    block (content ++ t) = .header header := by
  obtain ⟨slice, low, inside, small, p, found, size⟩ := blockHeader h
  rw [blockFound (findAppend found t), if_neg (by omega), if_neg (by omega), size,
    Int.toNat_natCast, List.take_append_of_le_length inside, ← slice]

theorem blockOverlongAppend {content : Bytes} (h : block content = .overlong) (t : Bytes) :
    block (content ++ t) = .overlong := by
  cases found : find crlfcrlf content with
  | none => simp [block, found] at h
  | some p =>
    rw [blockFound found] at h
    rw [blockFound (findAppend found t)]
    by_cases negative : int32 p < 0
    · simp [negative] at h
    · by_cases tooLong : intMax < int32 p + 4
      · simp [negative, tooLong]
      · simp [negative, tooLong] at h

theorem foldHeaders {μ : Type} (g : Grammar μ) (fs : List (Bytes × Bytes)) (msg : μ) :
    g.headers (fs.foldl (fun m f => g.field m f.1 f.2) msg) =
      fs.foldl (fun map f => map.insert f.1 f.2) (g.headers msg) ∧
    g.bodyOf (fs.foldl (fun m f => g.field m f.1 f.2) msg) = g.bodyOf msg := by
  induction fs generalizing msg with
  | nil => exact ⟨rfl, rfl⟩
  | cons f fs ih =>
    simp only [List.foldl_cons]
    rw [(ih _).1, (ih _).2, g.fieldHeaders, g.fieldBody]
    exact ⟨rfl, rfl⟩

theorem headAccepted {μ : Type} (g : Grammar μ) (header : Bytes) :
    ((head g header).1 = true ↔ ∃ line, startOf header = some line ∧ Accepts line) ∧
    ((head g header).1 = true → g.headers (head g header).2 = headerMap header) ∧
    g.bodyOf (head g header).2 = [] := by
  unfold head startOf
  cases h : find crlf header with
  | none => simp [g.freshBody]
  | some lineEnd =>
    obtain ⟨out, started, heads, body⟩ := g.starts (header.take lineEnd) g.fresh
    have folded := foldHeaders g (fields header) out
    simp only [started, Option.map_some, Option.some.injEq, exists_eq_left', decide_eq_true_eq,
      true_and]
    constructor
    · intro accepted
      simp only [accepted, if_true, folded.1, heads, g.freshHeaders]
      rfl
    · split
      · rw [folded.2, body, g.freshBody]
      · rw [body, g.freshBody]

theorem parseBodyOutcome {μ : Type} (g : Grammar μ) (buf : ByteBuffer) {header : Bytes} {msg : μ}
    (heads : g.headers msg = headerMap header) :
    parseBody g buf header msg = finish g buf.content header msg := by
  unfold parseBody finish declaredLength
  rw [heads, ← buf.contentLength]
  by_cases huge : stringMaxSize < contentLength (headerMap header)
  · simp only [makeString, if_pos huge, bind, Except.bind]
  · simp only [makeString, if_neg huge, bind, Except.bind]

theorem parseHeaderOutcome {μ : Type} (g : Grammar μ) (buf : ByteBuffer) (header : Bytes) :
    parseHeader g buf header =
      if (head g header).1 then finish g buf.content header (head g header).2
      else .ok ⟨false, (head g header).2, 0⟩ := by
  have heads := (headAccepted g header).2.1
  unfold parseHeader
  unfold head at heads ⊢
  cases h : find crlf header with
  | none => rfl
  | some lineEnd =>
    have bound := (findOccurs h).2
    obtain ⟨out, started, _⟩ := g.starts (header.take lineEnd) g.fresh
    simp only [crlf, List.length_cons, List.length_nil] at bound
    simp only [h, started] at heads
    simp only [substrOk (Nat.zero_le _), List.drop_zero, started, bind, Except.bind]
    by_cases accepted : Accepts (header.take lineEnd)
    · simp only [accepted, decide_true, if_true] at heads ⊢
      rw [headerLoopOk g.field header _ _ _ (by omega)]
      have all : fields header = fieldsOf (header.drop (lineEnd + 2)) := by
        unfold fields
        rw [h]
      rw [all] at heads ⊢
      exact parseBodyOutcome g buf (heads trivial)
    · simp only [accepted, decide_false, Bool.false_eq_true, if_false]

-- The int sum past INT_MAX turns into a size_t no string can have.
theorem headerLenOverlong {buf : ByteBuffer} (h : block buf.content = .overlong) :
    stringMaxSize < headerLen buf ∧ ¬ buf.find crlfcrlf < 0 := by
  have position := buf.findContent crlfcrlfNonempty
  cases found : find crlfcrlf buf.content with
  | none => simp [block, found] at h
  | some p =>
    rw [blockFound found] at h
    simp only [found] at position
    have range := int32Range p
    by_cases negative : int32 p < 0
    · simp [negative] at h
    · by_cases tooLong : intMax < int32 p + 4
      · have wrapped : int32 (int32 p + 4) = int32 p + 4 - 2 ^ 32 :=
          int32Overflow tooLong (by omega)
        have size := sizeTNegative (x := int32 p + 4 - 2 ^ 32)
        unfold headerLen stringMaxSize
        unfold intMax at range
        rw [position, wrapped]
        omega
      · simp [negative, tooLong] at h

theorem findMissing {buf : ByteBuffer} (h : block buf.content = .missing) :
    buf.find crlfcrlf < 0 := by
  have position := buf.findContent crlfcrlfNonempty
  cases found : find crlfcrlf buf.content with
  | none =>
    rw [found] at position
    rw [position]
    decide
  | some p =>
    rw [blockFound found] at h
    simp only [found] at position
    rw [position]
    by_contra positive
    by_cases tooLong : intMax < int32 p + 4 <;> simp [positive, tooLong] at h

theorem headerLenBlock {buf : ByteBuffer} {header : Bytes}
    (h : block buf.content = .header header) :
    headerLen buf = header.length ∧ ¬ buf.find crlfcrlf < 0 := by
  have position := buf.findContent crlfcrlfNonempty
  obtain ⟨_, low, _, small, p, found, size⟩ := blockHeader h
  simp only [found] at position
  have same : int32 (int32 p + 4) = int32 p + 4 := by
    have := (int32Range p).1
    exact int32Small (by omega) (by omega)
  have whole := sizeTNonneg (x := int32 p + 4) (by omega) (by unfold intMax at small; omega)
  unfold headerLen
  rw [position, same]
  omega

theorem headerRead {buf : ByteBuffer} {header : Bytes} (h : block buf.content = .header header) :
    makeString buf.content (headerLen buf) = .ok header := by
  obtain ⟨slice, _, _, small, _⟩ := blockHeader h
  have size := (headerLenBlock h).1
  have fits : headerLen buf ≤ stringMaxSize := by
    unfold stringMaxSize
    unfold intMax at small
    omega
  rw [makeStringOk fits, size, ← slice]

theorem parseOutcome {μ : Type} (g : Grammar μ) (buf : ByteBuffer) :
    parse g buf = outcome g buf.content := by
  cases shape : block buf.content with
  | missing =>
    unfold parse outcome
    rw [if_pos (findMissing shape), shape]
  | overlong =>
    obtain ⟨huge, found⟩ := headerLenOverlong shape
    unfold parse outcome
    rw [if_neg found, makeString, if_pos huge, shape]
    rfl
  | header header =>
    unfold parse outcome
    rw [if_neg (headerLenBlock shape).2, headerRead shape, shape]
    exact parseHeaderOutcome g buf header

end RtspRelay.MessageText
