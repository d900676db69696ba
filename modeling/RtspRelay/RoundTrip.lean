import RtspRelay.PrintedText
import RtspRelay.Protocol

/-! Reading a printed message back. The header map is written in the order the
container has it, between a CSeq and a Content-Length line of the serializer. -/
namespace RtspRelay.RoundTrip
open Machine Buffer ByteSearch MessageText MessageFraming Protocol PrintedText

/-! The fields a list of lines gives: the last line of a name wins. -/

def given (key : Bytes) (fs : List (Bytes × Bytes)) : Option Bytes :=
  fs.foldl (fun old f => if f.1 = key then some f.2 else old) none

theorem givenLast (key : Bytes) (fs : List (Bytes × Bytes)) (f : Bytes × Bytes) :
    given key (fs ++ [f]) = if f.1 = key then some f.2 else given key fs := by
  unfold given
  rw [List.foldl_append]
  rfl

theorem givenAppend (key : Bytes) (fs gs : List (Bytes × Bytes)) :
    given key (fs ++ gs) = (given key gs).or (given key fs) := by
  induction gs using List.reverseRecOn with
  | nil => rw [List.append_nil]; rfl
  | append_singleton gs g ih =>
    rw [← List.append_assoc, givenLast, givenLast, ih]
    split <;> rfl

theorem givenMember {key val : Bytes} {fs : List (Bytes × Bytes)} (h : given key fs = some val) :
    (key, val) ∈ fs := by
  induction fs using List.reverseRecOn with
  | nil => contradiction
  | append_singleton fs f ih =>
    rw [givenLast] at h
    split at h
    · rename_i named
      cases Option.some.inj h
      exact List.mem_append_right _ (by simp [← named])
    · exact List.mem_append_left _ (ih h)

theorem givenAbsent {key : Bytes} {fs : List (Bytes × Bytes)} (h : given key fs = none) (val : Bytes) :
    (key, val) ∉ fs := by
  induction fs using List.reverseRecOn with
  | nil => simp
  | append_singleton fs f ih =>
    rw [givenLast] at h
    split at h
    · contradiction
    · rename_i named
      intro inside
      rcases List.mem_append.mp inside with early | last
      · exact ih h early
      · exact named (congrArg Prod.fst (List.mem_singleton.mp last)).symm

theorem givenInserted (key : Bytes) (fs : List (Bytes × Bytes)) (headers : Headers) :
    (fs.foldl (fun map f => map.insert f.1 f.2) headers).lookup key =
      (given key fs).or (headers.lookup key) := by
  induction fs using List.reverseRecOn with
  | nil => rfl
  | append_singleton fs f ih =>
    rw [List.foldl_append, givenLast]
    split
    · rename_i named
      subst named
      exact AList.lookup_insert _
    · rename_i named
      exact (AList.lookup_insert_ne (Ne.symm named)).trans ih

theorem orderMember (order : HeaderOrder) (headers : Headers) (key val : Bytes) :
    (key, val) ∈ order.list headers ↔ headers.lookup key = some val := by
  rw [(order.permutes headers).mem_iff, List.mem_map]
  constructor
  · rintro ⟨⟨name, text⟩, inside, same⟩
    cases same
    exact AList.mem_lookup_iff.mpr inside
  · exact fun found => ⟨⟨key, val⟩, AList.mem_lookup_iff.mp found, rfl⟩

theorem givenOrder (order : HeaderOrder) (headers : Headers) (key : Bytes) :
    given key (order.list headers) = headers.lookup key := by
  cases found : given key (order.list headers) with
  | some val => exact ((orderMember order headers key val).mp (givenMember found)).symm
  | none =>
    cases there : headers.lookup key with
    | none => rfl
    | some val =>
      exact absurd ((orderMember order headers key val).mpr there) (givenAbsent found val)

theorem fieldsRead (fs : List (Bytes × Bytes)) (msg : RtspMessage) :
    fs.foldl (fun m f => field m f.1 f.2) msg =
      { msg with
        headers := fs.foldl (fun map f => map.insert f.1 f.2) msg.headers
        cseq := (given (ascii "CSeq") fs).elim msg.cseq fun val => (atoi val % 2 ^ 32).toNat
        sessionId := (given (ascii "Session") fs).elim msg.sessionId sessionValue
        transport := (given (ascii "Transport") fs).getD msg.transport } := by
  induction fs using List.reverseRecOn with
  | nil => rfl
  | append_singleton fs f ih =>
    rw [List.foldl_append, List.foldl_append, ih, givenLast, givenLast, givenLast]
    simp only [List.foldl_cons, List.foldl_nil, field]
    split_ifs <;> rfl

/-! Printing as the parser sees it: a start line, the lines of the fields, a body. -/

def startText (m : RtspMessage) : Bytes :=
  if m.type = .request then methodToString m.method ++ ascii " " ++ m.url ++ ascii " " ++ m.version
  else m.version ++ ascii " " ++ decimalInt m.statusCode ++ ascii " " ++ m.reason

def lengthField (m : RtspMessage) : List (Bytes × Bytes) :=
  if m.body = [] then [] else [(ascii "Content-Length", decimal m.body.length)]

def writtenFields (order : HeaderOrder) (m : RtspMessage) : List (Bytes × Bytes) :=
  (ascii "CSeq", decimal m.cseq) :: order.list m.headers ++ lengthField m

def headerBlock (order : HeaderOrder) (m : RtspMessage) : Bytes :=
  startText m ++ closed (writtenFields order m)

structure PrintableKey (key : Bytes) : Prop where
  named : key ≠ []
  text : (58 : UInt8) ∉ key ∧ (13 : UInt8) ∉ key ∧ (10 : UInt8) ∉ key
  notCseq : key ≠ ascii "CSeq"
  notLength : key ≠ ascii "Content-Length"

instance (key : Bytes) : Decidable (PrintableKey key) :=
  decidable_of_iff (key ≠ [] ∧ ((58 : UInt8) ∉ key ∧ (13 : UInt8) ∉ key ∧ (10 : UInt8) ∉ key) ∧
      key ≠ ascii "CSeq" ∧ key ≠ ascii "Content-Length")
    ⟨fun h => ⟨h.1, h.2.1, h.2.2.1, h.2.2.2⟩, fun h => ⟨h.named, h.text, h.notCseq, h.notLength⟩⟩

structure PrintableValue (val : Bytes) : Prop where
  text : (13 : UInt8) ∉ val ∧ (10 : UInt8) ∉ val
  start : val.head? ≠ some 32

instance (val : Bytes) : Decidable (PrintableValue val) :=
  decidable_of_iff (((13 : UInt8) ∉ val ∧ (10 : UInt8) ∉ val) ∧ val.head? ≠ some 32)
    ⟨fun h => ⟨h.1, h.2⟩, fun h => ⟨h.text, h.start⟩⟩

def PrintableStart (m : RtspMessage) : Prop :=
  match m.type with
  | .request => m.method ≠ .none ∧ (32 : UInt8) ∉ m.url ∧ (13 : UInt8) ∉ m.url ∧ (10 : UInt8) ∉ m.url
  | .response => -intMax - 1 ≤ m.statusCode ∧ m.statusCode ≤ intMax ∧
      (13 : UInt8) ∉ m.reason ∧ (10 : UInt8) ∉ m.reason
  | .unknown => False

structure Printable (m : RtspMessage) : Prop where
  start : PrintableStart m
  version : m.version = ascii "RTSP/1.0"
  cseq : m.cseq < 2 ^ 32
  headers : ∀ key val, m.headers.lookup key = some val → PrintableKey key ∧ PrintableValue val

/-! A message whose parts do not run into each other is read back as well: a CR or an LF
alone ends no line. -/

def SeparatedStart (m : RtspMessage) : Prop :=
  match m.type with
  | .request => (32 : UInt8) ∉ m.url ∧ find crlf m.url = none
  | .response => -intMax - 1 ≤ m.statusCode ∧ m.statusCode ≤ intMax ∧ find crlf m.reason = none
  | .unknown => False

structure SeparatedValue (val : Bytes) : Prop where
  whole : find crlf val = none
  start : val.head? ≠ some 32

instance (val : Bytes) : Decidable (SeparatedValue val) :=
  decidable_of_iff (find crlf val = none ∧ val.head? ≠ some 32)
    ⟨fun h => ⟨h.1, h.2⟩, fun h => ⟨h.whole, h.start⟩⟩

structure Separated (m : RtspMessage) : Prop where
  start : SeparatedStart m
  version : m.version = ascii "RTSP/1.0"
  cseq : m.cseq < 2 ^ 32
  headers : ∀ key val, m.headers.lookup key = some val → PrintableKey key ∧ SeparatedValue val

theorem PrintableValue.separated {val : Bytes} (h : PrintableValue val) : SeparatedValue val :=
  ⟨wholeFresh h.text.1, h.start⟩

theorem Printable.separated {m : RtspMessage} (h : Printable m) : Separated m := by
  refine ⟨?_, h.version, h.cseq, fun key val found => ?_⟩
  · have start := h.start
    unfold PrintableStart at start
    unfold SeparatedStart
    cases kind : m.type with
    | unknown => rw [kind] at start; exact start
    | request =>
      rw [kind] at start
      exact ⟨start.2.1, wholeFresh start.2.2.1⟩
    | response =>
      rw [kind] at start
      exact ⟨start.1, start.2.1, wholeFresh start.2.2.1⟩
  · obtain ⟨named, text⟩ := h.headers key val found
    exact ⟨named, text.separated⟩

theorem decimalFresh {b : UInt8} (other : isDigit b = false) (n : Nat) : b ∉ decimal n := by
  intro inside
  rw [decimalDigits n b inside] at other
  contradiction

theorem decimalIntFresh {b : UInt8} (other : isDigit b = false) (minus : b ≠ 45) (i : Int) :
    b ∉ decimalInt i := by
  have digits := decimalFresh other i.natAbs
  unfold decimalInt
  split
  · rw [List.mem_cons, not_or]
    exact ⟨minus, digits⟩
  · exact digits

theorem atoiDecimalInt {i : Int} (low : -intMax - 1 ≤ i) (high : i ≤ intMax) :
    atoi (decimalInt i) = i := by
  have value : strtoll (decimalInt i) = i := by
    unfold intMax at low high
    unfold decimalInt
    split
    · rw [strtollNegative]
      omega
    · rw [strtollDecimal]
      omega
  rw [atoi, value, int32Small low high]

theorem atoiCseq {n : Nat} (small : n < 2 ^ 32) : (atoi (decimal n) % 2 ^ 32).toNat = n := by
  have value : strtoll (decimal n) = n := by
    rw [strtollDecimal]
    omega
  rw [atoi, value, int32Emod]
  omega

theorem methodFresh {b : UInt8} (outside : b = 13 ∨ b = 32) (method : RtspMethod) :
    b ∉ methodToString method := by
  rcases outside with rfl | rfl <;> cases method <;> decide

variable {order : HeaderOrder} {m : RtspMessage}

theorem partsWhole {first second third : Bytes} (whole : find crlf first = none)
    (whole' : find crlf second = none) (whole'' : find crlf third = none) :
    find crlf (first ++ ascii " " ++ second ++ ascii " " ++ third) = none := by
  have line : first ++ ascii " " ++ second ++ ascii " " ++ third =
      first ++ 32 :: (second ++ 32 :: third) := by simp [ascii]
  have later : find crlf (second ++ 32 :: third) = none := by
    rw [findBarrier (by decide) (by decide) whole', whole'']
    rfl
  rw [line, findBarrier (by decide) (by decide) whole, later]
  rfl

theorem headerAbsent (named : ∀ key val, m.headers.lookup key = some val → PrintableKey key) :
    m.headers.lookup (ascii "CSeq") = none ∧ m.headers.lookup (ascii "Content-Length") = none := by
  constructor
  · cases found : m.headers.lookup (ascii "CSeq") with
    | none => rfl
    | some val => exact absurd rfl (named _ _ found).notCseq
  · cases found : m.headers.lookup (ascii "Content-Length") with
    | none => rfl
    | some val => exact absurd rfl (named _ _ found).notLength

theorem Separated.absent (separated : Separated m) :
    m.headers.lookup (ascii "CSeq") = none ∧ m.headers.lookup (ascii "Content-Length") = none :=
  headerAbsent fun key val found => (separated.headers key val found).1

theorem serializeText (noCseq : m.headers.lookup (ascii "CSeq") = none) :
    serialize order m = headerBlock order m ++ m.body := by
  have named : ∀ f ∈ order.list m.headers, Protocol.headerText f = lineText f ++ crlf := by
    intro f inside
    have found := (orderMember order m.headers f.1 f.2).mp inside
    have other : f.1 ≠ ascii "CSeq" := fun same => by
      rw [same, noCseq] at found
      contradiction
    simp only [Protocol.headerText, if_neg other, lineText]
  have lines := List.flatMap_congr named
  have cseq : ascii "CSeq: " = ascii "CSeq" ++ ascii ": " := by decide
  have length : ascii "Content-Length: " = ascii "Content-Length" ++ ascii ": " := by decide
  unfold serialize headerBlock
  rw [closedLines, lines, writtenFields, startText, lengthField, cseq, length]
  by_cases isRequest : m.type = .request <;> by_cases empty : m.body = [] <;>
    simp [isRequest, empty, lineText, List.flatMap_cons, List.flatMap_append]

theorem serializePrinted (separated : Separated m) :
    serialize order m = headerBlock order m ++ m.body := serializeText separated.absent.1

theorem printedFieldText (separated : Separated m) : ∀ f ∈ writtenFields order m, FieldLine f := by
  have number : ∀ key n, key ≠ [] → (58 : UInt8) ∉ key → (13 : UInt8) ∉ key →
      FieldLine (key, decimal n) := by
    intro key n named colon line
    obtain ⟨b, rest, shape, digit⟩ := decimalCons n
    have first : (decimal n).head? ≠ some 32 := by
      rw [shape]
      exact fun same => (digitNot digit).2.2.2.2 (Option.some.inj same)
    have text : FieldText (key, decimal n) := ⟨named, colon, line, decimalFresh (by decide) n, first⟩
    exact fieldLine text
  intro f inside
  rcases List.mem_append.mp inside with early | last
  · rcases List.mem_cons.mp early with rfl | inside
    · exact number _ m.cseq (by decide) (by decide) (by decide)
    · obtain ⟨key, val⟩ :=
        separated.headers f.1 f.2 ((orderMember order m.headers f.1 f.2).mp inside)
      exact ⟨key.named, key.text.1, wholeJoined (wholeFresh key.text.2.1) val.whole, val.start⟩
  · unfold lengthField at last
    split at last
    · contradiction
    · rw [List.mem_singleton.mp last]
      exact number _ m.body.length (by decide) (by decide) (by decide)

theorem startWhole (separated : Separated m) : find crlf (startText m) = none := by
  have start := separated.start
  have method := wholeFresh (methodFresh (.inl rfl) m.method)
  have status := wholeFresh (decimalIntFresh (b := 13) (by decide) (by decide) m.statusCode)
  have version : find crlf (ascii "RTSP/1.0") = none := by decide
  unfold SeparatedStart at start
  unfold startText
  rw [separated.version]
  cases kind : m.type with
  | unknown => rw [kind] at start; exact absurd start id
  | request =>
    rw [kind] at start
    rw [if_pos rfl]
    exact partsWhole method start.2 version
  | response =>
    rw [kind] at start
    rw [if_neg (by decide)]
    exact partsWhole version status start.2.2

theorem threePartsPrinted {first second : Bytes} (fresh : (32 : UInt8) ∉ first)
    (fresh' : (32 : UInt8) ∉ second) (third : Bytes) :
    threeParts (first ++ ascii " " ++ second ++ ascii " " ++ third) = .ok (some (first, second, third)) := by
  have line : first ++ ascii " " ++ second ++ ascii " " ++ third =
      first ++ 32 :: (second ++ 32 :: third) := by simp [ascii]
  have sp1 : find [32] (first ++ 32 :: (second ++ 32 :: third)) = some first.length := by
    rw [findAfter fresh]
    simp [find]
  have sp2 : findFrom [32] (first ++ 32 :: (second ++ 32 :: third)) (first.length + 1) =
      some (second.length + (first.length + 1)) := by
    rw [findFrom, ← List.drop_drop, List.drop_left, List.drop_one, List.tail_cons, findAfter fresh']
    simp [find]
  have size : (first ++ 32 :: (second ++ 32 :: third)).length =
      first.length + 1 + (second.length + 1 + third.length) := by
    simp only [List.length_append, List.length_cons]
    omega
  have middle : ((first ++ 32 :: (second ++ 32 :: third)).drop (first.length + 1)).take
      (second.length + (first.length + 1) - first.length - 1) = second := by
    rw [← List.drop_drop, List.drop_left, List.drop_one, List.tail_cons]
    exact List.take_left' (by omega)
  have last : (first ++ 32 :: (second ++ 32 :: third)).drop (second.length + (first.length + 1) + 1) =
      third := by
    rw [show second.length + (first.length + 1) + 1 = first.length + (1 + (second.length + 1)) by omega,
      ← List.drop_drop, List.drop_left, ← List.drop_drop, List.drop_one, List.tail_cons,
      ← List.drop_drop, List.drop_left, List.drop_one, List.tail_cons]
  rw [line]
  unfold threeParts
  simp only [sp1, sp2, substrOk (Nat.zero_le _), substrOk (show first.length + 1 ≤
    (first ++ 32 :: (second ++ 32 :: third)).length by omega), substrFromOk (show second.length +
    (first.length + 1) + 1 ≤ (first ++ 32 :: (second ++ 32 :: third)).length by omega), middle, last,
    List.drop_zero, List.take_left, bind, Except.bind]

theorem methodNotResponse (method : RtspMethod) (rest : Bytes) :
    (methodToString method ++ rest).take 5 ≠ ascii "RTSP/" := by
  intro same
  have two : 1 < (methodToString method).length := by cases method <;> decide
  have second : (methodToString method)[1]? = some 84 := by
    have byte := congrArg (fun l => l[1]?) same
    rwa [List.getElem?_take_of_lt (by decide), List.getElem?_append_left two] at byte
  revert second
  cases method <;> decide

/-! What a message is read back as, before its fields and its body. -/
def readStart (m : RtspMessage) : RtspMessage :=
  if m.type = .request then
    { type := .request, method := m.method, url := m.url, version := m.version }
  else { type := .response, statusCode := m.statusCode, reason := m.reason, version := m.version }

theorem startReads (separated : Separated m) :
    startLine (startText m) rtspGrammar.fresh = .ok (true, readStart m) := by
  have start := separated.start
  unfold SeparatedStart at start
  unfold startLine
  rw [substrOk (Nat.zero_le _), List.drop_zero]
  cases kind : m.type with
  | unknown => rw [kind] at start; exact absurd start id
  | request =>
    rw [kind] at start
    have text : startText m =
        methodToString m.method ++ ascii " " ++ m.url ++ ascii " " ++ m.version := by
      rw [startText, if_pos kind]
    have parts := threePartsPrinted (methodFresh (.inr rfl) m.method) start.1 m.version
    have other : (startText m).take 5 ≠ ascii "RTSP/" := by
      rw [text, List.append_assoc, List.append_assoc, List.append_assoc]
      exact methodNotResponse m.method _
    rw [← text] at parts
    simp only [bind, Except.bind, if_neg other, parts, parseMethodToString, readStart, if_pos kind]
    rfl
  | response =>
    rw [kind] at start
    have other : m.type ≠ .request := by rw [kind]; decide
    have text : startText m =
        m.version ++ ascii " " ++ decimalInt m.statusCode ++ ascii " " ++ m.reason := by
      rw [startText, if_neg other]
    have version : (32 : UInt8) ∉ m.version := by rw [separated.version]; decide
    have parts := threePartsPrinted version
      (decimalIntFresh (b := 32) (by decide) (by decide) m.statusCode) m.reason
    have first : (startText m).take 5 = ascii "RTSP/" := by
      rw [text, separated.version]
      rfl
    rw [← text] at parts
    simp only [bind, Except.bind, if_pos first, parts, atoiDecimalInt start.1 start.2.1, readStart,
      if_neg other]
    rfl

theorem headReads (separated : Separated m) : head rtspGrammar (headerBlock order m) =
    (true, (writtenFields order m).foldl (fun m f => field m f.1 f.2) (readStart m)) := by
  have started : rtspGrammar.startLine (startText m) rtspGrammar.fresh = .ok (true, readStart m) :=
    startReads separated
  unfold head headerBlock
  rw [printedStart (startWhole separated)]
  dsimp only
  rw [List.take_left, started,
    printedFields (startWhole separated) (printedFieldText separated)]
  rfl

/-! The fields of the written lines. -/

theorem givenWritten (key : Bytes) : given key (writtenFields order m) =
    (given key (lengthField m)).or ((m.headers.lookup key).or
      (if ascii "CSeq" = key then some (decimal m.cseq) else none)) := by
  have first : (ascii "CSeq", decimal m.cseq) :: order.list m.headers =
      [(ascii "CSeq", decimal m.cseq)] ++ order.list m.headers := rfl
  rw [writtenFields, givenAppend, first, givenAppend, givenOrder]
  rfl

theorem givenLength (key : Bytes) : given key (lengthField m) =
    if m.body = [] then none
    else if ascii "Content-Length" = key then some (decimal m.body.length) else none := by
  unfold lengthField
  split <;> rfl

theorem givenOther {key : Bytes} (notCseq : ascii "CSeq" ≠ key) (notLength : ascii "Content-Length" ≠ key) :
    given key (writtenFields order m) = m.headers.lookup key := by
  rw [givenWritten, givenLength, if_neg notCseq, if_neg notLength, ite_self, Option.none_or,
    Option.or_none]

def written (m : RtspMessage) : Headers :=
  let headers := m.headers.insert (ascii "CSeq") (decimal m.cseq)
  if m.body = [] then headers
  else headers.insert (ascii "Content-Length") (decimal m.body.length)

theorem writtenGiven (separated : Separated m) (key : Bytes) :
    given key (writtenFields order m) = (written m).lookup key := by
  obtain ⟨noCseq, noLength⟩ := separated.absent
  have base : (m.headers.lookup key).or (if ascii "CSeq" = key then some (decimal m.cseq) else none) =
      (m.headers.insert (ascii "CSeq") (decimal m.cseq)).lookup key := by
    by_cases cseq : ascii "CSeq" = key
    · subst cseq
      rw [noCseq, if_pos rfl, Option.none_or, AList.lookup_insert]
    · rw [if_neg cseq, Option.or_none, AList.lookup_insert_ne (Ne.symm cseq)]
  rw [givenWritten, givenLength, base]
  unfold written
  by_cases empty : m.body = []
  · rw [if_pos empty, if_pos empty]
    rfl
  · rw [if_neg empty, if_neg empty]
    by_cases length : ascii "Content-Length" = key
    · subst length
      rw [if_pos rfl, Option.some_or, AList.lookup_insert]
    · rw [if_neg length, Option.none_or, AList.lookup_insert_ne (Ne.symm length)]

theorem declaredBody (separated : Separated m) :
    declaredLength (headerBlock order m) = min (2 ^ 63 - 1) m.body.length := by
  have text : ∀ f ∈ writtenFields order m, FieldLine f := printedFieldText separated
  have lines := printedFields (startWhole separated) text
  have length : (headerMap (headerBlock order m)).lookup (ascii "Content-Length") =
      if m.body = [] then none else some (decimal m.body.length) := by
    unfold headerMap headerBlock
    rw [lines, givenInserted, givenWritten, givenLength, separated.absent.2]
    split <;> rfl
  unfold declaredLength contentLength
  rw [length]
  by_cases empty : m.body = []
  · rw [if_pos empty, empty]
    rfl
  · have value := sizeTNonneg (x := min (2 ^ 63 - 1) (m.body.length : Int)) (by omega) (by omega)
    rw [if_neg empty]
    dsimp only
    rw [atoll, strtollDecimal]
    omega

/-! A message read back: the same start line, number and body, the headers and the
two that the serializer adds, and the values the parser takes out of them. -/

def sdpOf (m : RtspMessage) : Bytes :=
  if (m.headers.lookup (ascii "Content-Type")).any (fun ct => (find (ascii "sdp") ct).isSome) then
    m.body
  else []

def readMessage (order : HeaderOrder) (m : RtspMessage) : RtspMessage :=
  { readStart m with
    headers := (writtenFields order m).foldl (fun map f => map.insert f.1 f.2) ∅
    cseq := m.cseq
    sessionId := (m.headers.lookup (ascii "Session")).elim [] sessionValue
    transport := (m.headers.lookup (ascii "Transport")).getD []
    body := m.body
    sdp := sdpOf m }

theorem headersRead (separated : Separated m) (key : Bytes) :
    (readMessage order m).headers.lookup key = (written m).lookup key := by
  have inserted := givenInserted key (writtenFields order m) ∅
  rw [writtenGiven separated, AList.lookup_empty, Option.or_none] at inserted
  exact inserted

theorem readLookup (separated : Separated m) {key : Bytes} (notCseq : ascii "CSeq" ≠ key)
    (notLength : ascii "Content-Length" ≠ key) :
    (readMessage order m).headers.lookup key = m.headers.lookup key := by
  have same : given key (writtenFields order m) = (written m).lookup key := writtenGiven separated key
  rw [headersRead separated, ← same, givenOther notCseq notLength]

theorem fieldsReadBack (separated : Separated m) :
    (writtenFields order m).foldl (fun m f => field m f.1 f.2) (readStart m) =
      { readMessage order m with body := [], sdp := [] } := by
  have cseq : given (ascii "CSeq") (writtenFields order m) = some (decimal m.cseq) := by
    rw [givenWritten, givenLength, separated.absent.1, if_pos rfl]
    split <;> rfl
  have session : given (ascii "Session") (writtenFields order m) = m.headers.lookup (ascii "Session") :=
    givenOther (by decide) (by decide)
  have transport : given (ascii "Transport") (writtenFields order m) =
      m.headers.lookup (ascii "Transport") := givenOther (by decide) (by decide)
  have fresh : (readStart m).headers = ∅ ∧ (readStart m).sessionId = [] ∧
      (readStart m).transport = [] ∧ (readStart m).body = [] ∧ (readStart m).sdp = [] := by
    unfold readStart
    split <;> exact ⟨rfl, rfl, rfl, rfl, rfl⟩
  rw [fieldsRead, cseq, session, transport, fresh.1, fresh.2.1, fresh.2.2.1]
  simp only [Option.elim_some, atoiCseq separated.cseq, readMessage, fresh.2.2.2]

theorem bodyReadBack (separated : Separated m) :
    setBody { readMessage order m with body := [], sdp := [] } m.body = readMessage order m := by
  have type : (readMessage order m).headers.lookup (ascii "Content-Type") =
      m.headers.lookup (ascii "Content-Type") := readLookup separated (by decide) (by decide)
  unfold setBody
  dsimp only
  rw [type]
  cases found : m.headers.lookup (ascii "Content-Type") with
  | none => simp [readMessage, sdpOf, found]
  | some ct =>
    cases contains : (find (ascii "sdp") ct).isSome <;> simp [readMessage, sdpOf, found, contains]

structure ReadBack (order : HeaderOrder) (m : RtspMessage) (out : Parsed RtspMessage) : Prop where
  ok : out.ok = true
  consumed : out.consumed = (serialize order m).length
  type : out.msg.type = m.type
  request : m.type = .request → out.msg.method = m.method ∧ out.msg.url = m.url
  response : m.type = .response → out.msg.statusCode = m.statusCode ∧ out.msg.reason = m.reason
  version : out.msg.version = m.version
  cseq : out.msg.cseq = m.cseq
  body : out.msg.body = m.body
  headers : ∀ key, out.msg.headers.lookup key = (written m).lookup key
  sessionId : out.msg.sessionId = (m.headers.lookup (ascii "Session")).elim [] sessionValue
  transport : out.msg.transport = (m.headers.lookup (ascii "Transport")).getD []
  sdp : out.msg.sdp = sdpOf m

def ReadsBack (order : HeaderOrder) (m : RtspMessage) (buf : ByteBuffer) : Prop :=
  ∃ out, Protocol.parse buf = .ok out ∧ ReadBack order m out

theorem readBackSmall (separated : Separated m) {buf : ByteBuffer} (reads : ReadsBack order m buf) :
    (headerBlock order m).length ≤ intMax ∧ m.body.length ≤ stringMaxSize := by
  obtain ⟨out, parsed, back⟩ := reads
  rw [Protocol.parse, parseOutcome] at parsed
  obtain ⟨header, framed⟩ := outcomeFramed rtspGrammar parsed back.ok
  have small := (blockHeader framed.shape).2.2.2.1
  have fits := framed.representable
  have declared := framed.size
  have size := (framedBody rtspGrammar framed).2
  have body : (rtspGrammar.bodyOf out.msg).length = m.body.length := congrArg List.length back.body
  have whole := back.consumed
  rw [serializePrinted separated, List.length_append] at whole
  omega

theorem smallReads (separated : Separated m) (t : Bytes)
    (small : (headerBlock order m).length ≤ intMax) (fits : m.body.length ≤ stringMaxSize) :
    outcome rtspGrammar (serialize order m ++ t) =
      .ok ⟨true, readMessage order m, (serialize order m).length⟩ := by
  have shape := printedBlock (startWhole separated) (printedFieldText separated) (m.body ++ t) small
  have heads : head rtspGrammar (headerBlock order m) = _ := headReads separated
  have started : Started (headerBlock order m) :=
    (headStarted rtspGrammar _).mp (congrArg Prod.fst heads)
  have declared : declaredLength (headerBlock order m) = m.body.length := by
    have value : declaredLength (headerBlock order m) = _ := declaredBody separated
    unfold stringMaxSize at fits
    omega
  rw [serializePrinted separated, List.append_assoc]
  suffices framed : Framed rtspGrammar (headerBlock order m ++ (m.body ++ t))
      ⟨true, readMessage order m, (headerBlock order m ++ m.body).length⟩ (headerBlock order m) from
    framedOutcome rtspGrammar rfl framed
  refine ⟨shape, started, ?_, ?_, declared ▸ fits, ?_⟩
  · rw [List.length_append, declared]
  · simp only [List.length_append]
    omega
  · rw [declared, heads, List.drop_left, List.take_left, fieldsReadBack separated]
    by_cases empty : m.body = []
    · rw [if_pos (List.length_eq_zero_iff.mpr empty)]
      simp [readMessage, sdpOf, empty]
    · rw [if_neg (fun none => empty (List.length_eq_zero_iff.mp none))]
      exact (bodyReadBack separated).symm

theorem startReadBack (separated : Separated m) : (readStart m).type = m.type ∧
    (m.type = .request → (readStart m).method = m.method ∧ (readStart m).url = m.url) ∧
    (m.type = .response →
      (readStart m).statusCode = m.statusCode ∧ (readStart m).reason = m.reason) ∧
    (readStart m).version = m.version := by
  have start := separated.start
  unfold SeparatedStart at start
  cases kind : m.type with
  | unknown => rw [kind] at start; exact absurd start id
  | request => simp [readStart, kind]
  | response => simp [readStart, kind]

theorem smallReadsBack (separated : Separated m) {t : Bytes} {buf : ByteBuffer}
    (content : buf.content = serialize order m ++ t) (small : (headerBlock order m).length ≤ intMax)
    (fits : m.body.length ≤ stringMaxSize) : ReadsBack order m buf := by
  obtain ⟨type, request, response, version⟩ := startReadBack separated
  refine ⟨⟨true, readMessage order m, (serialize order m).length⟩, ?_, ?_⟩
  · rw [Protocol.parse, parseOutcome, content, smallReads separated t small fits]
  · exact ⟨rfl, rfl, type, request, response, version, rfl, rfl, headersRead separated, rfl, rfl, rfl⟩

theorem readsBackExact (order : HeaderOrder) (m : RtspMessage) (printable : Printable m) (t : Bytes)
    (buf : ByteBuffer) (content : buf.content = serialize order m ++ t) :
    ReadsBack order m buf ↔
      (headerBlock order m).length ≤ intMax ∧ m.body.length ≤ stringMaxSize :=
  ⟨readBackSmall printable.separated, fun h => smallReadsBack printable.separated content h.1 h.2⟩

theorem headersInsert {headers : Headers} {P : Bytes → Bytes → Prop}
    (h : ∀ key val, headers.lookup key = some val → P key val) {name text : Bytes} (new : P name text)
    (other found : Bytes) (there : (headers.insert name text).lookup other = some found) : P other found := by
  by_cases same : other = name
  · subst same
    rw [AList.lookup_insert] at there
    cases Option.some.inj there
    exact new
  · rw [AList.lookup_insert_ne same] at there
    exact h other found there

-- The largest number, a header and a body that looks like the end of a header block.
def answer : RtspMessage :=
  { type := .response, statusCode := -1, reason := ascii "not found", cseq := 4294967295,
    headers := (∅ : Headers).insert (ascii "Session") (ascii "00000001;timeout=60"),
    body := crlfcrlf }

theorem answerReadsBack :
    ReadsBack insertionOrder answer ((ByteBuffer.init 0).append (serialize insertionOrder answer ++ [36])) :=
  (readsBackExact insertionOrder answer
    ⟨⟨by decide, by decide, by decide, by decide⟩, rfl, by decide,
      headersInsert (fun _ _ none => by simp at none) ⟨by decide, by decide⟩⟩
    [36] _ (ByteBuffer.filledContent 0 _)).mpr
    ⟨by decide, by decide⟩

def longRequest (n : Nat) : RtspMessage :=
  { type := .request, method := .options, url := List.replicate n 97, cseq := 1 }

theorem longPrintable (n : Nat) : Printable (longRequest n) := by
  have plain : ∀ b : UInt8, b ≠ 97 → b ∉ List.replicate n (97 : UInt8) :=
    fun b other inside => other (List.eq_of_mem_replicate inside)
  have known : RtspMethod.options ≠ .none := by decide
  have one : 1 < 2 ^ 32 := by decide
  exact ⟨⟨known, plain 32 (by decide), plain 13 (by decide), plain 10 (by decide)⟩, rfl, one,
    fun _ _ none => by simp [longRequest] at none⟩

theorem longUnread {n : Nat} (long : intMax < n) (order : HeaderOrder) (buf : ByteBuffer) :
    ¬ ReadsBack order (longRequest n) buf := by
  intro reads
  have small := (readBackSmall (longPrintable n).separated reads).1
  have url : n ≤ (headerBlock order (longRequest n)).length := by
    have size : (longRequest n).url.length = n := List.length_replicate
    simp only [headerBlock, startText, longRequest, if_true, List.length_append] at size ⊢
    omega
  omega

theorem longUrlUnread : ¬ ∀ (order : HeaderOrder) (m : RtspMessage), Printable m →
    ∀ (t : Bytes) (buf : ByteBuffer), buf.content = serialize order m ++ t → ReadsBack order m buf := by
  intro always
  have long : intMax < (2147483648 : Nat) := by decide
  refine longUnread long insertionOrder _ (always insertionOrder _ (longPrintable _) []
    ((ByteBuffer.init 0).append (serialize insertionOrder (longRequest 2147483648))) ?_)
  rw [ByteBuffer.filledContent, List.append_nil]

end RtspRelay.RoundTrip
