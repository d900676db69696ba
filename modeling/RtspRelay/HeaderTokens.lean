import RtspRelay.General.WhileLoop
import RtspRelay.HttpMessage
import RtspRelay.RoundTrip

/-! The header loop of both parsers against the lines of the header: the loop goes by
absolute positions in a copy of the header block, its specification by the pieces
between the line ends in front of the first empty line. -/
namespace RtspRelay.HeaderTokens
open Machine Buffer ByteSearch MessageText WhileLoop
open Protocol (rtspGrammar)
open HttpMessage (httpGrammar)
open PrintedText
open RoundTrip (given givenAppend givenInserted)

def lines (text : Bytes) : List Bytes := splitPair 13 10 text

def firstLine (text : Bytes) : Bytes := (lines text).headD []

def tokens (lines : List Bytes) : List (Bytes × Bytes) := lines.filterMap splitField

-- What the header in front of the first empty line maps a key to.
def tokenMap (text key : Bytes) : Option Bytes := given key (tokens (lines text).tail)

section
variable {μ : Type}

-- One turn of the loop at a position, with the message built so far.
def headerTurn (field : μ → Bytes → Bytes → μ) (header : Bytes) (s : Nat × μ) :
    Except Exn (Option (Nat × μ)) :=
  if s.1 < header.length - 2 then
    match findFrom crlf header s.1 with
    | none => .ok none
    | some nextLine =>
      if nextLine = s.1 then .ok none
      else do
        let line ← substr header s.1 (nextLine - s.1)
        let msg ← headerLine field s.2 line
        .ok (some (nextLine + 2, msg))
  else .ok none

-- The loop starts: the header is read and its first line accepted.
structure LoopStart (g : Grammar μ) (buf : ByteBuffer) (header : Bytes) (pos : Nat) (msg : μ) : Prop where
  found : ¬ buf.find crlfcrlf < 0
  read : makeString buf.content (headerLen buf) = .ok header
  accepted : ∃ lineEnd line, find crlf header = some lineEnd ∧ substr header 0 lineEnd = .ok line ∧
    g.startLine line g.fresh = .ok (true, msg) ∧ pos = lineEnd + 2

-- The loop starts and ends, and the parser goes on with the message it has built.
structure LoopRuns (g : Grammar μ) (buf : ByteBuffer) (header : Bytes) (built : μ) : Prop where
  ends : ∃ pos msg last, LoopStart g buf header pos msg ∧
    Ends (headerTurn g.field header) (pos, msg) (.ok (last, built))
  goesOn : parse g buf = parseBody g buf header built

structure Tokenises (g : Grammar μ) (buf : ByteBuffer) (text : Bytes) : Prop where
  ends : ∀ header pos msg, LoopStart g buf header pos msg →
    ∃ out, Ends (headerTurn g.field header) (pos, msg) (.ok out)
  map : Accepts (firstLine text) → ∃ header built, LoopRuns g buf header built ∧
    ∀ key, (g.headers built).lookup key = tokenMap text key
end

structure Tokenised (buf : ByteBuffer) (text : Bytes) : Prop where
  rtsp : Tokenises rtspGrammar buf text
  http : Tokenises httpGrammar buf text

/-! A header whose length does not fit an int is cut: the lines that end within the
first `n` bytes are left, the others are lost. -/

def kept (n : Nat) (text : Bytes) : List Bytes := (lines (text.take n)).dropLast

def lost (n : Nat) (text : Bytes) : List Bytes := (lines text).drop (kept n text).length

structure CutHarmless (n : Nat) (text : Bytes) : Prop where
  first : kept n text ≠ []
  repeats : ∀ key val, given key (tokens (lost n text)) = some val →
    given key (tokens (kept n text).tail) = some val

def Tokenisable (text : Bytes) : Prop :=
  ¬ Accepts (firstLine text) ∨ (text.length : Int) + 4 ≤ intMax ∨
    (0 ≤ int32 text.length ∧ int32 text.length + 4 ≤ intMax ∧
      CutHarmless (int32 text.length + 4).toNat text)

/-! The loop ends, with the fields of the lines from its position on. -/
section
variable {μ : Type} (field : μ → Bytes → Bytes → μ) (header : Bytes)

theorem loopTurns (fuel pos : Nat) (msg : μ) :
    headerLoop field header fuel pos msg = (runFor (headerTurn field header) fuel (pos, msg)).map Prod.snd := by
  induction fuel generalizing pos msg with
  | zero => rfl
  | succ fuel ih =>
    simp only [headerLoop, runFor, headerTurn]
    split
    · cases findFrom crlf header pos with
      | none => rfl
      | some nextLine =>
        by_cases empty : nextLine = pos
        · simp only [if_pos empty]
          rfl
        · simp only [if_neg empty, bind, Except.bind]
          cases substr header pos (nextLine - pos) with
          | error fault => rfl
          | ok line =>
            simp only [headerLineOk]
            exact ih _ _
    · rfl

theorem turnLine {pos i : Nat} (inside : pos < header.length - 2)
    (found : findFrom crlf header pos = some (i + pos)) (later : i ≠ 0) (msg : μ) :
    headerTurn field header (pos, msg) = .ok (some (i + pos + 2,
      (splitField ((header.drop pos).take i)).elim msg (fun f => field msg f.1 f.2))) := by
  have line : substr header pos (i + pos - pos) = .ok ((header.drop pos).take i) := by
    rw [substrOk (by omega), Nat.add_sub_cancel]
  have moved : ¬ i + pos = pos := by omega
  simp only [headerTurn, if_pos inside, found, if_neg moved, line, headerLineOk, bind, Except.bind]

theorem turnLowers (s : Nat × μ) : headerTurn field header s = .ok none ∨
    ∃ s', headerTurn field header s = .ok (some s') ∧ header.length - s'.1 < header.length - s.1 := by
  by_cases inside : s.1 < header.length - 2
  · cases found : findFrom crlf header s.1 with
    | none => exact .inl (by simp only [headerTurn, if_pos inside, found])
    | some nextLine =>
      obtain ⟨i, -, rfl⟩ := Option.map_eq_some_iff.mp found
      by_cases empty : i = 0
      · exact .inl (by simp only [headerTurn, if_pos inside, found, empty, Nat.zero_add, if_true])
      · exact .inr ⟨_, turnLine field header inside found empty s.2, by omega⟩
  · exact .inl (if_neg inside)

theorem loopEnds (pos : Nat) (msg : μ) : ∃ last, Ends (headerTurn field header) (pos, msg)
    (.ok (last, (fieldsOf (header.drop pos)).foldl (fun m f => field m f.1 f.2) msg)) := by
  have lowers : ∀ s : Nat × μ, True → headerTurn field header s = .ok none ∨
      ∃ s', headerTurn field header s = .ok (some s') ∧ True ∧ header.length - s'.1 < header.length - s.1 :=
    fun s _ => (turnLowers field header s).imp_right fun ⟨s', goes, less⟩ => ⟨s', goes, trivial, less⟩
  obtain ⟨⟨last, built⟩, ran, ends⟩ := endsMeasure lowers (n := header.length) (s := (pos, msg)) trivial
    (Nat.sub_le _ _)
  have value := loopTurns field header header.length pos msg
  rw [headerLoopOk field header _ _ _ (Nat.le_add_left _ _), ran] at value
  cases Except.ok.inj value
  exact ⟨last, ends⟩
end

/-! What the parser does with the block it reads, without positions. -/
section
variable {μ : Type} (g : Grammar μ) {buf : ByteBuffer} {header : Bytes}

theorem startBlock {pos : Nat} {msg : μ} (start : LoopStart g buf header pos msg) :
    block buf.content = .header header := by
  obtain ⟨found, read, -⟩ := start
  cases shape : block buf.content with
  | missing => exact absurd (findMissing shape) found
  | overlong =>
    rw [makeString, if_pos (headerLenOverlong shape).1] at read
    contradiction
  | header header' =>
    rw [headerRead shape] at read
    rw [Except.ok.inj read]

theorem blockStart (shape : block buf.content = .header header) {line : Bytes}
    (first : startOf header = some line) (accepts : Accepts line) :
    ∃ pos msg, LoopStart g buf header pos msg := by
  obtain ⟨lineEnd, ends, rfl⟩ := Option.map_eq_some_iff.mp first
  obtain ⟨out, started, -⟩ := g.starts (header.take lineEnd) g.fresh
  rw [decide_eq_true accepts] at started
  exact ⟨lineEnd + 2, out, (headerLenBlock shape).2, headerRead shape, lineEnd, _, ends,
    substrOk (Nat.zero_le _) _, started, rfl⟩

theorem startRuns {pos : Nat} {msg : μ} (start : LoopStart g buf header pos msg) :
    ∃ last built, Ends (headerTurn g.field header) (pos, msg) (.ok (last, built)) ∧
      g.headers built = headerMap header ∧ parse g buf = parseBody g buf header built := by
  obtain ⟨last, ends⟩ := loopEnds g.field header pos msg
  refine ⟨last, _, ends, ?_⟩
  obtain ⟨found, read, lineEnd, line, first, text, started, rfl⟩ := start
  have bound := (findOccurs first).2
  simp only [crlf, List.length_cons, List.length_nil] at bound
  constructor
  · obtain ⟨out, again, heads, -⟩ := g.starts line g.fresh
    rw [started] at again
    obtain ⟨-, rfl⟩ := Prod.mk.inj (Except.ok.inj again)
    have all : fields header = fieldsOf (header.drop (lineEnd + 2)) := by
      unfold fields
      rw [first]
    rw [(foldHeaders g _ _).1, heads, g.freshHeaders, ← all]
    rfl
  · unfold parse parseHeader
    rw [if_neg found]
    simp only [read, first, text, started, bind, Except.bind, if_true,
      headerLoopOk g.field header header.length (lineEnd + 2) msg (by omega)]

theorem runsBlock {built : μ} (runs : LoopRuns g buf header built) :
    block buf.content = .header header ∧ (∃ line, startOf header = some line ∧ Accepts line) ∧
      g.headers built = headerMap header := by
  obtain ⟨pos, msg, last, start, ends⟩ := runs.ends
  obtain ⟨last', built', ends', heads, -⟩ := startRuns g start
  cases Except.ok.inj (endsUnique ends ends')
  refine ⟨startBlock g start, ?_, heads⟩
  obtain ⟨-, -, lineEnd, line, first, text, started, -⟩ := start
  obtain ⟨out, again, -⟩ := g.starts line g.fresh
  rw [started] at again
  have accepts := congrArg Prod.fst (Except.ok.inj again)
  rw [substrOk (Nat.zero_le _)] at text
  cases Except.ok.inj text
  exact ⟨_, by rw [startOf, first]; rfl, of_decide_eq_true accepts.symm⟩

theorem blockRuns (shape : block buf.content = .header header) {line : Bytes}
    (first : startOf header = some line) (accepts : Accepts line) :
    ∃ built, LoopRuns g buf header built ∧ g.headers built = headerMap header := by
  obtain ⟨pos, msg, start⟩ := blockStart g shape first accepts
  obtain ⟨last, built, ends, heads, goesOn⟩ := startRuns g start
  exact ⟨built, ⟨⟨pos, msg, last, start, ends⟩, goesOn⟩, heads⟩

theorem mapGiven (header key : Bytes) : (headerMap header).lookup key = given key (fields header) := by
  rw [headerMap, givenInserted]
  exact Option.or_none

theorem tokenisesBlock (text : Bytes) : Tokenises g buf text ↔ (Accepts (firstLine text) →
    ∃ header line, block buf.content = .header header ∧ startOf header = some line ∧ Accepts line ∧
      ∀ key, given key (fields header) = tokenMap text key) := by
  constructor
  · intro tokenises accepts
    obtain ⟨header, built, runs, same⟩ := tokenises.map accepts
    obtain ⟨shape, ⟨line, first, accepted⟩, heads⟩ := runsBlock g runs
    refine ⟨header, line, shape, first, accepted, fun key => ?_⟩
    rw [← mapGiven, ← heads, same]
  · intro reads
    refine ⟨fun header pos msg start => ?_, fun accepts => ?_⟩
    · obtain ⟨last, built, ends, -⟩ := startRuns g start
      exact ⟨_, ends⟩
    · obtain ⟨header, line, shape, first, accepted, same⟩ := reads accepts
      obtain ⟨built, runs, heads⟩ := blockRuns g shape first accepted
      refine ⟨header, built, runs, fun key => ?_⟩
      rw [heads, mapGiven, same]
end

/-! The start line and the fields of a header as pieces between its line ends. -/

theorem startLines (header : Bytes) : startOf header = (lines header).dropLast.head? := by
  unfold startOf lines
  cases found : find crlf header with
  | none => rw [splitPairNone 13 10 found]; rfl
  | some i =>
    rw [splitPairEnded 13 10 found]
    rfl

theorem fieldLines (header : Bytes) :
    fields header = tokens ((lines header).dropLast.tail.takeWhile (fun line => !line.isEmpty)) := by
  unfold fields lines
  cases found : find crlf header with
  | none => rw [splitPairNone 13 10 found]; rfl
  | some i =>
    rw [splitPairEnded 13 10 found]
    rfl

theorem filledWhile {ls : List Bytes} (filled : [] ∉ ls) :
    ls.takeWhile (fun line => !line.isEmpty) = ls ∧
      (ls ++ [[]]).takeWhile (fun line => !line.isEmpty) = ls := by
  have all : ∀ line ∈ ls, (!line.isEmpty) = true := fun line inside => by
    cases line with
    | nil => exact absurd inside filled
    | cons => rfl
  constructor
  · exact List.takeWhile_eq_self_iff.mpr all
  · rw [List.takeWhile_append_of_pos all]
    exact List.append_nil ls

theorem linesSome (text : Bytes) : (lines text).head? = some (firstLine text) := by
  unfold firstLine
  cases shape : lines text with
  | nil => exact absurd shape (splitPairNonempty 13 10 text)
  | cons => rfl

section
variable {content : Bytes} {p : Nat} (found : find crlfcrlf content = some p)
include found

theorem linesFilled : [] ∉ (lines (content.take p)).tail := by
  obtain ⟨⟨tail, same⟩, bound⟩ := findOccurs found
  have front : content.take p ++ crlf = content.take (p + 2) := by
    rw [List.take_add, ← same]
    rfl
  have single : find crlfcrlf (content.take p ++ crlf) = none := by
    rw [front]
    exact findCut found (Nat.add_lt_add_left (by decide) p)
  exact piecesFilled 13 10 single

theorem wholeHeader : startOf (content.take (p + 4)) = some (firstLine (content.take p)) ∧
    fields (content.take (p + 4)) = tokens (lines (content.take p)).tail := by
  obtain ⟨⟨tail, same⟩, bound⟩ := findOccurs found
  have block : content.take (p + 4) = content.take p ++ 13 :: 10 :: crlf := by
    rw [List.take_add, ← same]
    rfl
  have pieces : (lines (content.take (p + 4))).dropLast = lines (content.take p) ++ [[]] := by
    rw [lines, block, splitPairAppend 13 10 (by decide)]
    exact List.dropLast_append_cons
  have some : lines (content.take p) ≠ [] := splitPairNonempty 13 10 _
  constructor
  · rw [startLines, pieces, List.head?_append_of_ne_nil _ some, linesSome]
  · rw [fieldLines, pieces, List.tail_append_of_ne_nil some, (filledWhile (linesFilled found)).2]
end

theorem keptLost (n : Nat) (text : Bytes) : kept n text ++ lost n text = lines text := by
  have front : kept n text <+: lines text := by
    have front := splitPairPrefix 13 10 (text.take n) (text.drop n)
    rwa [List.take_append_drop] at front
  rw [lost]
  nth_rewrite 1 [List.prefix_iff_eq_take.mp front]
  exact List.take_append_drop _ _

theorem cutHeader {content : Bytes} {p n : Nat} (found : find crlfcrlf content = some p) (short : n ≤ p) :
    startOf (content.take n) = (kept n (content.take p)).head? ∧
      fields (content.take n) = tokens (kept n (content.take p)).tail := by
  have cut : (content.take p).take n = content.take n := by
    rw [List.take_take, Nat.min_eq_left short]
  have pieces : (lines (content.take n)).dropLast = kept n (content.take p) := by
    rw [kept, cut]
  have filled : [] ∉ (kept n (content.take p)).tail := fun inside => by
    refine linesFilled found ?_
    rw [← keptLost n]
    cases shape : kept n (content.take p) with
    | nil =>
      rw [shape] at inside
      contradiction
    | cons line rest =>
      rw [shape] at inside
      exact List.mem_append_left _ inside
  exact ⟨by rw [startLines, pieces], by rw [fieldLines, pieces, (filledWhile filled).1]⟩

/-! Where the cut header gives every key what the whole one gives it. -/

theorem tokenMapCut {n : Nat} {text : Bytes} (first : kept n text ≠ []) (key : Bytes) :
    tokenMap text key = (given key (tokens (lost n text))).or (given key (tokens (kept n text).tail)) := by
  rw [tokenMap, ← keptLost n text, List.tail_append_of_ne_nil first, tokens, List.filterMap_append]
  exact givenAppend key _ _

theorem cutRepeats {n : Nat} {text : Bytes} (first : kept n text ≠ []) :
    (∀ key, given key (tokens (kept n text).tail) = tokenMap text key) ↔
      ∀ key val, given key (tokens (lost n text)) = some val →
        given key (tokens (kept n text).tail) = some val := by
  constructor
  · intro same key val later
    rw [same, tokenMapCut first, later]
    rfl
  · intro repeats key
    rw [tokenMapCut first]
    cases later : given key (tokens (lost n text)) with
    | none => rfl
    | some val => exact repeats key val later

theorem firstKept {n : Nat} {text : Bytes} (first : kept n text ≠ []) :
    (kept n text).head? = some (firstLine text) := by
  rw [← linesSome, ← keptLost n text, List.head?_append_of_ne_nil _ first]

theorem cutTokens {content : Bytes} {p n : Nat} (found : find crlfcrlf content = some p) (short : n ≤ p)
    (accepts : Accepts (firstLine (content.take p))) :
    (∃ line, startOf (content.take n) = some line ∧ Accepts line ∧
      ∀ key, given key (fields (content.take n)) = tokenMap (content.take p) key) ↔
    CutHarmless n (content.take p) := by
  obtain ⟨starts, names⟩ := cutHeader found short
  rw [starts, names]
  constructor
  · rintro ⟨line, first, -, same⟩
    have some : kept n (content.take p) ≠ [] := fun none => by
      rw [none] at first
      contradiction
    exact ⟨some, (cutRepeats some).mp same⟩
  · rintro ⟨some, repeats⟩
    exact ⟨_, firstKept some, accepts, (cutRepeats some).mpr repeats⟩

theorem blockCounted {content : Bytes} {p : Nat} (found : find crlfcrlf content = some p) (header : Bytes) :
    block content = .header header ↔ 0 ≤ int32 p ∧ int32 p + 4 ≤ intMax ∧
      content.take (int32 p + 4).toNat = header := by
  rw [blockFound found]
  by_cases negative : int32 p < 0
  · simp [negative, Int.not_le.mpr negative]
  · by_cases long : intMax < int32 p + 4
    · simp [negative, long, Int.not_le.mpr long]
    · simp [negative, long, Int.not_lt.mp negative, Int.not_lt.mp long]

theorem cutShort {p : Nat} (uncounted : ¬ (p : Int) + 4 ≤ intMax) (fits : int32 p + 4 ≤ intMax) :
    (int32 p + 4).toNat ≤ p := by
  have below := int32Le p
  have far : ¬ (p : Int) - int32 p < 2 ^ 32 := fun near => by
    rw [int32Near below near] at fits
    exact uncounted fits
  omega

theorem tokenisesExact {μ : Type} (g : Grammar μ) {buf : ByteBuffer} {p : Nat}
    (found : find crlfcrlf buf.content = some p) :
    Tokenises g buf (buf.content.take p) ↔ Tokenisable (buf.content.take p) := by
  have bound := (findOccurs found).2
  have size : (buf.content.take p).length = p := by
    rw [List.length_take]
    omega
  rw [tokenisesBlock, Tokenisable, size]
  by_cases accepts : Accepts (firstLine (buf.content.take p))
  · simp only [accepts, true_implies, not_true, false_or, blockCounted found]
    by_cases counted : (p : Int) + 4 ≤ intMax
    · have same : int32 p = p := int32Small (by unfold intMax; omega) (by omega)
      obtain ⟨first, names⟩ := wholeHeader found
      refine iff_of_true ⟨_, _, ⟨by omega, by omega, rfl⟩, ?_, accepts, fun key => ?_⟩ (.inl counted)
      · rw [same]
        exact first
      · rw [same, tokenMap, ← names]
        rfl
    · constructor
      · rintro ⟨header, line, ⟨low, fits, rfl⟩, cut⟩
        exact .inr ⟨low, fits, (cutTokens found (cutShort counted fits) accepts).mp ⟨line, cut⟩⟩
      · rintro (small | ⟨low, fits, harmless⟩)
        · exact absurd small counted
        · obtain ⟨line, cut⟩ := (cutTokens found (cutShort counted fits) accepts).mpr harmless
          exact ⟨_, line, ⟨low, fits, rfl⟩, cut⟩
  · exact iff_of_true (fun taken => absurd taken accepts) (.inl accepts)

theorem tokenisedExact {buf : ByteBuffer} {p : Nat} (found : find crlfcrlf buf.content = some p) :
    Tokenised buf (buf.content.take p) ↔ Tokenisable (buf.content.take p) := by
  have rtsp := tokenisesExact rtspGrammar found
  have http := tokenisesExact httpGrammar found
  exact ⟨fun both => rtsp.mp both.rtsp, fun condition => ⟨rtsp.mpr condition, http.mpr condition⟩⟩

def namedTwice : Bytes := ascii "GET / HTTP/1.1\r\nA: 1\r\nB\r\nA:  2"

theorem namedTwiceTokenised : Tokenised ((ByteBuffer.init 0).append (namedTwice ++ crlfcrlf)) namedTwice := by
  have content : ((ByteBuffer.init 0).append (namedTwice ++ crlfcrlf)).content = namedTwice ++ crlfcrlf :=
    ByteBuffer.filledContent 0 _
  have found : find crlfcrlf ((ByteBuffer.init 0).append (namedTwice ++ crlfcrlf)).content = some 30 := by
    rw [content]
    decide
  have text : ((ByteBuffer.init 0).append (namedTwice ++ crlfcrlf)).content.take 30 = namedTwice := by
    rw [content]
    decide
  rw [← text]
  refine (tokenisedExact found).mpr (.inr (.inl ?_))
  rw [text]
  decide

/-! A header of more than 2^32 bytes that is cut within its only field. -/

def requestLine : Bytes := ascii "OPTIONS * RTSP/1.0"

def longField (n : Nat) : Bytes × Bytes := (ascii "A", List.replicate n 120)

def longHeader (n : Nat) : Bytes := requestLine ++ crlf ++ lineText (longField n)

theorem longFieldLine (n : Nat) : FieldLine (longField n) := by
  have fresh : (13 : UInt8) ∉ (longField n).2 := fun inside =>
    absurd (List.eq_of_mem_replicate inside) (by decide)
  refine ⟨List.cons_ne_nil _ _, by simp [longField, ascii], wholeJoined (by decide) (wholeFresh fresh), ?_⟩
  cases n with
  | zero => exact fun none => by contradiction
  | succ n => exact fun blank => absurd (Option.some.inj blank) (by decide)

theorem longFound (n : Nat) : find crlfcrlf (longHeader n ++ crlfcrlf) = some (n + 23) := by
  have line : find crlf requestLine = none := by decide
  have shape : longHeader n ++ crlfcrlf = requestLine ++ closed [longField n] ++ [] := by
    simp only [longHeader, closed, List.append_assoc, List.append_nil]
  rw [shape, printedEnd line (List.forall_mem_singleton.mpr (longFieldLine n))]
  simp [requestLine, closed, lineText, longField, ascii, crlf, crlfcrlf]

theorem longLines (n m : Nat) :
    lines ((longHeader n).take (20 + m)) = [requestLine, (lineText (longField n)).take m] := by
  have cut : (longHeader n).take (20 + m) = requestLine ++ 13 :: 10 :: (lineText (longField n)).take m := by
    rw [longHeader, List.take_add, List.take_left' (by decide), List.drop_left' (by decide), List.append_assoc]
    rfl
  have whole : find crlf ((lineText (longField n)).take m) = none :=
    findTakeNone (longFieldLine n).whole m
  rw [lines, cut, splitPairAppend 13 10 (by decide), splitPairNone 13 10 whole, splitPairNone 13 10 (by decide)]
  rfl

theorem longSize (n : Nat) : (longHeader n).length = n + 23 := by
  simp [longHeader, requestLine, lineText, longField, ascii, crlf]

theorem longWhole (n : Nat) : lines (longHeader n) = [requestLine, lineText (longField n)] := by
  have size : (longHeader n).length = 20 + (lineText (longField n)).length := by
    rw [longHeader, List.length_append]
    rfl
  have whole := longLines n (lineText (longField n)).length
  rwa [← size, List.take_length, List.take_length] at whole

theorem longLost (n m : Nat) : ¬ CutHarmless (20 + m) (longHeader n) := by
  have front : kept (20 + m) (longHeader n) = [requestLine] := by
    rw [kept, longLines]
    rfl
  have behind : tokens (lost (20 + m) (longHeader n)) = [longField n] := by
    rw [lost, front, longWhole]
    simp only [tokens, List.length_singleton, List.drop_succ_cons, List.drop_zero, List.filterMap_cons,
      lineSplits (longFieldLine n), List.filterMap_nil]
  rintro ⟨-, repeats⟩
  have given := repeats (ascii "A") (List.replicate n 120) (by rw [behind]; rfl)
  rw [front] at given
  contradiction

theorem longUntokenisable (k : Nat) : ¬ Tokenisable (longHeader (2 ^ 32 * (k + 1))) := by
  have wraps : int32 (2 ^ 32 * (k + 1) + 23 : Nat) = 23 := by
    have small : int32 (23 + 2 ^ 32 * (k + 1)) = int32 23 := int32Wraps 23 (k + 1)
    have same : ((2 ^ 32 * (k + 1) + 23 : Nat) : Int) = 23 + 2 ^ 32 * (k + 1) := by
      push_cast
      omega
    rw [same, small]
    decide
  have accepts : Accepts (firstLine (longHeader (2 ^ 32 * (k + 1)))) := by
    rw [firstLine, longWhole]
    exact (by decide : Accepts requestLine)
  rintro (refused | counted | ⟨-, -, harmless⟩)
  · exact refused accepts
  · rw [longSize] at counted
    unfold intMax at counted
    omega
  · rw [longSize, wraps] at harmless
    exact longLost _ 7 harmless

theorem longUntokenised : ¬ ∀ (buf : ByteBuffer) (p : Nat), find crlfcrlf buf.content = some p →
    Tokenised buf (buf.content.take p) := by
  intro always
  have content : ((ByteBuffer.init 0).append (longHeader (2 ^ 32 * 1) ++ crlfcrlf)).content =
      longHeader (2 ^ 32 * 1) ++ crlfcrlf := ByteBuffer.filledContent 0 _
  have found := longFound (2 ^ 32 * 1)
  rw [← content] at found
  have tokenisable := (tokenisesExact rtspGrammar found).mp (always _ _ found).rtsp
  rw [content, ← longSize, List.take_left] at tokenisable
  exact longUntokenisable 0 tokenisable

end RtspRelay.HeaderTokens
