import RtspRelay.Decoders

/-! What a parser that returns false is waiting for. A malformed start line and
a length no string can have are reported like missing bytes, and the loops wait
for bytes that change nothing. -/
namespace RtspRelay.Completion
open Machine Buffer ByteSearch MessageText MessageFraming Decoders StreamDecoder
open Protocol (rtspGrammar)
open HttpMessage (httpGrammar)

-- Length of the shortest first line, line end included, that the parsers accept
-- and that a buffer without a line end can still become.
def shortestStart (content : Bytes) : Nat :=
  content.length + (2 - content.count 32) +
    (if Accepts content ∧ content.getLast? = some 13 then 1 else 2)

def Startable (content : Bytes) : Prop :=
  match find crlf content with
  | some i => Accepts (content.take i) ∧ (i + 2 : Nat) ≤ intMax
  | none => shortestStart content ≤ intMax
instance (content) : Decidable (Startable content) := by unfold Startable; split <;> infer_instance

def Malformed (content : Bytes) : Prop :=
  match block content with
  | .missing => (find crlfcrlf content).isSome = true ∨ ¬ Startable content
  | .overlong => False
  | .header header => ¬ Started header ∨ (stringMaxSize < declaredLength header ∧
      content.length < (header.length + declaredLength header) % 2 ^ 64)

instance (content) : Decidable (Malformed content) := by
  unfold Malformed
  exact match block content with
    | .missing => instDecidableOr
    | .overlong => instDecidableFalse
    | .header _ => instDecidableOr

structure Complete (content header : Bytes) : Prop where
  shape : block content = .header header
  started : Started header
  fits : declaredLength header ≤ stringMaxSize
  enough : header.length + declaredLength header ≤ content.length

section
variable {μ : Type} (g : Grammar μ)

def Waits (buf : ByteBuffer) : Prop := ∃ out, MessageText.parse g buf = .ok out ∧ out.ok = false

def Recovers (buf : ByteBuffer) : Prop :=
  ∃ t out, MessageText.parse g (buf.append t) = .ok out ∧ out.ok = true

theorem completeExact {content : Bytes} :
    (∃ out, outcome g content = .ok out ∧ out.ok = true) ↔ ∃ header, Complete content header := by
  constructor
  · rintro ⟨out, parsed, ok⟩
    obtain ⟨header, framed⟩ := outcomeFramed g parsed ok
    exact ⟨header, framed.shape, framed.started, framed.representable, framed.size ▸ framed.buffered⟩
  · rintro ⟨header, complete⟩
    exact ⟨⟨true, _, _⟩, framedOutcome g rfl
      ⟨complete.shape, complete.started, rfl, complete.enough, complete.fits, rfl⟩, rfl⟩

theorem recoversExact (buf : ByteBuffer) :
    Recovers g buf ↔ ∃ t header, Complete (buf.content ++ t) header := by
  unfold Recovers
  refine exists_congr fun t => ?_
  rw [parseOutcome, ByteBuffer.appendContent]
  exact completeExact g

theorem waitsExact (buf : ByteBuffer) :
    Waits g buf ↔ ¬ Hostile buf.content ∧ ¬ ∃ header, Complete buf.content header := by
  rw [← completeExact g, Waits, parseOutcome]
  cases result : outcome g buf.content with
  | error e =>
    have hostile := ((outcomeError g).mp result).2
    simp [hostile]
  | ok out =>
    have harmless : ¬ Hostile buf.content := by
      intro hostile
      rw [(outcomeError g).mpr ⟨rfl, hostile⟩] at result
      contradiction
    simp [harmless]
end

/-! The first lines that a buffer can come to have. -/
structure FirstLine (content line : Bytes) : Prop where
  accepted : Accepts line
  ended : find crlf (line ++ crlf) = some line.length
  small : (line.length + 2 : Nat) ≤ intMax
  agrees : content <+: line ++ crlf ∨ line ++ crlf <+: content

theorem lineTaken {s : Bytes} {i : Nat} (found : find crlf s = some i) :
    s.take i ++ crlf = s.take (i + 2) ∧ find crlf (s.take i ++ crlf) = some (s.take i).length := by
  have bound : i + 2 ≤ s.length := (findOccurs found).2
  have size : (s.take i).length = i := List.length_take_of_le (by omega)
  have ended : s.take i ++ crlf = s.take (i + 2) := by
    have split := congrArg (List.take (i + 2)) (findSplit found)
    rw [List.take_left' (by simp [size, crlf])] at split
    exact split.symm
  refine ⟨ended, ?_⟩
  rw [ended, size]
  exact findTake found (Nat.le_refl _)

-- A line end goes behind any text without one, also behind a lone CR.
theorem lineEnds {s : Bytes} (unended : find crlf s = none) : find crlf (s ++ crlf) = some s.length := by
  refine findExact.mpr ⟨by simp, by simp, fun j before occurs => ?_⟩
  rw [List.drop_append_of_le_length (by omega)] at occurs
  rcases Nat.lt_or_ge (j + 1) s.length with early | last
  · have room : crlf.length ≤ (s.drop j).length := by
      simp only [crlf, List.length_drop, List.length_cons, List.length_nil]
      omega
    exact findNone unended j (List.prefix_of_prefix_length_le occurs (List.prefix_append _ _) room)
  · have single : (s.drop j).length = 1 := by simp only [List.length_drop]; omega
    obtain ⟨x, same⟩ := List.length_eq_one_iff.mp single
    rw [same] at occurs
    have second := (List.cons_prefix_cons.mp (List.cons_prefix_cons.mp occurs).2).1
    contradiction

theorem spacesUnended {content : Bytes} (unended : find crlf content = none) (n : Nat) :
    find crlf (content ++ List.replicate n 32) = none := by
  cases n with
  | zero => rw [List.replicate_zero, List.append_nil, unended]
  | succ n =>
    have fresh : (13 : UInt8) ∉ List.replicate n (32 : UInt8) := fun inside => by
      have := List.eq_of_mem_replicate inside
      contradiction
    have behind : find crlf (List.replicate n 32 ++ []) =
        (find crlf []).map (· + (List.replicate n (32 : UInt8)).length) := findAfter fresh []
    rw [List.append_nil] at behind
    rw [List.replicate_succ, findBarrier (by decide) (by decide) unended, behind]
    rfl

theorem lineStartable {content line : Bytes} (h : FirstLine content line) : Startable content := by
  have small := h.small
  have accepted := h.accepted
  unfold Startable
  cases found : find crlf content with
  | some i =>
    have same : i = line.length := by
      rcases h.agrees with ⟨rest, whole⟩ | ⟨rest, whole⟩
      · have later := findAppend found rest
        rw [whole, h.ended] at later
        exact (Option.some.inj later).symm
      · have later := findAppend h.ended rest
        rw [whole, found] at later
        exact Option.some.inj later
    have bound := (findOccurs found).2
    have within : line <+: content := by
      rcases h.agrees with short | long
      · exact List.prefix_of_prefix_length_le (List.prefix_append _ _) short (by omega)
      · exact (List.prefix_append _ _).trans long
    dsimp only
    rw [same, ← List.prefix_iff_eq_take.mp within]
    exact ⟨accepted, small⟩
  | none =>
    have short : content <+: line ++ crlf := by
      rcases h.agrees with short | ⟨rest, whole⟩
      · exact short
      · have later := findAppend h.ended rest
        rw [whole, found] at later
        cases later
    unfold Accepts at accepted
    dsimp only [shortestStart]
    rcases Nat.lt_or_ge line.length content.length with long | inside
    · have whole : content = line ++ [13] := by
        have part : content.length ≠ (line ++ crlf).length := fun size => by
          rw [short.eq_of_length size, h.ended] at found
          cases found
        have limit := short.length_le
        simp only [crlf, List.length_append, List.length_cons, List.length_nil] at part limit
        have size : content.length = line.length + 1 := by omega
        rw [List.prefix_iff_eq_take.mp short, size, List.take_length_add_append]
        rfl
      have blanks : (line ++ [13]).count 32 = line.count 32 := by simp
      rw [whole, List.length_append, List.length_singleton, blanks]
      rw [if_pos ⟨by unfold Accepts; omega, by simp⟩]
      omega
    · obtain ⟨rest, rfl⟩ := List.prefix_of_prefix_length_le short (List.prefix_append _ _) inside
      have blanks := List.count_le_length (a := (32 : UInt8)) (l := rest)
      rw [List.count_append] at accepted
      rw [List.length_append] at small
      unfold Accepts
      split
      · omega
      · omega

theorem startableLine {content : Bytes} (h : Startable content) : ∃ line, FirstLine content line := by
  unfold Startable at h
  cases found : find crlf content with
  | some i =>
    rw [found] at h
    obtain ⟨ended, line⟩ := lineTaken found
    refine ⟨content.take i, h.1, line, ?_, .inr ?_⟩
    · have short := List.length_take_le i content
      have := h.2
      omega
    · rw [ended]
      exact List.take_prefix _ _
  | none =>
    rw [found] at h
    dsimp only [shortestStart] at h
    split at h
    · rename_i tail
      obtain ⟨front, rfl⟩ := List.getLast?_eq_some_iff.mp tail.2
      have unended : find crlf front = none := by
        cases early : find crlf front with
        | none => rfl
        | some i => rw [findAppend early] at found; cases found
      have blanks : (front ++ [13]).count 32 = front.count 32 := by simp
      have accepted := tail.1
      unfold Accepts at accepted
      refine ⟨front, by unfold Accepts; omega, lineEnds unended, ?_, .inl ?_⟩
      · rw [List.length_append, List.length_singleton] at h
        omega
      · exact (List.prefix_append_right_inj front).mpr (by decide)
    · refine ⟨content ++ List.replicate (2 - content.count 32) 32, ?_,
        lineEnds (spacesUnended found _), ?_, .inl ?_⟩
      · unfold Accepts
        rw [List.count_append, List.count_replicate_self]
        omega
      · simp only [List.length_append, List.length_replicate]
        omega
      · rw [List.append_assoc]
        exact List.prefix_append _ _

/-! No bytes help a malformed buffer. -/

theorem completeStartable {content t header : Bytes} (h : Complete (content ++ t) header) :
    Startable content := by
  obtain ⟨slice, _, _, small, _⟩ := blockHeader h.shape
  have started := h.started
  unfold Started startOf at started
  cases found : find crlf header with
  | none => rw [found] at started; exact absurd started id
  | some e =>
    rw [found] at started
    have bound : e + 2 ≤ header.length := (findOccurs found).2
    obtain ⟨ended, line⟩ := lineTaken found
    suffices first : FirstLine content (header.take e) from lineStartable first
    refine ⟨started, line, ?_, ?_⟩
    · have short := List.length_take_le e header
      omega
    · have inside : header <+: content ++ t := slice ▸ List.take_prefix _ _
      rw [ended]
      exact List.prefix_or_prefix_of_prefix (List.prefix_append content t)
        ((List.take_prefix _ _).trans inside)

theorem malformedStays {content : Bytes} (h : Malformed content) (t header : Bytes) :
    ¬ Complete (content ++ t) header := by
  intro complete
  unfold Malformed at h
  cases shape : block content with
  | missing =>
    rw [shape] at h
    rcases h with found | unstartable
    · obtain ⟨p, found⟩ := Option.isSome_iff_exists.mp found
      have position := shape
      rw [blockFound found] at position
      have negative : int32 p < 0 := by
        by_contra positive
        by_cases tooLong : intMax < int32 p + 4 <;> simp [positive, tooLong] at position
      have later := complete.shape
      rw [blockFound (findAppend found t), if_pos negative] at later
      cases later
    · exact unstartable (completeStartable complete)
  | overlong =>
    rw [shape] at h
    exact h
  | header first =>
    rw [shape] at h
    have same := complete.shape
    rw [blockAppend shape t] at same
    obtain rfl := Block.header.inj same
    rcases h with unstarted | ⟨huge, _⟩
    · exact unstarted complete.started
    · exact absurd complete.fits (Nat.not_le.mpr huge)

theorem malformedHarmless {content : Bytes} (h : Malformed content) : ¬ Hostile content := by
  intro hostile
  unfold Malformed at h
  unfold Hostile at hostile
  cases shape : block content with
  | missing => rw [shape] at hostile; exact hostile
  | overlong => rw [shape] at h; exact h
  | header header =>
    rw [shape] at h hostile
    rcases h with unstarted | ⟨_, short⟩
    · exact unstarted hostile.1
    · exact absurd hostile.2.2 (Nat.not_le.mpr short)

/-! A buffer that is not malformed is completed. -/

theorem doubleAfterFirst {line : Bytes} (ended : find crlf (line ++ crlf) = some line.length) :
    find crlfcrlf (line ++ crlf) = none := by
  refine findAbsent fun j occurs => ?_
  have room := occurs.length_le
  have first : crlf <+: (line ++ crlf).drop j := List.IsPrefix.trans (by decide) occurs
  simp only [crlfcrlf, crlf, List.length_drop, List.length_append, List.length_cons,
    List.length_nil] at room
  exact findFirst ended j (by omega) first

-- The buffer with the rest of its first line, where that line has not ended.
def opened (content line : Bytes) : Bytes := content ++ (line ++ crlf).drop content.length

theorem openedLine {content line : Bytes}
    (agrees : content <+: line ++ crlf ∨ line ++ crlf <+: content) :
    line ++ crlf <+: opened content line ∧
      (opened content line = line ++ crlf ∨ opened content line = content) := by
  unfold opened
  rcases agrees with ⟨rest, same⟩ | within
  · rw [← same, List.drop_left]
    exact ⟨List.prefix_rfl, .inl rfl⟩
  · rw [List.drop_eq_nil_of_le within.length_le, List.append_nil]
    exact ⟨within, .inr rfl⟩

def padding (n : Nat) : Bytes := 120 :: List.replicate n 120 ++ crlfcrlf

theorem paddingEnds {open_ : Bytes} (unended : find crlfcrlf open_ = none) (n : Nat) :
    find crlfcrlf (open_ ++ padding n) = some (open_.length + 1 + n) := by
  have fresh : (13 : UInt8) ∉ List.replicate n (120 : UInt8) := fun inside => by
    have := List.eq_of_mem_replicate inside
    contradiction
  have behind : find crlfcrlf (List.replicate n 120 ++ crlfcrlf) = some n := by
    have later : find crlfcrlf (List.replicate n 120 ++ crlfcrlf) =
        (find crlfcrlf crlfcrlf).map (· + (List.replicate n (120 : UInt8)).length) :=
      findAfter fresh crlfcrlf
    have here : find crlfcrlf crlfcrlf = some 0 := by decide
    rw [here, List.length_replicate] at later
    simpa [crlfcrlf] using later
  have all := findBarrier (x := (120 : UInt8)) (b := List.replicate n 120 ++ crlfcrlf)
    (by decide) crlfcrlfNonempty unended
  rw [behind] at all
  rw [padding, List.cons_append, all, Option.map_some]
  exact congrArg some (by omega)

theorem declaresNothing {line : Bytes} (ended : find crlf (line ++ crlf) = some line.length) :
    declaredLength (line ++ crlf) = 0 := by
  have none : fields (line ++ crlf) = [] := by
    unfold fields
    simp only [ended]
    rw [List.drop_eq_nil_of_le (by simp [crlf])]
    rfl
  unfold declaredLength headerMap
  rw [none]
  rfl

-- `find` answers with an int, so a position far enough behind the first line
-- wraps round to it, and the header block is that line alone.
theorem startableCompletes {content : Bytes} (unended : find crlfcrlf content = none)
    (h : Startable content) : ∃ t header, Complete (content ++ t) header := by
  obtain ⟨line, accepted, ended, small, agrees⟩ := startableLine h
  obtain ⟨within, shapes⟩ := openedLine agrees
  have clean : find crlfcrlf (opened content line) = none := by
    rcases shapes with same | same
    · rw [same]
      exact doubleAfterFirst ended
    · rw [same]
      exact unended
  have blanks : 2 ≤ line.length := Nat.le_trans accepted List.count_le_length
  let n := (2 ^ 32 - 1) * ((opened content line).length + 1) + (line.length - 2)
  have position := paddingEnds clean n
  have wraps : int32 ((opened content line).length + 1 + n : Nat) = line.length - 2 := by
    have far : (((opened content line).length + 1 + n : Nat) : Int) =
        (line.length - 2 : Int) + 2 ^ 32 * ((opened content line).length + 1 : Int) := by
      omega
    have near := int32Small (x := (line.length - 2 : Int)) (by unfold intMax; omega) (by omega)
    rw [far, int32Wraps, near]
  have start : (opened content line ++ padding n).take (line.length + 2) = line ++ crlf := by
    have size : (line ++ crlf).length = line.length + 2 := by simp [crlf]
    have inside := within.trans (List.prefix_append _ (padding n))
    rw [← size]
    exact (List.prefix_iff_eq_take.mp inside).symm
  have shape : block (opened content line ++ padding n) = .header (line ++ crlf) := by
    rw [blockFound position, wraps, if_neg (by omega), if_neg (by omega),
      show ((line.length : Int) - 2 + 4).toNat = line.length + 2 by omega, start]
  refine ⟨(line ++ crlf).drop content.length ++ padding n, line ++ crlf, ?_⟩
  rw [← List.append_assoc]
  refine ⟨shape, ?_, ?_, ?_⟩
  · unfold Started startOf
    rw [ended, Option.map_some, List.take_left]
    exact accepted
  · rw [declaresNothing ended]
    exact Nat.zero_le _
  · rw [declaresNothing ended]
    have bound := (blockHeader shape).2.2.1
    exact bound

theorem headerCompletes {content header : Bytes} (shape : block content = .header header)
    (started : Started header) (fits : declaredLength header ≤ stringMaxSize) :
    ∃ t header, Complete (content ++ t) header := by
  refine ⟨List.replicate (declaredLength header) 0, header, blockAppend shape _, started, fits, ?_⟩
  have inside := (blockHeader shape).2.2.1
  simp only [List.length_append, List.length_replicate]
  omega

section
variable {μ : Type} (g : Grammar μ)

theorem waitingRecovers {buf : ByteBuffer} (waits : Waits g buf) (sound : ¬ Malformed buf.content) :
    Recovers g buf := by
  rw [recoversExact]
  have harmless := ((waitsExact g buf).mp waits).1
  unfold Malformed at sound
  unfold Hostile at harmless
  cases shape : block buf.content with
  | missing =>
    rw [shape] at sound
    have unended : find crlfcrlf buf.content = none := by
      cases found : find crlfcrlf buf.content with
      | none => rfl
      | some p => exact absurd (.inl (by rw [found]; rfl)) sound
    exact startableCompletes unended (Classical.not_not.mp fun no => sound (.inr no))
  | overlong =>
    rw [shape] at harmless
    exact absurd trivial harmless
  | header header =>
    rw [shape] at sound harmless
    have started : Started header := Classical.not_not.mp fun no => sound (.inl no)
    refine headerCompletes shape started (Nat.not_lt.mp fun huge => ?_)
    have short : ¬ (header.length + declaredLength header) % 2 ^ 64 ≤ buf.content.length :=
      fun enough => harmless ⟨started, huge, enough⟩
    exact sound (.inr ⟨huge, Nat.not_le.mp short⟩)

theorem malformedWaits {buf : ByteBuffer} (h : Malformed buf.content) : Waits g buf := by
  refine (waitsExact g buf).mpr ⟨malformedHarmless h, ?_⟩
  rintro ⟨header, complete⟩
  refine malformedStays h [] header ?_
  rwa [List.append_nil]

theorem malformedNever {buf : ByteBuffer} (h : Malformed buf.content) : ¬ Recovers g buf := by
  rw [recoversExact]
  rintro ⟨t, header, complete⟩
  exact malformedStays h t header complete
end

/-! A loop is stuck when it takes nothing off the buffer, whatever arrives. -/

def Stuck {υ : Type} (loop : List υ → ByteBuffer → LoopEnd (List υ)) (buf : ByteBuffer) : Prop :=
  ∀ chunks : List Bytes,
    observed (received loop chunks [] buf) = ([], .ok (buf.content ++ chunks.flatten))

structure NeverStuck (buf : ByteBuffer) : Prop where
  rtsp : Waits rtspGrammar buf → Recovers rtspGrammar buf
  http : Waits httpGrammar buf → Recovers httpGrammar buf
  session : ¬ Stuck (handleRtspMessage noteFrame noteMessage) buf
  source : ¬ Stuck (handleMessage noteFrame noteMessage) buf
  api : ¬ Stuck (onMessage noteRequest) buf

theorem requestsNoted (requests noted : List HttpMessage.HttpRequest) :
    requests.foldl noteRequest noted = noted ++ requests := by
  induction requests generalizing noted with
  | nil => exact (List.append_nil noted).symm
  | cons req rest ih => rw [List.foldl_cons, ih, noteRequest, List.append_assoc]; rfl

theorem fedMore {υ : Type} {d : Decoder UInt8 υ Exn} {content t : Bytes}
    (nothing : feed d [t] content = ([], .ok (content ++ t))) : d.step (content ++ t) = .more := by
  unfold feed andThen at nothing
  cases found : d.step (content ++ t) with
  | more => rfl
  | fail e =>
    rw [decodeFail d found] at nothing
    have := (Prod.mk.inj nothing).2
    contradiction
  | unit u n =>
    rw [decodeUnit d found] at nothing
    have := (Prod.mk.inj nothing).1
    cases rest : (decode d ((content ++ t).drop n)).2 <;> simp [rest] at this nothing

section
variable {μ : Type} (g : Grammar μ)

theorem messageMore {content : Bytes} :
    messageStep g content = .more ↔ ∃ out, outcome g content = .ok out ∧ out.ok = false := by
  unfold messageStep
  cases outcome g content with
  | error e => simp
  | ok out => cases failed : out.ok <;> simp [failed]

theorem messageLoopWaits {buf : ByteBuffer} (more : ∀ t, messageStep g (buf.content ++ t) = .more) :
    Waits g buf ∧ ¬ Recovers g buf := by
  constructor
  · have now := more []
    rw [List.append_nil, messageMore] at now
    unfold Waits
    rw [parseOutcome]
    exact now
  · rintro ⟨t, out, parsed, ok⟩
    rw [parseOutcome, ByteBuffer.appendContent] at parsed
    obtain ⟨later, found, failed⟩ := (messageMore g).mp (more t)
    rw [parsed] at found
    rw [Except.ok.inj found, failed] at ok
    contradiction
end

/-! A frame only waits for its length, so a stuck buffer starts another way. -/
theorem frameCompletes {content : Bytes} :
    ∃ t, frameStep (content ++ t) ≠ .more := by
  refine ⟨List.replicate (4 + 65535 + 255) 0, ?_⟩
  have high : ∀ i, ((content ++ List.replicate (4 + 65535 + 255) 0).getD i 0).toNat ≤ 255 :=
    fun i => by have := UInt8.toNat_lt ((content ++ List.replicate (4 + 65535 + 255) 0).getD i 0); omega
  have len : rtpLen (content ++ List.replicate (4 + 65535 + 255) 0) ≤ 65535 := by
    have := high 2
    have := high 3
    unfold rtpLen
    omega
  have enough : ¬ (content ++ List.replicate (4 + 65535 + 255) 0).length <
      4 + rtpLen (content ++ List.replicate (4 + 65535 + 255) 0) := by
    simp only [List.length_append, List.length_replicate]
    omega
  unfold frameStep
  rw [if_neg enough]
  exact nofun

theorem interleavedLoopWaits {buf : ByteBuffer}
    (more : ∀ t, interleavedDecoder.step (buf.content ++ t) = .more) :
    Waits rtspGrammar buf ∧ ¬ Recovers rtspGrammar buf := by
  have nonempty : buf.content ≠ [] := by
    intro empty
    have frame := more [36, 0, 0, 0]
    rw [empty] at frame
    revert frame
    decide
  refine messageLoopWaits rtspGrammar fun t => ?_
  have step := more t
  simp only [interleavedDecoder, firstAppend nonempty] at step
  split at step
  · rename_i dollar
    obtain ⟨later, frame⟩ : ∃ t, frameStep (buf.content ++ t) ≠ .more := frameCompletes
    have other := more later
    simp only [interleavedDecoder, firstAppend nonempty, if_pos dollar] at other
    exact absurd other frame
  · cases found : messageStep rtspGrammar (buf.content ++ t) <;> rw [found] at step <;> trivial

theorem stuckInterleaved {buf : ByteBuffer}
    (stuck : Stuck (handleRtspMessage noteFrame noteMessage) buf) :
    Waits rtspGrammar buf ∧ ¬ Recovers rtspGrammar buf := by
  refine interleavedLoopWaits fun t => fedMore ?_
  have nothing := stuck [t]
  rw [handleRtspMessageFeeds, notesUnits, List.nil_append, List.flatten_singleton] at nothing
  exact nothing

theorem stuckRequests {buf : ByteBuffer} (stuck : Stuck (onMessage noteRequest) buf) :
    Waits httpGrammar buf ∧ ¬ Recovers httpGrammar buf := by
  refine messageLoopWaits httpGrammar fun t => fedMore (d := messageDecoder httpGrammar) ?_
  have nothing := stuck [t]
  rw [onMessageFeeds, requestsNoted, List.nil_append, List.flatten_singleton] at nothing
  exact nothing

theorem neverStuckExact (buf : ByteBuffer) : NeverStuck buf ↔ ¬ Malformed buf.content := by
  constructor
  · intro never malformed
    exact malformedNever rtspGrammar malformed (never.rtsp (malformedWaits rtspGrammar malformed))
  · intro sound
    have rtsp : Waits rtspGrammar buf → Recovers rtspGrammar buf :=
      fun waits => waitingRecovers rtspGrammar waits sound
    have http : Waits httpGrammar buf → Recovers httpGrammar buf :=
      fun waits => waitingRecovers httpGrammar waits sound
    have loop : ¬ Stuck (handleRtspMessage noteFrame noteMessage) buf := fun stuck =>
      (stuckInterleaved stuck).2 (rtsp (stuckInterleaved stuck).1)
    exact ⟨rtsp, http, loop, loop, fun stuck =>
      (stuckRequests stuck).2 (http (stuckRequests stuck).1)⟩

/-! A keep-alive of two line ends in front of a request is never got past: the
first line is empty. -/
theorem blankLineSticks : ¬ ∀ buf : ByteBuffer, NeverStuck buf := by
  intro never
  have malformed : Malformed ((ByteBuffer.init 0).append crlfcrlf).content := by
    rw [ByteBuffer.filledContent]
    exact .inl (by decide)
  exact malformedNever rtspGrammar malformed ((never _).rtsp (malformedWaits rtspGrammar malformed))

end RtspRelay.Completion
