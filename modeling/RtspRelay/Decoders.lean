import RtspRelay.General.StreamDecoder
import RtspRelay.General.Transition
import RtspRelay.Protocol
import RtspRelay.HttpMessage

/-! The three decoder loops over a receive buffer. A handler call never touches
the buffer, so a loop is its handlers folded over the units of a stream decoder.
The loops stop on an exception: nothing in the program catches it. -/
namespace RtspRelay.Decoders
open Machine Buffer MessageText MessageFraming StreamDecoder
open Protocol (RtspMessage rtspGrammar)
open HttpMessage (HttpRequest httpGrammar)

abbrev LoopEnd (σ : Type) := σ × Except Exn ByteBuffer

inductive StreamUnit where
  | interleaved (channel : UInt8) (payload : Bytes)
  | message (msg : RtspMessage)
  deriving DecidableEq

def rtpLen (content : Bytes) : Nat := (content.getD 2 0).toNat * 256 + (content.getD 3 0).toNat

section
variable {σ : Type} (handleInterleavedData : σ → UInt8 → Bytes → σ) (handleMsg : σ → RtspMessage → σ)

-- The text that handleRtspMessage and handleMessage share.
def interleavedLoop : Nat → σ → ByteBuffer → LoopEnd σ
  | 0, s, buf => (s, .ok buf)
  | fuel + 1, s, buf =>
    if 0 < buf.readable then
      if buf.content.getD 0 0 = 36 then
        if buf.readable < 4 then (s, .ok buf)
        else if buf.readable < 4 + rtpLen buf.content then (s, .ok buf)
        else
          let s := handleInterleavedData s (buf.content.getD 1 0)
            ((buf.content.drop 4).take (rtpLen buf.content))
          interleavedLoop fuel s (buf.skip (4 + rtpLen buf.content))
      else match Protocol.parse buf with
        | .error e => (s, .error e)
        | .ok out =>
          if out.ok then interleavedLoop fuel (handleMsg s out.msg) (buf.skip out.consumed)
          else (s, .ok buf)
    else (s, .ok buf)

def handleRtspMessage (processRequest : σ → RtspMessage → σ) (s : σ) (buf : ByteBuffer) :
    LoopEnd σ := interleavedLoop handleInterleavedData processRequest buf.readable s buf

def handleMessage (handleResponse : σ → RtspMessage → σ) (s : σ) (buf : ByteBuffer) :
    LoopEnd σ := interleavedLoop handleInterleavedData handleResponse buf.readable s buf

def requestLoop (dispatch : σ → HttpRequest → σ) : Nat → σ → ByteBuffer → LoopEnd σ
  | 0, s, buf => (s, .ok buf)
  | fuel + 1, s, buf =>
    if 0 < buf.readable then
      match HttpMessage.parseRequest buf with
      | .error e => (s, .error e)
      | .ok out =>
        if out.ok then requestLoop dispatch fuel (dispatch s out.msg) (buf.skip out.consumed)
        else (s, .ok buf)
    else (s, .ok buf)

def onMessage (dispatch : σ → HttpRequest → σ) (s : σ) (buf : ByteBuffer) : LoopEnd σ :=
  requestLoop dispatch buf.readable s buf

def received (loop : σ → ByteBuffer → LoopEnd σ) : List Bytes → σ → ByteBuffer → LoopEnd σ
  | [], s, buf => (s, .ok buf)
  | chunk :: chunks, s, buf => match loop s (buf.append chunk) with
    | (s, .error e) => (s, .error e)
    | (s, .ok buf) => received loop chunks s buf

def observed (run : LoopEnd σ) : σ × Except Exn Bytes := (run.1, run.2.map ByteBuffer.content)
end

def messageStep {μ : Type} (g : Grammar μ) (content : Bytes) : Step μ Exn :=
  match outcome g content with
  | .error e => .fail e
  | .ok out => if out.ok then .unit out.msg out.consumed else .more

theorem messageUnit {μ : Type} {g : Grammar μ} {content : Bytes} {msg : μ} {n : Nat}
    (h : messageStep g content = .unit msg n) :
    ∃ out, outcome g content = .ok out ∧ out.ok = true ∧ out.msg = msg ∧ out.consumed = n := by
  unfold messageStep at h
  split at h
  · contradiction
  · rename_i out found
    split at h
    · rename_i ok
      cases h
      exact ⟨out, found, ok, rfl, rfl⟩
    · contradiction

theorem messageFail {μ : Type} {g : Grammar μ} {content : Bytes} {e : Exn} :
    messageStep g content = .fail e ↔ outcome g content = .error e := by
  unfold messageStep
  split
  · rename_i other found
    simp [found]
  · rename_i out found
    split <;> simp [found]

def messageDecoder {μ : Type} (g : Grammar μ) : Decoder UInt8 μ Exn where
  step := messageStep g
  empty := rfl
  progress h := by
    obtain ⟨out, found, ok, _, rfl⟩ := messageUnit h
    have bounds := outcomeConsumed g found ok
    omega
  unitStable h t := by
    obtain ⟨out, found, ok, rfl, rfl⟩ := messageUnit h
    simp only [messageStep, outcomeAppend g found ok t, ok, if_true]
  failStable h t := messageFail.mpr (outcomeErrorAppend g (messageFail.mp h) t)

def frameStep (content : Bytes) : Step StreamUnit Exn :=
  if content.length < 4 + rtpLen content then .more
  else .unit (.interleaved (content.getD 1 0) ((content.drop 4).take (rtpLen content)))
    (4 + rtpLen content)

def liftStep : Step RtspMessage Exn → Step StreamUnit Exn
  | .more => .more
  | .unit msg n => .unit (.message msg) n
  | .fail e => .fail e

def interleavedStep (content : Bytes) : Step StreamUnit Exn :=
  if content = [] then .more
  else if content.getD 0 0 = 36 then frameStep content
  else liftStep (messageStep rtspGrammar content)

theorem getDAppend {content : Bytes} {i : Nat} (h : i < content.length) (t : Bytes) :
    (content ++ t).getD i 0 = content.getD i 0 := by
  simp only [List.getD_eq_getElem?_getD, List.getElem?_append_left h]

theorem frameUnit {content : Bytes} {u : StreamUnit} {n : Nat} (h : frameStep content = .unit u n) :
    n = 4 + rtpLen content ∧ n ≤ content.length ∧
      u = .interleaved (content.getD 1 0) ((content.drop 4).take (rtpLen content)) := by
  unfold frameStep at h
  split at h
  · contradiction
  · cases h
    exact ⟨rfl, by omega, rfl⟩

theorem frameAppend {content : Bytes} {u : StreamUnit} {n : Nat} (h : frameStep content = .unit u n)
    (t : Bytes) : frameStep (content ++ t) = .unit u n := by
  obtain ⟨size, bound, rfl⟩ := frameUnit h
  have len : rtpLen (content ++ t) = rtpLen content := by
    unfold rtpLen
    rw [getDAppend (by omega), getDAppend (by omega)]
  have enough : ¬ (content ++ t).length < 4 + rtpLen content := by
    simp only [List.length_append]
    omega
  unfold frameStep
  rw [len, if_neg enough, getDAppend (by omega), List.drop_append_of_le_length (by omega),
    List.take_append_of_le_length (by simp only [List.length_drop]; omega), ← size]

theorem liftUnit {s : Step RtspMessage Exn} {u : StreamUnit} {n : Nat} (h : liftStep s = .unit u n) :
    ∃ msg, s = .unit msg n ∧ u = .message msg := by
  cases s with
  | more => contradiction
  | fail e => contradiction
  | unit msg size => cases h; exact ⟨msg, rfl, rfl⟩

theorem liftFail {s : Step RtspMessage Exn} {e : Exn} (h : liftStep s = .fail e) : s = .fail e := by
  cases s with
  | more => contradiction
  | fail e => exact congrArg Step.fail (Step.fail.inj h)
  | unit msg size => contradiction

theorem firstAppend {content : Bytes} (nonempty : content ≠ []) (t : Bytes) :
    interleavedStep (content ++ t) = if content.getD 0 0 = 36 then frameStep (content ++ t)
      else liftStep (messageStep rtspGrammar (content ++ t)) := by
  have positive := List.length_pos_of_ne_nil nonempty
  unfold interleavedStep
  rw [if_neg (by simp [nonempty]), getDAppend positive]

def interleavedDecoder : Decoder UInt8 StreamUnit Exn where
  step := interleavedStep
  empty := rfl
  progress {b u n} h := by
    unfold interleavedStep at h
    split at h
    · contradiction
    · split at h
      · have bounds := frameUnit h
        omega
      · obtain ⟨msg, found, _⟩ := liftUnit h
        exact (messageDecoder rtspGrammar).progress found
  unitStable {b u n} h t := by
    unfold interleavedStep at h
    split at h
    · contradiction
    · rename_i nonempty
      rw [firstAppend nonempty]
      split at h
      · rename_i dollar
        rw [if_pos dollar]
        exact frameAppend h t
      · rename_i other
        obtain ⟨msg, found, rfl⟩ := liftUnit h
        have stable := (messageDecoder rtspGrammar).unitStable found t
        rw [if_neg other]
        exact congrArg liftStep stable
  failStable {b e} h t := by
    unfold interleavedStep at h
    split at h
    · contradiction
    · rename_i nonempty
      rw [firstAppend nonempty]
      split at h
      · unfold frameStep at h
        split at h <;> contradiction
      · rename_i other
        have stable := (messageDecoder rtspGrammar).failStable (liftFail h) t
        rw [if_neg other]
        exact congrArg liftStep stable

/-! A loop that takes the units of a decoder off the buffer and hands them on. -/
section
variable {σ υ : Type} (d : Decoder UInt8 υ Exn) (handle : σ → υ → σ)

def bufferLoop : Nat → σ → ByteBuffer → LoopEnd σ
  | 0, s, buf => (s, .ok buf)
  | fuel + 1, s, buf => match d.step buf.content with
    | .more => (s, .ok buf)
    | .fail e => (s, .error e)
    | .unit u n => bufferLoop fuel (handle s u) (buf.skip n)

theorem bufferLoopDrains (fuel : Nat) (s : σ) (buf : ByteBuffer) :
    observed (bufferLoop d handle fuel s buf) =
      ((drain d fuel buf.content).1.foldl handle s, (drain d fuel buf.content).2) := by
  induction fuel generalizing s buf with
  | zero => rfl
  | succ fuel ih =>
    simp only [bufferLoop, drain]
    cases d.step buf.content with
    | more => rfl
    | fail e => rfl
    | unit u n =>
      dsimp only
      rw [ih, ByteBuffer.skipContent]
      rfl

theorem bufferLoopDecodes (s : σ) (buf : ByteBuffer) :
    observed (bufferLoop d handle buf.readable s buf) =
      ((decode d buf.content).1.foldl handle s, (decode d buf.content).2) := by
  rw [bufferLoopDrains, ← buf.contentLength]
  rfl

theorem receivedFeeds (chunks : List Bytes) (s : σ) (buf : ByteBuffer) :
    observed (received (fun s buf => bufferLoop d handle buf.readable s buf) chunks s buf) =
      ((feed d chunks buf.content).1.foldl handle s, (feed d chunks buf.content).2) := by
  induction chunks generalizing s buf with
  | nil => rfl
  | cons chunk chunks ih =>
    have first := bufferLoopDecodes d handle s (buf.append chunk)
    rw [ByteBuffer.appendContent] at first
    simp only [received, feed, andThen]
    rcases run : bufferLoop d handle (buf.append chunk).readable s (buf.append chunk) with ⟨s', rest⟩
    rw [run] at first
    obtain ⟨states, rests⟩ := Prod.mk.inj first
    cases rest with
    | error e =>
      simp only [← rests, Except.map, observed, ← states]
    | ok buf' =>
      simp only [← rests, Except.map, List.foldl_append, ← states]
      exact ih s' buf'
end

section
variable {σ : Type} (onFrame : σ → UInt8 → Bytes → σ) (onMsg : σ → RtspMessage → σ)

def onUnit (s : σ) : StreamUnit → σ
  | .interleaved channel payload => onFrame s channel payload
  | .message msg => onMsg s msg

theorem interleavedLoopDecoder (fuel : Nat) (s : σ) (buf : ByteBuffer) :
    interleavedLoop onFrame onMsg fuel s buf =
      bufferLoop interleavedDecoder (onUnit onFrame onMsg) fuel s buf := by
  induction fuel generalizing s buf with
  | zero => rfl
  | succ fuel ih =>
    have length := buf.contentLength
    unfold interleavedLoop bufferLoop
    simp only [interleavedDecoder, interleavedStep]
    by_cases empty : buf.content = []
    · rw [if_pos empty, if_neg (by simp [← length, empty])]
    · have positive := List.length_pos_of_ne_nil empty
      rw [if_neg empty, if_pos (by omega)]
      split
      · rw [frameStep, length]
        split
        · rw [if_pos (by omega)]
        · split
          · rfl
          · exact ih _ _
      · rw [Protocol.parse, parseOutcome, messageStep]
        cases outcome rtspGrammar buf.content with
        | error e => rfl
        | ok out =>
          dsimp only
          cases out.ok with
          | false => rfl
          | true => exact ih _ _

theorem requestLoopDecoder (dispatch : σ → HttpRequest → σ) (fuel : Nat) (s : σ) (buf : ByteBuffer) :
    requestLoop dispatch fuel s buf =
      bufferLoop (messageDecoder httpGrammar) dispatch fuel s buf := by
  induction fuel generalizing s buf with
  | zero => rfl
  | succ fuel ih =>
    have length := buf.contentLength
    unfold requestLoop bufferLoop
    simp only [messageDecoder]
    by_cases empty : buf.content = []
    · rw [if_neg (by simp [← length, empty]), empty]
      rfl
    · have positive := List.length_pos_of_ne_nil empty
      rw [if_pos (by omega), HttpMessage.parseRequest, parseOutcome, messageStep]
      cases outcome httpGrammar buf.content with
      | error e => rfl
      | ok out =>
        dsimp only
        cases out.ok with
        | false => rfl
        | true => exact ih _ _

/-! One call is a run of the handlers; what it leaves is what the decoder leaves. -/
theorem handleMessageDecodes (s : σ) (buf : ByteBuffer) :
    observed (handleMessage onFrame onMsg s buf) = (Transition.run (onUnit onFrame onMsg) s
      (decode interleavedDecoder buf.content).1, (decode interleavedDecoder buf.content).2) := by
  rw [handleMessage, interleavedLoopDecoder]
  exact bufferLoopDecodes interleavedDecoder (onUnit onFrame onMsg) s buf

theorem handleMessageRuns (s : σ) (buf : ByteBuffer) :
    (handleMessage onFrame onMsg s buf).1 = Transition.run (onUnit onFrame onMsg) s
      (decode interleavedDecoder buf.content).1 :=
  congrArg Prod.fst (handleMessageDecodes onFrame onMsg s buf)

theorem handleMessageLeaves (s : σ) (buf : ByteBuffer) :
    (handleMessage onFrame onMsg s buf).2.map ByteBuffer.content =
      (decode interleavedDecoder buf.content).2 :=
  congrArg Prod.snd (handleMessageDecodes onFrame onMsg s buf)

/-! Whatever the handlers do with the units, they are given the same ones. -/
theorem handleRtspMessageFeeds (chunks : List Bytes) (s : σ) (buf : ByteBuffer) :
    observed (received (handleRtspMessage onFrame onMsg) chunks s buf) =
      ((feed interleavedDecoder chunks buf.content).1.foldl (onUnit onFrame onMsg) s,
        (feed interleavedDecoder chunks buf.content).2) := by
  have same : handleRtspMessage onFrame onMsg =
      fun s buf => bufferLoop interleavedDecoder (onUnit onFrame onMsg) buf.readable s buf := by
    funext s buf
    exact interleavedLoopDecoder onFrame onMsg buf.readable s buf
  rw [same]
  exact receivedFeeds interleavedDecoder (onUnit onFrame onMsg) chunks s buf

theorem onMessageFeeds (dispatch : σ → HttpRequest → σ) (chunks : List Bytes) (s : σ)
    (buf : ByteBuffer) :
    observed (received (onMessage dispatch) chunks s buf) =
      ((feed (messageDecoder httpGrammar) chunks buf.content).1.foldl dispatch s,
        (feed (messageDecoder httpGrammar) chunks buf.content).2) := by
  have same : onMessage dispatch =
      fun s buf => bufferLoop (messageDecoder httpGrammar) dispatch buf.readable s buf := by
    funext s buf
    exact requestLoopDecoder dispatch buf.readable s buf
  rw [same]
  exact receivedFeeds (messageDecoder httpGrammar) dispatch chunks s buf
end

/-! The decoders alone: the handlers only note what they were given. -/

def noteFrame (units : List StreamUnit) (channel : UInt8) (payload : Bytes) : List StreamUnit :=
  units ++ [.interleaved channel payload]
def noteMessage (units : List StreamUnit) (msg : RtspMessage) : List StreamUnit :=
  units ++ [.message msg]
def noteRequest (units : List HttpRequest) (req : HttpRequest) : List HttpRequest := units ++ [req]

def sessionDecoded (cap : Nat) (chunks : List Bytes) : List StreamUnit × Except Exn Bytes :=
  observed (received (handleRtspMessage noteFrame noteMessage) chunks [] (ByteBuffer.init cap))
def sourceDecoded (cap : Nat) (chunks : List Bytes) : List StreamUnit × Except Exn Bytes :=
  observed (received (handleMessage noteFrame noteMessage) chunks [] (ByteBuffer.init cap))
def httpDecoded (cap : Nat) (chunks : List Bytes) : List HttpRequest × Except Exn Bytes :=
  observed (received (onMessage noteRequest) chunks [] (ByteBuffer.init cap))

theorem notesUnits (units noted : List StreamUnit) :
    units.foldl (onUnit noteFrame noteMessage) noted = noted ++ units := by
  induction units generalizing noted with
  | nil => exact (List.append_nil noted).symm
  | cons u rest ih =>
    have next : onUnit noteFrame noteMessage noted u = noted ++ [u] := by cases u <;> rfl
    rw [List.foldl_cons, next, ih, List.append_assoc]
    rfl

theorem sessionDecodedUnits (cap : Nat) (chunks : List Bytes) :
    sessionDecoded cap chunks = feed interleavedDecoder chunks [] := by
  rw [sessionDecoded, handleRtspMessageFeeds, ByteBuffer.initContent, notesUnits, List.nil_append]

theorem sourceDecodedUnits (cap : Nat) (chunks : List Bytes) :
    sourceDecoded cap chunks = feed interleavedDecoder chunks [] := sessionDecodedUnits cap chunks

theorem chunkingInvariant (cap : Nat) (chunks : List Bytes) :
    sessionDecoded cap chunks = sessionDecoded cap [chunks.flatten] ∧
    sourceDecoded cap chunks = sourceDecoded cap [chunks.flatten] ∧
    httpDecoded cap chunks = httpDecoded cap [chunks.flatten] := by
  have frames := feedOnePiece interleavedDecoder chunks
  have requests := feedOnePiece (messageDecoder httpGrammar) chunks
  have session : sessionDecoded cap chunks = sessionDecoded cap [chunks.flatten] := by
    rw [sessionDecodedUnits, sessionDecodedUnits, frames]
  refine ⟨session, session, ?_⟩
  unfold httpDecoded
  rw [onMessageFeeds, onMessageFeeds, ByteBuffer.initContent, requests]

end RtspRelay.Decoders
