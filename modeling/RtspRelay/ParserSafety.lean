import RtspRelay.Protocol
import RtspRelay.HttpMessage

/-! What the two parsers may do with a buffer an attacker filled, and exactly
when they do it. The exception of a hostile buffer leaves the event loop. -/
namespace RtspRelay.ParserSafety
open Machine Buffer ByteSearch MessageText MessageFraming
open Protocol (RtspMessage rtspGrammar)
open HttpMessage (HttpRequest httpGrammar parseRequest)

def Safe {μ : Type} (bodyOf : μ → Bytes) (buf : ByteBuffer) : Except Exn (Parsed μ) → Prop
  | .error _ => False
  | .ok out =>
    (out.ok = false ∧ out.consumed = 0) ∨
    (out.ok = true ∧ 4 ≤ out.consumed ∧ out.consumed ≤ buf.readable ∧
      out.consumed = headerLen buf + (bodyOf out.msg).length ∧
      bodyOf out.msg = (buf.content.take out.consumed).drop (headerLen buf))

theorem safeExact {μ : Type} (g : Grammar μ) (buf : ByteBuffer) :
    Safe g.bodyOf buf (MessageText.parse g buf) ↔ ¬ Hostile buf.content := by
  rw [parseOutcome]
  cases result : outcome g buf.content with
  | error e =>
    have hostile := ((outcomeError g).mp result).2
    simp [Safe, hostile]
  | ok out =>
    have harmless : ¬ Hostile buf.content := by
      intro hostile
      rw [(outcomeError g).mpr ⟨rfl, hostile⟩] at result
      contradiction
    refine iff_of_true ?_ harmless
    cases ok : out.ok with
    | false => exact .inl ⟨ok, outcomeFalse g result ok⟩
    | true =>
      obtain ⟨header, framed⟩ := outcomeFramed g result ok
      obtain ⟨body, size⟩ := framedBody g framed
      have bounds := outcomeConsumed g result ok
      rw [buf.contentLength] at bounds
      have len := (headerLenBlock framed.shape).1
      exact .inr ⟨ok, bounds.1, bounds.2, by rw [len]; exact size, by rw [len]; exact body⟩

theorem rtspExact (buf : ByteBuffer) :
    Safe RtspMessage.body buf (Protocol.parse buf) ↔ ¬ Hostile buf.content :=
  safeExact rtspGrammar buf

theorem httpExact (buf : ByteBuffer) :
    Safe HttpRequest.body buf (parseRequest buf) ↔ ¬ Hostile buf.content :=
  safeExact httpGrammar buf

theorem parserSafe (buf : ByteBuffer) :
    (Safe RtspMessage.body buf (Protocol.parse buf) ∧ Safe HttpRequest.body buf (parseRequest buf)) ↔
      ¬ Hostile buf.content := by
  rw [rtspExact, httpExact, and_self]

theorem hostileUnsafe {buf : ByteBuffer} (hostile : Hostile buf.content) :
    ¬ Safe RtspMessage.body buf (Protocol.parse buf) ∧
      ¬ Safe HttpRequest.body buf (parseRequest buf) :=
  ⟨fun safe => (rtspExact buf).mp safe hostile, fun safe => (httpExact buf).mp safe hostile⟩

def negativeLength : Bytes := ascii "OPTIONS * RTSP/1.0\r\nContent-Length: -1\r\n\r\n"

theorem negativeLengthHostile (cap : Nat) :
    Hostile ((ByteBuffer.init cap).append negativeLength).content := by
  rw [ByteBuffer.filledContent]
  decide

theorem negativeLengthThrows :
    ¬ Safe RtspMessage.body ((ByteBuffer.init 0).append negativeLength)
        (Protocol.parse ((ByteBuffer.init 0).append negativeLength)) ∧
    ¬ Safe HttpRequest.body ((ByteBuffer.init 0).append negativeLength)
        (parseRequest ((ByteBuffer.init 0).append negativeLength)) :=
  hostileUnsafe (negativeLengthHostile 0)

/- On a buffer that a string could hold, only a negative length within the
header length is left, besides a header block whose end is no int. -/
theorem hostileNegative {content : Bytes} (held : content.length ≤ stringMaxSize) :
    Hostile content ↔ block content = .overlong ∨ ∃ header val, block content = .header header ∧
      Started header ∧ (headerMap header).lookup (ascii "Content-Length") = some val ∧
      -(header.length : Int) ≤ atoll val ∧ atoll val < 0 := by
  unfold Hostile
  cases shape : block content with
  | missing => simp
  | overlong => simp
  | header header =>
    obtain ⟨_, _, inside, small, _⟩ := blockHeader shape
    unfold stringMaxSize at held
    unfold intMax at small
    simp only [reduceCtorEq, false_or, Block.header.injEq]
    unfold declaredLength contentLength
    constructor
    · rintro ⟨started, huge, passes⟩
      cases found : (headerMap header).lookup (ascii "Content-Length") with
      | none => simp [found] at huge
      | some val =>
        have range := atollRange val
        simp only [found] at huge passes
        unfold stringMaxSize at huge
        refine ⟨header, val, rfl, started, found, ?_⟩
        rcases Int.lt_or_le (atoll val) 0 with negative | positive
        · have size := sizeTNegative (x := atoll val) (by omega) negative
          omega
        · have size := sizeTNonneg (x := atoll val) positive (by omega)
          omega
    · rintro ⟨_, val, rfl, started, found, low, negative⟩
      have range := atollRange val
      have size := sizeTNegative (x := atoll val) (by omega) negative
      rw [found]
      unfold stringMaxSize
      dsimp only
      exact ⟨started, by omega, by omega⟩

end RtspRelay.ParserSafety
