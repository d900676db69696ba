import RtspRelay.MessageFraming

/-! HTTP requests. The parser is the second copy of the message text. -/
namespace RtspRelay.HttpMessage
open Machine Buffer ByteSearch MessageText

structure HttpRequest where
  method : Bytes := []
  path : Bytes := []
  version : Bytes := []
  headers : Headers := ∅
  body : Bytes := []
  deriving DecidableEq

def startLine (requestLine : Bytes) (req : HttpRequest) : Except Exn (Bool × HttpRequest) := do
  match ← threeParts requestLine with
  | none => .ok (false, req)
  | some (method, path, version) =>
    .ok (true, { req with method := method, path := path, version := version })

theorem startLineStarts (line : Bytes) (req : HttpRequest) :
    ∃ out, startLine line req = .ok (decide (Accepts line), out) ∧
      out.headers = req.headers ∧ out.body = req.body := by
  obtain ⟨parts, found, accepted⟩ := threePartsOk line
  unfold startLine
  rw [found]
  cases parts with
  | none =>
    have refused : ¬ Accepts line := fun h => by simpa using accepted.mpr h
    simp only [bind, Except.bind, refused, decide_false]
    exact ⟨_, rfl, rfl, rfl⟩
  | some three =>
    have taken : Accepts line := accepted.mp rfl
    simp only [bind, Except.bind, taken, decide_true]
    exact ⟨_, rfl, rfl, rfl⟩

def httpGrammar : Grammar HttpRequest where
  fresh := {}
  startLine := startLine
  field req key val := { req with headers := req.headers.insert key val }
  headers := HttpRequest.headers
  bodyOf := HttpRequest.body
  setBody req body := { req with body := body }
  freshHeaders := rfl
  freshBody := rfl
  starts := startLineStarts
  fieldHeaders _ _ _ := rfl
  fieldBody _ _ _ := rfl
  bodySet _ _ := rfl

def parseRequest (buf : ByteBuffer) : Except Exn (Parsed HttpRequest) :=
  MessageText.parse httpGrammar buf

end RtspRelay.HttpMessage
