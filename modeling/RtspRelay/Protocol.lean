import RtspRelay.MessageFraming

/-! RTSP messages: the request and response builders, the serializer and the
parser. The header map is unordered in the source; the serializer writes the
entries in whatever order the container iterates them. -/
namespace RtspRelay.Protocol
open Machine Buffer ByteSearch MessageText

inductive RtspMessageType where
  | unknown | request | response
  deriving DecidableEq, Repr

inductive RtspMethod where
  | none | options | describe | setup | play | pause | teardown | getParameter | announce | record
  deriving DecidableEq, Repr

structure RtspMessage where
  method : RtspMethod := .none
  url : Bytes := []
  version : Bytes := ascii "RTSP/1.0"
  statusCode : Int := 0
  reason : Bytes := []
  type : RtspMessageType := .unknown
  headers : Headers := ∅
  body : Bytes := []
  cseq : Nat := 0
  sessionId : Bytes := []
  transport : Bytes := []
  sdp : Bytes := []
  deriving DecidableEq

-- A possible iteration order of the header map.
structure HeaderOrder where
  list : Headers → List (Bytes × Bytes)
  permutes : ∀ h, (list h).Perm (h.entries.map fun e => (e.1, e.2))

def insertionOrder : HeaderOrder := ⟨fun h => h.entries.map fun e => (e.1, e.2), fun _ => .refl _⟩

def parseMethod (s : Bytes) : RtspMethod :=
  if s = ascii "OPTIONS" then .options
  else if s = ascii "DESCRIBE" then .describe
  else if s = ascii "SETUP" then .setup
  else if s = ascii "PLAY" then .play
  else if s = ascii "PAUSE" then .pause
  else if s = ascii "TEARDOWN" then .teardown
  else if s = ascii "GET_PARAMETER" then .getParameter
  else if s = ascii "ANNOUNCE" then .announce
  else if s = ascii "RECORD" then .record
  else .none

def methodToString : RtspMethod → Bytes
  | .options => ascii "OPTIONS"
  | .describe => ascii "DESCRIBE"
  | .setup => ascii "SETUP"
  | .play => ascii "PLAY"
  | .pause => ascii "PAUSE"
  | .teardown => ascii "TEARDOWN"
  | .getParameter => ascii "GET_PARAMETER"
  | .announce => ascii "ANNOUNCE"
  | .record => ascii "RECORD"
  | .none => ascii "UNKNOWN"

theorem parseMethodToString (m : RtspMethod) : parseMethod (methodToString m) = m := by
  cases m <;> decide

def RtspMessage.set (m : RtspMessage) (key : String) (val : Bytes) : RtspMessage :=
  { m with headers := m.headers.insert (ascii key) val }

def userAgent : Bytes := ascii "RTSP-Relay/1.0"

-- `if (!session_id.empty()) m.headers["Session"] = session_id`
def RtspMessage.setSession (m : RtspMessage) (sessionId : Bytes) : RtspMessage :=
  if sessionId = [] then m else m.set "Session" sessionId

def decimalInt (i : Int) : Bytes :=
  if i < 0 then 45 :: decimal i.natAbs else decimal i.natAbs

def optionsRequest (url : Bytes) (cseq : Nat) : RtspMessage :=
  { type := .request, method := .options, url := url, cseq := cseq : RtspMessage }
    |>.set "User-Agent" userAgent

def describeRequest (url : Bytes) (cseq : Nat) : RtspMessage :=
  { type := .request, method := .describe, url := url, cseq := cseq : RtspMessage }
    |>.set "Accept" (ascii "application/sdp")
    |>.set "User-Agent" userAgent

def setupRequest (url : Bytes) (cseq : Nat) (clientRtpPort clientRtcpPort : Int)
    (sessionId : Bytes) : RtspMessage :=
  ({ type := .request, method := .setup, url := url, cseq := cseq : RtspMessage }.setSession sessionId)
    |>.set "Transport" (ascii "RTP/AVP;unicast;client_port=" ++ decimalInt clientRtpPort ++
      ascii "-" ++ decimalInt clientRtcpPort)
    |>.set "User-Agent" userAgent

def playRequest (url : Bytes) (cseq : Nat) (sessionId : Bytes) : RtspMessage :=
  { type := .request, method := .play, url := url, cseq := cseq : RtspMessage }
    |>.set "Session" sessionId
    |>.set "Range" (ascii "npt=0.000-")
    |>.set "User-Agent" userAgent

def teardownRequest (url : Bytes) (cseq : Nat) (sessionId : Bytes) : RtspMessage :=
  { type := .request, method := .teardown, url := url, cseq := cseq : RtspMessage }
    |>.set "Session" sessionId
    |>.set "User-Agent" userAgent

def ok (cseq : Nat) : RtspMessage :=
  { type := .response, statusCode := 200, reason := ascii "OK", cseq := cseq }

def okResponse (cseq : Nat) (sessionId : Bytes) : RtspMessage := (ok cseq).setSession sessionId

def optionsResponse (cseq : Nat) : RtspMessage :=
  (ok cseq).set "Public" (ascii "OPTIONS, DESCRIBE, SETUP, PLAY, TEARDOWN, GET_PARAMETER")

def describeResponse (cseq : Nat) (sdp sessionId : Bytes) : RtspMessage :=
  { (((ok cseq).setSession sessionId).set "Content-Type" (ascii "application/sdp")).set
      "Content-Base" [] with body := sdp, sdp := sdp }

def setupResponse (cseq : Nat) (sessionId : Bytes) (serverRtpPort serverRtcpPort : Int) :
    RtspMessage :=
  (ok cseq)
    |>.set "Session" (sessionId ++ ascii ";timeout=60")
    |>.set "Transport" (ascii "RTP/AVP;unicast;server_port=" ++ decimalInt serverRtpPort ++
      ascii "-" ++ decimalInt serverRtcpPort)

def playResponse (cseq : Nat) (sessionId : Bytes) : RtspMessage :=
  (ok cseq)
    |>.set "Session" sessionId
    |>.set "Range" (ascii "npt=0.000-")

def teardownResponse (cseq : Nat) (sessionId : Bytes) : RtspMessage :=
  (ok cseq).setSession sessionId

def errorResponse (cseq : Nat) (status : Int) (reason : Bytes) : RtspMessage :=
  { type := .response, statusCode := status, reason := reason, cseq := cseq }

def headerText (entry : Bytes × Bytes) : Bytes :=
  if entry.1 = ascii "CSeq" then [] else entry.1 ++ ascii ": " ++ entry.2 ++ crlf

def serialize (order : HeaderOrder) (m : RtspMessage) : Bytes :=
  (if m.type = .request then
      methodToString m.method ++ ascii " " ++ m.url ++ ascii " " ++ m.version ++ crlf
    else m.version ++ ascii " " ++ decimalInt m.statusCode ++ ascii " " ++ m.reason ++ crlf) ++
  ascii "CSeq: " ++ decimal m.cseq ++ crlf ++
  (order.list m.headers).flatMap headerText ++
  (if m.body = [] then [] else ascii "Content-Length: " ++ decimal m.body.length ++ crlf) ++
  crlf ++ m.body

def startLine (firstLine : Bytes) (msg : RtspMessage) : Except Exn (Bool × RtspMessage) := do
  let name ← substr firstLine 0 5
  if name = ascii "RTSP/" then
    let msg := { msg with type := .response }
    match ← threeParts firstLine with
    | none => .ok (false, msg)
    | some (version, status, reason) =>
      .ok (true, { msg with version := version, statusCode := atoi status, reason := reason })
  else
    let msg := { msg with type := .request }
    match ← threeParts firstLine with
    | none => .ok (false, msg)
    | some (method, url, version) =>
      .ok (true, { msg with method := parseMethod method, url := url, version := version })

-- `Session` may carry a parameter such as ";timeout=60".
def sessionValue (val : Bytes) : Bytes :=
  match find [59] val with
  | some semi => val.take semi
  | none => val

def field (msg : RtspMessage) (key val : Bytes) : RtspMessage :=
  let msg := { msg with headers := msg.headers.insert key val }
  let msg := if key = ascii "CSeq" then { msg with cseq := (atoi val % 2 ^ 32).toNat } else msg
  let msg := if key = ascii "Session" then { msg with sessionId := sessionValue val } else msg
  if key = ascii "Transport" then { msg with transport := val } else msg

def setBody (msg : RtspMessage) (body : Bytes) : RtspMessage :=
  let msg := { msg with body := body }
  match msg.headers.lookup (ascii "Content-Type") with
  | some ct => if (find (ascii "sdp") ct).isSome then { msg with sdp := msg.body } else msg
  | none => msg

/-! The two numbers behind `key` in a Transport value: the first read right after
it, the second after the next dash. Both keys in use have twelve characters. -/
def transportRange (key tp : Bytes) : Option (Int × Int) := do
  let pos ← find key tp
  let dash ← findFrom [45] tp (pos + 12)
  some (atoi (tp.drop (pos + 12)), atoi (tp.drop (dash + 1)))

def channels (range : Int × Int) : UInt8 × UInt8 := (.ofInt range.1, .ofInt range.2)

theorem startLineStarts (line : Bytes) (msg : RtspMessage) :
    ∃ out, startLine line msg = .ok (decide (Accepts line), out) ∧
      out.headers = msg.headers ∧ out.body = msg.body := by
  obtain ⟨parts, found, accepted⟩ := threePartsOk line
  unfold startLine
  rw [substrOk (Nat.zero_le _), found]
  cases parts with
  | none =>
    have refused : ¬ Accepts line := fun h => by simpa using accepted.mpr h
    simp only [bind, Except.bind, refused, decide_false]
    split <;> exact ⟨_, rfl, rfl, rfl⟩
  | some three =>
    have taken : Accepts line := accepted.mp rfl
    simp only [bind, Except.bind, taken, decide_true]
    split <;> exact ⟨_, rfl, rfl, rfl⟩

def rtspGrammar : Grammar RtspMessage where
  fresh := {}
  startLine := startLine
  field := field
  headers := RtspMessage.headers
  bodyOf := RtspMessage.body
  setBody := setBody
  freshHeaders := rfl
  freshBody := rfl
  starts := startLineStarts
  fieldHeaders msg key val := by
    unfold field
    repeat' split
    all_goals rfl
  fieldBody msg key val := by
    unfold field
    repeat' split
    all_goals rfl
  bodySet msg bytes := by
    unfold setBody
    dsimp only
    repeat' split
    all_goals rfl

def parse (buf : ByteBuffer) : Except Exn (Parsed RtspMessage) := MessageText.parse rtspGrammar buf

end RtspRelay.Protocol
