import RtspRelay.General.JsonWriting
import RtspRelay.ApiRequests
import RtspRelay.PrintedText

/-! The JSON of the API's answers. jsonEscape knows the quote, the backslash and three control
bytes; any other control byte of a path or a URL goes into the answer as it is. -/
namespace RtspRelay.JsonAnswers
open Machine ByteSearch Json Transition Manager Session Service Routing StreamApi ApiRequests
open HttpMessage (HttpRequest)
open Protocol (RtspMessage HeaderOrder)
open Source (sourceStateToString)

-- The control bytes in it are those that jsonEscape knows.
def Escapable (s : Bytes) : Prop := ∀ b ∈ s, 32 ≤ b ∨ b = 9 ∨ b = 10 ∨ b = 13

instance (s : Bytes) : Decidable (Escapable s) := List.decidableBAll _ s

theorem escapeCharText {b : UInt8} (known : 32 ≤ b ∨ b = 9 ∨ b = 10 ∨ b = 13) {raw : Bytes}
    {chars : List StringChar} (later : Chars raw chars) : Chars (escapeChar b ++ raw) (.byte b :: chars) := by
  unfold escapeChar
  split_ifs with quote backslash feed line tab
  · subst quote
    exact .escape rfl later
  · subst backslash
    exact .escape rfl later
  · subst feed
    exact .escape rfl later
  · subst line
    exact .escape rfl later
  · subst tab
    exact .escape rfl later
  · have high : 32 ≤ b := by
      rcases known with high | same | same | same
      · exact high
      · exact absurd same tab
      · exact absurd same feed
      · exact absurd same line
    exact .plain high ⟨quote, backslash⟩ later

theorem escapedText {s : Bytes} (known : Escapable s) : Chars (jsonEscape s) (s.map .byte) := by
  induction s with
  | nil => exact .nil
  | cons b s ih =>
    obtain ⟨here, later⟩ := List.forall_mem_cons.mp known
    exact escapeCharText here (ih later)

theorem stringText {s : Bytes} (known : Escapable s) :
    Text (.value (.string s)) (34 :: (jsonEscape s ++ [34])) := by
  have text := Text.string (escapedText known)
  rwa [decodedBytes] at text

theorem unescapedStays {s : Bytes} {b : UInt8} (inside : b ∈ s) (control : b < 32)
    (other : b ≠ 9 ∧ b ≠ 10 ∧ b ≠ 13) : b ∈ jsonEscape s := by
  have quote : b ≠ 34 ∧ b ≠ 92 := by
    constructor <;> (rintro rfl; exact absurd control (by decide))
  have same : escapeChar b = [b] := by
    simp [escapeChar, quote.1, quote.2, other.1, other.2.1, other.2.2]
  exact List.mem_flatMap.mpr ⟨b, inside, by simp [same]⟩

theorem formedEscapable {t s : Bytes} (formed : WellFormed t) (covers : ∀ b ∈ jsonEscape s, b ∈ t) :
    Escapable s := by
  intro b inside
  by_contra unknown
  simp only [not_or, UInt8.not_le] at unknown
  have visible := documentVisible formed b (covers b (unescapedStays inside unknown.1 unknown.2))
  rcases visible with high | blank
  · exact absurd unknown.1 (UInt8.not_lt.mpr high)
  · simp only [isBlank, Bool.or_eq_true, beq_iff_eq] at blank
    rcases blank with ((same | same) | same) | same
    · rw [same] at unknown
      exact absurd unknown.1 (by decide)
    · exact unknown.2.1 same
    · exact unknown.2.2.1 same
    · exact unknown.2.2.2 same

/-! Numbers. -/

theorem digitAppended (ds : Bytes) (b : UInt8) :
    Json.digitsValue (ds ++ [b]) = 10 * Json.digitsValue ds + (b.toNat - 48) := by
  simp [Json.digitsValue, List.foldl_append]

theorem wholeAppended {ds : Bytes} (whole : Whole ds) (positive : Json.digitsValue ds ≠ 0) {b : UInt8}
    (digit : Json.isDigit b = true) : Whole (ds ++ [b]) := by
  cases whole with
  | zero => exact absurd rfl positive
  | digits first later =>
    rw [List.cons_append]
    refine .digits first ?_
    simp only [List.forall_mem_append, List.forall_mem_cons]
    exact ⟨later, digit, nofun⟩

theorem decimalWhole (n : Nat) : Whole (decimal n) ∧ Json.digitsValue (decimal n) = n := by
  induction n using Nat.strongRecOn with
  | ind n ih =>
    have byte : ∀ d < 10, Json.isDigit (UInt8.ofNat d.digitChar.toNat) = true ∧
        (UInt8.ofNat d.digitChar.toNat).toNat - 48 = d ∧
        (d ≠ 0 → 49 ≤ UInt8.ofNat d.digitChar.toNat ∧ UInt8.ofNat d.digitChar.toNat ≤ 57) := by decide
    unfold decimal
    rw [Nat.toDigits_eq_if (by decide)]
    split
    · rename_i small
      obtain ⟨digit, value, first⟩ := byte n small
      refine ⟨?_, ?_⟩
      · rcases Nat.eq_zero_or_pos n with rfl | positive
        · exact .zero
        · exact .digits (first (Nat.pos_iff_ne_zero.mp positive)) nofun
      · simpa [Json.digitsValue] using value
    · rename_i large
      obtain ⟨whole, value⟩ := ih (n / 10) (by omega)
      obtain ⟨digit, last, -⟩ := byte (n % 10) (by omega)
      have positive : Json.digitsValue (decimal (n / 10)) ≠ 0 := by omega
      have whole := wholeAppended whole positive digit
      have total : Json.digitsValue (decimal (n / 10) ++ [UInt8.ofNat (n % 10).digitChar.toNat]) = n := by
        rw [digitAppended, last, value]
        omega
      rw [List.map_append, List.map_cons, List.map_nil]
      exact ⟨whole, total⟩

theorem numberText (n : Nat) : Text (.value (.number n)) (decimal n) := by
  obtain ⟨whole, value⟩ := decimalWhole n
  have text := wholeText whole
  rwa [value] at text

/-! What each answer says. -/

def infoValue (info : StreamInfo) : Value :=
  .object [(ascii "path", .string info.streamPath), (ascii "upstream", .string info.upstreamUrl),
    (ascii "source_state", .string info.sourceState), (ascii "sink_count", .number info.sinkCount),
    (ascii "has_sdp", .bool info.hasSdp)]

def listValue (infos : List StreamInfo) : Value :=
  .object [(ascii "code", .number (0 : Nat)), (ascii "data", .object
    [(ascii "total", .number infos.length), (ascii "streams", .array (infos.map infoValue))])]

structure EscapableInfo (info : StreamInfo) : Prop where
  path : Escapable info.streamPath
  upstream : Escapable info.upstreamUrl
  state : Escapable info.sourceState

theorem flagText (b : Bool) : Text (.value (.bool b)) (if b then ascii "true" else ascii "false") := by
  cases b with
  | true => exact .yes
  | false => exact .no

theorem infoText {info : StreamInfo} (known : EscapableInfo info) :
    Text (.value (infoValue info)) (ascii "\x7b" ++ infoMembers info ++ ascii "\x7d") := by
  have flag := oneWritten (ascii "has_sdp") (by decide) (flagText info.hasSdp) noneWritten
  have count := oneWritten (ascii "sink_count") (by decide) (numberText info.sinkCount) flag
  have state := oneWritten (ascii "source_state") (by decide) (stringText known.state) count
  have upstream := oneWritten (ascii "upstream") (by decide) (stringText known.upstream) state
  have path := oneWritten (ascii "path") (by decide) (stringText known.path) upstream
  have object := objectText path
  simpa [infoMembers, infoValue, memberBytes, List.intercalate, ascii] using object

theorem dataText {v : Value} {t : Bytes} (text : Text (.value v) t) :
    Text (.value (.object [(ascii "code", .number (0 : Nat)), (ascii "data", v)]))
      (ascii "\x7b\"code\":0,\"data\":" ++ t ++ ascii "\x7d") := by
  have data := oneWritten (ascii "data") (by decide) text noneWritten
  have object := objectText (oneWritten (ascii "code") (by decide) (numberText 0) data)
  have zero : decimal 0 = [48] := rfl
  simpa [memberBytes, zero, List.intercalate, ascii] using object

theorem listText {infos : List StreamInfo} (known : ∀ info ∈ infos, EscapableInfo info) :
    Text (.value (listValue infos)) (listJson infos) := by
  have each : ∀ x ∈ infos.map (fun info => (infoValue info, ascii "\x7b" ++ infoMembers info ++ ascii "\x7d")),
      Text (.value x.1) x.2 := by
    intro x inside
    obtain ⟨info, there, rfl⟩ := List.mem_map.mp inside
    exact infoText (known info there)
  have streams := arrayText each
  simp only [List.map_map, Function.comp_def] at streams
  have rest := oneWritten (ascii "streams") (by decide) streams noneWritten
  have data := objectText (oneWritten (ascii "total") (by decide) (numberText infos.length) rest)
  simpa [listJson, listValue, memberBytes, List.intercalate, ascii] using dataText data

theorem streamText {info : StreamInfo} (known : EscapableInfo info) : WellFormed (streamJson info) := by
  have answer := dataText (infoText known)
  exact ⟨_, textDocument (by simpa [streamJson, ascii] using answer)⟩

def createdValue (path upstream url : Bytes) : Value :=
  .object [(ascii "code", .number (0 : Nat)), (ascii "message", .string (ascii "stream added")),
    (ascii "data", .object [(ascii "path", .string path), (ascii "upstream", .string upstream),
      (ascii "proxy_url", .string url)])]

theorem createdText {path upstream url : Bytes} (path_ : Escapable path) (upstream_ : Escapable upstream)
    (url_ : Escapable url) : Document (createdJson path upstream url) (createdValue path upstream url) := by
  have proxy := oneWritten (ascii "proxy_url") (by decide) (stringText url_) noneWritten
  have rest := oneWritten (ascii "upstream") (by decide) (stringText upstream_) proxy
  have data := objectText (oneWritten (ascii "path") (by decide) (stringText path_) rest)
  have behind := oneWritten (ascii "data") (by decide) data noneWritten
  have said : Plain (ascii "stream added") := by decide
  have message := oneWritten (ascii "message") (by decide) (plainText said) behind
  have object := objectText (oneWritten (ascii "code") (by decide) (numberText 0) message)
  have zero : decimal 0 = [48] := rfl
  exact textDocument (by simpa [createdJson, createdValue, zero, memberBytes, List.intercalate, ascii] using object)

def errorValue (text : String) : Value := .object [(ascii "error", .string (ascii text))]

theorem errorText {text : String} (plain : Plain (ascii text)) : Document (errorJson text) (errorValue text) := by
  have object := objectText (oneWritten (ascii "error") (by decide) (plainText plain) noneWritten)
  exact textDocument (by simpa [errorJson, errorValue, memberBytes, List.intercalate, ascii] using object)

/-! The URL registered under a path. -/

def upstreamAt (m : RelayManager) (path : Bytes) : Option Bytes :=
  (m.streams.lookup path).map StreamRelay.upstreamUrl

theorem addSinkUpstream (m : RelayManager) (path : Bytes) (sink : SessionId) :
    upstreamAt (m.addSink path sink) = upstreamAt m := by
  funext other
  rw [upstreamAt, RelayManager.addSinkLookup, Option.map_map]
  congr 1
  funext relay
  exact apply_ite StreamRelay.upstreamUrl _ _ _ |>.trans (ite_self _)

theorem removeSinkUpstream (m : RelayManager) (path : Bytes) (sink : SessionId) :
    upstreamAt (m.removeSink path sink) = upstreamAt m := by
  funext other
  rw [upstreamAt, RelayManager.removeSinkLookup, Option.map_map]
  congr 1
  funext relay
  exact apply_ite StreamRelay.upstreamUrl _ _ _ |>.trans (ite_self _)

theorem closeUpstream (m : RelayManager) (self : SessionId) (session : RtspSession) :
    upstreamAt (close m self session).1 = upstreamAt m := by
  unfold close
  split
  · rfl
  · dsimp only
    split
    · exact removeSinkUpstream m _ self
    · rfl

theorem requestUpstream (s : Relay) (self : SessionId) (req : RtspMessage) (udp : UdpAnswers) :
    upstreamAt (s.step (.request self req udp)).manager = upstreamAt s.manager := by
  simp only [Relay.step, Relay.request, Relay.setSession]
  cases kind : role req with
  | other => rw [(otherHandled kind).1]; rfl
  | move => rw [(moveHandled kind).1]; rfl
  | play => rw [playHandled kind]; exact addSinkUpstream _ _ self
  | teardown => rw [teardownHandled kind]; exact closeUpstream _ self _

/-! What drives the relay: the requests of the API that change it, and all that comes from
the players and the sources. -/

inductive Call where
  | post (req : HttpRequest) (out : Outside)
  | delete (req : HttpRequest) (out : Outside)
  | request (self : SessionId) (req : RtspMessage) (udp : UdpAnswers)
  | lost (self : SessionId)
  | source (i : SourceId) (input : Source.Input)

def obey (rtspPort : UInt16) (s : Relay) : Call → Relay
  | .post req out => (postStream rtspPort out s req {}).1
  | .delete req out => (deleteStream out s req {}).1
  | .request self req udp => s.step (.request self req udp)
  | .lost self => s.step (.lost self)
  | .source i input => s.step (.source i input)

def Accepts (s : Relay) (b : Bytes) : Prop :=
  extractStringValue b (ascii "path") ≠ [] ∧ postedUrl b ≠ [] ∧
    (s.manager.addStream (postedPath b) (postedUrl b) s.nextSource).isSome = true

instance (s : Relay) (b : Bytes) : Decidable (Accepts s b) := inferInstanceAs (Decidable (_ ∧ _))

-- A POST that is accepted brings no other control bytes.
def Legible (s : Relay) : Call → Prop
  | .post req _ => Accepts s req.body → Escapable (postedPath req.body) ∧ Escapable (postedUrl req.body)
  | _ => True

def PostsJson (rtspPort : UInt16) (s : Relay) : Call → Prop
  | .post req out => WellFormed (postStream rtspPort out s req {}).2.body
  | _ => True

structure ReadsJson (s : Relay) : Prop where
  list : ∀ (order : StreamOrder) (req : HttpRequest), ∃ infos : List StreamInfo,
    infos.Perm (s.manager.streams.entries.map fun e => streamInfo s e.1 e.2) ∧
      ∀ v, Document (listStreams order s req {}).2.body v ↔ v = listValue infos
  single : ∀ (order : StreamOrder) (req : HttpRequest), WellFormed (oneStream order s req {}).2.body

def Registered (s : Relay) : Prop :=
  ∀ path url, upstreamAt s.manager path = some url → Escapable path ∧ Escapable url

/-! The answers of one state. -/

theorem stateEscapable (state : Source.State) : Escapable (sourceStateToString state) := by
  cases state <;> decide +kernel

theorem lookupEscapable {s : Relay} (registered : Registered s) {path : Bytes} {relay : StreamRelay}
    (found : s.manager.streams.lookup path = some relay) : EscapableInfo (streamInfo s path relay) := by
  have url : upstreamAt s.manager path = some relay.upstreamUrl := by rw [upstreamAt, found]; rfl
  obtain ⟨path_, upstream_⟩ := registered path relay.upstreamUrl url
  exact ⟨path_, upstream_, stateEscapable _⟩

theorem allPermuted (order : StreamOrder) (s : Relay) : (getAllStreamInfo order s).Perm
    (s.manager.streams.entries.map fun e => streamInfo s e.1 e.2) := by
  have perm := (order.permutes s.manager.streams).map fun entry => streamInfo s entry.1 entry.2
  rwa [List.map_map] at perm

theorem allEscapable {s : Relay} (registered : Registered s) (order : StreamOrder) :
    ∀ info ∈ getAllStreamInfo order s, EscapableInfo info := by
  intro info inside
  obtain ⟨e, there, rfl⟩ := List.mem_map.mp ((allPermuted order s).mem_iff.mp inside)
  exact lookupEscapable registered (AList.mem_lookup_iff.mpr there)

theorem registeredReads {s : Relay} (registered : Registered s) : ReadsJson s := by
  have list (order : StreamOrder) :
      Document (listJson (getAllStreamInfo order s)) (listValue (getAllStreamInfo order s)) :=
    textDocument (listText (allEscapable registered order))
  refine ⟨fun order req => ⟨getAllStreamInfo order s, allPermuted order s, fun v => ?_⟩, fun order req => ?_⟩
  · constructor
    · intro document
      exact documentUnique document (list order)
    · rintro rfl
      exact list order
  · unfold oneStream
    dsimp only
    split
    · exact ⟨_, list order⟩
    · split
      · exact ⟨_, errorText (by decide)⟩
      · rename_i info found
        obtain ⟨relay, present, rfl⟩ := Option.map_eq_some_iff.mp found
        exact streamText (lookupEscapable registered present)

/-! A POST. -/

theorem digitsEscapable {ds : Bytes} (digits : ∀ b ∈ ds, Json.isDigit b = true) : Escapable ds := by
  intro b inside
  have digit := (Bool.and_eq_true_iff.mp (digits b inside)).1
  exact .inl (UInt8.le_trans (by decide) (of_decide_eq_true digit))

theorem proxyEscapable {path : Bytes} (path_ : Escapable path) (rtspPort : UInt16) :
    Escapable (proxyUrl (ascii "<server_ip>") rtspPort path) := by
  unfold proxyUrl
  unfold Escapable
  simp only [List.forall_mem_append]
  have port := digitsEscapable (wholeDigits (decimalWhole rtspPort.toNat).1)
  exact ⟨⟨⟨⟨by decide +kernel, by decide +kernel⟩, by decide +kernel⟩, port⟩, path_⟩

theorem postRefused {rtspPort : UInt16} {out : Outside} {s : Relay} {req : HttpRequest}
    (refused : ¬ Accepts s req.body) : WellFormed (postStream rtspPort out s req {}).2.body := by
  unfold postStream
  dsimp only
  split
  · exact ⟨_, errorText (by decide)⟩
  · rename_i named
    split
    · exact ⟨_, errorText (by decide)⟩
    · rename_i m added
      obtain ⟨path, upstream⟩ := not_or.mp named
      exact absurd ⟨path, upstream, Option.isSome_of_eq_some added⟩ refused

theorem postAccepted {rtspPort : UInt16} {out : Outside} {s : Relay} {req : HttpRequest}
    (accepted : Accepts s req.body) : (postStream rtspPort out s req {}).2.body =
      createdJson (postedPath req.body) (postedUrl req.body)
        (proxyUrl (ascii "<server_ip>") rtspPort (postedPath req.body)) := by
  obtain ⟨path, upstream, added⟩ := accepted
  unfold postStream
  dsimp only
  split
  · rename_i missing
    exact absurd missing (not_or.mpr ⟨path, upstream⟩)
  · split
    · rename_i refused
      have accepted : none.isSome = true := (congrArg Option.isSome refused).symm.trans added
      contradiction
    · rfl

theorem postJson (rtspPort : UInt16) (out : Outside) (s : Relay) (req : HttpRequest) :
    WellFormed (postStream rtspPort out s req {}).2.body ↔ Legible s (.post req out) := by
  by_cases accepted : Accepts s req.body
  · rw [postAccepted accepted]
    constructor
    · intro formed _
      constructor
      · refine formedEscapable formed fun b inside => ?_
        simp [createdJson, inside]
      · refine formedEscapable formed fun b inside => ?_
        simp [createdJson, inside]
    · intro legible
      obtain ⟨path, upstream⟩ := legible accepted
      exact ⟨_, createdText path upstream (proxyEscapable path rtspPort)⟩
  · exact iff_of_true (postRefused accepted) fun yes => absurd yes accepted

theorem callJson (rtspPort : UInt16) (s : Relay) (call : Call) : PostsJson rtspPort s call ↔ Legible s call := by
  cases call with
  | post req out => exact postJson rtspPort out s req
  | delete | request | lost | source => exact .rfl

/-! What a run registers. -/

theorem postRegistered {rtspPort : UInt16} {out : Outside} {s : Relay} {req : HttpRequest}
    (registered : Registered s) (legible : Legible s (.post req out)) :
    Registered (postStream rtspPort out s req {}).1 := by
  rcases postOutcome s req rtspPort out with ⟨same, -⟩ | ⟨-, ⟨path, upstream⟩, added, -⟩
  · rwa [same]
  · have known := legible ⟨path, upstream, Option.isSome_of_eq_some added⟩
    intro other url found
    rw [upstreamAt, (RelayManager.addStreamFresh added).2] at found
    rcases eq_or_ne other (postedPath req.body) with rfl | differ
    · rw [AList.lookup_insert] at found
      cases Option.some.inj found
      exact known
    · rw [AList.lookup_insert_ne differ] at found
      exact registered other url found

theorem deleteRegistered {out : Outside} {s : Relay} {req : HttpRequest} (registered : Registered s) :
    Registered (deleteStream out s req {}).1 := by
  unfold deleteStream
  dsimp only
  split
  · exact registered
  · split
    · exact registered
    · rename_i removed
      obtain ⟨i, m⟩ := ‹SourceId × RelayManager›
      intro other url found
      rw [removeStreamManager removed, upstreamAt, (RelayManager.removeStreamErases removed).2] at found
      rcases eq_or_ne other (deletedPath req) with rfl | differ
      · rw [AList.lookup_erase] at found
        contradiction
      · rw [AList.lookup_erase_ne differ] at found
        exact registered other url found

theorem sameRegistered {s after : Relay} (registered : Registered s)
    (same : upstreamAt after.manager = upstreamAt s.manager) : Registered after := by
  intro path url found
  rw [same] at found
  exact registered path url found

theorem obeyRegistered {rtspPort : UInt16} (s : Relay) (call : Call) (registered : Registered s)
    (legible : Legible s call) : Registered (obey rtspPort s call) := by
  cases call with
  | post req out => exact postRegistered registered legible
  | delete req out => exact deleteRegistered registered
  | request self req udp => exact sameRegistered registered (requestUpstream s self req udp)
  | lost self => exact sameRegistered registered (closeUpstream _ self _)
  | source i input => exact registered

/-! Every answer of a run is JSON exactly when no accepted POST brings another control byte. -/
theorem answersJson (maxSources : Nat) (players : SessionId → Player) (headers : HeaderOrder)
    (rtspPort : UInt16) (calls : List Call) :
    (Always (obey rtspPort) ReadsJson (init maxSources players headers) calls ∧
        Throughout (obey rtspPort) (PostsJson rtspPort) (init maxSources players headers) calls) ↔
      Throughout (obey rtspPort) Legible (init maxSources players headers) calls := by
  have start : Registered (init maxSources players headers) := nofun
  constructor
  · intro answers
    exact throughoutMono (fun s call => (callJson rtspPort s call).mp) answers.2
  · intro legible
    have reads := alwaysAlong obeyRegistered (fun _ => registeredReads) start legible
    have posts := throughoutMono (fun s call => (callJson rtspPort s call).mpr) legible
    exact ⟨reads, posts⟩

/-! A byte 1 in the path. -/
def controlBody : Bytes := ascii "\x7b\"path\":\"/cam" ++ 1 :: ascii "\",\"upstream\":\"rtsp://10.0.0.9/cam\"\x7d"

theorem controlNotJson :
    ¬ ∀ (maxSources : Nat) (players : SessionId → Player) (headers : HeaderOrder) (rtspPort : UInt16)
        (calls : List Call), Always (obey rtspPort) ReadsJson (init maxSources players headers) calls ∧
      Throughout (obey rtspPort) (PostsJson rtspPort) (init maxSources players headers) calls := by
  intro always
  have posts := (always 500 (fun _ => ⟨ascii "10.0.0.7:5000", ascii "00000001"⟩) Protocol.insertionOrder 8554
    [.post (posting {} controlBody) offline]).2.1
  have accepted : Accepts (fresh 500) controlBody := by decide +kernel
  have known := (callJson _ _ _).mp posts accepted
  have unknown : ¬ Escapable (postedPath controlBody) := by decide +kernel
  exact unknown known.1

end RtspRelay.JsonAnswers
