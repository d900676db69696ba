import Mathlib.Algebra.Order.BigOperators.Group.List
import Mathlib.Algebra.Order.Group.Nat
import RtspRelay.Answers
import RtspRelay.ExchangeSteps
import RtspRelay.PrintedStream

/-! What a source and a session of this relay say to each other: four requests and
their answers, how either side reads the other's, and where that leaves it. -/
namespace RtspRelay.HandshakeScript
open Machine ByteSearch Protocol PrintedText RoundTrip PrintedStream Session Exchange
open Source (World)
open Answers (Env lookupSet lookupSetSame sessionValuePlain sessionValueTimeout
  generateSessionIdPlain)

structure UrlText (url : Bytes) : Prop where
  space : (32 : UInt8) ∉ url
  line : (13 : UInt8) ∉ url ∧ (10 : UInt8) ∉ url

structure IdText (id : Bytes) : Prop where
  length : id.length = 8
  plain : ∀ b ∈ id, 48 ≤ b ∧ b ≠ 59

theorem generatedText (n : UInt32) : IdText (generateSessionId n) :=
  ⟨by simp [generateSessionId], (generateSessionIdPlain n).2⟩

def transport : Bytes := ascii "RTP/AVP/TCP;unicast;interleaved=0-1"

def asks (url id : Bytes) : Nat → RtspMessage
  | 0 => optionsRequest url 1
  | 1 => describeRequest url 2
  | 2 => setupAsked url 3 id
  | _ => playRequest url 4 id

def answers (url id sdp : Bytes) : Nat → RtspMessage
  | 0 => (optionsResponse 1).set "Session" id
  | 1 => (describeResponse 2 sdp id).set "Content-Base" (url ++ ascii "/")
  | 2 => (setupResponse 3 id 0 0).set "Transport" transport
  | _ => (playResponse 4 id).set "RTP-Info" (ascii "url=" ++ url ++ ascii ";seq=0;rtptime=0")

-- The messages of either side by their number; from 3 on it is the last one.
@[elab_as_elim]
theorem scriptCases {P : Nat → Prop} (options : P 0) (describe : P 1) (setup : P 2)
    (play : ∀ k, P (k + 3)) : (k : Nat) → P k
  | 0 => options
  | 1 => describe
  | 2 => setup
  | k + 3 => play k

section
variable {url id sdp : Bytes}

/-! Both are printed so that they can be read. -/

theorem idNamed (text : IdText id) : id ≠ [] := by
  intro empty
  have length := text.length
  rw [empty] at length
  contradiction

theorem idFresh (text : IdText id) {b : UInt8} (other : b < 48 ∨ b = 59) : b ∉ id := by
  intro inside
  obtain ⟨high, semi⟩ := text.plain b inside
  rcases other with low | same
  · exact absurd high (UInt8.not_le.mpr low)
  · exact semi same

theorem idValue (text : IdText id) (suffix : Bytes) (plain : (13 : UInt8) ∉ suffix ∧ (10 : UInt8) ∉ suffix) :
    PrintableValue (id ++ suffix) := by
  have line := idFresh text (b := 13) (.inl (by decide))
  have feed := idFresh text (b := 10) (.inl (by decide))
  have space := idFresh text (b := 32) (.inl (by decide))
  refine ⟨⟨?_, ?_⟩, ?_⟩
  · exact fun inside => (List.mem_append.mp inside).elim line plain.1
  · exact fun inside => (List.mem_append.mp inside).elim feed plain.2
  · obtain ⟨b, rest, shape⟩ := List.exists_cons_of_ne_nil (idNamed text)
    rw [shape, List.cons_append, List.head?_cons]
    intro same
    rw [shape, Option.some.inj same] at space
    exact space List.mem_cons_self

theorem idAlone (text : IdText id) : PrintableValue id := by
  have value := idValue text [] ⟨nofun, nofun⟩
  rwa [List.append_nil] at value

theorem setPrintable {m : RtspMessage} (printable : Printable m) {key : String} {val : Bytes}
    (named : PrintableKey (ascii key)) (valued : PrintableValue val) : Printable (m.set key val) :=
  ⟨printable.start, printable.version, printable.cseq,
    headersInsert printable.headers ⟨named, valued⟩⟩

theorem setSessionPrintable {m : RtspMessage} (printable : Printable m) (text : IdText id) :
    Printable (m.setSession id) := by
  rw [RtspMessage.setSession, if_neg (idNamed text)]
  exact setPrintable printable (by decide) (idAlone text)

theorem barePrintable {m : RtspMessage} (start : PrintableStart m) (version : m.version = ascii "RTSP/1.0")
    (cseq : m.cseq < 2 ^ 32) (bare : m.headers = ∅) : Printable m :=
  ⟨start, version, cseq, fun key val found => by rw [bare] at found; contradiction⟩

theorem fixedPrintable {m : RtspMessage} (printable : Printable m) {key : String} {val : Bytes}
    (text : PrintableKey (ascii key) ∧ PrintableValue val) : Printable (m.set key val) :=
  setPrintable printable text.1 text.2

theorem sessionPrintable {m : RtspMessage} (printable : Printable m) {val : Bytes}
    (valued : PrintableValue val) : Printable (m.set "Session" val) :=
  setPrintable printable (by decide) valued

theorem asksPrintable (urlText : UrlText url) (text : IdText id) (k : Nat) : Printable (asks url id k) := by
  have bare : ∀ (method : RtspMethod) (cseq : Nat), method ≠ .none → cseq < 2 ^ 32 →
      Printable { type := .request, method := method, url := url, cseq := cseq } :=
    fun method cseq named small =>
      barePrintable ⟨named, urlText.space, urlText.line.1, urlText.line.2⟩ rfl small rfl
  cases k using scriptCases with
  | options => exact fixedPrintable (bare .options 1 nofun (by decide)) (by decide)
  | describe =>
    have typed := bare .describe 2 nofun (by decide)
    exact fixedPrintable (fixedPrintable typed (by decide)) (by decide)
  | setup =>
    have session := setSessionPrintable (bare .setup 3 nofun (by decide)) text
    exact fixedPrintable (fixedPrintable (fixedPrintable session (by decide)) (by decide)) (by decide)
  | play =>
    have session := sessionPrintable (bare .play 4 nofun (by decide)) (idAlone text)
    exact fixedPrintable (fixedPrintable session (by decide)) (by decide)

theorem okPrintable (cseq : Nat) (small : cseq < 2 ^ 32) : Printable (ok cseq) := by
  have start : PrintableStart (ok 0) := ⟨by decide, by decide, by decide, by decide⟩
  exact barePrintable (m := ok cseq) start rfl small rfl

theorem urlBase (urlText : UrlText url) : PrintableValue (url ++ ascii "/") := by
  refine ⟨⟨?_, ?_⟩, ?_⟩
  · exact fun inside => (List.mem_append.mp inside).elim urlText.line.1 (by decide)
  · exact fun inside => (List.mem_append.mp inside).elim urlText.line.2 (by decide)
  · cases url with
    | nil => decide
    | cons b rest =>
      intro same
      exact urlText.space (Option.some.inj same ▸ List.mem_cons_self)

theorem urlInfo (urlText : UrlText url) :
    PrintableValue (ascii "url=" ++ url ++ ascii ";seq=0;rtptime=0") := by
  refine ⟨⟨?_, ?_⟩, ?_⟩
  · simp only [List.mem_append, not_or]
    exact ⟨⟨by decide, urlText.line.1⟩, by decide⟩
  · simp only [List.mem_append, not_or]
    exact ⟨⟨by decide, urlText.line.2⟩, by decide⟩
  · have first : (ascii "url=" ++ url ++ ascii ";seq=0;rtptime=0").head? = some 117 := rfl
    rw [first]
    decide

theorem answersPrintable (urlText : UrlText url) (text : IdText id) (k : Nat) :
    Printable (answers url id sdp k) := by
  cases k using scriptCases with
  | options =>
    have public_ : Printable (optionsResponse 1) := fixedPrintable (okPrintable 1 (by decide)) (by decide)
    exact sessionPrintable public_ (idAlone text)
  | describe =>
    have session := setSessionPrintable (okPrintable 2 (by decide)) text
    have based : Printable ((((ok 2).setSession id).set "Content-Type"
        (ascii "application/sdp")).set "Content-Base" []) :=
      fixedPrintable (fixedPrintable session (by decide)) (by decide)
    have described : Printable (describeResponse 2 sdp id) :=
      ⟨based.start, based.version, based.cseq, based.headers⟩
    exact setPrintable described (by decide) (urlBase urlText)
  | setup =>
    have session := sessionPrintable (okPrintable 3 (by decide))
      (idValue text (ascii ";timeout=60") (by decide))
    exact fixedPrintable (fixedPrintable session (by decide)) (by decide)
  | play =>
    have session := sessionPrintable (okPrintable 4 (by decide)) (idAlone text)
    have ranged : Printable (playResponse 4 id) := fixedPrintable session (by decide)
    exact setPrintable ranged (by decide) (urlInfo urlText)

/-! How long the lines behind the start line get. -/

def weight (fs : List (Bytes × Bytes)) : Nat := (fs.map fun f => f.1.length + f.2.length + 4).sum

def headersWeight (m : RtspMessage) : Nat := weight (m.headers.entries.map fun e => (e.1, e.2))

theorem closedWeight (fs : List (Bytes × Bytes)) : (closed fs).length = weight fs + 4 := by
  induction fs with
  | nil => rfl
  | cons f fs ih =>
    have separator : (ascii ": ").length = 2 := by decide
    simp only [closed, lineText, List.length_append, ih, separator, crlf, weight, List.map_cons,
      List.sum_cons, List.length_cons, List.length_nil]
    omega

theorem decimalShort {n : Nat} (small : n < 2 ^ 64) : (decimal n).length ≤ 20 := by
  rw [decimal, List.length_map]
  exact (Nat.length_toDigits_le_iff (by decide) (by decide)).mpr (by omega)

theorem linesShort (order : HeaderOrder) {m : RtspMessage} (cseq : m.cseq < 2 ^ 32)
    (body : m.body.length ≤ stringMaxSize) :
    (closed (writtenFields order m)).length ≤ headersWeight m + 70 := by
  have headers : weight (order.list m.headers) = headersWeight m :=
    ((order.permutes m.headers).map _).sum_nat
  have number : (decimal m.cseq).length ≤ 20 := decimalShort (by omega)
  have size : (decimal m.body.length).length ≤ 20 := decimalShort (by unfold stringMaxSize at body; omega)
  have length : weight (lengthField m) ≤ 38 := by
    have name : (ascii "Content-Length").length = 14 := by decide
    unfold lengthField
    split
    · exact Nat.zero_le _
    · simp only [weight, List.map_cons, List.map_nil, List.sum_cons, List.sum_nil, name]
      omega
  have name : (ascii "CSeq").length = 4 := by decide
  have parts : weight (writtenFields order m) =
      (ascii "CSeq").length + (decimal m.cseq).length + 4 + weight (order.list m.headers) +
        weight (lengthField m) := by
    simp only [writtenFields, weight, List.map_append, List.map_cons, List.sum_append, List.sum_cons]
  rw [closedWeight, parts, headers, name]
  omega

theorem setWeight {m : RtspMessage} {n : Nat} (light : headersWeight m ≤ n) {key : String} {val : Bytes}
    {k : Nat} (size : (ascii key).length + val.length ≤ k) :
    headersWeight (m.set key val) ≤ n + k + 4 := by
  have erased := (List.kerase_sublist (ascii key) m.headers.entries).map fun e =>
    (Sigma.fst e).length + (Sigma.snd e).length + 4
  have less := erased.sum_le_sum fun _ _ => Nat.zero_le _
  have entries : headersWeight (m.set key val) = (ascii key).length + val.length + 4 +
      ((m.headers.entries.kerase (ascii key)).map fun e =>
        (Sigma.fst e).length + (Sigma.snd e).length + 4).sum := by
    simp only [headersWeight, weight, RtspMessage.set, AList.entries_insert, List.map_cons,
      List.sum_cons, List.map_map, Function.comp_def]
  have before : headersWeight m =
      (m.headers.entries.map fun e => (Sigma.fst e).length + (Sigma.snd e).length + 4).sum := by
    simp only [headersWeight, weight, List.map_map, Function.comp_def]
  rw [entries]
  rw [before] at light
  omega

theorem idLight (text : IdText id) (suffix : Bytes) :
    (ascii "Session").length + (id ++ suffix).length = 15 + suffix.length := by
  have name : (ascii "Session").length = 7 := by decide
  rw [List.length_append, text.length, name]
  omega

theorem sessionLight {m : RtspMessage} {n : Nat} (light : headersWeight m ≤ n) (text : IdText id) :
    headersWeight (m.set "Session" id) ≤ n + 15 + 4 := by
  have size := idLight text []
  rw [List.append_nil] at size
  exact setWeight light (Nat.le_of_eq size)

theorem fixedLight {m : RtspMessage} {n : Nat} (light : headersWeight m ≤ n) {key : String} {val : Bytes}
    (size : (ascii key).length + val.length ≤ 80) : headersWeight (m.set key val) ≤ n + 84 :=
  setWeight light size

theorem asksLight (text : IdText id) (k : Nat) : headersWeight (asks url id k) ≤ 400 := by
  have bare : ∀ method cseq,
      headersWeight { type := .request, method := method, url := url, cseq := cseq } ≤ 0 :=
    fun _ _ => Nat.le_refl 0
  cases k using scriptCases with
  | options => exact Nat.le_trans (fixedLight (bare .options 1) (by decide)) (by decide)
  | describe =>
    exact Nat.le_trans (fixedLight (fixedLight (bare .describe 2) (by decide)) (by decide)) (by decide)
  | setup =>
    have session := sessionLight (bare .setup 3) text
    rw [asks, setupAsked, setupRequest, RtspMessage.setSession, if_neg (idNamed text)]
    refine Nat.le_trans (fixedLight (fixedLight (fixedLight session ?_) ?_) ?_) (by decide)
    · decide
    · decide
    · decide
  | play =>
    have session := sessionLight (bare .play 4) text
    exact Nat.le_trans (fixedLight (fixedLight session (by decide)) (by decide)) (by decide)

theorem answersLight (text : IdText id) (k : Nat) :
    headersWeight (answers url id sdp k) ≤ url.length + 400 := by
  have bare : ∀ cseq, headersWeight (ok cseq) ≤ 0 := fun _ => Nat.le_refl 0
  cases k using scriptCases with
  | options =>
    refine Nat.le_trans (sessionLight (fixedLight (bare 1) ?_) text) (by omega)
    decide
  | describe =>
    have session : headersWeight ((ok 2).setSession id) ≤ 0 + 15 + 4 := by
      rw [RtspMessage.setSession, if_neg (idNamed text)]
      exact sessionLight (bare 2) text
    have described : headersWeight (describeResponse 2 sdp id) ≤ 0 + 15 + 4 + 84 + 84 :=
      fixedLight (m := ((ok 2).setSession id).set "Content-Type" (ascii "application/sdp"))
        (fixedLight session (by decide)) (by decide)
    have base : (ascii "Content-Base").length + (url ++ ascii "/").length ≤ url.length + 13 := by
      have name : (ascii "Content-Base").length = 12 := by decide
      have slash : (ascii "/").length = 1 := by decide
      rw [List.length_append, name, slash]
      omega
    exact Nat.le_trans (setWeight described base) (by omega)
  | setup =>
    have timeout : (ascii "Session").length + (id ++ ascii ";timeout=60").length ≤ 26 := by
      rw [idLight text]
      decide
    have session := setWeight (bare 3) timeout
    refine Nat.le_trans (fixedLight (fixedLight session ?_) ?_) (by omega)
    · decide
    · decide
  | play =>
    have played : headersWeight (playResponse 4 id) ≤ 0 + 15 + 4 + 84 :=
      fixedLight (sessionLight (bare 4) text) (by decide)
    have info : (ascii "RTP-Info").length + (ascii "url=" ++ url ++ ascii ";seq=0;rtptime=0").length ≤
        url.length + 30 := by
      have name : (ascii "RTP-Info").length = 8 := by decide
      have first : (ascii "url=").length = 4 := by decide
      have last : (ascii ";seq=0;rtptime=0").length = 16 := by decide
      rw [List.length_append, List.length_append, name, first, last]
      omega
    exact Nat.le_trans (setWeight played info) (by omega)

theorem asksPlain (order : HeaderOrder) (urlText : UrlText url) (text : IdText id) (k : Nat) :
    Plain order (.message (asks url id k)) := by
  have printable := asksPrintable urlText text k
  have body : (asks url id k).body.length ≤ stringMaxSize := by
    have none : (asks url id k).body = [] := by
      match k with
      | 0 | 1 | _ + 3 => rfl
      | 2 =>
        rw [asks, setupAsked, setupRequest, RtspMessage.setSession, if_neg (idNamed text)]
        rfl
    rw [none]
    decide
  have short := linesShort order printable.cseq body
  have light : headersWeight (asks url id k) ≤ 400 := asksLight text k
  exact ⟨printable, by omega⟩

theorem answersPlain (order : HeaderOrder) (urlText : UrlText url) (text : IdText id)
    (short : url.length ≤ intMax) (held : sdp.length ≤ stringMaxSize) (k : Nat) :
    Plain order (.message (answers url id sdp k)) := by
  have printable : Printable (answers url id sdp k) := answersPrintable urlText text k
  have body : (answers url id sdp k).body.length ≤ stringMaxSize := by
    match k with
    | 0 | 2 | _ + 3 => exact Nat.zero_le _
    | 1 => exact held
  have lines := linesShort order printable.cseq body
  have light : headersWeight (answers url id sdp k) ≤ url.length + 400 := answersLight text k
  unfold intMax at short
  exact ⟨printable, by omega⟩

end
end RtspRelay.HandshakeScript
