import RtspRelay.Interleaving
import RtspRelay.RoundTrip

/-! A stream of printed messages and whole frames, read from any prefix of it: the
decoder takes the pieces one by one, and where a piece is too long for it, it
stops in front of that piece. -/
namespace RtspRelay.PrintedStream
open Machine ByteSearch Buffer MessageText MessageFraming Protocol PrintedText RoundTrip StreamDecoder
open Decoders

inductive Piece where
  | frame (channel : UInt8) (data : Bytes)
  | message (m : RtspMessage)

section
variable (order : HeaderOrder)

def bytes : Piece → Bytes
  | .frame channel data => Interleaving.frame channel data
  | .message m => serialize order m

def unitOf : Piece → StreamUnit
  | .frame channel data => .interleaved channel data
  | .message m => .message (readMessage order m)

-- The lines behind the start line do not wrap an int around to its start.
def Plain : Piece → Prop
  | .frame _ data => data.length ≤ 65535
  | .message m => Printable m ∧ (closed (writtenFields order m)).length < 2 ^ 32

def Readable : Piece → Prop
  | .frame _ _ => True
  | .message m => (headerBlock order m).length ≤ intMax ∧ m.body.length ≤ stringMaxSize

def stream (pieces : List Piece) : Bytes := pieces.flatMap (bytes order)
end

variable {order : HeaderOrder}

theorem startLineFound {m : RtspMessage} (printable : Printable m) {header t : Bytes}
    (cut : headerBlock order m ++ t = header ++ (headerBlock order m ++ t).drop header.length)
    (started : Started header) : (startText m).length + 2 ≤ header.length := by
  unfold Started startOf at started
  cases found : find crlf header with
  | none =>
    rw [found] at started
    exact started.elim
  | some i =>
    have bound := (findOccurs found).2
    have first : find crlf (headerBlock order m) = some (startText m).length :=
      printedStart (startWhole printable.separated)
    have both := findAppend found ((headerBlock order m ++ t).drop header.length)
    rw [← cut, findAppend first t] at both
    cases Option.some.inj both
    exact bound

-- A message that is read at all is short enough to be read back.
theorem messageReadable {m : RtspMessage} (printable : Printable m)
    (lines : (closed (writtenFields order m)).length < 2 ^ 32) {t : Bytes} {out : Parsed RtspMessage}
    (parsed : outcome rtspGrammar (serialize order m ++ t) = .ok out) (ok : out.ok = true) :
    (headerBlock order m).length ≤ intMax ∧ m.body.length ≤ stringMaxSize := by
  obtain ⟨header, framed⟩ := outcomeFramed rtspGrammar parsed ok
  rw [serializePrinted printable.separated, List.append_assoc] at framed
  obtain ⟨slice, four, inside, small, p, found, size⟩ := blockHeader framed.shape
  have fields : ∀ f ∈ writtenFields order m, FieldLine f := printedFieldText printable.separated
  have ends := printedEnd (startWhole printable.separated) fields (m.body ++ t)
  have position : p = (headerBlock order m).length - 4 := Option.some.inj (found.symm.trans ends)
  have cut : headerBlock order m ++ (m.body ++ t) =
      header ++ (headerBlock order m ++ (m.body ++ t)).drop header.length := by
    conv => rhs; lhs; rw [slice]
    exact (List.take_append_drop _ _).symm
  have started := startLineFound printable cut framed.started
  have whole : (headerBlock order m).length = (startText m).length + (closed (writtenFields order m)).length :=
    List.length_append
  have four' := closedFour (writtenFields order m)
  have same : int32 p = p := int32Near (int32Le p) (by omega)
  have length : header.length = (headerBlock order m).length := by omega
  have header : header = headerBlock order m := by
    rw [slice, length, List.take_left]
  have fits := framed.representable
  rw [header, declaredBody printable.separated] at fits
  unfold stringMaxSize at fits ⊢
  omega

theorem methodByte (method : RtspMethod) : ∃ b rest, methodToString method = b :: rest ∧ b ≠ 36 := by
  cases method <;> exact ⟨_, _, rfl, by decide⟩

theorem startByte {m : RtspMessage} (printable : Printable m) :
    ∃ b rest, startText m = b :: rest ∧ b ≠ 36 := by
  unfold startText
  split
  · obtain ⟨b, rest, shape, other⟩ := methodByte m.method
    rw [shape]
    exact ⟨b, _, rfl, other⟩
  · have version : m.version = 82 :: ascii "TSP/1.0" := printable.version
    rw [version]
    exact ⟨82, _, rfl, by decide⟩

theorem messageStepped {m : RtspMessage} (printable : Printable m) (t : Bytes) :
    interleavedDecoder.step (serialize order m ++ t) =
      liftStep (messageStep rtspGrammar (serialize order m ++ t)) := by
  obtain ⟨b, rest, shape, other⟩ := startByte printable
  have text : serialize order m ++ t =
      b :: (rest ++ closed (writtenFields order m) ++ m.body ++ t) := by
    rw [serializePrinted printable.separated, headerBlock, shape]
    simp
  rw [text]
  exact if_neg other

theorem pieceStep {p : Piece} (plain : Plain order p) {t : Bytes} {u : StreamUnit} {n : Nat}
    (taken : interleavedDecoder.step (bytes order p ++ t) = .unit u n) :
    Readable order p ∧ u = unitOf order p ∧ n = (bytes order p).length := by
  cases p with
  | frame channel data =>
    rw [bytes, Interleaving.frameStepTakes channel plain t] at taken
    cases taken
    exact ⟨trivial, rfl, rfl⟩
  | message m =>
    obtain ⟨printable, lines⟩ := plain
    rw [bytes, messageStepped printable] at taken
    obtain ⟨msg, step, rfl⟩ := liftUnit taken
    obtain ⟨out, parsed, ok, rfl, rfl⟩ := messageUnit step
    obtain ⟨small, fits⟩ := messageReadable printable lines parsed ok
    have reads := smallReads printable.separated t small fits
    rw [parsed] at reads
    cases Except.ok.inj reads
    exact ⟨⟨small, fits⟩, rfl, rfl⟩

/-! What has been read is a prefix of the pieces; what is left continues the rest. -/
structure Taken (order : HeaderOrder) (pieces : List Piece) (b t : Bytes) (taken left : List Piece) :
    Prop where
  split : pieces = taken ++ left
  readable : ∀ p ∈ taken, Readable order p
  units : (decode interleavedDecoder b).1 = taken.map (unitOf order)
  rest : ∀ rest, (decode interleavedDecoder b).2 = .ok rest → rest ++ t = stream order left

theorem decodePieces {pieces : List Piece} (plain : ∀ p ∈ pieces, Plain order p) {b t : Bytes}
    (whole : b ++ t = stream order pieces) : ∃ taken left, Taken order pieces b t taken left := by
  induction pieces generalizing b with
  | nil =>
    obtain ⟨rfl, rfl⟩ := List.append_eq_nil_iff.mp whole
    have empty := decodeMore interleavedDecoder interleavedDecoder.empty
    refine ⟨[], [], rfl, List.forall_mem_nil _, by rw [empty]; rfl, fun rest ended => ?_⟩
    rw [empty] at ended
    cases ended
    rfl
  | cons p pieces ih =>
    obtain ⟨first, later⟩ := List.forall_mem_cons.mp plain
    cases step : interleavedDecoder.step b with
    | more =>
      have waits := decodeMore interleavedDecoder step
      refine ⟨[], p :: pieces, rfl, List.forall_mem_nil _, by rw [waits]; rfl, fun rest ended => ?_⟩
      rw [waits] at ended
      cases ended
      exact whole
    | fail e =>
      have fails := decodeFail interleavedDecoder step
      refine ⟨[], p :: pieces, rfl, List.forall_mem_nil _, by rw [fails]; rfl, fun rest ended => ?_⟩
      rw [fails] at ended
      contradiction
    | unit u n =>
      have stable := interleavedDecoder.unitStable step t
      rw [whole, stream, List.flatMap_cons] at stable
      obtain ⟨readable, rfl, rfl⟩ := pieceStep first stable
      have inside := (interleavedDecoder.progress step).2
      have behind : b.drop (bytes order p).length ++ t = stream order pieces := by
        rw [← List.drop_append_of_le_length inside, whole, stream, List.flatMap_cons, List.drop_left]
        rfl
      obtain ⟨taken, left, ends⟩ := ih later behind
      have decodes := decodeUnit interleavedDecoder step
      refine ⟨p :: taken, left, ?_, List.forall_mem_cons.mpr ⟨readable, ends.readable⟩, ?_, ?_⟩
      · rw [ends.split]
        rfl
      · rw [decodes, ends.units]
        rfl
      · rw [decodes]
        exact ends.rest

/-! The messages of a script from one place in it to another, with frames between them. -/
inductive Carries (script : Nat → RtspMessage) : Nat → Nat → List Piece → Prop where
  | done (k : Nat) : Carries script k k []
  | frame {k l : Nat} {pieces : List Piece} (channel : UInt8) {data : Bytes}
      (short : data.length ≤ 65535) (rest : Carries script k l pieces) :
      Carries script k l (.frame channel data :: pieces)
  | message {k l : Nat} {pieces : List Piece} (rest : Carries script (k + 1) l pieces) :
      Carries script k l (.message (script k) :: pieces)

section
variable {script : Nat → RtspMessage} {k l : Nat} {pieces : List Piece}

theorem carriesLe (carries : Carries script k l pieces) : k ≤ l := by
  induction carries with
  | done k => exact Nat.le_refl k
  | frame channel short rest ih => exact ih
  | message rest ih => exact Nat.le_of_succ_le ih

theorem carriesPlain (printed : k < l → ∀ i, Plain order (.message (script i)))
    (carries : Carries script k l pieces) : ∀ p ∈ pieces, Plain order p := by
  induction carries with
  | done k => exact List.forall_mem_nil _
  | frame channel short rest ih => exact List.forall_mem_cons.mpr ⟨short, ih printed⟩
  | message rest ih =>
    have below := carriesLe rest
    exact List.forall_mem_cons.mpr ⟨printed below _, ih fun _ => printed below⟩

theorem carriesAppend {m : Nat} {more : List Piece} (first : Carries script k l pieces)
    (last : Carries script l m more) : Carries script k m (pieces ++ more) := by
  induction first with
  | done k => exact last
  | frame channel short rest ih => exact .frame channel short (ih last)
  | message rest ih => exact .message (ih last)

theorem carriesSplit {taken left : List Piece} (carries : Carries script k l (taken ++ left)) :
    ∃ m, Carries script k m taken ∧ Carries script m l left := by
  induction taken generalizing k with
  | nil => exact ⟨k, .done k, carries⟩
  | cons p taken ih =>
    cases carries with
    | frame channel short rest =>
      obtain ⟨m, first, last⟩ := ih rest
      exact ⟨m, .frame channel short first, last⟩
    | message rest =>
      obtain ⟨m, first, last⟩ := ih rest
      exact ⟨m, .message first, last⟩

theorem carriesRange (script : Nat → RtspMessage) (k n : Nat) :
    Carries script k (k + n) ((List.range' k n).map fun i => .message (script i)) := by
  induction n generalizing k with
  | zero => exact .done k
  | succ n ih =>
    have rest := ih (k + 1)
    rw [Nat.add_right_comm] at rest
    exact .message rest
end

end RtspRelay.PrintedStream
