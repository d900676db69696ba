import RtspRelay.ChannelSeparation
import RtspRelay.Interleaving
import RtspRelay.RequestInjection

/-! What comes out of a stream is limited by how it is read: a payload by its two
length bytes, a description by what a string holds, and a request's URL by the
spaces and the line end around it. -/
namespace RtspRelay.ParsedUnits
open Machine Buffer ByteSearch MessageText MessageFraming Protocol RoundTrip RequestInjection
open Decoders StreamDecoder Source World Exchange Transition

-- RtspMessage::parse has accepted it.
def FromWire (msg : RtspMessage) : Prop :=
  ∃ content out, outcome rtspGrammar content = .ok out ∧ out.ok = true ∧ out.msg = msg

theorem unitRead {bytes : Bytes} {u : StreamUnit} (taken : u ∈ (decode interleavedDecoder bytes).1) :
    match u with
    | .interleaved _ data => data.length ≤ 65535
    | .message msg => FromWire msg := by
  obtain ⟨rest, n, found⟩ := decodeTaken interleavedDecoder taken
  have step : interleavedStep rest = .unit u n := found
  unfold interleavedStep at step
  split at step
  · contradiction
  · split at step
    · obtain ⟨_, _, rfl⟩ := frameUnit step
      have size : ((rest.drop 4).take (rtpLen rest)).length ≤ rtpLen rest := List.length_take_le _ _
      have high := (rest.getD 2 0).toNat_lt
      have low := (rest.getD 3 0).toNat_lt
      unfold rtpLen at size ⊢
      dsimp only
      omega
    · obtain ⟨msg, lifted, rfl⟩ := liftUnit step
      obtain ⟨out, parsed, ok, same, _⟩ := messageUnit lifted
      exact ⟨rest, out, parsed, ok, same⟩

/-! The start line. -/

theorem threePartsMiddle {line first second third : Bytes}
    (parts : threeParts line = .ok (some (first, second, third))) :
    (32 : UInt8) ∉ second ∧ second <:+: line := by
  unfold threeParts at parts
  split at parts
  · cases parts
  · rename_i sp1 found
    split at parts
    · cases parts
    · rename_i sp2 found'
      have bound := (findOccurs found).2
      obtain ⟨k, inner, rfl⟩ := Option.map_eq_some_iff.mp found'
      have bound' := (findOccurs inner).2
      simp only [List.length_singleton, List.length_drop] at bound bound'
      simp only [substrOk (Nat.zero_le _), bind, Except.bind, substrOk (show sp1 + 1 ≤ line.length by omega),
        substrFromOk (show k + (sp1 + 1) + 1 ≤ line.length by omega)] at parts
      have middle : (line.drop (sp1 + 1)).take k = second := by
        have width : k + (sp1 + 1) - sp1 - 1 = k := by omega
        rw [width] at parts
        exact (Prod.mk.inj (Prod.mk.inj (Option.some.inj (Except.ok.inj parts))).2).1
      rw [← middle]
      exact ⟨findSingletonFresh inner, (List.take_prefix _ _).isInfix.trans (List.drop_suffix _ _).isInfix⟩

theorem infixWhole {line piece : Bytes} (whole : find crlf line = none) (inside : piece <:+: line) :
    find crlf piece = none := by
  obtain ⟨front, back, rfl⟩ := inside
  have first := findWithin whole
  refine findAbsent fun j occurs => findNone first (front.length + j) ?_
  rw [← List.drop_drop, List.drop_left]
  exact occurs

structure Fresh (msg : RtspMessage) : Prop where
  cseq : msg.cseq = 0
  sdp : msg.sdp = []
  url : msg.type = .request → Plain msg.url

theorem startFresh {line : Bytes} (whole : find crlf line = none) {msg : RtspMessage}
    (started : startLine line {} = .ok (true, msg)) : Fresh msg := by
  obtain ⟨parts, found, _⟩ := threePartsOk line
  unfold startLine at started
  rw [substrOk (Nat.zero_le _), found] at started
  cases parts with
  | none =>
    simp only [bind, Except.bind] at started
    split at started <;> cases started
  | some three =>
    obtain ⟨first, second, third⟩ := three
    obtain ⟨spaceless, inside⟩ := threePartsMiddle found
    simp only [bind, Except.bind] at started
    split at started
    · cases started
      exact ⟨rfl, rfl, nofun⟩
    · cases started
      exact ⟨rfl, rfl, fun _ => ⟨spaceless, infixWhole whole inside⟩⟩

-- The fields behind it change the sequence number and no other of the three.
structure Limited (msg : RtspMessage) : Prop where
  cseq : msg.cseq < 2 ^ 32
  sdp : msg.sdp.length ≤ stringMaxSize
  url : msg.type = .request → Plain msg.url

theorem headLimited {header : Bytes} (started : Started header) :
    Limited (head rtspGrammar header).2 ∧ (head rtspGrammar header).2.sdp = [] := by
  have accepted := (headStarted rtspGrammar header).mpr started
  unfold head at accepted ⊢
  split at accepted
  · contradiction
  · rename_i lineEnd found
    split at accepted
    · contradiction
    · rename_i ok msg read
      obtain rfl : ok = true := accepted
      have fresh := startFresh (firstPiece (by decide) found) read
      rw [if_pos rfl]
      have fields : (fields header).foldl (fun m f => rtspGrammar.field m f.1 f.2) msg = _ :=
        fieldsRead (fields header) msg
      dsimp only
      rw [fields]
      refine ⟨⟨?_, ?_, fresh.url⟩, fresh.sdp⟩
      · cases given (ascii "CSeq") (MessageText.fields header) with
        | none =>
          have zero : (0 : Nat) < 2 ^ 32 := by decide
          exact fresh.cseq ▸ zero
        | some val =>
          have small := Int.emod_lt_of_pos (atoi val) (show (0 : Int) < 2 ^ 32 by decide)
          have positive := Int.emod_nonneg (atoi val) (show (2 : Int) ^ 32 ≠ 0 by decide)
          dsimp only [Option.elim_some]
          omega
      · dsimp only
        rw [fresh.sdp]
        exact Nat.zero_le _

theorem bodyLimited {msg : RtspMessage} (h : Limited msg) {body : Bytes} (short : body.length ≤ stringMaxSize) :
    Limited (setBody msg body) := by
  unfold setBody
  dsimp only
  repeat' split
  · exact ⟨h.cseq, short, h.url⟩
  · exact ⟨h.cseq, h.sdp, h.url⟩
  · exact ⟨h.cseq, h.sdp, h.url⟩

theorem wireLimited {msg : RtspMessage} (read : FromWire msg) : Limited msg := by
  obtain ⟨content, out, parsed, ok, rfl⟩ := read
  obtain ⟨header, framed⟩ := outcomeFramed rtspGrammar parsed ok
  have limited := (headLimited framed.started).1
  rw [framed.message]
  split
  · exact limited
  · refine bodyLimited limited (Nat.le_trans (List.length_take_le _ _) framed.representable)

/-! So a source never holds a longer description, and never passes on a longer packet. -/

def Supplied (w : World) : Prop := w.source.sdp.length ≤ stringMaxSize

def Brings : Happening → Prop
  | .message _ msg => FromWire msg
  | .frame _ _ data => data.length ≤ 65535
  | _ => True

theorem happeningsBring (w : World) (c : Command) : ∀ hap ∈ happenings w c, Brings hap := by
  have single : ∀ hap : Happening, Brings hap → ∀ other ∈ [hap], Brings other :=
    fun hap brings => List.forall_mem_singleton.mpr brings
  cases c with
  | stop writes =>
    rw [happenings]
    split
    · exact List.forall_mem_nil _
    · exact single _ trivial
  | event input =>
    rw [happenings]
    split
    · exact single _ trivial
    · refine List.forall_mem_cons.mpr ⟨trivial, ?_⟩
      cases event : input.event with
      | writable | fire | runTask => exact single _ trivial
      | read i result =>
        cases result with
        | eof | error => exact single _ trivial
        | again => exact List.forall_mem_nil _
        | data chunk =>
          rw [eventHappenings]
          split
          · refine List.forall_mem_append.mpr ⟨List.forall_mem_map.mpr fun u taken => ?_, single _ trivial⟩
            have read := unitRead taken
            cases u with
            | interleaved channel data => exact read
            | message msg => exact read
          · exact List.forall_mem_nil _

theorem sendRequestSdp (w : World) (request : Nat → RtspMessage) :
    (w.sendRequest request).source.sdp = w.source.sdp := by
  unfold World.sendRequest World.send
  dsimp only
  split
  · rfl
  · split <;> rfl

theorem responseSupplied {w : World} (h : Supplied w) {msg : RtspMessage} (read : FromWire msg) :
    Supplied (w.handleResponse msg) := by
  have noted : (w.noteSession msg).source.sdp = w.source.sdp := by
    unfold World.noteSession
    split <;> rfl
  have channels : ∀ w : World, (w.noteChannels msg).source.sdp = w.source.sdp := by
    intro w
    unfold World.noteChannels
    split <;> rfl
  unfold World.handleResponse
  split
  · split <;> exact h
  · unfold World.advance Supplied
    split
    · rw [World.sendDescribe, sendRequestSdp]
      exact noted.symm ▸ h
    · rw [World.sendSetup, sendRequestSdp]
      exact (wireLimited read).sdp
    · rw [World.sendPlay, sendRequestSdp]
      exact ((channels _).trans noted).symm ▸ h
    · exact noted.symm ▸ h

theorem sameSupplied {w after : World} (h : Supplied w) (same : after.source.sdp = w.source.sdp) :
    Supplied after := by
  rw [Supplied, same]
  exact h

theorem stoppedSdp (w : World) (writes : List Connection.WriteResult) :
    (w.stop writes).source.sdp = w.source.sdp := by
  rcases stopSends w writes with ⟨_, idle⟩ | ⟨_, mid, _, _, _, sends, idle⟩
  · exact idle.described.1
  · rw [idle.described.1, sends.source]
    rfl

theorem effectSupplied {w : World} (h : Supplied w) {hap : Happening} (brings : Brings hap) :
    Supplied (effect w hap) := by
  have ordinary : Ordinary hap → Supplied (effect w hap) := by
    intro kind
    have happened := happens w kind
    split at happened
    · exact sameSupplied h happened.described.1
    · exact sameSupplied h happened.described.1
  cases hap with
  | message i msg => exact responseSupplied h brings
  | stop writes => exact sameSupplied h (stoppedSdp w writes)
  | enter | frame | stored | writable | ended | broken | fire | runTask => exact ordinary trivial

theorem runSupplied {w : World} (h : Supplied w) {hs : List Happening} (brings : ∀ hap ∈ hs, Brings hap) :
    Supplied (run effect w hs) := by
  induction hs generalizing w with
  | nil => exact h
  | cons hap rest ih =>
    obtain ⟨first, later⟩ := List.forall_mem_cons.mp brings
    exact ih (effectSupplied h first) later

theorem stepSupplied {w : World} (h : Supplied w) (input : Source.Input) : Supplied (w.step input) := by
  have runs : run effect w (happenings w (.event input)) = w.step input := commandRuns w (.event input)
  rw [← runs]
  exact runSupplied h (happeningsBring w _)

theorem startSupplied (order : HeaderOrder) (url path : Bytes) (connect : ConnectResult)
    (writes : List Connection.WriteResult) : Supplied ((World.create order url path).start connect writes) := by
  have begun := beginCases order url path connect writes
  have empty : Supplied (created order url path writes) := Nat.zero_le _
  split at begun
  · exact sameSupplied empty begun.described.1
  · exact sameSupplied empty begun.described.1

theorem framesShort {hs : List Happening} (brings : ∀ hap ∈ hs, Brings hap) (w : World) :
    ∀ f ∈ ChannelSeparation.frames w hs, f.data.length ≤ 65535 := by
  induction hs generalizing w with
  | nil => exact List.forall_mem_nil _
  | cons hap rest ih =>
    obtain ⟨first, later⟩ := List.forall_mem_cons.mp brings
    cases hap with
    | frame i channel data => exact List.forall_mem_cons.mpr ⟨first, ih later _⟩
    | enter | message | stored | writable | ended | broken | fire | runTask | stop => exact ih later _

theorem packetsShort (w : World) (input : Source.Input) :
    ∀ data ∈ Service.Relay.packets (w.step input).acts, data.length ≤ 65535 := by
  rw [ChannelSeparation.stepPackets]
  exact List.forall_mem_map.mpr (framesShort (happeningsBring w _) w)

end RtspRelay.ParsedUnits
