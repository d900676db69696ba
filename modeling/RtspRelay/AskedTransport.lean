import RtspRelay.Answers
import RtspRelay.PrintedText
import RtspRelay.SetupOutcome

/-! What a Transport header asks for and what SETUP confirms. The header names its
two numbers side by side; the handler reads the first where the parameter stands
and the second behind the next dash, and cuts both down to the width of the field
that takes them. -/
namespace RtspRelay.AskedTransport
open Machine ByteSearch Protocol PrintedText Session SetupOutcome

-- The decimal number at the start of a text, and the text behind it.
def number (text : Bytes) : Option (Nat × Bytes) :=
  if text.takeWhile isDigit = [] then none
  else some ((digitsValue text).toNat, text.dropWhile isDigit)

structure Asked where
  first : Nat
  second : Option Nat
  deriving DecidableEq, Repr

def secondOf : Bytes → Option Nat
  | 45 :: text => (number text).map Prod.fst
  | _ => none

-- The first `key` of the header, with one decimal number behind it or two with a dash between them.
def asked (key tp : Bytes) : Option Asked :=
  (find key tp).bind fun pos =>
    (number (tp.drop (pos + key.length))).map fun n => ⟨n.1, secondOf n.2⟩

def askedChannels (tp : Bytes) : Option (Nat × Nat) :=
  (asked (ascii "interleaved=") tp).bind fun numbers =>
    let second := numbers.second.getD (numbers.first + 1)
    if numbers.first ≤ 255 ∧ second ≤ 255 then some (numbers.first, second) else none

def askedPorts (tp : Bytes) : Option (Nat × Nat) :=
  (asked (ascii "client_port=") tp).bind fun numbers =>
    numbers.second.bind fun second =>
      if (1 ≤ numbers.first ∧ numbers.first ≤ 65535) ∧ 1 ≤ second ∧ second ≤ 65535 then
        some (numbers.first, second)
      else none

-- The session keeps the two channels and its answer names them.
structure KeepsChannels (after : RtspSession) (answer : RtspMessage) (a b : Nat) : Prop where
  rtp : after.rtpChannel.toNat = a
  rtcp : after.rtcpChannel.toNat = b
  echoed : answer.headers.lookup (ascii "Transport") =
    some (ascii "RTP/AVP/TCP;unicast;interleaved=" ++ decimal a ++ ascii "-" ++ decimal b)

structure SendsToPorts (after : RtspSession) (a b : Nat) : Prop where
  rtp : ∀ data fd dest sent,
    onRtpData { after with state := .playing } data = some (.datagram fd dest sent) → dest.port.toNat = a
  rtpAddr : after.clientRtpAddr.port.toNat = a
  rtcpAddr : after.clientRtcpAddr.port.toNat = b

def Confirmed (tp : Bytes) (after : RtspSession) (answer : RtspMessage) : Prop :=
  match after.transport with
  | .tcpInterleaved => ∃ a b, askedChannels tp = some (a, b) ∧ KeepsChannels after answer a b
  | .udp => ∃ a b, askedPorts tp = some (a, b) ∧ SendsToPorts after a b

/-! The second number as the handler reads it: behind the next dash, wherever that is. -/

def laterNumber (key tp : Bytes) : Option Int :=
  (find key tp).bind fun pos => (findFrom [45] tp (pos + 12)).map fun dash => atoi (tp.drop (dash + 1))

-- One channel alone leaves the other to the text behind the next dash, or to the session.
def AloneKept (s : RtspSession) (a : Nat) : Option Int → Prop
  | some n => n % 256 = a + 1
  | none => s.rtpChannel.toNat = a ∧ s.rtcpChannel.toNat = a + 1

def ChannelsExact (s : RtspSession) (tp : Bytes) : Option Asked → Prop
  | none => False
  | some ⟨a, some b⟩ => a ≤ 255 ∧ b ≤ 255
  | some ⟨a, none⟩ => a + 1 ≤ 255 ∧ AloneKept s a (laterNumber (ascii "interleaved=") tp)

def Exact (s : RtspSession) (tp : Bytes) : Prop :=
  if (find (ascii "interleaved=") tp).isSome then ChannelsExact s tp (asked (ascii "interleaved=") tp)
  else (askedPorts tp).isSome

/-! A number that stands at the start of a text is what `atoi` reads there. -/

theorem numberSplit {text rest : Bytes} {a : Nat} (h : number text = some (a, rest)) :
    strtoll text = min (2 ^ 63 - 1) (a : Int) ∧ ∃ digits, text = digits ++ rest ∧ (45 : UInt8) ∉ digits := by
  unfold number at h
  split at h
  · contradiction
  · rename_i nonempty
    obtain ⟨value, behind⟩ := Prod.mk.inj (Option.some.inj h)
    obtain ⟨b, more, started⟩ := List.exists_cons_of_ne_nil nonempty
    have digit : ∀ x ∈ text.takeWhile isDigit, isDigit x = true :=
      List.all_eq_true.mp List.all_takeWhile
    have whole : text = text.takeWhile isDigit ++ rest := by
      rw [← behind, List.takeWhile_append_dropWhile]
    have first : text = b :: (more ++ rest) := by
      conv_lhs => rw [whole, started]
      rfl
    obtain ⟨space, minus, plus, _⟩ := digitNot (digit b (started ▸ List.mem_cons_self))
    refine ⟨?_, text.takeWhile isDigit, whole, fun dash => absurd (digit 45 dash) (by decide)⟩
    have nonneg := digitsValueNonneg text
    rw [← value, Int.toNat_of_nonneg nonneg]
    unfold strtoll
    conv_lhs => rw [first]
    simp only [List.dropWhile_cons, space, Bool.false_eq_true, if_false, if_neg minus, if_neg plus]
    rw [← first]

theorem numberRead {text rest : Bytes} {a : Nat} (h : number text = some (a, rest))
    (small : (a : Int) ≤ intMax) : atoi text = a := by
  unfold intMax at small
  have value : strtoll text = a := by
    rw [(numberSplit h).1]
    omega
  rw [atoi, value]
  refine int32Small ?_ ?_ <;> unfold intMax <;> omega

section
variable {key tp : Bytes} {a b : Nat} {second : Option Nat} (twelve : key.length = 12)
include twelve

theorem firstRead (found : asked key tp = some ⟨a, second⟩) (small : (a : Int) ≤ intMax) :
    transportRange key tp = (laterNumber key tp).map fun n => ((a : Int), n) := by
  obtain ⟨pos, at_, rest⟩ := Option.bind_eq_some_iff.mp found
  obtain ⟨n, here, same⟩ := Option.map_eq_some_iff.mp rest
  cases same
  rw [twelve] at here
  simp only [transportRange, laterNumber, at_, bind, Option.bind, numberRead here small]
  cases findFrom [45] tp (pos + 12) <;> rfl

theorem secondRead (found : asked key tp = some ⟨a, some b⟩) (small : (b : Int) ≤ intMax) :
    laterNumber key tp = some (b : Int) := by
  obtain ⟨pos, at_, rest⟩ := Option.bind_eq_some_iff.mp found
  obtain ⟨n, here, same⟩ := Option.map_eq_some_iff.mp rest
  obtain ⟨-, second⟩ := Asked.mk.inj same
  rw [twelve] at here
  obtain ⟨text, dashed, read⟩ : ∃ text, n.2 = 45 :: text ∧ (number text).map Prod.fst = some b := by
    unfold secondOf at second
    split at second
    · exact ⟨_, by assumption, second⟩
    · contradiction
  obtain ⟨m, there, rfl⟩ := Option.map_eq_some_iff.mp read
  obtain ⟨-, digits, whole, noDash⟩ := numberSplit here
  rw [dashed] at whole
  have dash : findFrom [45] tp (pos + 12) = some (digits.length + (pos + 12)) := by
    rw [findFrom, whole, firstSplit noDash]
    rfl
  have behind : tp.drop (digits.length + (pos + 12) + 1) = text := by
    have shift : digits.length + (pos + 12) + 1 = pos + 12 + (digits.length + 1) := by omega
    rw [shift, ← List.drop_drop, whole, ← List.drop_drop, List.drop_left]
    rfl
  simp only [laterNumber, at_, Option.bind_some, dash, Option.map_some, behind, numberRead there small]
end

/-! What SETUP does on the two ways to a 200. -/

theorem channelValue (n : Int) : ((UInt8.ofInt n).toNat : Int) = n % 256 := by
  have value : (UInt8.ofInt n).toNat = (n % 2 ^ 8).toNat % 2 ^ 8 := UInt8.toNat_ofNat'
  omega

theorem portValue (n : Int) : ((UInt16.ofInt n).toNat : Int) = n % 65536 := by
  have value : (UInt16.ofInt n).toNat = (n % 2 ^ 16).toNat % 2 ^ 16 := UInt16.toNat_ofNat'
  omega

section
variable {udp : UdpAnswers} {s : RtspSession} {req : RtspMessage} {tp : Bytes}
  (given : req.headers.lookup (ascii "Transport") = some tp)
include given

structure Interleaved (s after : RtspSession) (answer : RtspMessage) (tp : Bytes) : Prop where
  transport : after.transport = .tcpInterleaved
  channels : (after.rtpChannel, after.rtcpChannel) =
    ((transportRange (ascii "interleaved=") tp).map channels).getD (s.rtpChannel, s.rtcpChannel)
  echoed : KeepsChannels after answer after.rtpChannel.toNat after.rtcpChannel.toNat

theorem interleavedSetup (udp : UdpAnswers) (s : RtspSession)
    (tcp : (find (ascii "interleaved=") tp).isSome = true) :
    Interleaved s (handleSetup udp s req).1 (handleSetup udp s req).2 tp := by
  rw [setupFrom udp s given, if_pos tcp, setupInterleaved]
  cases named : transportRange (ascii "interleaved=") tp with
  | none => exact ⟨rfl, by rw [named]; rfl, ⟨rfl, rfl, Answers.lookupSetSame _ _ _⟩⟩
  | some range => exact ⟨rfl, by rw [named]; rfl, ⟨rfl, rfl, Answers.lookupSetSame _ _ _⟩⟩

structure Datagrams (after : RtspSession) (tp : Bytes) : Prop where
  transport : after.transport = .udp
  rtp : after.clientRtpAddr.port = (clientPorts tp).1
  rtcp : after.clientRtcpAddr.port = (clientPorts tp).2
  socket : ∃ fd, after.udpRtpFd = some fd

theorem datagramSetup (tcp : ¬ (find (ascii "interleaved=") tp).isSome = true)
    (ok : (handleSetup udp s req).2.statusCode = 200) :
    Datagrams (handleSetup udp s req).1 tp ∧ (clientPorts tp).1 ≠ 0 := by
  rw [setupFrom udp s given, if_neg tcp] at ok ⊢
  split at ok
  · rename_i wants
    rw [if_pos wants]
    by_cases port : (clientPorts tp).1 = 0
    · rw [udpRefused port] at ok
      exact absurd ok (by decide : (461 : Int) ≠ 200)
    · rcases first : udp.rtp with _ | rtp
      · rw [udpFailed port (.inl first)] at ok
        exact absurd ok (by decide : (500 : Int) ≠ 200)
      · rcases second : udp.rtcp with _ | rtcp
        · rw [udpFailed port (.inr second)] at ok
          exact absurd ok (by decide : (500 : Int) ≠ 200)
        · rw [udpMade port first second]
          exact ⟨⟨rfl, rfl, rfl, _, rfl⟩, port⟩
  · exact absurd ok (by decide : (461 : Int) ≠ 200)
end

/-! A 200 confirms the header exactly when the two numbers are read whole. -/

theorem keepsChannels {after : RtspSession} {answer : RtspMessage} {a b : Nat}
    (echoed : KeepsChannels after answer after.rtpChannel.toNat after.rtcpChannel.toNat) :
    KeepsChannels after answer a b ↔ after.rtpChannel.toNat = a ∧ after.rtcpChannel.toNat = b := by
  refine ⟨fun keeps => ⟨keeps.rtp, keeps.rtcp⟩, ?_⟩
  rintro ⟨rfl, rfl⟩
  exact echoed

theorem askedFits {tp : Bytes} {numbers : Asked}
    (found : asked (ascii "interleaved=") tp = some numbers) (a b : Nat) :
    askedChannels tp = some (a, b) ↔
      (numbers.first ≤ 255 ∧ numbers.second.getD (numbers.first + 1) ≤ 255) ∧
        numbers.first = a ∧ numbers.second.getD (numbers.first + 1) = b := by
  rw [askedChannels, found, Option.bind_some]
  dsimp only
  rw [Option.ite_none_right_eq_some, Option.some.injEq, Prod.mk.injEq]

section
variable {s after : RtspSession} {answer : RtspMessage} {tp : Bytes}

theorem channelsLater {numbers : Asked} {n : Int} (out : Interleaved s after answer tp)
    (found : asked (ascii "interleaved=") tp = some numbers) (small : numbers.first ≤ 255)
    (later : laterNumber (ascii "interleaved=") tp = some n) :
    after.rtpChannel.toNat = numbers.first ∧ (after.rtcpChannel.toNat : Int) = n % 256 := by
  have stored := out.channels
  rw [firstRead (by decide) found (by unfold intMax; omega), later] at stored
  obtain ⟨rtp, rtcp⟩ := Prod.mk.inj stored
  have first : ((UInt8.ofInt (numbers.first : Int)).toNat : Int) = numbers.first % 256 := channelValue _
  rw [rtp, rtcp]
  refine ⟨?_, channelValue n⟩
  change (UInt8.ofInt (numbers.first : Int)).toNat = numbers.first
  omega

theorem channelsKept {numbers : Asked} (out : Interleaved s after answer tp)
    (found : asked (ascii "interleaved=") tp = some numbers) (small : numbers.first ≤ 255)
    (missing : laterNumber (ascii "interleaved=") tp = none) :
    after.rtpChannel = s.rtpChannel ∧ after.rtcpChannel = s.rtcpChannel := by
  have stored := out.channels
  rw [firstRead (by decide) found (by unfold intMax; omega), missing] at stored
  exact Prod.mk.inj stored

theorem pairRead {a b : Nat} (out : Interleaved s after answer tp)
    (found : asked (ascii "interleaved=") tp = some ⟨a, some b⟩) (first : a ≤ 255) (second : b ≤ 255) :
    after.rtpChannel.toNat = a ∧ after.rtcpChannel.toNat = b := by
  have later := secondRead (by decide) found (by unfold intMax; omega)
  obtain ⟨rtp, rtcp⟩ := channelsLater out found first later
  exact ⟨rtp, by omega⟩

theorem aloneRead {a : Nat} (out : Interleaved s after answer tp)
    (found : asked (ascii "interleaved=") tp = some ⟨a, none⟩) (next : a + 1 ≤ 255) :
    after.rtpChannel.toNat = a ∧ after.rtcpChannel.toNat = a + 1 ↔
      AloneKept s a (laterNumber (ascii "interleaved=") tp) := by
  have small : a ≤ 255 := by omega
  cases later : laterNumber (ascii "interleaved=") tp with
  | none =>
    obtain ⟨rtp, rtcp⟩ := channelsKept out found small later
    rw [rtp, rtcp, AloneKept]
  | some n =>
    obtain ⟨rtp, rtcp⟩ := channelsLater out found small later
    rw [AloneKept]
    refine ⟨fun ⟨_, above⟩ => by omega, fun same => ⟨rtp, by omega⟩⟩

theorem channelsExact (out : Interleaved s after answer tp) :
    (∃ a b, askedChannels tp = some (a, b) ∧ KeepsChannels after answer a b) ↔
      ChannelsExact s tp (asked (ascii "interleaved=") tp) := by
  cases found : asked (ascii "interleaved=") tp with
  | none => simp [ChannelsExact, askedChannels, found]
  | some numbers =>
    have echoed := out.echoed
    have fits : (∃ a b, askedChannels tp = some (a, b) ∧ KeepsChannels after answer a b) ↔
        (numbers.first ≤ 255 ∧ numbers.second.getD (numbers.first + 1) ≤ 255) ∧
          after.rtpChannel.toNat = numbers.first ∧
          after.rtcpChannel.toNat = numbers.second.getD (numbers.first + 1) := by
      simp only [askedFits found, keepsChannels echoed]
      constructor
      · rintro ⟨_, _, ⟨small, rfl, rfl⟩, kept⟩
        exact ⟨small, kept⟩
      · rintro ⟨small, kept⟩
        exact ⟨_, _, ⟨small, rfl, rfl⟩, kept⟩
    rw [fits]
    obtain ⟨a, second⟩ := numbers
    cases second with
    | some b => exact ⟨And.left, fun small => ⟨small, pairRead out found small.1 small.2⟩⟩
    | none =>
      constructor
      · rintro ⟨⟨_, next⟩, kept⟩
        exact ⟨next, (aloneRead out found next).mp kept⟩
      · rintro ⟨next, kept⟩
        exact ⟨⟨Nat.le_of_succ_le next, next⟩, (aloneRead out found next).mpr kept⟩

/-! The ports of a refused request count for nothing: a 200 has read two of them. -/

theorem portsAsked {a b : Nat} (ports : askedPorts tp = some (a, b)) :
    (clientPorts tp).1.toNat = a ∧ (clientPorts tp).2.toNat = b := by
  obtain ⟨⟨first, _⟩, found, rest⟩ := Option.bind_eq_some_iff.mp ports
  obtain ⟨second, rfl, rest⟩ := Option.bind_eq_some_iff.mp rest
  dsimp only at rest
  rw [Option.ite_none_right_eq_some, Option.some.injEq, Prod.mk.injEq] at rest
  obtain ⟨⟨⟨low, high⟩, low', high'⟩, rfl, rfl⟩ := rest
  have later := secondRead (by decide) found (by unfold intMax; omega)
  have range := firstRead (by decide) found (by unfold intMax; omega)
  rw [later] at range
  have rtp := portValue first
  have rtcp := portValue second
  rw [clientPorts, range]
  change (UInt16.ofInt (first : Int)).toNat = first ∧ (UInt16.ofInt (second : Int)).toNat = second
  omega

theorem portsExact (out : Datagrams after tp) :
    (∃ a b, askedPorts tp = some (a, b) ∧ SendsToPorts after a b) ↔ (askedPorts tp).isSome = true := by
  constructor
  · rintro ⟨a, b, ports, _⟩
    rw [ports]
    rfl
  · intro some_
    obtain ⟨⟨a, b⟩, ports⟩ := Option.isSome_iff_exists.mp some_
    obtain ⟨rtp, rtcp⟩ := portsAsked ports
    refine ⟨a, b, ports, ?_, by rw [out.rtp, rtp], by rw [out.rtcp, rtcp]⟩
    intro data fd dest sent emitted
    obtain ⟨socket, held⟩ := out.socket
    simp only [onRtpData, ne_eq, not_true, if_false, out.transport, held, Option.map_some,
      Option.some.injEq, Emission.datagram.injEq] at emitted
    rw [← emitted.2.1, out.rtp, rtp]
end

theorem confirmedExact (udp : UdpAnswers) (s : RtspSession) (req : RtspMessage) (tp : Bytes)
    (given : req.headers.lookup (ascii "Transport") = some tp)
    (ok : (handleSetup udp s req).2.statusCode = 200) :
    Confirmed tp (handleSetup udp s req).1 (handleSetup udp s req).2 ↔ Exact s tp := by
  by_cases tcp : (find (ascii "interleaved=") tp).isSome = true
  · have out := interleavedSetup given udp s tcp
    rw [Confirmed, out.transport, Exact, if_pos tcp]
    exact channelsExact out
  · have out := (datagramSetup given tcp ok).1
    rw [Confirmed, out.transport, Exact, if_neg tcp]
    exact portsExact out

def settingUp (tp : Bytes) : RtspMessage :=
  { type := .request, method := .setup, cseq := 3, url := ascii "rtsp://10.0.0.5:8554/cam/track1"
    headers := (∅ : MessageText.Headers).insert (ascii "Transport") tp }

theorem settingUpGiven (tp : Bytes) : (settingUp tp).headers.lookup (ascii "Transport") = some tp :=
  AList.lookup_insert _

def refused : UdpAnswers := ⟨none, none⟩

def fourFive : Bytes := ascii "RTP/AVP/TCP;unicast;interleaved=4-5"

theorem fourFiveConfirmed : Confirmed fourFive
    (handleSetup refused (create (ascii "10.0.0.7:5000") (ascii "00000001")) (settingUp fourFive)).1
    (handleSetup refused (create (ascii "10.0.0.7:5000") (ascii "00000001")) (settingUp fourFive)).2 := by
  refine (confirmedExact refused _ (settingUp fourFive) fourFive (settingUpGiven fourFive) ?_).mpr ?_
  · rw [setupFrom refused _ (settingUpGiven fourFive), if_pos (by decide), setupInterleaved]
    rfl
  · have named : asked (ascii "interleaved=") fourFive = some ⟨4, some 5⟩ := by decide
    rw [Exact, if_pos (by decide), named]
    exact ⟨by decide, by decide⟩

/-! 300 is kept as 44. -/
def threeHundred : Bytes := ascii "RTP/AVP/TCP;unicast;interleaved=300-301"

theorem largeNotConfirmed :
    ¬ ∀ (udp : UdpAnswers) (s : RtspSession) (req : RtspMessage) (tp : Bytes),
      req.headers.lookup (ascii "Transport") = some tp → (handleSetup udp s req).2.statusCode = 200 →
      Confirmed tp (handleSetup udp s req).1 (handleSetup udp s req).2 := by
  intro always
  have given := settingUpGiven threeHundred
  have wants : (find (ascii "interleaved=") threeHundred).isSome = true := by decide
  let s := create (ascii "10.0.0.7:5000") (ascii "00000001")
  have out := interleavedSetup given refused s wants
  have ok : (handleSetup refused s (settingUp threeHundred)).2.statusCode = 200 := by
    rw [setupFrom refused _ given, if_pos wants, setupInterleaved]
    rfl
  have confirmed := always refused s (settingUp threeHundred) threeHundred given ok
  rw [Confirmed, out.transport] at confirmed
  obtain ⟨a, b, named, _⟩ := confirmed
  have none_ : askedChannels threeHundred = none := by decide
  rw [none_] at named
  contradiction

end RtspRelay.AskedTransport
