import RtspRelay.Decoders
import RtspRelay.Session

/-! Interleaved frames from a session to a source. The session writes the length
of a packet as two bytes, and the source reads as many bytes as they say. -/
namespace RtspRelay.Interleaving
open Machine Buffer Session Decoders StreamDecoder

def emittedBytes : Option Emission → Bytes
  | some (.interleaved header data) => header ++ data
  | _ => []

-- What the session gives its connection for a list of packets.
def streamed (s : RtspSession) (packets : List Bytes) : Bytes :=
  packets.flatMap fun data => emittedBytes (onRtpData s data)

def frame (channel : UInt8) (data : Bytes) : Bytes := interleavedHeader channel data.length ++ data

theorem frameLength (channel : UInt8) (data : Bytes) :
    (frame channel data).length = 4 + data.length := by
  simp only [frame, interleavedHeader, List.length_append, List.length_cons, List.length_nil]

theorem frameRtpLen (channel : UInt8) {data : Bytes} (small : data.length ≤ 65535) (rest : Bytes) :
    rtpLen (frame channel data ++ rest) = data.length := by
  simp only [rtpLen, frame, interleavedHeader, List.cons_append, List.getD_cons_succ,
    List.getD_cons_zero, UInt8.toNat_ofNat']
  omega

theorem frameStepTakes (channel : UInt8) {data : Bytes} (small : data.length ≤ 65535) (rest : Bytes) :
    interleavedDecoder.step (frame channel data ++ rest) =
      .unit (.interleaved channel data) (frame channel data).length := by
  have len := frameRtpLen channel small rest
  have size := frameLength channel data
  have enough : ¬ (frame channel data ++ rest).length < 4 + data.length := by
    simp only [List.length_append]
    omega
  have payload : ((frame channel data ++ rest).drop 4).take data.length = data := List.take_left
  have step : interleavedDecoder.step (frame channel data ++ rest) =
      frameStep (frame channel data ++ rest) := rfl
  rw [step, frameStep, len, if_neg enough, payload, size]
  rfl

theorem framesDecode (channel : UInt8) (packets : List Bytes) (small : ∀ p ∈ packets, p.length ≤ 65535)
    (rest : Bytes) : decode interleavedDecoder (packets.flatMap (frame channel) ++ rest) =
      (packets.map (.interleaved channel) ++ (decode interleavedDecoder rest).1,
        (decode interleavedDecoder rest).2) := by
  induction packets with
  | nil => rfl
  | cons data packets ih =>
    obtain ⟨first, later⟩ := List.forall_mem_cons.mp small
    have taken := frameStepTakes channel first (packets.flatMap (frame channel) ++ rest)
    rw [List.flatMap_cons, List.append_assoc, decodeUnit interleavedDecoder taken, List.drop_left,
      ih later]
    rfl

theorem streamedFrames {s : RtspSession} (playing : s.state = .playing) (live : s.connected = true)
    (tcp : s.transport = .tcpInterleaved) (packets : List Bytes) :
    streamed s packets = packets.flatMap (frame s.rtpChannel) := by
  have each : ∀ data, emittedBytes (onRtpData s data) = frame s.rtpChannel data := by
    intro data
    rw [onRtpData, if_neg (not_not.mpr playing)]
    simp only [tcp, live]
    rfl
  simp only [streamed, each]

theorem framesRoundTrip (s : RtspSession) (playing : s.state = .playing) (live : s.connected = true)
    (tcp : s.transport = .tcpInterleaved) (packets : List Bytes)
    (small : ∀ p ∈ packets, p.length ≤ 65535) (cap : Nat) (chunks : List Bytes)
    (cut : chunks.flatten = streamed s packets) :
    sourceDecoded cap chunks = (packets.map (.interleaved s.rtpChannel), .ok []) := by
  have whole := framesDecode s.rtpChannel packets small []
  have empty : decode interleavedDecoder [] = ([], .ok []) := decodeMore interleavedDecoder rfl
  rw [List.append_nil, empty, List.append_nil] at whole
  rw [sourceDecodedUnits, feedFromEmpty, cut, streamedFrames playing live tcp, whole]

-- An empty packet and one that looks like a frame, cut inside the second header.
theorem dollarRoundTrip :
    sourceDecoded 0 [[36, 2, 0, 0, 36], [2, 0, 5, 36, 13, 10, 13, 10]] =
      ([.interleaved 2 [], .interleaved 2 [36, 13, 10, 13, 10]], .ok []) :=
  framesRoundTrip { create [] [] with state := .playing, rtpChannel := 2 } rfl rfl rfl
    [[], [36, 13, 10, 13, 10]] (by decide) 0 _ (by decide)

end RtspRelay.Interleaving
