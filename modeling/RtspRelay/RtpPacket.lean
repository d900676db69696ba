import RtspRelay.General.BigEndian
import RtspRelay.Machine

/-! RTP packets. `parse` reads an array it is handed with its length; a read outside the
array and a size that does not fit its type are faults. -/
namespace RtspRelay.Rtp
open Machine BigEndian

inductive Fault where
  | outOfBounds (i : Nat)
  | overflow
  | underflow
  deriving DecidableEq, Repr

-- `payload` is the distance of payload_ from raw_data_.
structure RtpPacket where
  rawData : Bytes
  rawSize : Nat
  headerSize : Nat
  payload : Option Nat
  payloadSize : Nat
  version : UInt8
  padding : Bool
  extension : Bool
  csrcCount : UInt8
  marker : Bool
  payloadType : UInt8
  seq : UInt16
  timestamp : UInt32
  ssrc : UInt32
  deriving DecidableEq, Repr

def fresh : RtpPacket :=
  { rawData := [], rawSize := 0, headerSize := 0, payload := none, payloadSize := 0, version := 2
    padding := false, extension := false, csrcCount := 0, marker := false, payloadType := 0
    seq := 0, timestamp := 0, ssrc := 0 }

def byteAt (data : Bytes) (i : Nat) : Except Fault UInt8 :=
  match data[i]? with
  | some b => .ok b
  | none => .error (.outOfBounds i)

def intSize (n : Nat) : Except Fault Nat := if (n : Int) ≤ intMax then .ok n else .error .overflow

def sizeSum (a b : Nat) : Except Fault Nat := if a + b < 2 ^ 64 then .ok (a + b) else .error .overflow

def sizeDiff (a b : Nat) : Except Fault Nat := if b ≤ a then .ok (a - b) else .error .underflow

-- The fields behind the version.
def readFixed (p : RtpPacket) (data : Bytes) : Except Fault RtpPacket := do
  let b0 ← byteAt data 0
  let b1 ← byteAt data 1
  let b2 ← byteAt data 2
  let b3 ← byteAt data 3
  let b4 ← byteAt data 4
  let b5 ← byteAt data 5
  let b6 ← byteAt data 6
  let b7 ← byteAt data 7
  let b8 ← byteAt data 8
  let b9 ← byteAt data 9
  let b10 ← byteAt data 10
  let b11 ← byteAt data 11
  .ok { p with
    padding := b0 &&& 0x20 != 0
    extension := b0 &&& 0x10 != 0
    csrcCount := b0 &&& 0x0F
    marker := b1 &&& 0x80 != 0
    payloadType := b1 &&& 0x7F
    seq := b2.toUInt16 <<< 8 ||| b3.toUInt16
    timestamp := b4.toUInt32 <<< 24 ||| b5.toUInt32 <<< 16 ||| b6.toUInt32 <<< 8 ||| b7.toUInt32
    ssrc := b8.toUInt32 <<< 24 ||| b9.toUInt32 <<< 16 ||| b10.toUInt32 <<< 8 ||| b11.toUInt32 }

-- header_size_ past the extension; false when the extension's own header is cut off.
def readExtension (p : RtpPacket) (data : Bytes) : Except Fault (Bool × RtpPacket) := do
  if p.extension then
    let room ← sizeSum p.headerSize 4
    if data.length < room then .ok (false, p)
    else
      let high ← byteAt data (p.headerSize + 2)
      let low ← byteAt data (p.headerSize + 3)
      let extLen := high.toUInt16 <<< 8 ||| low.toUInt16
      let words ← intSize (4 + extLen.toNat * 4)
      let headerSize ← sizeSum p.headerSize words
      .ok (true, { p with headerSize := headerSize })
  else .ok (true, p)

def dropPadding (p : RtpPacket) (data : Bytes) : Except Fault RtpPacket := do
  if p.padding ∧ 0 < data.length then
    let last ← sizeDiff data.length 1
    let padLen ← byteAt data last
    if padLen.toNat < p.payloadSize then
      let payloadSize ← sizeDiff p.payloadSize padLen.toNat
      .ok { p with payloadSize := payloadSize }
    else .ok p
  else .ok p

def readPayload (p : RtpPacket) (data : Bytes) : Except Fault (Bool × RtpPacket) := do
  if data.length < p.headerSize then .ok (false, p)
  else
    let payloadSize ← sizeDiff data.length p.headerSize
    let p ← dropPadding { p with payload := some p.headerSize, payloadSize := payloadSize } data
    .ok (true, p)

def parse (p : RtpPacket) (data : Bytes) : Except Fault (Bool × RtpPacket) := do
  if data.length < 12 then .ok (false, p)
  else
    let b0 ← byteAt data 0
    let p := { p with rawData := data, rawSize := data.length, version := b0 >>> 6 &&& 0x03 }
    if p.version ≠ 2 then .ok (false, p)
    else
      let p ← readFixed p data
      let headerSize ← intSize (12 + p.csrcCount.toNat * 4)
      let (cut, p) ← readExtension { p with headerSize := headerSize } data
      if cut then readPayload p data else .ok (false, p)

def payloadBytes (p : RtpPacket) : Bytes :=
  match p.payload with
  | none => []
  | some start => (p.rawData.drop start).take p.payloadSize

-- A null payload leaves the packet's zeros.
def build (pt : UInt8) (marker : Bool) (seq : UInt16) (ts ssrc : UInt32) (payload : Option Bytes)
    (payloadLen : Nat) : Bytes :=
  [0x80, (if marker then 0x80 else 0x00) ||| (pt &&& 0x7F),
    (seq >>> 8 &&& 0xFF).toUInt8, (seq &&& 0xFF).toUInt8,
    (ts >>> 24 &&& 0xFF).toUInt8, (ts >>> 16 &&& 0xFF).toUInt8, (ts >>> 8 &&& 0xFF).toUInt8, (ts &&& 0xFF).toUInt8,
    (ssrc >>> 24 &&& 0xFF).toUInt8, (ssrc >>> 16 &&& 0xFF).toUInt8, (ssrc >>> 8 &&& 0xFF).toUInt8,
    (ssrc &&& 0xFF).toUInt8] ++
  match payload with
  | some bytes => bytes.take payloadLen
  | none => List.replicate payloadLen 0

/-! ### Bounds -/

theorem byteAtOk {data : Bytes} {i : Nat} (inside : i < data.length) : byteAt data i = .ok data[i] := by
  rw [byteAt, List.getElem?_eq_getElem inside]

theorem fieldsRead (p : RtpPacket) {data : Bytes} (long : 12 ≤ data.length) :
    ∃ q, readFixed p data = .ok q ∧ q.csrcCount.toNat ≤ 15 := by
  have read (i : Nat) (h : i < 12) : byteAt data i = .ok data[i] :=
    byteAtOk (Nat.lt_of_lt_of_le h long)
  simp only [readFixed, read 0 (by decide), read 1 (by decide), read 2 (by decide), read 3 (by decide),
    read 4 (by decide), read 5 (by decide), read 6 (by decide), read 7 (by decide), read 8 (by decide),
    read 9 (by decide), read 10 (by decide), read 11 (by decide)]
  refine ⟨_, rfl, ?_⟩
  rw [UInt8.toNat_and]
  exact Nat.and_le_right

-- The extension's two length bytes are read only where they are there.
theorem extensionRead (p : RtpPacket) (data : Bytes) (base : p.headerSize ≤ 72) :
    ∃ whole q, readExtension p data = .ok (whole, q) ∧ p.headerSize ≤ q.headerSize := by
  rw [readExtension]
  split
  · have sum : sizeSum p.headerSize 4 = .ok (p.headerSize + 4) := if_pos (by omega)
    simp only [sum]
    by_cases cut : data.length < p.headerSize + 4
    · exact ⟨false, p, if_pos cut, Nat.le_refl _⟩
    · have two (i : Nat) (h : i < 4) : byteAt data (p.headerSize + i) = .ok data[p.headerSize + i] :=
        byteAtOk (by omega)
      have words (n : UInt16) : intSize (4 + n.toNat * 4) = .ok (4 + n.toNat * 4) := by
        have := n.toNat_lt
        exact if_pos (by rw [intMax]; omega)
      have total (n : UInt16) :
          sizeSum p.headerSize (4 + n.toNat * 4) = .ok (p.headerSize + (4 + n.toNat * 4)) := by
        have := n.toNat_lt
        exact if_pos (by omega)
      simp only [bind, Except.bind, if_neg cut, two 2 (by decide), two 3 (by decide), words, total]
      exact ⟨true, _, rfl, Nat.le_add_right _ _⟩
  · exact ⟨true, p, rfl, Nat.le_refl _⟩

-- The bytes left out behind the payload are the count the last byte gives, or none.
theorem paddingDropped (p : RtpPacket) (data : Bytes) :
    ∃ q, dropPadding p data = .ok q ∧ q.headerSize = p.headerSize ∧ q.payload = p.payload ∧
      (q.payloadSize = p.payloadSize ∨
        ∃ last, data.getLast? = some last ∧ p.payloadSize = q.payloadSize + last.toNat) := by
  rw [dropPadding]
  split
  next padded =>
    have inside : data.length - 1 < data.length := by omega
    have last : sizeDiff data.length 1 = .ok (data.length - 1) := if_pos padded.2
    simp only [bind, Except.bind, last, byteAtOk inside]
    split
    next small =>
      have rest : sizeDiff p.payloadSize data[data.length - 1].toNat =
          .ok (p.payloadSize - data[data.length - 1].toNat) := if_pos (Nat.le_of_lt small)
      rw [rest]
      refine ⟨_, rfl, rfl, rfl, .inr ⟨data[data.length - 1], ?_, ?_⟩⟩
      · rw [List.getLast?_eq_getElem?, List.getElem?_eq_getElem inside]
      · exact (Nat.sub_add_cancel (Nat.le_of_lt small)).symm
    next => exact ⟨p, rfl, rfl, rfl, .inl rfl⟩
  next => exact ⟨p, rfl, rfl, rfl, .inl rfl⟩

-- The payload an accepted packet reports, against the array it was read from.
structure Inside (data : Bytes) (p : RtpPacket) : Prop where
  header : 12 ≤ p.headerSize
  payload : p.payload = some p.headerSize
  fits : p.headerSize + p.payloadSize ≤ data.length
  padding : p.headerSize + p.payloadSize = data.length ∨
    ∃ last, data.getLast? = some last ∧ data.length = p.headerSize + p.payloadSize + last.toNat

theorem payloadInside {p : RtpPacket} {data : Bytes} (header : 12 ≤ p.headerSize) :
    ∃ whole q, readPayload p data = .ok (whole, q) ∧ (whole = true → Inside data q) := by
  rw [readPayload]
  by_cases cut : data.length < p.headerSize
  · exact ⟨false, p, if_pos cut, fun h => Bool.noConfusion h⟩
  · have rest : sizeDiff data.length p.headerSize = .ok (data.length - p.headerSize) := if_pos (by omega)
    obtain ⟨q, dropped, sameHeader, samePayload, size⟩ := paddingDropped
      { p with payload := some p.headerSize, payloadSize := data.length - p.headerSize } data
    simp only [if_neg cut, bind, Except.bind, rest, dropped]
    refine ⟨true, q, rfl, fun _ => ?_⟩
    simp only at sameHeader samePayload size
    refine ⟨by omega, by rw [samePayload, sameHeader], ?_, ?_⟩
    · rcases size with same | ⟨last, -, sum⟩ <;> omega
    · rcases size with same | ⟨last, isLast, sum⟩
      · exact .inl (by omega)
      · exact .inr ⟨last, isLast, by omega⟩

theorem parseInBounds (p : RtpPacket) (data : Bytes) :
    ∃ accepted q, parse p data = .ok (accepted, q) ∧ (accepted = true → Inside data q) := by
  rw [parse]
  by_cases short : data.length < 12
  · exact ⟨false, p, if_pos short, fun h => Bool.noConfusion h⟩
  have long : 12 ≤ data.length := by omega
  simp only [if_neg short, bind, Except.bind, byteAtOk (Nat.lt_of_lt_of_le (by decide : 0 < 12) long)]
  split
  · exact ⟨false, _, rfl, fun h => Bool.noConfusion h⟩
  · obtain ⟨q, read, few⟩ := fieldsRead
      { p with rawData := data, rawSize := data.length, version := data[0] >>> 6 &&& 0x03 } long
    have size : intSize (12 + q.csrcCount.toNat * 4) = .ok (12 + q.csrcCount.toNat * 4) :=
      if_pos (by rw [intMax]; omega)
    obtain ⟨whole, ext, extRead, grown⟩ :=
      extensionRead { q with headerSize := 12 + q.csrcCount.toNat * 4 } data (by simp only; omega)
    simp only [read, size, extRead]
    cases whole with
    | false => exact ⟨false, ext, rfl, fun h => Bool.noConfusion h⟩
    | true => exact payloadInside (by simp only at grown; omega)

end RtspRelay.Rtp
