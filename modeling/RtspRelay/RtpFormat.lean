import RtspRelay.RtpPacket

/-! The RTP packet format against what `parse` reports of it. -/
namespace RtspRelay.RtpFormat
open Machine BigEndian Rtp

structure Extension where
  profile : UInt16
  words : List UInt32
  fits : words.length ≤ 65535

-- The last byte counts the filler and itself.
structure Padding where
  filler : Bytes
  fits : filler.length ≤ 254

structure Packet where
  marker : Bool
  payloadType : UInt8
  typeFits : payloadType.toNat < 128
  seq : UInt16
  timestamp : UInt32
  ssrc : UInt32
  csrcs : List UInt32
  csrcsFit : csrcs.length ≤ 15
  extension : Option Extension
  payload : Bytes
  padding : Option Padding

def flagBit (on : Bool) (bit : UInt8) : UInt8 := if on then bit else 0

def firstByte (padding extension : Bool) (csrcs : Nat) : UInt8 :=
  0x80 ||| flagBit padding 0x20 ||| flagBit extension 0x10 ||| .ofNat csrcs

def secondByte (marker : Bool) (payloadType : UInt8) : UInt8 := flagBit marker 0x80 ||| payloadType

def wordBytes (words : List UInt32) : Bytes := words.flatMap fun w => bytes 4 w.toNat

def extensionBytes : Option Extension → Bytes
  | none => []
  | some e => bytes 2 e.profile.toNat ++ bytes 2 e.words.length ++ wordBytes e.words

def paddingBytes : Option Padding → Bytes
  | none => []
  | some p => p.filler ++ [.ofNat (p.filler.length + 1)]

def fixedBytes (p : Packet) : Bytes :=
  firstByte p.padding.isSome p.extension.isSome p.csrcs.length :: secondByte p.marker p.payloadType ::
    (bytes 2 p.seq.toNat ++ bytes 4 p.timestamp.toNat ++ bytes 4 p.ssrc.toNat)

def header (p : Packet) : Bytes := fixedBytes p ++ wordBytes p.csrcs ++ extensionBytes p.extension

def encode (p : Packet) : Bytes := header p ++ p.payload ++ paddingBytes p.padding

structure Reports (p : Packet) (r : RtpPacket) : Prop where
  version : r.version = 2
  padding : r.padding = p.padding.isSome
  extension : r.extension = p.extension.isSome
  csrcCount : r.csrcCount.toNat = p.csrcs.length
  marker : r.marker = p.marker
  payloadType : r.payloadType = p.payloadType
  seq : r.seq = p.seq
  timestamp : r.timestamp = p.timestamp
  ssrc : r.ssrc = p.ssrc
  raw : r.rawData = encode p ∧ r.rawSize = (encode p).length
  csrcs : (r.rawData.drop 12).take (4 * r.csrcCount.toNat) = wordBytes p.csrcs
  headerSize : r.headerSize = (header p).length
  payloadSize : r.payloadSize = p.payload.length
  payload : payloadBytes r = p.payload

/-! ### The first two bytes -/

theorem versionBits (padding extension : Bool) {csrcs : Nat} (few : csrcs ≤ 15) :
    firstByte padding extension csrcs >>> 6 &&& 0x03 = 2 := by
  have bits : ∀ padding extension : Bool, ∀ k : Fin 16, firstByte padding extension k >>> 6 &&& 0x03 = 2 := by
    decide +kernel
  exact bits padding extension ⟨csrcs, by omega⟩

theorem flagBits (padding extension : Bool) {csrcs : Nat} (few : csrcs ≤ 15) :
    (firstByte padding extension csrcs &&& 0x20 != 0) = padding ∧
      (firstByte padding extension csrcs &&& 0x10 != 0) = extension ∧
      firstByte padding extension csrcs &&& 0x0F = .ofNat csrcs := by
  have bits : ∀ padding extension : Bool, ∀ k : Fin 16,
      (firstByte padding extension k &&& 0x20 != 0) = padding ∧
        (firstByte padding extension k &&& 0x10 != 0) = extension ∧
        firstByte padding extension k &&& 0x0F = .ofNat k := by
    decide +kernel
  exact bits padding extension ⟨csrcs, by omega⟩

theorem markerBits (marker : Bool) {pt : UInt8} (fits : pt.toNat < 128) :
    (secondByte marker pt &&& 0x80 != 0) = marker ∧ secondByte marker pt &&& 0x7F = pt := by
  have bits : ∀ marker : Bool, ∀ k : Fin 128, (secondByte marker (.ofNat k) &&& 0x80 != 0) = marker ∧
      secondByte marker (.ofNat k) &&& 0x7F = .ofNat k := by
    decide +kernel
  have same := bits marker ⟨pt.toNat, fits⟩
  rwa [UInt8.ofNat_toNat] at same

/-! ### Lengths -/

theorem fixedLength (p : Packet) : (fixedBytes p).length = 12 := by
  simp only [fixedBytes, List.length_cons, List.length_append, bytesLength]

theorem wordsLength (words : List UInt32) : (wordBytes words).length = 4 * words.length := by
  induction words with
  | nil => rfl
  | cons w words ih =>
    rw [wordBytes, List.flatMap_cons, List.length_append, bytesLength, List.length_cons]
    rw [wordBytes] at ih
    omega

theorem headerLength (p : Packet) :
    (header p).length = 12 + 4 * p.csrcs.length + (extensionBytes p.extension).length := by
  rw [header, List.length_append, List.length_append, fixedLength, wordsLength]

theorem encodeLength (p : Packet) :
    (encode p).length = (header p).length + p.payload.length + (paddingBytes p.padding).length := by
  rw [encode, List.length_append, List.length_append]

/-! ### Reading an encoded packet -/

theorem byteBehind (before after : Bytes) {data : Bytes} {b : UInt8} {i : Nat} (split : data = before ++ b :: after)
    (place : i = before.length) : byteAt data i = .ok b := by
  subst split place
  rw [byteAt, List.getElem?_append_right (Nat.le_refl _), Nat.sub_self]
  rfl

-- What the fields of `r` become by the fixed part.
def withFixed (r : RtpPacket) (p : Packet) : RtpPacket :=
  { r with
    padding := p.padding.isSome
    extension := p.extension.isSome
    csrcCount := .ofNat p.csrcs.length
    marker := p.marker
    payloadType := p.payloadType
    seq := p.seq
    timestamp := p.timestamp
    ssrc := p.ssrc }

theorem fixedRead (r : RtpPacket) (p : Packet) (rest : Bytes) :
    readFixed r (fixedBytes p ++ rest) = .ok (withFixed r p) := by
  obtain ⟨pad, ext, count⟩ := flagBits p.padding.isSome p.extension.isSome p.csrcsFit
  obtain ⟨mark, type⟩ := markerBits p.marker p.typeFits
  have seq := (twoBytes _ _).trans (bytes16 p.seq)
  have timestamp := (fourBytes _ _ _ _).trans (bytes32 p.timestamp)
  have ssrc := (fourBytes _ _ _ _).trans (bytes32 p.ssrc)
  have fields : readFixed r (fixedBytes p ++ rest) = .ok { r with
      padding := _, extension := _, csrcCount := _, marker := _, payloadType := _, seq := _, timestamp := _
      ssrc := _ } := rfl
  rw [fields, pad, ext, count, mark, type, seq, timestamp, ssrc]
  rfl

theorem versionRead (p : Packet) (rest : Bytes) :
    byteAt (fixedBytes p ++ rest) 0 = .ok (firstByte p.padding.isSome p.extension.isSome p.csrcs.length) :=
  rfl

theorem extensionNone {r : RtpPacket} (data : Bytes) (off : r.extension = false) :
    readExtension r data = .ok (true, r) := by
  rw [readExtension, off]
  rfl

theorem extensionSome {r : RtpPacket} {before after : Bytes} {e : Extension} (on : r.extension = true)
    (start : r.headerSize = before.length) (small : before.length ≤ 72) :
    readExtension r (before ++ extensionBytes (some e) ++ after) =
      .ok (true, { r with headerSize := r.headerSize + (extensionBytes (some e)).length }) := by
  have words : e.words.length < 65536 := by have := e.fits; omega
  have total : (extensionBytes (some e)).length = 4 + e.words.length * 4 := by
    rw [extensionBytes, List.length_append, List.length_append, bytesLength, bytesLength, wordsLength]
    omega
  have sum : sizeSum r.headerSize 4 = .ok (r.headerSize + 4) := if_pos (by omega)
  have room : ¬(before ++ extensionBytes (some e) ++ after).length < r.headerSize + 4 := by
    rw [List.length_append, List.length_append]
    omega
  have high : byteAt (before ++ extensionBytes (some e) ++ after) (r.headerSize + 2) =
      .ok (.ofNat (e.words.length / 256)) := by
    refine byteBehind (before ++ bytes 2 e.profile.toNat)
      ([.ofNat e.words.length] ++ wordBytes e.words ++ after) ?_ ?_
    · simp [extensionBytes, bytes]
    · rw [List.length_append, bytesLength, start]
  have low : byteAt (before ++ extensionBytes (some e) ++ after) (r.headerSize + 3) =
      .ok (.ofNat e.words.length) := by
    refine byteBehind (before ++ bytes 2 e.profile.toNat ++ [.ofNat (e.words.length / 256)])
      (wordBytes e.words ++ after) ?_ ?_
    · simp [extensionBytes, bytes]
    · rw [List.length_append, List.length_append, bytesLength, start]
      rfl
  have count : ((UInt8.ofNat (e.words.length / 256)).toUInt16 <<< 8 |||
      (UInt8.ofNat e.words.length).toUInt16).toNat = e.words.length := by
    rw [twoBytes]
    change (UInt16.ofNat (number (bytes 2 e.words.length))).toNat = _
    rw [bytesNumber, UInt16.toNat_ofNat']
    omega
  have size : intSize (4 + e.words.length * 4) = .ok (4 + e.words.length * 4) :=
    if_pos (by rw [intMax]; omega)
  have grown : sizeSum r.headerSize (4 + e.words.length * 4) = .ok (r.headerSize + (4 + e.words.length * 4)) :=
    if_pos (by omega)
  rw [readExtension, if_pos on]
  simp only [bind, Except.bind, sum, if_neg room, high, low, count, size, grown, total]

-- With an extension the header ends where its words end.
theorem extensionRead {r : RtpPacket} (p : Packet) (after : Bytes) (flag : r.extension = p.extension.isSome)
    (start : r.headerSize = 12 + p.csrcs.length * 4) :
    readExtension r (header p ++ after) = .ok (true, { r with headerSize := (header p).length }) := by
  have := p.csrcsFit
  have length := headerLength p
  have base : (fixedBytes p ++ wordBytes p.csrcs).length = r.headerSize := by
    rw [List.length_append, fixedLength, wordsLength, start]
    omega
  cases ext : p.extension with
  | none =>
    rw [ext] at flag
    rw [ext, extensionBytes, List.length_nil] at length
    have same : (header p).length = r.headerSize := by omega
    rw [extensionNone _ flag, same]
  | some e =>
    rw [ext] at flag
    rw [ext] at length
    have same : (header p).length = r.headerSize + (extensionBytes (some e)).length := by omega
    rw [same, header, ext]
    exact extensionSome flag base.symm (by omega)

-- Padding behind an empty payload is not told from it: the count is the whole rest.
def reportedSize (p : Packet) : Nat :=
  match p.padding with
  | none => p.payload.length
  | some q => if p.payload = [] then q.filler.length + 1 else p.payload.length

theorem sizeDiffOk {a b c : Nat} (sum : a = c + b) : sizeDiff a b = .ok c := by
  rw [sizeDiff, if_pos (by omega), sum, Nat.add_sub_cancel]

theorem paddingRead {r : RtpPacket} (p : Packet) (flag : r.padding = p.padding.isSome)
    (size : r.payloadSize = p.payload.length + (paddingBytes p.padding).length) :
    dropPadding r (encode p) = .ok { r with payloadSize := reportedSize p } := by
  rw [dropPadding, reportedSize]
  cases pad : p.padding with
  | none =>
    rw [pad] at flag
    rw [pad, paddingBytes, List.length_nil, Nat.add_zero] at size
    rw [if_neg (by rw [flag]; rintro ⟨on, -⟩; exact Bool.noConfusion on), ← size]
  | some q =>
    rw [pad] at flag
    rw [pad, paddingBytes, List.length_append, List.length_singleton] at size
    have fits := q.fits
    have length : (encode p).length = (header p ++ p.payload ++ q.filler).length + 1 := by
      rw [encode, pad, paddingBytes, ← List.append_assoc, List.length_append]
      rfl
    have last : sizeDiff (encode p).length 1 = .ok (header p ++ p.payload ++ q.filler).length :=
      sizeDiffOk length
    have count : byteAt (encode p) (header p ++ p.payload ++ q.filler).length =
        .ok (.ofNat (q.filler.length + 1)) := by
      refine byteBehind _ [] ?_ rfl
      rw [encode, pad, paddingBytes]
      simp only [List.append_assoc]
    have value : (UInt8.ofNat (q.filler.length + 1)).toNat = q.filler.length + 1 := by
      rw [UInt8.toNat_ofNat']
      omega
    rw [if_pos ⟨flag, by omega⟩]
    simp only [bind, Except.bind, last, count, value]
    by_cases empty : p.payload = []
    · rw [empty, List.length_nil] at size
      rw [if_neg (by omega), if_pos empty, show q.filler.length + 1 = r.payloadSize by omega]
    · have nonempty := List.length_pos_of_ne_nil empty
      have rest : sizeDiff r.payloadSize (q.filler.length + 1) = .ok p.payload.length :=
        sizeDiffOk (by omega)
      rw [if_pos (by omega), rest, if_neg empty]

-- What `parse` makes of an encoded packet, whatever the object held before.
def reported (p : Packet) : RtpPacket :=
  { rawData := encode p, rawSize := (encode p).length, headerSize := (header p).length
    payload := some (header p).length, payloadSize := reportedSize p, version := 2
    padding := p.padding.isSome, extension := p.extension.isSome, csrcCount := .ofNat p.csrcs.length
    marker := p.marker, payloadType := p.payloadType, seq := p.seq, timestamp := p.timestamp, ssrc := p.ssrc }

theorem encodeSplit (p : Packet) : ∃ rest, encode p = fixedBytes p ++ rest :=
  ⟨wordBytes p.csrcs ++ extensionBytes p.extension ++ p.payload ++ paddingBytes p.padding, by
    simp only [encode, header, List.append_assoc]⟩

theorem csrcNumber (p : Packet) : (UInt8.ofNat p.csrcs.length).toNat = p.csrcs.length := by
  have := p.csrcsFit
  rw [UInt8.toNat_ofNat']
  omega

theorem encodedParse (start : RtpPacket) (p : Packet) : parse start (encode p) = .ok (true, reported p) := by
  obtain ⟨rest, split⟩ := encodeSplit p
  have := p.csrcsFit
  have length := headerLength p
  have total := encodeLength p
  have first : byteAt (encode p) 0 = .ok (firstByte p.padding.isSome p.extension.isSome p.csrcs.length) := by
    rw [split]
    exact versionRead p rest
  have fields (r : RtpPacket) : readFixed r (encode p) = .ok (withFixed r p) := by
    rw [split]
    exact fixedRead r p rest
  have size : intSize (12 + p.csrcs.length * 4) = .ok (12 + p.csrcs.length * 4) :=
    if_pos (by rw [intMax]; omega)
  have whole (r : RtpPacket) (flag : r.extension = p.extension.isSome)
      (start : r.headerSize = 12 + p.csrcs.length * 4) :
      readExtension r (encode p) = .ok (true, { r with headerSize := (header p).length }) := by
    rw [encode, List.append_assoc]
    exact extensionRead p _ flag start
  have room : sizeDiff (encode p).length (header p).length =
      .ok (p.payload.length + (paddingBytes p.padding).length) := sizeDiffOk (by omega)
  rw [parse, if_neg (by omega)]
  simp only [bind, Except.bind, first, versionBits _ _ p.csrcsFit, ne_eq, not_true_eq_false, if_false, fields]
  simp only [withFixed, csrcNumber, size, whole]
  rw [if_pos trivial, readPayload, if_neg (by simp only; omega)]
  simp only [bind, Except.bind, room]
  rw [paddingRead p rfl rfl]
  rfl

theorem csrcBytes (p : Packet) : ((encode p).drop 12).take (4 * p.csrcs.length) = wordBytes p.csrcs := by
  have fixed : 12 = (fixedBytes p).length := (fixedLength p).symm
  rw [encode, header, List.append_assoc, List.append_assoc, List.append_assoc, fixed, List.drop_left,
    ← wordsLength, List.take_left]

theorem payloadReported {p : Packet} (size : reportedSize p = p.payload.length) :
    payloadBytes (reported p) = p.payload := by
  change ((encode p).drop (header p).length).take (reportedSize p) = _
  rw [size, encode, List.append_assoc, List.drop_left, List.take_left]

theorem sizeExact (p : Packet) : reportedSize p = p.payload.length ↔ p.padding = none ∨ p.payload ≠ [] := by
  rw [reportedSize]
  cases p.padding with
  | none => exact iff_of_true rfl (.inl rfl)
  | some q =>
    by_cases empty : p.payload = []
    · simp only [empty, if_true, List.length_nil]
      refine iff_of_false (Nat.succ_ne_zero _) ?_
      rintro (no | some)
      · exact absurd no (Option.some_ne_none q)
      · exact some rfl
    · simp only [if_neg empty]
      exact iff_of_true trivial (.inr empty)

theorem reportsExact (p : Packet) : Reports p (reported p) ↔ p.padding = none ∨ p.payload ≠ [] := by
  rw [← sizeExact]
  refine ⟨fun reports => reports.payloadSize, fun size => ?_⟩
  exact
    { version := rfl, padding := rfl, extension := rfl, csrcCount := csrcNumber p, marker := rfl
      payloadType := rfl, seq := rfl, timestamp := rfl, ssrc := rfl, raw := ⟨rfl, rfl⟩
      csrcs := by rw [show (reported p).csrcCount.toNat = _ from csrcNumber p]; exact csrcBytes p
      headerSize := rfl, payloadSize := size, payload := payloadReported size }

/-! ### Building -/

theorem lowByte16 (n : UInt16) : (n &&& 0xFF).toUInt8 = .ofNat n.toNat := by
  apply UInt8.toNat_inj.mp
  rw [UInt16.toNat_toUInt8, UInt16.toNat_and, UInt8.toNat_ofNat']
  change (n.toNat &&& (2 ^ 8 - 1)) % 2 ^ 8 = _
  rw [Nat.and_two_pow_sub_one_eq_mod, Nat.mod_mod]

theorem lowByte32 (n : UInt32) : (n &&& 0xFF).toUInt8 = .ofNat n.toNat := by
  apply UInt8.toNat_inj.mp
  rw [UInt32.toNat_toUInt8, UInt32.toNat_and, UInt8.toNat_ofNat']
  change (n.toNat &&& (2 ^ 8 - 1)) % 2 ^ 8 = _
  rw [Nat.and_two_pow_sub_one_eq_mod, Nat.mod_mod]

theorem sequenceBytes (n : UInt16) : [(n >>> 8 &&& 0xFF).toUInt8, (n &&& 0xFF).toUInt8] = bytes 2 n.toNat := by
  have high : (n >>> 8).toNat = n.toNat / 256 := by
    rw [UInt16.toNat_shiftRight, Nat.shiftRight_eq_div_pow]
    rfl
  rw [lowByte16, lowByte16, high]
  rfl

theorem shiftedBytes (n : UInt32) :
    [(n >>> 24 &&& 0xFF).toUInt8, (n >>> 16 &&& 0xFF).toUInt8, (n >>> 8 &&& 0xFF).toUInt8, (n &&& 0xFF).toUInt8] =
      bytes 4 n.toNat := by
  have first : (n >>> 24).toNat = n.toNat / 256 / 256 / 256 := by
    rw [UInt32.toNat_shiftRight, Nat.shiftRight_eq_div_pow, Nat.div_div_eq_div_mul, Nat.div_div_eq_div_mul]
    rfl
  have second : (n >>> 16).toNat = n.toNat / 256 / 256 := by
    rw [UInt32.toNat_shiftRight, Nat.shiftRight_eq_div_pow, Nat.div_div_eq_div_mul]
    rfl
  have third : (n >>> 8).toNat = n.toNat / 256 := by
    rw [UInt32.toNat_shiftRight, Nat.shiftRight_eq_div_pow]
    rfl
  rw [lowByte32, lowByte32, lowByte32, lowByte32, first, second, third]
  rfl

theorem typeByte (marker : Bool) {pt : UInt8} (fits : pt.toNat < 128) :
    (if marker then 0x80 else 0x00) ||| (pt &&& 0x7F) = secondByte marker pt := by
  have same : pt &&& 0x7F = pt := by
    apply UInt8.toNat_inj.mp
    rw [UInt8.toNat_and]
    exact (Nat.and_two_pow_sub_one_eq_mod pt.toNat 7).trans (Nat.mod_eq_of_lt fits)
  rw [same]
  rfl

theorem buildHeader (p : Packet) (pointer : Option Bytes) (len : Nat) (csrcs : p.csrcs = [])
    (extension : p.extension = none) (padding : p.padding = none) :
    build p.payloadType p.marker p.seq p.timestamp p.ssrc pointer len =
      header p ++ match pointer with
        | some bytes => bytes.take len
        | none => List.replicate len 0 := by
  have split : header p = [firstByte false false 0, secondByte p.marker p.payloadType] ++
      bytes 2 p.seq.toNat ++ bytes 4 p.timestamp.toNat ++ bytes 4 p.ssrc.toNat := by
    rw [header, fixedBytes, csrcs, extension, padding]
    rfl
  rw [split, ← sequenceBytes, ← shiftedBytes, ← shiftedBytes, ← typeByte p.marker p.typeFits]
  rfl

-- The encoder of a plain packet; a null pointer stands for an empty payload as well.
theorem buildEncodes (p : Packet) (csrcs : p.csrcs = []) (extension : p.extension = none)
    (padding : p.padding = none) :
    build p.payloadType p.marker p.seq p.timestamp p.ssrc (some p.payload) p.payload.length = encode p ∧
      (p.payload = [] → build p.payloadType p.marker p.seq p.timestamp p.ssrc none 0 = encode p) := by
  have plain : encode p = header p ++ p.payload := by
    rw [encode, padding, paddingBytes, List.append_nil]
  rw [plain]
  refine ⟨?_, fun empty => ?_⟩
  · rw [buildHeader p _ _ csrcs extension padding]
    simp only [List.take_length]
  · rw [buildHeader p _ _ csrcs extension padding, empty]
    rfl

theorem parseInvertsEncode (start : RtpPacket) (p : Packet) :
    (p.csrcs = [] → p.extension = none → p.padding = none →
      build p.payloadType p.marker p.seq p.timestamp p.ssrc (some p.payload) p.payload.length = encode p ∧
        (p.payload = [] → build p.payloadType p.marker p.seq p.timestamp p.ssrc none 0 = encode p)) ∧
    ((∃ r, parse start (encode p) = .ok (true, r) ∧ Reports p r) ↔ p.padding = none ∨ p.payload ≠ []) := by
  refine ⟨buildEncodes p, ?_⟩
  rw [← reportsExact, encodedParse]
  constructor
  · rintro ⟨r, same, reports⟩
    cases same
    exact reports
  · exact fun reports => ⟨_, rfl, reports⟩

-- One byte of padding behind an empty payload comes back as a payload of one byte.
def paddedEmpty : Packet :=
  { marker := false, payloadType := 96, typeFits := by decide, seq := 1, timestamp := 2, ssrc := 3, csrcs := []
    csrcsFit := by decide, extension := none, payload := [], padding := some ⟨[], by decide⟩ }

theorem paddingAsPayload :
    ¬∀ start p, ∃ r, parse start (encode p) = .ok (true, r) ∧ Reports p r := by
  intro all
  obtain ⟨r, parsed, reports⟩ := all fresh paddedEmpty
  rw [encodedParse] at parsed
  cases parsed
  exact absurd reports.payloadSize (by decide)

end RtspRelay.RtpFormat
