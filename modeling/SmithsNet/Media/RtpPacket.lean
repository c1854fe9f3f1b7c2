import SmithsNet.Lib.Checked
import SmithsNet.Media.Rtcp

/-!
# SmithsNet.Media.RtpPacket

The RTP packet format (`smiths-core/src/rtp.rs`): the owned packet with its encoder and
decoder, the parser with every access to the datagram checked, and the datagrams RFC 3550
allows.

* `parseReads_eq` — the parser never leaves the datagram, whatever the bytes;
* `parse_datagram` — of a datagram laid out per the RFC it finds every field and the
  payload, however many CSRCs, extension words and padding bytes there are;
* `decode_encode_iff` — the encoder keeps the seven low bits of the payload type.
-/

namespace SmithsNet.Media

open Lib Lib.Checked Rtcp

/-- An owned RTP packet. -/
structure RtpPacket where
  marker : Bool
  payloadType : UInt8
  sequence : UInt16
  timestamp : UInt32
  ssrc : UInt32
  payload : Bytes
  deriving DecidableEq

namespace RtpPacket

/-- Version 2, no padding, no extension, no CSRC. -/
def encode (p : RtpPacket) : Bytes :=
  rtpHeaderBytes p.marker p.payloadType p.sequence p.timestamp p.ssrc ++ p.payload

/-- CSRCs, a header extension and padding are dropped. -/
def decode (bytes : Bytes) : Option RtpPacket :=
  (RtpHeader.parse bytes).map fun hdr =>
    { marker := hdr.marker
      payloadType := hdr.payloadType
      sequence := hdr.sequence
      timestamp := hdr.timestamp
      ssrc := hdr.ssrc
      payload := hdr.payload bytes }

end RtpPacket

/-! ## the parser with its accesses checked -/

/-- A result that may be missing, as a computation. -/
def ofOption {α : Type} : Option α → Checked Unit α
  | some a => .ok a
  | none => fail ()

namespace RtpHeader

/-- `payloadStartOf`, access by access. -/
def payloadStartReads (bytes : Bytes) (csrcCount : UInt8) (hasExtension : Bool) :
    Checked Unit Nat :=
  let start := RTP_FIXED_HEADER_LEN + 4 * csrcCount.toNat
  if bytes.length < start then fail ()
  else if hasExtension then
    if bytes.length < start + 4 then fail ()
    else do
      let length ← bytesAt bytes (start + 2) 2
      let start := start + (4 + 4 * (beU16 length 0).toNat)
      if bytes.length < start then fail () else return start
  else return start

/-- `payloadEndOf`, access by access. -/
def payloadEndReads (bytes : Bytes) (start : Nat) (padding : Bool) : Checked Unit Nat :=
  let fin := bytes.length
  if padding then do
    let last ← getAt bytes (fin - 1)
    let pad := last.toNat
    if pad = 0 ∨ pad > fin - start then fail () else return fin - pad
  else return fin

/-- `parse`, access by access. -/
def parseReads (bytes : Bytes) : Checked Unit RtpHeader :=
  if bytes.length < RTP_FIXED_HEADER_LEN then fail ()
  else do
    let b0 ← getAt bytes 0
    if b0 >>> 6 ≠ 2 then fail ()
    else
      let padding := b0 &&& 0x20 ≠ 0
      let hasExtension := b0 &&& 0x10 ≠ 0
      let csrcCount := b0 &&& 0x0F
      let start ← payloadStartReads bytes csrcCount hasExtension
      let fin ← payloadEndReads bytes start padding
      let b1 ← getAt bytes 1
      let sequence ← bytesAt bytes 2 2
      let timestamp ← bytesAt bytes 4 4
      let ssrc ← bytesAt bytes 8 4
      return {
        marker := b1 &&& 0x80 ≠ 0
        payloadType := b1 &&& 0x7F
        sequence := beU16 sequence 0
        timestamp := beU32 timestamp 0
        ssrc := beU32 ssrc 0
        csrcCount := csrcCount
        hasExtension := hasExtension
        payloadStart := start
        payloadEnd := fin }

/-- `payload`, with the bounds of its slice checked. -/
def payloadReads (hdr : RtpHeader) (bytes : Bytes) : Checked Unit Bytes :=
  range bytes hdr.payloadStart hdr.payloadEnd

end RtpHeader

/-- `RtpPacket.decode`, access by access. -/
def RtpPacket.decodeReads (bytes : Bytes) : Checked Unit RtpPacket := do
  let hdr ← RtpHeader.parseReads bytes
  let payload ← hdr.payloadReads bytes
  return {
    marker := hdr.marker
    payloadType := hdr.payloadType
    sequence := hdr.sequence
    timestamp := hdr.timestamp
    ssrc := hdr.ssrc
    payload := payload }

/-! ## every access is in range -/

section Reads

variable {bytes : Bytes} {i : Nat}

theorem getAt_byteAt (h : i < bytes.length) : (getAt bytes i : Checked Unit UInt8) = .ok (byteAt bytes i) := by
  rw [getAt_eq h, byteAt, List.getD_eq_getElem _ _ h]

theorem byteAt_slice {k j : Nat} (h : j < k) : byteAt (slice bytes i k) j = byteAt bytes (i + j) := by
  simp [byteAt, slice, List.getD_eq_getElem?_getD, h]

theorem beU16_slice {k j : Nat} (h : j + 2 ≤ k) : beU16 (slice bytes i k) j = beU16 bytes (i + j) := by
  rw [beU16, beU16, byteAt_slice (by omega), byteAt_slice (by omega), Nat.add_assoc]

theorem beU32_slice {k j : Nat} (h : j + 4 ≤ k) : beU32 (slice bytes i k) j = beU32 bytes (i + j) := by
  rw [beU32, beU32, beU16_slice (by omega), beU16_slice (by omega), Nat.add_assoc]

end Reads

namespace RtpHeader

theorem payloadStartReads_eq (bytes : Bytes) (csrcCount : UInt8) (hasExtension : Bool) :
    payloadStartReads bytes csrcCount hasExtension =
      ofOption (payloadStartOf bytes csrcCount hasExtension) := by
  unfold payloadStartReads payloadStartOf
  by_cases hcsrcs : bytes.length < RTP_FIXED_HEADER_LEN + 4 * csrcCount.toNat
  · rw [if_pos hcsrcs, if_pos hcsrcs, ofOption]
  rw [if_neg hcsrcs, if_neg hcsrcs]
  cases hasExtension with
  | false => rfl
  | true =>
    rw [if_pos rfl, if_pos rfl]
    by_cases hext : bytes.length < RTP_FIXED_HEADER_LEN + 4 * csrcCount.toNat + 4
    · rw [if_pos hext, if_pos hext, ofOption]
    rw [if_neg hext, if_neg hext, bytesAt_eq (by omega), ok_bind, beU16_slice (by omega),
      Nat.add_zero]
    by_cases hwords : bytes.length < RTP_FIXED_HEADER_LEN + 4 * csrcCount.toNat +
        (4 + 4 * (beU16 bytes (RTP_FIXED_HEADER_LEN + 4 * csrcCount.toNat + 2)).toNat)
    · rw [if_pos hwords, if_pos hwords, ofOption]
    · rw [if_neg hwords, if_neg hwords, ofOption]
      rfl

theorem payloadEndReads_eq {bytes : Bytes} (h : 0 < bytes.length) (start : Nat) (padding : Bool) :
    payloadEndReads bytes start padding = ofOption (payloadEndOf bytes start padding) := by
  unfold payloadEndReads payloadEndOf
  cases padding with
  | false => rfl
  | true =>
    rw [if_pos rfl, if_pos rfl, getAt_byteAt (by omega), ok_bind]
    by_cases hpad : (byteAt bytes (bytes.length - 1)).toNat = 0 ∨
        (byteAt bytes (bytes.length - 1)).toNat > bytes.length - start
    · rw [if_pos hpad, if_pos hpad, ofOption]
    · rw [if_neg hpad, if_neg hpad, ofOption]
      rfl

theorem parseReads_eq (bytes : Bytes) : parseReads bytes = ofOption (parse bytes) := by
  unfold parseReads parse
  by_cases hlen : bytes.length < RTP_FIXED_HEADER_LEN
  · rw [if_pos hlen, if_pos hlen, ofOption]
  rw [if_neg hlen, if_neg hlen]
  have hlong : 12 ≤ bytes.length := Nat.not_lt.mp hlen
  rw [getAt_byteAt (by omega), ok_bind]
  by_cases hversion : byteAt bytes 0 >>> 6 ≠ 2
  · rw [if_pos hversion, if_pos hversion, ofOption]
  rw [if_neg hversion, if_neg hversion]
  dsimp only
  rw [payloadStartReads_eq]
  cases hstart : payloadStartOf bytes (byteAt bytes 0 &&& 0x0F) (byteAt bytes 0 &&& 0x10 ≠ 0) with
  | none => rfl
  | some start =>
    simp only [ofOption, ok_bind]
    rw [payloadEndReads_eq (by omega)]
    cases hend : payloadEndOf bytes start (byteAt bytes 0 &&& 0x20 ≠ 0) with
    | none => rfl
    | some fin =>
      simp only [ofOption, ok_bind]
      rw [getAt_byteAt (by omega), bytesAt_eq (by omega), bytesAt_eq (by omega),
        bytesAt_eq (by omega)]
      simp only [ok_bind, beU16_slice (Nat.le_refl 2), beU32_slice (Nat.le_refl 4), Nat.add_zero]
      rfl

end RtpHeader

/-! ## the datagrams of RFC 3550 -/

/-- A header extension: a profile's identifier and a number of words. -/
structure RtpExtension where
  profile : UInt16
  words : List UInt32
  words_lt : words.length < 2 ^ 16

/-- Padding: arbitrary bytes and the length, itself included. -/
structure RtpPadding where
  fill : Bytes
  fill_lt : fill.length < 255

/-- What a datagram says, part by part. -/
structure RtpDatagram where
  marker : Bool
  payloadType : UInt8
  payloadType_lt : payloadType < 128
  sequence : UInt16
  timestamp : UInt32
  ssrc : UInt32
  csrcs : List UInt32
  csrcs_le : csrcs.length ≤ 15
  extension : Option RtpExtension
  payload : Bytes
  padding : Option RtpPadding

def RtpExtension.bytes (e : RtpExtension) : Bytes :=
  u16ToBe e.profile ++ u16ToBe (UInt16.ofNat e.words.length) ++ e.words.flatMap u32ToBe

def RtpPadding.bytes (p : RtpPadding) : Bytes := p.fill ++ [UInt8.ofNat (p.fill.length + 1)]

namespace RtpDatagram

/-- Version, padding flag, extension flag and CSRC count. -/
def firstByte (d : RtpDatagram) : UInt8 :=
  0x80 ||| (if d.padding.isSome then 0x20 else 0) ||| (if d.extension.isSome then 0x10 else 0) |||
    UInt8.ofNat d.csrcs.length

/-- Marker and payload type. -/
def secondByte (d : RtpDatagram) : UInt8 := (if d.marker then 0x80 else 0) ||| d.payloadType

def extensionBytes (d : RtpDatagram) : Bytes := d.extension.elim [] (·.bytes)

def paddingBytes (d : RtpDatagram) : Bytes := d.padding.elim [] (·.bytes)

/-- The fixed header and the CSRC list. -/
def front (d : RtpDatagram) : Bytes :=
  [d.firstByte, d.secondByte] ++ u16ToBe d.sequence ++ u32ToBe d.timestamp ++ u32ToBe d.ssrc ++
    d.csrcs.flatMap u32ToBe

def bytes (d : RtpDatagram) : Bytes :=
  d.front ++ d.extensionBytes ++ d.payload ++ d.paddingBytes

end RtpDatagram

theorem firstByte_fields (padding extension : Bool) (count : Fin 16) :
    let b0 : UInt8 := 0x80 ||| (if padding then 0x20 else 0) ||| (if extension then 0x10 else 0) |||
      UInt8.ofNat count
    b0 >>> 6 = 2 ∧ decide (b0 &&& 0x20 ≠ 0) = padding ∧ decide (b0 &&& 0x10 ≠ 0) = extension ∧
      b0 &&& 0x0F = UInt8.ofNat count := by
  revert padding extension count
  decide

theorem secondByte_fields (marker : Bool) (payloadType : Fin 128) :
    let b1 : UInt8 := (if marker then 0x80 else 0) ||| UInt8.ofNat payloadType
    decide (b1 &&& 0x80 ≠ 0) = marker ∧ b1 &&& 0x7F = UInt8.ofNat payloadType := by
  revert marker payloadType
  decide +kernel

/-! ## parsing them -/

section Append

variable {as : Bytes} (bs : Bytes) (i : Nat)

theorem byteAt_append_right : byteAt (as ++ bs) (as.length + i) = byteAt bs i := by
  rw [byteAt, byteAt, List.getD_eq_getElem?_getD, List.getD_eq_getElem?_getD,
    List.getElem?_append_right (Nat.le_add_right _ _), Nat.add_sub_cancel_left]

theorem beU16_append_right : beU16 (as ++ bs) (as.length + i) = beU16 bs i := by
  rw [beU16, beU16, Nat.add_assoc, byteAt_append_right, byteAt_append_right]

theorem length_words (ws : List UInt32) : (ws.flatMap u32ToBe).length = 4 * ws.length := by
  rw [List.length_flatMap, List.map_congr_left (fun w _ => length_u32ToBe w), List.map_const',
    List.sum_replicate_nat, Nat.mul_comm]

end Append

namespace RtpDatagram

variable (d : RtpDatagram)

theorem length_front : d.front.length = RTP_FIXED_HEADER_LEN + 4 * d.csrcs.length := by
  simp only [front, List.length_append, length_words, length_u16ToBe, length_u32ToBe,
    List.length_cons, List.length_nil, RTP_FIXED_HEADER_LEN]

theorem length_bytes : d.bytes.length =
    d.front.length + d.extensionBytes.length + d.payload.length + d.paddingBytes.length := by
  simp only [bytes, List.length_append]

theorem payloadStartOf_bytes :
    RtpHeader.payloadStartOf d.bytes (UInt8.ofNat d.csrcs.length) d.extension.isSome =
      some (d.front.length + d.extensionBytes.length) := by
  have hcount : (UInt8.ofNat d.csrcs.length).toNat = d.csrcs.length :=
    UInt8.toNat_ofNat_of_lt' (Nat.lt_of_le_of_lt d.csrcs_le (by decide))
  have hlen := d.length_bytes
  rw [RtpHeader.payloadStartOf, hcount, ← d.length_front, if_neg (by omega)]
  cases hext : d.extension with
  | none => simp [extensionBytes, hext]
  | some e =>
    have hbytes : d.extensionBytes = e.bytes := by rw [extensionBytes, hext]; rfl
    have hsize : e.bytes.length = 4 + 4 * e.words.length := by
      simp only [RtpExtension.bytes, List.length_append, length_words, length_u16ToBe]
    have hwords : beU16 d.bytes (d.front.length + 2) = UInt16.ofNat e.words.length := by
      rw [bytes, List.append_assoc, List.append_assoc, beU16_append_right, hbytes]
      exact beU16_u16ToBe (e.words.flatMap u32ToBe ++ (d.payload ++ d.paddingBytes)) _
    have hcode : (UInt16.ofNat e.words.length).toNat = e.words.length :=
      UInt16.toNat_ofNat_of_lt' e.words_lt
    rw [hbytes] at hlen ⊢
    rw [Option.isSome_some, if_pos rfl, if_neg (by omega), hwords, hcode, if_neg (by omega), hsize]

theorem payloadEndOf_bytes :
    RtpHeader.payloadEndOf d.bytes (d.front.length + d.extensionBytes.length) d.padding.isSome =
      some (d.front.length + d.extensionBytes.length + d.payload.length) := by
  have hlen := d.length_bytes
  rw [RtpHeader.payloadEndOf]
  cases hpad : d.padding with
  | none =>
    have hbytes : d.paddingBytes = [] := by rw [paddingBytes, hpad]; rfl
    rw [hbytes, List.length_nil] at hlen
    simp [hlen]
  | some p =>
    have hbytes : d.paddingBytes = p.bytes := by rw [paddingBytes, hpad]; rfl
    have hsize : p.bytes.length = p.fill.length + 1 := by simp [RtpPadding.bytes]
    have hcode : (UInt8.ofNat (p.fill.length + 1)).toNat = p.fill.length + 1 :=
      UInt8.toNat_ofNat_of_lt' (Nat.add_lt_add_right p.fill_lt 1)
    rw [hbytes, hsize] at hlen
    have hlast : byteAt d.bytes (d.bytes.length - 1) = UInt8.ofNat (p.fill.length + 1) := by
      have hfront : d.bytes =
          d.front ++ d.extensionBytes ++ d.payload ++ p.fill ++ [UInt8.ofNat (p.fill.length + 1)] := by
        rw [bytes, hbytes, RtpPadding.bytes, ← List.append_assoc]
      have hpos : d.bytes.length - 1 =
          (d.front ++ d.extensionBytes ++ d.payload ++ p.fill).length + 0 := by
        simp only [List.length_append]
        omega
      rw [hpos, hfront, byteAt_append_right]
      rfl
    rw [Option.isSome_some, if_pos rfl, hlast, hcode, if_neg (by omega)]
    congr 1
    omega

/-- The header the parser finds. -/
def header : RtpHeader where
  marker := d.marker
  payloadType := d.payloadType
  sequence := d.sequence
  timestamp := d.timestamp
  ssrc := d.ssrc
  csrcCount := UInt8.ofNat d.csrcs.length
  hasExtension := d.extension.isSome
  payloadStart := d.front.length + d.extensionBytes.length
  payloadEnd := d.front.length + d.extensionBytes.length + d.payload.length

theorem parse_datagram : RtpHeader.parse d.bytes = some d.header := by
  obtain ⟨hversion, hpadding, hextension, hcount⟩ := firstByte_fields d.padding.isSome
    d.extension.isSome ⟨d.csrcs.length, Nat.lt_succ_of_le d.csrcs_le⟩
  obtain ⟨hmarker, htype⟩ := secondByte_fields d.marker ⟨d.payloadType.toNat, d.payloadType_lt⟩
  rw [UInt8.ofNat_toNat] at hmarker htype
  have hlen := d.length_bytes
  have hfront := d.length_front
  unfold RTP_FIXED_HEADER_LEN at hfront
  have h0 : byteAt d.bytes 0 = d.firstByte := rfl
  have h1 : byteAt d.bytes 1 = d.secondByte := rfl
  have hsequence : beU16 d.bytes 2 = d.sequence := by simp [bytes, front]
  have htimestamp : beU32 d.bytes 4 = d.timestamp := by simp [bytes, front]
  have hssrc : beU32 d.bytes 8 = d.ssrc := by simp [bytes, front]
  rw [RtpHeader.parse, if_neg (by rw [RTP_FIXED_HEADER_LEN]; omega), h0, h1, firstByte, secondByte,
    if_neg (not_not_intro hversion)]
  dsimp only
  rw [hpadding, hextension, hcount, d.payloadStartOf_bytes]
  dsimp only
  rw [d.payloadEndOf_bytes, hsequence, htimestamp, hssrc, hmarker, htype]
  rfl

theorem payload_header : d.header.payload d.bytes = d.payload := by
  have hfront : d.header.payloadStart = (d.front ++ d.extensionBytes).length :=
    List.length_append.symm
  have hend : d.header.payloadEnd = (d.front ++ d.extensionBytes ++ d.payload).length := by
    simp only [List.length_append]
    rfl
  rw [RtpHeader.payload, hfront, hend, bytes, List.take_left, List.drop_left]

end RtpDatagram

/-! ## the payload of any datagram -/

theorem RtpHeader.le_of_payloadStartOf {bytes : Bytes} {csrcCount : UInt8} {hasExtension : Bool}
    {start : Nat} (h : payloadStartOf bytes csrcCount hasExtension = some start) :
    start ≤ bytes.length := by
  unfold payloadStartOf at h
  dsimp only at h
  split_ifs at h <;> grind

theorem RtpHeader.le_of_payloadEndOf {bytes : Bytes} {start fin : Nat} {padding : Bool}
    (hstart : start ≤ bytes.length) (h : payloadEndOf bytes start padding = some fin) :
    start ≤ fin ∧ fin ≤ bytes.length := by
  unfold payloadEndOf at h
  dsimp only at h
  split_ifs at h <;> grind

theorem RtpHeader.payload_bounds {bytes : Bytes} {hdr : RtpHeader} (h : parse bytes = some hdr) :
    hdr.payloadStart ≤ hdr.payloadEnd ∧ hdr.payloadEnd ≤ bytes.length := by
  unfold parse at h
  rw [ite_eq_iff] at h
  obtain ⟨-, h⟩ | ⟨-, h⟩ := h
  · contradiction
  dsimp only at h
  rw [ite_eq_iff] at h
  obtain ⟨-, h⟩ | ⟨-, h⟩ := h
  · contradiction
  cases hstart : payloadStartOf bytes (byteAt bytes 0 &&& 0x0F) (byteAt bytes 0 &&& 0x10 ≠ 0) with
  | none =>
    rw [hstart] at h
    contradiction
  | some start =>
    rw [hstart] at h
    dsimp only at h
    cases hend : payloadEndOf bytes start (byteAt bytes 0 &&& 0x20 ≠ 0) with
    | none =>
      rw [hend] at h
      contradiction
    | some fin =>
      rw [hend, Option.some.injEq] at h
      subst h
      exact le_of_payloadEndOf (le_of_payloadStartOf hstart) hend

theorem RtpPacket.decodeReads_eq (bytes : Bytes) : decodeReads bytes = ofOption (decode bytes) := by
  rw [decodeReads, decode, RtpHeader.parseReads_eq]
  cases h : RtpHeader.parse bytes with
  | none => rfl
  | some hdr =>
    obtain ⟨hstart, hend⟩ := RtpHeader.payload_bounds h
    have hpayload : slice bytes hdr.payloadStart (hdr.payloadEnd - hdr.payloadStart) =
        hdr.payload bytes := by
      rw [slice, RtpHeader.payload, List.drop_take]
    simp only [ofOption, ok_bind, Option.map_some, RtpHeader.payloadReads, range_eq hstart hend,
      hpayload]
    rfl

theorem inRange_ofOption {α : Type} (x : Option α) : InRange (ofOption x) := by
  cases x with
  | none => exact inRange_fail ()
  | some a => exact inRange_ok a

/-! ## round trip -/

namespace RtpPacket

theorem payloadType_mask (n : UInt8) : n &&& 0x7F < 128 ∧ (n &&& 0x7F = n ↔ n < 128) := by
  have hmask : (n &&& 0x7F).toNat = n.toNat % 128 := by
    rw [UInt8.toNat_and]
    exact Nat.and_two_pow_sub_one_eq_mod n.toNat 7
  rw [UInt8.lt_iff_toNat_lt, UInt8.lt_iff_toNat_lt, ← UInt8.toNat_inj, hmask]
  exact ⟨Nat.mod_lt _ (by decide), Nat.mod_eq_iff_lt (by decide)⟩

/-- What the encoder builds is a datagram without CSRCs, extension or padding. -/
theorem decode_encode (p : RtpPacket) :
    decode p.encode = some { p with payloadType := p.payloadType &&& 0x7F } := by
  let d : RtpDatagram :=
    { marker := p.marker, payloadType := p.payloadType &&& 0x7F,
      payloadType_lt := (payloadType_mask p.payloadType).1, sequence := p.sequence,
      timestamp := p.timestamp, ssrc := p.ssrc, csrcs := [], csrcs_le := Nat.zero_le _,
      extension := none, payload := p.payload, padding := none }
  have hfirst : d.firstByte = 0x80 :=
    (by decide : (0x80 ||| 0 ||| 0 ||| UInt8.ofNat 0 : UInt8) = 0x80)
  have hbytes : p.encode = d.bytes := by
    simp only [encode, rtpHeaderBytes, RtpDatagram.bytes, RtpDatagram.front, hfirst,
      RtpDatagram.secondByte, RtpDatagram.extensionBytes, RtpDatagram.paddingBytes,
      Option.elim_none, List.flatMap_nil, List.append_nil, d]
  rw [decode, hbytes, d.parse_datagram, Option.map_some, d.payload_header]
  rfl

theorem decode_encode_iff (p : RtpPacket) : decode p.encode = some p ↔ p.payloadType < 128 := by
  rw [decode_encode, Option.some.injEq, ← (payloadType_mask p.payloadType).2]
  constructor
  · exact fun h => congrArg RtpPacket.payloadType h
  · intro h
    rw [h]

end RtpPacket

/-- **The RTP packet format.**  Of every datagram laid out per RFC 3550 the parser finds
each field and exactly the payload; on any bytes neither it nor the decoder reads outside
the datagram; and a packet decodes to itself when its payload type fits its seven bits. -/
theorem rtp_packet_format : (∀ d : RtpDatagram, ∃ hdr, RtpHeader.parse d.bytes = some hdr ∧
        hdr.marker = d.marker ∧ hdr.payloadType = d.payloadType ∧ hdr.sequence = d.sequence ∧
        hdr.timestamp = d.timestamp ∧ hdr.ssrc = d.ssrc ∧
        hdr.csrcCount.toNat = d.csrcs.length ∧ hdr.hasExtension = d.extension.isSome ∧
        hdr.payload d.bytes = d.payload) ∧
      (∀ bytes, RtpHeader.parseReads bytes = ofOption (RtpHeader.parse bytes) ∧
        RtpPacket.decodeReads bytes = ofOption (RtpPacket.decode bytes) ∧
        InRange (RtpHeader.parseReads bytes) ∧ InRange (RtpPacket.decodeReads bytes)) ∧
      ∀ p : RtpPacket, RtpPacket.decode p.encode = some p ↔ p.payloadType < 128 := by
  refine ⟨?_, ?_, RtpPacket.decode_encode_iff⟩
  · intro d
    have hcount : (UInt8.ofNat d.csrcs.length).toNat = d.csrcs.length :=
      UInt8.toNat_ofNat_of_lt' (Nat.lt_of_le_of_lt d.csrcs_le (by decide))
    exact ⟨d.header, d.parse_datagram, rfl, rfl, rfl, rfl, rfl, hcount, rfl, d.payload_header⟩
  · intro bytes
    have hparse := RtpHeader.parseReads_eq bytes
    have hdecode := RtpPacket.decodeReads_eq bytes
    refine ⟨hparse, hdecode, ?_, ?_⟩
    · rw [hparse]
      exact inRange_ofOption _
    · rw [hdecode]
      exact inRange_ofOption _

end SmithsNet.Media
