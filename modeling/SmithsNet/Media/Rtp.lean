import Mathlib
import SmithsNet.Lib.Text

/-!
# SmithsNet.Media.Rtp

RTP packets as the media path sees them: the header parser
(`smiths-core/src/rtp.rs`), the test that tells RTCP from RTP on a shared port
(`smiths-media/src/rtcp.rs`) and the SSRC rewrite (`smiths-media/src/bridge.rs`).
-/

namespace SmithsNet.Media

open Lib

/-- The byte at a position; no caller reads behind the end. -/
def byteAt (bytes : Bytes) (i : Nat) : UInt8 := bytes.getD i 0

/-- `u16::from_be_bytes` of the two bytes at a position. -/
def beU16 (bytes : Bytes) (i : Nat) : UInt16 :=
  UInt16.ofNat ((byteAt bytes i).toNat * 2 ^ 8 + (byteAt bytes (i + 1)).toNat)

/-- `u32::from_be_bytes` of the four bytes at a position. -/
def beU32 (bytes : Bytes) (i : Nat) : UInt32 :=
  UInt32.ofNat ((beU16 bytes i).toNat * 2 ^ 16 + (beU16 bytes (i + 2)).toNat)

/-- `u16::to_be_bytes` -/
def u16ToBe (n : UInt16) : Bytes := [UInt8.ofNat (n.toNat / 2 ^ 8), UInt8.ofNat n.toNat]

/-- `u32::to_be_bytes` -/
def u32ToBe (n : UInt32) : Bytes :=
  u16ToBe (UInt16.ofNat (n.toNat / 2 ^ 16)) ++ u16ToBe (UInt16.ofNat n.toNat)

/-! ## the header -/

/-- Length of the fixed RTP header. -/
def RTP_FIXED_HEADER_LEN : Nat := 12

/-- View of an RTP header and of where the payload lies in the datagram. -/
structure RtpHeader where
  marker : Bool
  payloadType : UInt8
  sequence : UInt16
  timestamp : UInt32
  ssrc : UInt32
  csrcCount : UInt8
  hasExtension : Bool
  payloadStart : Nat
  payloadEnd : Nat

namespace RtpHeader

/-- Where the payload starts: behind the CSRC list and the header extension. -/
def payloadStartOf (bytes : Bytes) (csrcCount : UInt8) (hasExtension : Bool) : Option Nat :=
  let start := RTP_FIXED_HEADER_LEN + 4 * csrcCount.toNat
  if bytes.length < start then none
  else if hasExtension then
    if bytes.length < start + 4 then none
    else
      let words := (beU16 bytes (start + 2)).toNat
      let start := start + (4 + 4 * words)
      if bytes.length < start then none else some start
  else some start

/-- Where the payload ends: in front of the padding. -/
def payloadEndOf (bytes : Bytes) (start : Nat) (padding : Bool) : Option Nat :=
  let fin := bytes.length
  if padding then
    let pad := (byteAt bytes (fin - 1)).toNat
    if pad = 0 ∨ pad > fin - start then none else some (fin - pad)
  else some fin

/-- Parse the header of a datagram: version 2, with everything it declares
really there. -/
def parse (bytes : Bytes) : Option RtpHeader :=
  if bytes.length < RTP_FIXED_HEADER_LEN then none
  else
    let b0 := byteAt bytes 0
    if b0 >>> 6 ≠ 2 then none
    else
      let padding := b0 &&& 0x20 ≠ 0
      let hasExtension := b0 &&& 0x10 ≠ 0
      let csrcCount := b0 &&& 0x0F
      match payloadStartOf bytes csrcCount hasExtension with
      | none => none
      | some start =>
        match payloadEndOf bytes start padding with
        | none => none
        | some fin =>
          let b1 := byteAt bytes 1
          some {
            marker := b1 &&& 0x80 ≠ 0
            payloadType := b1 &&& 0x7F
            sequence := beU16 bytes 2
            timestamp := beU32 bytes 4
            ssrc := beU32 bytes 8
            csrcCount := csrcCount
            hasExtension := hasExtension
            payloadStart := start
            payloadEnd := fin }

/-- The payload of the datagram the header was parsed from. -/
def payload (hdr : RtpHeader) (bytes : Bytes) : Bytes :=
  (bytes.take hdr.payloadEnd).drop hdr.payloadStart

end RtpHeader

/-- The fixed header of a packet the engine builds: no padding, extension or
CSRC. -/
def rtpHeaderBytes (marker : Bool) (payloadType : UInt8) (seq : UInt16) (ts ssrc : UInt32) : Bytes :=
  [0x80, (if marker then 0x80 else 0) ||| (payloadType &&& 0x7F)] ++ u16ToBe seq ++ u32ToBe ts ++
    u32ToBe ssrc

/-! ## demultiplexing and rewriting -/

/-- RTCP on a shared port is told by its second byte. -/
def isRtcp (bytes : Bytes) : Bool :=
  decide (8 ≤ bytes.length ∧ byteAt bytes 0 >>> 6 = 2 ∧
    192 ≤ byteAt bytes 1 ∧ byteAt bytes 1 ≤ 223)

/-- Overwrite the SSRC field. -/
def setSsrc (packet : Bytes) (ssrc : UInt32) : Bytes :=
  packet.take 8 ++ u32ToBe ssrc ++ packet.drop 12

end SmithsNet.Media
