import Mathlib
import SmithsNet.Lib.Wire
import SmithsNet.Media.Rtp

/-!
# SmithsNet.Media.Rtcp

RTCP packets (`smiths-media/src/rtcp.rs`): the builders the bridge reports
with, and the reader of compound datagrams.

The builders write a sender report with no or one report block, a receiver
report with one, a source description with one name and a goodbye for one
source.  The reader takes any number of blocks, chunks and sources, so the
layout of reports is stated once for a list of blocks (`laySr`, `layRr`) and
the builders are shown to write it.
-/

namespace SmithsNet.Media.Rtcp

open Lib List

/-! ## the data -/

def PT_SENDER_REPORT : UInt8 := 200

def PT_RECEIVER_REPORT : UInt8 := 201

def PT_SDES : UInt8 := 202

def PT_BYE : UInt8 := 203

def SDES_CNAME : UInt8 := 1

/-- Length on the wire of one report block. -/
def REPORT_BLOCK_LEN : Nat := 24

/-- Length on the wire of a sender report without report blocks. -/
def SR_WIRE_LEN : Nat := 28

/-- What one receiver says of one sender's stream. -/
structure ReportBlock where
  ssrc : UInt32
  fractionLost : UInt8
  cumulativeLost : Int32
  extendedHighestSeq : UInt32
  jitter : UInt32
  lastSr : UInt32
  delaySinceLastSr : UInt32

/-- The sender info of a sender report. -/
structure ParsedSr where
  senderSsrc : UInt32
  ntpTs : UInt64
  rtpTs : UInt32
  packetCount : UInt32
  octetCount : UInt32

/-- One source and its canonical name, when the chunk carried one. -/
structure SdesChunk where
  ssrc : UInt32
  cname : Option Text

/-- One packet of a compound datagram. -/
inductive RtcpPacket
  | senderReport (sr : ParsedSr) (blocks : List ReportBlock)
  | receiverReport (senderSsrc : UInt32) (blocks : List ReportBlock)
  | sourceDescription (chunks : List SdesChunk)
  | bye (ssrcs : List UInt32) (reason : Option Text)
  | other (payloadType : UInt8)

/-- `u64::to_be_bytes` -/
def u64ToBe (n : UInt64) : Bytes :=
  u32ToBe (UInt32.ofNat (n.toNat / 2 ^ 32)) ++ u32ToBe (UInt32.ofNat n.toNat)

/-- `u64::from_be_bytes` of the eight bytes at a position. -/
def beU64 (bytes : Bytes) (i : Nat) : UInt64 :=
  UInt64.ofNat ((beU32 bytes i).toNat * 2 ^ 32 + (beU32 bytes (i + 4)).toNat)

/-! ## the builders -/

/-- The loss counter is cut to its 24 low bits. -/
def writeReportBlock (rb : ReportBlock) : Bytes :=
  let cum := rb.cumulativeLost.toUInt32 &&& 0x00FFFFFF
  u32ToBe rb.ssrc ++ [rb.fractionLost, ((cum >>> 16) &&& 0xFF).toUInt8,
    ((cum >>> 8) &&& 0xFF).toUInt8, (cum &&& 0xFF).toUInt8] ++
    u32ToBe rb.extendedHighestSeq ++ u32ToBe rb.jitter ++ u32ToBe rb.lastSr ++
    u32ToBe rb.delaySinceLastSr

/-- The five sender info fields as they follow the header. -/
def senderInfo (sr : ParsedSr) : Bytes :=
  u32ToBe sr.senderSsrc ++ u64ToBe sr.ntpTs ++ u32ToBe sr.rtpTs ++ u32ToBe sr.packetCount ++
    u32ToBe sr.octetCount

def buildSr (senderSsrc : UInt32) (ntpTs : UInt64) (rtpTs packetCount octetCount : UInt32) :
    Bytes :=
  [0x80, PT_SENDER_REPORT] ++ u16ToBe 6 ++
    senderInfo ⟨senderSsrc, ntpTs, rtpTs, packetCount, octetCount⟩

def buildSrWithRb (senderSsrc : UInt32) (ntpTs : UInt64) (rtpTs packetCount octetCount : UInt32)
    (rb : ReportBlock) : Bytes :=
  [0x81, PT_SENDER_REPORT] ++ u16ToBe 12 ++
    senderInfo ⟨senderSsrc, ntpTs, rtpTs, packetCount, octetCount⟩ ++ writeReportBlock rb

def buildRr (senderSsrc : UInt32) (rb : ReportBlock) : Bytes :=
  [0x81, PT_RECEIVER_REPORT] ++ u16ToBe 7 ++ u32ToBe senderSsrc ++ writeReportBlock rb

/-- `usize::div_ceil(4) * 4` -/
def roundUp4 (n : Nat) : Nat := (n + 3) / 4 * 4

/-- `Vec::resize` with zeros to a length that is not shorter. -/
def padTo (bytes : Bytes) (n : Nat) : Bytes := bytes ++ List.replicate (n - bytes.length) 0

/-- `u16::try_from(n).unwrap_or(u16::MAX)` -/
def wordsField (n : Nat) : UInt16 := UInt16.ofNat (min n 65535)

/-- One chunk with one CNAME item; the name is cut at 255 bytes. -/
def buildSdesCname (ssrc : UInt32) (cname : Text) : Bytes :=
  let name := (toUtf8 cname).take 255
  let chunkLen := 4 + 2 + name.length + 1
  let padded := roundUp4 chunkLen
  padTo ([0x81, PT_SDES] ++ u16ToBe (wordsField (padded / 4)) ++ u32ToBe ssrc ++
    [SDES_CNAME, UInt8.ofNat name.length] ++ name) (4 + padded)

/-- The reason is cut at 255 bytes and padded; the length field is written
last, over the whole packet. -/
def buildBye (ssrc : UInt32) (reason : Option Text) : Bytes :=
  let out := [0x81, PT_BYE, 0, 0] ++ u32ToBe ssrc
  let out :=
    match reason with
    | none => out
    | some reason =>
      let text := (toUtf8 reason).take 255
      let out := out ++ [UInt8.ofNat text.length] ++ text
      padTo out (roundUp4 out.length)
  out.take 2 ++ u16ToBe (wordsField (out.length / 4 - 1)) ++ out.drop 4

def buildCompound (packets : List Bytes) : Bytes := packets.flatten

/-! ## the reader -/

/-- The 24 bits of the loss counter are sign-extended. -/
def cumulativeOf (b5 b6 b7 : UInt8) : Int32 :=
  let cumU := (b5.toUInt32 <<< 16) ||| (b6.toUInt32 <<< 8) ||| b7.toUInt32
  if cumU &&& 0x00800000 = 0 then cumU.toInt32 else (cumU ||| 0xFF000000).toInt32

def readReportBlock (buf : Bytes) : ReportBlock :=
  { ssrc := beU32 buf 0
    fractionLost := byteAt buf 4
    cumulativeLost := cumulativeOf (byteAt buf 5) (byteAt buf 6) (byteAt buf 7)
    extendedHighestSeq := beU32 buf 8
    jitter := beU32 buf 12
    lastSr := beU32 buf 16
    delaySinceLastSr := beU32 buf 20 }

/-- At most `rc` whole blocks. -/
def readReportBlocks (bytes : Bytes) : Nat → List ReportBlock
  | 0 => []
  | rc + 1 =>
    if bytes.length < REPORT_BLOCK_LEN then []
    else readReportBlock (bytes.take REPORT_BLOCK_LEN) ::
      readReportBlocks (bytes.drop REPORT_BLOCK_LEN) rc

def parseRr (bytes : Bytes) : Option (UInt32 × List ReportBlock) :=
  if bytes.length < 8 then none
  else if byteAt bytes 0 >>> 6 ≠ 2 then none
  else if byteAt bytes 1 ≠ PT_RECEIVER_REPORT then none
  else
    let rc := (byteAt bytes 0 &&& 0x1F).toNat
    some (beU32 bytes 4, readReportBlocks (bytes.drop 8) rc)

def parseSr (bytes : Bytes) : Option ParsedSr :=
  if bytes.length < SR_WIRE_LEN then none
  else if byteAt bytes 0 >>> 6 ≠ 2 then none
  else if byteAt bytes 1 ≠ PT_SENDER_REPORT then none
  else some {
    senderSsrc := beU32 bytes 4
    ntpTs := beU64 bytes 8
    rtpTs := beU32 bytes 16
    packetCount := beU32 bytes 20
    octetCount := beU32 bytes 24 }

def parseSrWithBlocks (bytes : Bytes) : Option (ParsedSr × List ReportBlock) := do
  let sr ← parseSr bytes
  let rc := (byteAt bytes 0 &&& 0x1F).toNat
  some (sr, readReportBlocks (bytes.drop SR_WIRE_LEN) rc)

/-- The items of one chunk from a position on: where they end and the first
CNAME among them. -/
def sdesItems (bytes : Bytes) (pos : Nat) (cname : Option Text) : Nat × Option Text :=
  match bytes[pos]? with
  | none => (pos, cname)
  | some itemType =>
    if itemType = 0 then (pos + 1, cname)
    else
      match bytes[pos + 1]? with
      | none => (pos, cname)
      | some len =>
        let start := pos + 2
        let fin := start + len.toNat
        if fin > bytes.length then (pos, cname)
        else
          let cname := if itemType = SDES_CNAME ∧ cname = none
            then some (fromUtf8Lossy ((bytes.take fin).drop start)) else cname
          sdesItems bytes fin cname
termination_by bytes.length + 1 - pos

def parseSdesChunks (bytes : Bytes) : Nat → List SdesChunk
  | 0 => []
  | count + 1 =>
    if bytes.length < 4 then []
    else
      let (pos, cname) := sdesItems bytes 4 none
      ⟨beU32 bytes 0, cname⟩ :: parseSdesChunks (bytes.drop (roundUp4 pos)) count

/-- The sources of a goodbye and where they end. -/
def byeSources (pkt : Bytes) (pos : Nat) : Nat → List UInt32 × Nat
  | 0 => ([], pos)
  | count + 1 =>
    if pos + 4 > pkt.length then ([], pos)
    else
      let (ssrcs, fin) := byeSources pkt (pos + 4) count
      (beU32 pkt pos :: ssrcs, fin)

def byeReason (pkt : Bytes) (pos : Nat) : Option Text :=
  if pos < pkt.length then
    let n := min (byteAt pkt pos).toNat (pkt.length - pos - 1)
    some (fromUtf8Lossy ((pkt.take (pos + 1 + n)).drop (pos + 1)))
  else none

def parseOne (pkt : Bytes) : Option RtcpPacket :=
  let count := (byteAt pkt 0 &&& 0x1F).toNat
  let pt := byteAt pkt 1
  if pt = PT_SENDER_REPORT then
    (parseSrWithBlocks pkt).map fun (sr, blocks) => .senderReport sr blocks
  else if pt = PT_RECEIVER_REPORT then
    (parseRr pkt).map fun (senderSsrc, blocks) => .receiverReport senderSsrc blocks
  else if pt = PT_SDES then some (.sourceDescription (parseSdesChunks (pkt.drop 4) count))
  else if pt = PT_BYE then
    let (ssrcs, pos) := byeSources pkt 4 count
    some (.bye ssrcs (byeReason pkt pos))
  else some (.other pt)

/-- Walk the datagram packet by packet; stop at the first whose length field
runs past the end. -/
def parseCompound (rest : Bytes) : List RtcpPacket :=
  if rest.length < 4 then []
  else if byteAt rest 0 >>> 6 ≠ 2 then []
  else
    let words := (beU16 rest 2).toNat
    let len := (words + 1) * 4
    if len > rest.length then []
    else (parseOne (rest.take len)).toList ++ parseCompound (rest.drop len)
termination_by rest.length
decreasing_by
  rw [length_drop]
  omega

/-! ## words at the front and behind it -/

section Words

variable (a : UInt8) (bytes rest : Bytes) (i : Nat)

@[simp] theorem byteAt_zero : byteAt (a :: bytes) 0 = a := rfl

@[simp] theorem byteAt_succ : byteAt (a :: bytes) (i + 1) = byteAt bytes i := rfl

@[simp] theorem beU16_succ : beU16 (a :: bytes) (i + 1) = beU16 bytes i := rfl

@[simp] theorem beU32_succ : beU32 (a :: bytes) (i + 1) = beU32 bytes i := rfl

@[simp] theorem beU64_succ : beU64 (a :: bytes) (i + 1) = beU64 bytes i := rfl

@[simp] theorem length_u16ToBe (n : UInt16) : (u16ToBe n).length = 2 := rfl

@[simp] theorem length_u32ToBe (n : UInt32) : (u32ToBe n).length = 4 := rfl

@[simp] theorem length_u64ToBe (n : UInt64) : (u64ToBe n).length = 8 := rfl

@[simp] theorem beU32_skip_u16 (n : UInt16) :
    beU32 (u16ToBe n ++ rest) (i + 2) = beU32 rest i := rfl

@[simp] theorem beU32_skip_u32 (n : UInt32) :
    beU32 (u32ToBe n ++ rest) (i + 4) = beU32 rest i := rfl

@[simp] theorem beU32_skip_u64 (n : UInt64) :
    beU32 (u64ToBe n ++ rest) (i + 8) = beU32 rest i := rfl

@[simp] theorem beU64_skip_u16 (n : UInt16) :
    beU64 (u16ToBe n ++ rest) (i + 2) = beU64 rest i := rfl

@[simp] theorem beU64_skip_u32 (n : UInt32) :
    beU64 (u32ToBe n ++ rest) (i + 4) = beU64 rest i := rfl

@[simp] theorem byteAt_skip_u32 (n : UInt32) :
    byteAt (u32ToBe n ++ rest) (i + 4) = byteAt rest i := rfl

@[simp] theorem beU16_u16ToBe (n : UInt16) : beU16 (u16ToBe n ++ rest) 0 = n := by
  have hn := n.toNat_lt
  apply UInt16.toNat_inj.mp
  simp only [beU16, u16ToBe, cons_append, nil_append, byteAt_zero, byteAt_succ,
    UInt16.toNat_ofNat', UInt8.toNat_ofNat']
  omega

@[simp] theorem beU32_u32ToBe (n : UInt32) : beU32 (u32ToBe n ++ rest) 0 = n := by
  have hn := n.toNat_lt
  have hhigh : beU16 (u32ToBe n ++ rest) 0 = UInt16.ofNat (n.toNat / 2 ^ 16) := by
    rw [u32ToBe, append_assoc, beU16_u16ToBe]
  have hlow : beU16 (u32ToBe n ++ rest) 2 = UInt16.ofNat n.toNat :=
    beU16_u16ToBe rest (UInt16.ofNat n.toNat)
  apply UInt32.toNat_inj.mp
  rw [beU32, hhigh, hlow]
  simp only [UInt32.toNat_ofNat', UInt16.toNat_ofNat']
  omega

@[simp] theorem beU64_u64ToBe (n : UInt64) : beU64 (u64ToBe n ++ rest) 0 = n := by
  have hn := n.toNat_lt
  have hhigh : beU32 (u64ToBe n ++ rest) 0 = UInt32.ofNat (n.toNat / 2 ^ 32) := by
    rw [u64ToBe, append_assoc, beU32_u32ToBe]
  have hlow : beU32 (u64ToBe n ++ rest) 4 = UInt32.ofNat n.toNat :=
    beU32_u32ToBe rest (UInt32.ofNat n.toNat)
  apply UInt64.toNat_inj.mp
  rw [beU64, hhigh, hlow]
  simp only [UInt64.toNat_ofNat', UInt32.toNat_ofNat']
  omega

end Words

/-! ## report blocks -/

/-- The loss counter fits the 24 signed bits it has on the wire. -/
def ReportBlock.Fits (rb : ReportBlock) : Prop :=
  -2 ^ 23 ≤ rb.cumulativeLost.toInt ∧ rb.cumulativeLost.toInt < 2 ^ 23

theorem toNat_toUInt32 (c : Int32) :
    (c.toUInt32.toNat : Int) = if 0 ≤ c.toInt then c.toInt else c.toInt + 2 ^ 32 := by
  have hlt := c.toBitVec.isLt
  have hint : c.toInt = c.toBitVec.toInt := rfl
  have hnat : c.toUInt32.toNat = c.toBitVec.toNat := rfl
  rw [hint, hnat, BitVec.toInt_eq_toNat_cond]
  split <;> split <;> omega

theorem and_low24 (x : UInt32) : (x &&& 0x00FFFFFF).toNat = x.toNat % 2 ^ 24 := by
  rw [UInt32.toNat_and]
  exact Nat.and_two_pow_sub_one_eq_mod _ 24

theorem and_low8 (x : UInt32) : (x &&& 0xFF).toUInt8.toNat = x.toNat % 2 ^ 8 := by
  rw [UInt32.toNat_toUInt8, UInt32.toNat_and]
  have hmask : x.toNat &&& (0xFF : UInt32).toNat = x.toNat % 2 ^ 8 :=
    Nat.and_two_pow_sub_one_eq_mod _ 8
  omega

theorem joined_bytes (x y z : UInt8) :
    (x.toUInt32 <<< 16 ||| y.toUInt32 <<< 8 ||| z.toUInt32).toNat =
      x.toNat * 2 ^ 16 + y.toNat * 2 ^ 8 + z.toNat := by
  have hx := x.toNat_lt
  have hy := y.toNat_lt
  have hz := z.toNat_lt
  have hlow := Nat.two_pow_add_eq_or_of_lt (i := 8) (b := z.toNat) (by omega) y.toNat
  have hhigh := Nat.two_pow_add_eq_or_of_lt (i := 16) (b := 2 ^ 8 * y.toNat + z.toNat) (by omega)
    x.toNat
  have hxs : (x.toUInt32 <<< 16).toNat = 2 ^ 16 * x.toNat := by
    rw [UInt32.toNat_shiftLeft, UInt8.toNat_toUInt32, Nat.shiftLeft_eq]
    simp only [UInt32.toNat_ofNat, Nat.reduceMod, Nat.reducePow]
    omega
  have hys : (y.toUInt32 <<< 8).toNat = 2 ^ 8 * y.toNat := by
    rw [UInt32.toNat_shiftLeft, UInt8.toNat_toUInt32, Nat.shiftLeft_eq]
    simp only [UInt32.toNat_ofNat, Nat.reduceMod, Nat.reducePow]
    omega
  rw [UInt32.toNat_or, UInt32.toNat_or, UInt8.toNat_toUInt32, hxs, hys, Nat.lor_assoc, ← hlow,
    ← hhigh]
  omega

variable {pkt : Bytes} {blocks : List ReportBlock} {n : Nat} {cname reason : Text} {x : UInt32}
    {b0 pt : UInt8}

theorem sign_bit (h : x.toNat < 2 ^ 24) : x &&& 0x00800000 = 0 ↔ x.toNat < 2 ^ 23 := by
  have hmask : (x &&& 0x00800000).toNat = (x.toNat.testBit 23).toNat * 2 ^ 23 := by
    rw [UInt32.toNat_and]
    exact Nat.and_two_pow _ 23
  rw [← UInt32.toNat_inj, hmask, Nat.testBit_eq_decide_div_mod_eq]
  by_cases hbit : x.toNat / 2 ^ 23 % 2 = 1
  · simp only [hbit, decide_true, Bool.toNat_true]
    simp only [UInt32.toNat_ofNat]
    omega
  · simp only [hbit, decide_false, Bool.toNat_false]
    simp only [UInt32.toNat_ofNat]
    omega

theorem or_high8 (h : x.toNat < 2 ^ 24) : (x ||| 0xFF000000).toNat = x.toNat + 255 * 2 ^ 24 := by
  have hor := Nat.two_pow_add_eq_or_of_lt h 255
  have hmask : (0xFF000000 : UInt32).toNat = 2 ^ 24 * 255 := rfl
  rw [UInt32.toNat_or, hmask, Nat.lor_comm, ← hor]
  omega

theorem cumulativeOf_bytes {c : Int32} {x y z : UInt8} (hlo : -2 ^ 23 ≤ c.toInt)
    (hhi : c.toInt < 2 ^ 23)
    (hbytes : x.toNat * 2 ^ 16 + y.toNat * 2 ^ 8 + z.toNat = c.toUInt32.toNat % 2 ^ 24) :
    cumulativeOf x y z = c := by
  have hjoined := joined_bytes x y z
  unfold cumulativeOf
  generalize x.toUInt32 <<< 16 ||| y.toUInt32 <<< 8 ||| z.toUInt32 = cumU at hjoined
  have hlt : cumU.toNat < 2 ^ 24 := by omega
  have hc := toNat_toUInt32 c
  have hsame : ∀ w : UInt32, w.toNat = c.toUInt32.toNat → w.toInt32 = c := by
    intro w hw
    rw [UInt32.toNat_inj.mp hw, Int32.toInt32_toUInt32]
  dsimp only
  split
  · next hbit =>
    have hsmall := (sign_bit hlt).mp hbit
    apply hsame
    split at hc <;> omega
  · next hbit =>
    have hlarge := mt (sign_bit hlt).mpr hbit
    apply hsame
    rw [or_high8 hlt]
    split at hc <;> omega

@[simp] theorem length_writeReportBlock (rb : ReportBlock) :
    (writeReportBlock rb).length = REPORT_BLOCK_LEN := rfl

theorem readReportBlock_fields (ssrc : UInt32) (b4 b5 b6 b7 : UInt8)
    (extendedHighestSeq jitter lastSr delaySinceLastSr : UInt32) :
    readReportBlock (u32ToBe ssrc ++ [b4, b5, b6, b7] ++ u32ToBe extendedHighestSeq ++
      u32ToBe jitter ++ u32ToBe lastSr ++ u32ToBe delaySinceLastSr) =
    ⟨ssrc, b4, cumulativeOf b5 b6 b7, extendedHighestSeq, jitter, lastSr, delaySinceLastSr⟩ := by
  have hlast : beU32 (u32ToBe delaySinceLastSr) 0 = delaySinceLastSr := by
    simpa only [append_nil] using beU32_u32ToBe [] delaySinceLastSr
  simp [readReportBlock, hlast]

theorem readReportBlock_writeReportBlock {rb : ReportBlock} (h : rb.Fits) :
    readReportBlock (writeReportBlock rb) = rb := by
  obtain ⟨ssrc, fractionLost, cumulativeLost, extendedHighestSeq, jitter, lastSr, delay⟩ := rb
  have hcum : cumulativeOf ((cumulativeLost.toUInt32 &&& 0x00FFFFFF) >>> 16 &&& 0xFF).toUInt8
      ((cumulativeLost.toUInt32 &&& 0x00FFFFFF) >>> 8 &&& 0xFF).toUInt8
      ((cumulativeLost.toUInt32 &&& 0x00FFFFFF) &&& 0xFF).toUInt8 = cumulativeLost := by
    apply cumulativeOf_bytes h.1 h.2
    rw [and_low8, and_low8, and_low8, UInt32.toNat_shiftRight, UInt32.toNat_shiftRight, and_low24,
      Nat.shiftRight_eq_div_pow, Nat.shiftRight_eq_div_pow]
    simp only [UInt32.toNat_ofNat, Nat.reduceMod, Nat.reducePow]
    omega
  simp only [writeReportBlock, readReportBlock_fields, hcum]

theorem readReportBlocks_flatMap (h : ∀ rb ∈ blocks, rb.Fits) :
    readReportBlocks (blocks.flatMap writeReportBlock) blocks.length = blocks := by
  induction blocks with
  | nil => rfl
  | cons rb blocks ih =>
    have hrb := readReportBlock_writeReportBlock (h rb (by simp))
    have hlen : ¬ (writeReportBlock rb ++ blocks.flatMap writeReportBlock).length <
        REPORT_BLOCK_LEN := by simp
    rw [flatMap_cons, length_cons, readReportBlocks, if_neg hlen,
      take_left' (length_writeReportBlock rb), drop_left' (length_writeReportBlock rb),
      hrb, ih fun rb' hrb' => h rb' (by simp [hrb'])]

/-! ## one packet -/

/-- Bytes that the walk takes for one whole packet. -/
def Framed (pkt : Bytes) : Prop :=
  4 ≤ pkt.length ∧ byteAt pkt 0 >>> 6 = 2 ∧ ((beU16 pkt 2).toNat + 1) * 4 = pkt.length

/-- Bytes that the walk reads as one packet. -/
def Reads (pkt : Bytes) (packet : RtcpPacket) : Prop :=
  Framed pkt ∧ parseOne pkt = some packet

theorem byteAt_append_left {i : Nat} (rest : Bytes) (h : i < pkt.length) :
    byteAt (pkt ++ rest) i = byteAt pkt i := by
  unfold byteAt
  rw [getD_append _ _ _ _ h]

/-- A framed packet is cut off and parsed, and the walk goes on behind it. -/
theorem parseCompound_append (h : Framed pkt) (rest : Bytes) :
    parseCompound (pkt ++ rest) = (parseOne pkt).toList ++ parseCompound rest := by
  obtain ⟨hlen, hversion, hwords⟩ := h
  have hbyte : byteAt (pkt ++ rest) 0 = byteAt pkt 0 := byteAt_append_left rest (by omega)
  have hfield : beU16 (pkt ++ rest) 2 = beU16 pkt 2 := by
    unfold beU16
    rw [byteAt_append_left rest (by omega), byteAt_append_left rest (by omega)]
  rw [parseCompound, if_neg (by rw [length_append]; omega), hbyte,
    if_neg (not_not_intro hversion), hfield]
  dsimp only
  rw [hwords, if_neg (by rw [length_append]; omega), take_left, drop_left]

theorem count_byte (h : n ≤ 31) :
    UInt8.ofNat (0x80 + n) >>> 6 = 2 ∧ (UInt8.ofNat (0x80 + n) &&& 0x1F).toNat = n := by
  revert h
  revert n
  decide +kernel

/-! ## reports -/

/-- A sender report with a list of blocks. -/
def laySr (sr : ParsedSr) (blocks : List ReportBlock) : Bytes :=
  [UInt8.ofNat (0x80 + blocks.length), PT_SENDER_REPORT] ++
    u16ToBe (UInt16.ofNat (6 + 6 * blocks.length)) ++ senderInfo sr ++
    blocks.flatMap writeReportBlock

/-- A receiver report with a list of blocks. -/
def layRr (senderSsrc : UInt32) (blocks : List ReportBlock) : Bytes :=
  [UInt8.ofNat (0x80 + blocks.length), PT_RECEIVER_REPORT] ++
    u16ToBe (UInt16.ofNat (1 + 6 * blocks.length)) ++ u32ToBe senderSsrc ++
    blocks.flatMap writeReportBlock

theorem buildSr_eq (sr : ParsedSr) :
    buildSr sr.senderSsrc sr.ntpTs sr.rtpTs sr.packetCount sr.octetCount = laySr sr [] := by
  simp [buildSr, laySr]

theorem buildSrWithRb_eq (sr : ParsedSr) (rb : ReportBlock) :
    buildSrWithRb sr.senderSsrc sr.ntpTs sr.rtpTs sr.packetCount sr.octetCount rb =
      laySr sr [rb] := by
  simp [buildSrWithRb, laySr]

theorem buildRr_eq (senderSsrc : UInt32) (rb : ReportBlock) :
    buildRr senderSsrc rb = layRr senderSsrc [rb] := by
  simp [buildRr, layRr]

theorem length_blocks (blocks : List ReportBlock) :
    (blocks.flatMap writeReportBlock).length = 24 * blocks.length := by
  induction blocks with
  | nil => rfl
  | cons rb blocks ih =>
    rw [flatMap_cons, length_append, ih, length_writeReportBlock, length_cons,
      REPORT_BLOCK_LEN]
    omega

theorem framed_of_body {words : UInt16} {body : Bytes} (hversion : b0 >>> 6 = 2)
    (hbody : body.length = 4 * words.toNat) : Framed ([b0, pt] ++ u16ToBe words ++ body) := by
  have hlen : ([b0, pt] ++ u16ToBe words ++ body).length = 4 + body.length := by
    simp only [length_append, length_cons, length_nil, length_u16ToBe]
  have hfield : beU16 ([b0, pt] ++ u16ToBe words ++ body) 2 = words := by
    rw [append_assoc]
    exact beU16_u16ToBe body words
  refine ⟨by omega, hversion, ?_⟩
  rw [hfield, hlen, hbody]
  omega

theorem framed_report {head : Bytes} {k : Nat}
    (hversion : b0 >>> 6 = 2) (hhead : head.length = 4 * k) (hk : k ≤ 6)
    (hcount : blocks.length ≤ 31) :
    Framed ([b0, pt] ++ u16ToBe (UInt16.ofNat (k + 6 * blocks.length)) ++ head ++
      blocks.flatMap writeReportBlock) := by
  rw [append_assoc]
  apply framed_of_body hversion
  rw [length_append, hhead, length_blocks, UInt16.toNat_ofNat']
  omega

theorem parseSr_senderInfo (hversion : b0 >>> 6 = 2) (words : UInt16) (sr : ParsedSr)
    (rest : Bytes) :
    parseSr ([b0, PT_SENDER_REPORT] ++ u16ToBe words ++ senderInfo sr ++ rest) = some sr := by
  have hlen : ¬ ([b0, PT_SENDER_REPORT] ++ u16ToBe words ++ senderInfo sr ++ rest).length <
      SR_WIRE_LEN := by
    simp [senderInfo, SR_WIRE_LEN]
    omega
  unfold parseSr
  rw [if_neg hlen]
  simp [hversion, senderInfo]

theorem reads_laySr (sr : ParsedSr) (hcount : blocks.length ≤ 31)
    (hfits : ∀ rb ∈ blocks, rb.Fits) : Reads (laySr sr blocks) (.senderReport sr blocks) := by
  obtain ⟨hversion, hrc⟩ := count_byte hcount
  have hframed : Framed (laySr sr blocks) :=
    framed_report (k := 6) hversion rfl (by omega) hcount
  have hsr := parseSr_senderInfo hversion (UInt16.ofNat (6 + 6 * blocks.length)) sr
    (blocks.flatMap writeReportBlock)
  have hdrop : (laySr sr blocks).drop SR_WIRE_LEN = blocks.flatMap writeReportBlock :=
    drop_left' rfl
  have hparse : parseSrWithBlocks (laySr sr blocks) = some (sr, blocks) := by
    have hfirst : byteAt (laySr sr blocks) 0 = UInt8.ofNat (0x80 + blocks.length) := rfl
    have hinfo : parseSr (laySr sr blocks) = some sr := hsr
    rw [parseSrWithBlocks, hinfo, hfirst, hrc, hdrop]
    show some (sr, readReportBlocks (blocks.flatMap writeReportBlock) blocks.length) = _
    rw [readReportBlocks_flatMap hfits]
  have hpt : byteAt (laySr sr blocks) 1 = PT_SENDER_REPORT := rfl
  refine ⟨hframed, ?_⟩
  rw [parseOne, if_pos hpt, hparse]
  rfl

theorem reads_layRr (senderSsrc : UInt32)
    (hcount : blocks.length ≤ 31) (hfits : ∀ rb ∈ blocks, rb.Fits) :
    Reads (layRr senderSsrc blocks) (.receiverReport senderSsrc blocks) := by
  obtain ⟨hversion, hrc⟩ := count_byte hcount
  have hframed : Framed (layRr senderSsrc blocks) :=
    framed_report (k := 1) hversion rfl (by omega) hcount
  have hlen : ¬ (layRr senderSsrc blocks).length < 8 := by
    simp [layRr]
    omega
  have hdrop : (layRr senderSsrc blocks).drop 8 = blocks.flatMap writeReportBlock :=
    drop_left' rfl
  have hssrc : beU32 (layRr senderSsrc blocks) 4 = senderSsrc := by
    simp only [layRr, append_assoc]
    exact beU32_u32ToBe (blocks.flatMap writeReportBlock) senderSsrc
  have hparse : parseRr (layRr senderSsrc blocks) = some (senderSsrc, blocks) := by
    unfold parseRr
    have hfirst : byteAt (layRr senderSsrc blocks) 0 = UInt8.ofNat (0x80 + blocks.length) := rfl
    have hpt : byteAt (layRr senderSsrc blocks) 1 = PT_RECEIVER_REPORT := rfl
    rw [if_neg hlen, hfirst, if_neg (not_not_intro hversion), if_neg (not_not_intro hpt), hdrop,
      hssrc, hrc]
    dsimp only
    rw [readReportBlocks_flatMap hfits]
  have hpt : byteAt (layRr senderSsrc blocks) 1 = PT_RECEIVER_REPORT := rfl
  refine ⟨hframed, ?_⟩
  rw [parseOne, hpt, if_neg (by decide), if_pos rfl, hparse]
  rfl

/-! ## source descriptions and goodbyes -/

theorem roundUp4_bounds (n : Nat) : n ≤ roundUp4 n ∧ roundUp4 n < n + 4 ∧ roundUp4 n % 4 = 0 := by
  unfold roundUp4
  omega

theorem toNat_wordsField (h : n ≤ 65535) : (wordsField n).toNat = n := by
  unfold wordsField
  rw [UInt16.toNat_ofNat']
  omega

theorem sdesItems_cname (ssrc : UInt32) {name : Bytes} (hname : name.length ≤ 255) (zeros : Bytes) :
    sdesItems (u32ToBe ssrc ++ [SDES_CNAME, UInt8.ofNat name.length] ++ name ++ 0 :: zeros) 4 none =
      (6 + name.length + 1, some (fromUtf8Lossy name)) := by
  have hlen : (u32ToBe ssrc ++ [SDES_CNAME, UInt8.ofNat name.length] ++ name).length =
      6 + name.length := by
    simp only [length_append, length_u32ToBe, length_cons, length_nil]
  have htoNat : (UInt8.ofNat name.length).toNat = name.length := by
    rw [UInt8.toNat_ofNat']
    omega
  have htext : ((u32ToBe ssrc ++ [SDES_CNAME, UInt8.ofNat name.length] ++ name ++
      0 :: zeros).take (6 + name.length)).drop 6 = name := by
    rw [take_left' hlen]
    exact drop_left' rfl
  have hend : sdesItems (u32ToBe ssrc ++ [SDES_CNAME, UInt8.ofNat name.length] ++ name ++ 0 :: zeros)
      (6 + name.length) (some (fromUtf8Lossy name)) =
      (6 + name.length + 1, some (fromUtf8Lossy name)) := by
    rw [sdesItems, getElem?_append_right (by omega), hlen]
    simp
  have htype : (u32ToBe ssrc ++ [SDES_CNAME, UInt8.ofNat name.length] ++ name ++ 0 :: zeros)[4]? =
      some SDES_CNAME := rfl
  have hitem : (u32ToBe ssrc ++ [SDES_CNAME, UInt8.ofNat name.length] ++ name ++
      0 :: zeros)[4 + 1]? = some (UInt8.ofNat name.length) := rfl
  rw [sdesItems, htype]
  dsimp only
  rw [if_neg (by decide), hitem]
  dsimp only
  rw [htoNat, if_neg (by rw [length_append, hlen, length_cons]; omega), htext,
    if_pos ⟨rfl, rfl⟩, hend]

theorem buildSdesCname_eq (ssrc : UInt32) (h : (toUtf8 cname).length ≤ 255) :
    ∃ (words : UInt16) (zeros : Bytes),
      8 + (toUtf8 cname).length + zeros.length = 4 * words.toNat + 1 ∧
      buildSdesCname ssrc cname = [0x81, PT_SDES] ++ u16ToBe words ++
        (u32ToBe ssrc ++ [SDES_CNAME, UInt8.ofNat (toUtf8 cname).length] ++ toUtf8 cname ++
          0 :: zeros) := by
  have hround := roundUp4_bounds (4 + 2 + (toUtf8 cname).length + 1)
  generalize hp : roundUp4 (4 + 2 + (toUtf8 cname).length + 1) = padded at hround
  refine ⟨wordsField (padded / 4), List.replicate (padded - (7 + (toUtf8 cname).length)) 0, ?_, ?_⟩
  · rw [toNat_wordsField (by omega), length_replicate]
    omega
  · unfold buildSdesCname padTo
    rw [take_of_length_le h]
    dsimp only
    rw [hp, ← replicate_succ]
    simp only [length_append, length_cons, length_nil, length_u16ToBe,
      length_u32ToBe, append_assoc]
    congr 7
    omega

theorem parseOne_sdes (hfirst : byteAt pkt 0 = 0x81) (hpt : byteAt pkt 1 = PT_SDES) :
    parseOne pkt = some (.sourceDescription (parseSdesChunks (pkt.drop 4) 1)) := by
  unfold parseOne
  rw [hfirst, hpt]
  rfl

theorem reads_buildSdesCname (ssrc : UInt32) (h : (toUtf8 cname).length ≤ 255) :
    Reads (buildSdesCname ssrc cname) (.sourceDescription [⟨ssrc, some cname⟩]) := by
  obtain ⟨words, zeros, hwords, hbytes⟩ := buildSdesCname_eq ssrc h
  have hitems := sdesItems_cname ssrc h zeros
  rw [fromUtf8Lossy_toUtf8] at hitems
  have hssrc := beU32_u32ToBe ([SDES_CNAME, UInt8.ofNat (toUtf8 cname).length] ++ toUtf8 cname ++
    0 :: zeros) ssrc
  have hlen : (u32ToBe ssrc ++ [SDES_CNAME, UInt8.ofNat (toUtf8 cname).length] ++ toUtf8 cname ++
      0 :: zeros).length = 4 * words.toNat := by
    simp only [length_append, length_cons, length_nil, length_u32ToBe]
    omega
  have hchunks : parseSdesChunks (u32ToBe ssrc ++
      [SDES_CNAME, UInt8.ofNat (toUtf8 cname).length] ++ toUtf8 cname ++ 0 :: zeros) 1 =
      [⟨ssrc, some cname⟩] := by
    rw [parseSdesChunks, if_neg (by omega), hitems]
    simp only [parseSdesChunks, append_assoc] at hssrc ⊢
    rw [hssrc]
  rw [hbytes]
  refine ⟨framed_of_body (by decide) hlen, ?_⟩
  have hdrop : ([0x81, PT_SDES] ++ u16ToBe words ++ (u32ToBe ssrc ++
      [SDES_CNAME, UInt8.ofNat (toUtf8 cname).length] ++ toUtf8 cname ++ 0 :: zeros)).drop 4 =
      u32ToBe ssrc ++ [SDES_CNAME, UInt8.ofNat (toUtf8 cname).length] ++ toUtf8 cname ++
        0 :: zeros := drop_left' rfl
  rw [parseOne_sdes rfl rfl, hdrop, hchunks]

theorem parseOne_bye (words : UInt16) (ssrc : UInt32) (rest : Bytes) :
    parseOne ([0x81, PT_BYE] ++ u16ToBe words ++ (u32ToBe ssrc ++ rest)) =
      some (.bye [ssrc] (byeReason ([0x81, PT_BYE] ++ u16ToBe words ++ (u32ToBe ssrc ++ rest)) 8)) := by
  have hssrc : beU32 ([0x81, PT_BYE] ++ u16ToBe words ++ (u32ToBe ssrc ++ rest)) 4 = ssrc :=
    beU32_u32ToBe rest ssrc
  have hlong : ¬ 4 + 4 > ([0x81, PT_BYE] ++ u16ToBe words ++ (u32ToBe ssrc ++ rest)).length := by
    simp only [length_append, length_cons, length_nil, length_u16ToBe,
      length_u32ToBe]
    omega
  have hsources : byeSources ([0x81, PT_BYE] ++ u16ToBe words ++ (u32ToBe ssrc ++ rest)) 4 1 =
      ([ssrc], 8) := by
    rw [byeSources, if_neg hlong, hssrc]
    rfl
  have hfirst : byteAt ([0x81, PT_BYE] ++ u16ToBe words ++ (u32ToBe ssrc ++ rest)) 0 = 0x81 := rfl
  have hcount : ((0x81 : UInt8) &&& 0x1F).toNat = 1 := by decide
  have hpt : byteAt ([0x81, PT_BYE] ++ u16ToBe words ++ (u32ToBe ssrc ++ rest)) 1 = PT_BYE := rfl
  unfold parseOne
  dsimp only
  rw [hfirst, hcount, hpt, hsources, if_neg (by decide), if_neg (by decide), if_neg (by decide), if_pos rfl]

theorem reads_buildBye_none (ssrc : UInt32) : Reads (buildBye ssrc none) (.bye [ssrc] none) := by
  have hbytes : buildBye ssrc none = [0x81, PT_BYE] ++ u16ToBe 1 ++ (u32ToBe ssrc ++ []) := by
    simp [buildBye, wordsField, u32ToBe, u16ToBe]
  rw [hbytes]
  refine ⟨framed_of_body (by decide) rfl, ?_⟩
  rw [parseOne_bye]
  rfl

theorem buildBye_some_eq (ssrc : UInt32) (h : (toUtf8 reason).length ≤ 255) :
    ∃ (words : UInt16) (zeros : Bytes),
      5 + (toUtf8 reason).length + zeros.length = 4 * words.toNat ∧
      buildBye ssrc (some reason) = [0x81, PT_BYE] ++ u16ToBe words ++
        (u32ToBe ssrc ++ ([UInt8.ofNat (toUtf8 reason).length] ++ toUtf8 reason ++ zeros)) := by
  have hround := roundUp4_bounds (9 + (toUtf8 reason).length)
  generalize hp : roundUp4 (9 + (toUtf8 reason).length) = padded at hround
  refine ⟨wordsField (padded / 4 - 1), List.replicate (padded - (9 + (toUtf8 reason).length)) 0,
    ?_, ?_⟩
  · rw [toNat_wordsField (by omega), length_replicate]
    omega
  · have hlen : ([0x81, PT_BYE, 0, 0] ++ u32ToBe ssrc ++ [UInt8.ofNat (toUtf8 reason).length] ++
        toUtf8 reason).length = 9 + (toUtf8 reason).length := by
      simp only [length_append, length_cons, length_nil, length_u32ToBe]
    unfold buildBye padTo
    simp only []
    rw [take_of_length_le h, hlen, hp, length_append, hlen, length_replicate,
      show 9 + (toUtf8 reason).length + (padded - (9 + (toUtf8 reason).length)) = padded by omega]
    rfl

theorem reads_buildBye_some (ssrc : UInt32) (h : (toUtf8 reason).length ≤ 255) :
    Reads (buildBye ssrc (some reason)) (.bye [ssrc] (some reason)) := by
  obtain ⟨words, zeros, hwords, hbytes⟩ := buildBye_some_eq ssrc h
  have hcount : (UInt8.ofNat (toUtf8 reason).length).toNat = (toUtf8 reason).length := by
    rw [UInt8.toNat_ofNat']
    omega
  have hbody : (u32ToBe ssrc ++ ([UInt8.ofNat (toUtf8 reason).length] ++ toUtf8 reason ++
      zeros)).length = 4 * words.toNat := by
    simp only [length_append, length_cons, length_nil, length_u32ToBe]
    omega
  rw [hbytes]
  refine ⟨framed_of_body (by decide) hbody, ?_⟩
  have hreason : byeReason ([0x81, PT_BYE] ++ u16ToBe words ++ (u32ToBe ssrc ++
      ([UInt8.ofNat (toUtf8 reason).length] ++ toUtf8 reason ++ zeros))) 8 = some reason := by
    have hat : byteAt ([0x81, PT_BYE] ++ u16ToBe words ++ (u32ToBe ssrc ++
        ([UInt8.ofNat (toUtf8 reason).length] ++ toUtf8 reason ++ zeros))) 8 =
        UInt8.ofNat (toUtf8 reason).length := rfl
    have hlen : ([0x81, PT_BYE] ++ u16ToBe words ++ (u32ToBe ssrc ++
        ([UInt8.ofNat (toUtf8 reason).length] ++ toUtf8 reason ++ zeros))).length =
        9 + (toUtf8 reason).length + zeros.length := by
      simp only [length_append, length_cons, length_nil, length_u16ToBe,
        length_u32ToBe]
      omega
    have htext : (([0x81, PT_BYE] ++ u16ToBe words ++ (u32ToBe ssrc ++
        ([UInt8.ofNat (toUtf8 reason).length] ++ toUtf8 reason ++ zeros))).take
        (9 + (toUtf8 reason).length)).drop 9 = toUtf8 reason := by
      rw [drop_take, Nat.add_sub_cancel_left]
      exact take_left' rfl
    unfold byeReason
    rw [if_pos (by omega), hat, hcount, hlen,
      show min (toUtf8 reason).length (9 + (toUtf8 reason).length + zeros.length - 8 - 1) =
        (toUtf8 reason).length by omega]
    show some (fromUtf8Lossy ((List.take (9 + (toUtf8 reason).length) _).drop 9)) = _
    rw [htext, fromUtf8Lossy_toUtf8]
  rw [parseOne_bye, hreason]

/-! ## compound datagrams -/

/-- A packet handed to `buildCompound`: what one of the builders wrote, or a
report with any number of blocks in the same layout. -/
inductive Piece
  | sr (sr : ParsedSr)
  | srWithRb (sr : ParsedSr) (rb : ReportBlock)
  | rr (senderSsrc : UInt32) (rb : ReportBlock)
  | sdesCname (ssrc : UInt32) (cname : Text)
  | bye (ssrc : UInt32) (reason : Option Text)
  | srBlocks (sr : ParsedSr) (blocks : List ReportBlock)
  | rrBlocks (senderSsrc : UInt32) (blocks : List ReportBlock)

namespace Piece

def bytes : Piece → Bytes
  | sr s => buildSr s.senderSsrc s.ntpTs s.rtpTs s.packetCount s.octetCount
  | srWithRb s rb => buildSrWithRb s.senderSsrc s.ntpTs s.rtpTs s.packetCount s.octetCount rb
  | rr senderSsrc rb => buildRr senderSsrc rb
  | sdesCname ssrc cname => buildSdesCname ssrc cname
  | bye ssrc reason => buildBye ssrc reason
  | srBlocks s blocks => laySr s blocks
  | rrBlocks senderSsrc blocks => layRr senderSsrc blocks

/-- What the piece says. -/
def packet : Piece → RtcpPacket
  | sr s => .senderReport s []
  | srWithRb s rb => .senderReport s [rb]
  | rr senderSsrc rb => .receiverReport senderSsrc [rb]
  | sdesCname ssrc cname => .sourceDescription [⟨ssrc, some cname⟩]
  | bye ssrc reason => .bye [ssrc] reason
  | srBlocks s blocks => .senderReport s blocks
  | rrBlocks senderSsrc blocks => .receiverReport senderSsrc blocks

/-- Loss counters fit 24 signed bits, texts 255 bytes, counts five bits. -/
def Fits : Piece → Prop
  | sr _ => True
  | srWithRb _ rb => rb.Fits
  | rr _ rb => rb.Fits
  | sdesCname _ cname => (toUtf8 cname).length ≤ 255
  | bye _ reason => ∀ text, reason = some text → (toUtf8 text).length ≤ 255
  | srBlocks _ blocks => blocks.length ≤ 31 ∧ ∀ rb ∈ blocks, rb.Fits
  | rrBlocks _ blocks => blocks.length ≤ 31 ∧ ∀ rb ∈ blocks, rb.Fits

theorem reads {p : Piece} (h : p.Fits) : Reads p.bytes p.packet := by
  cases p with
  | sr s =>
    rw [bytes, buildSr_eq]
    exact reads_laySr s (by simp) (by simp)
  | srWithRb s rb =>
    rw [bytes, buildSrWithRb_eq]
    exact reads_laySr s (by simp) (by simpa [Fits] using h)
  | rr senderSsrc rb =>
    rw [bytes, buildRr_eq]
    exact reads_layRr senderSsrc (by simp) (by simpa [Fits] using h)
  | sdesCname ssrc cname => exact reads_buildSdesCname ssrc h
  | bye ssrc reason =>
    cases reason with
    | none => exact reads_buildBye_none ssrc
    | some text => exact reads_buildBye_some ssrc (h text rfl)
  | srBlocks s blocks => exact reads_laySr s h.1 h.2
  | rrBlocks senderSsrc blocks => exact reads_layRr senderSsrc h.1 h.2

end Piece

theorem parseCompound_nil : parseCompound [] = [] := by
  rw [parseCompound, if_pos (by decide)]

/-- A compound datagram is read as its packets, in order and field by field. -/
theorem parseCompound_buildCompound (pieces : List Piece) (h : ∀ p ∈ pieces, p.Fits) :
    parseCompound (buildCompound (pieces.map Piece.bytes)) = pieces.map Piece.packet := by
  induction pieces with
  | nil => exact parseCompound_nil
  | cons p pieces ih =>
    obtain ⟨hframed, hparse⟩ := Piece.reads (h p (by simp))
    have hrest := ih fun q hq => h q (by simp [hq])
    simp only [buildCompound, map_cons, flatten_cons] at hrest ⊢
    rw [parseCompound_append hframed, hparse, hrest]
    rfl

/-- A report with a negative counter, a name, a goodbye and a report with two
blocks. -/
def sampleBlock : ReportBlock := ⟨7, 3, -2, 70000, 11, 12, 13⟩

theorem parseCompound_sample : parseCompound (buildCompound
      [buildSrWithRb 1 2 3 4 5 sampleBlock, buildSdesCname 1 "a@b".toList,
        layRr 9 [sampleBlock, sampleBlock], buildBye 1 (some "bye".toList)]) =
      [.senderReport ⟨1, 2, 3, 4, 5⟩ [sampleBlock],
        .sourceDescription [⟨1, some "a@b".toList⟩],
        .receiverReport 9 [sampleBlock, sampleBlock], .bye [1] (some "bye".toList)] :=
  parseCompound_buildCompound
    [.srWithRb ⟨1, 2, 3, 4, 5⟩ sampleBlock, .sdesCname 1 "a@b".toList,
      .rrBlocks 9 [sampleBlock, sampleBlock], .bye 1 (some "bye".toList)]
    (by
      have hblock : sampleBlock.Fits := by
        unfold ReportBlock.Fits
        decide
      have hname : (toUtf8 "a@b".toList).length ≤ 255 := by decide
      have hreason : (toUtf8 "bye".toList).length ≤ 255 := by decide
      simp only [mem_cons, not_mem_nil, or_false]
      rintro p (rfl | rfl | rfl | rfl)
      · exact hblock
      · exact hname
      · exact ⟨by simp, by simp [hblock]⟩
      · intro text htext
        rwa [← Option.some.inj htext])

/-- The builder cuts a reason of 256 bytes. -/
theorem parseCompound_long_reason :
    parseCompound (buildCompound [buildBye 1 (some (List.replicate 256 'x'))]) ≠
      [.bye [1] (some (List.replicate 256 'x'))] := by
  have hcut : (toUtf8 (List.replicate 256 'x')).take 255 =
      (toUtf8 (List.replicate 255 'x')).take 255 := by decide +kernel
  have hsame : buildBye 1 (some (List.replicate 256 'x')) =
      buildBye 1 (some (List.replicate 255 'x')) := by
    simp only [buildBye, hcut]
  have hlen : (toUtf8 (List.replicate 255 'x')).length ≤ 255 := by decide +kernel
  obtain ⟨hframed, hparse⟩ := reads_buildBye_some 1 hlen
  have hread := parseCompound_append hframed []
  rw [hparse, parseCompound_nil, append_nil] at hread
  rw [buildCompound, flatten_singleton, hsame, hread]
  intro heq
  have hreason : (RtcpPacket.bye [1] (some (List.replicate 255 'x'))) =
      .bye [1] (some (List.replicate 256 'x')) := head_eq_of_cons_eq heq
  have hlength := congrArg List.length (Option.some.inj (RtcpPacket.bye.inj hreason).2)
  rw [length_replicate, length_replicate] at hlength
  exact absurd hlength (by decide)

end SmithsNet.Media.Rtcp
