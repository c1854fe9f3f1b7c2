import SmithsNet.Lib.Wire

/-!
# SmithsNet.Proto.FixedFrame

The fixed-offset wire format between engine and plugins
(`smiths-proto/src/fixed_frame.rs`): RTP frames and envelopes as a header of
little-endian numbers, the last of them lengths, followed by the variable
regions in a fixed order.

The reader is lenient: it passes over reserved bytes, bytes behind the last
region, fields that an envelope of the given kind does not carry, and (for RTP
frames) labels that are not UTF-8.  `Canonical` says that none of these is
there; the canonical byte strings are exactly those that re-encoding gives
back.
-/

namespace SmithsNet.Proto

open Lib

/-! ## the data -/

structure RtpFrame where
  callId : Text
  ssrc : UInt32
  sequence : UInt32
  timestamp : UInt32
  payloadType : UInt32
  direction : Text
  payload : Bytes

structure Request where
  id : UInt64
  method : Text
  params : Text
  deriving DecidableEq

structure Response where
  id : UInt64
  result : Text
  errorMessage : Text
  errorCode : Int32
  deriving DecidableEq

structure Notification where
  method : Text
  params : Text
  deriving DecidableEq

inductive Kind
  | request (r : Request)
  | response (r : Response)
  | notification (n : Notification)
  deriving DecidableEq

structure Envelope where
  kind : Option Kind
  deriving DecidableEq

inductive WireFormatError
  | malformed (what : String)
  deriving DecidableEq

/-- The little-endian number in the `k` bytes from position `i` on. -/
def leAt (bytes : Bytes) (i k : Nat) : Nat := leNat (slice bytes i k)

/-- A length in a field of `k` bytes: what does not fit becomes the largest
value of the field. -/
def lenBytes (k n : Nat) : Bytes := leBytes k (min n (256 ^ k - 1))

/-- `usize::checked_add` -/
def checkedAdd (a b : Nat) (what : String) : Except WireFormatError Nat :=
  if a + b < 2 ^ 64 then .ok (a + b) else .error (.malformed what)

/-! ## RTP frames -/

/-- `b"SMRF"` -/
def RTP_MAGIC : Bytes := [0x53, 0x4D, 0x52, 0x46]

def RTP_VERSION : Nat := 1

def RTP_HEADER_LEN : Nat := 32

/-- What is written, piece by piece. -/
def rtpPieces (frame : RtpFrame) : List Bytes :=
  let direction := toUtf8 frame.direction
  let callId := toUtf8 frame.callId
  let payload := frame.payload
  [RTP_MAGIC, leBytes 2 RTP_VERSION, leBytes 2 0, leBytes 4 frame.ssrc.toNat,
    leBytes 4 frame.sequence.toNat, leBytes 4 frame.timestamp.toNat,
    leBytes 4 frame.payloadType.toNat, lenBytes 2 direction.length, lenBytes 2 callId.length,
    lenBytes 4 payload.length, direction, callId, payload]

def encodeRtpFrameFixed (frame : RtpFrame) : Bytes := (rtpPieces frame).flatten

/-- Where the regions of an encoded frame lie. -/
structure RtpFrameView where
  bytes : Bytes
  directionStart : Nat
  directionEnd : Nat
  callIdStart : Nat
  callIdEnd : Nat
  payloadStart : Nat
  payloadEnd : Nat

namespace RtpFrameView

def new (bytes : Bytes) : Except WireFormatError RtpFrameView :=
  if bytes.length < RTP_HEADER_LEN then .error (.malformed "rtp header too short")
  else if slice bytes 0 4 ≠ RTP_MAGIC then .error (.malformed "rtp magic mismatch")
  else if leAt bytes 4 2 ≠ RTP_VERSION then .error (.malformed "rtp version mismatch")
  else do
    let dirLen := leAt bytes 24 2
    let callIdLen := leAt bytes 26 2
    let payloadLen := leAt bytes 28 4
    let dirEnd ← checkedAdd RTP_HEADER_LEN dirLen "rtp direction length overflow"
    let callIdEnd ← checkedAdd dirEnd callIdLen "rtp call_id length overflow"
    let payloadEnd ← checkedAdd callIdEnd payloadLen "rtp payload length overflow"
    if payloadEnd > bytes.length then .error (.malformed "rtp frame truncated")
    else .ok {
      bytes := bytes
      directionStart := RTP_HEADER_LEN
      directionEnd := dirEnd
      callIdStart := dirEnd
      callIdEnd := callIdEnd
      payloadStart := callIdEnd
      payloadEnd := payloadEnd }

def ssrc (v : RtpFrameView) : UInt32 := UInt32.ofNat (leAt v.bytes 8 4)

def sequence (v : RtpFrameView) : UInt32 := UInt32.ofNat (leAt v.bytes 12 4)

def timestamp (v : RtpFrameView) : UInt32 := UInt32.ofNat (leAt v.bytes 16 4)

def payloadType (v : RtpFrameView) : UInt32 := UInt32.ofNat (leAt v.bytes 20 4)

/-- The empty text when the region is not UTF-8. -/
def direction (v : RtpFrameView) : Text :=
  (fromUtf8 (slice v.bytes v.directionStart (v.directionEnd - v.directionStart))).getD []

/-- The empty text when the region is not UTF-8. -/
def callId (v : RtpFrameView) : Text :=
  (fromUtf8 (slice v.bytes v.callIdStart (v.callIdEnd - v.callIdStart))).getD []

def payload (v : RtpFrameView) : Bytes :=
  slice v.bytes v.payloadStart (v.payloadEnd - v.payloadStart)

end RtpFrameView

def decodeRtpFrameFixed (bytes : Bytes) : Except WireFormatError RtpFrame := do
  let view ← RtpFrameView.new bytes
  return {
    callId := view.callId
    ssrc := view.ssrc
    sequence := view.sequence
    timestamp := view.timestamp
    payloadType := view.payloadType
    direction := view.direction
    payload := view.payload }

/-! ## envelopes -/

/-- `b"SMEV"` -/
def ENV_MAGIC : Bytes := [0x53, 0x4D, 0x45, 0x56]

def ENV_VERSION : Nat := 1

def ENV_HEADER_LEN : Nat := 36

def ENV_KIND_NONE : UInt8 := 0

def ENV_KIND_REQUEST : UInt8 := 1

def ENV_KIND_RESPONSE : UInt8 := 2

def ENV_KIND_NOTIFICATION : UInt8 := 3

/-- An envelope flattened to the fields of the layout. -/
structure EnvelopeFields where
  kind : UInt8
  id : UInt64
  method : Text
  params : Text
  result : Text
  errMsg : Text
  errCode : Int32

/-- What a kind does not carry is zero or empty. -/
def splitEnvelope (envelope : Envelope) : EnvelopeFields :=
  match envelope.kind with
  | none => ⟨ENV_KIND_NONE, 0, [], [], [], [], 0⟩
  | some (.request r) => ⟨ENV_KIND_REQUEST, r.id, r.method, r.params, [], [], 0⟩
  | some (.response r) =>
    ⟨ENV_KIND_RESPONSE, r.id, [], [], r.result, r.errorMessage, r.errorCode⟩
  | some (.notification n) => ⟨ENV_KIND_NOTIFICATION, 0, n.method, n.params, [], [], 0⟩

def envPieces (f : EnvelopeFields) : List Bytes :=
  let method := toUtf8 f.method
  let params := toUtf8 f.params
  let result := toUtf8 f.result
  let errMsg := toUtf8 f.errMsg
  [ENV_MAGIC, leBytes 2 ENV_VERSION, [f.kind], [0], leBytes 8 f.id.toNat,
    leBytes 4 f.errCode.toUInt32.toNat, lenBytes 4 method.length, lenBytes 4 params.length,
    lenBytes 4 result.length, lenBytes 4 errMsg.length, method, params, result, errMsg]

def encodeEnvelopeFixed (envelope : Envelope) : Bytes :=
  (envPieces (splitEnvelope envelope)).flatten

def utf8 (bytes : Bytes) : Except WireFormatError Text :=
  match fromUtf8 bytes with
  | some s => .ok s
  | none => .error (.malformed "envelope UTF-8")

/-- The envelope of a kind takes the fields it carries. -/
def kindVariant (f : EnvelopeFields) : Except WireFormatError Envelope :=
  if f.kind = ENV_KIND_NONE then .ok ⟨none⟩
  else if f.kind = ENV_KIND_REQUEST then .ok ⟨some (.request ⟨f.id, f.method, f.params⟩)⟩
  else if f.kind = ENV_KIND_RESPONSE then
    .ok ⟨some (.response ⟨f.id, f.result, f.errMsg, f.errCode⟩)⟩
  else if f.kind = ENV_KIND_NOTIFICATION then
    .ok ⟨some (.notification ⟨f.method, f.params⟩)⟩
  else .error (.malformed "envelope: unknown kind")

def decodeEnvelopeFixed (bytes : Bytes) : Except WireFormatError Envelope :=
  if bytes.length < ENV_HEADER_LEN then .error (.malformed "envelope header too short")
  else if slice bytes 0 4 ≠ ENV_MAGIC then .error (.malformed "envelope magic mismatch")
  else if leAt bytes 4 2 ≠ ENV_VERSION then .error (.malformed "envelope version mismatch")
  else do
    let kind := bytes.getD 6 0
    let id := UInt64.ofNat (leAt bytes 8 8)
    let errCode := (UInt32.ofNat (leAt bytes 16 4)).toInt32
    let methodLen := leAt bytes 20 4
    let paramsLen := leAt bytes 24 4
    let resultLen := leAt bytes 28 4
    let errLen := leAt bytes 32 4
    let methodEnd ← checkedAdd ENV_HEADER_LEN methodLen "envelope method len overflow"
    let paramsEnd ← checkedAdd methodEnd paramsLen "envelope params len overflow"
    let resultEnd ← checkedAdd paramsEnd resultLen "envelope result len overflow"
    let errEnd ← checkedAdd resultEnd errLen "envelope err len overflow"
    if errEnd > bytes.length then .error (.malformed "envelope truncated")
    else do
      let method ← utf8 (slice bytes ENV_HEADER_LEN (methodEnd - ENV_HEADER_LEN))
      let params ← utf8 (slice bytes methodEnd (paramsEnd - methodEnd))
      let result ← utf8 (slice bytes paramsEnd (resultEnd - paramsEnd))
      let errMsg ← utf8 (slice bytes resultEnd (errEnd - resultEnd))
      kindVariant ⟨kind, id, method, params, result, errMsg, errCode⟩

/-! ## numbers at offsets -/

section Numbers

variable {b : Bytes} {i k n : Nat}

theorem leNat_lenBytes (h : n < 256 ^ k) : leNat (lenBytes k n) = n := by
  rw [lenBytes, Nat.min_eq_left (by omega), leNat_leBytes_of_lt h]

@[simp] theorem length_lenBytes : (lenBytes k n).length = k := by
  rw [lenBytes, length_leBytes]

section

variable (h : i + k ≤ b.length)
include h

theorem leAt_lt : leAt b i k < 256 ^ k := by
  have hlt := leNat_lt (slice b i k)
  rwa [length_slice h] at hlt

theorem leBytes_leAt : leBytes k (leAt b i k) = slice b i k := by
  have hle := leBytes_leNat (slice b i k)
  rwa [length_slice h] at hle

theorem lenBytes_leAt : lenBytes k (leAt b i k) = slice b i k := by
  have hlt := leAt_lt h
  rw [lenBytes, Nat.min_eq_left (by omega), leBytes_leAt h]

end

theorem checkedAdd_of_lt {x y : Nat} (what : String) (h : x + y < 2 ^ 64) :
    checkedAdd x y what = .ok (x + y) := by
  rw [checkedAdd, if_pos h]

end Numbers

/-! ## RTP frames: what is read -/

/-- Header and regions are there. -/
def RtpReadable (b : Bytes) : Prop :=
  32 ≤ b.length ∧ slice b 0 4 = RTP_MAGIC ∧ leAt b 4 2 = RTP_VERSION ∧
    32 + leAt b 24 2 + leAt b 26 2 + leAt b 28 4 ≤ b.length

/-- The frame that a readable byte string holds. -/
def rtpFrameAt (b : Bytes) : RtpFrame where
  callId := (fromUtf8 (slice b (32 + leAt b 24 2) (leAt b 26 2))).getD []
  ssrc := UInt32.ofNat (leAt b 8 4)
  sequence := UInt32.ofNat (leAt b 12 4)
  timestamp := UInt32.ofNat (leAt b 16 4)
  payloadType := UInt32.ofNat (leAt b 20 4)
  direction := (fromUtf8 (slice b 32 (leAt b 24 2))).getD []
  payload := slice b (32 + leAt b 24 2 + leAt b 26 2) (leAt b 28 4)

theorem ok_bind {α β : Type} (a : α) (f : α → Except WireFormatError β) :
    (Except.ok a >>= f) = f a := rfl

variable {b bytes : Bytes} {envelope : Envelope} {f : EnvelopeFields} {i : Nat} {frame : RtpFrame}

theorem RtpFrameView.new_of_header (hlen : 32 ≤ b.length)
    (hmagic : slice b 0 4 = RTP_MAGIC) (hversion : leAt b 4 2 = RTP_VERSION) : RtpFrameView.new b =
      if 32 + leAt b 24 2 + leAt b 26 2 + leAt b 28 4 > b.length then
        .error (.malformed "rtp frame truncated")
      else .ok ⟨b, 32, 32 + leAt b 24 2, 32 + leAt b 24 2, 32 + leAt b 24 2 + leAt b 26 2,
        32 + leAt b 24 2 + leAt b 26 2, 32 + leAt b 24 2 + leAt b 26 2 + leAt b 28 4⟩ := by
  have hdir : leAt b 24 2 < 256 ^ 2 := leAt_lt (by omega)
  have hcall : leAt b 26 2 < 256 ^ 2 := leAt_lt (by omega)
  have hpayload : leAt b 28 4 < 256 ^ 4 := leAt_lt (by omega)
  unfold RtpFrameView.new RTP_HEADER_LEN
  rw [if_neg (by omega), if_neg (not_not_intro hmagic), if_neg (not_not_intro hversion)]
  simp (disch := omega) only [checkedAdd_of_lt, ok_bind]

theorem decodeRtpFrameFixed_of_readable (h : RtpReadable b) :
    decodeRtpFrameFixed b = .ok (rtpFrameAt b) := by
  obtain ⟨hlen, hmagic, hversion, hregions⟩ := h
  rw [decodeRtpFrameFixed, RtpFrameView.new_of_header hlen hmagic hversion, if_neg (by omega),
    ok_bind]
  simp only [RtpFrameView.callId, RtpFrameView.direction, RtpFrameView.payload,
    Nat.add_sub_cancel_left]
  rfl

theorem readable_of_decodeRtpFrameFixed
    (h : decodeRtpFrameFixed b = .ok frame) : RtpReadable b := by
  have hlen : 32 ≤ b.length := by
    by_contra hshort
    rw [decodeRtpFrameFixed, RtpFrameView.new, RTP_HEADER_LEN, if_pos (by omega)] at h
    contradiction
  have hmagic : slice b 0 4 = RTP_MAGIC := by
    by_contra hother
    rw [decodeRtpFrameFixed, RtpFrameView.new, RTP_HEADER_LEN, if_neg (by omega),
      if_pos hother] at h
    contradiction
  have hversion : leAt b 4 2 = RTP_VERSION := by
    by_contra hother
    rw [decodeRtpFrameFixed, RtpFrameView.new, RTP_HEADER_LEN, if_neg (by omega),
      if_neg (not_not_intro hmagic), if_pos hother] at h
    contradiction
  refine ⟨hlen, hmagic, hversion, ?_⟩
  by_contra hshort
  rw [decodeRtpFrameFixed, RtpFrameView.new_of_header hlen hmagic hversion,
    if_pos (by omega)] at h
  contradiction

/-! ## RTP frames: both directions -/

/-- The regions fit their length fields. -/
def RtpFrame.Fits (frame : RtpFrame) : Prop :=
  (toUtf8 frame.direction).length < 2 ^ 16 ∧ (toUtf8 frame.callId).length < 2 ^ 16 ∧
    frame.payload.length < 2 ^ 32

/-- Nothing that the reader passes over: the reserved field is zero, both
labels are UTF-8 and the payload is the end. -/
def RtpCanonical (b : Bytes) : Prop :=
  slice b 6 2 = [0, 0] ∧ fromUtf8 (slice b 32 (leAt b 24 2)) ≠ none ∧
    fromUtf8 (slice b (32 + leAt b 24 2) (leAt b 26 2)) ≠ none ∧
    b.length = 32 + leAt b 24 2 + leAt b 26 2 + leAt b 28 4

theorem leAt_flatten {ps : List Bytes} {p : Bytes} {k n : Nat} (j : Nat)
    (hget : ps[j]? = some p) (hi : startOf ps j = i) (hk : p.length = k) (hn : leNat p = n) :
    leAt ps.flatten i k = n := by
  rw [leAt, slice_flatten j hget hi hk, hn]

theorem rtp_starts (frame : RtpFrame) :
    startOf (rtpPieces frame) 7 = 24 ∧ startOf (rtpPieces frame) 8 = 26 ∧ startOf (rtpPieces frame) 9 = 28 ∧
      startOf (rtpPieces frame) 10 = 32 := by
  simp [startOf, rtpPieces, RTP_MAGIC]

theorem rtp_lengths (h : frame.Fits) :
    leAt (encodeRtpFrameFixed frame) 24 2 = (toUtf8 frame.direction).length ∧
    leAt (encodeRtpFrameFixed frame) 26 2 = (toUtf8 frame.callId).length ∧
    leAt (encodeRtpFrameFixed frame) 28 4 = frame.payload.length := by
  obtain ⟨hdirLen, hcallIdLen, hpayloadLen, -⟩ := rtp_starts frame
  exact ⟨leAt_flatten 7 rfl hdirLen length_lenBytes (leNat_lenBytes h.1),
    leAt_flatten 8 rfl hcallIdLen length_lenBytes (leNat_lenBytes h.2.1),
    leAt_flatten 9 rfl hpayloadLen length_lenBytes (leNat_lenBytes h.2.2)⟩

theorem rtp_regions (frame : RtpFrame) : let dirLen := (toUtf8 frame.direction).length
    let callIdLen := (toUtf8 frame.callId).length
    slice (encodeRtpFrameFixed frame) 32 dirLen = toUtf8 frame.direction ∧
    slice (encodeRtpFrameFixed frame) (32 + dirLen) callIdLen = toUtf8 frame.callId ∧
    slice (encodeRtpFrameFixed frame) (32 + dirLen + callIdLen) frame.payload.length =
      frame.payload ∧
    (encodeRtpFrameFixed frame).length = 32 + dirLen + callIdLen + frame.payload.length := by
  obtain ⟨-, -, -, hdir⟩ := rtp_starts frame
  refine ⟨slice_flatten 10 rfl hdir rfl, slice_flatten 11 rfl ?_ rfl, slice_flatten 12 rfl ?_ rfl, ?_⟩
  · simp [startOf, rtpPieces, RTP_MAGIC]
    omega
  · simp [startOf, rtpPieces, RTP_MAGIC]
    omega
  · simp [encodeRtpFrameFixed, rtpPieces, RTP_MAGIC]
    omega

theorem rtpCanonical_encode (h : frame.Fits) : RtpCanonical (encodeRtpFrameFixed frame) := by
  obtain ⟨hdirLen, hcallIdLen, hpayloadLen⟩ := rtp_lengths h
  obtain ⟨hdir, hcallId, -, hlen⟩ := rtp_regions frame
  have hreserved : slice (encodeRtpFrameFixed frame) 6 2 = [0, 0] := slice_flatten 2 rfl rfl rfl
  unfold RtpCanonical
  rw [hdirLen, hcallIdLen, hpayloadLen, hdir, hcallId]
  exact ⟨hreserved, by simp [fromUtf8_toUtf8], by simp [fromUtf8_toUtf8], hlen⟩

theorem rtpFrameAt_encode (h : frame.Fits) : rtpFrameAt (encodeRtpFrameFixed frame) = frame := by
  obtain ⟨hdirLen, hcallIdLen, hpayloadLen⟩ := rtp_lengths h
  obtain ⟨hdir, hcallId, hpayload, -⟩ := rtp_regions frame
  have hssrc : leAt (encodeRtpFrameFixed frame) 8 4 = frame.ssrc.toNat :=
    leAt_flatten 3 rfl rfl rfl (leNat_leBytes_of_lt frame.ssrc.toNat_lt)
  have hsequence : leAt (encodeRtpFrameFixed frame) 12 4 = frame.sequence.toNat :=
    leAt_flatten 4 rfl rfl rfl (leNat_leBytes_of_lt frame.sequence.toNat_lt)
  have htimestamp : leAt (encodeRtpFrameFixed frame) 16 4 = frame.timestamp.toNat :=
    leAt_flatten 5 rfl rfl rfl (leNat_leBytes_of_lt frame.timestamp.toNat_lt)
  have hpayloadType : leAt (encodeRtpFrameFixed frame) 20 4 = frame.payloadType.toNat :=
    leAt_flatten 6 rfl rfl rfl (leNat_leBytes_of_lt frame.payloadType.toNat_lt)
  unfold rtpFrameAt
  rw [hdirLen, hcallIdLen, hpayloadLen, hdir, hcallId, hpayload, hssrc, hsequence, htimestamp,
    hpayloadType, fromUtf8_toUtf8, fromUtf8_toUtf8]
  simp

theorem decode_encode_rtp (h : frame.Fits) :
    decodeRtpFrameFixed (encodeRtpFrameFixed frame) = .ok frame := by
  obtain ⟨hdirLen, hcallIdLen, hpayloadLen⟩ := rtp_lengths h
  obtain ⟨-, -, -, hlen⟩ := rtp_regions frame
  have hmagic : slice (encodeRtpFrameFixed frame) 0 4 = RTP_MAGIC := slice_flatten 0 rfl rfl rfl
  have hversion : leAt (encodeRtpFrameFixed frame) 4 2 = RTP_VERSION :=
    leAt_flatten 1 rfl rfl rfl rfl
  have hread : RtpReadable (encodeRtpFrameFixed frame) :=
    ⟨by omega, hmagic, hversion, by omega⟩
  rw [decodeRtpFrameFixed_of_readable hread, rtpFrameAt_encode h]

theorem toNat_ofNat_leAt (h : i + 4 ≤ b.length) :
    (UInt32.ofNat (leAt b i 4)).toNat = leAt b i 4 := by
  have hlt := leAt_lt h
  rw [UInt32.toNat_ofNat']
  omega

theorem fits_rtpFrameAt (h : RtpReadable b) : (rtpFrameAt b).Fits := by
  have hlen := h.1
  have hdir : leAt b 24 2 < 256 ^ 2 := leAt_lt (by omega)
  have hcall : leAt b 26 2 < 256 ^ 2 := leAt_lt (by omega)
  have hpayload : leAt b 28 4 < 256 ^ 4 := leAt_lt (by omega)
  have hdirText := length_toUtf8_getD_le (slice b 32 (leAt b 24 2))
  have hcallText := length_toUtf8_getD_le (slice b (32 + leAt b 24 2) (leAt b 26 2))
  have hdirSlice := length_slice_le b 32 (leAt b 24 2)
  have hcallSlice := length_slice_le b (32 + leAt b 24 2) (leAt b 26 2)
  have hpayloadSlice := length_slice_le b (32 + leAt b 24 2 + leAt b 26 2) (leAt b 28 4)
  unfold RtpFrame.Fits rtpFrameAt
  dsimp only
  omega

theorem encode_rtpFrameAt (hread : RtpReadable b) (hcanon : RtpCanonical b) :
    encodeRtpFrameFixed (rtpFrameAt b) = b := by
  obtain ⟨hlen, hmagic, hversion, -⟩ := hread
  obtain ⟨hreserved, hdir, hcall, hexact⟩ := hcanon
  have hreserved' : leBytes 2 0 = slice b 6 2 := hreserved.symm
  have hversion' : leBytes 2 RTP_VERSION = slice b 4 2 := by
    rw [← hversion, leBytes_leAt (by omega)]
  have hdirLen := length_slice (s := b) (i := 32) (k := leAt b 24 2) (by omega)
  have hcallLen := length_slice (s := b) (i := 32 + leAt b 24 2) (k := leAt b 26 2) (by omega)
  have hpayloadLen :=
    length_slice (s := b) (i := 32 + leAt b 24 2 + leAt b 26 2) (k := leAt b 28 4) (by omega)
  have hrest : b.drop (32 + leAt b 24 2 + leAt b 26 2 + leAt b 28 4) = [] :=
    List.drop_eq_nil_of_le (by omega)
  have hpieces : rtpPieces (rtpFrameAt b) ++ [[]] = slicesFrom b 0
      [4, 2, 2, 4, 4, 4, 4, 2, 2, 4, leAt b 24 2, leAt b 26 2, leAt b 28 4] := by
    simp only [rtpPieces, rtpFrameAt, slicesFrom, List.cons_append, List.nil_append,
      toUtf8_getD hdir, toUtf8_getD hcall, hdirLen, hcallLen, hpayloadLen]
    rw [toNat_ofNat_leAt (by omega), toNat_ofNat_leAt (by omega), toNat_ofNat_leAt (by omega),
      toNat_ofNat_leAt (by omega), leBytes_leAt (by omega), leBytes_leAt (by omega),
      leBytes_leAt (by omega), leBytes_leAt (by omega), lenBytes_leAt (by omega),
      lenBytes_leAt (by omega), lenBytes_leAt (by omega), hversion', hreserved', hrest, hmagic]
  have hflat := congrArg List.flatten hpieces
  rw [flatten_slicesFrom, List.flatten_append] at hflat
  simpa [encodeRtpFrameFixed] using hflat

theorem encode_decode_rtp_iff (h : decodeRtpFrameFixed b = .ok frame) :
    encodeRtpFrameFixed frame = b ↔ RtpCanonical b := by
  have hread := readable_of_decodeRtpFrameFixed h
  rw [decodeRtpFrameFixed_of_readable hread, Except.ok.injEq] at h
  subst h
  constructor
  · intro hsame
    rw [← hsame]
    exact rtpCanonical_encode (fits_rtpFrameAt hread)
  · exact encode_rtpFrameAt hread

/-! ## envelopes: what is read -/

/-- Where the regions of an envelope start. -/
def paramsAt (b : Bytes) : Nat := 36 + leAt b 20 4

def resultAt (b : Bytes) : Nat := paramsAt b + leAt b 24 4

def errMsgAt (b : Bytes) : Nat := resultAt b + leAt b 28 4

/-- Header and regions are there and the regions are UTF-8. -/
def EnvReadable (b : Bytes) : Prop :=
  36 ≤ b.length ∧ slice b 0 4 = ENV_MAGIC ∧ leAt b 4 2 = ENV_VERSION ∧
    errMsgAt b + leAt b 32 4 ≤ b.length ∧
    fromUtf8 (slice b 36 (leAt b 20 4)) ≠ none ∧
    fromUtf8 (slice b (paramsAt b) (leAt b 24 4)) ≠ none ∧
    fromUtf8 (slice b (resultAt b) (leAt b 28 4)) ≠ none ∧
    fromUtf8 (slice b (errMsgAt b) (leAt b 32 4)) ≠ none

/-- The fields that a readable byte string holds. -/
def envFieldsAt (b : Bytes) : EnvelopeFields where
  kind := b.getD 6 0
  id := UInt64.ofNat (leAt b 8 8)
  method := (fromUtf8 (slice b 36 (leAt b 20 4))).getD []
  params := (fromUtf8 (slice b (paramsAt b) (leAt b 24 4))).getD []
  result := (fromUtf8 (slice b (resultAt b) (leAt b 28 4))).getD []
  errMsg := (fromUtf8 (slice b (errMsgAt b) (leAt b 32 4))).getD []
  errCode := (UInt32.ofNat (leAt b 16 4)).toInt32

/-- The part of the reader behind its length checks. -/
def decodeRegions (b : Bytes) : Except WireFormatError Envelope := do
  let method ← utf8 (slice b 36 (leAt b 20 4))
  let params ← utf8 (slice b (paramsAt b) (leAt b 24 4))
  let result ← utf8 (slice b (resultAt b) (leAt b 28 4))
  let errMsg ← utf8 (slice b (errMsgAt b) (leAt b 32 4))
  kindVariant ⟨b.getD 6 0, UInt64.ofNat (leAt b 8 8), method, params, result, errMsg,
    (UInt32.ofNat (leAt b 16 4)).toInt32⟩

theorem decodeEnvelopeFixed_of_header (hlen : 36 ≤ b.length)
    (hmagic : slice b 0 4 = ENV_MAGIC) (hversion : leAt b 4 2 = ENV_VERSION) :
    decodeEnvelopeFixed b =
      if errMsgAt b + leAt b 32 4 > b.length then .error (.malformed "envelope truncated")
      else decodeRegions b := by
  have hmethod : leAt b 20 4 < 256 ^ 4 := leAt_lt (by omega)
  have hparams : leAt b 24 4 < 256 ^ 4 := leAt_lt (by omega)
  have hresult : leAt b 28 4 < 256 ^ 4 := leAt_lt (by omega)
  have herr : leAt b 32 4 < 256 ^ 4 := leAt_lt (by omega)
  unfold decodeEnvelopeFixed ENV_HEADER_LEN
  rw [if_neg (by omega), if_neg (not_not_intro hmagic), if_neg (not_not_intro hversion)]
  simp (disch := omega) only [checkedAdd_of_lt, ok_bind, Nat.add_sub_cancel_left, decodeRegions,
    errMsgAt, resultAt, paramsAt]
  rfl

theorem utf8_of_ne_none (h : fromUtf8 bytes ≠ none) :
    utf8 bytes = .ok ((fromUtf8 bytes).getD []) := by
  obtain ⟨s, hs⟩ := Option.ne_none_iff_exists'.mp h
  rw [utf8, hs]
  rfl

theorem utf8_of_none (h : fromUtf8 bytes = none) :
    utf8 bytes = .error (.malformed "envelope UTF-8") := by
  rw [utf8, h]

theorem decodeEnvelopeFixed_of_readable (h : EnvReadable b) :
    decodeEnvelopeFixed b = kindVariant (envFieldsAt b) := by
  obtain ⟨hlen, hmagic, hversion, hregions, hmethod, hparams, hresult, herr⟩ := h
  rw [decodeEnvelopeFixed_of_header hlen hmagic hversion, if_neg (by omega),
    decodeRegions, utf8_of_ne_none hmethod, utf8_of_ne_none hparams, utf8_of_ne_none hresult,
    utf8_of_ne_none herr]
  rfl

theorem readable_of_decodeEnvelopeFixed
    (h : decodeEnvelopeFixed b = .ok envelope) : EnvReadable b := by
  have hlen : 36 ≤ b.length := by
    by_contra hshort
    rw [decodeEnvelopeFixed, ENV_HEADER_LEN, if_pos (by omega)] at h
    contradiction
  have hmagic : slice b 0 4 = ENV_MAGIC := by
    by_contra hother
    rw [decodeEnvelopeFixed, ENV_HEADER_LEN, if_neg (by omega), if_pos hother] at h
    contradiction
  have hversion : leAt b 4 2 = ENV_VERSION := by
    by_contra hother
    rw [decodeEnvelopeFixed, ENV_HEADER_LEN, if_neg (by omega), if_neg (not_not_intro hmagic),
      if_pos hother] at h
    contradiction
  rw [decodeEnvelopeFixed_of_header hlen hmagic hversion] at h
  have hregions : errMsgAt b + leAt b 32 4 ≤ b.length := by
    by_contra hshort
    rw [if_pos (by omega)] at h
    contradiction
  rw [if_neg (by omega), decodeRegions] at h
  have hmethod : fromUtf8 (slice b 36 (leAt b 20 4)) ≠ none := by
    intro hnone
    rw [utf8_of_none hnone] at h
    contradiction
  rw [utf8_of_ne_none hmethod, ok_bind] at h
  have hparams : fromUtf8 (slice b (paramsAt b) (leAt b 24 4)) ≠ none := by
    intro hnone
    rw [utf8_of_none hnone] at h
    contradiction
  rw [utf8_of_ne_none hparams, ok_bind] at h
  have hresult : fromUtf8 (slice b (resultAt b) (leAt b 28 4)) ≠ none := by
    intro hnone
    rw [utf8_of_none hnone] at h
    contradiction
  rw [utf8_of_ne_none hresult, ok_bind] at h
  have herr : fromUtf8 (slice b (errMsgAt b) (leAt b 32 4)) ≠ none := by
    intro hnone
    rw [utf8_of_none hnone] at h
    contradiction
  exact ⟨hlen, hmagic, hversion, hregions, hmethod, hparams, hresult, herr⟩

/-! ## envelopes: kinds and fields -/

/-- What the kind does not carry is zero or empty. -/
def EnvelopeFields.Plain (f : EnvelopeFields) : Prop :=
  (f.kind = ENV_KIND_NONE → f.id = 0 ∧ f.method = [] ∧ f.params = []) ∧
  (f.kind = ENV_KIND_RESPONSE → f.method = [] ∧ f.params = []) ∧
  (f.kind = ENV_KIND_NOTIFICATION → f.id = 0) ∧
  (f.kind ≠ ENV_KIND_RESPONSE → f.result = [] ∧ f.errMsg = [] ∧ f.errCode = 0)

theorem plain_splitEnvelope (envelope : Envelope) : (splitEnvelope envelope).Plain := by
  obtain ⟨_ | ⟨r⟩ | ⟨r⟩ | ⟨n⟩⟩ := envelope
  all_goals
    simp [splitEnvelope, EnvelopeFields.Plain, ENV_KIND_NONE, ENV_KIND_REQUEST, ENV_KIND_RESPONSE,
      ENV_KIND_NOTIFICATION]

theorem kindVariant_splitEnvelope (envelope : Envelope) :
    kindVariant (splitEnvelope envelope) = .ok envelope := by
  obtain ⟨_ | ⟨r⟩ | ⟨r⟩ | ⟨n⟩⟩ := envelope
  all_goals
    simp [splitEnvelope, kindVariant, ENV_KIND_NONE, ENV_KIND_REQUEST, ENV_KIND_RESPONSE,
      ENV_KIND_NOTIFICATION]

theorem splitEnvelope_of_plain
    (h : kindVariant f = .ok envelope) (hplain : f.Plain) : splitEnvelope envelope = f := by
  obtain ⟨kind, id, method, params, result, errMsg, errCode⟩ := f
  obtain ⟨hnone, hresponse, hnotification, hother⟩ := hplain
  unfold kindVariant at h
  split at h
  · next hkind =>
    cases h
    simp_all [splitEnvelope, ENV_KIND_NONE, ENV_KIND_RESPONSE]
  split at h
  · next hkind =>
    cases h
    simp_all [splitEnvelope, ENV_KIND_REQUEST, ENV_KIND_RESPONSE]
  split at h
  · next hkind =>
    cases h
    simp_all [splitEnvelope]
  split at h
  · next hkind =>
    cases h
    simp_all [splitEnvelope, ENV_KIND_NOTIFICATION, ENV_KIND_RESPONSE]
  · contradiction

/-! ## envelopes: both directions -/

/-- The texts fit their length fields. -/
def EnvelopeFields.Fits (f : EnvelopeFields) : Prop :=
  (toUtf8 f.method).length < 2 ^ 32 ∧ (toUtf8 f.params).length < 2 ^ 32 ∧
    (toUtf8 f.result).length < 2 ^ 32 ∧ (toUtf8 f.errMsg).length < 2 ^ 32

/-- Nothing that the reader passes over: the reserved byte is zero, so is what
the kind does not carry, and the last region is the end. -/
def EnvCanonical (b : Bytes) : Prop :=
  slice b 7 1 = [0] ∧ (envFieldsAt b).Plain ∧ b.length = errMsgAt b + leAt b 32 4

section Written

variable {f : EnvelopeFields}

theorem env_header (f : EnvelopeFields) :
    startOf (envPieces f) 6 = 20 ∧ startOf (envPieces f) 7 = 24 ∧ startOf (envPieces f) 8 = 28 ∧
      startOf (envPieces f) 9 = 32 ∧ startOf (envPieces f) 10 = 36 := by
  simp [startOf, envPieces, ENV_MAGIC]

section

variable (h : f.Fits)
include h

theorem env_lengths : leAt (envPieces f).flatten 20 4 = (toUtf8 f.method).length ∧
    leAt (envPieces f).flatten 24 4 = (toUtf8 f.params).length ∧
    leAt (envPieces f).flatten 28 4 = (toUtf8 f.result).length ∧
    leAt (envPieces f).flatten 32 4 = (toUtf8 f.errMsg).length := by
  obtain ⟨hmethod, hparams, hresult, herr, -⟩ := env_header f
  exact ⟨leAt_flatten 6 rfl hmethod length_lenBytes (leNat_lenBytes h.1),
    leAt_flatten 7 rfl hparams length_lenBytes (leNat_lenBytes h.2.1),
    leAt_flatten 8 rfl hresult length_lenBytes (leNat_lenBytes h.2.2.1),
    leAt_flatten 9 rfl herr length_lenBytes (leNat_lenBytes h.2.2.2)⟩

theorem env_starts : startOf (envPieces f) 11 = paramsAt (envPieces f).flatten ∧
    startOf (envPieces f) 12 = resultAt (envPieces f).flatten ∧
    startOf (envPieces f) 13 = errMsgAt (envPieces f).flatten ∧
    (envPieces f).flatten.length = errMsgAt (envPieces f).flatten + (toUtf8 f.errMsg).length := by
  obtain ⟨hmethod, hparams, hresult, -⟩ := env_lengths h
  unfold errMsgAt resultAt paramsAt
  rw [hmethod, hparams, hresult]
  simp [startOf, envPieces, ENV_MAGIC]
  omega

theorem env_regions : slice (envPieces f).flatten 36 (toUtf8 f.method).length = toUtf8 f.method ∧
    slice (envPieces f).flatten (paramsAt (envPieces f).flatten) (toUtf8 f.params).length =
      toUtf8 f.params ∧
    slice (envPieces f).flatten (resultAt (envPieces f).flatten) (toUtf8 f.result).length =
      toUtf8 f.result ∧
    slice (envPieces f).flatten (errMsgAt (envPieces f).flatten) (toUtf8 f.errMsg).length =
      toUtf8 f.errMsg := by
  obtain ⟨-, -, -, -, hmethod⟩ := env_header f
  obtain ⟨hparams, hresult, herr, -⟩ := env_starts h
  exact ⟨slice_flatten 10 rfl hmethod rfl, slice_flatten 11 rfl hparams rfl,
    slice_flatten 12 rfl hresult rfl, slice_flatten 13 rfl herr rfl⟩

theorem envReadable_written : EnvReadable (envPieces f).flatten := by
  obtain ⟨hmethodLen, hparamsLen, hresultLen, herrLen⟩ := env_lengths h
  obtain ⟨hmethod, hparams, hresult, herr⟩ := env_regions h
  obtain ⟨-, -, -, hlen⟩ := env_starts h
  have hmagic : slice (envPieces f).flatten 0 4 = ENV_MAGIC := slice_flatten 0 rfl rfl rfl
  have hversion : leAt (envPieces f).flatten 4 2 = ENV_VERSION := leAt_flatten 1 rfl rfl rfl rfl
  have hheader : 36 ≤ (envPieces f).flatten.length := by
    unfold errMsgAt resultAt paramsAt at hlen
    omega
  unfold EnvReadable
  rw [hmethodLen, hparamsLen, hresultLen, herrLen, hmethod, hparams, hresult, herr]
  simp only [fromUtf8_toUtf8, ne_eq, reduceCtorEq, not_false_eq_true, and_self, and_true]
  exact ⟨hheader, hmagic, hversion, by omega⟩

theorem envFieldsAt_written : envFieldsAt (envPieces f).flatten = f := by
  obtain ⟨hmethodLen, hparamsLen, hresultLen, herrLen⟩ := env_lengths h
  obtain ⟨hmethod, hparams, hresult, herr⟩ := env_regions h
  have hid : leAt (envPieces f).flatten 8 8 = f.id.toNat :=
    leAt_flatten 4 rfl rfl rfl (leNat_leBytes_of_lt f.id.toNat_lt)
  have hcode : leAt (envPieces f).flatten 16 4 = f.errCode.toUInt32.toNat :=
    leAt_flatten 5 rfl rfl rfl (leNat_leBytes_of_lt f.errCode.toUInt32.toNat_lt)
  have hkind : (envPieces f).flatten.getD 6 0 = f.kind := rfl
  unfold envFieldsAt
  rw [hmethodLen, hparamsLen, hresultLen, herrLen, hmethod, hparams, hresult, herr, hid, hcode,
    hkind]
  simp [fromUtf8_toUtf8]

theorem envCanonical_written (hplain : f.Plain) : EnvCanonical (envPieces f).flatten := by
  obtain ⟨-, -, -, herrLen⟩ := env_lengths h
  obtain ⟨-, -, -, hlen⟩ := env_starts h
  have hreserved : slice (envPieces f).flatten 7 1 = [0] := slice_flatten 3 rfl rfl rfl
  refine ⟨hreserved, ?_, ?_⟩
  · rw [envFieldsAt_written h]
    exact hplain
  · rw [herrLen, hlen]

end

end Written

theorem decode_encode_envelope (h : (splitEnvelope envelope).Fits) :
    decodeEnvelopeFixed (encodeEnvelopeFixed envelope) = .ok envelope := by
  rw [encodeEnvelopeFixed, decodeEnvelopeFixed_of_readable (envReadable_written h),
    envFieldsAt_written h, kindVariant_splitEnvelope]

theorem fits_envFieldsAt (h : EnvReadable b) : (envFieldsAt b).Fits := by
  have hlen := h.1
  have hregion : ∀ i j, j + 4 ≤ b.length →
      (toUtf8 ((fromUtf8 (slice b i (leAt b j 4))).getD [])).length < 2 ^ 32 := by
    intro i j hj
    have hlt := leAt_lt hj
    have htext := length_toUtf8_getD_le (slice b i (leAt b j 4))
    have hslice := length_slice_le b i (leAt b j 4)
    omega
  exact ⟨hregion 36 20 (by omega), hregion (paramsAt b) 24 (by omega),
    hregion (resultAt b) 28 (by omega), hregion (errMsgAt b) 32 (by omega)⟩

theorem fits_splitEnvelope
    (h : kindVariant f = .ok envelope) (hfits : f.Fits) : (splitEnvelope envelope).Fits := by
  obtain ⟨hmethod, hparams, hresult, herr⟩ := hfits
  have hempty : (toUtf8 []).length < 2 ^ 32 := by decide
  unfold kindVariant at h
  split at h
  · cases h
    exact ⟨hempty, hempty, hempty, hempty⟩
  split at h
  · cases h
    exact ⟨hmethod, hparams, hempty, hempty⟩
  split at h
  · cases h
    exact ⟨hempty, hempty, hresult, herr⟩
  split at h
  · cases h
    exact ⟨hmethod, hparams, hempty, hempty⟩
  · contradiction

/-- Written again, the fields of readable bytes are the slices of it, but for
the reserved byte and what lies behind the last region. -/
theorem envPieces_envFieldsAt (hread : EnvReadable b) (hreserved : slice b 7 1 = [0])
    (hexact : b.length = errMsgAt b + leAt b 32 4) : (envPieces (envFieldsAt b)).flatten = b := by
  obtain ⟨hlen, hmagic, hversion, hregions, hmethod, hparams, hresult, herr⟩ := hread
  have hversion' : leBytes 2 ENV_VERSION = slice b 4 2 := by
    rw [← hversion, leBytes_leAt (by omega)]
  have hid : (UInt64.ofNat (leAt b 8 8)).toNat = leAt b 8 8 := by
    have hlt : leAt b 8 8 < 256 ^ 8 := leAt_lt (by omega)
    rw [UInt64.toNat_ofNat']
    omega
  have hcode : (UInt32.ofNat (leAt b 16 4)).toInt32.toUInt32.toNat = leAt b 16 4 := by
    rw [UInt32.toUInt32_toInt32, toNat_ofNat_leAt (by omega)]
  have hkind : [b.getD 6 0] = slice b 6 1 := by
    rw [slice, List.take_one, List.head?_drop, List.getD_eq_getElem?_getD]
    rw [List.getElem?_eq_getElem (by omega)]
    rfl
  have hbounds : paramsAt b ≤ resultAt b ∧ resultAt b ≤ errMsgAt b := by
    unfold errMsgAt resultAt
    omega
  have hmethodLen := length_slice (s := b) (i := 36) (k := leAt b 20 4)
    (by unfold paramsAt at hbounds; omega)
  have hparamsLen := length_slice (s := b) (i := paramsAt b) (k := leAt b 24 4)
    (by unfold resultAt at hbounds; omega)
  have hresultLen := length_slice (s := b) (i := resultAt b) (k := leAt b 28 4)
    (by unfold errMsgAt at hregions; omega)
  have herrLen := length_slice (s := b) (i := errMsgAt b) (k := leAt b 32 4) hregions
  have hrest : b.drop (errMsgAt b + leAt b 32 4) = [] := List.drop_eq_nil_of_le (by omega)
  have hpieces : envPieces (envFieldsAt b) ++ [[]] = slicesFrom b 0
      [4, 2, 1, 1, 8, 4, 4, 4, 4, 4, leAt b 20 4, leAt b 24 4, leAt b 28 4, leAt b 32 4] := by
    simp only [envPieces, envFieldsAt, slicesFrom, List.cons_append, List.nil_append,
      toUtf8_getD hmethod, toUtf8_getD hparams, toUtf8_getD hresult, toUtf8_getD herr,
      hmethodLen, hparamsLen, hresultLen, herrLen, hid, hcode]
    rw [leBytes_leAt (by omega), leBytes_leAt (by omega), lenBytes_leAt (by omega),
      lenBytes_leAt (by omega), lenBytes_leAt (by omega), lenBytes_leAt (by omega), hversion',
      hkind, ← hreserved, ← hrest, ← hmagic]
    rfl
  have hflat := congrArg List.flatten hpieces
  rw [flatten_slicesFrom, List.flatten_append] at hflat
  simpa using hflat

theorem encode_decode_envelope_iff (h : decodeEnvelopeFixed b = .ok envelope) :
    encodeEnvelopeFixed envelope = b ↔ EnvCanonical b := by
  have hread := readable_of_decodeEnvelopeFixed h
  rw [decodeEnvelopeFixed_of_readable hread] at h
  constructor
  · intro hsame
    have hfits := fits_splitEnvelope h (fits_envFieldsAt hread)
    rw [← hsame]
    exact envCanonical_written hfits (plain_splitEnvelope envelope)
  · intro hcanon
    obtain ⟨hreserved, hplain, hexact⟩ := hcanon
    rw [encodeEnvelopeFixed, splitEnvelope_of_plain h hplain]
    exact envPieces_envFieldsAt hread hreserved hexact

/-! ## faithfulness -/

/-- What fits its length fields comes back as it was written, and what is
read is written back exactly when it is canonical. -/
theorem fixedFrame_faithful : (∀ frame : RtpFrame, frame.Fits →
      decodeRtpFrameFixed (encodeRtpFrameFixed frame) = .ok frame) ∧
    (∀ (b : Bytes) (frame : RtpFrame), decodeRtpFrameFixed b = .ok frame →
      (encodeRtpFrameFixed frame = b ↔ RtpCanonical b)) ∧
    (∀ envelope : Envelope, (splitEnvelope envelope).Fits →
      decodeEnvelopeFixed (encodeEnvelopeFixed envelope) = .ok envelope) ∧
    (∀ (b : Bytes) (envelope : Envelope), decodeEnvelopeFixed b = .ok envelope →
      (encodeEnvelopeFixed envelope = b ↔ EnvCanonical b)) :=
  ⟨fun _ h => decode_encode_rtp h, fun _ _ h => encode_decode_rtp_iff h,
    fun _ h => decode_encode_envelope h, fun _ _ h => encode_decode_envelope_iff h⟩

/-- A notification. -/
def sampleEnvelope : Envelope := ⟨some (.notification ⟨"log".toList, []⟩)⟩

theorem fixedFrame_faithful_sampleEnvelope :
    decodeEnvelopeFixed (encodeEnvelopeFixed sampleEnvelope) = .ok sampleEnvelope ∧
      EnvCanonical (encodeEnvelopeFixed sampleEnvelope) := by
  have hread := fixedFrame_faithful.2.2.1 sampleEnvelope (by unfold EnvelopeFields.Fits; decide +kernel)
  exact ⟨hread, (fixedFrame_faithful.2.2.2 _ _ hread).mp rfl⟩

/-- The notification with a byte behind its last region. -/
def trailed : Bytes := encodeEnvelopeFixed sampleEnvelope ++ [0]

/-- The reader passes over that byte. -/
theorem encode_decode_trailed :
    decodeEnvelopeFixed trailed = .ok sampleEnvelope ∧ encodeEnvelopeFixed sampleEnvelope ≠ trailed := by
  decide +kernel

end SmithsNet.Proto
