import SmithsNet.Core.Dialog
import SmithsNet.Lib.Lines

/-!
# SmithsNet.Sdp.Types

The SDP data model and its text (`smiths-sdp/src/types.rs`,
`smiths-sdp/src/srtp_attr.rs`).  A description is rendered as a list of lines,
each with its CRLF.

How addresses and key material become text is a parameter (`Conv`): reading
gives back what was written, and what was written is one token.
-/

namespace SmithsNet.Sdp

open Lib SmithsNet.Core

/-! ## conversions -/

structure Conv where
  showIp : IpAddr → Text
  readIp : Text → Option IpAddr
  encode64 : Bytes → Text
  decode64 : Text → Option Bytes
  readIp_showIp : ∀ ip, readIp (showIp ip) = some ip
  token_showIp : ∀ ip, Token (showIp ip)
  decode64_encode64 : ∀ bs, decode64 (encode64 bs) = some bs
  plain_encode64 : ∀ bs, ∀ c ∈ encode64 bs, isWhitespace c = false ∧ c ≠ '|'

/-! ## data -/

inductive SrtpSuite
  | aesCm128HmacSha1_80
  deriving DecidableEq

namespace SrtpSuite

def keyLen : SrtpSuite → Nat
  | aesCm128HmacSha1_80 => 16

def saltLen : SrtpSuite → Nat
  | aesCm128HmacSha1_80 => 14

def keyMaterialLen (s : SrtpSuite) : Nat := s.keyLen + s.saltLen

def sdpName : SrtpSuite → Text
  | aesCm128HmacSha1_80 => "AES_CM_128_HMAC_SHA1_80".toList

def fromSdpName (name : Text) : Option SrtpSuite :=
  if name = "AES_CM_128_HMAC_SHA1_80".toList then some aesCm128HmacSha1_80 else none

end SrtpSuite

/-- One `a=crypto:` line. -/
structure SdesCrypto where
  tag : UInt32
  suite : SrtpSuite
  keyMaterial : Bytes
  deriving DecidableEq

/-- `a=group:` -/
structure Group where
  semantics : Text
  mids : List Text
  deriving DecidableEq

/-- `o=` -/
structure Origin where
  username : Text
  sessionId : UInt64
  sessionVersion : UInt64
  address : IpAddr
  deriving DecidableEq

/-- `c=` -/
structure ConnectionInfo where
  address : IpAddr
  deriving DecidableEq

inductive MediaKind
  | audio
  | video
  | application
  | image
  | other (name : Text)
  deriving DecidableEq

namespace MediaKind

def parse (s : Text) : MediaKind :=
  if s = "audio".toList then audio
  else if s = "video".toList then video
  else if s = "application".toList then application
  else if s = "image".toList then image
  else other s

def asStr : MediaKind → Text
  | audio => "audio".toList
  | video => "video".toList
  | application => "application".toList
  | image => "image".toList
  | other s => s

end MediaKind

/-- `a=rtpmap:` -/
structure RtpMap where
  payloadType : UInt8
  codec : Text
  clockRate : UInt32
  channels : Option UInt8
  deriving DecidableEq

def RtpMap.isTelephoneEvent (r : RtpMap) : Bool :=
  eqIgnoreAsciiCase r.codec "telephone-event".toList

/-- `a=fmtp:` -/
structure Fmtp where
  format : Text
  params : Text
  deriving DecidableEq

inductive Direction
  | sendRecv
  | sendOnly
  | recvOnly
  | inactive
  deriving DecidableEq

namespace Direction

def parse (s : Text) : Option Direction :=
  if s = "sendrecv".toList then some sendRecv
  else if s = "sendonly".toList then some sendOnly
  else if s = "recvonly".toList then some recvOnly
  else if s = "inactive".toList then some inactive
  else none

def asStr : Direction → Text
  | sendRecv => "sendrecv".toList
  | sendOnly => "sendonly".toList
  | recvOnly => "recvonly".toList
  | inactive => "inactive".toList

/-- What the peer answers with. -/
def reverse : Direction → Direction
  | sendRecv => sendRecv
  | sendOnly => recvOnly
  | recvOnly => sendOnly
  | inactive => inactive

end Direction

/-- `a=extmap:` -/
structure ExtMap where
  id : UInt16
  direction : Option Direction
  uri : Text
  attributes : Option Text
  deriving DecidableEq

/-- `a=rtcp:` -/
structure RtcpAttr where
  port : UInt16
  address : Option IpAddr
  deriving DecidableEq

/-- `a=rtcp-fb:` -/
structure RtcpFeedback where
  format : Text
  value : Text
  deriving DecidableEq

/-- The line is for the payload type. -/
def RtcpFeedback.appliesTo (fb : RtcpFeedback) (pt : UInt8) : Bool :=
  decide (fb.format = ['*']) || decide (parseUnsigned 8 fb.format = some pt.toNat)

/-- `a=T38…` -/
structure T38Params where
  version : Option UInt8 := none
  maxBitRate : Option UInt32 := none
  fillBitRemoval : Bool := false
  transcodingMmr : Bool := false
  transcodingJbig : Bool := false
  rateManagement : Option Text := none
  maxBuffer : Option UInt32 := none
  maxDatagram : Option UInt32 := none
  udpEc : Option Text := none
  /-- The other attributes, a bare one without a value. -/
  extra : List (Text × Option Text) := []
  deriving DecidableEq

/-- `a=fingerprint:` -/
structure Fingerprint where
  algorithm : Text
  value : Text
  deriving DecidableEq

inductive DtlsSetup
  | active
  | passive
  | actPass
  | holdConn
  deriving DecidableEq

namespace DtlsSetup

def parse (s : Text) : Option DtlsSetup :=
  let lower := toAsciiLowercase s
  if lower = "active".toList then some active
  else if lower = "passive".toList then some passive
  else if lower = "actpass".toList then some actPass
  else if lower = "holdconn".toList then some holdConn
  else none

def asStr : DtlsSetup → Text
  | active => "active".toList
  | passive => "passive".toList
  | actPass => "actpass".toList
  | holdConn => "holdconn".toList

/-- The role of the answerer. -/
def reverse : DtlsSetup → DtlsSetup
  | active => passive
  | passive | actPass | holdConn => active

end DtlsSetup

/-- `a=candidate:` -/
structure IceCandidate where
  foundation : Text
  component : UInt8
  transport : Text
  priority : UInt32
  address : IpAddr
  port : UInt16
  candidateType : Text
  relatedAddress : Option IpAddr
  relatedPort : Option UInt16
  rawParams : List (Text × Text)
  deriving DecidableEq

/-- A media-level block. -/
structure MediaDescription where
  kind : MediaKind
  port : UInt16
  protocol : Text
  formats : List Text := []
  rtpmap : List RtpMap := []
  fmtp : List Fmtp := []
  ptime : Option UInt32 := none
  maxptime : Option UInt32 := none
  crypto : List SdesCrypto := []
  direction : Direction := .sendRecv
  connection : Option ConnectionInfo := none
  fingerprint : Option Fingerprint := none
  setup : Option DtlsSetup := none
  iceUfrag : Option Text := none
  icePwd : Option Text := none
  iceOptions : List Text := []
  candidates : List IceCandidate := []
  endOfCandidates : Bool := false
  mid : Option Text := none
  extmap : List ExtMap := []
  rtcpMux : Bool := false
  rtcp : Option RtcpAttr := none
  rtcpFb : List RtcpFeedback := []
  t38 : Option T38Params := none
  deriving DecidableEq

namespace MediaDescription

/-- The format tokens that are payload types. -/
def payloadTypes (m : MediaDescription) : List UInt8 :=
  m.formats.filterMap fun f => (parseUnsigned 8 f).map UInt8.ofNat

def hasFormat (m : MediaDescription) (token : Text) : Bool :=
  m.formats.any fun f => eqIgnoreAsciiCase f token

def rtpmapFor (m : MediaDescription) (pt : UInt8) : Option RtpMap :=
  m.rtpmap.find? fun r => decide (r.payloadType = pt)

def fmtpFor (m : MediaDescription) (pt : UInt8) : Option Fmtp :=
  m.fmtp.find? fun f => decide (f.format = showNat pt.toNat)

end MediaDescription

structure SessionDescription where
  origin : Origin
  sessionName : Text
  connection : Option ConnectionInfo
  groups : List Group
  iceLite : Bool
  media : List MediaDescription
  deriving DecidableEq

/-- The mids of the BUNDLE groups. -/
def SessionDescription.bundleMids (d : SessionDescription) : List Text :=
  (d.groups.filter fun g => eqIgnoreAsciiCase g.semantics "BUNDLE".toList).flatMap Group.mids

/-! ## text -/

/-- Network and address type. -/
def ipNetTokens : IpAddr → Text
  | .v4 _ => "IN IP4".toList
  | .v6 _ => "IN IP6".toList

section Render

variable (conv : Conv)

def Origin.line (o : Origin) : Text :=
  "o=".toList ++ o.username ++ ' ' :: showNat o.sessionId.toNat ++ ' ' ::
    showNat o.sessionVersion.toNat ++ ' ' :: ipNetTokens o.address ++ ' ' :: conv.showIp o.address

def ConnectionInfo.line (c : ConnectionInfo) : Text :=
  "c=".toList ++ ipNetTokens c.address ++ ' ' :: conv.showIp c.address

def Group.line (g : Group) : Text :=
  "a=group:".toList ++ g.semantics ++ ' ' :: List.intercalate [' '] g.mids

/-- A channel count of one is the default and not written. -/
def RtpMap.line (r : RtpMap) : Text :=
  let line := "a=rtpmap:".toList ++ showNat r.payloadType.toNat ++ ' ' :: r.codec ++ '/' ::
    showNat r.clockRate.toNat
  match r.channels with
  | none => line
  | some n => if n = 1 then line else line ++ '/' :: showNat n.toNat

def Fmtp.line (f : Fmtp) : Text := "a=fmtp:".toList ++ f.format ++ ' ' :: f.params

/-- `to_sdp_line` -/
def SdesCrypto.line (c : SdesCrypto) : Text :=
  "a=crypto:".toList ++ showNat c.tag.toNat ++ ' ' :: c.suite.sdpName ++ ' ' :: "inline:".toList ++
    conv.encode64 c.keyMaterial

def Fingerprint.line (f : Fingerprint) : Text :=
  "a=fingerprint:".toList ++ f.algorithm ++ ' ' :: f.value

def IceCandidate.line (c : IceCandidate) : Text :=
  "a=candidate:".toList ++ c.foundation ++ ' ' :: showNat c.component.toNat ++ ' ' :: c.transport ++
    ' ' :: showNat c.priority.toNat ++ ' ' :: conv.showIp c.address ++ ' ' :: showNat c.port.toNat ++
    " typ ".toList ++ c.candidateType ++
    (c.relatedAddress.map fun a => " raddr ".toList ++ conv.showIp a).getD [] ++
    (c.relatedPort.map fun p => " rport ".toList ++ showNat p.toNat).getD [] ++
    c.rawParams.flatMap fun e => ' ' :: e.1 ++ ' ' :: e.2

def ExtMap.line (e : ExtMap) : Text :=
  "a=extmap:".toList ++ showNat e.id.toNat ++
    (e.direction.map fun d => '/' :: d.asStr).getD [] ++ ' ' :: e.uri ++
    (e.attributes.map fun a => ' ' :: a).getD []

def RtcpAttr.line (r : RtcpAttr) : Text :=
  "a=rtcp:".toList ++ showNat r.port.toNat ++
    (r.address.map fun a => ' ' :: ipNetTokens a ++ ' ' :: conv.showIp a).getD []

def RtcpFeedback.line (fb : RtcpFeedback) : Text :=
  "a=rtcp-fb:".toList ++ fb.format ++ ' ' :: fb.value

/-- The populated fields, without the `a=`. -/
def T38Params.renderAttrs (t : T38Params) : List Text :=
  (t.version.map fun v => "T38FaxVersion:".toList ++ showNat v.toNat).toList ++
    (t.maxBitRate.map fun r => "T38MaxBitRate:".toList ++ showNat r.toNat).toList ++
    (if t.fillBitRemoval then ["T38FaxFillBitRemoval".toList] else []) ++
    (if t.transcodingMmr then ["T38FaxTranscodingMMR".toList] else []) ++
    (if t.transcodingJbig then ["T38FaxTranscodingJBIG".toList] else []) ++
    (t.rateManagement.map fun r => "T38FaxRateManagement:".toList ++ r).toList ++
    (t.maxBuffer.map fun b => "T38FaxMaxBuffer:".toList ++ showNat b.toNat).toList ++
    (t.maxDatagram.map fun d => "T38FaxMaxDatagram:".toList ++ showNat d.toNat).toList ++
    (t.udpEc.map fun e => "T38FaxUdpEC:".toList ++ e).toList ++
    t.extra.map fun e =>
      match e.2 with
      | some v => e.1 ++ ':' :: v
      | none => e.1

def MediaDescription.mLine (m : MediaDescription) : Text :=
  "m=".toList ++ m.kind.asStr ++ ' ' :: showNat m.port.toNat ++ ' ' :: m.protocol ++ spaced m.formats

/-- The lines of a block but the first. -/
def MediaDescription.attrLines (m : MediaDescription) : List Text :=
  (m.connection.map (ConnectionInfo.line conv)).toList ++
    m.rtpmap.map RtpMap.line ++
    m.fmtp.map Fmtp.line ++
    (m.ptime.map fun n => "a=ptime:".toList ++ showNat n.toNat).toList ++
    (m.maxptime.map fun n => "a=maxptime:".toList ++ showNat n.toNat).toList ++
    m.crypto.map (SdesCrypto.line conv) ++
    (m.fingerprint.map Fingerprint.line).toList ++
    (m.setup.map fun s => "a=setup:".toList ++ s.asStr).toList ++
    (m.iceUfrag.map fun u => "a=ice-ufrag:".toList ++ u).toList ++
    (m.icePwd.map fun p => "a=ice-pwd:".toList ++ p).toList ++
    (if m.iceOptions.isEmpty then []
      else ["a=ice-options:".toList ++ List.intercalate [' '] m.iceOptions]) ++
    m.candidates.map (IceCandidate.line conv) ++
    (if m.endOfCandidates then ["a=end-of-candidates".toList] else []) ++
    (m.mid.map fun i => "a=mid:".toList ++ i).toList ++
    m.extmap.map ExtMap.line ++
    (if m.rtcpMux then ["a=rtcp-mux".toList] else []) ++
    (m.rtcp.map (RtcpAttr.line conv)).toList ++
    m.rtcpFb.map RtcpFeedback.line ++
    ((m.t38.map T38Params.renderAttrs).getD []).map (fun l => "a=".toList ++ l) ++
    ["a=".toList ++ m.direction.asStr]

def MediaDescription.lines (m : MediaDescription) : List Text := m.mLine :: m.attrLines conv

/-- The lines before the first block. -/
def SessionDescription.sessionLines (d : SessionDescription) : List Text :=
  ["v=0".toList, d.origin.line conv, "s=".toList ++ d.sessionName] ++
    (d.connection.map (ConnectionInfo.line conv)).toList ++ ["t=0 0".toList] ++
    d.groups.map Group.line ++
    (if d.iceLite then ["a=ice-lite".toList] else [])

def SessionDescription.lines (d : SessionDescription) : List Text :=
  d.sessionLines conv ++ d.media.flatMap (MediaDescription.lines conv)

/-- `to_string` -/
def SessionDescription.toText (d : SessionDescription) : Text :=
  (d.lines conv).flatMap fun l => l ++ ['\r', '\n']

end Render

/-! ## sample conversions -/

/-- The byte of an address at a place. -/
def octet (ip : BitVec 32) (i : Nat) : Nat := ip.toNat / 256 ^ i % 256

/-- Four numbers with dots; the other family as one number. -/
def sampleShowIp : IpAddr → Text
  | .v4 ip => showNat (octet ip 3) ++ '.' :: (showNat (octet ip 2) ++ '.' ::
      (showNat (octet ip 1) ++ '.' :: showNat (octet ip 0)))
  | .v6 ip => ':' :: showNat ip.toNat

def sampleReadIp (t : Text) : Option IpAddr :=
  match splitBy (· == '.') t with
  | [a, b, c, d] => do
      let a ← parseUnsigned 8 a
      let b ← parseUnsigned 8 b
      let c ← parseUnsigned 8 c
      let d ← parseUnsigned 8 d
      return .v4 (.ofNat 32 (((a * 256 + b) * 256 + c) * 256 + d))
  | _ => do
      let rest ← stripLead [':'] t
      let ip ← parseUnsigned 128 rest
      return .v6 (.ofNat 128 ip)

theorem showNat_ne {n : Nat} {d : Char} (h : d.isDigit = false) :
    ∀ c ∈ showNat n, (c == d) = false := by
  intro c hc
  have hdigit := digit_of_mem_showNat hc
  simp only [beq_eq_false_iff_ne]
  rintro rfl
  rw [h] at hdigit
  contradiction

theorem sampleReadIp_sampleShowIp (ip : IpAddr) : sampleReadIp (sampleShowIp ip) = some ip := by
  cases ip with
  | v4 ip =>
    have hdot : ∀ n, ∀ c ∈ showNat n, (c == '.') = false := fun n => showNat_ne (by decide)
    have hpieces : splitBy (· == '.') (sampleShowIp (.v4 ip)) =
        [showNat (octet ip 3), showNat (octet ip 2), showNat (octet ip 1), showNat (octet ip 0)] := by
      rw [sampleShowIp, splitBy_append (hdot _) (by decide), splitBy_append (hdot _) (by decide),
        splitBy_append (hdot _) (by decide), splitBy_of_forall (hdot _)]
    have hread : ∀ i, parseUnsigned 8 (showNat (octet ip i)) = some (octet ip i) := fun i =>
      parseUnsigned_showNat (Nat.mod_lt _ (by decide))
    have hvalue : ((octet ip 3 * 256 + octet ip 2) * 256 + octet ip 1) * 256 + octet ip 0 =
        ip.toNat := by
      have := ip.isLt
      simp only [octet]
      omega
    rw [sampleReadIp, hpieces]
    simp [hread, hvalue]
  | v6 ip =>
    have hone : splitBy (· == '.') (sampleShowIp (.v6 ip)) = [':' :: showNat ip.toNat] := by
      apply splitBy_of_forall
      intro c hc
      obtain rfl | hc := List.mem_cons.mp hc
      · decide
      · exact showNat_ne (by decide) c hc
    have hlead : stripLead [':'] (':' :: showNat ip.toNat) = some (showNat ip.toNat) :=
      stripLead_append [':'] _
    rw [sampleReadIp, hone]
    simp [sampleShowIp, hlead, parseUnsigned_showNat ip.isLt]

theorem token_sampleShowIp (ip : IpAddr) : Token (sampleShowIp ip) := by
  have hdigit : ∀ n, ∀ c ∈ showNat n, isWhitespace c = false := fun n => (token_showNat n).plain
  cases ip with
  | v4 ip =>
    refine ⟨by simp [sampleShowIp], ?_⟩
    simp only [sampleShowIp, List.mem_append, List.mem_cons]
    rintro c (hc | rfl | hc | rfl | hc | rfl | hc)
    · exact hdigit _ c hc
    · decide
    · exact hdigit _ c hc
    · decide
    · exact hdigit _ c hc
    · decide
    · exact hdigit _ c hc
  | v6 ip =>
    refine ⟨by simp [sampleShowIp], ?_⟩
    simp only [sampleShowIp, List.mem_cons]
    rintro c (rfl | hc)
    · decide
    · exact hdigit _ c hc

/-- A letter for each byte. -/
def byteLetter (b : UInt8) : Char := Char.ofNat (b.toNat + 256)

theorem toNat_byteLetter (b : UInt8) : (byteLetter b).toNat = b.toNat + 256 := by
  have hb := b.toNat_lt
  exact toNat_ofNat (by omega)

/-- Bytes as letters. -/
def sampleConv : Conv where
  showIp := sampleShowIp
  readIp := sampleReadIp
  encode64 bs := bs.map byteLetter
  decode64 t := some (t.map fun c => UInt8.ofNat (c.toNat - 256))
  readIp_showIp := sampleReadIp_sampleShowIp
  token_showIp := token_sampleShowIp
  decode64_encode64 bs := by
    have hback : ∀ b : UInt8, UInt8.ofNat ((byteLetter b).toNat - 256) = b := by
      intro b
      rw [toNat_byteLetter, Nat.add_sub_cancel, UInt8.ofNat_toNat]
    have hsame : (fun c : Char => UInt8.ofNat (c.toNat - 256)) ∘ byteLetter = id := funext hback
    rw [List.map_map, hsame, List.map_id]
  plain_encode64 bs c hc := by
    obtain ⟨b, -, rfl⟩ := List.mem_map.mp hc
    have hb := b.toNat_lt
    have hletter := toNat_byteLetter b
    refine ⟨?_, ?_⟩
    · simp only [isWhitespace, hletter, Bool.or_eq_false_iff, Bool.and_eq_false_iff,
        decide_eq_false_iff_not, beq_eq_false_iff_ne]
      omega
    · intro hbar
      rw [hbar] at hletter
      have : '|'.toNat = 124 := rfl
      omega

end SmithsNet.Sdp
