import SmithsNet.Sdp.Parse

/-!
# SmithsNet.Sdp.Negotiate

SDP offer/answer (`smiths-sdp/src/negotiate.rs`): the audio block, then the
video block, each answered on a port of the caller's or declined on port zero.

What a negotiation draws (the `o=` version, key material, ICE credentials) is
the argument `fresh`.
-/

namespace SmithsNet.Sdp

open Lib SmithsNet.Core

/-! ## what is returned -/

inductive DtlsRole
  | client
  | server

/-- What the DTLS handshake needs. -/
structure DtlsParams where
  peerFingerprintAlgorithm : Text
  peerFingerprintValue : Text
  localRole : DtlsRole

/-- SRTP keys from SDES. -/
structure SrtpKeys where
  suite : SrtpSuite
  peerTxKey : Bytes
  localTxKey : Bytes

structure Answer where
  sdp : SessionDescription
  srtp : Option SrtpKeys
  dtls : Option DtlsParams
  ice : Option IceParams

inductive NegotiationResult
  | answer (a : Answer)
  | mismatch
  | unsupportedTransport (reason : Text)

/-- What one negotiation draws. -/
structure Fresh where
  version : UInt64
  sdesKey : SrtpSuite → Bytes
  iceUfrag : Text
  icePwd : Text

structure Negotiator where
  localIp : IpAddr
  supported : List RtpMap
  supportedVideo : List RtpMap
  /-- The certificate's SHA-256 fingerprint. -/
  dtlsCert : Option Text
  iceEnabled : Bool
  iceTieBreaker : UInt64

/-- The codecs that are passed through. -/
def Negotiator.withDefaultCodecs (localIp : IpAddr) (iceTieBreaker : UInt64) : Negotiator where
  localIp := localIp
  supported := [⟨0, "PCMU".toList, 8000, none⟩, ⟨8, "PCMA".toList, 8000, none⟩,
    ⟨111, "opus".toList, 48000, some 2⟩]
  supportedVideo := [⟨96, "H264".toList, 90000, none⟩, ⟨97, "VP8".toList, 90000, none⟩,
    ⟨98, "VP9".toList, 90000, none⟩]
  dtlsCert := none
  iceEnabled := false
  iceTieBreaker := iceTieBreaker

/-- A host candidate for component 1. -/
def makeHostCandidate (ip : IpAddr) (port : UInt16) : IceCandidate where
  foundation := "host0".toList
  component := 1
  transport := "UDP".toList
  priority := ((126 : UInt32) <<< 24) + ((if ip.isIpv4 then 65534 else 65535 : UInt32) <<< 8) + 255
  address := ip
  port := port
  candidateType := "host".toList
  relatedAddress := none
  relatedPort := none
  rawParams := []

/-! ## choices -/

/-- The first offered payload type with a supported codec; one without an rtpmap
is known by its number. -/
def chooseCodec (offer : MediaDescription) (supported : List RtpMap) : Option RtpMap :=
  offer.payloadTypes.findSome? fun pt =>
    match offer.rtpmapFor pt with
    | some r =>
      (supported.find? fun s => eqIgnoreAsciiCase s.codec r.codec &&
        decide (s.clockRate = r.clockRate)).map fun _ => r
    | none => supported.find? fun s => decide (s.payloadType = pt)

/-- The telephone-event of the codec's clock rate, else the first one. -/
def telephoneEventFor (offer : MediaDescription) (chosen : RtpMap) : Option RtpMap :=
  let offered := offer.rtpmap.filter fun r =>
    r.isTelephoneEvent && offer.hasFormat (showNat r.payloadType.toNat)
  (offered.find? fun r => decide (r.clockRate = chosen.clockRate)).or offered.head?

/-- The attributes an answer takes over from the offer. -/
def echoMediaAttributes (offer answer : MediaDescription) (acceptedPts : List UInt8) :
    MediaDescription :=
  { answer with
    mid := offer.mid
    extmap := offer.extmap.map fun e => { e with direction := e.direction.map Direction.reverse }
    rtcpMux := offer.rtcpMux
    ptime := offer.ptime
    maxptime := offer.maxptime
    fmtp := acceptedPts.filterMap offer.fmtpFor
    rtcpFb := offer.rtcpFb.filter fun fb => acceptedPts.any fb.appliesTo }

/-- A declined stream. -/
def rejectedStream (offer : MediaDescription) : MediaDescription where
  kind := offer.kind
  port := 0
  protocol := offer.protocol
  formats := offer.formats
  mid := offer.mid
  direction := .inactive

theorem lawfulBEq_text : LawfulBEq Text := inferInstance

attribute [local instance] lawfulBEq_text

/-- One block of the answer for its BUNDLE group; `anchor` is the port of the
group. -/
def bundleStep (offered : List Text) (acc : Option UInt16 × List Text) (m : MediaDescription) :
    Option UInt16 × List Text :=
  if m.port = 0 then acc
  else
    match m.mid with
    | none => acc
    | some mid =>
      if mid ∉ offered then acc
      else
        match acc.1 with
        | none => (some m.port, acc.2 ++ [mid])
        | some p => if p = m.port then (acc.1, acc.2 ++ [mid]) else acc

def bundleGroups (offer : SessionDescription) (answerMedia : List MediaDescription) : List Group :=
  let offered := offer.bundleMids
  if offered = [] then []
  else
    let mids := (answerMedia.foldl (bundleStep offered) (none, [])).2
    if mids = [] then [] else [⟨"BUNDLE".toList, mids⟩]

/-- The profile is one of DTLS-SRTP. -/
def isDtlsSrtpProfile (protocol : Text) : Bool :=
  let upper := toAsciiUppercase protocol
  decide (upper = "UDP/TLS/RTP/SAVP".toList) || decide (upper = "UDP/TLS/RTP/SAVPF".toList)

def isSavpProfile (protocol : Text) : Bool := eqIgnoreAsciiCase protocol "RTP/SAVP".toList

/-! ## the answer -/

namespace Negotiator

variable (n : Negotiator)

/-- The session level of an answer. -/
def session (fresh : Fresh) (offer : SessionDescription) (media : List MediaDescription) :
    SessionDescription where
  origin := ⟨"smiths".toList, fresh.version, fresh.version, n.localIp⟩
  sessionName := "smiths-net".toList
  connection := some ⟨n.localIp⟩
  groups := bundleGroups offer media
  iceLite := false
  media := media

/-- What the transport profile of the audio block adds to its answer. -/
structure Keying where
  crypto : List SdesCrypto := []
  srtp : Option SrtpKeys := none
  fingerprint : Option Fingerprint := none
  setup : Option DtlsSetup := none
  dtls : Option DtlsParams := none
  iceUfrag : Option Text := none
  icePwd : Option Text := none
  ice : Option IceParams := none
  iceOptions : List Text := []
  candidates : List IceCandidate := []
  endOfCandidates : Bool := false

/-- The credentials of both sides; a lite peer leaves the control to us. -/
def iceParams (fresh : Fresh) (offer : SessionDescription) (audio : MediaDescription) :
    Option IceParams :=
  match audio.iceUfrag, audio.icePwd with
  | some ufrag, some pwd =>
    let remoteIsLite := offer.iceLite ||
      audio.iceOptions.any fun o => eqIgnoreAsciiCase o "ice-lite".toList
    some
      { localUfrag := String.ofList fresh.iceUfrag
        localPwd := String.ofList fresh.icePwd
        remoteUfrag := String.ofList ufrag
        remotePwd := String.ofList pwd
        role := if remoteIsLite then .controlling else .controlled
        tieBreaker := n.iceTieBreaker }
  | _, _ => none

/-- DTLS-SRTP: our fingerprint, the complement of the offer's role, and ICE when
it is on. -/
def dtlsKeying (fresh : Fresh) (offer : SessionDescription) (audio : MediaDescription)
    (localPort : UInt16) (cert : Text) (peer : Fingerprint) : Keying :=
  let localSetup := (audio.setup.getD .actPass).reverse
  let base : Keying :=
    { fingerprint := some ⟨"sha-256".toList, cert⟩
      setup := some localSetup
      dtls := some ⟨peer.algorithm, peer.value, if localSetup = .passive then .server else .client⟩ }
  if n.iceEnabled then
    { base with
      iceUfrag := some fresh.iceUfrag
      icePwd := some fresh.icePwd
      iceOptions := ["trickle".toList]
      candidates := [makeHostCandidate n.localIp localPort]
      endOfCandidates := true
      ice := n.iceParams fresh offer audio }
  else base

/-- SDES: our key under the tag and the suite of the first offered line. -/
def sdesKeying (fresh : Fresh) (c : SdesCrypto) : Keying where
  crypto := [⟨c.tag, c.suite, fresh.sdesKey c.suite⟩]
  srtp := some ⟨c.suite, c.keyMaterial, fresh.sdesKey c.suite⟩

/-- The profile branches; none of them fails but with a result of its own. -/
def keying (fresh : Fresh) (offer : SessionDescription) (audio : MediaDescription)
    (localPort : UInt16) : Except NegotiationResult Keying :=
  if isDtlsSrtpProfile audio.protocol then
    match n.dtlsCert with
    | none => .error (.unsupportedTransport
        "DTLS-SRTP transport offered but engine has no cert configured".toList)
    | some cert =>
      match audio.fingerprint with
      | none => .error (.unsupportedTransport "DTLS-SRTP offer missing a=fingerprint".toList)
      | some peer => .ok (n.dtlsKeying fresh offer audio localPort cert peer)
  else if isSavpProfile audio.protocol then
    match audio.crypto.head? with
    | none => .error .mismatch
    | some c => .ok (sdesKeying fresh c)
  else .ok {}

/-- The accepted audio block. -/
def audioBlock (audio : MediaDescription) (localPort : UInt16) (chosen : RtpMap) (k : Keying) :
    MediaDescription :=
  let rtpmap := chosen :: (telephoneEventFor audio chosen).toList
  let acceptedPts := rtpmap.map RtpMap.payloadType
  echoMediaAttributes audio
    { kind := .audio
      port := localPort
      protocol := audio.protocol
      formats := acceptedPts.map fun pt => showNat pt.toNat
      rtpmap := rtpmap
      crypto := k.crypto
      direction := audio.direction.reverse
      fingerprint := k.fingerprint
      setup := k.setup
      iceUfrag := k.iceUfrag
      icePwd := k.icePwd
      iceOptions := k.iceOptions
      candidates := k.candidates
      endOfCandidates := k.endOfCandidates } acceptedPts

def answer (fresh : Fresh) (offer : SessionDescription) (localPort : UInt16) : NegotiationResult :=
  match offer.media.find? fun m => decide (m.kind = .audio) with
  | none => .mismatch
  | some audio =>
    if audio.port = 0 then
      .answer ⟨n.session fresh offer [rejectedStream audio], none, none, none⟩
    else
      match chooseCodec audio n.supported with
      | none => .mismatch
      | some chosen =>
        match n.keying fresh offer audio localPort with
        | .error r => r
        | .ok k =>
          .answer ⟨n.session fresh offer [audioBlock audio localPort chosen k], k.srtp, k.dtls,
            k.ice⟩

/-- The accepted video block: the identity and the credentials are those of the
audio block. -/
def videoBlock (video audioAnswer : MediaDescription) (port : UInt16) (chosen : RtpMap) :
    MediaDescription :=
  let m := echoMediaAttributes video
    { kind := .video
      port := port
      protocol := video.protocol
      formats := [showNat chosen.payloadType.toNat]
      direction := video.direction.reverse } [chosen.payloadType]
  let m := { m with
    rtpmap := [chosen]
    fingerprint := audioAnswer.fingerprint
    setup := audioAnswer.setup
    iceUfrag := audioAnswer.iceUfrag
    icePwd := audioAnswer.icePwd
    iceOptions := audioAnswer.iceOptions }
  if audioAnswer.candidates = [] then m
  else { m with candidates := [makeHostCandidate n.localIp port], endOfCandidates := true }

/-- A block on port zero, without a codec or without a port of ours is declined. -/
def videoAnswer (video audioAnswer : MediaDescription) (localVideoPort : Option UInt16) :
    MediaDescription :=
  let chosen := if video.port = 0 then none else chooseCodec video n.supportedVideo
  match localVideoPort, chosen with
  | some port, some chosen => n.videoBlock video audioAnswer port chosen
  | _, _ => rejectedStream video

def answerWithVideo (fresh : Fresh) (offer : SessionDescription) (localAudioPort : UInt16)
    (localVideoPort : Option UInt16) : NegotiationResult :=
  match n.answer fresh offer localAudioPort with
  | .answer a =>
    match offer.media.find? fun m => decide (m.kind = .video), a.sdp.media.head? with
    | some video, some audioAnswer =>
      let media := a.sdp.media ++ [n.videoAnswer video audioAnswer localVideoPort]
      .answer { a with sdp := { a.sdp with media := media, groups := bundleGroups offer media } }
    | _, _ => .answer a
  | r => r

end Negotiator

/-! ## samples -/

/-- An offer and its answer, when the text parses and the offer is accepted. -/
def negotiated (conv : Conv) (n : Negotiator) (fresh : Fresh) (s : Text) (audioPort : UInt16)
    (videoPort : Option UInt16) : Option (SessionDescription × Answer) :=
  match SessionDescription.parse conv s with
  | .error _ => none
  | .ok offer =>
    match n.answerWithVideo fresh offer audioPort videoPort with
    | .answer a => some (offer, a)
    | _ => none

theorem negotiated_eq_some {conv : Conv} {n : Negotiator} {fresh : Fresh} {s : Text}
    {audioPort : UInt16} {videoPort : Option UInt16} {x : SessionDescription × Answer}
    (h : negotiated conv n fresh s audioPort videoPort = some x) :
    SessionDescription.parse conv s = .ok x.1 ∧
      n.answerWithVideo fresh x.1 audioPort videoPort = .answer x.2 := by
  unfold negotiated at h
  split at h
  · contradiction
  · next offer hparse =>
    split at h
    · next a hanswer =>
      cases h
      exact ⟨hparse, hanswer⟩
    · contradiction

def sampleFresh : Fresh where
  version := 1
  sdesKey s := List.replicate s.keyMaterialLen 7
  iceUfrag := "ufrag".toList
  icePwd := "pwd".toList

def sampleNegotiator : Negotiator :=
  { Negotiator.withDefaultCodecs (.v4 0xC0000202#32) 1 with dtlsCert := some "AA:BB".toList }

/-- A description with these lines below the session's. -/
def sampleText (lines : List String) : Text :=
  (["v=0", "o=- 1 1 IN IP4 192.0.2.1", "s=-", "c=IN IP4 192.0.2.1"] ++ lines).flatMap fun l =>
    l.toList ++ ['\r', '\n']

theorem sampleText_of {lines : List String} {ls : List Text} (h : lines.map String.toList = ls) :
    sampleText lines = ([
      ['v', '=', '0'],
      ['o', '=', '-', ' ', '1', ' ', '1', ' ', 'I', 'N', ' ', 'I', 'P', '4', ' ', '1', '9', '2',
        '.', '0', '.', '2', '.', '1'],
      ['s', '=', '-'],
      ['c', '=', 'I', 'N', ' ', 'I', 'P', '4', ' ', '1', '9', '2', '.', '0', '.', '2', '.',
        '1']] ++ ls).flatMap (· ++ ['\r', '\n']) := by
  have hhead : ["v=0", "o=- 1 1 IN IP4 192.0.2.1", "s=-", "c=IN IP4 192.0.2.1"].map String.toList = _ :=
    map_ofList_cons <| map_ofList_cons <| map_ofList_cons <| map_ofList_cons List.map_nil
  rw [← h, ← hhead, ← List.map_append, List.flatMap_map, sampleText]

/-- The answer to such an offer, on ports 5000 and 5002. -/
def sampleNegotiated (lines : List String) : Option (SessionDescription × Answer) :=
  negotiated sampleConv sampleNegotiator sampleFresh (sampleText lines) 5000 (some 5002)

end SmithsNet.Sdp
