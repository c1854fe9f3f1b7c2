import SmithsNet.Lib.Exec
import SmithsNet.Media.Sessions

/-!
# SmithsNet.Uas.Attach

How the media of a new dialog is attached to the rest of the call
(`attach_media` and what it calls in `smiths-sip/src/uas.rs`,
`smiths-media/src/fabric.rs`, `smiths-cli/src/transcode.rs`,
`smiths-cli/src/webrtc.rs`, `smiths-mixer/src/orchestrator.rs`), and the media
that then flows through the sessions it has set up.

`srtp_honoured`: as long as legs are only bridged with legs keyed like them and
no keyed leg joins a session that decodes, every packet for the peer of a keyed
leg is sealed with its negotiated key and none of its packets is decoded.
-/

namespace SmithsNet.Uas.Attach

open Lib SmithsNet.Core Media

/-! ## legs -/

/-- Key material of the answer. -/
structure SrtpKeys where
  peerTxKey : Bytes
  localTxKey : Bytes
  deriving DecidableEq

def defaultRtpClockRate : UInt32 := 8000

/-- One side of a bridge request. -/
structure BridgeLeg where
  endpoint : UInt64
  peer : SocketAddr
  srtp : Option SrtpKeys
  clockRate : UInt32 := defaultRtpClockRate
  rtcpPeer : Option SocketAddr := none
  deriving DecidableEq

def BridgeLeg.keyed (leg : BridgeLeg) : Bool := leg.srtp.isSome

/-- The address with the next port. -/
def nextPort : SocketAddr → SocketAddr
  | .v4 ip port => .v4 ip (port + 1)
  | .v6 ip port flowinfo scopeId => .v6 ip (port + 1) flowinfo scopeId

def BridgeLeg.rtcpDestination (leg : BridgeLeg) : SocketAddr :=
  leg.rtcpPeer.getD (nextPort leg.peer)

def BridgeLeg.rtcpMuxed (leg : BridgeLeg) : Bool := decide (leg.rtcpPeer = some leg.peer)

/-- A leg parked for a partner. -/
structure PendingLeg where
  dialogKey : DialogKey
  leg : BridgeLeg
  audioCodec : Option NegotiatedCodec
  deriving DecidableEq

/-! ## sessions -/

inductive Session (σ : Type)
  | bridge (legs : Side → BridgeLeg) (br : Bridge σ)
  | transcoded (legs : Side → BridgeLeg) (t : TranscodedSession)
  | participant (leg : BridgeLeg) (p : ParticipantSession)

namespace Session

variable {σ : Type}

/-- The leg as it was negotiated. -/
def legOf : Session σ → Side → Option BridgeLeg
  | .bridge legs _, side => some (legs side)
  | .transcoded legs _, side => some (legs side)
  | .participant leg _, .a => some leg
  | .participant _ _, .b => none

def history : Session σ → History
  | .bridge _ br => br.history
  | .transcoded _ t => t.history
  | .participant _ p => p.history

/-- The transmit context in use on a leg. -/
def localTx : Session σ → Side → Option σ
  | .bridge _ br, side => (br.leg side).srtp.map (·.localTx)
  | _, _ => none

end Session

inductive SessionEvent
  | bridge (e : BridgeEvent)
  | transcoded (e : TranscodedEvent)
  | participant (e : ParticipantEvent)

/-! ## the engine -/

/-- What the engine is configured with. -/
structure Config where
  /-- A WebRTC rendezvous is wired. -/
  webrtc : Bool
  /-- The room names that are conferences, when an orchestrator is wired. -/
  conferencePrefix : Option String
  /-- A transcode orchestrator is wired. -/
  transcoder : Bool

structure Engine (σ : Type) where
  pendingBridges : KeyMap String PendingLeg
  /-- Legs parked at the WebRTC handler, by tag. -/
  webrtcPending : KeyMap String BridgeLeg
  /-- Endpoints the fabric has sockets for. -/
  endpoints : List UInt64
  sessions : List (Session σ)

/-- An INVITE whose offer was accepted. -/
structure Invite where
  dialogKey : DialogKey
  webrtcTag : Option String
  ruriUser : Option String
  /-- The negotiated leg; `none` without media or without the peer's address. -/
  leg : Option BridgeLeg
  audioCodec : Option NegotiatedCodec

/-- What is decided outside: fresh numbers for streams, and the admission by
the transcode budget and by the conference registry. -/
structure Chance where
  ssrcTowardA : UInt32
  ssrcTowardB : UInt32
  towardA : Egress
  towardB : Egress
  admitted : Bool
  conferenceUp : Bool
  samplesPerFrame : Nat

inductive MediaAttachment
  | none
  | webRtc
  | conference
  | bridged

/-- The final failure response an INVITE gets. -/
structure Rejection where
  status : Nat
  reason : String
  warning : Option String := .none

inductive MediaError
  | io
  | unknownEndpoint (endpoint : UInt64)

section Attach

variable {σ : Type} (fromSdes : Bytes → Except SrtpError σ)

/-! ## the fabric -/

/-- The contexts for the keys of a leg. -/
def buildLegSrtp : Option SrtpKeys → Except MediaError (Option (LegSrtp σ))
  | none => .ok none
  | some keys =>
    match fromSdes keys.peerTxKey, fromSdes keys.localTxKey with
    | .ok peerTx, .ok localTx => .ok (some ⟨peerTx, localTx⟩)
    | _, _ => .error .io

def buildLeg (req : BridgeLeg) (srtp : Option (LegSrtp σ)) : Leg σ where
  peer := req.peer
  rtcp := some ⟨!req.rtcpMuxed, req.rtcpDestination⟩
  srtp := srtp

/-- Bridge two legs. -/
def Engine.bridge (e : Engine σ) (a b : BridgeLeg) (c : Chance) : Except MediaError (Engine σ) :=
  match buildLegSrtp fromSdes a.srtp, buildLegSrtp fromSdes b.srtp with
  | .ok srtpA, .ok srtpB =>
    if a.endpoint ∉ e.endpoints then .error (.unknownEndpoint a.endpoint)
    else if b.endpoint ∉ e.endpoints then .error (.unknownEndpoint b.endpoint)
    else
      let legs : Side → BridgeLeg
        | .a => a
        | .b => b
      let br := Bridge.spawn (buildLeg a srtpA) (buildLeg b srtpB) c.ssrcTowardA c.ssrcTowardB
      .ok { e with sessions := .bridge legs br :: e.sessions }
  | .error err, _ => .error err
  | .ok _, .error err => .error err

/-! ## the orchestrators -/

/-- G.711 variant for a negotiated codec. -/
def variantFor : NegotiatedCodec → Option G711Variant
  | .pcmu => some .pcmu
  | .pcma => some .pcma
  | _ => none

/-- A transcoded session, if the codecs, the endpoints and the budget allow it:
`ok none` when admission is refused. -/
def Engine.tryOrchestrate (e : Engine σ) (a : BridgeLeg) (codecA : NegotiatedCodec) (b : BridgeLeg)
    (codecB : NegotiatedCodec) (c : Chance) : Except MediaError (Option (Engine σ)) :=
  match variantFor codecA, variantFor codecB with
  | some variantA, some variantB =>
    if a.endpoint ∉ e.endpoints then .error (.unknownEndpoint a.endpoint)
    else if b.endpoint ∉ e.endpoints then .error (.unknownEndpoint b.endpoint)
    else if c.admitted = false then .ok none
    else
      let legs : Side → BridgeLeg
        | .a => a
        | .b => b
      let t := TranscodedSession.spawn ⟨a.peer, variantA⟩ ⟨b.peer, variantB⟩ c.towardA c.towardB
      .ok (some { e with sessions := .transcoded legs t :: e.sessions })
  | _, _ => .error .io

/-- A conference participant, if the conference is there. -/
def Engine.orchestrateRoom (e : Engine σ) (leg : BridgeLeg) (c : Chance) :
    Except MediaError (Option (Engine σ)) :=
  if leg.endpoint ∉ e.endpoints then .error (.unknownEndpoint leg.endpoint)
  else if c.conferenceUp = false then .ok none
  else
    let p : ParticipantSession :=
      ⟨leg.peer, c.samplesPerFrame, c.ssrcTowardA, c.towardA.seq, c.towardA.ts, false, []⟩
    .ok (some { e with sessions := .participant leg p :: e.sessions })

/-- The leg the WebRTC handler bridges: it has no RTCP address and no clock rate
of its own. -/
def webrtcLeg (leg : BridgeLeg) : BridgeLeg :=
  { leg with clockRate := defaultRtpClockRate, rtcpPeer := none }

/-- Pair a SIP leg with the WebRTC leg parked under a tag, or park it there. -/
def Engine.pairSipLeg (e : Engine σ) (tag : String) (leg : BridgeLeg) (c : Chance) :
    Except MediaError Unit × Engine σ :=
  match e.webrtcPending.lookup tag with
  | some partner =>
    let e := { e with webrtcPending := e.webrtcPending.erase tag }
    match e.bridge fromSdes (webrtcLeg leg) partner c with
    | .ok e' => (.ok (), e')
    | .error err => (.error err, e)
  | none => (.ok (), { e with webrtcPending := e.webrtcPending.insert tag (webrtcLeg leg) })

/-! ## `attach_media` -/

def serverInternalError : Rejection := ⟨500, "Server Internal Error", none⟩

/-- `NegotiatedCodec::as_str` -/
def codecName : NegotiatedCodec → String
  | .pcmu => "pcmu"
  | .pcma => "pcma"
  | .g722 => "g722"
  | .opus => "opus"
  | .h264 => "h264"
  | .vp8 => "vp8"
  | .vp9 => "vp9"
  | .t38 => "t38"
  | .other name => name

def formatWarning (code : Nat) (text : String) : String :=
  let sanitized := String.ofList (text.toList.filter fun ch => ch ≠ '"')
  s!"{code} smiths-net \"" ++ sanitized ++ "\""

/-- A transcoded session for legs with different codecs, or the rejection. -/
def tryOrchestrateTranscoded (cfg : Config) (e : Engine σ) (a : BridgeLeg) (codecA : NegotiatedCodec)
    (b : BridgeLeg) (codecB : NegotiatedCodec) (c : Chance) : Except Rejection (Engine σ) :=
  if cfg.transcoder = false then
    .error ⟨488, "Not Acceptable Here", some (formatWarning 399
      ("codec mismatch (" ++ codecName codecA ++ " vs " ++ codecName codecB ++
        ") and no transcoder configured"))⟩
  else
    match e.tryOrchestrate a codecA b codecB c with
    | .ok (some e') => .ok e'
    | .ok none =>
      .error ⟨503, "Service Unavailable",
        some (formatWarning 370 "transcoding capacity exhausted")⟩
    | .error _ => .error serverInternalError

/-- The codecs of both legs are known and differ. -/
def mismatch (codecA codecB : Option NegotiatedCodec) : Option (NegotiatedCodec × NegotiatedCodec) :=
  match codecA, codecB with
  | some a, some b => if a ≠ b then some (a, b) else none
  | _, _ => none

/-- Pair the leg with the one parked in the room, or park it.  A partner that
could not be connected is parked again. -/
def rendezvousPair (cfg : Config) (e : Engine σ) (room : String) (key : DialogKey) (leg : BridgeLeg)
    (codec : Option NegotiatedCodec) (c : Chance) : Except Rejection MediaAttachment × Engine σ :=
  match e.pendingBridges.lookup room with
  | none =>
    (.ok .none, { e with pendingBridges := e.pendingBridges.insert room ⟨key, leg, codec⟩ })
  | some pending =>
    let e := { e with pendingBridges := e.pendingBridges.erase room }
    let outcome : Except Rejection (Engine σ) :=
      match mismatch pending.audioCodec codec with
      | some (codecA, codecB) =>
        tryOrchestrateTranscoded cfg e pending.leg codecA leg codecB c
      | none =>
        match e.bridge fromSdes pending.leg leg c with
        | .ok e' => .ok e'
        | .error _ => .error serverInternalError
    match outcome with
    | .ok e' => (.ok .bridged, e')
    | .error rejection =>
      (.error rejection, { e with pendingBridges := e.pendingBridges.insert room pending })

/-- The room is a conference. -/
def isConference (cfg : Config) (room : String) : Bool :=
  match cfg.conferencePrefix with
  | none => false
  | some start => start.toList.isPrefixOf room.toList

/-- Conference or rendezvous, by the user part of the Request-URI. -/
def attachRoom (cfg : Config) (e : Engine σ) (i : Invite) (leg : BridgeLeg) (c : Chance) :
    Except Rejection MediaAttachment × Engine σ :=
  match i.ruriUser with
  | none => (.ok .none, e)
  | some room =>
    match isConference cfg room, e.orchestrateRoom leg c with
    | true, .ok (some e') => (.ok .conference, e')
    | _, _ => rendezvousPair fromSdes cfg e room i.dialogKey leg i.audioCodec c

/-- Connect the media of a new dialog: a WebRTC leg the INVITE names, a
conference room, or the rendezvous. -/
def attachMedia (cfg : Config) (e : Engine σ) (i : Invite) (c : Chance) :
    Except Rejection MediaAttachment × Engine σ :=
  match i.leg with
  | none => (.ok .none, e)
  | some leg =>
    match i.webrtcTag, cfg.webrtc with
    | some tag, true =>
      match e.pairSipLeg fromSdes tag leg c with
      | (.ok (), e') => (.ok .webRtc, e')
      | (.error _, e') => attachRoom fromSdes cfg e' i leg c
    | _, _ => attachRoom fromSdes cfg e i leg c

/-- A WebRTC leg arrives: it is bridged with the leg parked under its tag, or
parked there. -/
def webrtcRendezvous (e : Engine σ) (tag : String) (leg : BridgeLeg) (c : Chance) : Engine σ :=
  match e.webrtcPending.lookup tag with
  | some partner =>
    let e := { e with webrtcPending := e.webrtcPending.erase tag }
    match e.bridge fromSdes (webrtcLeg leg) partner c with
    | .ok e' => e'
    | .error _ => e
  | none => { e with webrtcPending := e.webrtcPending.insert tag (webrtcLeg leg) }

/-! ## runs -/

variable (T : SrtpTransform σ) (fade : Fade)

inductive Action
  /-- An INVITE reaches `attach_media`. -/
  | attach (i : Invite) (c : Chance)
  /-- A WebRTC offer with a tag. -/
  | webrtcOffer (tag : String) (leg : BridgeLeg) (c : Chance)
  /-- The deadline of a leg parked under a tag. -/
  | evict (tag : String)
  /-- The teardown of a parked dialog. -/
  | unpark (room : String)
  | allocate (endpoint : UInt64)
  | release (endpoint : UInt64)
  /-- A session, by its position, takes a media event. -/
  | media (n : Nat) (e : SessionEvent)

/-- A session takes an event of its kind. -/
def Session.step (s : Session σ) (e : SessionEvent) : Option (Session σ) :=
  match s, e with
  | .bridge legs br, .bridge e => some (.bridge legs (br.step T e))
  | .transcoded legs t, .transcoded e => some (.transcoded legs (t.step fade e))
  | .participant leg p, .participant e => some (.participant leg (p.step e))
  | _, _ => none

def step (cfg : Config) (e : Engine σ) : Action → Option (Engine σ)
  | .attach i c => some (attachMedia fromSdes cfg e i c).2
  | .webrtcOffer tag leg c => some (webrtcRendezvous fromSdes e tag leg c)
  | .evict tag => some { e with webrtcPending := e.webrtcPending.erase tag }
  | .unpark room => some { e with pendingBridges := e.pendingBridges.erase room }
  | .allocate endpoint => some { e with endpoints := endpoint :: e.endpoints }
  | .release endpoint => some { e with endpoints := e.endpoints.filter (· ≠ endpoint) }
  | .media n ev =>
    match e.sessions[n]? with
    | none => none
    | some s => (s.step T fade ev).map fun s' => { e with sessions := e.sessions.set n s' }

/-- An engine without calls. -/
def Engine.start : Engine σ := ⟨∅, ∅, [], []⟩

/-! ## SRTP is honoured -/

/-- The transmit context in use for the leg comes from the negotiated local key. -/
def Session.LocalKeyInUse (s : Session σ) (side : Side) (keys : SrtpKeys) : Prop :=
  ∃ first now, fromSdes keys.localTxKey = .ok first ∧ s.localTx side = some now ∧
    Relation.ReflTransGen (Bridge.Used T) first now

/-- For every keyed leg of the session: what was sent to its peer was sealed by
the leg's transmit context before, the context comes from the negotiated key, and
nothing but the plaintext of its packets was decoded. -/
def Session.Honoured (s : Session σ) : Prop :=
  ∀ side leg keys, s.legOf side = some leg → leg.srtp = some keys →
    (∀ dest datagram past, Effect.sent side dest datagram :: past <:+ s.history →
      ∃ packet, Effect.sealed side packet datagram ∈ past) ∧
    s.LocalKeyInUse fromSdes T side keys ∧
    ∀ packet, Effect.decoded side packet ∈ s.history →
      ∃ ct, Effect.unprotected side ct packet ∈ s.history

/-- The fabric can bridge the legs: their keys are usable, their sockets are there. -/
def bridgeable (e : Engine σ) (a b : BridgeLeg) : Bool :=
  (buildLegSrtp fromSdes a.srtp).isOk && (buildLegSrtp fromSdes b.srtp).isOk &&
    decide (a.endpoint ∈ e.endpoints ∧ b.endpoint ∈ e.endpoints)

/-- A transcoded session between the legs would be admitted. -/
def transcodable (cfg : Config) (e : Engine σ) (a : BridgeLeg) (codecA : NegotiatedCodec)
    (b : BridgeLeg) (codecB : NegotiatedCodec) (c : Chance) : Bool :=
  cfg.transcoder && (variantFor codecA).isSome && (variantFor codecB).isSome && c.admitted &&
    decide (a.endpoint ∈ e.endpoints ∧ b.endpoint ∈ e.endpoints)

/-- The conference in the room would take the leg. -/
def joinable (cfg : Config) (e : Engine σ) (room : String) (leg : BridgeLeg) (c : Chance) : Bool :=
  isConference cfg room && c.conferenceUp && decide (leg.endpoint ∈ e.endpoints)

/-- Legs to be bridged are both keyed or both plain. -/
def bridgePermits (e : Engine σ) (a b : BridgeLeg) : Bool :=
  !bridgeable fromSdes e a b || a.keyed == b.keyed

/-- What the rendezvous in the room would connect the leg with. -/
def rendezvousPermits (cfg : Config) (e : Engine σ) (room : String) (leg : BridgeLeg)
    (codec : Option NegotiatedCodec) (c : Chance) : Bool :=
  match e.pendingBridges.lookup room with
  | none => true
  | some pending =>
    match mismatch pending.audioCodec codec with
    | some (codecA, codecB) =>
      !transcodable cfg e pending.leg codecA leg codecB c || !pending.leg.keyed && !leg.keyed
    | none => bridgePermits fromSdes e pending.leg leg

/-- No keyed leg joins a conference, and the rendezvous permits it. -/
def roomPermits (cfg : Config) (e : Engine σ) (i : Invite) (leg : BridgeLeg) (c : Chance) : Bool :=
  match i.ruriUser with
  | none => true
  | some room =>
    if joinable cfg e room leg c then !leg.keyed
    else rendezvousPermits fromSdes cfg e room leg i.audioCodec c

/-- The leg parked under the tag is keyed like the new one. -/
def webrtcPermits (e : Engine σ) (tag : String) (leg : BridgeLeg) : Bool :=
  match e.webrtcPending.lookup tag with
  | none => true
  | some partner => bridgePermits fromSdes e leg partner

/-- Where the INVITE's leg goes first: the WebRTC tag it names, if the pairing
there succeeds, else the room. -/
def attachPermits (cfg : Config) (e : Engine σ) (i : Invite) (c : Chance) : Bool :=
  match i.leg with
  | none => true
  | some leg =>
    match i.webrtcTag, cfg.webrtc with
    | some tag, true =>
      match e.webrtcPending.lookup tag with
      | none => true
      | some partner =>
        if bridgeable fromSdes e leg partner then leg.keyed == partner.keyed
        else roomPermits fromSdes cfg e i leg c
    | _, _ => roomPermits fromSdes cfg e i leg c

/-- The condition on a step. -/
def Permits (cfg : Config) (e : Engine σ) : Action → Prop
  | .attach i c => attachPermits fromSdes cfg e i c = true
  | .webrtcOffer tag leg _ => webrtcPermits fromSdes e tag leg = true
  | _ => True

instance decidablePermits (cfg : Config) (e : Engine σ) :
    ∀ act, Decidable (Permits fromSdes cfg e act)
  | .attach i c => inferInstanceAs (Decidable (attachPermits fromSdes cfg e i c = true))
  | .webrtcOffer tag leg _ => inferInstanceAs (Decidable (webrtcPermits fromSdes e tag leg = true))
  | .evict _ => isTrue trivial
  | .unpark _ => isTrue trivial
  | .allocate _ => isTrue trivial
  | .release _ => isTrue trivial
  | .media _ _ => isTrue trivial

/-! ## sound sessions -/

/-- What a session must be for SRTP to be honoured in it. -/
def Session.Sound : Session σ → Prop
  | .bridge legs br =>
    (∀ side, br.keyed side = (legs side).keyed) ∧ br.keyed .a = br.keyed .b ∧ br.Confidential ∧
      (∀ side packet, Effect.decoded side packet ∉ br.history) ∧
      ∀ side keys, (legs side).srtp = some keys →
        Session.LocalKeyInUse fromSdes T (.bridge legs br) side keys
  | .transcoded legs _ => ∀ side, (legs side).keyed = false
  | .participant leg _ => leg.keyed = false

variable {fromSdes T fade} {cfg : Config} {e e' : Engine σ} {a b leg : BridgeLeg} {c : Chance}

theorem keyed_of_srtp {keys : SrtpKeys} (h : leg.srtp = some keys) : leg.keyed = true := by
  unfold BridgeLeg.keyed
  rw [h]
  rfl

theorem Session.Sound.honoured {s : Session σ} (h : s.Sound fromSdes T) : s.Honoured fromSdes T := by
  intro side leg keys hleg hkeys
  have hkeyed := keyed_of_srtp hkeys
  cases s with
  | bridge legs br =>
    obtain ⟨hlegs, _, hconf, hundecoded, hcontext⟩ := h
    obtain rfl : legs side = leg := Option.some.inj hleg
    refine ⟨?_, hcontext side keys hkeys, fun packet hdec => absurd hdec (hundecoded side packet)⟩
    intro dest datagram past hsent
    obtain ⟨packet, _, hsealed⟩ := hconf side dest datagram past hsent
    rw [hlegs, hkeyed, if_pos rfl] at hsealed
    exact ⟨_, hsealed⟩
  | transcoded legs t =>
    obtain rfl : legs side = leg := Option.some.inj hleg
    rw [h side] at hkeyed
    contradiction
  | participant leg' p =>
    cases side with
    | a =>
      obtain rfl : leg' = leg := Option.some.inj hleg
      have hplain : leg'.keyed = false := h
      rw [hplain] at hkeyed
      contradiction
    | b => contradiction

theorem Session.Sound.step {s s' : Session σ} {ev : SessionEvent} (h : s.Sound fromSdes T)
    (hstep : s.step T fade ev = some s') : s'.Sound fromSdes T := by
  cases s with
  | bridge legs br =>
    cases ev with
    | bridge be =>
      obtain rfl := Option.some.inj hstep
      obtain ⟨hlegs, halike, hconf, hundecoded, hcontext⟩ := h
      have hkeyed := (Bridge.step_outcome T br be).1.1
      refine ⟨?_, ?_, hconf.step halike be, ?_, ?_⟩
      · intro side
        rw [hkeyed]
        exact hlegs side
      · rw [hkeyed]
        exact halike
      · intro side packet
        exact Bridge.decoded_not_mem_step T be (hundecoded side packet)
      · intro side keys hkeys
        obtain ⟨first, now, hfirst, hnow, hused⟩ := hcontext side keys hkeys
        obtain ⟨k, hk, rfl⟩ := Option.map_eq_some_iff.mp hnow
        have hkeeps := Bridge.keepsKeys_step T br be side
        rw [hk] at hkeeps
        generalize hk' : ((br.step T be).leg side).srtp = srtp' at hkeeps
        cases hkeeps with
        | @some _ k' hsame =>
          refine ⟨first, k'.localTx, hfirst, ?_, hused.trans hsame.localTx⟩
          show ((br.step T be).leg side).srtp.map (·.localTx) = some k'.localTx
          rw [hk']
          rfl
    | transcoded te => contradiction
    | participant pe => contradiction
  | transcoded legs t =>
    cases ev with
    | transcoded te =>
      obtain rfl := Option.some.inj hstep
      exact h
    | bridge be => contradiction
    | participant pe => contradiction
  | participant leg p =>
    cases ev with
    | participant pe =>
      obtain rfl := Option.some.inj hstep
      exact h
    | bridge be => contradiction
    | transcoded te => contradiction

/-! ## new sessions -/

theorem buildLegSrtp_eq_ok {srtp : Option SrtpKeys} {k : Option (LegSrtp σ)}
    (h : buildLegSrtp fromSdes srtp = .ok k) : k.isSome = srtp.isSome ∧ ∀ keys, srtp = some keys →
      ∃ contexts, k = some contexts ∧ fromSdes keys.localTxKey = .ok contexts.localTx := by
  unfold buildLegSrtp at h
  split at h
  · obtain rfl := Except.ok.inj h
    exact ⟨rfl, fun keys hkeys => nomatch hkeys⟩
  · next keys =>
    split at h
    · next peerTx localTx _ hlocal =>
      obtain rfl := Except.ok.inj h
      refine ⟨rfl, fun keys' hkeys => ?_⟩
      obtain rfl := Option.some.inj hkeys
      exact ⟨_, rfl, hlocal⟩
    · contradiction

/-- The sessions of the later engine are those of the earlier and sound ones. -/
def GrowsSoundly (fromSdes : Bytes → Except SrtpError σ) (T : SrtpTransform σ) (e e' : Engine σ) :
    Prop :=
  ∀ s ∈ e'.sessions, s ∈ e.sessions ∨ s.Sound fromSdes T

theorem GrowsSoundly.of_eq (h : e'.sessions = e.sessions) : GrowsSoundly fromSdes T e e' := by
  intro s hs
  rw [h] at hs
  exact Or.inl hs

theorem GrowsSoundly.of_cons {s : Session σ} (h : e'.sessions = s :: e.sessions)
    (hs : s.Sound fromSdes T) : GrowsSoundly fromSdes T e e' := by
  intro s' hs'
  rw [h, List.mem_cons] at hs'
  obtain rfl | hs' := hs'
  · exact Or.inr hs
  · exact Or.inl hs'

theorem bridge_eq_ok (T : SrtpTransform σ) (h : e.bridge fromSdes a b c = .ok e') :
    bridgeable fromSdes e a b = true ∧ (a.keyed = b.keyed → GrowsSoundly fromSdes T e e') := by
  unfold Engine.bridge at h
  split at h
  · next srtpA srtpB hA hB =>
    split at h
    · contradiction
    · next hendA =>
      split at h
      · contradiction
      · next hendB =>
        obtain rfl := Except.ok.inj h
        refine ⟨?_, fun halike => GrowsSoundly.of_cons rfl ?_⟩
        · unfold bridgeable
          rw [hA, hB]
          simp only [not_not] at hendA hendB
          simp [hendA, hendB, Except.isOk, Except.toBool]
        · obtain ⟨hkeyA, hctxA⟩ := buildLegSrtp_eq_ok hA
          obtain ⟨hkeyB, hctxB⟩ := buildLegSrtp_eq_ok hB
          refine ⟨?_, ?_, ?_, ?_, ?_⟩
          · rintro (_ | _)
            · exact hkeyA
            · exact hkeyB
          · exact (hkeyA.trans halike).trans hkeyB.symm
          · intro side dest datagram past hsent
            exact absurd (List.suffix_nil.mp hsent) (List.cons_ne_nil _ _)
          · exact fun side packet => List.not_mem_nil
          · rintro (_ | _) keys hkeys
            · obtain ⟨contexts, rfl, hfirst⟩ := hctxA keys hkeys
              exact ⟨_, _, hfirst, rfl, .refl⟩
            · obtain ⟨contexts, rfl, hfirst⟩ := hctxB keys hkeys
              exact ⟨_, _, hfirst, rfl, .refl⟩
  · contradiction
  · contradiction

theorem exists_bridge (h : bridgeable fromSdes e a b = true) (c : Chance) :
    ∃ e', e.bridge fromSdes a b c = .ok e' := by
  simp only [bridgeable, Bool.and_eq_true, decide_eq_true_eq] at h
  obtain ⟨⟨hA, hB⟩, hendA, hendB⟩ := h
  unfold Engine.bridge
  cases hkA : buildLegSrtp fromSdes a.srtp with
  | error err =>
    rw [hkA] at hA
    contradiction
  | ok srtpA =>
    cases hkB : buildLegSrtp fromSdes b.srtp with
    | error err =>
      rw [hkB] at hB
      contradiction
    | ok srtpB =>
      simp only
      rw [if_neg (not_not.mpr hendA), if_neg (not_not.mpr hendB)]
      exact ⟨_, rfl⟩

theorem bridge_grows (T : SrtpTransform σ) (h : e.bridge fromSdes a b c = .ok e')
    (hpermits : bridgePermits fromSdes e a b = true) : GrowsSoundly fromSdes T e e' := by
  obtain ⟨hbridgeable, hgrows⟩ := bridge_eq_ok T h
  refine hgrows ?_
  simpa [bridgePermits, hbridgeable] using hpermits

theorem tryOrchestrate_grows (fromSdes : Bytes → Except SrtpError σ) (T : SrtpTransform σ)
    {codecA codecB : NegotiatedCodec}
    (h : e.tryOrchestrate a codecA b codecB c = .ok (some e')) (hcfg : cfg.transcoder = true) :
    transcodable cfg e a codecA b codecB c = true ∧
      (a.keyed = false ∧ b.keyed = false → GrowsSoundly fromSdes T e e') := by
  unfold Engine.tryOrchestrate at h
  split at h
  · next variantA variantB hA hB =>
    split at h
    · contradiction
    · next hendA =>
      split at h
      · contradiction
      · next hendB =>
        split at h
        · cases h
        · next hadmitted =>
          obtain rfl := Option.some.inj (Except.ok.inj h)
          refine ⟨?_, fun hplain => GrowsSoundly.of_cons rfl ?_⟩
          · simp only [not_not] at hendA hendB
            simp [transcodable, hcfg, hA, hB, hadmitted, hendA, hendB]
          · rintro (_ | _)
            · exact hplain.1
            · exact hplain.2
  · contradiction

theorem orchestrateRoom_grows (fromSdes : Bytes → Except SrtpError σ) (T : SrtpTransform σ)
    (h : e.orchestrateRoom leg c = .ok (some e')) :
    (c.conferenceUp = true ∧ leg.endpoint ∈ e.endpoints) ∧
      (leg.keyed = false → GrowsSoundly fromSdes T e e') := by
  unfold Engine.orchestrateRoom at h
  split at h
  · contradiction
  · next hend =>
    split at h
    · cases h
    · next hup =>
      obtain rfl := Option.some.inj (Except.ok.inj h)
      exact ⟨⟨by simpa using hup, not_not.mp hend⟩, fun hplain => GrowsSoundly.of_cons rfl hplain⟩

section

variable (T : SrtpTransform σ)

theorem rendezvousPair_grows {room : String} {key : DialogKey} {codec : Option NegotiatedCodec}
    (hpermits : rendezvousPermits fromSdes cfg e room leg codec c = true) :
    GrowsSoundly fromSdes T e (rendezvousPair fromSdes cfg e room key leg codec c).2 := by
  unfold rendezvousPermits at hpermits
  unfold rendezvousPair
  split
  · exact GrowsSoundly.of_eq rfl
  · next pending hpending =>
    rw [hpending] at hpermits
    simp only at hpermits ⊢
    -- the engine whose entry has been taken has the same sessions and endpoints
    have hsame : ∀ {e'}, GrowsSoundly fromSdes T
        { e with pendingBridges := e.pendingBridges.erase room } e' →
        GrowsSoundly fromSdes T e e' := fun h => h
    split
    · next e' houtcome =>
      refine hsame ?_
      split at houtcome
      · next codecA codecB hmismatch =>
        rw [hmismatch] at hpermits
        simp only at hpermits
        unfold tryOrchestrateTranscoded at houtcome
        split at houtcome
        · contradiction
        · next hcfg =>
          split at houtcome
          · next e'' htry =>
            obtain rfl := Except.ok.inj houtcome
            obtain ⟨hable, hgrows⟩ := tryOrchestrate_grows fromSdes T htry
              (by simpa using hcfg)
            have hable : transcodable cfg e pending.leg codecA leg codecB c = true := hable
            rw [hable] at hpermits
            exact hgrows (by simpa using hpermits)
          · contradiction
          · contradiction
      · next hmatch =>
        rw [hmatch] at hpermits
        simp only at hpermits
        split at houtcome
        · next e'' hbridge =>
          obtain rfl := Except.ok.inj houtcome
          exact bridge_grows T hbridge hpermits
        · contradiction
    · exact GrowsSoundly.of_eq rfl

theorem attachRoom_grows {i : Invite} (hpermits : roomPermits fromSdes cfg e i leg c = true) :
    GrowsSoundly fromSdes T e (attachRoom fromSdes cfg e i leg c).2 := by
  unfold roomPermits at hpermits
  unfold attachRoom
  split
  · exact GrowsSoundly.of_eq rfl
  · next room hroom =>
    rw [hroom] at hpermits
    simp only at hpermits
    split
    · next e' hconference hjoined =>
      obtain ⟨⟨hup, hend⟩, hgrows⟩ := orchestrateRoom_grows fromSdes T hjoined
      refine hgrows ?_
      have hjoinable : joinable cfg e room leg c = true := by
        simp [joinable, hconference, hup, hend]
      simpa [hjoinable] using hpermits
    · next hnot =>
      refine rendezvousPair_grows T ?_
      have hjoinable : joinable cfg e room leg c = false := by
        by_contra hable
        simp only [joinable, Bool.not_eq_false, Bool.and_eq_true, decide_eq_true_eq] at hable
        obtain ⟨⟨hconference, hup⟩, hend⟩ := hable
        have hjoined : ∃ e', e.orchestrateRoom leg c = .ok (some e') :=
          ⟨_, by rw [Engine.orchestrateRoom, if_neg (not_not.mpr hend), if_neg (by simp [hup])]⟩
        obtain ⟨e', hjoined⟩ := hjoined
        exact hnot e' hconference hjoined
      simpa [hjoinable] using hpermits

theorem attachMedia_grows {i : Invite} (hpermits : attachPermits fromSdes cfg e i c = true) :
    GrowsSoundly fromSdes T e (attachMedia fromSdes cfg e i c).2 := by
  unfold attachPermits at hpermits
  unfold attachMedia
  split
  · exact GrowsSoundly.of_eq rfl
  · next leg hleg =>
    rw [hleg] at hpermits
    simp only at hpermits
    split
    · next tag htag hwired =>
      rw [htag, hwired] at hpermits
      simp only at hpermits
      unfold Engine.pairSipLeg
      cases hpending : e.webrtcPending.lookup tag with
      | none => exact GrowsSoundly.of_eq rfl
      | some partner =>
        rw [hpending] at hpermits
        simp only at hpermits ⊢
        cases hbridge : Engine.bridge fromSdes
            { e with webrtcPending := e.webrtcPending.erase tag } (webrtcLeg leg) partner c with
        | ok e' =>
          obtain ⟨hable, hgrows⟩ := bridge_eq_ok T hbridge
          have hable : bridgeable fromSdes e leg partner = true := hable
          rw [if_pos hable] at hpermits
          have halike : leg.keyed = partner.keyed := by simpa using hpermits
          exact hgrows halike
        | error err =>
          have hunable : ¬ bridgeable fromSdes e leg partner = true := by
            intro hable
            have hable : bridgeable fromSdes
              { e with webrtcPending := e.webrtcPending.erase tag } (webrtcLeg leg) partner = true :=
              hable
            obtain ⟨e', he'⟩ := exists_bridge hable c
            rw [hbridge] at he'
            contradiction
          rw [if_neg hunable] at hpermits
          exact attachRoom_grows T hpermits
    · next hnot =>
      refine attachRoom_grows T ?_
      split at hpermits
      · next tag htag hwired => exact absurd hwired (hnot tag htag)
      · exact hpermits

theorem webrtcRendezvous_grows {tag : String} (hpermits : webrtcPermits fromSdes e tag leg = true) :
    GrowsSoundly fromSdes T e (webrtcRendezvous fromSdes e tag leg c) := by
  unfold webrtcPermits at hpermits
  unfold webrtcRendezvous
  cases hpending : e.webrtcPending.lookup tag with
  | none => exact GrowsSoundly.of_eq rfl
  | some partner =>
    rw [hpending] at hpermits
    simp only at hpermits ⊢
    split
    · next e' hbridge =>
      have hgrows : bridgePermits fromSdes
          { e with webrtcPending := e.webrtcPending.erase tag } (webrtcLeg leg) partner = true →
          GrowsSoundly fromSdes T e e' := bridge_grows T hbridge
      exact hgrows hpermits
    · exact GrowsSoundly.of_eq rfl

end

theorem step_sound {act : Action} (h : ∀ s ∈ e.sessions, s.Sound fromSdes T)
    (hpermits : Permits fromSdes cfg e act) (hstep : step fromSdes T fade cfg e act = some e') :
    ∀ s ∈ e'.sessions, s.Sound fromSdes T := by
  have hgrown : GrowsSoundly fromSdes T e e' → ∀ s ∈ e'.sessions, s.Sound fromSdes T := by
    intro hgrows s hs
    obtain hold | hnew := hgrows s hs
    · exact h s hold
    · exact hnew
  cases act with
  | attach i c =>
    obtain rfl := Option.some.inj hstep
    exact hgrown (attachMedia_grows T hpermits)
  | webrtcOffer tag leg c =>
    obtain rfl := Option.some.inj hstep
    exact hgrown (webrtcRendezvous_grows T hpermits)
  | evict tag =>
    obtain rfl := Option.some.inj hstep
    exact h
  | unpark room =>
    obtain rfl := Option.some.inj hstep
    exact h
  | allocate endpoint =>
    obtain rfl := Option.some.inj hstep
    exact h
  | release endpoint =>
    obtain rfl := Option.some.inj hstep
    exact h
  | media n ev =>
    simp only [step] at hstep
    split at hstep
    · contradiction
    · next s hs =>
      obtain ⟨s', hs', rfl⟩ := Option.map_eq_some_iff.mp hstep
      intro x hx
      obtain hx | rfl := List.mem_or_eq_of_mem_set hx
      · exact h x hx
      · exact (h s (List.mem_of_getElem? hs)).step hs'

end Attach

/-- **SRTP is honoured by every attachment**: in every run in which legs are
bridged only with legs keyed like them and no keyed leg joins a transcoded
session or a conference, every session of every state honours the keys of its
legs. -/
theorem srtp_honoured {σ : Type} (fromSdes : Bytes → Except SrtpError σ) (T : SrtpTransform σ)
    (fade : Fade) (cfg : Config) (acts : List Action) (e : Engine σ)
    (hrun : exec (step fromSdes T fade cfg) Engine.start acts = some e)
    (hpermits : Meets (step fromSdes T fade cfg) (Permits fromSdes cfg) Engine.start acts) :
    ∀ s ∈ e.sessions, s.Honoured fromSdes T := by
  have hsound : ∀ s ∈ e.sessions, s.Sound fromSdes T := by
    refine exec_invariant_of_meets (I := fun e => ∀ s ∈ e.sessions, s.Sound fromSdes T) ?_ hrun
      hpermits ?_
    · intro e act e' h hok hstep
      exact step_sound h hok hstep
    · exact fun s hs => absurd hs List.not_mem_nil
  exact fun s hs => (hsound s hs).honoured

/-! ## samples -/

/-- Key material of 30 bytes makes a context. -/
def sampleSdes (key : Bytes) : Except SrtpError Unit :=
  if key.length = 30 then .ok () else .error (.keyLength 30 key.length)

def sampleKeys : SrtpKeys := ⟨List.replicate 30 1, List.replicate 30 2⟩

def sampleConfig : Config := ⟨false, none, true⟩

def sampleChance : Chance := ⟨1, 2, { ssrc := 1, seq := 1, ts := 0 }, { ssrc := 2, seq := 1, ts := 0 },
  true, true, 160⟩

/-- An INVITE to the room `r`. -/
def sampleInvite (tag : String) (leg : BridgeLeg) (codec : NegotiatedCodec) : Invite :=
  ⟨("call", "local", tag), none, some "r", some leg, some codec⟩

/-- Two keyed legs meet in a room and one of them is heard. -/
def keyedPair : List Action :=
  [.allocate 1, .allocate 2,
    .attach (sampleInvite "1" ⟨1, samplePeer, some sampleKeys, 8000, none⟩ .pcmu) sampleChance,
    .attach (sampleInvite "2" ⟨2, samplePeer, some sampleKeys, 8000, none⟩ .pcmu) sampleChance,
    .media 0 (.bridge (.rtp .a (samplePacket ++ [0xFF])))]

theorem srtp_honoured_keyedPair :
    ∃ e, exec (step sampleSdes tagTransform (fun _ => none) sampleConfig) Engine.start keyedPair =
        some e ∧ e.sessions.map (·.history.length) = [4] ∧
      ∀ s ∈ e.sessions, s.Honoured sampleSdes tagTransform :=
  ⟨_, rfl, by decide +kernel,
    srtp_honoured sampleSdes tagTransform (fun _ => none) sampleConfig keyedPair _ rfl
      (by decide +kernel)⟩

/-- A keyed leg meets a plain one with another codec, and sends a packet. -/
def mismatchedPair : List Action :=
  [.allocate 1, .allocate 2,
    .attach (sampleInvite "1" ⟨1, samplePeer, some sampleKeys, 8000, none⟩ .pcmu) sampleChance,
    .attach (sampleInvite "2" ⟨2, samplePeer, none, 8000, none⟩ .pcma) sampleChance,
    .media 0 (.transcoded (.rtp .a (samplePacket ++ [0xFF])))]

/-- The transcoded session decodes the ciphertext. -/
theorem srtp_ignored :
    ∃ e, exec (step sampleSdes tagTransform (fun _ => none) sampleConfig) Engine.start
        mismatchedPair = some e ∧
      ∃ s ∈ e.sessions, ¬ s.Honoured sampleSdes tagTransform := by
  refine ⟨_, rfl, _, List.mem_cons_self, fun h => ?_⟩
  obtain ⟨_, _, hdecoded⟩ := h .a _ sampleKeys rfl rfl
  obtain ⟨ct, hct⟩ := hdecoded (samplePacket ++ [0xFF]) (by decide +kernel)
  have hnone : ∀ x ∈ [Effect.decoded .a (samplePacket ++ [0xFF]),
      .received .a (samplePacket ++ [0xFF])], x.isCrypto = false := by decide +kernel
  have hcrypto := hnone _ hct
  contradiction

end SmithsNet.Uas.Attach
