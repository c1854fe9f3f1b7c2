import Mathlib
import SmithsNet.Core.Dialog
import SmithsNet.Media.Rtp

/-!
# SmithsNet.Media.Bridge

The two-leg media bridge (`smiths-media/src/bridge.rs`): a forwarder for each
direction, the RTCP that is terminated on each leg, and the sender reports.

SRTP is a parameter, `SrtpTransform`: contexts with a state of their own, and
operations that may fail.  What the bridge does is kept in a history, so that
where a datagram came from can be asked of it.  Statistics and the detection of
DTMF read packets and change none; they are left out.  A task that has stopped
takes no further event.

`bridge_confidential`: a run keeps every packet behind the transforms of its
legs exactly when both legs have them or neither has, or no media arrives.
-/

namespace SmithsNet.Media

open Lib SmithsNet.Core

/-! ## SRTP -/

inductive SrtpError
  | keyLength (expected got : Nat)
  | authFailed
  | replayed
  | other (reason : String)

/-- The operations of an SRTP context. -/
structure SrtpTransform (σ : Type) where
  protectRtp : σ → Bytes → Except SrtpError Bytes × σ
  unprotectRtp : σ → Bytes → Except SrtpError Bytes × σ
  protectRtcp : σ → Bytes → Except SrtpError Bytes × σ
  unprotectRtcp : σ → Bytes → Except SrtpError Bytes × σ

/-- The key contexts of a leg. -/
structure LegSrtp (σ : Type) where
  /-- The peer's transmit key: decrypts what arrives. -/
  peerTx : σ
  /-- Our transmit key to the peer: encrypts what leaves. -/
  localTx : σ

/-! ## legs and history -/

/-- The two legs of a session. -/
inductive Side
  | a
  | b
  deriving DecidableEq

def Side.other : Side → Side
  | .a => .b
  | .b => .a

structure RtcpLeg where
  /-- RTCP has a socket of its own. -/
  ownSocket : Bool
  peer : SocketAddr

/-- One leg of a bridged call. -/
structure Leg (σ : Type) where
  peer : SocketAddr
  rtcp : Option RtcpLeg
  srtp : Option (LegSrtp σ)

/-- What a session does with packets, the legs' transforms included. -/
inductive Effect
  /-- A datagram was taken from the leg's RTP socket. -/
  | received (leg : Side) (bytes : Bytes)
  /-- The leg's receive context accepted a packet. -/
  | unprotected (leg : Side) (ciphertext plaintext : Bytes)
  /-- The leg's transmit context sealed a packet. -/
  | sealed (leg : Side) (plaintext ciphertext : Bytes)
  /-- The payload of the packet was decoded as audio. -/
  | decoded (leg : Side) (packet : Bytes)
  /-- A media datagram was handed to the socket for the leg's peer. -/
  | sent (leg : Side) (dest : SocketAddr) (bytes : Bytes)
  /-- A report was handed to the socket for the leg's peer. -/
  | reported (leg : Side) (dest : SocketAddr) (bytes : Bytes)
  deriving DecidableEq

/-- What was done, the latest first. -/
abbrev History := List Effect

/-! ## the bridge -/

structure Bridge (σ : Type) where
  leg : Side → Leg σ
  /-- SSRC on packets to the leg's peer. -/
  ssrcToward : Side → UInt32
  history : History

/-- What the tasks of a bridge wake up for. -/
inductive BridgeEvent
  /-- A datagram on the leg's RTP socket. -/
  | rtp (leg : Side) (datagram : Bytes)
  /-- A datagram on the leg's RTCP socket. -/
  | rtcp (leg : Side) (datagram : Bytes)
  /-- The report clock of the leg, with the compound packet built from the statistics. -/
  | report (leg : Side) (compound : Bytes)

namespace Bridge

variable {σ : Type}

def setLeg (br : Bridge σ) (side : Side) (leg : Leg σ) : Bridge σ :=
  { br with leg := fun s => if s = side then leg else br.leg s }

def log (br : Bridge σ) (e : Effect) : Bridge σ := { br with history := e :: br.history }

/-- The leg's contexts after one of them has worked. -/
def setSrtp (br : Bridge σ) (side : Side) (srtp : LegSrtp σ) : Bridge σ :=
  br.setLeg side { br.leg side with srtp := some srtp }

/-- The (decrypt, encrypt) pair of a direction: only when both legs have contexts. -/
def srtpPair (ingress egress : Option (LegSrtp σ)) : Option (LegSrtp σ × LegSrtp σ) :=
  match ingress, egress with
  | some i, some e => some (i, e)
  | _, _ => none

/-- RTCP from the leg's peer is read and goes no further. -/
def rtcpHandle (T : SrtpTransform σ) (br : Bridge σ) (side : Side) (bytes : Bytes) : Bridge σ :=
  match (br.leg side).srtp with
  | none => br
  | some keys => br.setSrtp side { keys with peerTx := (T.unprotectRtcp keys.peerTx bytes).2 }

/-- The SSRC is rewritten and the packet goes out as it is. -/
def forwardPlain (br : Bridge σ) (side : Side) (packet : Bytes) : Bridge σ :=
  match RtpHeader.parse packet with
  | none => br
  | some _ =>
    br.log (.sent side.other (br.leg side.other).peer (setSsrc packet (br.ssrcToward side.other)))

/-- The plaintext of a packet: rewritten, sealed for the other leg, sent. -/
def forwardSealed (T : SrtpTransform σ) (br : Bridge σ) (side : Side) (egress : LegSrtp σ)
    (packet : Bytes) : Bridge σ :=
  match RtpHeader.parse packet with
  | none => br
  | some _ =>
    let rewritten := setSsrc packet (br.ssrcToward side.other)
    match T.protectRtp egress.localTx rewritten with
    | (.ok ct, localTx) =>
      ((br.setSrtp side.other { egress with localTx := localTx }).log
        (.sealed side.other rewritten ct)).log (.sent side.other (br.leg side.other).peer ct)
    | (.error _, localTx) => br.setSrtp side.other { egress with localTx := localTx }

/-- The forwarder's receive buffer. -/
def RTP_BUF : Nat := 2048

/-- The RTCP listener's receive buffer. -/
def RTCP_BUF : Nat := 1500

/-- One datagram through the forwarder of the direction `side → side.other`. -/
def forward (T : SrtpTransform σ) (br : Bridge σ) (side : Side) (datagram : Bytes) : Bridge σ :=
  let bytes := datagram.take RTP_BUF
  let br := br.log (.received side bytes)
  if isRtcp bytes then br.rtcpHandle T side bytes
  else
    match srtpPair (br.leg side).srtp (br.leg side.other).srtp with
    | none => br.forwardPlain side bytes
    | some (ingress, egress) =>
      match T.unprotectRtp ingress.peerTx bytes with
      | (.ok packet, peerTx) =>
        ((br.setSrtp side { ingress with peerTx := peerTx }).log
          (.unprotected side bytes packet)).forwardSealed T side egress packet
      | (.error _, peerTx) => br.setSrtp side { ingress with peerTx := peerTx }

/-- A sender report to the leg's peer. -/
def emitReport (T : SrtpTransform σ) (br : Bridge σ) (side : Side) (compound : Bytes) : Bridge σ :=
  match (br.leg side).rtcp with
  | none => br
  | some rtcp =>
    match (br.leg side).srtp with
    | none => br.log (.reported side rtcp.peer compound)
    | some keys =>
      match T.protectRtcp keys.localTx compound with
      | (.ok ct, localTx) =>
        (br.setSrtp side { keys with localTx := localTx }).log (.reported side rtcp.peer ct)
      | (.error _, localTx) => br.setSrtp side { keys with localTx := localTx }

/-- The bridge after an event.  A leg without an RTCP socket of its own has no
listener. -/
def step (T : SrtpTransform σ) (br : Bridge σ) : BridgeEvent → Bridge σ
  | .rtp side datagram => br.forward T side datagram
  | .rtcp side datagram =>
    match (br.leg side).rtcp with
    | some ⟨true, _⟩ => br.rtcpHandle T side (datagram.take RTCP_BUF)
    | _ => br
  | .report side compound => br.emitReport T side compound

/-- A bridge that has just been spawned. -/
def spawn (a b : Leg σ) (ssrcTowardA ssrcTowardB : UInt32) : Bridge σ where
  leg
    | .a => a
    | .b => b
  ssrcToward
    | .a => ssrcTowardA
    | .b => ssrcTowardB
  history := []

def run (T : SrtpTransform σ) (br : Bridge σ) (events : List BridgeEvent) : Bridge σ :=
  events.foldl (step T) br

/-! ## where a datagram comes from -/

/-- The leg has SRTP contexts. -/
def keyed (br : Bridge σ) (side : Side) : Bool := (br.leg side).srtp.isSome

end Bridge

section Confidentiality

variable (keyed : Side → Bool) (ssrcToward : Side → UInt32) (past : History)

/-- The packet was received from the leg: as it is when the leg has no keys,
else as what its receive context made of a datagram. -/
def ReceivedClear (side : Side) (packet : Bytes) : Prop :=
  if keyed side then
    ∃ ct, Effect.received side ct ∈ past ∧ Effect.unprotected side ct packet ∈ past
  else Effect.received side packet ∈ past

/-- The datagram for the leg is a packet of the other leg with the SSRC
rewritten, sealed by the leg's own transmit context if it has one. -/
def Explained (side : Side) (datagram : Bytes) : Prop :=
  ∃ packet, ReceivedClear keyed past side.other packet ∧
    if keyed side then Effect.sealed side (setSsrc packet (ssrcToward side)) datagram ∈ past
    else datagram = setSsrc packet (ssrcToward side)

end Confidentiality

/-- Every media datagram that went out is explained by what was done before. -/
def Bridge.Confidential {σ : Type} (br : Bridge σ) : Prop :=
  ∀ side dest datagram past, Effect.sent side dest datagram :: past <:+ br.history →
    Explained br.keyed br.ssrcToward past side datagram

/-- A datagram the forwarder takes for media: not RTCP, and with an RTP header. -/
def BridgeEvent.isMedia : BridgeEvent → Bool
  | .rtp _ datagram =>
    !isRtcp (datagram.take Bridge.RTP_BUF) && (RtpHeader.parse (datagram.take Bridge.RTP_BUF)).isSome
  | _ => false

/-! ## one event -/

/-- The effect is the work of an SRTP context. -/
def Effect.isCrypto : Effect → Bool
  | .unprotected .. => true
  | .sealed .. => true
  | _ => false

/-- The effect neither seals nor sends nor decodes. -/
def Effect.isQuiet : Effect → Bool
  | .received .. => true
  | .unprotected .. => true
  | .reported .. => true
  | _ => false

def Effect.isSent : Effect → Bool
  | .sent .. => true
  | _ => false

namespace Bridge

variable {σ : Type} {T : SrtpTransform σ} {br : Bridge σ} {side : Side}

/-- What an event may add to the history. -/
inductive Outcome (br br' : Bridge σ) (e : BridgeEvent) : Prop
  /-- Nothing goes out. -/
  | quiet (new : History) (history : br'.history = new ++ br.history)
      (silent : ∀ x ∈ new, x.isQuiet = true)
      (raw : br.keyed .a ≠ br.keyed .b → ∀ x ∈ new, x.isCrypto = false)
      (media : e.isMedia = true → br.keyed .a = true ∧ br.keyed .b = true)
  /-- A packet goes out as it is. -/
  | plain (side : Side) (packet : Bytes) (dest : SocketAddr)
      (unkeyed : ¬ (br.keyed .a = true ∧ br.keyed .b = true)) (media : e.isMedia = true)
      (history : br'.history = .sent side.other dest (setSsrc packet (br.ssrcToward side.other)) ::
        .received side packet :: br.history)
  /-- A packet goes out from one leg's contexts through the other's. -/
  | resealed (side : Side) (bytes packet ct : Bytes) (dest : SocketAddr)
      (keyed : br.keyed .a = true ∧ br.keyed .b = true)
      (history : br'.history = .sent side.other dest ct ::
        .sealed side.other (setSsrc packet (br.ssrcToward side.other)) ct ::
        .unprotected side bytes packet :: .received side bytes :: br.history)

@[simp] theorem keyed_log (br : Bridge σ) (e : Effect) : (br.log e).keyed = br.keyed := rfl

theorem keyed_setSrtp (h : br.keyed side = true) (keys : LegSrtp σ) :
    (br.setSrtp side keys).keyed = br.keyed := by
  funext s
  unfold keyed setSrtp setLeg
  simp only
  split
  · next hs =>
    subst hs
    exact h.symm
  · rfl

theorem keyed_of_some {keys : LegSrtp σ} (h : (br.leg side).srtp = some keys) :
    br.keyed side = true := by
  unfold keyed
  rw [h]
  rfl

theorem keyed_both (br : Bridge σ) (side : Side) : (br.keyed .a = true ∧ br.keyed .b = true) ↔
      (br.keyed side = true ∧ br.keyed side.other = true) := by
  cases side
  · exact Iff.rfl
  · exact And.comm

theorem srtpPair_eq_some {ingress egress : Option (LegSrtp σ)} {pair : LegSrtp σ × LegSrtp σ}
    (h : srtpPair ingress egress = some pair) : ingress = some pair.1 ∧ egress = some pair.2 := by
  unfold srtpPair at h
  split at h
  · obtain rfl := Option.some.inj h
    exact ⟨rfl, rfl⟩
  · contradiction

theorem srtpPair_eq_none (h : srtpPair (br.leg side).srtp (br.leg side.other).srtp = none) :
    ¬ (br.keyed side = true ∧ br.keyed side.other = true) := by
  rintro ⟨hin, hout⟩
  obtain ⟨i, hi⟩ := Option.isSome_iff_exists.mp hin
  obtain ⟨e, he⟩ := Option.isSome_iff_exists.mp hout
  rw [hi, he] at h
  contradiction

theorem rtcpHandle_frame (T : SrtpTransform σ) (br : Bridge σ) (side : Side) (bytes : Bytes) :
    (br.rtcpHandle T side bytes).keyed = br.keyed ∧
      (br.rtcpHandle T side bytes).ssrcToward = br.ssrcToward ∧
      (br.rtcpHandle T side bytes).history = br.history := by
  unfold rtcpHandle
  split
  · exact ⟨rfl, rfl, rfl⟩
  · next keys hkeys => exact ⟨keyed_setSrtp (keyed_of_some hkeys) _, rfl, rfl⟩

/-- The keying of the legs and the SSRCs stay as they were. -/
def Framed (br br' : Bridge σ) : Prop := br'.keyed = br.keyed ∧ br'.ssrcToward = br.ssrcToward

theorem forwardPlain_cases (br : Bridge σ) (side : Side) (packet : Bytes) :
    Framed br (br.forwardPlain side packet) ∧
      ((RtpHeader.parse packet = none ∧ (br.forwardPlain side packet).history = br.history) ∨
        ((RtpHeader.parse packet).isSome = true ∧
          (br.forwardPlain side packet).history = .sent side.other (br.leg side.other).peer
            (setSsrc packet (br.ssrcToward side.other)) :: br.history)) := by
  unfold forwardPlain
  split
  · next hparse => exact ⟨⟨rfl, rfl⟩, Or.inl ⟨hparse, rfl⟩⟩
  · next hdr hparse => exact ⟨⟨rfl, rfl⟩, Or.inr ⟨by rw [hparse]; rfl, rfl⟩⟩

theorem forwardSealed_cases (T : SrtpTransform σ) (egress : LegSrtp σ)
    (hkeyed : br.keyed side.other = true) (packet : Bytes) :
    Framed br (br.forwardSealed T side egress packet) ∧
      ((br.forwardSealed T side egress packet).history = br.history ∨
        ∃ dest ct, (br.forwardSealed T side egress packet).history = .sent side.other dest ct ::
          .sealed side.other (setSsrc packet (br.ssrcToward side.other)) ct :: br.history) := by
  unfold forwardSealed
  split
  · exact ⟨⟨rfl, rfl⟩, Or.inl rfl⟩
  · have hsame : ∀ localTx, (br.setSrtp side.other { egress with localTx := localTx }).keyed =
        br.keyed := fun localTx => keyed_setSrtp hkeyed _
    simp only
    split
    · next ct localTx _ => exact ⟨⟨hsame localTx, rfl⟩, Or.inr ⟨_, ct, rfl⟩⟩
    · next localTx _ => exact ⟨⟨hsame localTx, rfl⟩, Or.inl rfl⟩

theorem outcome_of_received {br' : Bridge σ} {e : BridgeEvent} {side : Side} {bytes : Bytes}
    (h : br'.history = .received side bytes :: br.history) (hmedia : e.isMedia = false) :
    Outcome br br' e := by
  refine .quiet [.received side bytes] h ?_ ?_ ?_
  · simp [Effect.isQuiet]
  · simp [Effect.isCrypto]
  · simp [hmedia]

section

variable (T : SrtpTransform σ) (br : Bridge σ)

theorem forward_outcome (side : Side) (datagram : Bytes) : Framed br (br.forward T side datagram) ∧
      Outcome br (br.forward T side datagram) (.rtp side datagram) := by
  unfold forward
  simp only
  generalize hbytes : datagram.take RTP_BUF = bytes
  split
  · next hrtcp =>
    obtain ⟨hkeyed, hssrc, hhistory⟩ := rtcpHandle_frame T (br.log (.received side bytes)) side bytes
    refine ⟨⟨hkeyed, hssrc⟩, outcome_of_received hhistory ?_⟩
    simp only [BridgeEvent.isMedia, hbytes, hrtcp, Bool.not_true, Bool.false_and]
  · next hrtp =>
    split
    · next hpair =>
      have hunkeyed : ¬ (br.keyed .a = true ∧ br.keyed .b = true) := by
        rw [keyed_both br side]
        exact srtpPair_eq_none hpair
      obtain ⟨hframe, ⟨hparse, hhistory⟩ | ⟨hparse, hhistory⟩⟩ :=
        forwardPlain_cases (br.log (.received side bytes)) side bytes
      · refine ⟨hframe, outcome_of_received hhistory ?_⟩
        simp only [BridgeEvent.isMedia, hbytes, hparse, Option.isSome_none, Bool.and_false]
      · refine ⟨hframe, .plain side bytes _ hunkeyed ?_ hhistory⟩
        simp only [BridgeEvent.isMedia, hbytes, hrtp, hparse, Bool.not_false, Bool.and_true]
    · next ingress egress hpair =>
      obtain ⟨hin, hout⟩ := srtpPair_eq_some hpair
      have hkin : br.keyed side = true := keyed_of_some hin
      have hkout : br.keyed side.other = true := keyed_of_some hout
      have hkeyed := (keyed_both br side).mpr ⟨hkin, hkout⟩
      have hquiet : ∀ {br' : Bridge σ} (new : History), br'.history = new ++ br.history →
          (∀ x ∈ new, x.isQuiet = true) → Outcome br br' (.rtp side datagram) := by
        intro br' new hhistory hsilent
        refine .quiet new hhistory hsilent (fun hmixed => ?_) fun _ => hkeyed
        exact absurd (hkeyed.1.trans hkeyed.2.symm) hmixed
      have hsame : ∀ peerTx, ((br.log (.received side bytes)).setSrtp side
          { ingress with peerTx := peerTx }).keyed = br.keyed := fun peerTx => keyed_setSrtp hkin _
      split
      · next packet peerTx _ =>
        have hkout' : (((br.log (.received side bytes)).setSrtp side
            { ingress with peerTx := peerTx }).log (.unprotected side bytes packet)).keyed
            side.other = true := by
          rw [keyed_log, hsame]
          exact hkout
        obtain ⟨⟨hk, hs⟩, hhistory | ⟨dest, ct, hhistory⟩⟩ :=
          forwardSealed_cases T egress hkout' packet
        · refine ⟨⟨hk.trans (hsame peerTx), hs⟩, hquiet [.unprotected side bytes packet,
            .received side bytes] hhistory (by simp [Effect.isQuiet])⟩
        · exact ⟨⟨hk.trans (hsame peerTx), hs⟩, .resealed side bytes packet ct dest hkeyed hhistory⟩
      · next peerTx _ =>
        exact ⟨⟨hsame peerTx, rfl⟩, hquiet [.received side bytes] rfl (by simp [Effect.isQuiet])⟩

theorem emitReport_outcome (side : Side) (compound : Bytes) :
    Framed br (br.emitReport T side compound) ∧
      Outcome br (br.emitReport T side compound) (.report side compound) := by
  have hquiet : ∀ br' : Bridge σ, br'.history = br.history ∨
      (∃ dest bytes, br'.history = .reported side dest bytes :: br.history) →
      Outcome br br' (.report side compound) := by
    rintro br' (hhistory | ⟨dest, bytes, hhistory⟩)
    · exact .quiet [] hhistory (by simp) (by simp) (by simp [BridgeEvent.isMedia])
    · refine .quiet [.reported side dest bytes] hhistory ?_ ?_ ?_
      · simp [Effect.isQuiet]
      · simp [Effect.isCrypto]
      · simp [BridgeEvent.isMedia]
  unfold emitReport
  split
  · exact ⟨⟨rfl, rfl⟩, hquiet _ (Or.inl rfl)⟩
  · split
    · exact ⟨⟨rfl, rfl⟩, hquiet _ (Or.inr ⟨_, _, rfl⟩)⟩
    · next keys hkeys =>
      have hsame : ∀ localTx, (br.setSrtp side { keys with localTx := localTx }).keyed = br.keyed :=
        fun localTx => keyed_setSrtp (keyed_of_some hkeys) _
      split
      · next ct localTx _ => exact ⟨⟨hsame localTx, rfl⟩, hquiet _ (Or.inr ⟨_, _, rfl⟩)⟩
      · next localTx _ => exact ⟨⟨hsame localTx, rfl⟩, hquiet _ (Or.inl rfl)⟩

/-- **One event**: what it adds to the history, and that it leaves the keying
of the legs alone. -/
theorem step_outcome (e : BridgeEvent) : Framed br (br.step T e) ∧ Outcome br (br.step T e) e := by
  cases e with
  | rtp side datagram => exact forward_outcome T br side datagram
  | report side compound => exact emitReport_outcome T br side compound
  | rtcp side datagram =>
    have hquiet : ∀ br' : Bridge σ, br'.history = br.history →
        Outcome br br' (.rtcp side datagram) := by
      intro br' hhistory
      exact .quiet [] hhistory (by simp) (by simp) (by simp [BridgeEvent.isMedia])
    unfold step
    simp only
    split
    · obtain ⟨hkeyed, hssrc, hhistory⟩ := rtcpHandle_frame T br side (datagram.take RTCP_BUF)
      exact ⟨⟨hkeyed, hssrc⟩, hquiet _ hhistory⟩
    · exact ⟨⟨rfl, rfl⟩, hquiet _ rfl⟩

end

/-! ## contexts in use -/

/-- The context after one more operation. -/
inductive Used (T : SrtpTransform σ) (c : σ) : σ → Prop
  | protectRtp (p : Bytes) : Used T c (T.protectRtp c p).2
  | unprotectRtp (p : Bytes) : Used T c (T.unprotectRtp c p).2
  | protectRtcp (p : Bytes) : Used T c (T.protectRtcp c p).2
  | unprotectRtcp (p : Bytes) : Used T c (T.unprotectRtcp c p).2

/-- The contexts are the same ones, some operations later. -/
structure SameKeys (T : SrtpTransform σ) (k k' : LegSrtp σ) : Prop where
  peerTx : Relation.ReflTransGen (Used T) k.peerTx k'.peerTx
  localTx : Relation.ReflTransGen (Used T) k.localTx k'.localTx

theorem SameKeys.refl (T : SrtpTransform σ) (k : LegSrtp σ) : SameKeys T k k := ⟨.refl, .refl⟩

/-- Both legs go on with the contexts they had. -/
def KeepsKeys (T : SrtpTransform σ) (br br' : Bridge σ) : Prop :=
  ∀ side, Option.Rel (SameKeys T) (br.leg side).srtp (br'.leg side).srtp

theorem KeepsKeys.refl (T : SrtpTransform σ) (br : Bridge σ) : KeepsKeys T br br := by
  intro side
  cases (br.leg side).srtp with
  | none => exact .none
  | some k => exact .some (SameKeys.refl T k)

theorem KeepsKeys.trans {br' br'' : Bridge σ} (h : KeepsKeys T br br') (h' : KeepsKeys T br' br'') :
    KeepsKeys T br br'' := by
  intro side
  have hside := h side
  have hside' := h' side
  generalize (br.leg side).srtp = k at hside
  generalize (br'.leg side).srtp = k' at hside hside'
  generalize (br''.leg side).srtp = k'' at hside'
  cases hside with
  | none =>
    cases hside'
    exact .none
  | some hk =>
    cases hside' with
    | some hk' => exact .some ⟨hk.peerTx.trans hk'.peerTx, hk.localTx.trans hk'.localTx⟩

theorem keepsKeys_setSrtp {k k' : LegSrtp σ} (h : (br.leg side).srtp = some k) (hk : SameKeys T k k') :
    KeepsKeys T br (br.setSrtp side k') := by
  intro s
  by_cases hs : s = side
  · subst hs
    have hnew : ((br.setSrtp s k').leg s).srtp = some k' := by simp [setSrtp, setLeg]
    rw [h, hnew]
    exact .some hk
  · have hold : ((br.setSrtp side k').leg s).srtp = (br.leg s).srtp := by simp [setSrtp, setLeg, hs]
    rw [hold]
    exact KeepsKeys.refl T br s

section

variable (T : SrtpTransform σ)

theorem keepsKeys_rtcpHandle (br : Bridge σ) (side : Side) (bytes : Bytes) :
    KeepsKeys T br (br.rtcpHandle T side bytes) := by
  unfold rtcpHandle
  split
  · exact KeepsKeys.refl T br
  · next keys hkeys => exact keepsKeys_setSrtp hkeys ⟨.single (.unprotectRtcp bytes), .refl⟩

theorem keepsKeys_forwardSealed {egress : LegSrtp σ}
    (h : (br.leg side.other).srtp = some egress) (packet : Bytes) :
    KeepsKeys T br (br.forwardSealed T side egress packet) := by
  unfold forwardSealed
  split
  · exact KeepsKeys.refl T br
  · have hused : ∀ localTx p, localTx = (T.protectRtp egress.localTx p).2 →
        KeepsKeys T br (br.setSrtp side.other { egress with localTx := localTx }) := by
      rintro localTx p rfl
      exact keepsKeys_setSrtp h ⟨.refl, .single (.protectRtp p)⟩
    simp only
    split
    · next ct localTx hresult => exact hused localTx _ (by rw [hresult])
    · next localTx hresult => exact hused localTx _ (by rw [hresult])

theorem keepsKeys_forward (br : Bridge σ) (side : Side) (datagram : Bytes) :
    KeepsKeys T br (br.forward T side datagram) := by
  unfold forward
  simp only
  generalize datagram.take RTP_BUF = bytes
  split
  · exact keepsKeys_rtcpHandle T (br.log (.received side bytes)) side bytes
  · split
    · unfold forwardPlain
      split
      · exact KeepsKeys.refl T br
      · exact KeepsKeys.refl T br
    · next ingress egress hpair =>
      obtain ⟨hin, hout⟩ := srtpPair_eq_some hpair
      have hin : (br.leg side).srtp = some ingress := hin
      have hout : (br.leg side.other).srtp = some egress := hout
      have hused : ∀ peerTx, peerTx = (T.unprotectRtp ingress.peerTx bytes).2 →
          KeepsKeys T br (br.setSrtp side { ingress with peerTx := peerTx }) := by
        rintro peerTx rfl
        exact keepsKeys_setSrtp hin ⟨.single (.unprotectRtp bytes), .refl⟩
      split
      · next packet peerTx hresult =>
        have hother : side.other ≠ side := by cases side <;> decide
        have hout' : ((((br.log (.received side bytes)).setSrtp side
            { ingress with peerTx := peerTx }).log (.unprotected side bytes packet)).leg
            side.other).srtp = some egress := by
          simpa [setSrtp, setLeg, log, hother] using hout
        have hsealed := keepsKeys_forwardSealed T hout' packet
        exact (hused peerTx (by rw [hresult])).trans hsealed
      · next peerTx hresult => exact hused peerTx (by rw [hresult])

theorem keepsKeys_step (br : Bridge σ) (e : BridgeEvent) : KeepsKeys T br (br.step T e) := by
  cases e with
  | rtp side datagram => exact keepsKeys_forward T br side datagram
  | rtcp side datagram =>
    unfold step
    simp only
    split
    · exact keepsKeys_rtcpHandle T br side _
    · exact KeepsKeys.refl T br
  | report side compound =>
    unfold step emitReport
    simp only
    split
    · exact KeepsKeys.refl T br
    · split
      · exact KeepsKeys.refl T br
      · next keys hkeys =>
        have hused : ∀ localTx, localTx = (T.protectRtcp keys.localTx compound).2 →
            KeepsKeys T br (br.setSrtp side { keys with localTx := localTx }) := by
          rintro localTx rfl
          exact keepsKeys_setSrtp hkeys ⟨.refl, .single (.protectRtcp compound)⟩
        split
        · next ct localTx hresult => exact hused localTx (by rw [hresult])
        · next localTx hresult => exact hused localTx (by rw [hresult])

end

/-! ## runs -/

theorem suffix_of_append {x : Effect} {past new old : History} (hx : x ∉ new)
    (h : x :: past <:+ new ++ old) : x :: past <:+ old := by
  induction new with
  | nil => exact h
  | cons y new ih =>
    rw [List.cons_append, List.suffix_cons_iff] at h
    obtain heq | h := h
    · have hxy : x = y := (List.cons.inj heq).1
      exact absurd hxy (List.ne_of_not_mem_cons hx)
    · exact ih (List.not_mem_of_not_mem_cons hx) h

theorem isSent_of_isQuiet {x : Effect} (h : x.isQuiet = true) : x.isSent = false := by
  cases x with
  | sent leg dest bytes => contradiction
  | _ => rfl

theorem not_mem_of_silent {new : History} (hsilent : ∀ x ∈ new, x.isQuiet = true) (side : Side)
    (dest : SocketAddr) (datagram : Bytes) : Effect.sent side dest datagram ∉ new := by
  intro hmem
  have hsent := hsilent _ hmem
  contradiction

theorem decoded_not_mem_step (T : SrtpTransform σ) (e : BridgeEvent) {packet : Bytes}
    (h : Effect.decoded side packet ∉ br.history) :
    Effect.decoded side packet ∉ (br.step T e).history := by
  obtain ⟨_, hcases⟩ := step_outcome T br e
  cases hcases with
  | quiet new history silent _ _ =>
    rw [history, List.mem_append]
    rintro (hnew | hold)
    · have hquiet := silent _ hnew
      contradiction
    · exact h hold
  | plain side' packet' dest _ _ history =>
    rw [history]
    simp [h]
  | resealed side' bytes packet' ct dest _ history =>
    rw [history]
    simp [h]

section

variable (T : SrtpTransform σ) (br : Bridge σ)

theorem history_suffix_step (e : BridgeEvent) : br.history <:+ (br.step T e).history := by
  obtain ⟨_, hcases⟩ := step_outcome T br e
  cases hcases with
  | quiet new history _ _ _ => exact ⟨new, history.symm⟩
  | plain side packet dest _ _ history => exact ⟨[_, _], history.symm⟩
  | resealed side bytes packet ct dest _ history => exact ⟨[_, _, _, _], history.symm⟩

theorem history_suffix_run (events : List BridgeEvent) :
    br.history <:+ (br.run T events).history := by
  induction events generalizing br with
  | nil => exact List.suffix_rfl
  | cons e es ih => exact (history_suffix_step T br e).trans (ih (br.step T e))

theorem framed_run (events : List BridgeEvent) : Framed br (br.run T events) := by
  induction events generalizing br with
  | nil => exact ⟨rfl, rfl⟩
  | cons e es ih =>
    obtain ⟨hkeyed, hssrc⟩ := (step_outcome T br e).1
    obtain ⟨hkeyed', hssrc'⟩ := ih (br.step T e)
    exact ⟨hkeyed'.trans hkeyed, hssrc'.trans hssrc⟩

end

theorem Confidential.step (h : br.Confidential) (halike : br.keyed .a = br.keyed .b)
    (e : BridgeEvent) : (br.step T e).Confidential := by
  obtain ⟨⟨hkeyed, hssrc⟩, hcases⟩ := step_outcome T br e
  intro side dest datagram past hsent
  rw [hkeyed, hssrc]
  cases hcases with
  | quiet new history silent _ _ =>
    rw [history] at hsent
    exact h side dest datagram past
      (suffix_of_append (not_mem_of_silent silent side dest datagram) hsent)
  | plain side' packet dest' unkeyed _ history =>
    have hnone : br.keyed .a = false ∧ br.keyed .b = false := by
      rw [halike] at unkeyed ⊢
      simpa using unkeyed
    have hplain : ∀ s, br.keyed s = false := by
      rintro (_ | _)
      · exact hnone.1
      · exact hnone.2
    rw [history, List.suffix_cons_iff] at hsent
    obtain heq | hsent := hsent
    · simp only [List.cons.injEq, Effect.sent.injEq] at heq
      obtain ⟨⟨rfl, _, rfl⟩, rfl⟩ := heq
      refine ⟨packet, ?_, ?_⟩
      · have hother : side'.other.other = side' := by cases side' <;> rfl
        rw [ReceivedClear, hother, hplain]
        simp
      · rw [hplain]
        simp
    · rw [List.suffix_cons_iff] at hsent
      obtain heq | hsent := hsent
      · simp at heq
      · exact h side dest datagram past hsent
  | resealed side' bytes packet ct dest' keyed history =>
    have hall : ∀ s, br.keyed s = true := by
      rintro (_ | _)
      · exact keyed.1
      · exact keyed.2
    rw [history, List.suffix_cons_iff] at hsent
    obtain heq | hsent := hsent
    · simp only [List.cons.injEq, Effect.sent.injEq] at heq
      obtain ⟨⟨rfl, _, rfl⟩, rfl⟩ := heq
      refine ⟨packet, ?_, ?_⟩
      · have hother : side'.other.other = side' := by cases side' <;> rfl
        rw [ReceivedClear, hother, hall]
        simp only [if_true]
        exact ⟨bytes, by simp, by simp⟩
      · rw [hall]
        simp
    · have hnew : Effect.sent side dest datagram ∉
          [Effect.sealed side'.other (setSsrc packet (br.ssrcToward side'.other)) ct,
            .unprotected side' bytes packet, .received side' bytes] := by simp
      exact h side dest datagram past (suffix_of_append hnew hsent)

theorem confidential_run (T : SrtpTransform σ) (h : br.Confidential)
    (halike : br.keyed .a = br.keyed .b) (events : List BridgeEvent) :
    (br.run T events).Confidential := by
  induction events generalizing br with
  | nil => exact h
  | cons e es ih =>
    have hkeyed := (step_outcome T br e).1.1
    refine ih (h.step halike e) ?_
    rw [hkeyed]
    exact halike

section

variable (T : SrtpTransform σ) (hmixed : br.keyed .a ≠ br.keyed .b)
include hmixed

theorem mixed_step (e : BridgeEvent) :
    (∀ x ∈ br.history, x.isCrypto = false) → ∀ x ∈ (br.step T e).history, x.isCrypto = false := by
  intro hraw x hx
  obtain ⟨_, hcases⟩ := step_outcome T br e
  cases hcases with
  | quiet new history _ raw _ =>
    rw [history, List.mem_append] at hx
    obtain hx | hx := hx
    · exact raw hmixed x hx
    · exact hraw x hx
  | plain side packet dest _ _ history =>
    rw [history, List.mem_cons, List.mem_cons] at hx
    obtain rfl | rfl | hx := hx
    · rfl
    · rfl
    · exact hraw x hx
  | resealed side bytes packet ct dest keyed history =>
    exact absurd (keyed.1.trans keyed.2.symm) hmixed

theorem mixed_run (hraw : ∀ x ∈ br.history, x.isCrypto = false) (events : List BridgeEvent) :
    ∀ x ∈ (br.run T events).history, x.isCrypto = false := by
  induction events generalizing br with
  | nil => exact hraw
  | cons e es ih =>
    have hkeyed := (step_outcome T br e).1.1
    refine ih ?_ (mixed_step T hmixed e hraw)
    rw [hkeyed]
    exact hmixed

/-- Without media nothing is sent between legs of which one is keyed. -/
theorem silent_run (hsilent : ∀ x ∈ br.history, x.isSent = false) {events : List BridgeEvent}
    (hmedia : ∀ e ∈ events, e.isMedia = false) :
    ∀ x ∈ (br.run T events).history, x.isSent = false := by
  induction events generalizing br with
  | nil => exact hsilent
  | cons e es ih =>
    obtain ⟨⟨hkeyed, _⟩, hcases⟩ := step_outcome T br e
    have hquiet := hmedia e List.mem_cons_self
    refine ih ?_ ?_ fun e' he' => hmedia e' (List.mem_cons_of_mem e he')
    · rw [hkeyed]
      exact hmixed
    · intro x hx
      cases hcases with
      | quiet new history silent _ _ =>
        rw [history, List.mem_append] at hx
        obtain hx | hx := hx
        · exact isSent_of_isQuiet (silent x hx)
        · exact hsilent x hx
      | plain side packet dest _ media history =>
        rw [hquiet] at media
        contradiction
      | resealed side bytes packet ct dest keyed history =>
        exact absurd (keyed.1.trans keyed.2.symm) hmixed

theorem sent_of_media {e : BridgeEvent} (hmedia : e.isMedia = true) :
    ∃ side dest packet, (br.step T e).history = .sent side.other dest
      (setSsrc packet (br.ssrcToward side.other)) :: .received side packet :: br.history := by
  obtain ⟨_, hcases⟩ := step_outcome T br e
  cases hcases with
  | quiet new history _ _ media =>
    have hkeyed := media hmedia
    exact absurd (hkeyed.1.trans hkeyed.2.symm) hmixed
  | plain side packet dest _ _ history => exact ⟨side, dest, packet, history⟩
  | resealed side bytes packet ct dest keyed history =>
    exact absurd (keyed.1.trans keyed.2.symm) hmixed

end

/-- No datagram between legs of which one is keyed is explained without the
work of a context. -/
theorem not_explained {keyed : Side → Bool} {ssrcToward : Side → UInt32} {past : History}
    {datagram : Bytes} (hmixed : keyed .a ≠ keyed .b) (hraw : ∀ x ∈ past, x.isCrypto = false) :
    ¬ Explained keyed ssrcToward past side datagram := by
  rintro ⟨packet, hclear, hsealed⟩
  unfold ReceivedClear at hclear
  have hone : keyed side = true ∨ keyed side.other = true := by
    cases side <;> cases ha : keyed .a <;> cases hb : keyed .b <;> simp_all [Side.other]
  obtain hkeyed | hkeyed := hone
  · rw [hkeyed, if_pos rfl] at hsealed
    have hcrypto := hraw _ hsealed
    contradiction
  · rw [hkeyed, if_pos rfl] at hclear
    obtain ⟨ct, _, hunprotected⟩ := hclear
    have hcrypto := hraw _ hunprotected
    contradiction

theorem confidential_of_alike (T : SrtpTransform σ) (hstart : br.history = [])
    (halike : br.keyed .a = br.keyed .b) (events : List BridgeEvent) :
    (br.run T events).Confidential := by
  refine confidential_run T (fun side dest datagram past hsent => ?_) halike events
  rw [hstart] at hsent
  exact absurd (List.suffix_nil.mp hsent) (List.cons_ne_nil _ _)

/-- A media datagram between legs of which one is keyed is not explained. -/
theorem not_confidential (T : SrtpTransform σ) (hstart : br.history = [])
    (hmixed : br.keyed .a ≠ br.keyed .b) {events : List BridgeEvent} {e : BridgeEvent}
    (he : e ∈ events) (hmedia : e.isMedia = true) : ¬ (br.run T events).Confidential := by
  intro h
  obtain ⟨before, after, rfl⟩ := List.append_of_mem he
  have hrun : br.run T (before ++ e :: after) = ((br.run T before).step T e).run T after := by
    simp only [run, List.foldl_append, List.foldl_cons]
  -- the bridge when the datagram arrives, and what is left of it at the end
  have hkeyed := (framed_run T br before).1
  have hraw := mixed_run T hmixed (by simp [hstart]) before
  have hmixed' : (br.run T before).keyed .a ≠ (br.run T before).keyed .b := by
    rw [hkeyed]
    exact hmixed
  obtain ⟨side, dest, packet, hsent⟩ := sent_of_media T hmixed' hmedia
  have hend := history_suffix_run T ((br.run T before).step T e) after
  rw [hsent, ← hrun] at hend
  have hfinal := (framed_run T br (before ++ e :: after)).1
  refine not_explained ?_ ?_ (h _ _ _ _ hend)
  · rw [hfinal]
    exact hmixed
  · intro x hx
    rw [List.mem_cons] at hx
    obtain rfl | hx := hx
    · rfl
    · exact hraw x hx

end Bridge

/-- **Confidentiality of the bridge**: every media datagram it sends is
explained by the contexts of its legs exactly when both legs have contexts or
neither has, or no datagram of the run is media. -/
theorem bridge_confidential {σ : Type} (T : SrtpTransform σ) (a b : Leg σ)
    (ssrcTowardA ssrcTowardB : UInt32) (events : List BridgeEvent) :
    ((Bridge.spawn a b ssrcTowardA ssrcTowardB).run T events).Confidential ↔
      a.srtp.isSome = b.srtp.isSome ∨ ∀ e ∈ events, e.isMedia = false := by
  generalize hbr : Bridge.spawn a b ssrcTowardA ssrcTowardB = br
  have hstart : br.history = [] := by
    rw [← hbr]
    rfl
  have hkeyed : (a.srtp.isSome = b.srtp.isSome) = (br.keyed .a = br.keyed .b) := by
    rw [← hbr]
    rfl
  rw [hkeyed]
  constructor
  · intro h
    by_contra hnot
    obtain ⟨hmixed, hmedia⟩ := not_or.mp hnot
    simp only [not_forall, Bool.not_eq_false] at hmedia
    obtain ⟨e, he, hmedia⟩ := hmedia
    exact Bridge.not_confidential T hstart hmixed he hmedia h
  · intro h
    by_cases halike : br.keyed .a = br.keyed .b
    · exact Bridge.confidential_of_alike T hstart halike events
    · intro side dest datagram past hsent
      have hsilent := Bridge.silent_run T halike (by simp [hstart]) (h.resolve_left halike)
      have hsent := hsilent _ (hsent.subset List.mem_cons_self)
      contradiction

/-- Contexts that append and strip a byte: enough to tell sealed packets from plain ones. -/
def tagTransform : SrtpTransform Unit where
  protectRtp _ p := (.ok (p ++ [0xFF]), ())
  unprotectRtp _ c := (if c.getLast? = some 0xFF then .ok c.dropLast else .error .authFailed, ())
  protectRtcp _ p := (.ok (p ++ [0xFF]), ())
  unprotectRtcp _ c := (if c.getLast? = some 0xFF then .ok c.dropLast else .error .authFailed, ())

def samplePeer : SocketAddr := .v4 0x7F000001#32 4000

def plainLeg : Leg Unit := ⟨samplePeer, none, none⟩

def keyedLeg : Leg Unit := ⟨samplePeer, none, some ⟨(), ()⟩⟩

/-- A PCMU packet of two samples. -/
def samplePacket : Bytes := rtpHeaderBytes false 0 1 160 7 ++ [0x11, 0x22]

/-- A packet from a plain leg reaches the keyed one in the clear. -/
theorem bridge_leaks :
    ¬ ((Bridge.spawn plainLeg keyedLeg 1 2).run tagTransform [.rtp .a samplePacket]).Confidential :=
  Bridge.not_confidential tagTransform rfl (by decide) List.mem_cons_self (by decide +kernel)

end SmithsNet.Media
