import SmithsNet.Media.Bridge
import SmithsNet.Media.Jitter

/-!
# SmithsNet.Media.Sessions

The sessions that decode audio: the transcoded session between two legs
(`smiths-media/src/transcoded.rs`) and the conference participant
(`smiths-mixer/src/participant.rs`), with the G.711 codecs both use
(`smiths-core/src/codec.rs`, `smiths-transcode/src/codec.rs`).

Neither has a place for SRTP contexts: every packet is decoded as it came in
and sent as it was encoded.
-/

namespace SmithsNet.Media

open Lib SmithsNet.Core

/-! ## G.711 -/

inductive G711Variant
  | pcmu
  | pcma

namespace G711

def BIAS : Int16 := 0x84

def CLIP : Int16 := 32635

/-- Position of the highest bit above the bias. -/
def ulawExponent (mag : UInt16) : Nat → UInt16 → Nat
  | 0, _ => 0
  | exponent + 1, mask =>
    if mag &&& mask = 0 then ulawExponent mag exponent (mask >>> 1) else exponent + 1

def linearToUlaw (pcm : Int16) : UInt8 :=
  let sign : UInt8 := if pcm < 0 then 0x80 else 0
  let pcm := if pcm < 0 then -pcm else pcm
  let pcm := if pcm > CLIP then CLIP else pcm
  let mag := (pcm + BIAS).toUInt16
  let exponent := ulawExponent mag 7 0x4000
  let mantissa := ((mag >>> UInt16.ofNat (exponent + 3)) &&& 0x0F).toUInt8
  ~~~(sign ||| (UInt8.ofNat exponent <<< 4) ||| mantissa)

def ulawToLinear (ulaw : UInt8) : Int16 :=
  let u := ~~~ulaw
  let sign := u &&& 0x80
  let exponent := (u >>> 4) &&& 0x07
  let mantissa := u &&& 0x0F
  let magnitude := ((Int16.ofNat mantissa.toNat <<< 3) + BIAS) <<< Int16.ofNat exponent.toNat
  let sample := magnitude - BIAS
  if sign ≠ 0 then -sample else sample

/-- Segment of a sample, from its magnitude shifted down. -/
def alawSegment : Nat → Int16 → Nat → Nat
  | 0, _, seg => seg
  | rounds + 1, scaled, seg =>
    if scaled > 1 ∧ seg < 7 then alawSegment rounds (scaled >>> 1) (seg + 1) else seg

def linearToAlaw (pcm : Int16) : UInt8 :=
  let sign : UInt8 := if pcm ≥ 0 then 0x80 else 0
  let pcm := if pcm ≥ 0 then pcm else -(pcm + 1)
  let pcm := if pcm < 0 then 0 else pcm
  let coded : UInt8 × UInt8 :=
    if pcm < 256 then (0, ((pcm >>> 4) &&& 0x0F).toUInt16.toUInt8)
    else
      let seg := alawSegment 6 (pcm >>> 8) 1
      (UInt8.ofNat seg, ((pcm >>> Int16.ofNat (seg + 3)) &&& 0x0F).toUInt16.toUInt8)
  (sign ||| (coded.1 <<< 4) ||| coded.2) ^^^ 0x55

def alawToLinear (alaw : UInt8) : Int16 :=
  let a := alaw ^^^ 0x55
  let sign := a &&& 0x80
  let exponent := (a &&& 0x70) >>> 4
  let mantissa := a &&& 0x0F
  let magnitude :=
    if exponent = 0 then (Int16.ofNat mantissa.toNat <<< 4) ||| 0x08
    else ((Int16.ofNat mantissa.toNat <<< 4) ||| 0x108) <<< Int16.ofNat (exponent.toNat - 1)
  if sign ≠ 0 then magnitude else -magnitude

def decode : G711Variant → Bytes → List Int16
  | .pcmu, payload => payload.map ulawToLinear
  | .pcma, payload => payload.map alawToLinear

def encode : G711Variant → List Int16 → Bytes
  | .pcmu, samples => samples.map linearToUlaw
  | .pcma, samples => samples.map linearToAlaw

def payloadType : G711Variant → UInt8
  | .pcmu => 0
  | .pcma => 8

/-- Samples, and ticks of the RTP clock, in a frame of 20 ms. -/
def FRAME : Nat := 160

end G711

/-- The receive buffer of a session that decodes. -/
def SESSION_BUF : Nat := 1500

/-! ## the transcoded session -/

structure TranscodedLeg where
  peer : SocketAddr
  variant : G711Variant

/-- State of the task that sends to a leg. -/
structure Egress where
  ssrc : UInt32
  seq : UInt16
  ts : UInt32
  talkspurtStart : Bool := true

structure TranscodedSession where
  leg : Side → TranscodedLeg
  /-- The buffer for what the leg sends. -/
  jitter : Side → JitterBuffer
  /-- The stream to the leg. -/
  egress : Side → Egress
  history : History

inductive TranscodedEvent
  /-- A datagram on the leg's socket. -/
  | rtp (leg : Side) (datagram : Bytes)
  /-- The frame clock of the stream to the leg. -/
  | tick (leg : Side)

namespace TranscodedSession

def spawn (a b : TranscodedLeg) (towardA towardB : Egress) : TranscodedSession where
  leg
    | .a => a
    | .b => b
  jitter _ := JitterBuffer.withConfig G711.FRAME {}
  egress
    | .a => towardA
    | .b => towardB
  history := []

/-- Receive, decode, buffer. -/
def ingress (t : TranscodedSession) (side : Side) (datagram : Bytes) : TranscodedSession :=
  let bytes := datagram.take SESSION_BUF
  let t := { t with history := .received side bytes :: t.history }
  match RtpHeader.parse bytes with
  | none => t
  | some hdr =>
    if hdr.payloadType ≠ G711.payloadType (t.leg side).variant then t
    else
      let pcm := G711.decode (t.leg side).variant (hdr.payload bytes)
      { t with
        jitter := fun s => if s = side then ((t.jitter s).insert hdr.sequence pcm).2 else t.jitter s
        history := .decoded side bytes :: t.history }

/-- Tick, pull, encode, send. -/
def send (fade : Fade) (t : TranscodedSession) (side : Side) : TranscodedSession :=
  let (frame, jb) := (t.jitter side.other).tick fade
  let e := t.egress side
  let t := { t with jitter := fun s => if s = side.other then jb else t.jitter s }
  match frame with
  | none =>
    { t with egress := fun s => if s = side then { e with talkspurtStart := true } else t.egress s }
  | some pcm =>
    let variant := (t.leg side).variant
    let packet := rtpHeaderBytes e.talkspurtStart (G711.payloadType variant) e.seq e.ts e.ssrc ++
      G711.encode variant pcm
    { t with
      egress := fun s =>
        if s = side then
          { e with seq := e.seq + 1, ts := e.ts + UInt32.ofNat G711.FRAME, talkspurtStart := false }
        else t.egress s
      history := .sent side (t.leg side).peer packet :: t.history }

def step (fade : Fade) (t : TranscodedSession) : TranscodedEvent → TranscodedSession
  | .rtp side datagram => t.ingress side datagram
  | .tick side => t.send fade side

end TranscodedSession

/-! ## the conference participant -/

structure ParticipantSession where
  peer : SocketAddr
  samplesPerFrame : Nat
  ssrc : UInt32
  seq : UInt16
  ts : UInt32
  /-- A packet has gone out. -/
  started : Bool := false
  history : History := []

inductive ParticipantEvent
  /-- A datagram on the leg's socket. -/
  | rtp (datagram : Bytes)
  /-- A frame from the mixer, with the number of frames missed since the last. -/
  | mixed (samples : List Int16) (missed : UInt32)

namespace ParticipantSession

/-- Receive, decode, hand to the mixer. -/
def ingress (p : ParticipantSession) (datagram : Bytes) : ParticipantSession :=
  let bytes := datagram.take SESSION_BUF
  let p := { p with history := .received .a bytes :: p.history }
  match RtpHeader.parse bytes with
  | none => p
  | some hdr =>
    if hdr.payloadType ≠ G711.payloadType .pcmu then p
    else if (hdr.payload bytes).length ≠ p.samplesPerFrame then p
    else { p with history := .decoded .a bytes :: p.history }

/-- A mixed frame goes out. -/
def send (p : ParticipantSession) (samples : List Int16) (missed : UInt32) : ParticipantSession :=
  let frameTicks := UInt32.ofNat samples.length
  let missed := if p.started then missed else 0
  let marker := !p.started || decide (0 < missed)
  let ts := p.ts + missed * frameTicks
  let packet := rtpHeaderBytes marker (G711.payloadType .pcmu) p.seq ts p.ssrc ++
    G711.encode .pcmu samples
  { p with
    started := true
    seq := p.seq + 1
    ts := ts + frameTicks
    history := .sent .a p.peer packet :: p.history }

def step (p : ParticipantSession) : ParticipantEvent → ParticipantSession
  | .rtp datagram => p.ingress datagram
  | .mixed samples missed => p.send samples missed

end ParticipantSession

end SmithsNet.Media
