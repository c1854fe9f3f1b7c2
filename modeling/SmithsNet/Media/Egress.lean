import Mathlib
import SmithsNet.Lib.Mealy
import SmithsNet.Lib.Neighbours
import SmithsNet.Media.RtpPacket
import SmithsNet.Media.Sessions

/-!
# SmithsNet.Media.Egress

The stream a transcoded session sends to one peer (`spawn_egress` of
`smiths-media/src/transcoded.rs`): on each tick of the frame clock the task pulls a frame out
of the jitter buffer, encodes it and sends it under a header of its own.

The encoder is a parameter, and so are the moments at which frames are inserted.  The
timestamp advances with each packet and not with each tick, so that it stands still while
nothing is sent.

* `outputs_direction` — the headers depend on which ticks have a frame, and on nothing else;
* `egress_stream` — the sequence numbers, the markers, and when the timestamps keep time.
-/

namespace SmithsNet.Media

open Lib

variable {ε : Type}

/-! ## the task -/

/-- `Codec::encode_into`, with the state of the codec. -/
abbrev EncodeInto (ε : Type) := ε → List Int16 → Except String Bytes × ε

/-- What the task is spawned with; the interval is in nanoseconds. -/
structure EgressParams where
  payloadType : UInt8
  clockRate : UInt32
  frameInterval : Nat

/-- Timestamp advance per frame. -/
def EgressParams.tsStep (p : EgressParams) : UInt32 :=
  let step := p.clockRate.toNat * (p.frameInterval / 10 ^ 6) / 1000
  if step < 2 ^ 32 then UInt32.ofNat step else 160

/-- One direction of a session: its jitter buffer, and the encoder and the stream it feeds. -/
structure Direction (ε : Type) where
  jitter : JitterBuffer
  encoder : ε
  egress : Egress

/-- What comes of a tick; a packet is sent when it is handed to the socket. -/
inductive Tick
  | noFrame
  | rejected (reason : String)
  | sent (packet : Bytes)
  deriving DecidableEq

/-- Tick, pull, encode, send. -/
def Direction.tick (fade : Fade) (encodeInto : EncodeInto ε) (p : EgressParams) (d : Direction ε) :
    Direction ε × Tick :=
  match d.jitter.tick fade with
  | (none, jb) =>
    ({ d with jitter := jb, egress := { d.egress with talkspurtStart := true } }, .noFrame)
  | (some pcm, jb) =>
    let e := d.egress
    let header := rtpHeaderBytes e.talkspurtStart p.payloadType e.seq e.ts e.ssrc
    match encodeInto d.encoder pcm with
    | (.error reason, encoder) => ({ d with jitter := jb, encoder := encoder }, .rejected reason)
    | (.ok payload, encoder) =>
      ({ d with
          jitter := jb
          encoder := encoder
          egress := { e with talkspurtStart := false, seq := e.seq + 1, ts := e.ts + p.tsStep } },
        .sent (header ++ payload))

inductive DirectionEvent
  /-- The ingress task has decoded a frame. -/
  | insert (seq : UInt16) (pcm : List Int16)
  | tick

/-- The direction as a machine that tells what comes of each tick. -/
def direction (fade : Fade) (encodeInto : EncodeInto ε) (p : EgressParams) :
    Mealy (Direction ε) DirectionEvent Tick
  | d, .insert seq pcm => ({ d with jitter := (d.jitter.insert seq pcm).2 }, [])
  | d, .tick => ((d.tick fade encodeInto p).1, [(d.tick fade encodeInto p).2])

/-! ## the frames and their headers -/

/-- What the buffer and the encoder have for a tick. -/
inductive Pulled
  | noFrame
  | rejected (reason : String)
  | encoded (payload : Bytes)

open Pulled

def Pulled.isEncoded : Pulled → Bool
  | .encoded _ => true
  | .noFrame | .rejected _ => false

def Pulled.isNoFrame : Pulled → Bool
  | .noFrame => true
  | .rejected _ | .encoded _ => false

/-- The frames alone. -/
def pulls (fade : Fade) (encodeInto : EncodeInto ε) : Mealy (JitterBuffer × ε) DirectionEvent Pulled
  | (jb, encoder), .insert seq pcm => (((jb.insert seq pcm).2, encoder), [])
  | (jb, encoder), .tick =>
    match jb.tick fade with
    | (none, jb) => ((jb, encoder), [.noFrame])
    | (some pcm, jb) =>
      match encodeInto encoder pcm with
      | (.error reason, encoder) => ((jb, encoder), [.rejected reason])
      | (.ok payload, encoder) => ((jb, encoder), [.encoded payload])

/-- The header a frame is sent under. -/
def Egress.stamp (p : EgressParams) (e : Egress) : Pulled → Tick
  | .noFrame => .noFrame
  | .rejected reason => .rejected reason
  | .encoded payload =>
    .sent (rtpHeaderBytes e.talkspurtStart p.payloadType e.seq e.ts e.ssrc ++ payload)

/-- The stream after a tick. -/
def Egress.next (p : EgressParams) (e : Egress) : Pulled → Egress
  | .noFrame => { e with talkspurtStart := true }
  | .rejected _ => e
  | .encoded _ => { e with talkspurtStart := false, seq := e.seq + 1, ts := e.ts + p.tsStep }

/-- The headers alone. -/
def stamps (p : EgressParams) : Mealy Egress Pulled Tick := fun e x => (e.next p x, [e.stamp p x])

theorem outputs_direction (fade : Fade) (encodeInto : EncodeInto ε) (p : EgressParams)
    (d : Direction ε) (events : List DirectionEvent) :
    (direction fade encodeInto p).outputs d events =
      (stamps p).outputs d.egress ((pulls fade encodeInto).outputs (d.jitter, d.encoder) events) := by
  induction events generalizing d with
  | nil => rfl
  | cons event events ih =>
    rw [Mealy.outputs, Mealy.outputs, Mealy.outputs_append, ih]
    cases event with
    | insert seq pcm => rfl
    | tick =>
      simp only [direction, Direction.tick, pulls]
      obtain ⟨frame, jb⟩ := d.jitter.tick fade
      cases frame with
      | none => rfl
      | some pcm =>
        dsimp only
        obtain ⟨result, encoder⟩ := encodeInto d.encoder pcm
        cases result <;> rfl

/-- The transcoded session's own step is this one, with the codec of the leg and the clock of
G.711. -/
theorem send_eq_tick (fade : Fade) (t : TranscodedSession) (side : Side) :
    let variant := (t.leg side).variant
    let d := Direction.tick fade (fun _ pcm => (.ok (G711.encode variant pcm), ()))
      ⟨G711.payloadType variant, 8000, 20000000⟩ ⟨t.jitter side.other, (), t.egress side⟩
    (t.send fade side).egress side = d.1.egress ∧
      (t.send fade side).jitter side.other = d.1.jitter ∧
      (t.send fade side).history =
        match d.2 with
        | .sent packet => .sent side (t.leg side).peer packet :: t.history
        | _ => t.history := by
  intro variant d
  have hstep : EgressParams.tsStep ⟨G711.payloadType variant, 8000, 20000000⟩ = 160 := by
    simp [EgressParams.tsStep]
  simp only [d, TranscodedSession.send, Direction.tick]
  obtain ⟨frame, jb⟩ := (t.jitter side.other).tick fade
  cases frame with
  | none => exact ⟨if_pos rfl, if_pos rfl, rfl⟩
  | some pcm =>
    dsimp only
    rw [if_pos rfl, if_pos rfl, hstep]
    exact ⟨rfl, rfl, rfl⟩

/-! ## the stream -/

section Stream

variable {p : EgressParams} {e : Egress} {pulled : List Pulled} {i j : Nat}

/-- After some ticks the stream has advanced by the frames there were. -/
theorem stateAfter_stamps (p : EgressParams) (e : Egress) (pulled : List Pulled) :
    ((stamps p).stateAfter e pulled).ssrc = e.ssrc ∧
      ((stamps p).stateAfter e pulled).seq = e.seq + UInt16.ofNat (pulled.countP isEncoded) ∧
      ((stamps p).stateAfter e pulled).ts =
        e.ts + UInt32.ofNat (pulled.countP isEncoded) * p.tsStep := by
  induction pulled generalizing e with
  | nil => exact ⟨rfl, (UInt16.add_zero _).symm, by simp [Mealy.stateAfter]⟩
  | cons x pulled ih =>
    rw [Mealy.stateAfter]
    obtain ⟨hssrc, hseq, hts⟩ := ih (e.next p x)
    rw [show ((stamps p) e x).1 = e.next p x from rfl, hssrc, hseq, hts]
    cases x with
    | noFrame => exact ⟨rfl, rfl, rfl⟩
    | rejected reason => exact ⟨rfl, rfl, rfl⟩
    | encoded payload =>
      rw [List.countP_cons_of_pos rfl, UInt16.ofNat_add, UInt32.ofNat_add]
      refine ⟨rfl, ?_, ?_⟩
      · show e.seq + 1 + _ = _
        grind
      · show e.ts + p.tsStep + _ = _
        grind

/-- A talkspurt is to start when behind every frame that has gone out there is a tick without
one. -/
theorem talkspurtStart_stamps (he : e.talkspurtStart = true) :
    ((stamps p).stateAfter e pulled).talkspurtStart = true ↔
      ∀ k, MarkedAt isEncoded pulled k → ∃ k', k < k' ∧ MarkedAt isNoFrame pulled k' := by
  induction pulled using List.reverseRecOn with
  | nil =>
    refine iff_of_true he ?_
    rintro k ⟨_, hk, -⟩
    contradiction
  | append_singleton pulled x ih =>
    have hnext : (stamps p).stateAfter e (pulled ++ [x]) = ((stamps p).stateAfter e pulled).next p x := by
      rw [Mealy.stateAfter_append]
      rfl
    rw [hnext]
    cases x with
    | noFrame =>
      refine iff_of_true rfl fun k hk => ⟨pulled.length, ?_, markedAt_concat.mpr (.inr ⟨rfl, rfl⟩)⟩
      exact ((markedAt_concat.mp hk).resolve_right fun h => Bool.noConfusion h.2).lt_length
    | rejected reason =>
      have hsame : ∀ {q : Pulled → Bool} (k : Nat), q (.rejected reason) = false →
          (MarkedAt q (pulled ++ [.rejected reason]) k ↔ MarkedAt q pulled k) := by
        intro q k hq
        rw [markedAt_concat, hq]
        simp
      simp only [hsame _ (rfl : isEncoded (.rejected reason) = false),
        hsame _ (rfl : isNoFrame (.rejected reason) = false)]
      exact ih
    | encoded payload =>
      refine iff_of_false Bool.false_ne_true fun hall => ?_
      obtain ⟨k', hlt, hk'⟩ := hall pulled.length (markedAt_concat.mpr (.inr ⟨rfl, rfl⟩))
      obtain hk' | ⟨rfl, -⟩ := markedAt_concat.mp hk'
      · exact absurd hk'.lt_length (Nat.not_lt.mpr (Nat.le_of_lt hlt))
      · exact Nat.lt_irrefl _ hlt

end Stream

/-! ## what the peer sees -/

/-- A packet goes out at a tick. -/
def SentAt (ticks : List Tick) (i : Nat) (packet : RtpPacket) : Prop :=
  ∃ bytes, ticks[i]? = some (.sent bytes) ∧ RtpPacket.decode bytes = some packet

/-- In units of `10⁻⁹`, the timestamps of two packets are `n` intervals of the clock apart. -/
def EgressParams.Apart (p : EgressParams) (n : Nat) (x y : RtpPacket) : Prop :=
  10 ^ 9 * (y.timestamp - x.timestamp).toNat ≡ n * (p.clockRate.toNat * p.frameInterval)
    [MOD 10 ^ 9 * 2 ^ 32]

/-- One step of the timestamp is `n` intervals of the clock. -/
def EgressParams.Steady (p : EgressParams) (n : Nat) : Prop :=
  10 ^ 9 * p.tsStep.toNat ≡ n * (p.clockRate.toNat * p.frameInterval) [MOD 10 ^ 9 * 2 ^ 32]

instance (p : EgressParams) (n : Nat) : Decidable (p.Steady n) :=
  inferInstanceAs (Decidable (_ % _ = _ % _))

/-- Where the step is exact, an interval more is one too many, but for a whole turn of the
timestamp. -/
theorem steady_iff_of_exact {p : EgressParams}
    (hexact : 10 ^ 9 * p.tsStep.toNat = p.clockRate.toNat * p.frameInterval) (skipped : Nat) :
    p.Steady (skipped + 1) ↔ 2 ^ 32 ∣ skipped * p.tsStep.toNat := by
  have hsum : (skipped + 1) * (p.clockRate.toNat * p.frameInterval) =
      10 ^ 9 * p.tsStep.toNat + 10 ^ 9 * (skipped * p.tsStep.toNat) := by
    rw [← hexact]
    ring
  rw [EgressParams.Steady, hsum]
  constructor
  · intro h
    have hzero : 10 ^ 9 * (skipped * p.tsStep.toNat) ≡ 0 [MOD 10 ^ 9 * 2 ^ 32] :=
      Nat.ModEq.add_left_cancel' (10 ^ 9 * p.tsStep.toNat) h.symm
    exact (Nat.mul_dvd_mul_iff_left (by decide)).mp (Nat.modEq_zero_iff_dvd.mp hzero)
  · intro h
    have hzero := Nat.modEq_zero_iff_dvd.mpr (Nat.mul_dvd_mul_left (10 ^ 9) h)
    exact (Nat.ModEq.add_left (10 ^ 9 * p.tsStep.toNat) hzero).symm

section Packets

variable {p : EgressParams} {e : Egress} {pulled : List Pulled} {i j : Nat} {x y : RtpPacket}

/-- The packet a stream sends at a tick that has a frame. -/
def Egress.packetAt (p : EgressParams) (e : Egress) (pulled : List Pulled) (i : Nat) (payload : Bytes) :
    RtpPacket where
  marker := ((stamps p).stateAfter e (pulled.take i)).talkspurtStart
  payloadType := p.payloadType &&& 0x7F
  sequence := e.seq + UInt16.ofNat ((pulled.take i).countP isEncoded)
  timestamp := e.ts + UInt32.ofNat ((pulled.take i).countP isEncoded) * p.tsStep
  ssrc := e.ssrc
  payload := payload

theorem getElem?_stamps (p : EgressParams) (e : Egress) (pulled : List Pulled) (i : Nat) :
    ((stamps p).outputs e pulled)[i]? =
      pulled[i]?.map (((stamps p).stateAfter e (pulled.take i)).stamp p) :=
  Mealy.getElem?_outputs (fun _ _ => rfl) e pulled i

theorem stamp_encoded (payload : Bytes) :
    ((stamps p).stateAfter e (pulled.take i)).stamp p (.encoded payload) =
      .sent ({ e.packetAt p pulled i payload with payloadType := p.payloadType } : RtpPacket).encode := by
  obtain ⟨hssrc, hseq, hts⟩ := stateAfter_stamps p e (pulled.take i)
  rw [Egress.stamp, hssrc, hseq, hts]
  rfl

theorem decode_sent {bytes : Bytes} (h : ((stamps p).outputs e pulled)[i]? = some (.sent bytes)) :
    ∃ payload, pulled[i]? = some (.encoded payload) ∧
      RtpPacket.decode bytes = some (e.packetAt p pulled i payload) := by
  rw [getElem?_stamps] at h
  obtain ⟨pull, hpull, hstamp⟩ := Option.map_eq_some_iff.mp h
  cases pull with
  | noFrame => contradiction
  | rejected reason => contradiction
  | encoded payload =>
    rw [stamp_encoded, Tick.sent.injEq] at hstamp
    exact ⟨payload, hpull, hstamp ▸ RtpPacket.decode_encode _⟩

theorem sentAt_stamps : SentAt ((stamps p).outputs e pulled) i x ↔
    ∃ payload, pulled[i]? = some (.encoded payload) ∧ x = e.packetAt p pulled i payload := by
  constructor
  · rintro ⟨bytes, hbytes, hdecode⟩
    obtain ⟨payload, hpull, hpacket⟩ := decode_sent hbytes
    exact ⟨payload, hpull, Option.mem_unique hdecode hpacket⟩
  · rintro ⟨payload, hpull, rfl⟩
    have hdecode := RtpPacket.decode_encode
      { e.packetAt p pulled i payload with payloadType := p.payloadType }
    exact ⟨_, by rw [getElem?_stamps, hpull, Option.map_some, stamp_encoded], hdecode⟩

theorem markedAt_of_sentAt (h : SentAt ((stamps p).outputs e pulled) i x) :
    MarkedAt isEncoded pulled i := by
  obtain ⟨payload, hpull, -⟩ := sentAt_stamps.mp h
  exact ⟨_, hpull, rfl⟩

theorem sentAt_of_markedAt (h : MarkedAt isEncoded pulled i) :
    ∃ x, SentAt ((stamps p).outputs e pulled) i x := by
  obtain ⟨pull, hpull, hencoded⟩ := h
  cases pull with
  | encoded payload => exact ⟨_, sentAt_stamps.mpr ⟨payload, hpull, rfl⟩⟩
  | noFrame => contradiction
  | rejected reason => contradiction

theorem noFrameAt_stamps : ((stamps p).outputs e pulled)[i]? = some .noFrame ↔
    MarkedAt isNoFrame pulled i := by
  rw [getElem?_stamps, Option.map_eq_some_iff]
  constructor
  · rintro ⟨pull, hpull, hstamp⟩
    cases pull with
    | noFrame => exact ⟨_, hpull, rfl⟩
    | rejected reason => contradiction
    | encoded payload => contradiction
  · rintro ⟨pull, hpull, hframe⟩
    cases pull with
    | noFrame => exact ⟨_, hpull, rfl⟩
    | rejected reason => contradiction
    | encoded payload => contradiction

theorem neighbours_stamps (hx : SentAt ((stamps p).outputs e pulled) i x)
    (hy : SentAt ((stamps p).outputs e pulled) j y)
    (hnext : Neighbours isEncoded pulled i j) :
    y.sequence = x.sequence + 1 ∧ y.timestamp = x.timestamp + p.tsStep := by
  obtain ⟨_, -, rfl⟩ := sentAt_stamps.mp hx
  obtain ⟨_, -, rfl⟩ := sentAt_stamps.mp hy
  simp only [Egress.packetAt, countP_take_of_neighbours hnext, UInt16.ofNat_add, UInt32.ofNat_add]
  refine ⟨?_, ?_⟩ <;> grind

/-- A packet is marked when behind every earlier one there is a tick without a frame. -/
theorem marker_stamps (he : e.talkspurtStart = true)
    (hy : SentAt ((stamps p).outputs e pulled) j y) :
    y.marker = true ↔ ∀ i < j, MarkedAt isEncoded pulled i →
      ∃ k, i < k ∧ k < j ∧ MarkedAt isNoFrame pulled k := by
  obtain ⟨_, -, rfl⟩ := sentAt_stamps.mp hy
  rw [Egress.packetAt, talkspurtStart_stamps he]
  simp only [markedAt_take, and_imp]

end Packets

/-! ## keeping time -/

theorem apart_trans {p : EgressParams} {m n : Nat} {x y z : RtpPacket} (hxy : p.Apart m x y)
    (hyz : p.Apart n y z) : p.Apart (m + n) x z := by
  have hsplit : z.timestamp - x.timestamp =
      (y.timestamp - x.timestamp) + (z.timestamp - y.timestamp) := by grind
  have hwrap := Nat.ModEq.mul_left' (10 ^ 9) (Nat.mod_modEq
    ((y.timestamp - x.timestamp).toNat + (z.timestamp - y.timestamp).toNat) (2 ^ 32))
  rw [EgressParams.Apart, hsplit, UInt32.toNat_add, Nat.add_mul]
  refine hwrap.trans ?_
  rw [Nat.mul_add]
  exact hxy.add hyz

theorem timestamps_iff {p : EgressParams} {e : Egress} {pulled : List Pulled} :
    (∀ i j x y, i < j → SentAt ((stamps p).outputs e pulled) i x →
        SentAt ((stamps p).outputs e pulled) j y → p.Apart (j - i) x y) ↔
      ∀ i j, Neighbours isEncoded pulled i j → p.Steady (j - i) := by
  have hstep : ∀ {i j x y}, SentAt ((stamps p).outputs e pulled) i x →
      SentAt ((stamps p).outputs e pulled) j y → Neighbours isEncoded pulled i j →
      (p.Apart (j - i) x y ↔ p.Steady (j - i)) := by
    intro i j x y hx hy hnext
    have hadvance : y.timestamp - x.timestamp = p.tsStep := by
      rw [(neighbours_stamps hx hy hnext).2]
      grind
    rw [EgressParams.Apart, hadvance, EgressParams.Steady]
  constructor
  · intro h i j hnext
    obtain ⟨x, hx⟩ := sentAt_of_markedAt (p := p) (e := e) hnext.left
    obtain ⟨y, hy⟩ := sentAt_of_markedAt (p := p) (e := e) hnext.right
    exact (hstep hx hy hnext).mp (h i j x y hnext.lt hx hy)
  · intro h i j x y hlt hx hy
    -- from packet to packet, and then over the packets between the two
    have hall := Neighbours.rel_of_marked (p := isEncoded) (l := pulled)
      (R := fun i j => i < j ∧ ∀ x y, SentAt ((stamps p).outputs e pulled) i x →
        SentAt ((stamps p).outputs e pulled) j y → p.Apart (j - i) x y)
      (fun i j k hmark hij hjk => ?_) (fun i j hnext => ?_) hlt (markedAt_of_sentAt hx)
      (markedAt_of_sentAt hy)
    · exact hall.2 x y hx hy
    · refine ⟨hij.1.trans hjk.1, fun x z hx hz => ?_⟩
      obtain ⟨y, hy⟩ := sentAt_of_markedAt (p := p) (e := e) hmark
      have hapart := apart_trans (hij.2 x y hx hy) (hjk.2 y z hy hz)
      have hlt₁ := hij.1
      have hlt₂ := hjk.1
      rwa [show j - i + (k - j) = k - i by omega] at hapart
    · exact ⟨hnext.lt, fun x y hx hy => (hstep hx hy hnext).mpr (h i j hnext)⟩

/-- **The stream to a peer.**  Its packets carry one SSRC and consecutive sequence numbers, and
the marker exactly on the first of them and on the first after a tick without a frame; and
their timestamps keep time exactly when, from each frame that goes out to the next, one step
is what the clock advances in the ticks between the two. -/
theorem egress_stream (fade : Fade) (encodeInto : EncodeInto ε) (p : EgressParams)
    (jb : JitterBuffer) (encoder : ε) (ssrc : UInt32) (seq : UInt16) (ts : UInt32)
    (events : List DirectionEvent) :
    let pulled := (pulls fade encodeInto).outputs (jb, encoder) events
    let ticks : List Tick := (direction fade encodeInto p).outputs
      { jitter := jb, encoder := encoder, egress := { ssrc := ssrc, seq := seq, ts := ts } } events
    (∀ (i : Nat) (bytes : Bytes), ticks[i]? = some (.sent bytes) →
        ∃ x, RtpPacket.decode bytes = some x ∧ x.ssrc = ssrc) ∧
      (∀ i j x y, i < j → SentAt ticks i x → SentAt ticks j y →
        (∀ k, i < k → k < j → ∀ z, ¬ SentAt ticks k z) →
        y.sequence = x.sequence + 1 ∧
          (y.marker = true ↔ ∃ k, i < k ∧ k < j ∧ ticks[k]? = some .noFrame)) ∧
      (∀ j y, SentAt ticks j y → (∀ k < j, ∀ z, ¬ SentAt ticks k z) → y.marker = true) ∧
      ((∀ i j x y, i < j → SentAt ticks i x → SentAt ticks j y → p.Apart (j - i) x y) ↔
        ∀ i j, Neighbours isEncoded pulled i j → p.Steady (j - i)) := by
  intro pulled ticks
  have hticks : ticks = (stamps p).outputs { ssrc := ssrc, seq := seq, ts := ts } pulled :=
    outputs_direction fade encodeInto p _ events
  rw [hticks]
  refine ⟨?_, ?_, ?_, timestamps_iff⟩
  · intro i bytes hbytes
    obtain ⟨payload, -, hpacket⟩ := decode_sent hbytes
    exact ⟨_, hpacket, rfl⟩
  · intro i j x y hlt hx hy hbetween
    have hnext : Neighbours isEncoded pulled i j := by
      refine ⟨hlt, markedAt_of_sentAt hx, markedAt_of_sentAt hy, fun k hik hkj hk => ?_⟩
      obtain ⟨z, hz⟩ := sentAt_of_markedAt hk
      exact hbetween k hik hkj z hz
    refine ⟨(neighbours_stamps hx hy hnext).1, ?_⟩
    rw [marker_stamps rfl hy]
    simp only [noFrameAt_stamps]
    constructor
    · exact fun h => h i hlt hnext.left
    · rintro ⟨k, hik, hkj, hk⟩ i' hi' hmark
      have hle : i' ≤ i := Nat.not_lt.mp fun h => hnext.between i' h hi' hmark
      exact ⟨k, Nat.lt_of_le_of_lt hle hik, hkj, hk⟩
  · intro j y hy hfirst
    refine (marker_stamps rfl hy).mpr fun i hi hmark => ?_
    obtain ⟨z, hz⟩ := sentAt_of_markedAt hmark
    exact absurd hz (hfirst i hi z)

/-- Three frames are played and three concealed; then the buffer primes again. -/
def sampleGap : List DirectionEvent :=
  [.insert 0 [0], .insert 1 [0], .insert 2 [0], .tick, .tick, .tick, .tick, .tick, .tick, .tick,
    .insert 6 [0], .insert 7 [0], .insert 8 [0], .insert 9 [0], .tick]

/-- Over the tick without a frame the timestamp stands still. -/
theorem clock_stops_in_gap :
    ¬ ∀ (fade : Fade) (encodeInto : EncodeInto Unit) (p : EgressParams) (ssrc : UInt32) (seq : UInt16)
      (ts : UInt32) (events : List DirectionEvent) (i j : Nat) (x y : RtpPacket), i < j →
      SentAt ((direction fade encodeInto p).outputs
        ⟨JitterBuffer.withConfig G711.FRAME {}, (), ssrc, seq, ts, true⟩ events) i x →
      SentAt ((direction fade encodeInto p).outputs
        ⟨JitterBuffer.withConfig G711.FRAME {}, (), ssrc, seq, ts, true⟩ events) j y →
      p.Apart (j - i) x y := by
  intro h
  have hapart := h (fun _ => none) (fun _ pcm => (.ok (G711.encode .pcma pcm), ())) ⟨8, 8000, 20000000⟩
    7 0 0 sampleGap 5 7 ⟨false, 8, 5, 800, 7, [0xD5]⟩ ⟨true, 8, 6, 960, 7, [0xD5]⟩ (by decide)
    ⟨rtpHeaderBytes false 8 5 800 7 ++ [0xD5], by decide +kernel, by decide +kernel⟩
    ⟨rtpHeaderBytes true 8 6 960 7 ++ [0xD5], by decide +kernel, by decide +kernel⟩
  exact absurd hapart (by unfold EgressParams.Apart; decide)

end SmithsNet.Media
