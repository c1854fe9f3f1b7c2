import SmithsNet.Media.Dtmf
import SmithsNet.Media.RtpPacket

/-!
# SmithsNet.Media.DtmfRoundTrip

The transmit side of telephone events (`generate_keypress` of `smiths-core/src/dtmf.rs`)
against the detector.

The packets of one press all carry its event and start timestamp, a duration up to that
of its End packets, and the End packets carry the whole duration.  That is all
`detect_segment` needs of them, so losses and duplicates do not matter as long as one End
packet arrives: `detect_generated`.
-/

namespace SmithsNet.Media

open Lib

/-! ## the generator -/

def DTMF_GEN_CLOCK_RATE_HZ : UInt32 := 8000

def DTMF_GEN_FRAME_MS : UInt32 := 20

def DTMF_GEN_FRAME_SAMPLES : UInt16 := 160

/-- `u16::try_from(n).unwrap_or(u16::MAX)` -/
def u16OrMax (n : Nat) : UInt16 := UInt16.ofNat (min n 65535)

/-- `u16::saturating_mul` -/
def saturatingMul (a b : UInt16) : UInt16 := UInt16.ofNat (min (a.toNat * b.toNat) 65535)

/-- Frames of a press: at least one. -/
def framesOf (durationMs : UInt32) : Nat :=
  (max durationMs DTMF_GEN_FRAME_MS / DTMF_GEN_FRAME_MS).toNat

/-- Duration after a number of frames, as the payload says it. -/
def samplesOf (frames : Nat) : UInt16 := saturatingMul DTMF_GEN_FRAME_SAMPLES (u16OrMax frames)

/-- What one key press is generated from. -/
structure DtmfPress where
  digit : Char
  durationMs : UInt32
  ssrc : UInt32
  startSequence : UInt16
  startTimestamp : UInt32

namespace DtmfPress

/-- The `i`-th packet of a press. -/
def packet (p : DtmfPress) (event : UInt8) (i : Nat) (marker isEnd : Bool) (samples : UInt16) :
    RtpPacket where
  marker := marker
  payloadType := RFC4733_PAYLOAD_TYPE
  sequence := p.startSequence + UInt16.ofNat i
  timestamp := p.startTimestamp
  ssrc := p.ssrc
  payload := TelephoneEvent.encode ⟨event, isEnd, 10, samples⟩

/-- The packets of one press, three of them its end; no digit, no packets (the source
panics). -/
def generateKeypress (p : DtmfPress) : Option (List RtpPacket) :=
  (digitToEventCode p.digit).map fun event =>
    let frames := framesOf p.durationMs
    (List.range frames).map (fun i => p.packet event i (i == 0) false (samplesOf (i + 1))) ++
      (List.range 3).map fun i => p.packet event (frames + i) false true (samplesOf frames)

/-- What tells a press from its neighbours. -/
def key (p : DtmfPress) : Option UInt8 × UInt32 := (digitToEventCode p.digit, p.startTimestamp)

/-- The duration fits the event payload. -/
def Representable (p : DtmfPress) : Prop := 160 * framesOf p.durationMs < 2 ^ 16

instance (p : DtmfPress) : Decidable p.Representable := inferInstanceAs (Decidable (_ < _))

/-- What a leg should hear of a press: its digit, as a capital if it is a letter, for as
long as its packets say. -/
def heard (leg : String) (p : DtmfPress) : DtmfKeypress where
  digit := p.digit.toUpper
  durationMs := max p.durationMs DTMF_GEN_FRAME_MS / DTMF_GEN_FRAME_MS * DTMF_GEN_FRAME_MS
  leg := leg

end DtmfPress

/-- The telephone event in an RTP packet, as the bridge hands it to the detector. -/
def dtmfPacket (packet : RtpPacket) : Option DtmfPacket :=
  if packet.payloadType = RFC4733_PAYLOAD_TYPE then
    (TelephoneEvent.parse packet.payload).map fun event => ⟨event, packet.timestamp⟩
  else none

/-- An End packet. -/
def endsPress (packet : RtpPacket) : Bool := (dtmfPacket packet).any (·.event.isEnd)

/-! ## digits and payloads -/

variable {det : DtmfDetector} {p : DtmfPress} {segments : List (List RtpPacket)}
    {digits : List Char} {seq : UInt16} {ts ssrc durationMs : UInt32} {event : UInt8}

theorem eventCodeToDigit_of_digit {digit : Char}
    (h : digitToEventCode digit = some event) : eventCodeToDigit event = some digit.toUpper := by
  unfold digitToEventCode at h
  by_cases hdigit : '0' ≤ digit ∧ digit ≤ '9'
  · rw [if_pos hdigit, Option.some.injEq] at h
    have hlow : 48 ≤ digit.toNat := hdigit.1
    have hhigh : digit.toNat ≤ 57 := hdigit.2
    have hall : ∀ k < 10, eventCodeToDigit (UInt8.ofNat ((Char.ofNat (48 + k)).toNat - '0'.toNat)) =
        some (Char.ofNat (48 + k)).toUpper := by decide
    have hchar := hall (digit.toNat - 48) (by omega)
    rw [Nat.add_sub_cancel' hlow, Char.ofNat_toNat] at hchar
    rw [← h]
    exact hchar
  · rw [if_neg hdigit] at h
    split at h <;> simp only [Option.some.injEq, reduceCtorEq] at h <;> subst h <;> rfl

theorem dtmfPacket_packet (p : DtmfPress) (event : UInt8) (i : Nat) (marker isEnd : Bool)
    (samples : UInt16) : dtmfPacket (p.packet event i marker isEnd samples) =
      some ⟨⟨event, isEnd, 10, samples⟩, p.startTimestamp⟩ := by
  rw [dtmfPacket, DtmfPress.packet, if_pos rfl, TelephoneEvent.parse_encode (by decide : (10 : UInt8) < 64)]
  rfl

theorem toNat_samplesOf {frames : Nat} (h : 160 * frames < 2 ^ 16) :
    (samplesOf frames).toNat = 160 * frames := by
  have hframes : (UInt16.ofNat (min frames 65535)).toNat = frames := by
    rw [Nat.min_eq_left (by omega)]
    exact UInt16.toNat_ofNat_of_lt' (Nat.lt_of_le_of_lt (Nat.le_mul_of_pos_left frames (by decide)) h)
  have hsamples : DTMF_GEN_FRAME_SAMPLES.toNat = 160 := rfl
  rw [samplesOf, saturatingMul, u16OrMax, hframes, hsamples, Nat.min_eq_left (by omega)]
  exact UInt16.toNat_ofNat_of_lt' h

/-- The packets of a press agree on the press and carry no more than its duration; its End
packets carry all of it. -/
theorem of_mem_generateKeypress {packets : List RtpPacket}
    (hgen : p.generateKeypress = some packets) (hevent : digitToEventCode p.digit = some event)
    (hfit : p.Representable) {x : RtpPacket} (hx : x ∈ packets) :
    ∃ ev, dtmfPacket x = some ⟨ev, p.startTimestamp⟩ ∧ ev.event = event ∧
      ev.durationSamples ≤ samplesOf (framesOf p.durationMs) ∧
      (ev.isEnd = true → ev.durationSamples = samplesOf (framesOf p.durationMs)) := by
  rw [DtmfPress.generateKeypress, hevent, Option.map_some, Option.some.injEq] at hgen
  subst hgen
  obtain hx | hx := List.mem_append.mp hx
  · obtain ⟨i, hi, rfl⟩ := List.mem_map.mp hx
    have hlast : i + 1 ≤ framesOf p.durationMs := List.mem_range.mp hi
    refine ⟨_, dtmfPacket_packet .., rfl, ?_, fun hend => absurd hend Bool.false_ne_true⟩
    rw [DtmfPress.Representable] at hfit
    rw [UInt16.le_iff_toNat_le, toNat_samplesOf hfit, toNat_samplesOf (by omega)]
    omega
  · obtain ⟨i, -, rfl⟩ := List.mem_map.mp hx
    exact ⟨_, dtmfPacket_packet .., rfl, UInt16.le_refl _, fun _ => rfl⟩

/-! ## one press -/

section Segment

variable {det : DtmfDetector} {k : PressKey} {digit : Char} {whole : UInt16}

/-- A whole duration at the detector's clock, in milliseconds. -/
def wholeMs (whole : UInt16) (clockRateHz : UInt32) : UInt32 :=
  UInt32.ofNat (min (whole.toNat * 1000) (2 ^ 32 - 1)) / clockRateHz

variable {packets : List DtmfPacket}

theorem detect_repeats (hlast : det.lastEmitted = some k) (hkey : ∀ p ∈ packets, p.key = k) :
    detect.stateAfter det packets = det ∧ detect.outputs det packets = [] := by
  induction packets with
  | nil => exact ⟨rfl, rfl⟩
  | cons p packets ih =>
    have hp : det.lastEmitted = some p.key := by rw [hlast, hkey p List.mem_cons_self]
    obtain ⟨hstate, hout⟩ := ih fun q hq => hkey q (List.mem_cons_of_mem p hq)
    rw [Mealy.stateAfter, Mealy.outputs, detect_last hp, hstate, hout]
    exact ⟨rfl, rfl⟩

/-- A detector in which no more than this has been heard of the press. -/
structure Awaits (det : DtmfDetector) (k : PressKey) (whole : UInt16) : Prop where
  fresh : det.lastEmitted ≠ some k
  heard : det.inFlight = some k → det.maxDuration ≤ whole

theorem track_packet (h : Awaits det k whole) {ev : TelephoneEvent} (hev : ev.event = k.1)
    (hdur : ev.durationSamples ≤ whole) :
    (det.track ev k.2).inFlight = some k ∧ (det.track ev k.2).maxDuration ≤ whole ∧
      ev.durationSamples ≤ (det.track ev k.2).maxDuration ∧
      (det.track ev k.2).clockRateHz = det.clockRateHz ∧ (det.track ev k.2).legId = det.legId := by
  have hkey : (ev.event, k.2) = k := by rw [hev]
  rw [DtmfDetector.track, hkey]
  by_cases hflight : det.inFlight = some k
  · rw [if_pos hflight]
    by_cases hlonger : det.maxDuration < ev.durationSamples
    · rw [if_pos hlonger]
      exact ⟨hflight, hdur, UInt16.le_refl _, rfl, rfl⟩
    · rw [if_neg hlonger]
      exact ⟨hflight, h.heard hflight, UInt16.not_lt.mp hlonger, rfl, rfl⟩
  · rw [if_neg hflight]
    exact ⟨rfl, hdur, UInt16.le_refl _, rfl, rfl⟩

/-- Packets of one press with an End packet among them are heard as one key press of the
whole duration. -/
theorem detect_segment (hdigit : eventCodeToDigit k.1 = some digit)
    (hawait : Awaits det k whole) (hkey : ∀ p ∈ packets, p.key = k)
    (hdur : ∀ p ∈ packets, p.event.durationSamples ≤ whole)
    (hend : ∀ p ∈ packets, p.event.isEnd = true → p.event.durationSamples = whole)
    (hex : ∃ p ∈ packets, p.event.isEnd = true) :
    detect.outputs det packets = [(k, ⟨digit, wholeMs whole det.clockRateHz, det.legId⟩)] ∧
      (detect.stateAfter det packets).lastEmitted = some k ∧
      (detect.stateAfter det packets).inFlight = none ∧
      (detect.stateAfter det packets).clockRateHz = det.clockRateHz ∧
      (detect.stateAfter det packets).legId = det.legId := by
  induction packets generalizing det with
  | nil =>
    obtain ⟨p, hp, -⟩ := hex
    exact absurd hp List.not_mem_nil
  | cons p packets ih =>
    have hpkey : p.key = k := hkey p List.mem_cons_self
    have hev : p.event.event = k.1 := congrArg Prod.fst hpkey
    have hts : p.startTimestamp = k.2 := congrArg Prod.snd hpkey
    have hfresh : ¬ det.lastEmitted = some (p.event.event, p.startTimestamp) := by
      rw [hev, hts]
      exact hawait.fresh
    obtain ⟨hflight, hmax, hown, hclock, hleg⟩ :=
      track_packet hawait hev (hdur p List.mem_cons_self)
    have hrest : ∀ q ∈ packets, q.key = k := fun q hq => hkey q (List.mem_cons_of_mem p hq)
    rw [Mealy.stateAfter, Mealy.outputs]
    by_cases hpend : p.event.isEnd = true
    · have hmaxeq : (det.track p.event k.2).maxDuration = whole := by
        rw [hend p List.mem_cons_self hpend] at hown
        exact UInt16.le_antisymm hmax hown
      have hstep : detect det p =
          ({ det.track p.event k.2 with
              inFlight := none, maxDuration := 0, lastEmitted := some k },
            [(k, ⟨digit, wholeMs whole det.clockRateHz, det.legId⟩)]) := by
        simp only [detect, DtmfDetector.feed, if_neg hfresh, hpend, Bool.true_eq_false, if_false]
        rw [hts, hev, hdigit, hpkey]
        simp only [DtmfDetector.durationMs, hmaxeq, hclock, hleg, wholeMs]
        rfl
      have hlast : (detect det p).1.lastEmitted = some k := by rw [hstep]
      obtain ⟨hstate, hout⟩ := detect_repeats hlast hrest
      rw [hout, hstate, hstep]
      exact ⟨rfl, rfl, rfl, hclock, hleg⟩
    · have hstep : detect det p = (det.track p.event k.2, []) := by
        simp only [detect, DtmfDetector.feed, if_neg hfresh, Bool.not_eq_true _ ▸ hpend, if_true]
        rw [hts]
        rfl
      have hnext : Awaits (det.track p.event k.2) k whole :=
        ⟨by rw [lastEmitted_track]; exact hawait.fresh, fun _ => hmax⟩
      obtain ⟨q, hq, hqend⟩ := hex
      have hexrest : ∃ q ∈ packets, q.event.isEnd = true := by
        obtain rfl | hq := List.mem_cons.mp hq
        · exact absurd hqend hpend
        · exact ⟨q, hq, hqend⟩
      have htail := ih hnext hrest (fun q hq => hdur q (List.mem_cons_of_mem p hq))
        (fun q hq => hend q (List.mem_cons_of_mem p hq)) hexrest
      rw [hclock, hleg] at htail
      rw [hstep]
      exact htail

end Segment

/-! ## a sequence of presses -/

/-- What arrives of the packets of one press: any of them, in order, any number of times,
with an End packet among them. -/
def ArrivesWithEnd (segment : List RtpPacket) (p : DtmfPress) : Prop :=
  ∃ packets, p.generateKeypress = some packets ∧ Received segment packets ∧
    ∃ x ∈ segment, endsPress x = true

theorem wholeMs_samplesOf (h : p.Representable) :
    wholeMs (samplesOf (framesOf p.durationMs)) DTMF_GEN_CLOCK_RATE_HZ =
      max p.durationMs DTMF_GEN_FRAME_MS / DTMF_GEN_FRAME_MS * DTMF_GEN_FRAME_MS := by
  have hclock : DTMF_GEN_CLOCK_RATE_HZ.toNat = 8000 := rfl
  have hframe : DTMF_GEN_FRAME_MS.toNat = 20 := rfl
  have hfit : 160 * framesOf p.durationMs < 2 ^ 16 := h
  have hsmall : min (160 * framesOf p.durationMs * 1000) (2 ^ 32 - 1) =
      160 * framesOf p.durationMs * 1000 := Nat.min_eq_left (by omega)
  have hquot : 160 * framesOf p.durationMs * 1000 / 8000 = framesOf p.durationMs * 20 := by omega
  apply UInt32.toNat_inj.mp
  rw [wholeMs, toNat_samplesOf h, hsmall, UInt32.toNat_div, hclock,
    UInt32.toNat_ofNat_of_lt' (by rw [UInt32.size]; omega), hquot, UInt32.toNat_mul, hframe]
  exact (Nat.mod_eq_of_lt (by rw [framesOf] at hfit ⊢; omega)).symm

theorem detect_press {segment : List RtpPacket}
    (h : ArrivesWithEnd segment p) (hfit : p.Representable)
    (hclock : det.clockRateHz = DTMF_GEN_CLOCK_RATE_HZ) (hflight : det.inFlight = none)
    (hfresh : ∀ k, det.lastEmitted = some k → p.key ≠ (some k.1, k.2)) :
    (detect.outputs det (segment.filterMap dtmfPacket)).map Prod.snd = [p.heard det.legId] ∧
      (∃ k, (detect.stateAfter det (segment.filterMap dtmfPacket)).lastEmitted = some k ∧
        p.key = (some k.1, k.2)) ∧
      (detect.stateAfter det (segment.filterMap dtmfPacket)).inFlight = none ∧
      (detect.stateAfter det (segment.filterMap dtmfPacket)).clockRateHz = DTMF_GEN_CLOCK_RATE_HZ ∧
      (detect.stateAfter det (segment.filterMap dtmfPacket)).legId = det.legId := by
  obtain ⟨packets, hgen, hreceived, x, hx, hxend⟩ := h
  obtain ⟨event, hevent, -⟩ := Option.map_eq_some_iff.mp hgen
  have hdigit := eventCodeToDigit_of_digit hevent
  have hpackets : ∀ q ∈ segment.filterMap dtmfPacket, q.key = (event, p.startTimestamp) ∧
      q.event.durationSamples ≤ samplesOf (framesOf p.durationMs) ∧
      (q.event.isEnd = true → q.event.durationSamples = samplesOf (framesOf p.durationMs)) := by
    intro q hq
    obtain ⟨y, hy, hyq⟩ := List.mem_filterMap.mp hq
    obtain ⟨ev, hev, rfl, hdur, hend⟩ :=
      of_mem_generateKeypress hgen hevent hfit (hreceived.mem hy)
    obtain rfl : ⟨ev, p.startTimestamp⟩ = q := Option.mem_unique hev hyq
    exact ⟨rfl, hdur, hend⟩
  have hex : ∃ q ∈ segment.filterMap dtmfPacket, q.event.isEnd = true := by
    obtain ⟨q, hq, hqend⟩ := (Option.any_eq_true _ _).mp hxend
    exact ⟨q, List.mem_filterMap.mpr ⟨x, hx, hq⟩, hqend⟩
  have hawait : Awaits det (event, p.startTimestamp) (samplesOf (framesOf p.durationMs)) := by
    refine ⟨fun hlast => hfresh _ hlast ?_, fun hsome => ?_⟩
    · rw [DtmfPress.key, hevent]
    · rw [hflight] at hsome
      contradiction
  obtain ⟨hout, hlast, hnone, hrate, hleg⟩ := detect_segment hdigit hawait
    (fun q hq => (hpackets q hq).1) (fun q hq => (hpackets q hq).2.1)
    (fun q hq => (hpackets q hq).2.2) hex
  refine ⟨?_, ⟨_, hlast, ?_⟩, hnone, hrate.trans hclock, hleg⟩
  · rw [hout, hclock, wholeMs_samplesOf hfit]
    rfl
  · rw [DtmfPress.key, hevent]

theorem detect_presses {presses : List DtmfPress} (h : List.Forall₂ ArrivesWithEnd segments presses)
    (hfit : ∀ p ∈ presses, p.Representable) (hchain : presses.IsChain fun p q => p.key ≠ q.key)
    (hclock : det.clockRateHz = DTMF_GEN_CLOCK_RATE_HZ) (hflight : det.inFlight = none)
    (hfresh : ∀ k, det.lastEmitted = some k → ∀ p ∈ presses.head?, p.key ≠ (some k.1, k.2)) :
    (detect.outputs det (segments.flatten.filterMap dtmfPacket)).map Prod.snd =
      presses.map (·.heard det.legId) := by
  induction h generalizing det with
  | nil => rfl
  | @cons segment p segments presses harrives hrest ih =>
    obtain ⟨hp, hfit⟩ := List.forall_mem_cons.mp hfit
    obtain ⟨hout, ⟨k, hk, hpk⟩, hnone, hrate, hleg⟩ := detect_press harrives hp hclock hflight
      fun k hk => hfresh k hk p rfl
    have hnext : ∀ k', (detect.stateAfter det (segment.filterMap dtmfPacket)).lastEmitted = some k' →
        ∀ q ∈ presses.head?, q.key ≠ (some k'.1, k'.2) := by
      intro k' hk' q hq
      obtain rfl : k = k' := Option.mem_unique hk hk'
      rw [← hpk]
      exact ((List.isChain_cons.mp hchain).1 q hq).symm
    have htail := ih hfit (List.isChain_cons.mp hchain).2 hrate hnone hnext
    rw [List.flatten_cons, List.filterMap_append, Mealy.outputs_append, List.map_append, hout,
      htail, hleg]
    rfl

/-- **Generated presses are heard.**  Whatever is lost or repeated of the packets of a
sequence of key presses, as long as one End packet of each arrives: a detector at the
generator's clock hears exactly these presses, each once, each digit as a capital if it is a
letter and for the whole frames of its duration.  Neighbouring presses of one digit
start at different timestamps, and the durations fit the payload. -/
theorem detect_generated (leg : String) (segments : List (List RtpPacket))
    (presses : List DtmfPress) (h : List.Forall₂ ArrivesWithEnd segments presses)
    (hfit : ∀ p ∈ presses, p.Representable) (hfresh : presses.IsChain fun p q => p.key ≠ q.key) :
    (detect.outputs (.new leg DTMF_GEN_CLOCK_RATE_HZ) (segments.flatten.filterMap dtmfPacket)).map
      Prod.snd = presses.map (·.heard leg) :=
  detect_presses h hfit hfresh rfl rfl fun k hk => absurd hk (Option.some_ne_none k).symm

/-- The first press of digit 1. -/
def firstOne : DtmfPress := ⟨'1', 20, 0xABCD, 7, 0⟩

/-- The second, 60 ms later. -/
def secondOne : DtmfPress := ⟨'1', 20, 0xABCD, 11, 480⟩

/-- Four packets, three of them the end. -/
def onePackets (p : DtmfPress) : List RtpPacket :=
  [p.packet 1 0 true false 160, p.packet 1 1 false true 160, p.packet 1 2 false true 160,
    p.packet 1 3 false true 160]

/-- Only the second End packet of the first press arrives, twice; all of the second press. -/
theorem two_ones_heard : (detect.outputs (.new "a" DTMF_GEN_CLOCK_RATE_HZ)
      ([[firstOne.packet 1 2 false true 160, firstOne.packet 1 2 false true 160],
        onePackets secondOne].flatten.filterMap dtmfPacket)).map Prod.snd =
      [firstOne, secondOne].map (·.heard "a") := by
  refine detect_generated "a" _ _ (.cons ?_ (.cons ?_ .nil)) (by decide +kernel)
    (by decide +kernel)
  · refine ⟨onePackets firstOne, by decide +kernel, ?_, _, List.mem_cons_self, by decide +kernel⟩
    exact .lost _ (.lost _ (.copy _ (.copy _ (.lost _ (.lost _ .nil)))))
  · exact ⟨onePackets secondOne, by decide +kernel, .refl _, secondOne.packet 1 3 false true 160,
      by decide +kernel, by decide +kernel⟩

/-- A lower-case letter is heard as a capital. -/
theorem lower_case_heard_as_capital :
    ¬ ∀ (leg : String) (segments : List (List RtpPacket)) (presses : List DtmfPress),
      List.Forall₂ ArrivesWithEnd segments presses → (∀ p ∈ presses, p.Representable) →
        (presses.IsChain fun p q => p.key ≠ q.key) →
          (detect.outputs (.new leg DTMF_GEN_CLOCK_RATE_HZ)
            (segments.flatten.filterMap dtmfPacket)).map (·.2.digit) = presses.map (·.digit) := by
  intro h
  let press : DtmfPress := ⟨'a', 20, 0, 0, 0⟩
  let packets : List RtpPacket :=
    [press.packet 12 0 true false 160, press.packet 12 1 false true 160,
      press.packet 12 2 false true 160, press.packet 12 3 false true 160]
  have harrives : ArrivesWithEnd packets press :=
    ⟨packets, by decide +kernel, .refl _, press.packet 12 1 false true 160, by decide +kernel,
      by decide +kernel⟩
  have hheard := h "a" [packets] [press] (.cons harrives .nil) (by decide +kernel) (.singleton _)
  exact absurd hheard (by decide +kernel)

end SmithsNet.Media
