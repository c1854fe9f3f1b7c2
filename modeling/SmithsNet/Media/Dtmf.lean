import SmithsNet.Lib.Mealy
import SmithsNet.Lib.Streams
import SmithsNet.Media.Rtcp

/-!
# SmithsNet.Media.Dtmf

Telephone events and the detector that turns a leg's event packets into key presses
(`smiths-core/src/dtmf.rs`).

The detector remembers one press it has emitted, the last.  What it emits is therefore
the stream of End packets with repetitions dropped (`keys_outputs`), and a press is
emitted twice when an End packet of another one has come between its own:
`emitted_once_iff`.
-/

namespace SmithsNet.Media

open Lib

/-! ## the payload -/

/-- Payload type of telephone events. -/
def RFC4733_PAYLOAD_TYPE : UInt8 := 101

/-- One parsed telephone-event payload; `isEnd` is the source's `end`. -/
structure TelephoneEvent where
  event : UInt8
  isEnd : Bool
  volume : UInt8
  durationSamples : UInt16

namespace TelephoneEvent

def parse (payload : Bytes) : Option TelephoneEvent :=
  if payload.length < 4 then none
  else
    let flags := byteAt payload 1
    some {
      event := byteAt payload 0
      isEnd := flags &&& 0x80 ≠ 0
      volume := flags &&& 0x3F
      durationSamples := beU16 payload 2 }

def encode (ev : TelephoneEvent) : Bytes :=
  [ev.event, (if ev.isEnd then 0x80 else 0) ||| (ev.volume &&& 0x3F)] ++ u16ToBe ev.durationSamples

theorem flags_fields (isEnd : Bool) (volume : Fin 64) :
    let flags : UInt8 := (if isEnd then 0x80 else 0) ||| (UInt8.ofNat volume &&& 0x3F)
    decide (flags &&& 0x80 ≠ 0) = isEnd ∧ flags &&& 0x3F = UInt8.ofNat volume := by
  revert isEnd volume
  decide +kernel

theorem parse_encode {ev : TelephoneEvent} (h : ev.volume < 64) : parse ev.encode = some ev := by
  obtain ⟨hend, hvolume⟩ := flags_fields ev.isEnd ⟨ev.volume.toNat, h⟩
  have hduration : beU16 ev.encode 2 = ev.durationSamples :=
    Rtcp.beU16_u16ToBe [] ev.durationSamples
  have hflags : byteAt ev.encode 1 = (if ev.isEnd then 0x80 else 0) ||| (ev.volume &&& 0x3F) := rfl
  have hevent : byteAt ev.encode 0 = ev.event := rfl
  have hlength : ev.encode.length = 4 := rfl
  rw [UInt8.ofNat_toNat] at hend hvolume
  rw [parse, hlength, if_neg (Nat.lt_irrefl 4), hflags, hevent, hduration]
  dsimp only
  rw [hend, hvolume]

end TelephoneEvent

/-- The digit of an event code; 16 is the flash hook. -/
def eventCodeToDigit (event : UInt8) : Option Char :=
  if event ≤ 9 then some (Char.ofNat ('0'.toNat + event.toNat))
  else match event with
    | 10 => some '*'
    | 11 => some '#'
    | 12 => some 'A'
    | 13 => some 'B'
    | 14 => some 'C'
    | 15 => some 'D'
    | 16 => some '!'
    | _ => none

/-- Inverse of `eventCodeToDigit`, case-insensitive on A–D. -/
def digitToEventCode (digit : Char) : Option UInt8 :=
  if '0' ≤ digit ∧ digit ≤ '9' then some (UInt8.ofNat (digit.toNat - '0'.toNat))
  else match digit with
    | '*' => some 10
    | '#' => some 11
    | 'A' | 'a' => some 12
    | 'B' | 'b' => some 13
    | 'C' | 'c' => some 14
    | 'D' | 'd' => some 15
    | '!' => some 16
    | _ => none

/-! ## the detector -/

/-- One detected key press. -/
structure DtmfKeypress where
  digit : Char
  durationMs : UInt32
  leg : String

/-- Event code and start timestamp: what tells one press from another. -/
abbrev PressKey := UInt8 × UInt32

structure DtmfDetector where
  legId : String
  clockRateHz : UInt32
  /-- The press in progress. -/
  inFlight : Option PressKey
  /-- Highest duration seen of the press in progress. -/
  maxDuration : UInt16
  /-- The press emitted last. -/
  lastEmitted : Option PressKey

namespace DtmfDetector

def new (legId : String) (clockRateHz : UInt32) : DtmfDetector where
  legId := legId
  clockRateHz := max clockRateHz 1
  inFlight := none
  maxDuration := 0
  lastEmitted := none

/-- The press in progress and its duration, with one more packet. -/
def track (det : DtmfDetector) (event : TelephoneEvent) (startTimestamp : UInt32) : DtmfDetector :=
  if det.inFlight = some (event.event, startTimestamp) then
    if det.maxDuration < event.durationSamples then { det with maxDuration := event.durationSamples }
    else det
  else
    { det with inFlight := some (event.event, startTimestamp), maxDuration := event.durationSamples }

/-- Samples in milliseconds, `saturating_mul` first. -/
def durationMs (det : DtmfDetector) : UInt32 :=
  UInt32.ofNat (min (det.maxDuration.toNat * 1000) (2 ^ 32 - 1)) / det.clockRateHz

/-- One telephone-event packet.  The first End packet of a press emits it; an event
without a digit ends the press in progress and nothing else. -/
def feed (det : DtmfDetector) (event : TelephoneEvent) (startTimestamp : UInt32) :
    DtmfDetector × Option DtmfKeypress :=
  if det.lastEmitted = some (event.event, startTimestamp) then (det, none)
  else
    let det := det.track event startTimestamp
    if event.isEnd = false then (det, none)
    else
      let det' := { det with inFlight := none }
      match eventCodeToDigit event.event with
      | none => (det', none)
      | some digit =>
        ({ det' with maxDuration := 0, lastEmitted := some (event.event, startTimestamp) },
          some ⟨digit, det.durationMs, det.legId⟩)

end DtmfDetector

/-! ## the packets of a stream -/

/-- A telephone-event packet: the event and the timestamp of its RTP header. -/
structure DtmfPacket where
  event : TelephoneEvent
  startTimestamp : UInt32

def DtmfPacket.key (p : DtmfPacket) : PressKey := (p.event.event, p.startTimestamp)

/-- The detector as a machine; each key press comes with the key of its press. -/
def detect : Mealy DtmfDetector DtmfPacket (PressKey × DtmfKeypress) :=
  fun det p =>
    ((det.feed p.event p.startTimestamp).1,
      ((det.feed p.event p.startTimestamp).2.map (p.key, ·)).toList)

/-- The press an End packet ends, if its event has a digit. -/
def DtmfPacket.closes (p : DtmfPacket) : Option PressKey :=
  if p.event.isEnd && (eventCodeToDigit p.event.event).isSome then some p.key else none

/-! ## what one packet does -/

section Step

variable {det : DtmfDetector} {p : DtmfPacket}

theorem detect_last (h : det.lastEmitted = some p.key) : detect det p = (det, []) := by
  have hlast : det.lastEmitted = some (p.event.event, p.startTimestamp) := h
  rw [detect, DtmfDetector.feed, if_pos hlast]
  rfl

@[simp] theorem lastEmitted_track (event : TelephoneEvent) (ts : UInt32) :
    (det.track event ts).lastEmitted = det.lastEmitted := by
  unfold DtmfDetector.track
  split_ifs <;> rfl

/-- A packet that ends no press emits nothing, and the last press stays the last. -/
theorem detect_open (det : DtmfDetector) (h : p.closes = none) :
    (detect det p).1.lastEmitted = det.lastEmitted ∧ (detect det p).2 = [] := by
  by_cases hlast : det.lastEmitted = some p.key
  · rw [detect_last hlast]
    exact ⟨rfl, rfl⟩
  have hne : ¬ det.lastEmitted = some (p.event.event, p.startTimestamp) := hlast
  simp only [detect, DtmfDetector.feed, if_neg hne]
  cases hend : p.event.isEnd with
  | false => simp
  | true =>
    cases hdigit : eventCodeToDigit p.event.event with
    | none => simp
    | some digit => simp [DtmfPacket.closes, hend, hdigit] at h

theorem detect_closes {k : PressKey} (h : p.closes = some k) (hlast : det.lastEmitted ≠ some k) :
    (detect det p).1.lastEmitted = some k ∧ (detect det p).2.map Prod.fst = [k] := by
  rw [DtmfPacket.closes, Option.ite_none_right_eq_some, Option.some.injEq, Bool.and_eq_true,
    Option.isSome_iff_exists] at h
  obtain ⟨⟨hend, digit, hdigit⟩, rfl⟩ := h
  have hne : ¬ det.lastEmitted = some (p.event.event, p.startTimestamp) := hlast
  simp [detect, DtmfDetector.feed, if_neg hne, hend, hdigit, DtmfPacket.key]

end Step

/-! ## what a stream emits -/

/-- The presses End packets end, in order of arrival. -/
def closings (packets : List DtmfPacket) : List PressKey := packets.filterMap DtmfPacket.closes

/-- Once a press has been emitted, what is emitted is what the End packets end, with
repetitions dropped. -/
theorem keys_outputs_of_last {det : DtmfDetector} {k : PressKey} (h : det.lastEmitted = some k)
    (packets : List DtmfPacket) :
    k :: (detect.outputs det packets).map Prod.fst = (closings packets).destutter' (· ≠ ·) k := by
  induction packets generalizing det k with
  | nil => rfl
  | cons p packets ih =>
    rw [Mealy.outputs, List.map_append]
    cases hcloses : p.closes with
    | none =>
      obtain ⟨hlast, hout⟩ := detect_open det hcloses
      rw [closings, List.filterMap_cons_none hcloses, hout]
      exact ih (hlast.trans h)
    | some k' =>
      rw [closings, List.filterMap_cons_some hcloses]
      by_cases hk : k = k'
      · subst hk
        have hkey : k = p.key := by
          rw [DtmfPacket.closes, Option.ite_none_right_eq_some] at hcloses
          exact (Option.some.inj hcloses.2).symm
        rw [detect_last (h.trans (congrArg some hkey)), List.destutter'_cons_neg _ (not_not_intro rfl)]
        exact ih h
      · have hlast : det.lastEmitted ≠ some k' := by
          rw [h]
          exact fun heq => hk (Option.some.inj heq)
        obtain ⟨hnext, hout⟩ := detect_closes hcloses hlast
        rw [hout, List.destutter'_cons_pos _ hk]
        exact congrArg (k :: ·) (ih hnext)

theorem keys_outputs {det : DtmfDetector} (h : det.lastEmitted = none) (packets : List DtmfPacket) :
    (detect.outputs det packets).map Prod.fst = (closings packets).destutter (· ≠ ·) := by
  induction packets generalizing det with
  | nil => rfl
  | cons p packets ih =>
    rw [Mealy.outputs, List.map_append]
    cases hcloses : p.closes with
    | none =>
      obtain ⟨hlast, hout⟩ := detect_open det hcloses
      rw [closings, List.filterMap_cons_none hcloses, hout]
      exact ih (hlast.trans h)
    | some k =>
      have hlast : det.lastEmitted ≠ some k := by
        rw [h]
        exact Option.some_ne_none k |>.symm
      obtain ⟨hnext, hout⟩ := detect_closes hcloses hlast
      rw [closings, List.filterMap_cons_some hcloses, hout, List.destutter_cons']
      exact keys_outputs_of_last hnext packets

/-- **One key press for each press.**  A detector emits at most one key press for each
event code and start timestamp, whatever packets come in whatever order, exactly when no
End packet of another press comes between two End packets of one. -/
theorem emitted_once_iff (legId : String) (clockRateHz : UInt32) (packets : List DtmfPacket) :
    ((detect.outputs (.new legId clockRateHz) packets).map Prod.fst).Nodup ↔
      ∀ k k', [k, k', k].Sublist (closings packets) → k' = k := by
  rw [keys_outputs rfl packets]
  exact nodup_destutter_iff (closings packets)

/-- An End packet of digit 1 that arrives behind those of digit 2. -/
def lateEnd : List DtmfPacket :=
  [⟨⟨1, true, 10, 800⟩, 0⟩, ⟨⟨2, true, 10, 800⟩, 1600⟩, ⟨⟨1, true, 10, 800⟩, 0⟩]

/-- Digit 1 is emitted again. -/
theorem late_end_emitted_twice :
    ¬ ∀ (legId : String) (clockRateHz : UInt32) (packets : List DtmfPacket),
      ((detect.outputs (.new legId clockRateHz) packets).map Prod.fst).Nodup := by
  intro h
  exact absurd (h "a" 8000 lateEnd) (by decide)

end SmithsNet.Media
