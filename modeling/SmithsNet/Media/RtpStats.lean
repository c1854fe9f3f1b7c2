import Mathlib
import SmithsNet.Media.Rtp

/-!
# SmithsNet.Media.RtpStats

What a bridge counts about one RTP stream (`smiths-media/src/rtp_stats.rs`):
packets and octets, the extended highest sequence number, interarrival jitter,
and the loss figures a report block is made of.

The 16-bit sequence numbers of a stream stand for numbers that do not wrap; an
`Arrival` carries both.  The tracker infers the cycle from the last 16 bits of
the highest number: it counts a wrap up, but has no case for a packet from
before a wrap that arrives after it.  `tracks_iff` says for which streams the
inference is right.
-/

namespace SmithsNet.Media

/-- What is tracked of one stream direction. -/
structure StreamStats where
  clockRate : UInt32
  packets : UInt64 := 0
  octets : UInt64 := 0
  lastSeq : UInt32 := 0
  /-- Extended highest sequence number, the cycles in its high half. -/
  maxSeq : UInt32 := 0
  baseSeq : UInt32 := 0
  cycles : UInt32 := 0
  seenFirst : Bool := false
  lastRtpTs : UInt32 := 0
  lastSsrc : UInt32 := 0
  /-- Interarrival jitter in sixteenths of a tick. -/
  jitterX16 : UInt32 := 0
  /-- Arrival of the previous packet in nanoseconds, `NEVER` before the first. -/
  prevArrivalNs : UInt64 := 0xFFFFFFFFFFFFFFFF
  prevRtpTs : UInt32 := 0

open StreamStats

def NEVER : UInt64 := 0xFFFFFFFFFFFFFFFF

namespace StreamStats

def withClockRate (clockRate : UInt32) : StreamStats := { clockRate := max clockRate 1 }

/-- `(cycles << 16) | seq` -/
def extended (cycles : UInt32) (sequence : UInt16) : UInt32 := cycles <<< 16 ||| sequence.toUInt32

/-- Sequence tracking of one packet. -/
def trackSequence (s : StreamStats) (sequence : UInt16) : StreamStats :=
  if s.seenFirst = false then
    { s with seenFirst := true, baseSeq := sequence.toUInt32, maxSeq := sequence.toUInt32 }
  else
    let diff : Int := sequence.toNat - (s.maxSeq &&& 0xFFFF).toUInt16.toNat
    if diff > 0 then { s with maxSeq := extended s.cycles sequence }
    else if diff < -0x8000 then
      { s with cycles := s.cycles + 1, maxSeq := extended (s.cycles + 1) sequence }
    -- a reorder within the cycle
    else s

/-- Smoothing of the interarrival jitter, at a reading of the clock. -/
def updateJitter (s : StreamStats) (rtpTs : UInt32) (nowNs : UInt64) : StreamStats :=
  let prevArrival := s.prevArrivalNs
  let prevTs := s.prevRtpTs
  let s := { s with prevArrivalNs := nowNs, prevRtpTs := rtpTs }
  if prevArrival = NEVER then s
  else
    let arrivalDeltaNs := nowNs.toNat - prevArrival.toNat
    let arrivalTicks := min (arrivalDeltaNs * s.clockRate.toNat / 1000000000) (2 ^ 32 - 1)
    let tsDelta := (rtpTs - prevTs).toNat
    let d := max arrivalTicks tsDelta - min arrivalTicks tsDelta
    let dX16 : Int := min (d * 16) (2 ^ 32 - 1)
    let delta := Int.tdiv (dX16 - s.jitterX16.toNat) 16
    { s with jitterX16 := UInt32.ofNat (min (s.jitterX16.toNat + delta).toNat (2 ^ 32 - 1)) }

/-- Observe a parsed header. -/
def observeHeader (s : StreamStats) (hdr : RtpHeader) (nowNs : UInt64) : StreamStats :=
  let s := { s with
    packets := s.packets + 1
    octets := s.octets + UInt64.ofNat (hdr.payloadEnd - hdr.payloadStart) }
  let s := s.trackSequence hdr.sequence
  let s := { s with
    lastSeq := hdr.sequence.toUInt32, lastRtpTs := hdr.timestamp, lastSsrc := hdr.ssrc }
  s.updateJitter hdr.timestamp nowNs

/-- Observe a datagram; what is not RTP is ignored. -/
def observe (s : StreamStats) (packet : Lib.Bytes) (nowNs : UInt64) : StreamStats :=
  match RtpHeader.parse packet with
  | some hdr => s.observeHeader hdr nowNs
  | none => s

/-- Packets expected so far, 0 before the first. -/
def expected (s : StreamStats) : Nat :=
  if s.seenFirst then ((s.maxSeq.toNat : Int) - s.baseSeq.toNat + 1).toNat else 0

/-- Packets lost so far; more received than expected is no loss. -/
def cumulativeLost (s : StreamStats) : Int32 :=
  Int32.ofInt (max 0 (min (s.expected - s.packets.toInt64.toInt) (2 ^ 63 - 1)))

end StreamStats

/-! ## a stream with numbers that do not wrap -/

/-- A packet, when it arrives, and its number in the stream. -/
structure Arrival where
  hdr : RtpHeader
  nowNs : UInt64
  number : Int

/-- The highest number so far. -/
def highest : List Arrival → Int
  | [] => 0
  | a :: as => as.foldl (fun top b => max top b.number) a.number

/-- How often the 16-bit numbers have wrapped at a number. -/
def cycleOf (number : Int) : Int := number / 2 ^ 16

/-- The statistics after some packets. -/
def observeAll (clockRate : UInt32) (arrivals : List Arrival) : StreamStats :=
  arrivals.foldl (fun s a => s.observeHeader a.hdr a.nowNs) (.withClockRate clockRate)

/-- What holds of every packet, given those before it. -/
def AtEach (P : List Arrival → Arrival → Prop) (arrivals : List Arrival) : Prop :=
  ∀ before a after, arrivals = before ++ a :: after → P before a

/-- The packets of one source: each carries its number's low 16 bits, the first
is in cycle 0, and every other is within `2^15` of the highest before it. -/
structure FromSource (arrivals : List Arrival) : Prop where
  low : AtEach (fun _ a => (a.hdr.sequence.toNat : Int) = a.number % 2 ^ 16) arrivals
  first : AtEach (fun before a => before = [] → cycleOf a.number = 0) arrivals
  near : AtEach (fun before a => before ≠ [] → |a.number - highest before| < 2 ^ 15) arrivals

/-- The tracked number is the highest one, after every packet. -/
def Tracks (clockRate : UInt32) (arrivals : List Arrival) : Prop :=
  AtEach (fun before a => ((observeAll clockRate (before ++ [a])).maxSeq.toNat : Int) =
    highest (before ++ [a])) arrivals

/-- No packet is from a cycle before the highest number's. -/
def NoEarlierCycle (arrivals : List Arrival) : Prop :=
  AtEach (fun before a => before ≠ [] → cycleOf (highest before) ≤ cycleOf a.number) arrivals

theorem atEach_nil (P : List Arrival → Arrival → Prop) : AtEach P [] := by
  intro before a after h
  simp at h

theorem atEach_append_singleton {P : List Arrival → Arrival → Prop} {front : List Arrival}
    {a : Arrival} : AtEach P (front ++ [a]) ↔ AtEach P front ∧ P front a := by
  constructor
  · intro h
    refine ⟨fun before b after hfront => ?_, h front a [] rfl⟩
    exact h before b (after ++ [a]) (by simp [hfront])
  · rintro ⟨hfront, ha⟩ before b after h
    obtain rfl | ⟨after, c, rfl⟩ := List.eq_nil_or_concat after
    · obtain ⟨rfl, heq⟩ := List.append_inj' h rfl
      obtain rfl := List.cons.inj heq |>.1
      exact ha
    · rw [List.concat_eq_append, ← List.cons_append, ← List.append_assoc] at h
      exact hfront before b after (List.append_inj' h rfl).1

theorem FromSource.front {front : List Arrival} {a : Arrival} (h : FromSource (front ++ [a])) :
    FromSource front where
  low := (atEach_append_singleton.mp h.low).1
  first := (atEach_append_singleton.mp h.first).1
  near := (atEach_append_singleton.mp h.near).1

theorem FromSource.push {front : List Arrival} {a : Arrival} (h : FromSource front)
    (hlow : (a.hdr.sequence.toNat : Int) = a.number % 2 ^ 16)
    (hfirst : front = [] → cycleOf a.number = 0)
    (hnear : front ≠ [] → |a.number - highest front| < 2 ^ 15) : FromSource (front ++ [a]) where
  low := atEach_append_singleton.mpr ⟨h.low, hlow⟩
  first := atEach_append_singleton.mpr ⟨h.first, hfirst⟩
  near := atEach_append_singleton.mpr ⟨h.near, hnear⟩

theorem fromSource_nil : FromSource [] := ⟨atEach_nil _, atEach_nil _, atEach_nil _⟩

theorem highest_append_singleton {front : List Arrival} (a : Arrival) (h : front ≠ []) :
    highest (front ++ [a]) = max (highest front) a.number := by
  cases front with
  | nil => contradiction
  | cons b bs => simp [highest, List.foldl_append]

theorem observeAll_append_singleton (clockRate : UInt32) (front : List Arrival) (a : Arrival) :
    observeAll clockRate (front ++ [a]) =
      (observeAll clockRate front).observeHeader a.hdr a.nowNs := by
  simp [observeAll, List.foldl_append]

/-! ## one packet -/

theorem toNat_extended (cycles : UInt32) (sequence : UInt16) :
    (StreamStats.extended cycles sequence).toNat =
      cycles.toNat % 2 ^ 16 * 2 ^ 16 + sequence.toNat := by
  have hseq := sequence.toNat_lt
  have hshift : (cycles <<< 16).toNat = (cycles.toNat % 2 ^ 16) <<< 16 := by
    rw [UInt32.toNat_shiftLeft, Nat.shiftLeft_eq, Nat.shiftLeft_eq]
    have h16 : (16 : UInt32).toNat % 32 = 16 := rfl
    rw [h16]
    omega
  rw [StreamStats.extended, UInt32.toNat_or, hshift, UInt16.toNat_toUInt32,
    ← Nat.shiftLeft_add_eq_or_of_lt hseq, Nat.shiftLeft_eq]

theorem toNat_low16 (n : UInt32) : (n &&& 0xFFFF).toUInt16.toNat = n.toNat % 2 ^ 16 := by
  rw [UInt32.toNat_toUInt16, UInt32.toNat_and]
  have hmask : (0xFFFF : UInt32).toNat = 2 ^ 16 - 1 := rfl
  rw [hmask, Nat.and_two_pow_sub_one_eq_mod, Nat.mod_mod]

/-- The tracker has the highest number, as far as 32 bits hold it. -/
structure Tracked (s : StreamStats) (top : Int) : Prop where
  seen : s.seenFirst = true
  nonneg : 0 ≤ top
  maxSeq : (s.maxSeq.toNat : Int) = top % 2 ^ 32
  cycles : (s.cycles.toNat : Int) = cycleOf top % 2 ^ 32

variable {x top : Int} {s s' : StreamStats} {sequence : UInt16}

theorem tracked_first (hseen : s.seenFirst = false)
    (hcycles : s.cycles = 0) (hlow : (sequence.toNat : Int) = x % 2 ^ 16) (hfirst : cycleOf x = 0) :
    Tracked (s.trackSequence sequence) x := by
  have hx : x = sequence.toNat := by
    unfold cycleOf at hfirst
    omega
  have hseq := sequence.toNat_lt
  rw [StreamStats.trackSequence, if_pos hseen]
  constructor
  · rfl
  · omega
  · show (sequence.toUInt32.toNat : Int) = x % 2 ^ 32
    rw [UInt16.toNat_toUInt32]
    omega
  · show (s.cycles.toNat : Int) = cycleOf x % 2 ^ 32
    rw [hcycles, hfirst]
    rfl

/-- From the same cycle or the next one, a packet is put where it belongs. -/
theorem Tracked.keep (h : Tracked s top)
    (hlow : (sequence.toNat : Int) = x % 2 ^ 16) (hnear : |x - top| < 2 ^ 15)
    (hcycle : cycleOf top ≤ cycleOf x) : Tracked (s.trackSequence sequence) (max top x) := by
  obtain ⟨hseen, hnonneg, hmax, hcycles⟩ := h
  have hlast := toNat_low16 s.maxSeq
  have hext := toNat_extended s.cycles sequence
  have hext' := toNat_extended (s.cycles + 1) sequence
  have hsucc : (s.cycles + 1).toNat = (s.cycles.toNat + 1) % 2 ^ 32 := UInt32.toNat_add _ _
  rw [abs_lt] at hnear
  unfold cycleOf at hcycle hcycles
  rw [StreamStats.trackSequence, if_neg (by simp [hseen]), hlast]
  simp only
  split
  · -- ahead within the cycle
    have hx : max top x = x := by omega
    rw [hx]
    refine ⟨hseen, by omega, ?_, ?_⟩
    · simp only [hext]
      omega
    · simp only [cycleOf]
      omega
  · split
    · -- ahead in the next cycle
      have hx : max top x = x := by omega
      rw [hx]
      refine ⟨hseen, by omega, ?_, ?_⟩
      · simp only [hext', hsucc]
        omega
      · simp only [cycleOf, hsucc]
        omega
    · have hx : max top x = top := by omega
      rw [hx]
      exact ⟨hseen, hnonneg, hmax, hcycles⟩

theorem Tracked.lose (h : Tracked s top)
    (hlow : (sequence.toNat : Int) = x % 2 ^ 16) (hnear : |x - top| < 2 ^ 15)
    (hcycle : cycleOf x < cycleOf top) :
    ((s.trackSequence sequence).maxSeq.toNat : Int) ≠ top % 2 ^ 32 := by
  obtain ⟨hseen, hnonneg, hmax, hcycles⟩ := h
  have hlast := toNat_low16 s.maxSeq
  have hext := toNat_extended s.cycles sequence
  rw [abs_lt] at hnear
  unfold cycleOf at hcycle hcycles
  rw [StreamStats.trackSequence, if_neg (by simp [hseen]), hlast, if_pos (by omega)]
  simp only [hext]
  omega

/-! ## a stream -/

/-- The fields of sequence tracking. -/
def StreamStats.tracking (s : StreamStats) : Bool × UInt32 × UInt32 × UInt32 :=
  (s.seenFirst, s.maxSeq, s.baseSeq, s.cycles)

theorem tracking_updateJitter (s : StreamStats) (rtpTs : UInt32) (nowNs : UInt64) :
    (s.updateJitter rtpTs nowNs).tracking = s.tracking := by
  unfold StreamStats.updateJitter
  simp only
  split <;> rfl

theorem tracking_trackSequence (h : s.tracking = s'.tracking)
    (sequence : UInt16) : (s.trackSequence sequence).tracking = (s'.trackSequence sequence).tracking := by
  simp only [tracking, Prod.mk.injEq] at h
  obtain ⟨hseen, hmax, hbase, hcycles⟩ := h
  unfold StreamStats.trackSequence
  simp only [hseen, hmax, hcycles]
  split
  · simp [tracking]
  · split
    · simp [tracking, hbase]
    · split <;> simp [tracking, hseen, hmax, hbase, hcycles]

theorem tracking_observeHeader (s : StreamStats) (hdr : RtpHeader) (nowNs : UInt64) :
    (s.observeHeader hdr nowNs).tracking = (s.trackSequence hdr.sequence).tracking := by
  unfold StreamStats.observeHeader
  simp only
  rw [tracking_updateJitter]
  let counted : StreamStats := { s with
    packets := s.packets + 1
    octets := s.octets + UInt64.ofNat (hdr.payloadEnd - hdr.payloadStart) }
  have hsame : counted.tracking = s.tracking := rfl
  exact tracking_trackSequence hsame hdr.sequence

theorem maxSeq_observeHeader (s : StreamStats) (hdr : RtpHeader) (nowNs : UInt64) :
    (s.observeHeader hdr nowNs).maxSeq = (s.trackSequence hdr.sequence).maxSeq :=
  congrArg (fun t => t.2.1) (tracking_observeHeader s hdr nowNs)

theorem Tracked.of_tracking (h : Tracked s top)
    (hsame : s'.tracking = s.tracking) : Tracked s' top := by
  simp only [tracking, Prod.mk.injEq] at hsame
  obtain ⟨hseen, hmax, -, hcycles⟩ := hsame
  exact ⟨hseen.trans h.seen, h.nonneg, by rw [hmax, h.maxSeq], by rw [hcycles, h.cycles]⟩

variable {front arrivals : List Arrival} {a : Arrival} {clockRate : UInt32}

theorem tracked_append (hsource : FromSource (front ++ [a]))
    (h : front ≠ [] → Tracked (observeAll clockRate front) (highest front))
    (hcycle : front ≠ [] → cycleOf (highest front) ≤ cycleOf a.number) :
    Tracked (observeAll clockRate (front ++ [a])) (highest (front ++ [a])) := by
  have hlow := (atEach_append_singleton.mp hsource.low).2
  have hfirst := (atEach_append_singleton.mp hsource.first).2
  have hnear := (atEach_append_singleton.mp hsource.near).2
  rw [observeAll_append_singleton]
  refine Tracked.of_tracking ?_ (tracking_observeHeader _ _ _)
  cases front with
  | nil => exact tracked_first rfl rfl hlow (hfirst rfl)
  | cons b bs =>
    have hne : b :: bs ≠ [] := List.cons_ne_nil b bs
    rw [highest_append_singleton a hne]
    exact (h hne).keep hlow (hnear hne) (hcycle hne)

/-- As long as no packet is from an earlier cycle, the tracked number is right. -/
theorem tracked_of_noEarlierCycle (hsource : FromSource arrivals) (hcycle : NoEarlierCycle arrivals)
    (hne : arrivals ≠ []) : Tracked (observeAll clockRate arrivals) (highest arrivals) := by
  induction arrivals using List.reverseRecOn with
  | nil => contradiction
  | append_singleton front a ih =>
    obtain ⟨hfront, ha⟩ := atEach_append_singleton.mp hcycle
    exact tracked_append hsource (ih hsource.front hfront) ha

theorem highest_lt (h : ∀ b ∈ arrivals, b.number < 2 ^ 32) : highest arrivals < 2 ^ 32 := by
  induction arrivals using List.reverseRecOn with
  | nil => decide
  | append_singleton front a ih =>
    have ha := h a (by simp)
    by_cases hne : front = []
    · subst hne
      exact ha
    · rw [highest_append_singleton a hne]
      exact max_lt (ih fun b hb => h b (List.mem_append_left _ hb)) ha

theorem number_le_highest (front : List Arrival) (a : Arrival) :
    a.number ≤ highest (front ++ [a]) := by
  by_cases hne : front = []
  · subst hne
    exact Int.le_refl _
  · rw [highest_append_singleton a hne]
    exact Int.le_max_right _ _

/-- After every packet the tracked extended number is the true highest one, if
and only if no packet is from a cycle before the highest number's and no number
needs more than 32 bits. -/
theorem tracks_iff (clockRate : UInt32) (arrivals : List Arrival) (hsource : FromSource arrivals) :
    Tracks clockRate arrivals ↔ NoEarlierCycle arrivals ∧ ∀ a ∈ arrivals, a.number < 2 ^ 32 := by
  induction arrivals using List.reverseRecOn with
  | nil => simp [Tracks, NoEarlierCycle, atEach_nil]
  | append_singleton front a ih =>
    rw [Tracks, NoEarlierCycle, atEach_append_singleton, atEach_append_singleton]
    have hlow := (atEach_append_singleton.mp hsource.low).2
    have hnear := (atEach_append_singleton.mp hsource.near).2
    constructor
    · rintro ⟨hfront, hlast⟩
      obtain ⟨hcycles, hbelow⟩ := (ih hsource.front).mp hfront
      have hwidth := (observeAll clockRate (front ++ [a])).maxSeq.toNat_lt
      have hnumber := number_le_highest front a
      refine ⟨⟨hcycles, fun hne => ?_⟩, fun b hb => ?_⟩
      · -- a packet from an earlier cycle would have moved the number
        by_contra hearlier
        have htracked : Tracked (observeAll clockRate front) (highest front) :=
          tracked_of_noEarlierCycle hsource.front hcycles hne
        have hlose := htracked.lose hlow (hnear hne) (by omega)
        have htop := highest_lt hbelow
        have hnonneg := htracked.nonneg
        have hmax : highest (front ++ [a]) = highest front := by
          have hnear := abs_lt.mp (hnear hne)
          rw [highest_append_singleton a hne]
          unfold cycleOf at hearlier
          omega
        rw [observeAll_append_singleton, maxSeq_observeHeader, hmax] at hlast
        omega
      · obtain hb | hb := List.mem_append.mp hb
        · exact hbelow b hb
        · obtain rfl := List.mem_singleton.mp hb
          omega
    · rintro ⟨⟨hcycles, hcycle⟩, hbelow⟩
      have hfront := (ih hsource.front).mpr
        ⟨hcycles, fun b hb => hbelow b (List.mem_append_left _ hb)⟩
      refine ⟨hfront, ?_⟩
      have htracked : Tracked (observeAll clockRate (front ++ [a])) (highest (front ++ [a])) :=
        tracked_append hsource (tracked_of_noEarlierCycle hsource.front hcycles) hcycle
      have htop := highest_lt hbelow
      have hnonneg := htracked.nonneg
      have hmax := htracked.maxSeq
      omega

/-! ## around a wrap -/

/-- A packet with a number of the stream. -/
def packetOf (number : Nat) : Arrival :=
  ⟨⟨false, 0, UInt16.ofNat number, 0, 1, 0, false, 12, 172⟩, 0, number⟩

theorem fromSource_wrap : FromSource [packetOf 65534, packetOf 65537] := by
  have hfirst : FromSource [packetOf 65534] := fromSource_nil.push (by decide) (by decide) (by decide)
  exact hfirst.push (by decide) (by decide) (by decide)

/-- Behind the wrap, a late packet of the new cycle does no harm. -/
theorem tracks_iff_wrap : Tracks 8000 [packetOf 65534, packetOf 65537, packetOf 65536] := by
  have hsource : FromSource [packetOf 65534, packetOf 65537, packetOf 65536] :=
    fromSource_wrap.push (by decide) (by decide) (by decide)
  refine (tracks_iff 8000 _ hsource).mpr ⟨?_, by decide⟩
  have h (P : List Arrival → Arrival → Prop) (h₁ : P [] (packetOf 65534))
      (h₂ : P [packetOf 65534] (packetOf 65537))
      (h₃ : P [packetOf 65534, packetOf 65537] (packetOf 65536)) :
      AtEach P [packetOf 65534, packetOf 65537, packetOf 65536] := by
    have hone : AtEach P ([] ++ [packetOf 65534]) := atEach_append_singleton.mpr ⟨atEach_nil P, h₁⟩
    have htwo : AtEach P ([packetOf 65534] ++ [packetOf 65537]) := atEach_append_singleton.mpr ⟨hone, h₂⟩
    have hthree : AtEach P ([packetOf 65534, packetOf 65537] ++ [packetOf 65536]) :=
      atEach_append_singleton.mpr ⟨htwo, h₃⟩
    exact hthree
  exact h _ (by decide) (by decide) (by decide)

/-- A packet from before the wrap that arrives behind it moves the number a
whole cycle up. -/
theorem wrap_reorder_miscounts :
    ¬ ∀ clockRate arrivals, FromSource arrivals → Tracks clockRate arrivals := by
  intro hall
  have hsource : FromSource [packetOf 65534, packetOf 65537, packetOf 65535] :=
    fromSource_wrap.push (by decide) (by decide) (by decide)
  have h := hall 8000 _ hsource [packetOf 65534, packetOf 65537] (packetOf 65535) [] rfl
  exact absurd h (by decide)

end SmithsNet.Media
