import Mathlib
import SmithsNet.Lib.Hex
import SmithsNet.Media.Rtcp
import SmithsNet.Media.RtpStats

/-!
# SmithsNet.Media.LossReport

How the loss of a stream gets into a sender report (`smiths-media/src/rtp_stats.rs`,
the reporting task in `smiths-media/src/bridge.rs`) and out of it again
(`smiths-media/src/rtcp.rs`).

The loss is a difference of 64 bits, the field of a snapshot has 32, the field of a report
block 24, and at each passage the high bits are dropped.  `loss_kept_iff` says when the far
side reads the loss clamped to 24 signed bits.
-/

namespace SmithsNet.Media

open Lib Media.Rtcp

/-! ## snapshots -/

/-- The last sender report from the originator of a stream. -/
structure SenderReportSeen where
  /-- Middle 32 bits of its time stamp, 0 before the first. -/
  lastSrNtpMid : UInt32 := 0
  lastSrArrivalNs : UInt64 := NEVER

/-- What a report says of a stream direction. -/
structure StreamStatsSnapshot where
  packets : UInt64
  octets : UInt64
  maxSeq : UInt32
  expected : UInt64
  lastRtpTs : UInt32
  lastSsrc : UInt32
  jitter : UInt32
  cumulativeLost : Int32
  lastSr : UInt32
  /-- In nanoseconds. -/
  lastSrAge : Option Nat

namespace StreamStats

/-- Packets lost so far, in 64 bits. -/
def lost (s : StreamStats) : Int := max 0 (min (s.expected - s.packets.toInt64.toInt) (2 ^ 63 - 1))

def snapshot (s : StreamStats) (seen : SenderReportSeen) (nowNs : UInt64) : StreamStatsSnapshot where
  packets := s.packets
  octets := s.octets
  maxSeq := s.maxSeq
  expected := UInt64.ofNat s.expected
  lastRtpTs := s.lastRtpTs
  lastSsrc := s.lastSsrc
  jitter := s.jitterX16 / 16
  cumulativeLost := s.cumulativeLost
  lastSr := seen.lastSrNtpMid
  lastSrAge := if seen.lastSrArrivalNs = NEVER then none else some (nowNs.toNat - seen.lastSrArrivalNs.toNat)

theorem cumulativeLost_eq (s : StreamStats) : s.cumulativeLost = Int32.ofInt s.lost := rfl

theorem lost_nonneg (s : StreamStats) : 0 ≤ s.lost := Int.le_max_left _ _

end StreamStats

/-- The counts at the previous report. -/
structure IntervalLoss where
  expectedPrior : UInt64 := 0
  receivedPrior : UInt64 := 0

/-- The share lost since the previous report, in 256ths, and the counts for the next. -/
def IntervalLoss.fractionLost (il : IntervalLoss) (snap : StreamStatsSnapshot) : UInt8 × IntervalLoss :=
  let expectedInterval := snap.expected.toNat - il.expectedPrior.toNat
  let receivedInterval := snap.packets.toNat - il.receivedPrior.toNat
  let next : IntervalLoss := ⟨snap.expected, snap.packets⟩
  if expectedInterval = 0 ∨ receivedInterval ≥ expectedInterval then (0, next)
  else
    let lost := expectedInterval - receivedInterval
    (UInt8.ofNat (min (lost * 256 / expectedInterval) 255), next)

/-! ## reports -/

/-- A delay in units of `1/65536` s. -/
def toDlsr (delayNs : Nat) : UInt32 := UInt32.ofNat (min (delayNs / 1000 * 65536 / 1000000) (2 ^ 32 - 1))

/-- `u32::try_from(n).unwrap_or(u32::MAX)` -/
def clampU32 (n : UInt64) : UInt32 := UInt32.ofNat (min n.toNat (2 ^ 32 - 1))

/-- What the bridge reports of the stream it receives. -/
def reportBlock (il : IntervalLoss) (recv : StreamStatsSnapshot) : ReportBlock where
  ssrc := recv.lastSsrc
  fractionLost := (il.fractionLost recv).1
  cumulativeLost := recv.cumulativeLost
  extendedHighestSeq := recv.maxSeq
  jitter := recv.jitter
  lastSr := recv.lastSr
  delaySinceLastSr := (recv.lastSrAge.map toDlsr).getD 0

/-- What the bridge says of the stream it sends. -/
def senderPart (senderSsrc : UInt32) (ntp : UInt64) (send : StreamStatsSnapshot) : ParsedSr :=
  ⟨senderSsrc, ntp, send.lastRtpTs, clampU32 send.packets, clampU32 send.octets⟩

/-- One report: without a block where nothing was received. -/
def bridgeReport (senderSsrc : UInt32) (ntp : UInt64) (il : IntervalLoss) (send recv : StreamStatsSnapshot) : Bytes :=
  let info := senderPart senderSsrc ntp send
  let sr :=
    if recv.packets = 0 then buildSr info.senderSsrc info.ntpTs info.rtpTs info.packetCount info.octetCount
    else buildSrWithRb info.senderSsrc info.ntpTs info.rtpTs info.packetCount info.octetCount (reportBlock il recv)
  let sdes := buildSdesCname senderSsrc (hexFixed 8 senderSsrc.toNat ++ "@smiths-net".toList)
  buildCompound [sr, sdes]

/-! ## 24 bits -/

/-- What is left of a counter in 24 bits, sign-extended. -/
def cut24 (n : Int) : Int := Int.bmod n (2 ^ 24)

/-- A counter clamped to 24 signed bits. -/
def clamp24 (n : Int) : Int := max (-2 ^ 23) (min n (2 ^ 23 - 1))

theorem cut24_bounds (n : Int) : -2 ^ 23 ≤ cut24 n ∧ cut24 n < 2 ^ 23 := by
  rw [cut24, Int.bmod_def]
  split <;> omega

theorem cut24_mod (n : Int) : cut24 n % 2 ^ 24 = n % 2 ^ 24 := by
  rw [cut24, Int.bmod_def]
  split <;> omega

/-- Of a loss the sign survives below `2^23`, and the clamped value at one residue above. -/
theorem cut24_eq_clamp24 {n : Int} (h : 0 ≤ n) :
    cut24 n = clamp24 n ↔ n < 2 ^ 23 ∨ n % 2 ^ 24 = 2 ^ 23 - 1 := by
  rw [cut24, clamp24, Int.bmod_def]
  split <;> omega

theorem toInt_ofInt_of_fits {n : Int} (h : -2 ^ 23 ≤ n ∧ n < 2 ^ 23) : (Int32.ofInt n).toInt = n := by
  rw [Int32.toInt_ofInt, Int.bmod_def]
  simp only [Int32.size]
  split <;> omega

/-- The block that has the same bytes, and fits. -/
def cutBlock (rb : ReportBlock) : ReportBlock :=
  { rb with cumulativeLost := Int32.ofInt (cut24 rb.cumulativeLost.toInt) }

theorem fits_cutBlock (rb : ReportBlock) : (cutBlock rb).Fits := by
  have hbounds := cut24_bounds rb.cumulativeLost.toInt
  unfold ReportBlock.Fits cutBlock
  rw [toInt_ofInt_of_fits hbounds]
  exact hbounds

theorem writeReportBlock_cutBlock (rb : ReportBlock) : writeReportBlock (cutBlock rb) = writeReportBlock rb := by
  have hlow : (cutBlock rb).cumulativeLost.toUInt32 &&& 0x00FFFFFF = rb.cumulativeLost.toUInt32 &&& 0x00FFFFFF := by
    have hmod := cut24_mod rb.cumulativeLost.toInt
    have hcut : (cutBlock rb).cumulativeLost.toInt = cut24 rb.cumulativeLost.toInt := toInt_ofInt_of_fits (cut24_bounds _)
    have hnew := toNat_toUInt32 (cutBlock rb).cumulativeLost
    have hold := toNat_toUInt32 rb.cumulativeLost
    apply UInt32.toNat_inj.mp
    rw [and_low24, and_low24]
    split at hnew <;> split at hold <;> omega
  unfold writeReportBlock
  rw [hlow]
  rfl

theorem parseCompound_bridgeReport (senderSsrc : UInt32) (ntp : UInt64) (il : IntervalLoss)
    (send recv : StreamStatsSnapshot) (h : recv.packets ≠ 0) :
    ∃ rest, parseCompound (bridgeReport senderSsrc ntp il send recv) =
      .senderReport (senderPart senderSsrc ntp send) [cutBlock (reportBlock il recv)] :: rest := by
  have hbytes : ∀ rb : ReportBlock, laySr (senderPart senderSsrc ntp send) [cutBlock rb] =
      laySr (senderPart senderSsrc ntp send) [rb] := by
    intro rb
    simp only [laySr, List.flatMap_cons, writeReportBlock_cutBlock]
    rfl
  have hone : [cutBlock (reportBlock il recv)].length ≤ 31 := by simp
  obtain ⟨hframed, hparse⟩ := reads_laySr (senderPart senderSsrc ntp send) hone (by simpa using fits_cutBlock _)
  rw [hbytes, ← buildSrWithRb_eq] at hframed hparse
  simp only [bridgeReport, if_neg h, buildCompound, List.flatten_cons]
  rw [parseCompound_append hframed, hparse]
  exact ⟨_, rfl⟩

/-- The loss of a snapshot in 24 bits: the 32 of its field do not matter. -/
theorem toInt_cutBlock_reportBlock (s : StreamStats) (seen : SenderReportSeen) (nowNs : UInt64) (il : IntervalLoss) :
    (cutBlock (reportBlock il (s.snapshot seen nowNs))).cumulativeLost.toInt = cut24 s.lost := by
  have hcut : (cutBlock (reportBlock il (s.snapshot seen nowNs))).cumulativeLost.toInt = cut24 s.cumulativeLost.toInt :=
    toInt_ofInt_of_fits (cut24_bounds _)
  rw [hcut, s.cumulativeLost_eq, Int32.toInt_ofInt]
  unfold cut24
  exact Int.bmod_bmod_of_dvd (by decide)

/-- The far side reads the loss of a snapshot clamped to 24 signed bits. -/
def LossKept (s : StreamStats) : Prop :=
  ∀ (seen : SenderReportSeen) (nowNs : UInt64) (il : IntervalLoss) (senderSsrc : UInt32) (ntp : UInt64)
    (send : StreamStatsSnapshot), ∃ info rb rest,
      parseCompound (bridgeReport senderSsrc ntp il send (s.snapshot seen nowNs)) = .senderReport info [rb] :: rest ∧
        rb.cumulativeLost.toInt = clamp24 s.lost

/-- **The loss of a snapshot arrives clamped exactly when it is below `2^23`, or its low 24
bits happen to be those of the clamped value.** -/
theorem loss_kept_iff (s : StreamStats) (h : s.packets ≠ 0) :
    LossKept s ↔ s.lost < 2 ^ 23 ∨ s.lost % 2 ^ 24 = 2 ^ 23 - 1 := by
  rw [← cut24_eq_clamp24 s.lost_nonneg]
  constructor
  · intro hkept
    let send := s.snapshot {} 0
    obtain ⟨info, rb, rest, hparse, hclamp⟩ := hkept {} 0 {} 1 0 send
    obtain ⟨rest', hparse'⟩ := parseCompound_bridgeReport 1 0 {} send (s.snapshot {} 0) h
    rw [hparse'] at hparse
    obtain ⟨hblock, -⟩ := List.cons.inj hparse
    obtain ⟨-, hblock⟩ := RtcpPacket.senderReport.inj hblock
    obtain ⟨rfl, -⟩ := List.cons.inj hblock
    rw [← hclamp, toInt_cutBlock_reportBlock]
  · intro hcut seen nowNs il senderSsrc ntp send
    obtain ⟨rest, hparse⟩ := parseCompound_bridgeReport senderSsrc ntp il send (s.snapshot seen nowNs) h
    exact ⟨_, _, rest, hparse, (toInt_cutBlock_reportBlock s seen nowNs il).trans hcut⟩

/-- Four packets are missing. -/
theorem loss_kept_gap : LossKept (observeAll 8000 [packetOf 0, packetOf 5]) :=
  (loss_kept_iff _ (by decide)).mpr (.inl (by decide +kernel))

/-- A sender that skips most of its numbers, 130 times round. -/
def skippingArrivals : List Arrival :=
  (List.range 130).flatMap fun k => [packetOf (65536 * k), packetOf (65536 * k + 40000)]

/-- Its loss arrives negative. -/
theorem loss_turns_negative : ¬ ∀ s : StreamStats, s.packets ≠ 0 → LossKept s := by
  intro h
  have hpackets : (observeAll 8000 skippingArrivals).packets ≠ 0 := by decide +kernel
  have hlost : cut24 (observeAll 8000 skippingArrivals).lost < 0 ∧ 0 < clamp24 (observeAll 8000 skippingArrivals).lost := by
    decide +kernel
  generalize observeAll 8000 skippingArrivals = s at hpackets hlost
  obtain ⟨info, rb, rest, hparse, hclamp⟩ := h s hpackets {} 0 {} 1 0 (s.snapshot {} 0)
  obtain ⟨rest', hparse'⟩ := parseCompound_bridgeReport 1 0 {} (s.snapshot {} 0) (s.snapshot {} 0) hpackets
  rw [hparse'] at hparse
  obtain ⟨hblock, -⟩ := List.cons.inj hparse
  obtain ⟨-, hblock⟩ := RtcpPacket.senderReport.inj hblock
  obtain ⟨rfl, -⟩ := List.cons.inj hblock
  rw [toInt_cutBlock_reportBlock] at hclamp
  omega

end SmithsNet.Media
