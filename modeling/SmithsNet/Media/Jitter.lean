import Mathlib
import SmithsNet.Lib.Sorted

/-!
# SmithsNet.Media.Jitter

The adaptive playout jitter buffer (`smiths-media/src/jitter.rs`).

Play indices are integers, the program's `i64` ones.  Counters are 64-bit and wrap around; depths (`usize`) are numbers whose sums wrap at `2^64`.
The gain of a concealment frame is computed in floating point: it is a
parameter, `Fade`.
-/

namespace SmithsNet.Media

open Lib

/-! ## data -/

/-- Tunables.  All depths are in frames. -/
structure JitterConfig where
  initialTarget : Nat := 3
  minTarget : Nat := 2
  maxTarget : Nat := 12
  /-- Hard cap on how far ahead of the play head a frame may sit. -/
  maxBuffer : Nat := 100
  /-- Gap from which on the play head jumps instead of concealing. -/
  resyncGap : Nat := 12
  lowerAfterClean : UInt32 := 250
  catchupSlack : Nat := 4

structure JitterStats where
  inserted : UInt64 := 0
  played : UInt64 := 0
  concealedLoss : UInt64 := 0
  concealedStarve : UInt64 := 0
  duplicates : UInt64 := 0
  late : UInt64 := 0
  overflow : UInt64 := 0
  resyncs : UInt64 := 0
  rebuffers : UInt64 := 0
  catchup : UInt64 := 0

/-- What `insert` did with the offered frame. -/
inductive Insert
  | buffered
  | duplicate
  | late
  | overflow
  deriving DecidableEq

/-- What `tick_into` wrote. -/
inductive Playout
  | priming
  | played
  | concealed

/-- One buffered frame. -/
structure Stored where
  seq : UInt16
  pcm : List Int16
  deriving DecidableEq

/-- Frames by their play index. -/
abbrev Frames := Sorted (Prod.fst : Int × Stored → Int)

structure JitterBuffer where
  cfg : JitterConfig
  frames : Frames
  /-- Index of the next frame to play. -/
  expected : Option Int
  anchorIndex : Int
  anchorSeq : UInt16
  primed : Bool
  /-- Adaptive playout depth. -/
  target : Nat
  frameSamples : Nat
  lastFrame : List Int16
  concealRun : UInt32
  starveRun : Nat
  cleanRun : UInt32
  stats : JitterStats

/-- How the `n`-th concealment frame in a row scales its samples; `none` when
the gain has faded out. -/
abbrev Fade := UInt32 → Option (Int16 → Int16)

/-- Outcome of one play-head advance. -/
inductive Next
  | frame (pcm : List Int16)
  | conceal

/-- `i64::try_from(n).unwrap_or(i64::MAX)` -/
def toI64 (n : Nat) : Int := if n < 2 ^ 63 then n else 2 ^ 63 - 1

/-- `as i16` -/
def asI16 (d : UInt16) : Int := if d.toNat < 2 ^ 15 then d.toNat else d.toNat - 2 ^ 16

namespace JitterBuffer

def withConfig (frameSamples : Nat) (cfg : JitterConfig) : JitterBuffer where
  cfg := cfg
  frames := .empty
  expected := none
  anchorIndex := 0
  anchorSeq := 0
  primed := false
  target := cfg.initialTarget
  frameSamples := frameSamples
  lastFrame := []
  concealRun := 0
  starveRun := 0
  cleanRun := 0
  stats := {}

/-- Frames currently buffered. -/
def depth (jb : JitterBuffer) : Nat := jb.frames.len

/-! ## arrival -/

/-- Absolute play index of an incoming sequence number. -/
def indexOf (jb : JitterBuffer) (seq : UInt16) : Int :=
  jb.anchorIndex + asI16 (seq - jb.anchorSeq)

/-- The sequence space is anchored onto the frame. -/
def anchor (jb : JitterBuffer) (seq : UInt16) (pcm : List Int16) : JitterBuffer :=
  { jb with
    frames := Sorted.empty.put (0, ⟨seq, pcm⟩), anchorIndex := 0, anchorSeq := seq, expected := some 0 }

/-- Offer a decoded frame. -/
def insert (jb : JitterBuffer) (seq : UInt16) (pcm : List Int16) : Insert × JitterBuffer :=
  let jb := { jb with stats := { jb.stats with inserted := jb.stats.inserted + 1 } }
  if jb.expected = none ∨ jb.primed = false ∧ jb.frames.rows = [] then
    (.buffered, jb.anchor seq pcm)
  else
    let expected := jb.expected.getD 0
    let idx := jb.indexOf seq
    if idx < expected then
      (.late, { jb with stats := { jb.stats with late := jb.stats.late + 1 } })
    else if idx - expected ≥ toI64 jb.cfg.maxBuffer then
      (.overflow, { jb with stats := { jb.stats with overflow := jb.stats.overflow + 1 } })
    else
      match jb.frames.get idx with
      | some _ =>
        (.duplicate, { jb with stats := { jb.stats with duplicates := jb.stats.duplicates + 1 } })
      | none => (.buffered, { jb with frames := jb.frames.put (idx, ⟨seq, pcm⟩) })

/-! ## playout -/

/-- Drop the oldest frame. -/
def popOldest (jb : JitterBuffer) : JitterBuffer :=
  { jb with
    frames := jb.frames.popFirst, stats := { jb.stats with catchup := jb.stats.catchup + 1 } }

/-- Drop the oldest frames down to `target`, one a round. -/
def dropOldest : Nat → JitterBuffer → JitterBuffer
  | 0, jb => jb
  | rounds + 1, jb =>
    if jb.frames.len > jb.target then
      match jb.frames.first with
      | some _ => dropOldest rounds jb.popOldest
      | none => jb
    else jb

/-- Bound latency: skip the oldest frames of a buffer that has run too deep.
Every round of the loop removes a frame, so there are no more rounds than
frames. -/
def catchUp (jb : JitterBuffer) (expected : Int) : Int × JitterBuffer :=
  if jb.frames.len ≤ (jb.target + jb.cfg.catchupSlack) % 2 ^ 64 then (expected, jb)
  else
    let jb := dropOldest jb.frames.len jb
    match jb.frames.first with
    | some (idx, stored) =>
      (idx, { jb with expected := some idx, anchorIndex := idx, anchorSeq := stored.seq })
    | none => (expected, jb)

/-- Release the frame played at `pos` and move the play head behind it. -/
def deliver (jb : JitterBuffer) (pos : Int) (frame : Stored) : JitterBuffer :=
  { jb with
    frames := jb.frames.remove pos
    lastFrame := frame.pcm
    concealRun := 0
    starveRun := 0
    stats := { jb.stats with played := jb.stats.played + 1 }
    expected := some (pos + 1)
    anchorIndex := pos + 1
    anchorSeq := frame.seq + 1 }

/-- Record a clean play; narrow the cushion after a long calm stretch. -/
def noteClean (jb : JitterBuffer) : JitterBuffer :=
  let jb := { jb with cleanRun := jb.cleanRun + 1 }
  if jb.cleanRun ≥ jb.cfg.lowerAfterClean then
    { jb with cleanRun := 0, target := if jb.target > jb.cfg.minTarget then jb.target - 1 else jb.target }
  else jb

/-- The expected frame is lost: step over its slot. -/
def skip (jb : JitterBuffer) (expected : Int) : JitterBuffer :=
  { jb with
    stats := { jb.stats with concealedLoss := jb.stats.concealedLoss + 1 }
    expected := some (expected + 1)
    anchorIndex := expected + 1
    anchorSeq := jb.anchorSeq + 1 }

/-- The buffer has run dry. -/
def starve (jb : JitterBuffer) : JitterBuffer :=
  let jb := { jb with
    cleanRun := 0
    stats := { jb.stats with concealedStarve := jb.stats.concealedStarve + 1 }
    starveRun := jb.starveRun + 1 }
  if jb.starveRun ≥ jb.target then
    { jb with
      target := min ((jb.target + 1) % 2 ^ 64) jb.cfg.maxTarget
      primed := false
      starveRun := 0
      stats := { jb.stats with rebuffers := jb.stats.rebuffers + 1 } }
  else jb

/-- What is played once the cushion has filled. -/
def play (jb : JitterBuffer) (expected : Int) : Next × JitterBuffer :=
  let (expected, jb) := jb.catchUp expected
  match jb.frames.get expected with
  | some (_, frame) => (.frame frame.pcm, (jb.deliver expected frame).noteClean)
  | none =>
    match jb.frames.first with
    | some (lowest, frame) =>
      let jb := { jb with cleanRun := 0 }
      if lowest - expected ≥ toI64 jb.cfg.resyncGap then
        let jb := { jb with stats := { jb.stats with resyncs := jb.stats.resyncs + 1 } }
        (.frame frame.pcm, jb.deliver lowest frame)
      else (.conceal, jb.skip expected)
    | none => (.conceal, jb.starve)

/-- Shared play-head logic of `tick` and `tick_into`; `none` while priming. -/
def advance (jb : JitterBuffer) : Option Next × JitterBuffer :=
  match jb.expected with
  | none => (none, jb)
  | some expected =>
    if jb.primed = false ∧ jb.frames.len < jb.target then (none, jb)
    else
      let (next, jb) := { jb with primed := true }.play expected
      (some next, jb)

/-- Scaling of the next concealment frame. -/
def concealGain (fade : Fade) (jb : JitterBuffer) : Option (Int16 → Int16) × JitterBuffer :=
  let jb := { jb with concealRun := jb.concealRun + 1 }
  (if jb.lastFrame = [] then none else fade jb.concealRun, jb)

def concealFrame (fade : Fade) (jb : JitterBuffer) : List Int16 × JitterBuffer :=
  match jb.concealGain fade with
  | (none, jb) =>
    (List.replicate (if jb.lastFrame = [] then jb.frameSamples else jb.lastFrame.length) 0, jb)
  | (some scale, jb) => (jb.lastFrame.map scale, jb)

/-- Samples cut to, or filled up with silence to, the length of a slice. -/
def copyFrame (pcm : List Int16) (n : Nat) : List Int16 :=
  pcm.take n ++ List.replicate (n - pcm.length) 0

def concealInto (fade : Fade) (jb : JitterBuffer) (n : Nat) : List Int16 × JitterBuffer :=
  match jb.concealGain fade with
  | (none, jb) => (List.replicate n 0, jb)
  | (some scale, jb) => (copyFrame (jb.lastFrame.map scale) n, jb)

/-- Advance the play head by one frame interval. -/
def tick (fade : Fade) (jb : JitterBuffer) : Option (List Int16) × JitterBuffer :=
  match jb.advance with
  | (none, jb) => (none, jb)
  | (some (.frame pcm), jb) => (some pcm, jb)
  | (some .conceal, jb) =>
    let (pcm, jb) := jb.concealFrame fade
    (some pcm, jb)

/-- The same, writing into a slice of `n` samples. -/
def tickInto (fade : Fade) (jb : JitterBuffer) (n : Nat) : (Playout × List Int16) × JitterBuffer :=
  match jb.advance with
  | (none, jb) => ((.priming, List.replicate n 0), jb)
  | (some (.frame pcm), jb) => ((.played, copyFrame pcm n), jb)
  | (some .conceal, jb) =>
    let (pcm, jb) := jb.concealInto fade n
    ((.concealed, pcm), jb)

/-! ## runs -/

inductive Call
  | insert (seq : UInt16) (pcm : List Int16)
  | tick
  | tickInto (n : Nat)

/-- The buffer after a call. -/
def call (fade : Fade) (jb : JitterBuffer) : Call → JitterBuffer
  | .insert seq pcm => (jb.insert seq pcm).2
  | .tick => (jb.tick fade).2
  | .tickInto n => (jb.tickInto fade n).2

/-- The buffer after a list of calls. -/
def run (fade : Fade) (jb : JitterBuffer) (calls : List Call) : JitterBuffer :=
  calls.foldl (call fade) jb

end JitterBuffer

end SmithsNet.Media
