import Mathlib
import SmithsNet.Media.JitterInvariant

/-!
# SmithsNet.Media.JitterRestart

A stream that starts anew is heard again: whatever state the jitter buffer is
in, packets with consecutive sequence numbers that arrive one a tick are
released after a bounded number of ticks.

One tick is analysed once, in `advance_cases`: it plays a stored frame, steps
over a lost one, or finds the buffer dry.  The rest follows the new stream
through the states it may meet:

* `ready_within` — a buffer that is still filling its cushion fills it, at the
  latest when the sequence numbers have come round;
* `drainOld` — frames of the old stream are played or passed;
* `playNew`, `starveOut` — what is stored of the new stream is played, and a
  buffer that stores none of it runs dry and starts over (`anchored`).
-/

namespace SmithsNet.Media

open Lib

/-- How many slots in front of the play head a frame can be stored in. -/
def JitterConfig.window (cfg : JitterConfig) : Nat := min cfg.maxBuffer (2 ^ 15)

/-- Targets a cushion can reach: not above the window, which is not empty, and
a ceiling that is not zero where a buffer may not run any deeper. -/
structure JitterConfig.TargetsFit (cfg : JitterConfig) : Prop where
  buffer : 1 ≤ cfg.maxBuffer
  initial : cfg.initialTarget ≤ cfg.window
  ceiling : cfg.maxTarget ≤ cfg.window
  positive : 1 ≤ cfg.maxTarget ∨ 1 ≤ cfg.catchupSlack % 2 ^ 64

/-! ## frames in consecutive slots -/

section Slots

variable {t : Frames} {e : Int} {w : Nat}

theorem keys_nodup (t : Frames) : (t.rows.map (·.1)).Nodup :=
  (List.pairwise_map.mpr (t.sorted.imp fun h => ne_of_lt h))

theorem le_len_of_slots (h : ∀ i < w, ∃ r ∈ t.rows, r.1 = e + (i : Nat)) : w ≤ t.len := by
  have hnodup : ((List.range w).map fun i : Nat => e + i).Nodup := by
    refine List.Nodup.map ?_ List.nodup_range
    intro a b hab
    simp only at hab
    omega
  have hsub : ((List.range w).map fun i : Nat => e + i) ⊆ t.rows.map (·.1) := by
    intro x hx
    obtain ⟨i, hi, rfl⟩ := List.mem_map.mp hx
    obtain ⟨r, hr, hkey⟩ := h i (List.mem_range.mp hi)
    exact List.mem_map.mpr ⟨r, hr, hkey⟩
  have hle := (hnodup.subperm hsub).length_le
  simpa [Sorted.len] using hle

/-- A table whose rows all lie in a stretch has no more rows than slots. -/
theorem len_le_of_slots (h : ∀ r ∈ t.rows, e ≤ r.1 ∧ r.1 < e + (w : Int)) : t.len ≤ w := by
  have hsub : t.rows.map (·.1) ⊆ (List.range w).map fun i : Nat => e + i := by
    intro x hx
    obtain ⟨r, hr, rfl⟩ := List.mem_map.mp hx
    have hr := h r hr
    refine List.mem_map.mpr ⟨(r.1 - e).toNat, List.mem_range.mpr (by omega), by omega⟩
  have hle := ((keys_nodup t).subperm hsub).length_le
  simpa [Sorted.len] using hle

end Slots

/-! ## one tick -/

namespace JitterBuffer

variable {cfg : JitterConfig} {jb : JitterBuffer} {e : Int}

/-- The cushion has filled, or playout already runs. -/
def Ready (jb : JitterBuffer) : Prop := ¬ (jb.primed = false ∧ jb.frames.len < jb.target)

/-- The next tick releases the stored frame `r`. -/
def Plays (jb : JitterBuffer) (r : Int × Stored) : Prop :=
  r ∈ jb.frames.rows ∧ jb.advance.1 = some (.frame r.2.pcm) ∧
    jb.advance.2.expected = some (r.1 + 1)

/-- The play head lets go of the frame `r` and stands behind it. -/
structure PlayedRow (jb : JitterBuffer) (r : Int × Stored) : Prop where
  plays : jb.Plays r
  primed : jb.advance.2.primed = true
  target : jb.advance.2.target ≤ jb.target
  rows : ∀ q ∈ jb.advance.2.frames.rows, q ∈ jb.frames.rows

/-- The play head steps over a lost frame. -/
structure Skipped (jb : JitterBuffer) (e : Int) : Prop where
  expected : jb.advance.2.expected = some (e + 1)
  primed : jb.advance.2.primed = true
  frames : jb.advance.2.frames = jb.frames
  target : jb.advance.2.target = jb.target
  beyond : ∀ q ∈ jb.frames.rows, e + 1 ≤ q.1

/-- The buffer is dry, or has just been emptied to catch up. -/
structure Starved (jb : JitterBuffer) : Prop where
  expected : jb.advance.2.expected ≠ none
  rows : jb.advance.2.frames.rows = []
  cause : jb.frames.rows = [] ∨ jb.target = 0 ∧ jb.cfg.catchupSlack % 2 ^ 64 < jb.frames.len
  outcome : (jb.starveRun + 1 < jb.target ∧ jb.advance.2.primed = true ∧
      jb.advance.2.target = jb.target ∧ jb.advance.2.starveRun = jb.starveRun + 1) ∨
    (jb.advance.2.primed = false ∧
      jb.advance.2.target = min ((jb.target + 1) % 2 ^ 64) jb.cfg.maxTarget)

theorem noteClean_frames (jb : JitterBuffer) : jb.noteClean.frames = jb.frames := by
  unfold noteClean
  simp only
  split <;> rfl

theorem noteClean_primed (jb : JitterBuffer) : jb.noteClean.primed = jb.primed := by
  unfold noteClean
  simp only
  split <;> rfl

theorem noteClean_target_le (jb : JitterBuffer) : jb.noteClean.target ≤ jb.target := by
  unfold noteClean
  simp only
  split
  · simp only
    split <;> omega
  · exact le_rfl

/-- Dropping the oldest frames touches nothing but the frames, keeps some of
them, and stops at the target. -/
theorem dropOldest_cases (rounds : Nat) (jb : JitterBuffer) (hrounds : jb.frames.len ≤ rounds) :
    (dropOldest rounds jb).primed = jb.primed ∧ (dropOldest rounds jb).target = jb.target ∧
      (dropOldest rounds jb).starveRun = jb.starveRun ∧ (dropOldest rounds jb).cfg = jb.cfg ∧
      (∀ q ∈ (dropOldest rounds jb).frames.rows, q ∈ jb.frames.rows) ∧
      ((dropOldest rounds jb).frames.rows = [] → jb.frames.rows = [] ∨ jb.target = 0) := by
  induction rounds generalizing jb with
  | zero => exact ⟨rfl, rfl, rfl, rfl, fun q hq => hq, fun h => Or.inl h⟩
  | succ rounds ih =>
    unfold dropOldest
    split
    · next hdeep =>
      split
      · next r hfirst =>
        have hlen := Sorted.len_popFirst hfirst
        have hpop : jb.popOldest.frames.len ≤ rounds := by
          show jb.frames.popFirst.len ≤ rounds
          omega
        obtain ⟨h1, h2, h3, h4, h5, h6⟩ := ih jb.popOldest hpop
        refine ⟨h1, h2, h3, h4, fun q hq => Sorted.mem_of_mem_popFirst (h5 q hq), ?_⟩
        intro hnil
        refine Or.inr ?_
        obtain hempty | hzero := h6 hnil
        · have hempty : jb.frames.popFirst.len = 0 := by
            rw [Sorted.len]
            exact List.length_eq_zero_iff.mpr hempty
          omega
        · exact hzero
      · exact ⟨rfl, rfl, rfl, rfl, fun q hq => hq, fun h => Or.inl h⟩
    · exact ⟨rfl, rfl, rfl, rfl, fun q hq => hq, fun h => Or.inl h⟩

/-- What catching up may change. -/
structure CaughtUp (jb jb' : JitterBuffer) : Prop where
  primed : jb'.primed = jb.primed
  target : jb'.target = jb.target
  starveRun : jb'.starveRun = jb.starveRun
  cfg : jb'.cfg = jb.cfg
  rows : ∀ q ∈ jb'.frames.rows, q ∈ jb.frames.rows

/-- Catching up does nothing, or leaves the play head on the oldest frame, or
empties a buffer without a target. -/
theorem catchUp_cases (jb : JitterBuffer) (e : Int) : CaughtUp jb (jb.catchUp e).2 ∧
      (jb.catchUp e = (e, jb) ∨
        (∃ r, (jb.catchUp e).2.frames.first = some r ∧ (jb.catchUp e).1 = r.1) ∨
        ((jb.catchUp e).2.frames.rows = [] ∧ (jb.frames.rows = [] ∨
          jb.target = 0 ∧ jb.cfg.catchupSlack % 2 ^ 64 < jb.frames.len))) := by
  unfold catchUp
  split
  · exact ⟨⟨rfl, rfl, rfl, rfl, fun q hq => hq⟩, Or.inl rfl⟩
  · next hdeep =>
    obtain ⟨h1, h2, h3, h4, h5, h6⟩ := dropOldest_cases jb.frames.len jb le_rfl
    generalize dropOldest jb.frames.len jb = jb' at h1 h2 h3 h4 h5 h6
    simp only
    split
    · next idx stored hfirst =>
      exact ⟨⟨h1, h2, h3, h4, h5⟩, Or.inr (Or.inl ⟨(idx, stored), hfirst, rfl⟩)⟩
    · next hfirst =>
      have hnil : jb'.frames.rows = [] := List.head?_eq_none_iff.mp hfirst
      refine ⟨⟨h1, h2, h3, h4, h5⟩, Or.inr (Or.inr ⟨hnil, (h6 hnil).imp_right fun hzero => ⟨hzero, ?_⟩⟩)⟩
      simpa only [hzero, Nat.zero_add, not_le] using hdeep

theorem starve_outcome (jb : JitterBuffer) : jb.starve.frames = jb.frames ∧
      ((jb.starveRun + 1 < jb.target ∧ jb.starve.primed = jb.primed ∧
          jb.starve.target = jb.target ∧ jb.starve.starveRun = jb.starveRun + 1) ∨
        (jb.starve.primed = false ∧
          jb.starve.target = min ((jb.target + 1) % 2 ^ 64) jb.cfg.maxTarget)) := by
  unfold starve
  simp only
  split
  · exact ⟨rfl, Or.inr ⟨rfl, rfl⟩⟩
  · next hrun => exact ⟨rfl, Or.inl ⟨not_le.mp hrun, rfl, rfl, rfl⟩⟩

/-- **One tick of a buffer whose cushion has filled**: it plays a stored
frame, steps over a lost one, or finds nothing. -/
theorem advance_cases (h : Inv cfg jb) (he : jb.expected = some e) (hready : jb.Ready) :
    (∃ r, e ≤ r.1 ∧ jb.PlayedRow r) ∨ jb.frames.rows ≠ [] ∧ jb.Skipped e ∨ jb.Starved := by
  have hadvance : jb.advance = (some ({ jb with primed := true }.play e).1,
      ({ jb with primed := true }.play e).2) := by
    unfold advance
    rw [he]
    simp only
    rw [if_neg hready]
  have hprimed : Inv cfg { jb with primed := true } := h.of_same rfl rfl rfl rfl rfl h.accounted
  obtain ⟨hcaught, hexpected⟩ := hprimed.catchUp he
  obtain ⟨hsame, hcases⟩ := catchUp_cases { jb with primed := true } e
  have hle := (catchUp_le hprimed he).1
  -- what `play` does with the buffer that has caught up
  have hplay := hadvance
  unfold play at hplay
  generalize { jb with primed := true }.catchUp e = caught at hcaught hexpected hcases hsame hle hplay
  obtain ⟨e₁, jb₁⟩ := caught
  simp only at hcaught hexpected hcases hsame hle hplay
  have hp := hcaught.placed e₁ hexpected
  split at hplay
  · next i frame hget =>
    obtain ⟨hmem, hi⟩ := Sorted.get_eq_some hget
    simp only at hi
    subst hi
    have hsnd : jb.advance.2 = (jb₁.deliver i frame).noteClean := by rw [hplay]
    refine Or.inl ⟨(i, frame), hle, ⟨hsame.rows _ hmem, by rw [hplay], ?_⟩, ?_, ?_, ?_⟩
    · rw [hsnd, expected_noteClean]
      rfl
    · rw [hsnd, noteClean_primed]
      exact hsame.primed
    · rw [hsnd]
      exact (noteClean_target_le _).trans hsame.target.le
    · intro q hq
      rw [hsnd, noteClean_frames] at hq
      exact hsame.rows q (Sorted.mem_keep.mp hq).1
  · next hget =>
    split at hplay
    · next lowest frame hfirst =>
      obtain ⟨hmem, hleast⟩ := Sorted.first_le hfirst
      have hlow : e₁ ≤ lowest := (hp.window _ hmem).1
      split at hplay
      · have hsnd : jb.advance.2 = JitterBuffer.deliver { jb₁ with
            cleanRun := 0, stats := { jb₁.stats with resyncs := jb₁.stats.resyncs + 1 } }
            lowest frame := by rw [hplay]
        refine Or.inl ⟨(lowest, frame), hle.trans hlow, ⟨hsame.rows _ hmem, by rw [hplay], ?_⟩,
          ?_, ?_, ?_⟩
        · rw [hsnd]
          rfl
        · rw [hsnd]
          exact hsame.primed
        · rw [hsnd]
          exact hsame.target.le
        · intro q hq
          rw [hsnd] at hq
          exact hsame.rows q (Sorted.mem_keep.mp hq).1
      · -- a gap is left only where catching up did nothing
        have hnothing : e₁ = e ∧ jb₁ = { jb with primed := true } := by
          obtain heq | ⟨r, hr, hkey⟩ | ⟨hnil, _⟩ := hcases
          · exact ⟨congrArg Prod.fst heq, congrArg Prod.snd heq⟩
          · rw [hfirst] at hr
            obtain rfl := Option.some.inj hr
            exact absurd hkey.symm (Sorted.get_eq_none hget _ hmem)
          · rw [hnil] at hmem
            contradiction
        obtain ⟨rfl, rfl⟩ := hnothing
        have hsnd : jb.advance.2 =
            JitterBuffer.skip { { jb with primed := true } with cleanRun := 0 } e₁ := by rw [hplay]
        refine Or.inr (Or.inl ⟨List.ne_nil_of_mem hmem, ?_, ?_, ?_, ?_, ?_⟩)
        · rw [hsnd]
          rfl
        · rw [hsnd]
          rfl
        · rw [hsnd]
          rfl
        · rw [hsnd]
          rfl
        · intro q hq
          have hne := Sorted.get_eq_none hget q hq
          have hge := (hp.window q hq).1
          omega
    · next hfirst =>
      have hnil : jb₁.frames.rows = [] := List.head?_eq_none_iff.mp hfirst
      have hsnd : jb.advance.2 = jb₁.starve := by rw [hplay]
      obtain ⟨hframes, hout⟩ := starve_outcome jb₁
      refine Or.inr (Or.inr ⟨?_, ?_, ?_, ?_⟩)
      · rw [hsnd, expected_starve, hexpected]
        exact Option.some_ne_none e₁
      · rw [hsnd, hframes, hnil]
      · obtain heq | ⟨r, hr, _⟩ | ⟨_, hcause⟩ := hcases
        · left
          have hjb : jb₁ = { jb with primed := true } := congrArg Prod.snd heq
          rw [hjb] at hnil
          exact hnil
        · rw [hfirst] at hr
          contradiction
        · exact hcause
      · rw [hsnd]
        rwa [hsame.starveRun, hsame.target, hsame.primed, hsame.cfg] at hout

/-! ## one arrival -/

/-- The buffer has nothing to go on: the next packet starts the stream. -/
def Blank (jb : JitterBuffer) : Prop :=
  jb.expected = none ∨ jb.primed = false ∧ jb.frames.rows = []

/-- An arrival at a buffer with a play head leaves it and the cushion alone,
and drops nothing. -/
structure Arrived (jb jb' : JitterBuffer) (seq : UInt16) (pcm : List Int16) : Prop where
  expected : jb'.expected = jb.expected
  anchorSeq : jb'.anchorSeq = jb.anchorSeq
  primed : jb'.primed = jb.primed
  target : jb'.target = jb.target
  starveRun : jb'.starveRun = jb.starveRun
  rows : ∀ q ∈ jb.frames.rows, q ∈ jb'.frames.rows
  fresh : ∀ q ∈ jb'.frames.rows, q ∉ jb.frames.rows → q.2 = ⟨seq, pcm⟩

theorem insert_blank (h : jb.Blank) (seq : UInt16) (pcm : List Int16) : (jb.insert seq pcm).2 =
      { jb with stats := { jb.stats with inserted := jb.stats.inserted + 1 } }.anchor seq pcm := by
  have hempty : jb.expected = none ∨ jb.primed = false ∧ jb.frames.rows = [] := h
  unfold insert
  simp only
  rw [if_pos hempty]

theorem insert_arrived (h : ¬ jb.Blank) (seq : UInt16) (pcm : List Int16) :
    Arrived jb (jb.insert seq pcm).2 seq pcm := by
  have hsame : ∀ stats, Arrived jb { jb with stats := stats } seq pcm := fun stats =>
    ⟨rfl, rfl, rfl, rfl, rfl, fun q hq => hq, fun q hq hn => absurd hq hn⟩
  have hrunning : ¬ (jb.expected = none ∨ jb.primed = false ∧ jb.frames.rows = []) := h
  unfold insert
  simp only
  rw [if_neg hrunning]
  split
  · exact hsame _
  · split
    · exact hsame _
    · split
      · exact hsame _
      · next hfree =>
        refine ⟨rfl, rfl, rfl, rfl, rfl, ?_, ?_⟩
        · intro q hq
          exact Sorted.mem_put.mpr (Or.inr ⟨hq, Sorted.get_eq_none hfree q hq⟩)
        · intro q hq hnew
          obtain rfl | ⟨hq, _⟩ := Sorted.mem_put.mp hq
          · rfl
          · exact absurd hq hnew

theorem expected_insert (jb : JitterBuffer) (seq : UInt16) (pcm : List Int16) :
    ∃ e, (jb.insert seq pcm).2.expected = some e := by
  by_cases h : jb.Blank
  · rw [insert_blank h]
    exact ⟨_, rfl⟩
  · rw [(insert_arrived h seq pcm).expected]
    exact Option.ne_none_iff_exists'.mp fun hnone => h (.inl hnone)

/-- A packet for a slot of the window is there afterwards, or its twin is. -/
theorem slot_of_insert (hinv : Inv cfg jb) (h : ¬ jb.Blank) (he : jb.expected = some e)
    (seq : UInt16) (pcm : List Int16) {i : Nat} (hoffset : (seq - jb.anchorSeq).toNat = i)
    (hi : i < cfg.window) : ∃ r ∈ (jb.insert seq pcm).2.frames.rows, r.1 = e + (i : Nat) := by
  have hwindow : i < cfg.maxBuffer ∧ i < 2 ^ 15 := by
    unfold JitterConfig.window at hi
    omega
  have hidx : jb.indexOf seq = e + (i : Nat) := by
    unfold indexOf asI16
    rw [hoffset, if_pos hwindow.2, (hinv.placed e he).anchor]
  have hroom : ((i : Nat) : Int) < toI64 jb.cfg.maxBuffer := by
    rw [hinv.config]
    unfold toI64
    split <;> omega
  have hhead : jb.expected.getD 0 = e := by rw [he, Option.getD_some]
  have hrunning : ¬ (jb.expected = none ∨ jb.primed = false ∧ jb.frames.rows = []) := h
  unfold insert
  simp only
  rw [if_neg hrunning, if_neg, if_neg]
  · split
    · next r hget =>
      obtain ⟨hr, hkey⟩ := Sorted.get_eq_some hget
      exact ⟨r, hr, hkey.trans hidx⟩
    · exact ⟨_, Sorted.mem_put.mpr (Or.inl rfl), hidx⟩
  · show ¬ toI64 jb.cfg.maxBuffer ≤ jb.indexOf seq - jb.expected.getD 0
    rw [hhead, hidx]
    omega
  · show ¬ jb.indexOf seq < jb.expected.getD 0
    rw [hhead, hidx]
    omega

/-! ## the cushion's target -/

/-- The target stays within its bounds, and playout never runs without a play
head. -/
structure Primer (cfg : JitterConfig) (jb : JitterBuffer) : Prop where
  target : jb.target ≤ max cfg.initialTarget cfg.maxTarget
  unanchored : jb.expected = none → jb.primed = false

theorem Primer.insert (h : Primer cfg jb) (seq : UInt16) (pcm : List Int16) :
    Primer cfg (jb.insert seq pcm).2 := by
  obtain ⟨e, he⟩ := expected_insert jb seq pcm
  refine ⟨?_, fun hnone => absurd (he.symm.trans hnone) (Option.some_ne_none e)⟩
  by_cases hblank : jb.Blank
  · rw [insert_blank hblank]
    exact h.target
  · rw [(insert_arrived hblank seq pcm).target]
    exact h.target

theorem advance_of_not_ready (he : jb.expected = some e) (hready : ¬ jb.Ready) :
    jb.advance = (none, jb) := by
  unfold Ready at hready
  unfold advance
  rw [he]
  simp only
  rw [if_pos (not_not.mp hready)]

theorem Primer.advance (h : Primer cfg jb) (hinv : Inv cfg jb) : Primer cfg jb.advance.2 := by
  cases he : jb.expected with
  | none =>
    have hsame : jb.advance = (none, jb) := by
      unfold JitterBuffer.advance
      rw [he]
    rw [hsame]
    exact h
  | some e =>
    by_cases hready : jb.Ready
    · obtain ⟨r, _, hplayed⟩ | ⟨_, hskipped⟩ | hstarved := advance_cases hinv he hready
      · refine ⟨hplayed.target.trans h.target, fun hnone => ?_⟩
        rw [hplayed.plays.2.2] at hnone
        contradiction
      · refine ⟨hskipped.target.le.trans h.target, fun hnone => ?_⟩
        rw [hskipped.expected] at hnone
        contradiction
      · refine ⟨?_, fun hnone => absurd hnone hstarved.expected⟩
        obtain ⟨_, _, htarget, _⟩ | ⟨_, htarget⟩ := hstarved.outcome
        · exact htarget.le.trans h.target
        · have hbound := h.target
          rw [htarget, hinv.config]
          omega
    · rw [advance_of_not_ready he hready]
      exact h

/-- A tick of either kind: `none` returns the frame, `some n` writes it into a
slice of `n` samples. -/
def tickBy (fade : Fade) (jb : JitterBuffer) : Option Nat → JitterBuffer
  | none => (jb.tick fade).2
  | some n => (jb.tickInto fade n).2

/-- A tick is an advance of the play head, up to the count of concealed frames. -/
theorem tickBy_eq (fade : Fade) (jb : JitterBuffer) (slice : Option Nat) :
    ∃ c, jb.tickBy fade slice = { jb.advance.2 with concealRun := c } := by
  have hcases : jb.tickBy fade slice = jb.advance.2 ∨
      jb.tickBy fade slice = { jb.advance.2 with concealRun := jb.advance.2.concealRun + 1 } := by
    cases slice with
    | none => exact tick_snd jb fade
    | some n => exact tickInto_snd jb fade n
  obtain heq | heq := hcases
  · exact ⟨jb.advance.2.concealRun, heq⟩
  · exact ⟨_, heq⟩

theorem inv_tickBy (h : Inv cfg jb) (fade : Fade) (slice : Option Nat) :
    Inv cfg (jb.tickBy fade slice) := by
  cases slice with
  | none => exact h.tick fade
  | some n => exact h.tickInto fade n

theorem Primer.tickBy (h : Primer cfg jb) (hinv : Inv cfg jb) (fade : Fade) (slice : Option Nat) :
    Primer cfg (jb.tickBy fade slice) := by
  have hadvance := h.advance hinv
  obtain ⟨c, heq⟩ := tickBy_eq fade jb slice
  rw [heq]
  exact ⟨hadvance.target, hadvance.unanchored⟩

theorem Primer.run (h : Primer cfg jb) (hinv : Inv cfg jb) (hmax : 1 ≤ cfg.maxBuffer) (fade : Fade)
    (calls : List Call) : Primer cfg (jb.run fade calls) := by
  induction calls generalizing jb with
  | nil => exact h
  | cons c cs ih =>
    refine ih ?_ (hinv.call hmax fade c)
    cases c with
    | insert seq pcm => exact h.insert seq pcm
    | tick => exact h.tickBy hinv fade none
    | tickInto n => exact h.tickBy hinv fade (some n)

end JitterBuffer

/-! ## a stream that starts anew -/

/-- Packets with consecutive sequence numbers, one a tick: the samples of each,
and how it is ticked. -/
structure PacketStream where
  start : UInt16
  pcm : Nat → List Int16
  slice : Nat → Option Nat

namespace PacketStream

open JitterBuffer

/-- The sequence number of the `n`-th packet. -/
def seq (s : PacketStream) (n : Nat) : UInt16 := s.start + UInt16.ofNat n

/-- The buffer before the `n`-th packet arrives. -/
def before (s : PacketStream) (fade : Fade) (jb : JitterBuffer) : Nat → JitterBuffer
  | 0 => jb
  | n + 1 => (((s.before fade jb n).insert (s.seq n) (s.pcm n)).2).tickBy fade (s.slice n)

/-- The buffer when the `n`-th packet has been offered and the tick is due. -/
def offered (s : PacketStream) (fade : Fade) (jb : JitterBuffer) (n : Nat) : JitterBuffer :=
  ((s.before fade jb n).insert (s.seq n) (s.pcm n)).2

/-- The row is a packet of the stream, stored on its arrival up to round `n`. -/
def NewBy (s : PacketStream) (fade : Fade) (jb : JitterBuffer) (n : Nat) (r : Int × Stored) : Prop :=
  ∃ j ≤ n, r ∈ (s.offered fade jb j).frames.rows ∧ r ∉ (s.before fade jb j).frames.rows ∧
    r.2 = ⟨s.seq j, s.pcm j⟩

/-- A packet of the stream is released in one of `k` rounds from `n` on. -/
def Soon (s : PacketStream) (fade : Fade) (jb : JitterBuffer) (n k : Nat) : Prop :=
  ∃ m, n ≤ m ∧ m < n + k ∧ ∃ r, s.NewBy fade jb m r ∧ (s.offered fade jb m).Plays r

/-- What the restart finds. -/
structure Fits (cfg : JitterConfig) (jb : JitterBuffer) : Prop where
  targets : cfg.TargetsFit
  inv : Inv cfg jb
  primer : Primer cfg jb

section Restart

variable {cfg : JitterConfig} {jb : JitterBuffer} {fade : Fade} {s : PacketStream} {n m k : Nat}
  {r : Int × Stored} {e : Int}

theorem NewBy.mono (h : s.NewBy fade jb n r) (hle : n ≤ m) : s.NewBy fade jb m r := by
  obtain ⟨j, hj, hrow⟩ := h
  exact ⟨j, hj.trans hle, hrow⟩

theorem Soon.mono (h : s.Soon fade jb m k) {l : Nat} (hle : n ≤ m) (hend : m + k ≤ n + l) :
    s.Soon fade jb n l := by
  obtain ⟨i, hi, hik, hrow⟩ := h
  exact ⟨i, by omega, by omega, hrow⟩

section

variable (h : Fits cfg jb)
include h

theorem Fits.maxBuffer_pos : 1 ≤ cfg.maxBuffer := h.targets.buffer

theorem Fits.window_pos : 1 ≤ cfg.window := le_min h.targets.buffer (by decide)

theorem Fits.target_le : jb.target ≤ cfg.window :=
  h.primer.target.trans (max_le h.targets.initial h.targets.ceiling)

theorem Fits.insert (seq : UInt16) (pcm : List Int16) : Fits cfg (jb.insert seq pcm).2 :=
  ⟨h.targets, h.inv.insert h.maxBuffer_pos seq pcm, h.primer.insert seq pcm⟩

theorem Fits.before (n : Nat) : Fits cfg (s.before fade jb n) := by
  induction n with
  | zero => exact h
  | succ n ih =>
    have hoffered := ih.insert (s.seq n) (s.pcm n)
    exact ⟨h.targets, inv_tickBy hoffered.inv fade _, hoffered.primer.tickBy hoffered.inv fade _⟩

theorem Fits.offered (n : Nat) : Fits cfg (s.offered fade jb n) :=
  (h.before n).insert (s.seq n) (s.pcm n)

end

theorem newBy_of_mem (hr : r ∈ (s.offered fade jb n).frames.rows)
    (hnew : r ∉ (s.before fade jb n).frames.rows) : s.NewBy fade jb n r := by
  refine ⟨n, le_rfl, hr, hnew, ?_⟩
  unfold PacketStream.offered at hr
  by_cases hblank : (s.before fade jb n).Blank
  · rw [insert_blank hblank] at hr
    obtain rfl | ⟨hr, _⟩ := Sorted.mem_put.mp hr
    · rfl
    · contradiction
  · exact (insert_arrived hblank (s.seq n) (s.pcm n)).fresh r hr hnew

theorem before_succ (s : PacketStream) (fade : Fade) (jb : JitterBuffer) (n : Nat) :
    ∃ c, s.before fade jb (n + 1) = { (s.offered fade jb n).advance.2 with concealRun := c } :=
  tickBy_eq fade (s.offered fade jb n) (s.slice n)

/-- A buffer that is still priming has a frame, once a packet has arrived. -/
theorem offered_ne_nil (hprimed : (s.offered fade jb n).primed = false) :
    (s.offered fade jb n).frames.rows ≠ [] := by
  unfold offered at hprimed ⊢
  by_cases hblank : (s.before fade jb n).Blank
  · rw [insert_blank hblank]
    exact List.ne_nil_of_mem (Sorted.mem_put.mpr (Or.inl rfl))
  · have harrived := insert_arrived hblank (s.seq n) (s.pcm n)
    rw [harrived.primed] at hprimed
    intro hnil
    refine hblank (Or.inr ⟨hprimed, ?_⟩)
    refine List.eq_nil_iff_forall_not_mem.mpr fun q hq => ?_
    have hq := harrived.rows q hq
    rw [hnil] at hq
    contradiction

theorem arrived_of_primed (hfits : Fits cfg jb) (hprimed : (s.before fade jb n).primed = true) :
    Arrived (s.before fade jb n) (s.offered fade jb n) (s.seq n) (s.pcm n) := by
  refine insert_arrived ?_ (s.seq n) (s.pcm n)
  intro hblank
  have hunprimed : (s.before fade jb n).primed = false := by
    obtain hnone | ⟨hunprimed, _⟩ := hblank
    · exact (hfits.before n).primer.unanchored hnone
    · exact hunprimed
  rw [hprimed] at hunprimed
  contradiction

/-! ## filling the cushion -/

/-- What stays while the cushion fills. -/
structure Kept (s : PacketStream) (fade : Fade) (jb : JitterBuffer) (n m : Nat) : Prop where
  expected : (s.offered fade jb m).expected = (s.offered fade jb n).expected
  anchorSeq : (s.offered fade jb m).anchorSeq = (s.offered fade jb n).anchorSeq
  primed : (s.offered fade jb m).primed = (s.offered fade jb n).primed
  target : (s.offered fade jb m).target = (s.offered fade jb n).target
  rows : ∀ q ∈ (s.offered fade jb n).frames.rows, q ∈ (s.offered fade jb m).frames.rows
  fresh : ∀ q ∈ (s.offered fade jb m).frames.rows,
    q ∈ (s.offered fade jb n).frames.rows ∨ s.NewBy fade jb m q

theorem Kept.refl (s : PacketStream) (fade : Fade) (jb : JitterBuffer) (n : Nat) : Kept s fade jb n n :=
  ⟨rfl, rfl, rfl, rfl, fun _ hq => hq, fun _ hq => Or.inl hq⟩

theorem waiting (hready : ¬ (s.offered fade jb n).Ready) :
    (∃ c, s.before fade jb (n + 1) = { s.offered fade jb n with concealRun := c }) ∧
      Arrived (s.before fade jb (n + 1)) (s.offered fade jb (n + 1)) (s.seq (n + 1)) (s.pcm (n + 1)) := by
  obtain ⟨e, he⟩ : ∃ e, (s.offered fade jb n).expected = some e := expected_insert _ _ _
  obtain ⟨c, hbefore⟩ := before_succ s fade jb n
  rw [advance_of_not_ready he hready] at hbefore
  refine ⟨⟨c, hbefore⟩, insert_arrived ?_ _ _⟩
  rw [hbefore]
  rintro (hnone | ⟨hprimed, hnil⟩)
  · have hnone : (s.offered fade jb n).expected = none := hnone
    rw [he] at hnone
    contradiction
  · exact offered_ne_nil hprimed hnil

theorem Kept.succ (h : Kept s fade jb n m) (hready : ¬ (s.offered fade jb m).Ready) :
    Kept s fade jb n (m + 1) := by
  obtain ⟨⟨c, hbefore⟩, harrived⟩ := waiting hready
  have hsame := harrived
  rw [hbefore] at hsame
  refine ⟨hsame.expected.trans h.expected, hsame.anchorSeq.trans h.anchorSeq,
    hsame.primed.trans h.primed, hsame.target.trans h.target,
    fun q hq => hsame.rows q (h.rows q hq), ?_⟩
  intro q hq
  by_cases hold : q ∈ (s.before fade jb (m + 1)).frames.rows
  · rw [hbefore] at hold
    obtain hold | hnew := h.fresh q hold
    · exact Or.inl hold
    · exact Or.inr (hnew.mono (Nat.le_succ m))
  · exact Or.inr (newBy_of_mem hq hold)

theorem kept_of_waiting (hready : ∀ i < k, ¬ (s.offered fade jb (n + i)).Ready) :
    Kept s fade jb n (n + k) := by
  induction k with
  | zero => exact Kept.refl s fade jb n
  | succ k ih =>
    have hkept := ih fun i hi => hready i (Nat.lt_succ_of_lt hi)
    exact hkept.succ (hready k (Nat.lt_succ_self k))

theorem offset_add (s : PacketStream) (a : UInt16) (n i : Nat) :
    (s.seq (n + i) - a).toNat = ((s.seq n - a).toNat + i) % 2 ^ 16 := by
  have ha := a.toNat_lt
  have hstart := s.start.toNat_lt
  unfold seq
  simp only [UInt16.toNat_sub, UInt16.toNat_add, UInt16.toNat_ofNat']
  omega

section

variable (hfits : Fits cfg jb)
include hfits

theorem slot_filled (he : (s.offered fade jb n).expected = some e)
    (hwait : ∀ i < k, ¬ (s.offered fade jb (n + i)).Ready) {j c : Nat} (hjk : j < k)
    (hoffset : (s.seq (n + (j + 1)) - (s.offered fade jb n).anchorSeq).toNat = c)
    (hc : c < cfg.window) : ∃ r ∈ (s.offered fade jb (n + k)).frames.rows, r.1 = e + (c : Nat) := by
  have hkept : Kept s fade jb n (n + j) := kept_of_waiting fun i hi => hwait i (hi.trans hjk)
  obtain ⟨⟨_, hbefore⟩, _⟩ := waiting (hwait j hjk)
  have hexpected : (s.before fade jb (n + j + 1)).expected = some e := by
    rw [hbefore]
    exact hkept.expected.trans he
  have hanchor : (s.before fade jb (n + j + 1)).anchorSeq = (s.offered fade jb n).anchorSeq := by
    rw [hbefore]
    exact hkept.anchorSeq
  have hrunning : ¬ (s.before fade jb (n + j + 1)).Blank := by
    rintro (hnone | ⟨hprimed, hnil⟩)
    · rw [hexpected] at hnone
      contradiction
    · rw [hbefore] at hprimed hnil
      exact offered_ne_nil hprimed hnil
  rw [← hanchor] at hoffset
  obtain ⟨r, hr, hkey⟩ := slot_of_insert (hfits.before (n + j + 1)).inv hrunning hexpected
    (s.seq (n + j + 1)) (s.pcm (n + j + 1)) hoffset hc
  -- and keeps it to the end of the wait
  have hrest : Kept s fade jb (n + (j + 1)) (n + (j + 1) + (k - (j + 1))) := by
    refine kept_of_waiting fun i hi => ?_
    rw [Nat.add_assoc]
    exact hwait (j + 1 + i) (by omega)
  have hend : n + (j + 1) + (k - (j + 1)) = n + k := by omega
  rw [hend] at hrest
  exact ⟨r, hrest.rows r hr, hkey⟩

theorem ready_by
    (hslots : (∀ i < k, ¬ (s.offered fade jb (n + i)).Ready) → ∀ c < cfg.window,
      ∃ r ∈ (s.offered fade jb (n + k)).frames.rows, r.1 = e + (c : Nat)) :
    ∃ i ≤ k, (s.offered fade jb (n + i)).Ready ∧ Kept s fade jb n (n + i) := by
  classical
  have hex : ∃ i, i ≤ k ∧ (s.offered fade jb (n + i)).Ready := by
    by_contra hnone
    simp only [not_exists, not_and] at hnone
    have hlen := le_len_of_slots (hslots fun i hi => hnone i hi.le)
    have htarget : (s.offered fade jb (n + k)).target ≤ cfg.window := (hfits.offered (n + k)).target_le
    refine hnone k le_rfl fun hwaits => ?_
    omega
  obtain ⟨hle, hready⟩ := Nat.find_spec hex
  refine ⟨Nat.find hex, hle, hready, kept_of_waiting fun i hi hearly => ?_⟩
  exact Nat.find_min hex hi ⟨by omega, hearly⟩

/-- **The cushion fills**, at the latest when the sequence numbers have come
round to the play head. -/
theorem ready_within (n : Nat) : ∃ i ≤ 2 ^ 16 + cfg.window, (s.offered fade jb (n + i)).Ready := by
  obtain ⟨e, he⟩ := expected_insert (s.before fade jb n) (s.seq n) (s.pcm n)
  have hwindow : cfg.window ≤ 2 ^ 15 := Nat.min_le_right _ _
  have hlt := (s.seq n - (s.offered fade jb n).anchorSeq).toNat_lt
  have hslots : (∀ i < 2 ^ 16 + cfg.window, ¬ (s.offered fade jb (n + i)).Ready) →
      ∀ c < cfg.window, ∃ r ∈ (s.offered fade jb (n + (2 ^ 16 + cfg.window))).frames.rows,
        r.1 = e + (c : Nat) := by
    intro hwait c hc
    -- the round whose packet is `c` behind the play head's number
    have hround : 2 ^ 16 + c - (s.seq n - (s.offered fade jb n).anchorSeq).toNat - 1 <
        2 ^ 16 + cfg.window := by omega
    refine slot_filled hfits he hwait hround ?_ hc
    rw [offset_add]
    omega
  obtain ⟨i, hi, hready, _⟩ := ready_by hfits hslots
  exact ⟨i, hi, hready⟩

/-! ## playing -/

/-- An emptied buffer starts over on the next packet, and plays it as soon as
the cushion has filled. -/
theorem anchored (hblank : (s.before fade jb n).Blank)
    (htarget : 1 ≤ (s.before fade jb n).target ∨ 1 ≤ cfg.catchupSlack % 2 ^ 64)
    (hempty : (s.before fade jb n).frames.rows = []) :
    s.Soon fade jb n cfg.window := by
  have hoffered : s.offered fade jb n = { s.before fade jb n with
      stats := { (s.before fade jb n).stats with
        inserted := (s.before fade jb n).stats.inserted + 1 } }.anchor (s.seq n) (s.pcm n) :=
    insert_blank hblank (s.seq n) (s.pcm n)
  have he : (s.offered fade jb n).expected = some 0 := by rw [hoffered]; rfl
  have hanchor : (s.offered fade jb n).anchorSeq = s.seq n := by rw [hoffered]; rfl
  have hfirst : ((0 : Int), (⟨s.seq n, s.pcm n⟩ : Stored)) ∈ (s.offered fade jb n).frames.rows := by
    rw [hoffered]
    exact Sorted.mem_put.mpr (Or.inl rfl)
  have hwindow : 1 ≤ cfg.window := hfits.window_pos
  have hslots : (∀ i < cfg.window - 1, ¬ (s.offered fade jb (n + i)).Ready) →
      ∀ c < cfg.window, ∃ r ∈ (s.offered fade jb (n + (cfg.window - 1))).frames.rows,
        r.1 = 0 + (c : Nat) := by
    intro hwait c hc
    cases c with
    | zero => exact ⟨_, (kept_of_waiting hwait).rows _ hfirst, rfl⟩
    | succ c =>
      have hround : c < cfg.window - 1 := by omega
      refine slot_filled hfits he hwait hround ?_ hc
      have hle : cfg.window ≤ 2 ^ 15 := Nat.min_le_right _ _
      rw [hanchor, offset_add, UInt16.sub_self]
      show (0 + (c + 1)) % 2 ^ 16 = c + 1
      omega
  have hsame : (s.offered fade jb n).target = (s.before fade jb n).target := by
    rw [hoffered]
    rfl
  -- without a target the buffer is ready at once
  obtain ⟨i, hi, hready, hkept, hsoon⟩ : ∃ i ≤ cfg.window - 1, (s.offered fade jb (n + i)).Ready ∧
      Kept s fade jb n (n + i) ∧ ((s.before fade jb n).target = 0 → i = 0) := by
    obtain hzero | hpos := Nat.eq_zero_or_pos (s.before fade jb n).target
    · refine ⟨0, Nat.zero_le _, fun hwaits => ?_, Kept.refl s fade jb n, fun _ => rfl⟩
      have hshort : (s.offered fade jb n).frames.len < (s.offered fade jb n).target := hwaits.2
      omega
    · obtain ⟨i, hi, hready, hkept⟩ := ready_by hfits hslots
      exact ⟨i, hi, hready, hkept, fun hzero => absurd hzero hpos.ne'⟩
  have hnew : ∀ q ∈ (s.offered fade jb (n + i)).frames.rows, s.NewBy fade jb (n + i) q := by
    intro q hq
    obtain hq | hnew := hkept.fresh q hq
    · have hfresh : q ∉ (s.before fade jb n).frames.rows := by
        rw [hempty]
        exact List.not_mem_nil
      exact (newBy_of_mem hq hfresh).mono (Nat.le_add_right n i)
    · exact hnew
  have hhead : (s.offered fade jb (n + i)).expected = some 0 := hkept.expected.trans he
  have hstored := hkept.rows _ hfirst
  obtain ⟨r, _, hplayed⟩ | ⟨_, hskipped⟩ | hstarved :=
    advance_cases (hfits.offered (n + i)).inv hhead hready
  · exact ⟨n + i, by omega, by omega, r, hnew r hplayed.plays.1, hplayed.plays⟩
  · have hbeyond := hskipped.beyond _ hstored
    simp only at hbeyond
    omega
  · obtain hnil | ⟨hzero, hdeep⟩ := hstarved.cause
    · rw [hnil] at hstored
      contradiction
    · rw [hkept.target, hsame] at hzero
      obtain rfl := hsoon hzero
      have hone : (s.offered fade jb n).frames.len = 1 := by
        rw [hoffered]
        rfl
      rw [(hfits.offered (n + 0)).inv.config, Nat.add_zero, hone] at hdeep
      omega

/-- A buffer that has given up on its play head starts over with a cushion. -/
theorem anchored_of_starved (hstarved : (s.offered fade jb n).Starved)
    (hprimed : (s.offered fade jb n).advance.2.primed = false)
    (htarget : (s.offered fade jb n).advance.2.target =
      min (((s.offered fade jb n).target + 1) % 2 ^ 64) (s.offered fade jb n).cfg.maxTarget) :
    s.Soon fade jb (n + 1) cfg.window := by
  obtain ⟨c, hbefore⟩ := before_succ s fade jb n
  have hempty : (s.before fade jb (n + 1)).frames.rows = [] := by
    rw [hbefore]
    exact hstarved.rows
  have hunprimed : (s.before fade jb (n + 1)).primed = false := by
    rw [hbefore]
    exact hprimed
  refine anchored hfits (Or.inr ⟨hunprimed, hempty⟩) ?_ hempty
  have hbound : (s.offered fade jb n).target ≤ cfg.window := (hfits.offered n).target_le
  have hwindow : cfg.window ≤ 2 ^ 15 := Nat.min_le_right _ _
  have hcfg : (s.offered fade jb n).cfg = cfg := (hfits.offered n).inv.config
  refine hfits.targets.positive.imp_left fun hpositive => ?_
  rw [hbefore]
  show 1 ≤ (s.offered fade jb n).advance.2.target
  rw [htarget, hcfg]
  omega

/-- The state of a round whose play head runs, seen from the round before. -/
theorem running_succ (hprimed : (s.offered fade jb n).advance.2.primed = true) :
    (s.offered fade jb (n + 1)).primed = true ∧
      (s.offered fade jb (n + 1)).expected = (s.offered fade jb n).advance.2.expected ∧
      (s.offered fade jb (n + 1)).target = (s.offered fade jb n).advance.2.target ∧
      (s.offered fade jb (n + 1)).starveRun = (s.offered fade jb n).advance.2.starveRun ∧
      (∀ q ∈ (s.offered fade jb n).advance.2.frames.rows,
        q ∈ (s.offered fade jb (n + 1)).frames.rows) ∧
      ∀ q ∈ (s.offered fade jb (n + 1)).frames.rows,
        q ∈ (s.offered fade jb n).advance.2.frames.rows ∨ s.NewBy fade jb (n + 1) q := by
  obtain ⟨c, hbefore⟩ := before_succ s fade jb n
  have hrun : (s.before fade jb (n + 1)).primed = true := by
    rw [hbefore]
    exact hprimed
  have harrived := arrived_of_primed hfits hrun
  have hfresh : ∀ q ∈ (s.offered fade jb (n + 1)).frames.rows,
      q ∉ (s.before fade jb (n + 1)).frames.rows → s.NewBy fade jb (n + 1) q :=
    fun q hq hnew => newBy_of_mem hq hnew
  rw [hbefore] at harrived hfresh
  refine ⟨harrived.primed.trans hprimed, harrived.expected, harrived.target, harrived.starveRun,
    harrived.rows, fun q hq => ?_⟩
  by_cases hold : q ∈ (s.offered fade jb n).advance.2.frames.rows
  · exact Or.inl hold
  · exact Or.inr (hfresh q hq hold)

end

theorem ready_of_primed (h : (s.offered fade jb n).primed = true) : (s.offered fade jb n).Ready := by
  rintro ⟨hunprimed, _⟩
  rw [h] at hunprimed
  contradiction

section

variable (hfits : Fits cfg jb)
include hfits

/-- A buffer that holds packets of the stream only plays one of them: every
round it does not brings the play head a slot nearer. -/
theorem playNew (he : (s.offered fade jb n).expected = some e)
    (hready : (s.offered fade jb n).Ready)
    (hnew : ∀ q ∈ (s.offered fade jb n).frames.rows, s.NewBy fade jb n q)
    (hr : r ∈ (s.offered fade jb n).frames.rows) (hnear : r.1 < e + (k : Nat)) :
    s.Soon fade jb n (k + cfg.window) := by
  induction k generalizing n e with
  | zero =>
    have hhead := (((hfits.offered n).inv.placed e he).window r hr).1
    omega
  | succ k ih =>
    obtain ⟨p, _, hplayed⟩ | ⟨_, hskipped⟩ | hstarved :=
      advance_cases (hfits.offered n).inv he hready
    · exact ⟨n, le_rfl, by omega, p, hnew p hplayed.plays.1, hplayed.plays⟩
    · obtain ⟨hprimed, hexpected, _, _, hkeep, hfresh⟩ := running_succ hfits hskipped.primed
      rw [hskipped.frames] at hkeep hfresh
      have hlater : s.Soon fade jb (n + 1) (k + cfg.window) := by
        refine ih (hexpected.trans hskipped.expected) (ready_of_primed hprimed) ?_ (hkeep r hr) ?_
        · intro q hq
          obtain hq | hq := hfresh q hq
          · exact (hnew q hq).mono (Nat.le_succ n)
          · exact hq
        · push_cast at hnear
          omega
      exact hlater.mono (Nat.le_succ n) (by omega)
    · obtain hnil | ⟨hzero, -⟩ := hstarved.cause
      · rw [hnil] at hr
        contradiction
      · obtain ⟨hshort, _⟩ | ⟨hprimed, htarget⟩ := hstarved.outcome
        · omega
        · exact (anchored_of_starved hfits hstarved hprimed htarget).mono (Nat.le_succ n) (by omega)

theorem near_of_mem (he : (s.offered fade jb n).expected = some e)
    (hr : r ∈ (s.offered fade jb n).frames.rows) : r.1 < e + (cfg.window : Nat) := by
  have hplaced := (hfits.offered n).inv.placed e he
  have hcap := (hplaced.window r hr).2
  have hhalf := hplaced.near r hr
  rw [(hfits.offered n).inv.config] at hcap
  unfold JitterConfig.window
  omega

/-- One round of a running buffer without frames of the old stream: it holds a
packet of the new one, or gives up its play head, or runs dry once more. -/
theorem starve_round (hprimed : (s.offered fade jb n).primed = true)
    (hnew : ∀ q ∈ (s.offered fade jb n).frames.rows, s.NewBy fade jb n q) :
    s.Soon fade jb n (1 + 2 * cfg.window) ∨
      ((s.offered fade jb n).starveRun + 1 < (s.offered fade jb n).target ∧
        (s.offered fade jb (n + 1)).primed = true ∧
        (∀ q ∈ (s.offered fade jb (n + 1)).frames.rows, s.NewBy fade jb (n + 1) q) ∧
        (s.offered fade jb (n + 1)).target = (s.offered fade jb n).target ∧
        (s.offered fade jb (n + 1)).starveRun = (s.offered fade jb n).starveRun + 1) := by
  obtain ⟨e, he⟩ : ∃ e, (s.offered fade jb n).expected = some e := expected_insert _ _ _
  have hready := ready_of_primed hprimed
  by_cases hempty : (s.offered fade jb n).frames.rows = []
  · obtain ⟨r, _, hplayed⟩ | ⟨hfull, _⟩ | hstarved := advance_cases (hfits.offered n).inv he hready
    · have hr := hplayed.plays.1
      rw [hempty] at hr
      contradiction
    · exact absurd hempty hfull
    · obtain ⟨hshort, hrun, htarget, hcount⟩ | ⟨hunprimed, htarget⟩ := hstarved.outcome
      · obtain ⟨hnext, _, htarget', hcount', _, hfresh⟩ := running_succ hfits hrun
        refine Or.inr ⟨hshort, hnext, fun q hq => ?_, htarget'.trans htarget, hcount'.trans hcount⟩
        obtain hq | hq := hfresh q hq
        · rw [hstarved.rows] at hq
          contradiction
        · exact hq
      · left
        exact (anchored_of_starved hfits hstarved hunprimed htarget).mono (Nat.le_succ n) (by omega)
  · obtain ⟨r, hr⟩ := List.exists_mem_of_ne_nil _ hempty
    left
    exact (playNew hfits he hready hnew hr (near_of_mem hfits he hr)).mono le_rfl (by omega)

theorem starveOut (hprimed : (s.offered fade jb n).primed = true)
    (hnew : ∀ q ∈ (s.offered fade jb n).frames.rows, s.NewBy fade jb n q)
    (hrun : (s.offered fade jb n).target ≤ (s.offered fade jb n).starveRun + k) :
    s.Soon fade jb n (k + 1 + 2 * cfg.window) := by
  induction k generalizing n with
  | zero =>
    obtain hsoon | ⟨hshort, _⟩ := starve_round hfits hprimed hnew
    · exact hsoon.mono le_rfl (by omega)
    · omega
  | succ k ih =>
    obtain hsoon | ⟨_, hprimed', hnew', htarget, hcount⟩ := starve_round hfits hprimed hnew
    · exact hsoon.mono le_rfl (by omega)
    · have hlater : s.Soon fade jb (n + 1) (k + 1 + 2 * cfg.window) := by
        refine ih hprimed' hnew' ?_
        omega
      exact hlater.mono (Nat.le_succ n) (by omega)

theorem playOut (hready : (s.offered fade jb n).Ready)
    (hnew : ∀ q ∈ (s.offered fade jb n).frames.rows, s.NewBy fade jb n q) :
    s.Soon fade jb n (3 * cfg.window + 1) := by
  obtain ⟨e, he⟩ : ∃ e, (s.offered fade jb n).expected = some e := expected_insert _ _ _
  by_cases hprimed : (s.offered fade jb n).primed = true
  · have htarget : (s.offered fade jb n).target ≤ cfg.window := (hfits.offered n).target_le
    have hsoon : s.Soon fade jb n (cfg.window + 1 + 2 * cfg.window) :=
      starveOut hfits hprimed hnew (by omega)
    exact hsoon.mono le_rfl (by omega)
  · obtain ⟨r, hr⟩ := List.exists_mem_of_ne_nil _ (offered_ne_nil (Bool.not_eq_true _ ▸ hprimed))
    exact (playNew hfits he hready hnew hr (near_of_mem hfits he hr)).mono le_rfl (by omega)

/-- Frames of the old stream are played or passed: every round brings the play
head nearer to the last of them. -/
theorem drainOld (he : (s.offered fade jb n).expected = some e)
    (hready : (s.offered fade jb n).Ready)
    (hold : ∀ q ∈ (s.offered fade jb n).frames.rows, s.NewBy fade jb n q ∨ q.1 < e + (k : Nat)) :
    s.Soon fade jb n (k + 3 * cfg.window + 1) := by
  induction k generalizing n e with
  | zero =>
    refine (playOut hfits hready fun q hq => ?_).mono le_rfl (by omega)
    obtain hnew | hbehind := hold q hq
    · exact hnew
    · have hhead := (((hfits.offered n).inv.placed e he).window q hq).1
      omega
  | succ k ih =>
    -- a round after which the play head has moved on by `e' - e` slots
    have hmoved : ∀ e', e + 1 ≤ e' → (s.offered fade jb n).advance.2.primed = true →
        (s.offered fade jb n).advance.2.expected = some e' →
        (∀ q ∈ (s.offered fade jb n).advance.2.frames.rows,
          q ∈ (s.offered fade jb n).frames.rows) →
        s.Soon fade jb n (k + 1 + 3 * cfg.window + 1) := by
      intro e' hle hprimed hexpected hrows
      obtain ⟨hnext, hexpected', _, _, _, hfresh⟩ := running_succ hfits hprimed
      have hlater : s.Soon fade jb (n + 1) (k + 3 * cfg.window + 1) := by
        refine ih (hexpected'.trans hexpected) (ready_of_primed hnext) fun q hq => ?_
        obtain hq | hq := hfresh q hq
        · obtain hnew | hbehind := hold q (hrows q hq)
          · exact Or.inl (hnew.mono (Nat.le_succ n))
          · push_cast at hbehind
            exact Or.inr (by omega)
        · exact Or.inl hq
      exact hlater.mono (Nat.le_succ n) (by omega)
    obtain ⟨r, hle, hplayed⟩ | ⟨_, hskipped⟩ | hstarved :=
      advance_cases (hfits.offered n).inv he hready
    · exact hmoved (r.1 + 1) (by omega) hplayed.primed hplayed.plays.2.2 hplayed.rows
    · refine hmoved (e + 1) le_rfl hskipped.primed hskipped.expected fun q hq => ?_
      rwa [hskipped.frames] at hq
    · obtain ⟨_, hrun, _⟩ | ⟨hunprimed, htarget⟩ := hstarved.outcome
      · obtain ⟨hnext, _, _, _, _, hfresh⟩ := running_succ hfits hrun
        have hlater : s.Soon fade jb (n + 1) (3 * cfg.window + 1) := by
          refine playOut hfits (ready_of_primed hnext) fun q hq => ?_
          obtain hq | hq := hfresh q hq
          · rw [hstarved.rows] at hq
            contradiction
          · exact hq
        exact hlater.mono (Nat.le_succ n) (by omega)
      · exact (anchored_of_starved hfits hstarved hunprimed htarget).mono (Nat.le_succ n) (by omega)

end

theorem soon_of_fits (s : PacketStream) (fade : Fade) (hfits : Fits cfg jb) :
    s.Soon fade jb 0 (2 ^ 16 + 6 * cfg.maxBuffer) := by
  obtain ⟨i, hi, hready⟩ : ∃ i ≤ 2 ^ 16 + cfg.window, (s.offered fade jb (0 + i)).Ready :=
    ready_within hfits 0
  obtain ⟨e, he⟩ := expected_insert (s.before fade jb (0 + i)) (s.seq (0 + i)) (s.pcm (0 + i))
  have hwindow : cfg.window ≤ cfg.maxBuffer := Nat.min_le_left _ _
  have hpos : 1 ≤ cfg.maxBuffer := hfits.maxBuffer_pos
  have hdrained : s.Soon fade jb (0 + i) (cfg.window + 3 * cfg.window + 1) :=
    drainOld hfits he hready fun q hq => Or.inr (near_of_mem hfits he hq)
  exact hdrained.mono (by omega) (by omega)

/-! ## later rounds -/

/-- The stream from round `n` on. -/
def drop (s : PacketStream) (n : Nat) : PacketStream where
  start := s.seq n
  pcm i := s.pcm (n + i)
  slice i := s.slice (n + i)

theorem seq_drop (s : PacketStream) (n i : Nat) : (s.drop n).seq i = s.seq (n + i) := by
  unfold seq drop seq
  rw [UInt16.ofNat_add, UInt16.add_assoc]

theorem before_drop (s : PacketStream) (fade : Fade) (jb : JitterBuffer) (n i : Nat) :
    (s.drop n).before fade (s.before fade jb n) i = s.before fade jb (n + i) := by
  induction i with
  | zero => rfl
  | succ i ih =>
    rw [before, ih, seq_drop]
    rfl

theorem offered_drop (s : PacketStream) (fade : Fade) (jb : JitterBuffer) (n i : Nat) :
    (s.drop n).offered fade (s.before fade jb n) i = s.offered fade jb (n + i) := by
  unfold offered
  rw [before_drop, seq_drop]
  rfl

end Restart

end PacketStream

open PacketStream JitterBuffer in
/-- **The jitter buffer never wedges**: whatever was offered and played before,
and whichever number the new stream starts at, from every round on a frame of
it that arrived since then is released within a number of rounds that the
configuration bounds. -/
theorem jitter_buffer_never_wedges (cfg : JitterConfig) (hfit : cfg.TargetsFit)
    (frameSamples : Nat) (fade : Fade) (calls : List JitterBuffer.Call) (s : PacketStream) (since : Nat) :
    let jb := (JitterBuffer.withConfig frameSamples cfg).run fade calls
    ∃ n j, since ≤ j ∧ j ≤ n ∧ n < since + (2 ^ 16 + 6 * cfg.maxBuffer) ∧
      -- the frame is stored when its packet arrives, and still is when its tick is due
      (∃ r ∈ (s.offered fade jb n).frames.rows, r.2 = ⟨s.seq j, s.pcm j⟩ ∧
        r ∈ (s.offered fade jb j).frames.rows ∧ r ∉ (s.before fade jb j).frames.rows ∧
        (s.offered fade jb n).advance.2.expected = some (r.1 + 1)) ∧
      ((s.offered fade jb n).tick fade).1 = some (s.pcm j) ∧
      ∀ k, ((s.offered fade jb n).tickInto fade k).1 = (.played, copyFrame (s.pcm j) k) := by
  intro jb
  have hstart : Fits cfg (JitterBuffer.withConfig frameSamples cfg) :=
    ⟨hfit, Inv.withConfig frameSamples cfg, le_max_left _ _, fun _ => rfl⟩
  have hfits : Fits cfg jb :=
    ⟨hfit, hstart.inv.run hstart.maxBuffer_pos fade calls,
      hstart.primer.run hstart.inv hstart.maxBuffer_pos fade calls⟩
  obtain ⟨i, _, hi, r, ⟨j, hj, hstored, hnew, hrow⟩, hmem, hplays, hhead⟩ :=
    soon_of_fits (s.drop since) fade (hfits.before (s := s) (n := since))
  rw [offered_drop] at hstored hmem hplays hhead
  rw [before_drop] at hnew
  rw [seq_drop] at hrow
  have hpcm : r.2.pcm = s.pcm (since + j) := by
    rw [hrow]
    rfl
  rw [hpcm] at hplays
  refine ⟨since + i, since + j, by omega, by omega, by omega,
    ⟨r, hmem, hrow, hstored, hnew, hhead⟩, ?_, fun k => ?_⟩
  · unfold JitterBuffer.tick
    generalize (s.offered fade jb (since + i)).advance = next at hplays
    obtain ⟨next, after⟩ := next
    simp only at hplays
    rw [hplays]
  · unfold JitterBuffer.tickInto
    generalize (s.offered fade jb (since + i)).advance = next at hplays
    obtain ⟨next, after⟩ := next
    simp only at hplays
    rw [hplays]

/-- A stream that wraps around at its third packet, ticked in turn in both ways. -/
def sampleStream : PacketStream where
  start := 65534
  pcm n := [Int16.ofNat n]
  slice n := if n % 2 = 0 then none else some 160

theorem jitter_buffer_never_wedges_sample :
    let jb := (JitterBuffer.withConfig 160 {}).run (fun _ => none) sampleCalls
    jb.expected = some 4 ∧ ∃ n j, 0 ≤ j ∧ j ≤ n ∧ n < 0 + (2 ^ 16 + 6 * 100) ∧
      (∃ r ∈ (sampleStream.offered (fun _ => none) jb n).frames.rows,
        r.2 = ⟨sampleStream.seq j, sampleStream.pcm j⟩ ∧
        r ∈ (sampleStream.offered (fun _ => none) jb j).frames.rows ∧
        r ∉ (sampleStream.before (fun _ => none) jb j).frames.rows ∧
        (sampleStream.offered (fun _ => none) jb n).advance.2.expected = some (r.1 + 1)) ∧
      ((sampleStream.offered (fun _ => none) jb n).tick fun _ => none).1 = some (sampleStream.pcm j) ∧
      ∀ k, ((sampleStream.offered (fun _ => none) jb n).tickInto (fun _ => none) k).1 =
        (.played, JitterBuffer.copyFrame (sampleStream.pcm j) k) :=
  ⟨by decide +kernel, jitter_buffer_never_wedges {} ⟨by decide, by decide, by decide, .inl (by decide)⟩ 160
    (fun _ => none) sampleCalls sampleStream 0⟩

/-! ## targets out of reach -/

section OutOfReach

open JitterBuffer PacketStream

variable {cfg : JitterConfig} {jb : JitterBuffer} {fade : Fade} {s : PacketStream}

theorem not_ready_of_deep (hmax : 1 ≤ cfg.maxBuffer) (hinv : Inv cfg jb)
    (hprimed : jb.primed = false) (hdeep : cfg.maxBuffer < jb.target) (n : Nat) :
    Inv cfg (s.offered fade jb n) ∧ ¬ (s.offered fade jb n).Ready ∧
      (s.offered fade jb n).target = jb.target := by
  -- an arrival keeps priming, and what the window holds is not enough
  have harrival : ∀ jb', Inv cfg jb' → jb'.primed = false → jb'.target = jb.target → ∀ seq pcm,
      Inv cfg (jb'.insert seq pcm).2 ∧ ¬ (jb'.insert seq pcm).2.Ready ∧
        (jb'.insert seq pcm).2.target = jb.target := by
    intro jb' hinv' hprimed' htarget seq pcm
    have hinserted := hinv'.insert hmax seq pcm
    obtain ⟨e, he⟩ := expected_insert jb' seq pcm
    have hlen : (jb'.insert seq pcm).2.frames.len ≤ cfg.maxBuffer := by
      have hplaced := (hinserted.placed e he).window
      rw [hinserted.config] at hplaced
      exact len_le_of_slots hplaced
    have hkept : (jb'.insert seq pcm).2.primed = false ∧
        (jb'.insert seq pcm).2.target = jb.target := by
      by_cases hblank : jb'.Blank
      · rw [insert_blank hblank]
        exact ⟨hprimed', htarget⟩
      · have harrived := insert_arrived hblank seq pcm
        exact ⟨harrived.primed.trans hprimed', harrived.target.trans htarget⟩
    exact ⟨hinserted, fun hready => hready ⟨hkept.1, by omega⟩, hkept.2⟩
  induction n with
  | zero => exact harrival jb hinv hprimed rfl (s.seq 0) (s.pcm 0)
  | succ n ih =>
    obtain ⟨hinv', hready, htarget⟩ := ih
    obtain ⟨⟨c, hbefore⟩, _⟩ := waiting hready
    have hunprimed := (not_not.mp hready).1
    refine harrival (s.before fade jb (n + 1)) ?_ ?_ ?_ _ _
    · rw [hbefore]
      exact hinv'.of_same rfl rfl rfl rfl rfl hinv'.accounted
    · rw [hbefore]
      exact hunprimed
    · rw [hbefore]
      exact htarget

theorem silent_of_deep (hmax : 1 ≤ cfg.maxBuffer) (hinv : Inv cfg jb) (hprimed : jb.primed = false)
    (hdeep : cfg.maxBuffer < jb.target) (n : Nat) : (s.offered fade jb n).advance.1 = none := by
  obtain ⟨_, hready, _⟩ : _ ∧ ¬ (s.offered fade jb n).Ready ∧ _ :=
    not_ready_of_deep hmax hinv hprimed hdeep n
  obtain ⟨e, he⟩ : ∃ e, (s.offered fade jb n).expected = some e := expected_insert _ _ _
  rw [advance_of_not_ready he hready]

end OutOfReach

/-- With a cushion of three frames in a buffer of two no frame is ever released. -/
theorem jitter_buffer_wedges : ¬ ∃ n pcm, (sampleStream.offered (fun _ => none)
      (JitterBuffer.withConfig 160 { initialTarget := 3, maxBuffer := 2 }) n).advance.1 =
        some (.frame pcm) := by
  rintro ⟨n, pcm, hreleased⟩
  rw [silent_of_deep (by decide) (Inv.withConfig 160 _) rfl (by decide) n] at hreleased
  contradiction

end SmithsNet.Media
