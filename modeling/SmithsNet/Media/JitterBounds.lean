import SmithsNet.Media.JitterRestart

/-!
# SmithsNet.Media.JitterBounds

How deep the jitter buffer gets.  The target adapts between its floor and its
ceiling, the stored frames fit the window, and a tick leaves no more frames
than the target and the slack: it either found no more, or has dropped the
oldest down to the target, and narrowing the target goes with a frame played.
-/

namespace SmithsNet.Media

open Lib

/-- Tunables that make sense: the target starts between its floor and its
ceiling, a frame has room, and one above the ceiling is still a `usize`. -/
structure JitterConfig.Admissible (cfg : JitterConfig) : Prop where
  floor : cfg.minTarget ≤ cfg.initialTarget
  ceiling : cfg.initialTarget ≤ cfg.maxTarget
  room : 1 ≤ cfg.maxBuffer
  width : cfg.maxTarget + 1 < 2 ^ 64

namespace JitterBuffer

variable {cfg : JitterConfig} {jb : JitterBuffer} {e : Int}

/-! ## the target -/

/-- The target is between its floor and its ceiling. -/
def Tuned (cfg : JitterConfig) (jb : JitterBuffer) : Prop :=
  cfg.minTarget ≤ jb.target ∧ jb.target ≤ cfg.maxTarget

theorem Tuned.of_target {jb' : JitterBuffer} (h : Tuned cfg jb) (htarget : jb'.target = jb.target) :
    Tuned cfg jb' := by
  rw [Tuned, htarget]
  exact h

theorem Tuned.noteClean (h : Tuned cfg jb) (hcfg : jb.cfg = cfg) : Tuned cfg jb.noteClean := by
  obtain ⟨hlow, hhigh⟩ := h
  unfold JitterBuffer.noteClean Tuned
  simp only [hcfg]
  split
  · simp only
    split <;> omega
  · exact ⟨hlow, hhigh⟩

section

variable (hcfg : cfg.Admissible) (h : Tuned cfg jb) (hsame : jb.cfg = cfg)
include hcfg h hsame

theorem Tuned.starve :
    Tuned cfg jb.starve := by
  obtain ⟨hlow, hhigh⟩ := h
  have hwidth := hcfg.width
  unfold JitterBuffer.starve Tuned
  simp only [hsame]
  split
  · simp only
    rw [Nat.mod_eq_of_lt (by omega)]
    omega
  · exact ⟨hlow, hhigh⟩

theorem Tuned.play (e : Int) :
    Tuned cfg (jb.play e).2 := by
  obtain ⟨hcaught, -⟩ := catchUp_cases jb e
  unfold JitterBuffer.play
  generalize jb.catchUp e = caught at hcaught
  obtain ⟨e₁, jb₁⟩ := caught
  simp only at hcaught ⊢
  have h₁ : Tuned cfg jb₁ := h.of_target hcaught.target
  have hsame₁ : jb₁.cfg = cfg := hcaught.cfg.trans hsame
  split
  · next i frame hget =>
    have hdelivered : Tuned cfg (jb₁.deliver e₁ frame) := h₁
    exact hdelivered.noteClean hsame₁
  · split
    · split
      · exact h₁
      · exact h₁
    · exact h₁.starve hcfg hsame₁

theorem Tuned.advance :
    Tuned cfg jb.advance.2 := by
  unfold JitterBuffer.advance
  split
  · exact h
  · next e he =>
    split
    · exact h
    · have hprimed : Tuned cfg { jb with primed := true } := h
      exact hprimed.play hcfg hsame e

end

theorem Tuned.insert (h : Tuned cfg jb) (seq : UInt16) (pcm : List Int16) :
    Tuned cfg (jb.insert seq pcm).2 := by
  by_cases hblank : jb.Blank
  · rw [insert_blank hblank]
    exact h
  · exact h.of_target (insert_arrived hblank seq pcm).target

/-! ## the depth -/

/-- No more frames than the target and the slack. -/
def Shallow (jb : JitterBuffer) : Prop := jb.frames.len ≤ jb.target + jb.cfg.catchupSlack

theorem len_dropOldest (rounds : Nat) (jb : JitterBuffer) (h : jb.frames.len ≤ rounds + jb.target) :
    (dropOldest rounds jb).frames.len ≤ jb.target := by
  induction rounds generalizing jb with
  | zero => simpa [dropOldest] using h
  | succ rounds ih =>
    unfold dropOldest
    split
    · split
      · next r hfirst =>
        have hlen := Sorted.len_popFirst hfirst
        refine ih jb.popOldest ?_
        show jb.frames.popFirst.len ≤ rounds + jb.target
        omega
      · next hfirst =>
        have hnil : jb.frames.rows = [] := List.head?_eq_none_iff.mp hfirst
        simp [Sorted.len, hnil]
    · omega

section

variable (jb : JitterBuffer)

theorem shallow_catchUp (e : Int) : (jb.catchUp e).2.Shallow := by
  unfold catchUp Shallow
  split
  · next hfew =>
    have hmod := Nat.mod_le (jb.target + jb.cfg.catchupSlack) (2 ^ 64)
    exact hfew.trans hmod
  · obtain ⟨-, htarget, -, -, -, -⟩ := dropOldest_cases jb.frames.len jb le_rfl
    have hlen := len_dropOldest jb.frames.len jb (Nat.le_add_right _ _)
    simp only
    split
    · show (dropOldest jb.frames.len jb).frames.len ≤ _
      simp only
      omega
    · simp only
      omega

theorem target_noteClean : jb.target ≤ jb.noteClean.target + 1 := by
  unfold noteClean
  simp only
  split
  · simp only
    split <;> omega
  · simp

theorem cfg_noteClean : jb.noteClean.cfg = jb.cfg := by
  unfold noteClean
  simp only
  split <;> rfl

theorem shallow_play (e : Int) : (jb.play e).2.Shallow := by
  have hcaught := shallow_catchUp jb e
  unfold play
  generalize jb.catchUp e = caught at hcaught
  obtain ⟨e₁, jb₁⟩ := caught
  simp only at hcaught ⊢
  unfold Shallow at hcaught ⊢
  split
  · next i frame hget =>
    obtain ⟨-, rfl⟩ := Sorted.get_eq_some hget
    have hlen := Sorted.len_remove hget
    have htarget := target_noteClean (jb₁.deliver i frame)
    rw [noteClean_frames, cfg_noteClean]
    show (jb₁.frames.remove i).len ≤ (jb₁.deliver i frame).noteClean.target + jb₁.cfg.catchupSlack
    have hsame : (jb₁.deliver i frame).target = jb₁.target := rfl
    simp only at hlen
    omega
  · split
    · next lowest frame hfirst =>
      split
      · have hlen := Sorted.len_remove (Sorted.get_of_mem (Sorted.first_le hfirst).1)
        show (jb₁.frames.remove lowest).len ≤ jb₁.target + jb₁.cfg.catchupSlack
        simp only at hlen
        omega
      · exact hcaught
    · next hfirst =>
      have hnil : jb₁.frames.rows = [] := List.head?_eq_none_iff.mp hfirst
      rw [(starve_outcome jb₁).1, Sorted.len, hnil]
      exact Nat.zero_le _

end

theorem shallow_advance (h : Inv cfg jb) : jb.advance.2.Shallow := by
  unfold advance
  split
  · next hnone =>
    simp only [Shallow, Sorted.len, h.unanchored hnone]
    exact Nat.zero_le _
  · split
    · next hwait =>
      unfold Shallow
      simp only
      omega
    · exact shallow_play _ _

/-! ## every run -/

section

variable (hcfg : cfg.Admissible) (h : Tuned cfg jb) (hinv : Inv cfg jb) (fade : Fade)
include hcfg h hinv

theorem Tuned.tickBy
    (slice : Option Nat) : Tuned cfg (jb.tickBy fade slice) := by
  obtain ⟨k, heq⟩ := tickBy_eq fade jb slice
  rw [heq]
  exact h.advance hcfg hinv.config

theorem Tuned.call
    (c : Call) : Tuned cfg (jb.call fade c) := by
  cases c with
  | insert seq pcm => exact h.insert seq pcm
  | tick => exact h.tickBy hcfg hinv fade none
  | tickInto n => exact h.tickBy hcfg hinv fade (some n)

theorem Tuned.run
    (calls : List Call) : Tuned cfg (jb.run fade calls) := by
  induction calls generalizing jb with
  | nil => exact h
  | cons c cs ih => exact ih (h.call hcfg hinv fade c) (hinv.call hcfg.room fade c)

end

/-- **Bounds of the jitter buffer.**  After every list of calls the target lies
between its floor and its ceiling and the stored frames fit the window; and a
tick of either kind leaves at most the target and the slack. -/
theorem jitter_buffer_bounded (cfg : JitterConfig) (hcfg : cfg.Admissible) (frameSamples : Nat)
    (fade : Fade) (calls : List Call) :
    let jb := (JitterBuffer.withConfig frameSamples cfg).run fade calls
    (cfg.minTarget ≤ jb.target ∧ jb.target ≤ cfg.maxTarget) ∧ jb.depth ≤ cfg.maxBuffer ∧
      (jb.tick fade).2.depth ≤ (jb.tick fade).2.target + cfg.catchupSlack ∧
      ∀ n, (jb.tickInto fade n).2.depth ≤ (jb.tickInto fade n).2.target + cfg.catchupSlack := by
  intro jb
  have hinv₀ := Inv.withConfig frameSamples cfg
  have hinv : Inv cfg jb := hinv₀.run hcfg.room fade calls
  have htuned₀ : Tuned cfg (.withConfig frameSamples cfg) := ⟨hcfg.floor, hcfg.ceiling⟩
  have hdepth : jb.depth ≤ cfg.maxBuffer := by
    cases he : jb.expected with
    | none =>
      rw [depth, Sorted.len, hinv.unanchored he]
      exact Nat.zero_le _
    | some e =>
      have hwindow := (hinv.placed e he).window
      rw [hinv.config] at hwindow
      exact len_le_of_slots hwindow
  have htick (slice : Option Nat) : (jb.tickBy fade slice).depth ≤
      (jb.tickBy fade slice).target + cfg.catchupSlack := by
    obtain ⟨k, heq⟩ := tickBy_eq fade jb slice
    have hshallow := shallow_advance hinv
    have hsame := hinv.advance.config
    unfold Shallow at hshallow
    rw [hsame] at hshallow
    rw [heq]
    exact hshallow
  exact ⟨htuned₀.run hcfg hinv₀ fade calls, hdepth, htick none, fun n => htick (some n)⟩

/-- The default tunables, after a burst that is caught up with. -/
theorem jitter_buffer_bounded_burst :
    let jb := (JitterBuffer.withConfig 160 {}).run (fun _ => none)
      ((List.range 10).map fun i => Call.insert (UInt16.ofNat i) [])
    jb.depth = 10 ∧ (2 ≤ jb.target ∧ jb.target ≤ 12) ∧ (jb.tick fun _ => none).2.depth = 2 ∧
      (jb.tick fun _ => none).2.depth ≤ (jb.tick fun _ => none).2.target + 4 := by
  intro jb
  have h := jitter_buffer_bounded {} ⟨by decide, by decide, by decide, by decide⟩ 160 (fun _ => none)
    ((List.range 10).map fun i => Call.insert (UInt16.ofNat i) [])
  exact ⟨by decide +kernel, h.1, by decide +kernel, h.2.2.1⟩

end JitterBuffer

end SmithsNet.Media
