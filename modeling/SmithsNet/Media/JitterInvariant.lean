import Mathlib
import SmithsNet.Media.Jitter

/-!
# SmithsNet.Media.JitterInvariant

The representation invariant of the jitter buffer: the anchor stands at the
play head, every stored frame lies in the window in front of it under the
sequence number that belongs there, and every packet offered is accounted for.

Arrivals, priming, concealment, catching up, jumping over a gap and running
dry each move the anchor in their own way; `Inv` is kept by each of them, and
so by every list of calls (`jitter_buffer_well_formed`).
-/

namespace SmithsNet.Media

open Lib

/-! ## 16-bit sequence numbers -/

theorem asI16_sub_modEq (seq a : UInt16) :
    (seq.toNat : Int) ≡ a.toNat + asI16 (seq - a) [ZMOD 2 ^ 16] := by
  have hseq := seq.toNat_lt
  have ha := a.toNat_lt
  unfold asI16 Int.ModEq
  rw [UInt16.toNat_sub]
  split <;> omega

theorem asI16_lt (d : UInt16) : asI16 d < 2 ^ 15 := by
  have hd := d.toNat_lt
  unfold asI16
  split <;> omega

theorem toNat_succ_modEq (seq : UInt16) :
    ((seq + 1).toNat : Int) ≡ seq.toNat + 1 [ZMOD 2 ^ 16] := by
  unfold Int.ModEq
  rw [UInt16.toNat_add, UInt16.toNat_one]
  omega

theorem toI64_le (n : Nat) : toI64 n ≤ n := by
  unfold toI64
  split <;> omega

/-! ## concealment -/

section Conceal

variable (jb : JitterBuffer) (fade : Fade)

theorem JitterBuffer.concealFrame_snd :
    (jb.concealFrame fade).2 = { jb with concealRun := jb.concealRun + 1 } := by
  unfold concealFrame concealGain
  simp only
  generalize (if jb.lastFrame = [] then none else fade (jb.concealRun + 1)) = gain
  cases gain <;> rfl

theorem JitterBuffer.concealInto_snd (n : Nat) :
    (jb.concealInto fade n).2 = { jb with concealRun := jb.concealRun + 1 } := by
  unfold concealInto concealGain
  simp only
  generalize (if jb.lastFrame = [] then none else fade (jb.concealRun + 1)) = gain
  cases gain <;> rfl

/-- Beyond advancing the play head a tick at most counts a concealment frame. -/
theorem JitterBuffer.tick_snd : (jb.tick fade).2 = jb.advance.2 ∨
      (jb.tick fade).2 = { jb.advance.2 with concealRun := jb.advance.2.concealRun + 1 } := by
  unfold tick
  obtain ⟨next, jb'⟩ := jb.advance
  cases next with
  | none => exact Or.inl rfl
  | some next =>
    cases next with
    | frame pcm => exact Or.inl rfl
    | conceal => exact Or.inr (concealFrame_snd jb' fade)

theorem JitterBuffer.tickInto_snd (n : Nat) : (jb.tickInto fade n).2 = jb.advance.2 ∨
      (jb.tickInto fade n).2 = { jb.advance.2 with concealRun := jb.advance.2.concealRun + 1 } := by
  unfold tickInto
  obtain ⟨next, jb'⟩ := jb.advance
  cases next with
  | none => exact Or.inl rfl
  | some next =>
    cases next with
    | frame pcm => exact Or.inl rfl
    | conceal => exact Or.inr (concealInto_snd jb' fade n)

end Conceal

/-! ## the invariant -/

/-- The frames stand in the window in front of a play head at `e`, each where
its sequence number belongs. -/
structure Placed (jb : JitterBuffer) (e : Int) : Prop where
  anchor : jb.anchorIndex = e
  window : ∀ r ∈ jb.frames.rows, e ≤ r.1 ∧ r.1 < e + jb.cfg.maxBuffer
  near : ∀ r ∈ jb.frames.rows, r.1 < e + 2 ^ 15
  sequence : ∀ r ∈ jb.frames.rows,
    (r.2.seq.toNat : Int) ≡ jb.anchorSeq.toNat + (r.1 - jb.anchorIndex) [ZMOD 2 ^ 16]

/-- Every packet offered was dropped for one of the reasons, played, or is stored. -/
def Accounted (jb : JitterBuffer) : Prop :=
  jb.stats.inserted = jb.stats.late + jb.stats.overflow + jb.stats.duplicates + jb.stats.catchup +
    jb.stats.played + UInt64.ofNat jb.depth

/-- What every call keeps. -/
structure Inv (cfg : JitterConfig) (jb : JitterBuffer) : Prop where
  config : jb.cfg = cfg
  placed : ∀ e, jb.expected = some e → Placed jb e
  unanchored : jb.expected = none → jb.frames.rows = []
  accounted : Accounted jb

theorem Placed.rebase {jb : JitterBuffer} {e : Int} (h : Placed jb e) {p q : Int × Stored}
    (hp : p ∈ jb.frames.rows) (hq : q ∈ jb.frames.rows) :
    (q.2.seq.toNat : Int) ≡ p.2.seq.toNat + (q.1 - p.1) [ZMOD 2 ^ 16] := by
  have hpseq := h.sequence p hp
  have hqseq := h.sequence q hq
  unfold Int.ModEq at hpseq hqseq ⊢
  omega

namespace Inv

open JitterBuffer

variable {cfg : JitterConfig} {jb : JitterBuffer}

theorem withConfig (frameSamples : Nat) (cfg : JitterConfig) : Inv cfg (.withConfig frameSamples cfg) := by
  constructor
  · rfl
  · intro e he
    contradiction
  · intro _
    rfl
  · rfl

/-! ## arrivals -/

section

variable (h : Inv cfg jb)
include h

theorem anchor (hempty : jb.frames.rows = []) (hmax : 1 ≤ cfg.maxBuffer)
    (seq : UInt16) (pcm : List Int16) :
    Inv cfg ({ jb with stats := { jb.stats with inserted := jb.stats.inserted + 1 } }.anchor seq pcm) := by
  constructor
  · exact h.config
  · intro e he
    obtain rfl := Option.some.inj he
    have hrow : ∀ r ∈ ((Sorted.empty : Frames).put (0, ⟨seq, pcm⟩)).rows, r = (0, ⟨seq, pcm⟩) := by
      intro r hr
      obtain rfl | ⟨hr, _⟩ := Sorted.mem_put.mp hr
      · rfl
      · contradiction
    refine ⟨rfl, ?_, ?_, ?_⟩
    · intro r hr
      rw [hrow r hr]
      show (0 : Int) ≤ 0 ∧ (0 : Int) < 0 + jb.cfg.maxBuffer
      rw [h.config]
      omega
    · intro r hr
      rw [hrow r hr]
      show (0 : Int) < 0 + 2 ^ 15
      omega
    · intro r hr
      rw [hrow r hr]
      show (seq.toNat : Int) ≡ seq.toNat + (0 - 0) [ZMOD 2 ^ 16]
      rw [sub_zero, add_zero]
  · intro he
    contradiction
  · have hstored : jb.depth = 0 := by
      rw [depth, Sorted.len, hempty, List.length_nil]
    have hacc := h.accounted
    unfold Accounted at hacc
    rw [hstored] at hacc
    show jb.stats.inserted + 1 = jb.stats.late + jb.stats.overflow + jb.stats.duplicates +
      jb.stats.catchup + jb.stats.played + UInt64.ofNat 1
    rw [hacc]
    simp

theorem store {e : Int} (he : jb.expected = some e) {seq : UInt16} {pcm : List Int16}
    (hlow : e ≤ jb.indexOf seq) (hhigh : jb.indexOf seq - e < toI64 jb.cfg.maxBuffer)
    (hfree : jb.frames.get (jb.indexOf seq) = none) : Inv cfg { jb with
      stats := { jb.stats with inserted := jb.stats.inserted + 1 }
      frames := jb.frames.put (jb.indexOf seq, ⟨seq, pcm⟩) } := by
  have hp := h.placed e he
  have hle := toI64_le jb.cfg.maxBuffer
  have hdelta := asI16_lt (seq - jb.anchorSeq)
  have hindex : jb.indexOf seq = jb.anchorIndex + asI16 (seq - jb.anchorSeq) := rfl
  have hanchor := hp.anchor
  constructor
  · exact h.config
  · intro e' he'
    have heq : e' = e := Option.mem_unique he' he
    subst heq
    refine ⟨hanchor, ?_, ?_, ?_⟩
    · intro r hr
      obtain rfl | ⟨hr, _⟩ := Sorted.mem_put.mp hr
      · show e' ≤ jb.indexOf seq ∧ jb.indexOf seq < e' + jb.cfg.maxBuffer
        omega
      · exact hp.window r hr
    · intro r hr
      obtain rfl | ⟨hr, _⟩ := Sorted.mem_put.mp hr
      · show jb.indexOf seq < e' + 2 ^ 15
        omega
      · exact hp.near r hr
    · intro r hr
      obtain rfl | ⟨hr, _⟩ := Sorted.mem_put.mp hr
      · show (seq.toNat : Int) ≡ jb.anchorSeq.toNat + (jb.indexOf seq - jb.anchorIndex) [ZMOD 2 ^ 16]
        rw [hindex, add_sub_cancel_left]
        exact asI16_sub_modEq seq jb.anchorSeq
      · exact hp.sequence r hr
  · intro hnone
    have hsome : (none : Option Int) = some e := hnone.symm.trans he
    contradiction
  · have hlen : (jb.frames.put (jb.indexOf seq, ⟨seq, pcm⟩)).len = jb.frames.len + 1 :=
      Sorted.len_put hfree
    have hacc := h.accounted
    unfold Accounted depth at hacc ⊢
    simp only [hlen, UInt64.ofNat_add]
    rw [hacc]
    grind

theorem of_same {jb' : JitterBuffer} (hcfg : jb'.cfg = jb.cfg)
    (hframes : jb'.frames = jb.frames) (hexpected : jb'.expected = jb.expected)
    (hindex : jb'.anchorIndex = jb.anchorIndex) (hseq : jb'.anchorSeq = jb.anchorSeq)
    (hacc : Accounted jb') : Inv cfg jb' := by
  constructor
  · exact hcfg.trans h.config
  · intro e he
    have hp := h.placed e (hexpected ▸ he)
    constructor
    · rw [hindex, hp.anchor]
    · rw [hframes, hcfg]
      exact hp.window
    · rw [hframes]
      exact hp.near
    · rw [hframes, hindex, hseq]
      exact hp.sequence
  · intro hnone
    rw [hframes]
    exact h.unanchored (hexpected ▸ hnone)
  · exact hacc

/-- **Arrivals keep the invariant.** -/
theorem insert (hmax : 1 ≤ cfg.maxBuffer) (seq : UInt16) (pcm : List Int16) :
    Inv cfg (jb.insert seq pcm).2 := by
  have hacc := h.accounted
  unfold Accounted at hacc
  unfold JitterBuffer.insert
  simp only
  split
  · next hfirst =>
    have hempty : jb.frames.rows = [] := by
      obtain hnone | ⟨_, hempty⟩ := hfirst
      · exact h.unanchored hnone
      · exact hempty
    exact h.anchor hempty hmax seq pcm
  · next hfirst =>
    have hsome : jb.expected ≠ none := fun hnone => hfirst (Or.inl hnone)
    obtain ⟨e, he⟩ := Option.ne_none_iff_exists'.mp hsome
    have hhead : jb.expected.getD 0 = e := by
      rw [he, Option.getD_some]
    split
    · refine h.of_same rfl rfl rfl rfl rfl ?_
      show jb.stats.inserted + 1 = (jb.stats.late + 1) + jb.stats.overflow + jb.stats.duplicates +
        jb.stats.catchup + jb.stats.played + UInt64.ofNat jb.depth
      grind
    · next hlow =>
      have hlow : jb.expected.getD 0 ≤ jb.indexOf seq := not_lt.mp hlow
      rw [hhead] at hlow
      split
      · refine h.of_same rfl rfl rfl rfl rfl ?_
        show jb.stats.inserted + 1 = jb.stats.late + (jb.stats.overflow + 1) +
          jb.stats.duplicates + jb.stats.catchup + jb.stats.played + UInt64.ofNat jb.depth
        grind
      · next hhigh =>
        have hhigh : jb.indexOf seq - jb.expected.getD 0 < toI64 jb.cfg.maxBuffer :=
          not_le.mp hhigh
        rw [hhead] at hhigh
        split
        · refine h.of_same rfl rfl rfl rfl rfl ?_
          show jb.stats.inserted + 1 = jb.stats.late + jb.stats.overflow +
            (jb.stats.duplicates + 1) + jb.stats.catchup + jb.stats.played +
              UInt64.ofNat jb.depth
          grind
        · next hfree => exact h.store he hlow hhigh hfree

/-! ## playout -/

theorem popOldest {r : Int × Stored} (hfirst : jb.frames.first = some r) :
    Inv cfg jb.popOldest := by
  constructor
  · exact h.config
  · intro e he
    have hp := h.placed e he
    exact ⟨hp.anchor, fun r hr => hp.window r (Sorted.mem_of_mem_popFirst hr),
      fun r hr => hp.near r (Sorted.mem_of_mem_popFirst hr),
      fun r hr => hp.sequence r (Sorted.mem_of_mem_popFirst hr)⟩
  · intro hnone
    show jb.frames.rows.tail = []
    rw [h.unanchored hnone]
    rfl
  · have hlen := Sorted.len_popFirst hfirst
    have hacc := h.accounted
    unfold Accounted depth at hacc ⊢
    rw [← hlen, UInt64.ofNat_add] at hacc
    simp only [JitterBuffer.popOldest, hacc]
    grind

theorem dropOldest (rounds : Nat) : Inv cfg (JitterBuffer.dropOldest rounds jb) ∧
      (JitterBuffer.dropOldest rounds jb).expected = jb.expected := by
  induction rounds generalizing jb with
  | zero => exact ⟨h, rfl⟩
  | succ rounds ih =>
    unfold JitterBuffer.dropOldest
    split
    · split
      · next r hfirst => exact ih (h.popOldest hfirst)
      · exact ⟨h, rfl⟩
    · exact ⟨h, rfl⟩

theorem catchUp {e : Int} (he : jb.expected = some e) :
    Inv cfg (jb.catchUp e).2 ∧ (jb.catchUp e).2.expected = some (jb.catchUp e).1 := by
  unfold JitterBuffer.catchUp
  split
  · exact ⟨h, he⟩
  · obtain ⟨hdropped, hexpected⟩ := h.dropOldest jb.frames.len
    generalize JitterBuffer.dropOldest jb.frames.len jb = jb' at hdropped hexpected
    rw [he] at hexpected
    simp only
    split
    · next idx stored hfirst =>
      obtain ⟨hmem, hleast⟩ := Sorted.first_le hfirst
      have hp := hdropped.placed e hexpected
      have hidx := (hp.window _ hmem).1
      refine ⟨⟨hdropped.config, ?_, ?_, hdropped.accounted⟩, rfl⟩
      · intro e' he'
        obtain rfl := Option.some.inj he'
        refine ⟨rfl, ?_, ?_, ?_⟩
        · intro r hr
          have hwindow := (hp.window r hr).2
          have hfront : idx ≤ r.1 := hleast r hr
          show idx ≤ r.1 ∧ r.1 < idx + jb'.cfg.maxBuffer
          omega
        · intro r hr
          have hnear := hp.near r hr
          omega
        · intro r hr
          exact hp.rebase hmem hr
      · intro hnone
        contradiction
    · exact ⟨hdropped, hexpected⟩

theorem deliver {e : Int} (he : jb.expected = some e) {pos : Int} {frame : Stored}
    (hget : jb.frames.get pos = some (pos, frame)) (hleast : ∀ r ∈ jb.frames.rows, pos ≤ r.1) :
    Inv cfg (jb.deliver pos frame) := by
  have hp := h.placed e he
  obtain ⟨hmem, _⟩ := Sorted.get_eq_some hget
  have hpos := (hp.window _ hmem).1
  have hrest : ∀ r ∈ (jb.frames.remove pos).rows, r ∈ jb.frames.rows ∧ pos < r.1 := by
    intro r hr
    obtain ⟨hr, hne⟩ := Sorted.mem_keep.mp hr
    have hne : r.1 ≠ pos := of_decide_eq_true hne
    have hle := hleast r hr
    exact ⟨hr, by omega⟩
  constructor
  · exact h.config
  · intro e' he'
    obtain rfl := Option.some.inj he'
    refine ⟨rfl, ?_, ?_, ?_⟩
    · intro r hr
      obtain ⟨hr, hlt⟩ := hrest r hr
      have hwindow := (hp.window r hr).2
      show pos + 1 ≤ r.1 ∧ r.1 < pos + 1 + jb.cfg.maxBuffer
      omega
    · intro r hr
      have hnear := hp.near r (hrest r hr).1
      omega
    · intro r hr
      have hseq : (r.2.seq.toNat : Int) ≡ frame.seq.toNat + (r.1 - pos) [ZMOD 2 ^ 16] :=
        hp.rebase hmem (hrest r hr).1
      have hsucc := toNat_succ_modEq frame.seq
      show (r.2.seq.toNat : Int) ≡ (frame.seq + 1).toNat + (r.1 - (pos + 1)) [ZMOD 2 ^ 16]
      unfold Int.ModEq at hseq hsucc ⊢
      omega
  · intro hnone
    contradiction
  · have hlen := Sorted.len_remove hget
    have hacc := h.accounted
    unfold Accounted depth at hacc ⊢
    rw [← hlen, UInt64.ofNat_add] at hacc
    simp only [JitterBuffer.deliver, hacc]
    grind

theorem noteClean : Inv cfg jb.noteClean := by
  unfold JitterBuffer.noteClean
  simp only
  split
  · exact h.of_same rfl rfl rfl rfl rfl h.accounted
  · exact h.of_same rfl rfl rfl rfl rfl h.accounted

theorem skip {e : Int} (he : jb.expected = some e) (hget : jb.frames.get e = none) :
    Inv cfg (jb.skip e) := by
  have hp := h.placed e he
  have hgt : ∀ r ∈ jb.frames.rows, e + 1 ≤ r.1 := by
    intro r hr
    have hne := Sorted.get_eq_none hget r hr
    have hle := (hp.window r hr).1
    omega
  constructor
  · exact h.config
  · intro e' he'
    obtain rfl := Option.some.inj he'
    refine ⟨rfl, ?_, ?_, ?_⟩
    · intro r hr
      have hwindow := (hp.window r hr).2
      show e + 1 ≤ r.1 ∧ r.1 < e + 1 + jb.cfg.maxBuffer
      exact ⟨hgt r hr, by omega⟩
    · intro r hr
      have hnear := hp.near r hr
      omega
    · intro r hr
      have hseq := hp.sequence r hr
      have hsucc := toNat_succ_modEq jb.anchorSeq
      rw [hp.anchor] at hseq
      show (r.2.seq.toNat : Int) ≡ (jb.anchorSeq + 1).toNat + (r.1 - (e + 1)) [ZMOD 2 ^ 16]
      unfold Int.ModEq at hseq hsucc ⊢
      omega
  · intro hnone
    contradiction
  · exact h.accounted

theorem starve : Inv cfg jb.starve := by
  unfold JitterBuffer.starve
  simp only
  split
  · exact h.of_same rfl rfl rfl rfl rfl h.accounted
  · exact h.of_same rfl rfl rfl rfl rfl h.accounted

theorem play {e : Int} (he : jb.expected = some e) : Inv cfg (jb.play e).2 := by
  obtain ⟨hcaught, hexpected⟩ := h.catchUp he
  unfold JitterBuffer.play
  generalize jb.catchUp e = caught at hcaught hexpected
  obtain ⟨e, jb⟩ := caught
  simp only at hcaught hexpected ⊢
  have hp := hcaught.placed e hexpected
  split
  · next i frame hget =>
    obtain ⟨_, rfl⟩ := Sorted.get_eq_some hget
    exact (hcaught.deliver hexpected hget fun r hr => (hp.window r hr).1).noteClean
  · next hget =>
    have hcleared : Inv cfg { jb with cleanRun := 0 } :=
      hcaught.of_same rfl rfl rfl rfl rfl hcaught.accounted
    split
    · next lowest frame hfirst =>
      split
      · obtain ⟨hmem, hleast⟩ := Sorted.first_le hfirst
        have hjump : Inv cfg { jb with
            cleanRun := 0, stats := { jb.stats with resyncs := jb.stats.resyncs + 1 } } :=
          hcaught.of_same rfl rfl rfl rfl rfl hcaught.accounted
        exact hjump.deliver hexpected (Sorted.get_of_mem hmem) hleast
      · exact hcleared.skip hexpected hget
    · exact hcaught.starve

theorem advance : Inv cfg jb.advance.2 := by
  unfold JitterBuffer.advance
  split
  · exact h
  · next e he =>
    split
    · exact h
    · have hprimed : Inv cfg { jb with primed := true } :=
        h.of_same rfl rfl rfl rfl rfl h.accounted
      exact hprimed.play he

theorem tick (fade : Fade) : Inv cfg (jb.tick fade).2 := by
  have hadvance := h.advance
  obtain heq | heq := tick_snd jb fade
  · rw [heq]
    exact hadvance
  · rw [heq]
    exact hadvance.of_same rfl rfl rfl rfl rfl hadvance.accounted

theorem tickInto (fade : Fade) (n : Nat) : Inv cfg (jb.tickInto fade n).2 := by
  have hadvance := h.advance
  obtain heq | heq := tickInto_snd jb fade n
  · rw [heq]
    exact hadvance
  · rw [heq]
    exact hadvance.of_same rfl rfl rfl rfl rfl hadvance.accounted

/-- **Every call keeps the invariant.** -/
theorem call (hmax : 1 ≤ cfg.maxBuffer) (fade : Fade) (c : Call) : Inv cfg (jb.call fade c) := by
  cases c with
  | insert seq pcm => exact h.insert hmax seq pcm
  | tick => exact h.tick fade
  | tickInto n => exact h.tickInto fade n

theorem run (hmax : 1 ≤ cfg.maxBuffer) (fade : Fade) (calls : List Call) :
    Inv cfg (jb.run fade calls) := by
  induction calls generalizing jb with
  | nil => exact h
  | cons c cs ih => exact ih (h.call hmax fade c)

end

end Inv

/-! ## the size of play indices -/

section Bounds

open JitterBuffer

variable {cfg : JitterConfig} {jb : JitterBuffer}

theorem expected_noteClean (jb : JitterBuffer) : jb.noteClean.expected = jb.expected := by
  unfold noteClean
  simp only
  split <;> rfl

theorem expected_starve (jb : JitterBuffer) : jb.starve.expected = jb.expected := by
  unfold starve
  simp only
  split <;> rfl

theorem catchUp_le (h : Inv cfg jb) {e : Int} (he : jb.expected = some e) :
    e ≤ (jb.catchUp e).1 ∧ (jb.catchUp e).1 ≤ e + 2 ^ 15 := by
  unfold catchUp
  split
  · exact ⟨le_rfl, by simp only; omega⟩
  · obtain ⟨hdropped, hexpected⟩ := h.dropOldest jb.frames.len
    rw [he] at hexpected
    have hp := hdropped.placed e hexpected
    simp only
    split
    · next idx stored hfirst =>
      obtain ⟨hmem, _⟩ := Sorted.first_le hfirst
      exact ⟨(hp.window _ hmem).1, (hp.near _ hmem).le⟩
    · exact ⟨le_rfl, by simp only; omega⟩

end Bounds

/-! ## every run -/

/-- **The jitter buffer's representation invariant.**  For every configuration
with room for a frame and every list of calls: whenever the buffer is anchored,
the anchor is at the play head, every stored index lies in the window of
`max_buffer` slots from the play head, and every stored sequence number is the
anchor's plus its distance from it, modulo `2^16`; and the packets offered are
those dropped as late, implausible or duplicate, skipped to catch up, played,
and stored. -/
theorem jitter_buffer_well_formed (cfg : JitterConfig) (hmax : 1 ≤ cfg.maxBuffer)
    (frameSamples : Nat) (fade : Fade) (calls : List JitterBuffer.Call) :
    let jb := (JitterBuffer.withConfig frameSamples cfg).run fade calls
    (∀ e, jb.expected = some e → jb.anchorIndex = e ∧ ∀ r ∈ jb.frames.rows,
      (e ≤ r.1 ∧ r.1 < e + cfg.maxBuffer) ∧
        (r.2.seq.toNat : Int) ≡ jb.anchorSeq.toNat + (r.1 - jb.anchorIndex) [ZMOD 2 ^ 16]) ∧
    jb.stats.inserted = jb.stats.late + jb.stats.overflow + jb.stats.duplicates +
      jb.stats.catchup + jb.stats.played + UInt64.ofNat jb.depth := by
  intro jb
  have h : Inv cfg jb := (Inv.withConfig frameSamples cfg).run hmax fade calls
  refine ⟨?_, h.accounted⟩
  intro e he
  have hp := h.placed e he
  refine ⟨hp.anchor, ?_⟩
  intro r hr
  have hwindow := hp.window r hr
  rw [h.config] at hwindow
  exact ⟨hwindow, hp.sequence r hr⟩

/-- A reordered, a duplicate and a late packet, across the wrap of the sequence
numbers. -/
def sampleCalls : List JitterBuffer.Call :=
  [.insert 65534 [1], .insert 0 [3], .insert 65535 [2], .insert 65535 [2], .tick, .tick,
    .insert 65534 [1], .insert 3 [6], .tick, .tick]

theorem jitter_buffer_well_formed_sample :
    let jb := (JitterBuffer.withConfig 160 {}).run (fun _ => none) sampleCalls
    jb.expected = some 4 ∧ jb.frames.rows.map (·.1) = [5] ∧
      (∀ r ∈ jb.frames.rows,
        (r.2.seq.toNat : Int) ≡ jb.anchorSeq.toNat + (r.1 - jb.anchorIndex) [ZMOD 2 ^ 16]) ∧
      jb.stats.inserted = jb.stats.late + jb.stats.overflow + jb.stats.duplicates +
        jb.stats.catchup + jb.stats.played + UInt64.ofNat jb.depth := by
  intro jb
  have h := jitter_buffer_well_formed {} (by decide) 160 (fun _ => none) sampleCalls
  have hexpected : jb.expected = some 4 := by decide +kernel
  exact ⟨hexpected, by decide +kernel, fun r hr => ((h.1 4 hexpected).2 r hr).2, h.2⟩

end SmithsNet.Media
