import Mathlib
import SmithsNet.Lib.Exec
import SmithsNet.Mixer.Conference

/-!
# SmithsNet.Mixer.Mix

What a participant of a conference hears: the sum of the frames that the jitter buffers of
the others release at the tick (`mix`).

The tick keeps its frames in one buffer and its sum in one accumulator, and finds the
others' sum by a subtraction.  `gather_eq` and `distribute_eq` say what the two loops over
the buffer come to, `sum_foldl_addInput` what the accumulator holds after the first, in
32-bit arithmetic; `sampleSum_bounds` is the headroom.  `conference_mix` puts them together
for every conference that a history of calls and ticks leads to.
-/

namespace SmithsNet.Mixing

open Lib
open Int32 (ofInt)
open Media

variable {α ν σ : Type}

/-! ## what is to be heard -/

/-- The sum of the samples at a place. -/
def sampleSum (frames : List (List Int16)) (i : Nat) : Int :=
  (frames.map fun f => (f[i]?.getD 0).toInt).sum

/-- Frames summed, and clipped once to 16 bits. -/
def mix (n : Nat) (frames : List (List Int16)) : List Int16 :=
  (List.range n).map fun i => Int16.ofInt (max (-32768) (min 32767 (sampleSum frames i)))

/-- The same over a sum in 32-bit arithmetic. -/
def mix32 (n : Nat) (frames : List (List Int16)) : List Int16 :=
  (List.range n).map fun i =>
    Int16.ofInt (max (-32768) (min 32767 (ofInt (sampleSum frames i)).toInt))

/-- The frame that the jitter buffer of a participant releases at the next tick. -/
def Participant.released (p : Participant α ν) (fade : Fade) (n : Nat) : List Int16 :=
  (p.jitter.tickInto fade n).1.2

/-- The frames that the others release. -/
def ConferenceState.others (s : ConferenceState α ν) (fade : Fade) (n : Nat) (id : ParticipantId) :
    List (List Int16) :=
  (s.participants.rows.filter fun r => decide (r.1 ≠ id)).map fun r => r.2.released fade n

/-- It has joined, and not left since. -/
def Present (ops : List Op) (id : ParticipantId) : Prop :=
  ∃ before after, ops = before ++ .join :: after ∧ before.count .join = id ∧ .leave id ∉ after

/-! ## sums -/

section sums

variable {frames : List (List Int16)} {i : Nat}

theorem sampleSum_cons (f : List Int16) (frames : List (List Int16)) (i : Nat) :
    sampleSum (f :: frames) i = (f[i]?.getD 0).toInt + sampleSum frames i := by
  simp [sampleSum]

theorem sampleSum_perm {fs gs : List (List Int16)} (h : fs.Perm gs) (i : Nat) :
    sampleSum fs i = sampleSum gs i :=
  (h.map _).sum_eq

theorem sampleSum_bounds (frames : List (List Int16)) (i : Nat) :
    -(32768 * frames.length : Int) ≤ sampleSum frames i ∧ sampleSum frames i ≤ 32767 * frames.length := by
  induction frames with
  | nil => simp [sampleSum]
  | cons f frames ih =>
    have hlow := Int16.le_toInt (f[i]?.getD 0)
    have hhigh := Int16.toInt_lt (f[i]?.getD 0)
    rw [sampleSum_cons, List.length_cons]
    push_cast
    omega

theorem toInt_ofInt_sampleSum (h : frames.length ≤ 65535) (i : Nat) :
    (ofInt (sampleSum frames i)).toInt = sampleSum frames i := by
  obtain ⟨hlow, hhigh⟩ := sampleSum_bounds frames i
  exact Int32.toInt_ofInt_of_le (by omega) (by omega)

theorem mix32_eq_mix (h : frames.length ≤ 65535) (n : Nat) : mix32 n frames = mix n frames := by
  simp only [mix32, mix, toInt_ofInt_sampleSum h]

end sums

/-! ## the mixer -/

theorem clipI32ToI16_eq (x : Int) :
    Companding.clipI32ToI16 x = Int16.ofInt (max (-32768) (min 32767 x)) := by
  unfold Companding.clipI32ToI16
  split
  · next h =>
    rw [min_eq_left (by omega), max_eq_right (by omega)]
    rfl
  · split
    · next h =>
      rw [min_eq_right (by omega), max_eq_left (by omega)]
      rfl
    · next h => rw [min_eq_right (by omega), max_eq_right (by omega)]

theorem getElem?_addSamples (accs : List Int32) (ss : List Int16) (i : Nat) :
    (addSamples accs ss)[i]? = accs[i]?.map fun acc => acc + ofInt (ss[i]?.getD 0).toInt := by
  induction accs generalizing ss i with
  | nil => cases ss <;> simp [addSamples]
  | cons acc accs ih =>
    cases ss with
    | nil => cases h : (acc :: accs)[i]? <;> simp [addSamples, h]
    | cons s ss =>
      cases i with
      | zero => simp [addSamples, Int16.toInt32]
      | succ i => simpa [addSamples] using ih ss i

section

variable (m : Mixer) (frames : List (List Int16))

theorem sum_foldl_addInput (i : Nat) : (frames.foldl Mixer.addInput m).sum[i]? =
      m.sum[i]?.map fun acc => acc + ofInt (sampleSum frames i) := by
  induction frames generalizing m with
  | nil => cases h : m.sum[i]? <;> simp [sampleSum, h]
  | cons f frames ih =>
    rw [List.foldl_cons, ih, Mixer.addInput, getElem?_addSamples, Option.map_map]
    refine congrArg (Option.map · _) (funext fun acc => ?_)
    rw [sampleSum_cons, Int32.ofInt_add, ← Int32.add_assoc]
    rfl

theorem cfg_foldl_addInput : (frames.foldl Mixer.addInput m).cfg = m.cfg := by
  induction frames generalizing m with
  | nil => rfl
  | cons f frames ih => rw [List.foldl_cons, ih, Mixer.cfg_addInput]

theorem sum_beginFrame {i : Nat} (hi : i < m.cfg.samplesPerFrame) :
    (frames.foldl Mixer.addInput m.beginFrame).sum[i]? = some (ofInt (sampleSum frames i)) := by
  rw [sum_foldl_addInput, Mixer.beginFrame, List.getElem?_replicate, if_pos hi, Option.map_some,
    Int32.zero_add]

end

theorem leaveOneOut_eq (m : Mixer) (all : List (List Int16)) {own : List Int16} {others : List (List Int16)}
    (hall : all.Perm (own :: others)) :
    (all.foldl Mixer.addInput m.beginFrame).leaveOneOut own (List.replicate m.cfg.samplesPerFrame 0) =
      mix32 m.cfg.samplesPerFrame others := by
  refine List.ext_getElem? fun i => ?_
  rw [Mixer.leaveOneOut, List.getElem?_mapIdx, List.getElem?_replicate, mix32, List.getElem?_map]
  by_cases hi : i < m.cfg.samplesPerFrame
  · rw [if_pos hi, Option.map_some, List.getElem?_range hi, Option.map_some, Mixer.leaveOut,
      sum_beginFrame m all hi, clipI32ToI16_eq]
    have hmine : ((own[i]?.map Int16.toInt32).getD 0) = ofInt (own[i]?.getD 0).toInt := by
      cases own[i]? <;> rfl
    have hsub : ofInt (sampleSum all i) - ofInt (own[i]?.getD 0).toInt =
        ofInt (sampleSum others i) := by
      rw [sampleSum_perm hall, sampleSum_cons, ← Int32.ofInt_sub, add_sub_cancel_left]
    simp only [Option.getD_some]
    rw [hmine, hsub]
  · rw [if_neg hi, List.getElem?_eq_none (by simpa using hi)]
    rfl

/-! ## the two loops -/

theorem length_copyFrame (pcm : List Int16) (n : Nat) : (JitterBuffer.copyFrame pcm n).length = n := by
  simp only [JitterBuffer.copyFrame, List.length_append, List.length_take, List.length_replicate]
  omega

theorem length_concealInto (fade : Fade) (jb : JitterBuffer) (n : Nat) :
    (jb.concealInto fade n).1.length = n := by
  unfold JitterBuffer.concealInto
  split
  · exact List.length_replicate
  · exact length_copyFrame _ n

theorem length_released (p : Participant α ν) (fade : Fade) (n : Nat) : (p.released fade n).length = n := by
  unfold Participant.released JitterBuffer.tickInto
  split
  · exact List.length_replicate
  · exact length_copyFrame _ n
  · next jb _ => exact length_concealInto fade jb n

/-- A participant after the first loop. -/
def advanced (fade : Fade) (n : Nat) (r : Row α ν) : Row α ν :=
  (r.1, { r.2 with jitter := (r.2.jitter.tickInto fade n).2 })

/-- The frames of all of them. -/
def released (fade : Fade) (n : Nat) (rows : List (Row α ν)) : List (List Int16) :=
  rows.map fun r => r.2.released fade n

/-- The first loop fills the buffer with one frame of each participant. -/
theorem gather_eq (fade : Fade) (n : Nat) (rows : List (Row α ν)) {inputs : List Int16}
    (hlen : inputs.length = rows.length * n) (m : Mixer) : gather fade n rows inputs m =
      (rows.map (advanced fade n), (released fade n rows).flatten, (released fade n rows).foldl Mixer.addInput m,
        rows.map Prod.fst) := by
  induction rows generalizing inputs m with
  | nil =>
    obtain rfl : inputs = [] := List.length_eq_zero_iff.mp (by simpa using hlen)
    rfl
  | cons r rows ih =>
    have hge : ¬ inputs.length < n := by
      rw [hlen, List.length_cons, Nat.succ_mul]
      omega
    have hrest : (inputs.drop n).length = rows.length * n := by
      rw [List.length_drop, hlen, List.length_cons, Nat.succ_mul]
      omega
    unfold gather
    rw [if_neg hge]
    simp only [ih hrest]
    rfl

/-- A participant after the second loop, whose frame was `input`. -/
def finished (st : Stages α ν σ) (n : Nat) (m : Mixer) (r : Row α ν) (input : List Int16) : Row α ν :=
  let (out, agc) := st.applyInplace r.2.agc (m.leaveOneOut input (List.replicate n 0))
  (r.1, { r.2 with agc := agc, vad := (st.observe r.2.vad input).2, txOut := r.2.txOut.trySend ⟨r.1, out⟩ })

/-- The second loop finds each participant's own frame in the buffer. -/
theorem distribute_eq (st : Stages α ν σ) (n : Nat) (m : Mixer) (f : Row α ν → List Int16)
    (g : Row α ν → Row α ν) (hf : ∀ r, (f r).length = n) (rows : List (Row α ν)) (out : List Int16) :
    (distribute st n m (rows.map g) (rows.map f).flatten out).1 = rows.map fun r => finished st n m (g r) (f r) := by
  induction rows generalizing out with
  | nil => rfl
  | cons r rows ih =>
    have hge : ¬ (f r ++ (rows.map f).flatten).length < n := by
      rw [List.length_append, hf]
      omega
    have htake : (f r ++ (rows.map f).flatten).take n = f r := List.take_left' (hf r)
    have hdrop : (f r ++ (rows.map f).flatten).drop n = (rows.map f).flatten := List.drop_left' (hf r)
    rw [List.map_cons, List.map_cons, List.flatten_cons, List.map_cons]
    unfold distribute
    rw [if_neg hge]
    simp only [htake, hdrop, ih]
    rfl

/-! ## a tick -/

theorem released_perm (s : ConferenceState α ν) (fade : Fade) (n : Nat) {id : ParticipantId}
    {p : Participant α ν} (hp : (id, p) ∈ s.participants.rows) :
    (released fade n s.participants.rows).Perm (p.released fade n :: s.others fade n id) := by
  have hsorted := s.participants.sorted
  obtain ⟨before, after, hrows⟩ := List.append_of_mem hp
  rw [hrows] at hsorted
  obtain ⟨-, hafter, hbefore⟩ := List.pairwise_append.mp hsorted
  have hkeep : ∀ rows : List (Row α ν), (∀ r ∈ rows, r.1 ≠ id) →
      rows.filter (fun r => decide (r.1 ≠ id)) = rows :=
    fun rows hne => List.filter_eq_self.mpr fun r hr => decide_eq_true (hne r hr)
  have hothers : s.others fade n id = released fade n (before ++ after) := by
    unfold ConferenceState.others released
    rw [hrows, List.filter_append, List.filter_cons_of_neg (by simp),
      hkeep before fun r hr => (hbefore r hr _ List.mem_cons_self).ne,
      hkeep after fun r hr => ((List.pairwise_cons.mp hafter).1 r hr).ne']
  rw [hothers, hrows, released, released]
  exact List.perm_middle.map _

theorem tickOnce_eq (st : Stages α ν σ) {s s' : ConferenceState α ν} {m m' : Mixer} {scratch scratch' : TickScratch σ}
    (htick : tickOnce st s m scratch = some (s', m', scratch')) :
    m'.cfg = m.cfg ∧ s'.nextParticipant = s.nextParticipant ∧
      s'.participants.rows.map Prod.fst = s.participants.rows.map Prod.fst ∧
      ∀ id p, (id, p) ∈ s.participants.rows → ∃ p', (id, p') ∈ s'.participants.rows ∧
        p'.txOut = p.txOut.trySend
          ⟨id, (st.applyInplace p.agc (mix32 m.cfg.samplesPerFrame (s.others st.fade m.cfg.samplesPerFrame id))).1⟩ := by
  unfold tickOnce at htick
  simp only at htick
  split at htick
  · next hempty =>
    obtain ⟨rfl, rfl, rfl⟩ : _ = s' ∧ m = m' ∧ scratch = scratch' := by simpa using htick
    refine ⟨rfl, rfl, rfl, fun id p hp => ?_⟩
    rw [List.isEmpty_iff.mp hempty] at hp
    contradiction
  · split at htick
    · contradiction
    · have hgather := @gather_eq _ _ st.fade m.cfg.samplesPerFrame s.participants.rows
        (List.replicate (s.participants.len * m.cfg.samplesPerFrame) 0) List.length_replicate m.beginFrame
      simp only [hgather, Sorted.rewrite] at htick
      have hdistribute := distribute_eq st m.cfg.samplesPerFrame
        ((released st.fade m.cfg.samplesPerFrame s.participants.rows).foldl Mixer.addInput m.beginFrame)
        (fun r => r.2.released st.fade m.cfg.samplesPerFrame) (advanced st.fade m.cfg.samplesPerFrame)
        (fun r => length_released r.2 st.fade _) s.participants.rows scratch.out
      rw [Option.some.injEq, Prod.mk.injEq, Prod.mk.injEq] at htick
      obtain ⟨rfl, rfl, -⟩ := htick
      refine ⟨cfg_foldl_addInput _ _, rfl, ?_, ?_⟩
      · refine (congrArg (List.map Prod.fst) hdistribute).trans ?_
        rw [List.map_map]
        rfl
      · intro id p hp
        have hleave := leaveOneOut_eq m _ (released_perm s st.fade m.cfg.samplesPerFrame hp)
        have hmem := List.mem_map_of_mem (f := fun r : Row α ν => finished st m.cfg.samplesPerFrame
          ((released st.fade m.cfg.samplesPerFrame s.participants.rows).foldl Mixer.addInput m.beginFrame)
          (advanced st.fade m.cfg.samplesPerFrame r) (r.2.released st.fade m.cfg.samplesPerFrame)) hp
        rw [← hdistribute] at hmem
        refine ⟨_, hmem, ?_⟩
        rw [← hleave]
        rfl

/-- A tick panics where frames have no samples, and there is somebody to hear them. -/
theorem tickOnce_eq_none (st : Stages α ν σ) (s : ConferenceState α ν) (m : Mixer) (scratch : TickScratch σ) :
    tickOnce st s m scratch = none ↔ m.cfg.samplesPerFrame = 0 ∧ s.participants.rows ≠ [] := by
  unfold tickOnce
  simp only
  split
  · next hempty => simp [List.isEmpty_iff.mp hempty]
  · next hsome =>
    have hne : s.participants.rows ≠ [] := fun hnil => hsome (List.isEmpty_iff.mpr hnil)
    split
    · next hzero => simp [hzero, hne]
    · next hpos => simp [hpos]

/-! ## histories -/

theorem present_append {ops : List Op} {op : Op} {id : ParticipantId} : Present (ops ++ [op]) id ↔
      Present ops id ∧ op ≠ .leave id ∨ op = .join ∧ id = ops.count .join := by
  constructor
  · rintro ⟨before, after, hops, hcount, hleave⟩
    obtain rfl | ⟨after, last, rfl⟩ := after.eq_nil_or_concat
    · obtain ⟨rfl, hlast⟩ := List.append_inj' hops rfl
      exact .inr ⟨List.singleton_inj.mp hlast, hcount.symm⟩
    · rw [List.concat_eq_append, ← List.cons_append, ← List.append_assoc] at hops
      rw [List.concat_eq_append] at hleave
      obtain ⟨rfl, hlast⟩ := List.append_inj' hops rfl
      obtain rfl := List.singleton_inj.mp hlast
      rw [List.mem_append, List.mem_singleton, not_or] at hleave
      exact .inl ⟨⟨before, after, rfl, hcount, hleave.1⟩, Ne.symm hleave.2⟩
  · rintro (⟨⟨before, after, rfl, hcount, hleave⟩, hop⟩ | ⟨rfl, rfl⟩)
    · refine ⟨before, after ++ [op], by simp, hcount, ?_⟩
      rw [List.mem_append, List.mem_singleton, not_or]
      exact ⟨hleave, Ne.symm hop⟩
    · exact ⟨ops, [], rfl, rfl, List.not_mem_nil⟩

theorem ids_put {t : Roster α ν} {id : ParticipantId} {r : Row α ν} (hget : t.get id = some r)
    (p : Participant α ν) (k : ParticipantId) :
    k ∈ (t.put (id, p)).rows.map Prod.fst ↔ k ∈ t.rows.map Prod.fst := by
  obtain ⟨hr, hkey⟩ := Sorted.get_eq_some hget
  rw [Sorted.mem_keys_put]
  refine or_iff_right_of_imp ?_
  rintro rfl
  exact List.mem_map.mpr ⟨r, hr, hkey⟩

namespace ConferenceState

variable (cfg : ConferenceConfig) (s : ConferenceState α ν) (id : ParticipantId)

theorem nextParticipant_pushInner (seq : Option UInt16) (samples : List Int16) :
    (s.pushInner cfg id seq samples).2.nextParticipant = s.nextParticipant := by
  unfold pushInner
  split
  · rfl
  · split <;> rfl

theorem ids_pushInner (seq : Option UInt16) (samples : List Int16) (k : ParticipantId) :
    k ∈ (s.pushInner cfg id seq samples).2.participants.rows.map Prod.fst ↔ k ∈ s.participants.rows.map Prod.fst := by
  unfold pushInner
  split
  · rfl
  · split
    · rfl
    · next hget => exact ids_put hget _ k

theorem nextParticipant_egress (change : Egress → Egress) :
    (s.egress id change).nextParticipant = s.nextParticipant := by
  unfold egress
  split <;> rfl

theorem ids_egress (change : Egress → Egress) (k : ParticipantId) :
    k ∈ (s.egress id change).participants.rows.map Prod.fst ↔ k ∈ s.participants.rows.map Prod.fst := by
  unfold egress
  split
  · rfl
  · next hget => exact ids_put hget _ k

end ConferenceState

namespace Conference

open ConferenceState

variable {st : Stages α ν σ} {cfg : ConferenceConfig} {ops : List Op} {c c' : Conference α ν σ}

/-- What every history keeps: the frame size, and the roster as the history has it. -/
structure Kept (cfg : ConferenceConfig) (ops : List Op) (c : Conference α ν σ) : Prop where
  cfg_eq : c.cfg = cfg
  mixer : c.mixer.cfg = cfg.mixer
  next : c.state.nextParticipant = ops.count .join
  roster : ∀ id, id ∈ c.state.participants.rows.map Prod.fst ↔ Present ops id

theorem kept_spawn (cfg : ConferenceConfig) : Kept cfg [] (spawn cfg : Conference α ν σ) := by
  refine ⟨rfl, rfl, rfl, fun id => iff_of_false List.not_mem_nil ?_⟩
  rintro ⟨before, after, hops, -⟩
  simp at hops

theorem Kept.of_same (h : Kept cfg ops c) {op : Op} (hjoin : op ≠ .join) (hleave : ∀ id, op ≠ .leave id)
    (hcfg : c'.cfg = c.cfg) (hmixer : c'.mixer.cfg = c.mixer.cfg)
    (hnext : c'.state.nextParticipant = c.state.nextParticipant)
    (hids : ∀ id, id ∈ c'.state.participants.rows.map Prod.fst ↔ id ∈ c.state.participants.rows.map Prod.fst) :
    Kept cfg (ops ++ [op]) c' := by
  refine ⟨hcfg.trans h.cfg_eq, hmixer.trans h.mixer, ?_, fun id => ?_⟩
  · rw [hnext, h.next, List.count_append, List.count_singleton, if_neg (by simpa using hjoin), Nat.add_zero]
  · rw [hids, h.roster, present_append]
    simp [hjoin, hleave id]

theorem Kept.step (h : Kept cfg ops c) {op : Op} (hstep : c.step st op = some c') : Kept cfg (ops ++ [op]) c' := by
  cases op with
  | join =>
    rw [← Option.some.inj hstep]
    refine ⟨h.cfg_eq, h.mixer, ?_, fun id => ?_⟩
    · rw [List.count_append, ← h.next]
      rfl
    · rw [present_append, ← h.roster, ← h.next]
      refine Sorted.mem_keys_put.trans ?_
      simp [or_comm]
  | leave id' =>
    cases hget : c.state.participants.get id' with
    | none =>
      simp only [Conference.step, ConferenceState.leave, hget] at hstep
      rw [← Option.some.inj hstep]
      refine ⟨h.cfg_eq, h.mixer, ?_, fun id => ?_⟩
      · rw [h.next, List.count_append]
        rfl
      · rw [present_append, ← h.roster]
        have hne : id ∈ c.state.participants.rows.map Prod.fst → id' ≠ id := by
          rintro hid rfl
          obtain ⟨r, hr, hkey⟩ := List.mem_map.mp hid
          exact Sorted.get_eq_none hget r hr hkey
        simpa using hne
    | some r =>
      simp only [Conference.step, ConferenceState.leave, hget] at hstep
      rw [← Option.some.inj hstep]
      refine ⟨h.cfg_eq, h.mixer, ?_, fun id => ?_⟩
      · rw [List.count_append]
        exact h.next
      · rw [present_append, ← h.roster]
        refine Sorted.mem_keys_remove.trans ?_
        simp [eq_comm]
  | push id seq samples =>
    rw [← Option.some.inj hstep]
    exact h.of_same nofun nofun rfl rfl (nextParticipant_pushInner ..) (ids_pushInner _ _ _ _ _)
  | recv id =>
    rw [← Option.some.inj hstep]
    exact h.of_same nofun nofun rfl rfl (nextParticipant_egress ..) (ids_egress _ _ _)
  | hangUp id =>
    rw [← Option.some.inj hstep]
    exact h.of_same nofun nofun rfl rfl (nextParticipant_egress ..) (ids_egress _ _ _)
  | tick =>
    obtain ⟨⟨state, mixer, scratch⟩, htick, hc'⟩ := Option.bind_eq_some_iff.mp hstep
    obtain ⟨hcfg, hnext, hids, -⟩ := tickOnce_eq st htick
    rw [← Option.some.inj hc']
    exact h.of_same nofun nofun rfl hcfg hnext fun id => by rw [hids]

theorem kept_of_exec (hrun : exec (Conference.step st) (spawn cfg) ops = some c) : Kept cfg ops c := by
  induction ops using List.reverseRecOn generalizing c with
  | nil =>
    rw [← Option.some.inj hrun]
    exact kept_spawn cfg
  | append_singleton ops op ih =>
    rw [exec_append] at hrun
    obtain ⟨c₁, hbefore, hlast⟩ := Option.bind_eq_some_iff.mp hrun
    obtain ⟨c₂, hstep, hend⟩ := Option.bind_eq_some_iff.mp hlast
    rw [← Option.some.inj hend]
    exact (ih hbefore).step hstep

end Conference

/-! ## headroom -/

/-- No addition of the first loop and no subtraction of the second overflows. -/
structure Headroom (m : Mixer) (frames : List (List Int16)) : Prop where
  add : ∀ (before : List (List Int16)) (f : List Int16) (after), frames = before ++ f :: after → ∀ i < m.cfg.samplesPerFrame,
    ∃ acc, (before.foldl Mixer.addInput m.beginFrame).sum[i]? = some acc ∧
      (acc + (f[i]?.getD 0).toInt32).toInt = acc.toInt + (f[i]?.getD 0).toInt
  sub : ∀ own ∈ frames, ∀ i < m.cfg.samplesPerFrame,
    ∃ total, (frames.foldl Mixer.addInput m.beginFrame).sum[i]? = some total ∧
      (total - (own[i]?.getD 0).toInt32).toInt = total.toInt - (own[i]?.getD 0).toInt

theorem headroom (m : Mixer) {frames : List (List Int16)} (h : frames.length ≤ 65535) : Headroom m frames := by
  constructor
  · intro before f after hframes i hi
    refine ⟨_, sum_beginFrame m before hi, ?_⟩
    have hlen : (f :: before).length ≤ 65535 := by
      rw [hframes, List.length_append, List.length_cons] at h
      rw [List.length_cons]
      omega
    have hsum : ofInt (sampleSum before i) + (f[i]?.getD 0).toInt32 = ofInt (sampleSum (f :: before) i) := by
      rw [sampleSum_cons, Int32.ofInt_add, Int32.add_comm]
      rfl
    rw [hsum, toInt_ofInt_sampleSum hlen, toInt_ofInt_sampleSum (by rw [List.length_cons] at hlen; omega),
      sampleSum_cons, add_comm]
  · intro own hown i hi
    refine ⟨_, sum_beginFrame m frames hi, ?_⟩
    obtain ⟨before, after, rfl⟩ := List.append_of_mem hown
    have hperm : (before ++ own :: after).Perm (own :: (before ++ after)) := List.perm_middle
    have hlen : (before ++ after).length ≤ 65535 := by
      rw [hperm.length_eq, List.length_cons] at h
      omega
    have hsub : ofInt (sampleSum (before ++ own :: after) i) - (own[i]?.getD 0).toInt32 =
        ofInt (sampleSum (before ++ after) i) := by
      have hmine : (own[i]?.getD 0).toInt32 = ofInt (own[i]?.getD 0).toInt := rfl
      rw [hmine, sampleSum_perm hperm, sampleSum_cons, ← Int32.ofInt_sub, add_sub_cancel_left]
    rw [hsub, toInt_ofInt_sampleSum h, toInt_ofInt_sampleSum hlen, sampleSum_perm hperm, sampleSum_cons,
      add_sub_cancel_left]

/-! ## every history, every tick -/

/-- After every history of joins, leaves, pushed and drained frames and ticks, the next
tick queues to each participant on the roster (and to nobody else) the sum, clipped once, of
the frames that the jitter buffers of the others release at this tick. -/
theorem conference_mix (st : Stages α ν σ) (cfg : ConferenceConfig) {ops : List Op} {c : Conference α ν σ}
    (hrun : exec (Conference.step st) (Conference.spawn cfg) ops = some c) :
    (∀ id, id ∈ c.state.participants.rows.map Prod.fst ↔ Present ops id) ∧
      (c.step st .tick = none ↔ cfg.mixer.samplesPerFrame = 0 ∧ c.state.participants.rows ≠ []) ∧
      ∀ c', c.step st .tick = some c' →
        c'.state.participants.rows.map Prod.fst = c.state.participants.rows.map Prod.fst ∧
        (∀ id p, (id, p) ∈ c.state.participants.rows → ∃ p', (id, p') ∈ c'.state.participants.rows ∧
          p'.txOut = p.txOut.trySend ⟨id, (st.applyInplace p.agc
            (mix32 cfg.mixer.samplesPerFrame (c.state.others st.fade cfg.mixer.samplesPerFrame id))).1⟩) ∧
        (c.state.participants.len ≤ 65535 →
          Headroom c.mixer (released st.fade cfg.mixer.samplesPerFrame c.state.participants.rows) ∧
          ∀ id, mix32 cfg.mixer.samplesPerFrame (c.state.others st.fade cfg.mixer.samplesPerFrame id) =
            mix cfg.mixer.samplesPerFrame (c.state.others st.fade cfg.mixer.samplesPerFrame id)) := by
  have hkept := Conference.kept_of_exec hrun
  refine ⟨hkept.roster, ?_, fun c' htick => ?_⟩
  · rw [← hkept.mixer, ← tickOnce_eq_none st c.state c.mixer c.scratch]
    show Option.bind _ _ = none ↔ _
    cases tickOnce st c.state c.mixer c.scratch <;> simp
  · obtain ⟨⟨state, mixer, scratch⟩, honce, hc'⟩ := Option.bind_eq_some_iff.mp htick
    obtain ⟨-, -, hids, hqueued⟩ := tickOnce_eq st honce
    rw [← Option.some.inj hc', ← hkept.mixer]
    refine ⟨hids, hqueued, fun hlen => ⟨headroom _ (by simpa [released, Sorted.len] using hlen), fun id => ?_⟩⟩
    refine mix32_eq_mix ?_ _
    rw [ConferenceState.others, List.length_map]
    exact (List.length_filter_le _ _).trans hlen

/-- Two samples a frame, and no cushion. -/
def sampleConfig : ConferenceConfig where
  mixer := ⟨2⟩
  jitter := { initialTarget := 1, minTarget := 1 }

/-- Three participants, one of whom leaves; the other two and a fourth are heard. -/
def sampleOps : List Op :=
  [.join, .join, .join, .push 0 none [100, -7], .push 1 none [5, 6], .tick, .leave 1, .join,
    .push 0 none [30000, 1], .push 2 (some 9) [20000, 2], .push 3 none [-1, 3]]

theorem conference_mix_sampleOps :
    ∃ c, exec (Conference.step plainStages) (Conference.spawn sampleConfig) sampleOps = some c ∧
      ∀ c', c.step plainStages .tick = some c' → c.state.participants.len ≤ 65535 →
        ∀ id, mix32 2 (c.state.others plainStages.fade 2 id) = mix 2 (c.state.others plainStages.fade 2 id) := by
  obtain ⟨c, hc⟩ := Option.isSome_iff_exists.mp
    (show (exec (Conference.step plainStages) (Conference.spawn sampleConfig) sampleOps).isSome = true by decide +kernel)
  refine ⟨c, hc, fun c' htick hlen => ?_⟩
  exact (((conference_mix plainStages sampleConfig hc).2.2 c' htick).2.2 hlen).2

/-- What the participants hear in the end: the sum for the fourth is clipped. -/
example : ((exec (Conference.step plainStages) (Conference.spawn sampleConfig) (sampleOps ++ [.tick])).map fun c =>
    c.state.participants.rows.map fun r => (r.1, r.2.txOut.queue.getLast?.map ParticipantFrame.samples)) =
    some [(0, some [19999, 5]), (2, some [29999, 4]), (3, some [32767, 3])] := by
  decide +kernel

end SmithsNet.Mixing
