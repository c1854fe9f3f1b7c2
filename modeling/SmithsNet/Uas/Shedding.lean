import Mathlib
import SmithsNet.Uas.RateBound

/-!
# SmithsNet.Uas.Shedding

Whom the limiter refuses for want of room.  The table is meant to be full of sources that
are all mid-burst when a newcomer is shed, but nothing looks at their buckets then: only
every 4096th check sweeps.  So a table that has once been filled sheds newcomers although
every bucket has filled up again.  It cannot be filled where there are no more sources than
it holds, or where the refill time rounds to zero and every sweep empties it
(`shedsOnlyMidBurst_iff`).
-/

namespace SmithsNet.Uas.RateLimit

open Lib SipRateLimiter

section Shedding

variable {κ : Type} [DecidableEq κ]

/-- The limiter behind a run. -/
def stateAfter (l : SipRateLimiter κ) : List (Event κ) → SipRateLimiter κ
  | [] => l
  | .check source gcNow now :: es => stateAfter (l.allow source gcNow now).2 es
  | .evict now :: es => stateAfter (l.evictIdle now).2 es

/-- After any run of sources in `S`, a newcomer from `S` that is refused for want of room
finds, behind the sweep of its own check, only buckets that are not full. -/
def ShedsOnlyMidBurst (S : Set κ) (cfg : SipRateLimit) (maxSources : Nat) : Prop :=
  ∀ (es : List (Event κ)) (source : κ) (gcNow now : Nat),
    Timed 0 (es ++ [.check source gcNow now]) → (∀ s ∈ sources es, s ∈ S) → source ∈ S →
    let l := stateAfter ((new cfg).withMaxSources maxSources) es
    l.verdict source gcNow now = .noRoom →
      ∀ k b, (l.sweep gcNow).buckets.lookup k = some b → (l.sweep gcNow).level b now < l.burst

/-! ## what every run keeps -/

variable {es : List (Event κ)} {ks : List κ} {cap rate burst n : Nat} {S : Set κ}
    {l : SipRateLimiter κ} {k : κ}

theorem stateAfter_invariant {I : SipRateLimiter κ → Prop}
    (hcheck : ∀ l source gcNow now, I l → source ∈ S → I (l.allow source gcNow now).2)
    (hevict : ∀ l now, I l → I (l.evictIdle now).2) (h : I l)
    (hes : ∀ s ∈ sources es, s ∈ S) : I (stateAfter l es) := by
  induction es generalizing l with
  | nil => exact h
  | cons event es ih =>
    cases event with
    | check source gcNow now =>
      exact ih (hcheck l source gcNow now h (hes source (by simp [sources]))) fun s hs => hes s (by simp [sources, hs])
    | evict now => exact ih (hevict l now h) hes

/-- The configuration of a limiter. -/
structure Configured (rate burst cap : Nat) (l : SipRateLimiter κ) : Prop where
  rate : l.ratePerSec = rate
  burst : l.burst = burst
  cap : l.maxSources = cap

omit [DecidableEq κ] in
theorem configured_new (cfg : SipRateLimit) (maxSources : Nat) :
    Configured cfg.perSec.toNat cfg.depth (max maxSources 1)
      ((new cfg).withMaxSources maxSources : SipRateLimiter κ) := ⟨rfl, rfl, rfl⟩

namespace Configured

variable {rate burst cap : Nat} {l : SipRateLimiter κ}

omit [DecidableEq κ] in
theorem evictIdle (h : Configured rate burst cap l) (now : Nat) : Configured rate burst cap (l.evictIdle now).2 := by
  unfold SipRateLimiter.evictIdle
  split
  · exact ⟨h.rate, h.burst, h.cap⟩
  · exact ⟨h.rate, h.burst, h.cap⟩

omit [DecidableEq κ] in
theorem sweep (h : Configured rate burst cap l) (gcNow : Nat) : Configured rate burst cap (l.sweep gcNow) := by
  unfold SipRateLimiter.sweep
  split
  · have huncounted : Configured rate burst cap { l with callsSinceGc := 0 } := ⟨h.rate, h.burst, h.cap⟩
    exact huncounted.evictIdle gcNow
  · exact ⟨h.rate, h.burst, h.cap⟩

section

variable (h : Configured rate burst cap l)
include h

theorem takeToken (source : κ) (now : Nat) :
    Configured rate burst cap (l.takeToken source now).2 := by
  obtain ⟨hrate, hburst, hcap⟩ := takeToken_config l source now
  exact ⟨hrate.trans h.rate, hburst.trans h.burst, hcap.trans h.cap⟩

theorem allow_eq (hpos : 0 < rate) (source : κ) (gcNow now : Nat) :
    l.allow source gcNow now = (l.sweep gcNow).takeToken source now := by
  have hrate := h.rate
  rw [allow, if_neg (by omega)]

theorem noRoom_iff (hpos : 0 < rate) (source : κ) (gcNow now : Nat) :
    l.verdict source gcNow now = .noRoom ↔
      (l.sweep gcNow).buckets.lookup source = none ∧ cap ≤ (l.sweep gcNow).buckets.len := by
  have hcap := h.cap
  have hcap' := (h.sweep gcNow).cap
  unfold verdict
  rw [h.allow_eq hpos]
  constructor
  · intro hverdict
    split at hverdict
    · cases hverdict
    · split at hverdict
      · next hfull => exact ⟨hfull.1, by omega⟩
      · cases hverdict
  · rintro ⟨hnone, hfull⟩
    obtain ⟨-, -, hsame⟩ | ⟨hroom, -⟩ := takeToken_cases (l.sweep gcNow) source now
    · rw [hsame, if_neg (by simp), if_pos ⟨hnone, by omega⟩]
    · exact absurd ⟨hnone, by omega⟩ hroom

end

end Configured

theorem within_sweep (l : SipRateLimiter κ) (gcNow : Nat) : KeyMap.Within (l.sweep gcNow).buckets l.buckets := by
  unfold SipRateLimiter.sweep SipRateLimiter.evictIdle
  split
  · split
    · intro k b hb
      cases hb
    · exact KeyMap.within_retain _ _
  · exact .refl _

theorem within_evictIdle (l : SipRateLimiter κ) (now : Nat) : KeyMap.Within (l.evictIdle now).2.buckets l.buckets := by
  unfold SipRateLimiter.evictIdle
  split
  · intro k b hb
    cases hb
  · exact KeyMap.within_retain _ _

theorem len_le_of_within {s t : KeyMap κ Bucket} (h : KeyMap.Within s t) : s.len ≤ t.len := by
  have hlen := len_le_of_known (S := t.keys) fun k hk => AList.mem_keys.mp (h.mem hk)
  simpa [KeyMap.len, AList.keys, List.keys] using hlen

/-! ## tables that are never filled -/

theorem not_noRoom_of_few (h : Configured rate burst cap l)
    (hpos : 0 < rate) (hfew : S.encard ≤ cap) (hknown : ∀ k ∈ l.buckets, k ∈ S) {source : κ} (hsource : source ∈ S)
    (gcNow now : Nat) : l.verdict source gcNow now ≠ .noRoom := by
  rw [Ne, h.noRoom_iff hpos]
  rintro ⟨hnone, hfull⟩
  have hkeys : (l.sweep gcNow).buckets.keys.length = (l.sweep gcNow).buckets.len := List.length_map _
  have hfresh : source ∉ (l.sweep gcNow).buckets.keys := AList.lookup_eq_none.mp hnone
  have hnodup : (source :: (l.sweep gcNow).buckets.keys).Nodup :=
    List.nodup_cons.mpr ⟨hfresh, (l.sweep gcNow).buckets.keys_nodup⟩
  have hsub : ((source :: (l.sweep gcNow).buckets.keys).toFinset : Set κ) ⊆ S := by
    intro k hk
    rw [List.coe_toFinset] at hk
    obtain rfl | hk := List.mem_cons.mp hk
    · exact hsource
    · exact hknown k ((within_sweep l gcNow).mem (AList.mem_keys.mp hk))
  have hcard := (Set.encard_le_encard hsub).trans hfew
  rw [Set.encard_coe_eq_coe_finsetCard, List.toFinset_card_of_nodup hnodup, List.length_cons, hkeys] at hcard
  have hcard' : (l.sweep gcNow).buckets.len + 1 ≤ cap := by exact_mod_cast hcard
  omega

theorem known_stateAfter (h : ∀ k ∈ l.buckets, k ∈ S)
    (hes : ∀ s ∈ sources es, s ∈ S) : ∀ k ∈ (stateAfter l es).buckets, k ∈ S := by
  refine stateAfter_invariant (I := fun l => ∀ k ∈ l.buckets, k ∈ S) ?_ ?_ h hes
  · intro l source gcNow now hknown hsource k hk
    unfold allow at hk
    split at hk
    · exact hknown k hk
    · obtain ⟨-, -, hsame⟩ | ⟨-, htake⟩ := takeToken_cases (l.sweep gcNow) source now
      · rw [hsame] at hk
        exact hknown k ((within_sweep l gcNow).mem hk)
      · rw [htake, AList.mem_insert] at hk
        obtain rfl | hk := hk
        · exact hsource
        · exact hknown k ((within_sweep l gcNow).mem hk)
  · intro l now hknown k hk
    exact hknown k ((within_evictIdle l now).mem hk)

/-- No more buckets than checks since the sweep. -/
structure Recent (rate burst cap : Nat) (l : SipRateLimiter κ) : Prop where
  configured : Configured rate burst cap l
  few : l.buckets.len ≤ l.callsSinceGc + 1
  calls : l.callsSinceGc < GC_EVERY_CALLS

omit [DecidableEq κ] in
theorem callsSinceGc_evictIdle (l : SipRateLimiter κ) (now : Nat) :
    (l.evictIdle now).2.callsSinceGc = l.callsSinceGc := by
  unfold SipRateLimiter.evictIdle
  split <;> rfl

omit [DecidableEq κ] in
theorem len_evictIdle_of_zero (hzero : l.refill = 0) (now : Nat) :
    (l.evictIdle now).2.buckets.len = 0 := by
  unfold SipRateLimiter.evictIdle
  split
  · rfl
  · rw [hzero]
    simp [KeyMap.len, KeyMap.retain]

omit [DecidableEq κ] in
theorem Recent.sweep (h : Recent rate burst cap l)
    (hzero : refillNanos burst rate = 0) (gcNow : Nat) :
    (l.sweep gcNow).buckets.len ≤ (l.sweep gcNow).callsSinceGc ∧ (l.sweep gcNow).callsSinceGc < GC_EVERY_CALLS := by
  have hrefill : ∀ calls, ({ l with callsSinceGc := calls } : SipRateLimiter κ).refill = 0 := by
    intro calls
    rw [refill, h.configured.burst, h.configured.rate, hzero]
  unfold SipRateLimiter.sweep
  split
  · rw [len_evictIdle_of_zero (hrefill 0), callsSinceGc_evictIdle]
    exact ⟨Nat.zero_le _, show 0 < GC_EVERY_CALLS by decide⟩
  · exact ⟨h.few, by dsimp only; omega⟩

theorem recent_stateAfter (h : Recent rate burst cap l) (hpos : 0 < rate)
    (hzero : refillNanos burst rate = 0) (es : List (Event κ)) : Recent rate burst cap (stateAfter l es) := by
  refine stateAfter_invariant (S := Set.univ) ?_ ?_ h fun _ _ => Set.mem_univ _
  · intro l source gcNow now hrecent _
    obtain ⟨hfew, hcalls⟩ := hrecent.sweep hzero gcNow
    have hconfigured := hrecent.configured.sweep gcNow
    rw [hrecent.configured.allow_eq hpos]
    refine ⟨hconfigured.takeToken source now, ?_, ?_⟩
    · obtain ⟨-, -, hsame⟩ | ⟨-, htake⟩ := takeToken_cases (l.sweep gcNow) source now
      · rw [hsame]
        exact hfew.trans (Nat.le_succ _)
      · rw [htake]
        dsimp only
        cases hb : (l.sweep gcNow).buckets.lookup source with
        | none =>
          rw [KeyMap.len_insert hb]
          omega
        | some b =>
          rw [KeyMap.len_insert_of_some hb]
          omega
    · obtain ⟨-, -, hsame⟩ | ⟨-, htake⟩ := takeToken_cases (l.sweep gcNow) source now
      · rwa [hsame]
      · rwa [htake]
  · intro l now hrecent
    refine ⟨hrecent.configured.evictIdle now, ?_, ?_⟩
    · rw [callsSinceGc_evictIdle]
      exact (len_le_of_within (within_evictIdle l now)).trans hrecent.few
    · rw [callsSinceGc_evictIdle]
      exact hrecent.calls

/-! ## tables that are filled -/

/-- A table of the sources `ks`, counted at time 0, that the next sweep leaves alone. -/
structure Filled (rate burst cap : Nat) (ks : List κ) (l : SipRateLimiter κ) : Prop where
  configured : Configured rate burst cap l
  counted : Counted rate burst 0 l
  keys : ∀ k, k ∈ l.buckets ↔ k ∈ ks
  len : l.buckets.len = ks.length
  quiet : refillNanos burst rate = 0 → l.callsSinceGc + 1 = ks.length

theorem buckets_sweep_zero (h : Counted rate burst 0 l) (hpos : 0 < rate)
    (hquiet : refillNanos burst rate = 0 → l.callsSinceGc + 1 < GC_EVERY_CALLS) :
    (l.sweep 0).buckets = l.buckets ∧
      (refillNanos burst rate = 0 → (l.sweep 0).callsSinceGc = l.callsSinceGc + 1) := by
  have hrate := h.rate
  unfold SipRateLimiter.sweep
  split
  · next hdue =>
    have hzero : refillNanos burst rate ≠ 0 := fun hzero => absurd (hquiet hzero) (by omega)
    refine ⟨?_, fun hzero' => absurd hzero' hzero⟩
    have hrefill : ({ l with callsSinceGc := 0 } : SipRateLimiter κ).refill = refillNanos burst rate := by
      rw [refill, h.burst, h.rate]
    rw [SipRateLimiter.evictIdle, if_neg (by dsimp only; omega), hrefill]
    show KeyMap.retain (fun _ b => decide (0 - b.last < refillNanos burst rate)) l.buckets = l.buckets
    apply KeyMap.retain_eq_self
    intro e he
    exact decide_eq_true (by omega)
  · exact ⟨rfl, fun _ => rfl⟩

theorem Filled.quiet_lt (h : Filled rate burst cap ks l)
    (hsmall : refillNanos burst rate = 0 → cap < GC_EVERY_CALLS) (hroom : ks.length ≤ cap)
    (hzero : refillNanos burst rate = 0) : l.callsSinceGc + 1 < GC_EVERY_CALLS := by
  have hquiet := h.quiet hzero
  have hcap := hsmall hzero
  omega

theorem Filled.check (h : Filled rate burst cap ks l)
    (hpos : 0 < rate) (hsmall : refillNanos burst rate = 0 → cap < GC_EVERY_CALLS) (hk : k ∉ ks)
    (hroom : ks.length < cap) : Filled rate burst cap (k :: ks) (l.allow k 0 0).2 := by
  obtain ⟨hsame, hcalls⟩ := buckets_sweep_zero h.counted hpos (h.quiet_lt hsmall (Nat.le_of_lt hroom))
  have hswept := h.counted.sweep hpos
  have hnone : (l.sweep 0).buckets.lookup k = none := by
    rw [hsame]
    exact AList.lookup_eq_none.mpr fun hin => hk ((h.keys k).mp hin)
  have hlen : (l.sweep 0).buckets.len = ks.length := by rw [hsame, h.len]
  have hcap := (h.configured.sweep 0).cap
  rw [h.configured.allow_eq hpos]
  obtain ⟨-, hfull, -⟩ | ⟨-, htake⟩ := takeToken_cases (l.sweep 0) k 0
  · omega
  have hconfigured := (h.configured.sweep 0).takeToken k 0
  have hcounted := hswept.takeToken k
  rw [htake] at hconfigured hcounted ⊢
  refine ⟨hconfigured, hcounted, ?_, ?_, ?_⟩
  · intro k'
    rw [AList.mem_insert, List.mem_cons, hsame, h.keys]
  · rw [List.length_cons, ← hlen]
    exact KeyMap.len_insert hnone _
  · intro hzero
    rw [List.length_cons, ← h.quiet hzero]
    exact congrArg (· + 1) (hcalls hzero)

theorem stateAfter_append (l : SipRateLimiter κ) (es es' : List (Event κ)) :
    stateAfter l (es ++ es') = stateAfter (stateAfter l es) es' := by
  induction es generalizing l with
  | nil => rfl
  | cons event es ih =>
    cases event with
    | check source gcNow now => exact ih _
    | evict now => exact ih _

/-- Checks of some sources, all at time 0. -/
def checksAtZero (ks : List κ) : List (Event κ) := ks.map fun k => .check k 0 0

theorem Filled.checks {more : List κ}
    (h : Filled rate burst cap ks l) (hpos : 0 < rate) (hsmall : refillNanos burst rate = 0 → cap < GC_EVERY_CALLS)
    (hnodup : more.Nodup) (hnew : ∀ k ∈ more, k ∉ ks) (hroom : ks.length + more.length ≤ cap) :
    Filled rate burst cap (more.reverse ++ ks) (stateAfter l (checksAtZero more)) := by
  induction more generalizing ks l with
  | nil => exact h
  | cons k more ih =>
    obtain ⟨hk, hnodup⟩ := List.nodup_cons.mp hnodup
    rw [List.length_cons] at hroom
    have hone := h.check hpos hsmall (hnew k List.mem_cons_self) (by omega)
    rw [List.reverse_cons, List.append_assoc]
    have hmore : (k :: ks).length + more.length ≤ cap := by
      rw [List.length_cons]
      omega
    refine ih hone hnodup ?_ hmore
    intro k' hk' hin
    obtain rfl | hin := List.mem_cons.mp hin
    · exact hk hk'
    · exact hnew k' (List.mem_cons_of_mem _ hk') hin

theorem warm_stateAfter (hconfigured : Configured rate burst cap l)
    (hcounted : Counted rate burst 0 l) (hsole : Sole k l) (hpos : 0 < rate) (n : Nat)
    (hn : l.callsSinceGc + n < GC_EVERY_CALLS) :
    let l' := stateAfter l (checksAtZero (List.replicate n k))
    Configured rate burst cap l' ∧ Counted rate burst 0 l' ∧ Sole k l' ∧ l'.callsSinceGc = l.callsSinceGc + n := by
  induction n generalizing l with
  | zero => exact ⟨hconfigured, hcounted, hsole, rfl⟩
  | succ n ih =>
    have hcalls : ((l.sweep 0).takeToken k 0).2.callsSinceGc = l.callsSinceGc + 1 := by
      have hsweep : (l.sweep 0).callsSinceGc = l.callsSinceGc + 1 := by
        unfold SipRateLimiter.sweep
        rw [if_neg (by omega)]
      obtain ⟨-, -, hsame⟩ | ⟨-, htake⟩ := takeToken_cases (l.sweep 0) k 0
      · rw [hsame, hsweep]
      · rw [htake, ← hsweep]
    have hstep : stateAfter l (checksAtZero (List.replicate (n + 1) k)) =
        stateAfter ((l.sweep 0).takeToken k 0).2 (checksAtZero (List.replicate n k)) := by
      rw [← hconfigured.allow_eq hpos]
      rfl
    have hrest := ih ((hconfigured.sweep 0).takeToken k 0) ((hcounted.sweep hpos).takeToken k) ((hsole.sweep 0).takeToken 0)
      (by omega)
    rw [hcalls, Nat.add_right_comm, Nat.add_assoc] at hrest
    rw [hstep]
    exact hrest

theorem filled_first (hconfigured : Configured rate burst cap l)
    (hcounted : Counted rate burst 0 l) (hsole : Sole k l) (hpos : 0 < rate) (hcalls : l.callsSinceGc = 0)
    (hn : n + 1 = GC_EVERY_CALLS) :
    Filled rate burst cap [k] (stateAfter l (checksAtZero (List.replicate (n + 1) k))) := by
  obtain ⟨hconfigured', hcounted', hsole', hcalls'⟩ := warm_stateAfter hconfigured hcounted hsole hpos n (by omega)
  have hsplit : stateAfter l (checksAtZero (List.replicate (n + 1) k)) =
      stateAfter (stateAfter l (checksAtZero (List.replicate n k))) [.check k 0 0] := by
    rw [← stateAfter_append, List.replicate_succ', checksAtZero, checksAtZero, List.map_append]
    rfl
  rw [hsplit]
  generalize stateAfter l (checksAtZero (List.replicate n k)) = l' at hconfigured' hcounted' hsole' hcalls'
  have hsole'' := (hsole'.sweep 0).takeToken 0
  have hfilled := (hcounted'.sweep hpos).takeToken k
  have hcap := (hconfigured'.sweep 0).takeToken k 0
  have hreset : (l'.sweep 0).callsSinceGc = 0 := by
    unfold SipRateLimiter.sweep
    rw [if_pos (by omega), callsSinceGc_evictIdle]
  show Filled rate burst cap [k] (l'.allow k 0 0).2
  rw [hconfigured'.allow_eq hpos]
  obtain ⟨hnone, hfull, -⟩ | ⟨-, htake⟩ := takeToken_cases (l'.sweep 0) k 0
  · exact absurd ⟨hnone, hfull⟩ (hsole'.sweep 0).not_full
  rw [htake] at hsole'' hfilled hcap ⊢
  have hkeys : ∀ k', k' ∈ (l'.sweep 0).buckets.insert k (after (levelOf (l'.sweep 0) k 0) 0) ↔ k' ∈ [k] := by
    intro k'
    rw [List.mem_singleton]
    constructor
    · exact hsole''.only k'
    · rintro rfl
      rw [AList.mem_insert]
      exact .inl rfl
  refine ⟨hcap, hfilled, hkeys, ?_, ?_⟩
  · have hle := len_le_of_known fun k' hk' => (hkeys k').mp hk'
    have hge := KeyMap.len_erase (AList.lookup_insert (l'.sweep 0).buckets (a := k)
      (b := after (levelOf (l'.sweep 0) k 0) 0))
    rw [List.length_singleton] at hle ⊢
    dsimp only
    omega
  · intro _
    show (l'.sweep 0).callsSinceGc + 1 = 1
    rw [hreset]

theorem level_full (h : Counted rate burst 0 l) (hpos : 0 < rate)
    {b : Bucket} (hb : l.buckets.lookup k = some b) : l.level b (burst * 10 ^ 9) = burst := by
  have hlast := h.last k b hb
  have htokens := h.tokens k b hb
  have hone : (1 : ℚ) ≤ rate := by exact_mod_cast hpos
  have hburst : (0 : ℚ) ≤ burst := Nat.cast_nonneg _
  have hgain : (burst : ℚ) ≤ l.gain b (burst * 10 ^ 9) := by
    have hzero : b.last = 0 := by omega
    unfold gain
    rw [h.rate, hzero, Nat.sub_zero, Nat.cast_mul, Nat.cast_pow, Nat.cast_ofNat, mul_div_assoc,
      div_self (by norm_num), mul_one]
    exact le_mul_of_one_le_right hburst hone
  rw [l.level_of_full (by rw [h.burst]; linarith), h.burst]

omit [DecidableEq κ] in
theorem timed_checksAtZero (ks : List κ) (h : Timed 0 es) : Timed 0 (checksAtZero ks ++ es) := by
  induction ks with
  | nil => exact h
  | cons k ks ih => exact ⟨le_refl _, le_refl _, ih⟩

omit [DecidableEq κ] in
theorem sources_checksAtZero (ks : List κ) (es : List (Event κ)) :
    sources (checksAtZero ks ++ es) = ks ++ sources es := by
  induction ks with
  | nil => rfl
  | cons k ks ih => exact congrArg (k :: ·) ih

theorem Filled.sheds (h : Filled rate burst cap ks l)
    (hpos : 0 < rate) (hsmall : refillNanos burst rate = 0 → cap < GC_EVERY_CALLS) (hfull : ks.length = cap)
    (hcap : 0 < cap) (source : κ) (hnew : source ∉ ks) :
    l.verdict source 0 (burst * 10 ^ 9) = .noRoom ∧
      ∃ k b, (l.sweep 0).buckets.lookup k = some b ∧ (l.sweep 0).level b (burst * 10 ^ 9) = l.burst := by
  obtain ⟨hsame, -⟩ := buckets_sweep_zero h.counted hpos (h.quiet_lt hsmall (Nat.le_of_eq hfull))
  constructor
  · rw [h.configured.noRoom_iff hpos, hsame, h.len]
    exact ⟨AList.lookup_eq_none.mpr fun hin => hnew ((h.keys source).mp hin), Nat.le_of_eq hfull.symm⟩
  · obtain ⟨k, hk⟩ := List.exists_mem_of_length_pos (hfull ▸ hcap)
    obtain ⟨b, hb⟩ := Option.isSome_iff_exists.mp (AList.lookup_isSome.mpr ((h.keys k).mpr hk))
    rw [← hsame] at hb
    exact ⟨k, b, hb, by rw [level_full (h.counted.sweep hpos) hpos hb, h.counted.burst]⟩

/-! ## the condition -/

omit [DecidableEq κ] in
theorem exists_sources (h : (n : ℕ∞) ≤ S.encard) :
    ∃ ks : List κ, ks.Nodup ∧ (∀ k ∈ ks, k ∈ S) ∧ ks.length = n := by
  obtain ⟨T, hsub, hcard⟩ := Set.exists_subset_encard_eq h
  have hfinite : T.Finite := Set.finite_of_encard_eq_coe hcard
  refine ⟨hfinite.toFinset.toList, Finset.nodup_toList _, ?_, ?_⟩
  · intro k hk
    exact hsub (hfinite.mem_toFinset.mp (Finset.mem_toList.mp hk))
  · rw [Finset.length_toList]
    rw [hfinite.encard_eq_coe_toFinset_card] at hcard
    exact_mod_cast hcard

theorem configured_stateAfter (h : Configured rate burst cap l)
    (es : List (Event κ)) : Configured rate burst cap (stateAfter l es) := by
  refine stateAfter_invariant (S := Set.univ) ?_ ?_ h fun _ _ => Set.mem_univ _
  · intro l source gcNow now hconfigured _
    unfold allow
    split
    · exact hconfigured
    · exact (hconfigured.sweep gcNow).takeToken source now
  · intro l now hconfigured
    exact hconfigured.evictIdle now

theorem verdict_of_off (h : l.ratePerSec = 0) (source : κ) (gcNow now : Nat) :
    l.verdict source gcNow now = .admitted := by
  rw [verdict_admitted_iff, allow, if_pos h]

theorem not_shedsOnlyMidBurst {cfg : SipRateLimit} {maxSources : Nat} (hon : cfg.perSec ≠ 0)
    (hmany : ((max maxSources 1 + 1 : Nat) : ℕ∞) ≤ S.encard)
    (hsmall : refillNanos cfg.depth cfg.perSec.toNat = 0 → max maxSources 1 < GC_EVERY_CALLS) :
    ¬ ShedsOnlyMidBurst S cfg maxSources := by
  intro hsheds
  have hpos := toNat_perSec_pos hon
  have hcap : 0 < max maxSources 1 := by omega
  obtain ⟨ks, hnodup, hks, hlen⟩ := exists_sources hmany
  obtain ⟨source, first, rest, rfl⟩ : ∃ source first rest, ks = source :: first :: rest := by
    match ks, hlen with
    | source :: first :: rest, _ => exact ⟨source, first, rest, rfl⟩
    | [_], hlen =>
      rw [List.length_singleton] at hlen
      omega
  obtain ⟨hnew, hnodup⟩ := List.nodup_cons.mp hnodup
  obtain ⟨hfirst, hnodup⟩ := List.nodup_cons.mp hnodup
  simp only [List.length_cons] at hlen
  -- one source up to the first sweep, then the others
  obtain ⟨n, hn⟩ : ∃ n, n + 1 = GC_EVERY_CALLS := ⟨4095, rfl⟩
  have hsole : Sole first ((new cfg).withMaxSources maxSources : SipRateLimiter κ) :=
    ⟨fun k hk => absurd hk (AList.notMem_empty k), hcap⟩
  have hone := filled_first (configured_new cfg maxSources) (counted_new cfg maxSources) hsole hpos rfl hn
  have hall := hone.checks hpos hsmall hnodup (fun k hk hin => hfirst (List.mem_singleton.mp hin ▸ hk))
    (by rw [List.length_singleton]; omega)
  rw [← stateAfter_append] at hall
  have hunknown : source ∉ rest.reverse ++ [first] := by
    simp only [List.mem_append, List.mem_reverse, List.mem_singleton]
    rintro (hin | rfl)
    · exact hnew (List.mem_cons_of_mem _ hin)
    · exact hnew List.mem_cons_self
  have hlength : (rest.reverse ++ [first]).length = max maxSources 1 := by
    rw [List.length_append, List.length_reverse, List.length_singleton]
    omega
  obtain ⟨hshed, k, b, hb, hfull⟩ := hall.sheds hpos hsmall hlength hcap source hunknown
  have hsources : ∀ s ∈ sources (checksAtZero (List.replicate (n + 1) first) ++ checksAtZero rest), s ∈ S := by
    have hrest := sources_checksAtZero rest []
    rw [List.append_nil, show sources ([] : List (Event κ)) = [] from rfl, List.append_nil] at hrest
    rw [sources_checksAtZero, hrest]
    intro s hs
    obtain hs | hs := List.mem_append.mp hs
    · exact List.eq_of_mem_replicate hs ▸ hks first (by simp)
    · exact hks s (by simp [hs])
  have htimed : Timed 0 ((checksAtZero (List.replicate (n + 1) first) ++ checksAtZero rest) ++
      [.check source 0 (cfg.depth * 10 ^ 9)]) := by
    rw [List.append_assoc]
    exact timed_checksAtZero _ (timed_checksAtZero _ ⟨le_refl _, Nat.zero_le _, trivial⟩)
  have hless := hsheds _ source 0 (cfg.depth * 10 ^ 9) htimed hsources (hks source List.mem_cons_self) hshed k b hb
  exact absurd hfull (ne_of_lt hless)

/-- **Newcomers are shed only while every bucket is mid-burst, exactly where the limiter is off,
or there are no more sources than the table holds, or the refill time rounds to zero and the
sweeps keep up with the cap.** -/
theorem shedsOnlyMidBurst_iff (S : Set κ) (cfg : SipRateLimit) (maxSources : Nat) :
    ShedsOnlyMidBurst S cfg maxSources ↔
      cfg.perSec = 0 ∨ S.encard ≤ (max maxSources 1 : Nat) ∨
        refillNanos cfg.depth cfg.perSec.toNat = 0 ∧ GC_EVERY_CALLS ≤ max maxSources 1 := by
  constructor
  · intro hsheds
    by_contra hnot
    simp only [not_or, not_and, Nat.not_le] at hnot
    obtain ⟨hon, hmany, hsmall⟩ := hnot
    refine not_shedsOnlyMidBurst hon ?_ hsmall hsheds
    push_cast
    exact Order.add_one_le_of_lt (not_le.mp hmany)
  · intro hcond es source gcNow now _ hes hsource l hverdict
    have hconfigured : Configured cfg.perSec.toNat cfg.depth (max maxSources 1) l :=
      configured_stateAfter (configured_new cfg maxSources) es
    exfalso
    by_cases hoff : cfg.perSec = 0
    · rw [verdict_of_off (by rw [hconfigured.rate, hoff]; rfl)] at hverdict
      cases hverdict
    have hpos := toNat_perSec_pos hoff
    obtain hfew | ⟨hzero, hlarge⟩ := hcond.resolve_left hoff
    · have hknown : ∀ k ∈ l.buckets, k ∈ S :=
        known_stateAfter (fun k hk => absurd hk (AList.notMem_empty k)) hes
      exact not_noRoom_of_few hconfigured hpos hfew hknown hsource gcNow now hverdict
    · have hrecent : Recent cfg.perSec.toNat cfg.depth (max maxSources 1) l :=
        recent_stateAfter ⟨configured_new cfg maxSources, Nat.zero_le _, show 0 < GC_EVERY_CALLS by decide⟩ hpos hzero es
      obtain ⟨hfew, hcalls⟩ := hrecent.sweep hzero gcNow
      obtain ⟨-, hfull⟩ := (hconfigured.noRoom_iff hpos source gcNow now).mp hverdict
      omega

/-- A table for one source: its bucket has long been full when another source is shed. -/
theorem idle_source_keeps_room : ¬ ShedsOnlyMidBurst (Set.univ : Set Nat) ⟨1, 1⟩ 1 := by
  intro hsheds
  have hless := hsheds [.check 7 0 0] 8 2000000000 2000000000 (by simp [Timed]) (by simp) (by simp) (by decide +kernel)
    7 ⟨0, 0⟩ (by decide +kernel)
  revert hless
  decide +kernel

end Shedding

end SmithsNet.Uas.RateLimit
