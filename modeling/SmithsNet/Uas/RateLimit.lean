import Mathlib
import SmithsNet.Lib.KeyMap

/-!
# SmithsNet.Uas.RateLimit

The token bucket per source in front of the UAS
(`smiths-sip/src/rate_limit.rs`).

Time is in nanoseconds, tokens are exact.  Buckets that have been idle for the
time an empty one needs to fill up are evicted, by `evictIdle` and by every
4096th `allow`; a source whose bucket is gone starts again with a full one.
That time is a whole number of nanoseconds, and where it is rounded down an
evicted bucket was not full yet.
-/

namespace SmithsNet.Uas.RateLimit

open Lib

/-! ## the refill time -/

/-- `a / b` rounded to the nearest whole number, halves to the even one. -/
def roundDiv (a b : Nat) : Nat :=
  let q := a / b
  let r := a % b
  if 2 * r < b then q else if b < 2 * r then q + 1 else q + q % 2

/-- The `f64` nearest to `a / b`, for `u32` values that are not zero: a
mantissa of 53 bits and how often it is to be halved. -/
def f64Div (a b : Nat) : Nat × Nat :=
  let s := 52 + Nat.log2 b - Nat.log2 a
  let s := if a * 2 ^ s < b * 2 ^ 52 then s + 1 else s
  (roundDiv (a * 2 ^ s) b, s)

/-- `Duration::from_secs_f64(burst / rate)` in nanoseconds. -/
def refillNanos (burst rate : Nat) : Nat :=
  let (m, s) := f64Div burst rate
  roundDiv (m * 10 ^ 9) (2 ^ s)

/-! ## the limiter -/

/-- The configuration stanza. -/
structure SipRateLimit where
  perSec : UInt32
  burst : UInt32

/-- The tokens of a source and when they were counted. -/
structure Bucket where
  tokens : ℚ
  last : Nat
  deriving DecidableEq

structure SipRateLimiter (κ : Type) where
  ratePerSec : Nat
  burst : Nat
  buckets : KeyMap κ Bucket
  maxSources : Nat
  callsSinceGc : Nat

def DEFAULT_MAX_SOURCES : Nat := 100000

def GC_EVERY_CALLS : Nat := 4096

namespace SipRateLimiter

variable {κ : Type} [DecidableEq κ]

/-- A burst of zero stands for the rate. -/
def new (cfg : SipRateLimit) : SipRateLimiter κ where
  ratePerSec := cfg.perSec.toNat
  burst := if cfg.burst = 0 then cfg.perSec.toNat else cfg.burst.toNat
  buckets := ∅
  maxSources := DEFAULT_MAX_SOURCES
  callsSinceGc := 0

def withMaxSources (l : SipRateLimiter κ) (maxSources : Nat) : SipRateLimiter κ :=
  { l with maxSources := max maxSources 1 }

/-- How long an empty bucket takes to fill up. -/
def refill (l : SipRateLimiter κ) : Nat := refillNanos l.burst l.ratePerSec

/-- Drop every bucket that has been idle for the refill time; the number of
dropped buckets is returned. -/
def evictIdle (l : SipRateLimiter κ) (now : Nat) : Nat × SipRateLimiter κ :=
  if l.ratePerSec = 0 then (l.buckets.len, { l with buckets := ∅ })
  else
    let kept := KeyMap.retain (fun _ b => decide (now - b.last < l.refill)) l.buckets
    (l.buckets.len - kept.len, { l with buckets := kept })

/-- Refill a bucket by the elapsed time, at most to the burst. -/
def level (l : SipRateLimiter κ) (b : Bucket) (now : Nat) : ℚ :=
  min (b.tokens + ((now - b.last : Nat) : ℚ) / 10 ^ 9 * l.ratePerSec) l.burst

/-- Take a token out of a bucket, if it holds one. -/
def spend (l : SipRateLimiter κ) (source : κ) (b : Bucket) (now : Nat) : Bool × SipRateLimiter κ :=
  let tokens := l.level b now
  if 1 ≤ tokens then
    (true, { l with buckets := l.buckets.insert source ⟨tokens - 1, now⟩ })
  else (false, { l with buckets := l.buckets.insert source ⟨tokens, now⟩ })

/-- `allow` behind its sweep. -/
def takeToken (l : SipRateLimiter κ) (source : κ) (now : Nat) : Bool × SipRateLimiter κ :=
  match l.buckets.lookup source with
  | some b => l.spend source b now
  | none => if l.buckets.len ≥ l.maxSources then (false, l) else l.spend source ⟨l.burst, now⟩ now

/-- Count a call; at the last call before the sweep, sweep. -/
def sweep (l : SipRateLimiter κ) (gcNow : Nat) : SipRateLimiter κ :=
  if l.callsSinceGc + 1 ≥ GC_EVERY_CALLS then ({ l with callsSinceGc := 0 }.evictIdle gcNow).2
  else { l with callsSinceGc := l.callsSinceGc + 1 }

/-- The check of one datagram; the sweep and the bucket read the clock
separately. -/
def allow (l : SipRateLimiter κ) (source : κ) (gcNow now : Nat) : Bool × SipRateLimiter κ :=
  if l.ratePerSec = 0 then (true, l) else (l.sweep gcNow).takeToken source now

/-- The check of a limiter that never evicts. -/
def allowKeeping (l : SipRateLimiter κ) (source : κ) (now : Nat) : Bool × SipRateLimiter κ :=
  if l.ratePerSec = 0 then (true, l) else l.takeToken source now

end SipRateLimiter

/-! ## runs -/

/-- A check or a call of `evict_idle`. -/
inductive Event (κ : Type)
  | check (source : κ) (gcNow now : Nat)
  | evict (now : Nat)

section Runs

variable {κ : Type}

/-- Time does not go backwards. -/
def Timed (t : Nat) : List (Event κ) → Prop
  | [] => True
  | .check _ gcNow now :: es => t ≤ gcNow ∧ gcNow ≤ now ∧ Timed now es
  | .evict now :: es => t ≤ now ∧ Timed now es

/-- The sources that are checked. -/
def sources : List (Event κ) → List κ
  | [] => []
  | .check source _ _ :: es => source :: sources es
  | .evict _ :: es => sources es

variable [DecidableEq κ]

/-- The decisions of the limiter. -/
def decisions (l : SipRateLimiter κ) : List (Event κ) → List Bool
  | [] => []
  | .check source gcNow now :: es =>
    (l.allow source gcNow now).1 :: decisions (l.allow source gcNow now).2 es
  | .evict now :: es => decisions (l.evictIdle now).2 es

/-- The decisions of the limiter that never evicts. -/
def keepingDecisions (l : SipRateLimiter κ) : List (Event κ) → List Bool
  | [] => []
  | .check source _ now :: es =>
    (l.allowKeeping source now).1 :: keepingDecisions (l.allowKeeping source now).2 es
  | .evict _ :: es => keepingDecisions l es

end Runs

/-! ## the bucket arithmetic -/

/-- The refill time is no shorter than it takes to fill an empty bucket. -/
def CoversRefill (burst rate : Nat) : Prop := burst * 10 ^ 9 ≤ refillNanos burst rate * rate

namespace SipRateLimiter

variable {κ : Type}

/-- What a bucket has gained since it was counted. -/
def gain (l : SipRateLimiter κ) (b : Bucket) (now : Nat) : ℚ :=
  ((now - b.last : Nat) : ℚ) / 10 ^ 9 * l.ratePerSec

theorem gain_nonneg (l : SipRateLimiter κ) (b : Bucket) (now : Nat) : 0 ≤ l.gain b now := by
  unfold gain
  positivity

variable {b : Bucket} {now : Nat} {level : ℚ}

section

variable (l : SipRateLimiter κ)

theorem gain_mono (b : Bucket) {t : Nat} (h : t ≤ now) : l.gain b t ≤ l.gain b now := by
  have hsub : ((t - b.last : Nat) : ℚ) ≤ ((now - b.last : Nat) : ℚ) := by
    exact_mod_cast Nat.sub_le_sub_right h b.last
  unfold gain
  gcongr

theorem level_nonneg (now : Nat) (h : 0 ≤ b.tokens) : 0 ≤ l.level b now := by
  have hgain := l.gain_nonneg b now
  exact le_min (add_nonneg h hgain) (Nat.cast_nonneg _)

theorem level_of_full (h : (l.burst : ℚ) ≤ b.tokens + l.gain b now) : l.level b now = l.burst :=
  min_eq_right h

theorem level_fresh (now : Nat) : l.level ⟨l.burst, now⟩ now = l.burst := by
  apply level_of_full
  have hgain := l.gain_nonneg ⟨l.burst, now⟩ now
  linarith

theorem le_gain (hidle : refillNanos l.burst l.ratePerSec ≤ now - b.last)
    (hcovers : CoversRefill l.burst l.ratePerSec) : (l.burst : ℚ) ≤ l.gain b now := by
  have hnat : l.burst * 10 ^ 9 ≤ (now - b.last) * l.ratePerSec :=
    hcovers.trans (Nat.mul_le_mul_right _ hidle)
  have hrat : (l.burst : ℚ) * 10 ^ 9 ≤ ((now - b.last : Nat) : ℚ) * l.ratePerSec := by
    exact_mod_cast hnat
  unfold gain
  rw [div_mul_eq_mul_div, le_div_iff₀ (by positivity)]
  exact hrat

end

/-- The bucket behind a check that found the given level. -/
def after (level : ℚ) (now : Nat) : Bucket := ⟨if 1 ≤ level then level - 1 else level, now⟩

theorem after_nonneg (h : 0 ≤ level) (now : Nat) : 0 ≤ (after level now).tokens := by
  unfold after
  dsimp only
  split
  · next hone => linarith
  · exact h

theorem level_after (l : SipRateLimiter κ) (now : Nat) (h : level ≤ l.burst) :
    l.level (after level now) now = (after level now).tokens := by
  have hgain : l.gain (after level now) now = 0 := by
    simp [gain, after]
  have htokens : (after level now).tokens ≤ level := by
    unfold after
    dsimp only
    split
    · linarith
    · exact le_refl _
  show min ((after level now).tokens + l.gain _ now) (l.burst : ℚ) = _
  rw [hgain, add_zero, min_eq_left (htokens.trans h)]

theorem tokens_after_of_le (now : Nat) (h : 1 ≤ level) :
    (after level now).tokens = level - 1 := if_pos h

theorem spend_eq [DecidableEq κ] (l : SipRateLimiter κ) (source : κ) (b : Bucket) (now : Nat) :
    l.spend source b now = (decide (1 ≤ l.level b now),
      { l with buckets := l.buckets.insert source (after (l.level b now) now) }) := by
  unfold spend after
  by_cases h : 1 ≤ l.level b now
  · simp [h]
  · simp [h]

end SipRateLimiter

/-! ## eviction that only meets full buckets -/

section Simulation

variable {κ : Type}

variable {es : List (Event κ)} {S : List κ} {r e : SipRateLimiter κ}

theorem len_le_of_known {m : KeyMap κ Bucket} (h : ∀ k ∈ m, k ∈ S) : m.len ≤ S.length := by
  have hkeys : m.keys ⊆ S := fun k hk => h k (AList.mem_keys.mp hk)
  have hlen := (List.Nodup.subperm m.keys_nodup hkeys).length_le
  simpa [KeyMap.len, AList.keys, List.keys] using hlen

variable [DecidableEq κ]

/-- The evicting limiter `e` at time `t` beside the one that never evicts:
what `e` still has is the same, and what is missing from it is full. -/
structure Sim (S : List κ) (t : Nat) (e r : SipRateLimiter κ) : Prop where
  rate : e.ratePerSec = r.ratePerSec
  burst : e.burst = r.burst
  cap : e.maxSources = r.maxSources
  known : ∀ k ∈ r.buckets, k ∈ S
  kept : KeyMap.Within e.buckets r.buckets
  sound : ∀ k b, r.buckets.lookup k = some b → 0 ≤ b.tokens ∧ b.last ≤ t
  full : ∀ k b, r.buckets.lookup k = some b → e.buckets.lookup k = none →
    (r.burst : ℚ) ≤ b.tokens + r.gain b t

namespace Sim

variable {S : List κ} {t : Nat} {e r : SipRateLimiter κ}

theorem later (h : Sim S t e r) {now : Nat} (hnow : t ≤ now) : Sim S now e r :=
  { h with
    sound := fun k b hb => ⟨(h.sound k b hb).1, (h.sound k b hb).2.trans hnow⟩
    full := fun k b hb hgone =>
      (h.full k b hb hgone).trans (by have := r.gain_mono b hnow; linarith) }

theorem evictIdle (h : Sim S t e r) (hpos : 0 < r.ratePerSec)
    (hcovers : CoversRefill r.burst r.ratePerSec) : Sim S t (e.evictIdle t).2 r := by
  have hbuckets : (e.evictIdle t).2 = { e with
      buckets := KeyMap.retain (fun _ b => decide (t - b.last < e.refill)) e.buckets } := by
    unfold SipRateLimiter.evictIdle
    rw [if_neg (by rw [h.rate]; omega)]
  rw [hbuckets]
  refine { h with
    kept := fun k b hb => h.kept k b (KeyMap.lookup_retain hb).1
    full := ?_ }
  intro k b hb hgone
  by_cases hold : e.buckets.lookup k = none
  · exact h.full k b hb hold
  · obtain ⟨b', hb'⟩ := Option.ne_none_iff_exists'.mp hold
    obtain rfl : b' = b := Option.some.inj ((h.kept k b' hb').symm.trans hb)
    have hidle : e.refill ≤ t - b'.last := by
      by_contra hyoung
      have hkept := KeyMap.lookup_retain_of_accepted hb'
        (p := fun _ b => decide (t - b.last < e.refill)) (decide_eq_true (by omega))
      rw [hkept] at hgone
      contradiction
    have hgain := r.le_gain (by rwa [SipRateLimiter.refill, h.burst, h.rate] at hidle) hcovers
    have hsound := (h.sound k b' hb).1
    linarith

variable {b : Bucket} {source : κ}

section

variable (h : Sim S t e r) (hsource : source ∈ S)
include h hsource

theorem insert (htokens : 0 ≤ b.tokens) (hlast : b.last ≤ t) :
    Sim S t { e with buckets := e.buckets.insert source b }
      { r with buckets := r.buckets.insert source b } := by
  refine { h with known := ?_, kept := ?_, sound := ?_, full := ?_ }
  · intro k hk
    rw [AList.mem_insert] at hk
    obtain rfl | hk := hk
    · exact hsource
    · exact h.known k hk
  · intro k b' hb'
    by_cases hk : k = source
    · subst hk
      rwa [AList.lookup_insert] at hb' ⊢
    · rw [AList.lookup_insert_ne hk] at hb' ⊢
      exact h.kept k b' hb'
  · intro k b' hb'
    by_cases hk : k = source
    · subst hk
      rw [AList.lookup_insert, Option.some.injEq] at hb'
      exact hb' ▸ ⟨htokens, hlast⟩
    · rw [AList.lookup_insert_ne hk] at hb'
      exact h.sound k b' hb'
  · intro k b' hb' hgone
    by_cases hk : k = source
    · subst hk
      rw [AList.lookup_insert] at hgone
      contradiction
    · rw [AList.lookup_insert_ne hk] at hb' hgone
      exact h.full k b' hb' hgone

theorem spend {b' : Bucket} (hlevel : e.level b t = r.level b' t) (htokens : 0 ≤ b'.tokens) :
    (e.spend source b t).1 = (r.spend source b' t).1 ∧
      Sim S t (e.spend source b t).2 (r.spend source b' t).2 := by
  rw [e.spend_eq, r.spend_eq, hlevel]
  have hnonneg := SipRateLimiter.after_nonneg (r.level_nonneg t htokens) t
  exact ⟨rfl, h.insert hsource hnonneg (le_refl t)⟩

theorem takeToken (hcap : S.length < r.maxSources) :
    (e.takeToken source t).1 = (r.takeToken source t).1 ∧
      Sim S t (e.takeToken source t).2 (r.takeToken source t).2 := by
  have hburst : (0 : ℚ) ≤ r.burst := Nat.cast_nonneg _
  have hlevel : ∀ b, e.level b t = r.level b t := by
    intro b
    simp only [SipRateLimiter.level, h.rate, h.burst]
  have hroomR : ¬ r.buckets.len ≥ r.maxSources := by
    have hlen := len_le_of_known h.known
    omega
  have hroomE : ¬ e.buckets.len ≥ e.maxSources := by
    have hlen := len_le_of_known fun k hk => h.known k (h.kept.mem hk)
    rw [h.cap]
    omega
  unfold SipRateLimiter.takeToken
  cases hb : e.buckets.lookup source with
  | some b =>
    rw [h.kept source b hb]
    exact h.spend hsource (hlevel b) (h.sound source b (h.kept source b hb)).1
  | none =>
    dsimp only
    rw [if_neg hroomE]
    cases hb' : r.buckets.lookup source with
    | some b' =>
      apply h.spend hsource _ (h.sound source b' hb').1
      rw [e.level_fresh, r.level_of_full (h.full source b' hb' hb), h.burst]
    | none =>
      dsimp only
      rw [if_neg hroomR]
      apply h.spend hsource _ hburst
      rw [e.level_fresh, r.level_fresh, h.burst]

end

theorem sweep (h : Sim S t e r) (hpos : 0 < r.ratePerSec)
    (hcovers : CoversRefill r.burst r.ratePerSec) : Sim S t (e.sweep t) r := by
  unfold SipRateLimiter.sweep
  split
  · have hreset : Sim S t { e with callsSinceGc := 0 } r := { h with }
    exact hreset.evictIdle hpos hcovers
  · exact { h with }

end Sim

theorem takeToken_config (l : SipRateLimiter κ) (source : κ) (now : Nat) :
    (l.takeToken source now).2.ratePerSec = l.ratePerSec ∧
      (l.takeToken source now).2.burst = l.burst ∧
      (l.takeToken source now).2.maxSources = l.maxSources := by
  unfold SipRateLimiter.takeToken
  split
  · simp [l.spend_eq]
  · split
    · simp
    · simp [l.spend_eq]

theorem decisions_of_sim {t : Nat}
    (h : Sim S t e r) (hpos : 0 < r.ratePerSec) (hcovers : CoversRefill r.burst r.ratePerSec)
    (hcap : S.length < r.maxSources) (htimed : Timed t es) (hsources : ∀ s ∈ sources es, s ∈ S) :
    decisions e es = keepingDecisions r es := by
  induction es generalizing t e r with
  | nil => rfl
  | cons event es ih =>
    cases event with
    | check source gcNow now =>
      obtain ⟨hgc, hnow, hrest⟩ := htimed
      have hsim := ((h.later hgc).sweep hpos hcovers).later hnow
      obtain ⟨hsame, hafter⟩ := hsim.takeToken (hsources source (by simp [sources])) hcap
      obtain ⟨hrate, hburst, hmax⟩ := takeToken_config r source now
      have hallow : e.allow source gcNow now = (e.sweep gcNow).takeToken source now := by
        rw [SipRateLimiter.allow, if_neg (by rw [h.rate]; omega)]
      have hkeeping : r.allowKeeping source now = r.takeToken source now := by
        rw [SipRateLimiter.allowKeeping, if_neg (by omega)]
      rw [decisions, keepingDecisions, hallow, hkeeping, hsame]
      rw [ih hafter (by rwa [hrate]) (by rwa [hrate, hburst]) (by rwa [hmax]) hrest
        fun s hs => hsources s (by simp [sources, hs])]
    | evict now =>
      obtain ⟨hnow, hrest⟩ := htimed
      exact ih ((h.later hnow).evictIdle hpos hcovers) hpos hcovers hcap hrest hsources

theorem decisions_of_rate_zero
    (he : e.ratePerSec = 0) (hr : r.ratePerSec = 0) : decisions e es = keepingDecisions r es := by
  induction es generalizing e r with
  | nil => rfl
  | cons event es ih =>
    cases event with
    | check source gcNow now =>
      have hallow : e.allow source gcNow now = (true, e) := by
        rw [SipRateLimiter.allow, if_pos he]
      have hkeeping : r.allowKeeping source now = (true, r) := by
        rw [SipRateLimiter.allowKeeping, if_pos hr]
      rw [decisions, keepingDecisions, hallow, hkeeping, ih he hr]
    | evict now =>
      have hevict : (e.evictIdle now).2.ratePerSec = 0 := by
        rw [SipRateLimiter.evictIdle, if_pos he]
        exact he
      exact ih hevict hr

end Simulation

/-! ## eviction that meets a bucket too early -/

section Early

variable {κ : Type} [DecidableEq κ]

/-- What a source finds at a time: its bucket, or a full one. -/
def levelOf (l : SipRateLimiter κ) (source : κ) (now : Nat) : ℚ :=
  match l.buckets.lookup source with
  | some b => l.level b now
  | none => l.burst

/-- A limiter that knows at most one source, has room for another and counted
last at time `t`. -/
structure Alone (source : κ) (t : Nat) (l : SipRateLimiter κ) : Prop where
  rate : 0 < l.ratePerSec
  room : 1 < l.maxSources
  only : ∀ k ∈ l.buckets, k ∈ [source]
  counted : ∀ b, l.buckets.lookup source = some b → b.last = t

theorem levelOf_le (l : SipRateLimiter κ) (source : κ) (now : Nat) :
    levelOf l source now ≤ l.burst := by
  unfold levelOf
  split
  · exact min_le_right _ _
  · exact le_refl _

variable {t now : Nat} {l r : SipRateLimiter κ} {source : κ}

theorem takeToken_of_room (honly : ∀ k ∈ l.buckets, k ∈ [source])
    (hroom : 1 < l.maxSources) (now : Nat) :
    l.takeToken source now = (decide (1 ≤ levelOf l source now),
      { l with buckets :=
          l.buckets.insert source (SipRateLimiter.after (levelOf l source now) now) }) := by
  have hlen := len_le_of_known honly
  have hfree : ¬ l.buckets.len ≥ l.maxSources := by
    simp only [List.length_singleton] at hlen
    omega
  unfold SipRateLimiter.takeToken levelOf
  cases l.buckets.lookup source with
  | some b => exact l.spend_eq source b now
  | none =>
    dsimp only
    rw [if_neg hfree, l.spend_eq, l.level_fresh]

theorem Alone.takeToken (h : Alone source t l)
    (now : Nat) : Alone source now (l.takeToken source now).2 := by
  rw [takeToken_of_room h.only h.room]
  refine ⟨h.rate, h.room, ?_, ?_⟩
  · intro k hk
    rw [AList.mem_insert] at hk
    obtain rfl | hk := hk
    · simp
    · exact h.only k hk
  · intro b hb
    rw [AList.lookup_insert, Option.some.injEq] at hb
    rw [← hb]
    rfl

theorem Alone.levelOf_takeToken (h : Alone source t l) (now : Nat) :
    levelOf (l.takeToken source now).2 source now =
      (SipRateLimiter.after (levelOf l source now) now).tokens := by
  rw [takeToken_of_room h.only h.room, levelOf]
  dsimp only
  rw [AList.lookup_insert]
  exact l.level_after now (levelOf_le l source now)

theorem levelOf_le_of_within {l' : SipRateLimiter κ} (hrate : l'.ratePerSec = l.ratePerSec)
    (hburst : l'.burst = l.burst) (h : KeyMap.Within l'.buckets l.buckets) (source : κ)
    (now : Nat) : levelOf l source now ≤ levelOf l' source now := by
  cases hb : l'.buckets.lookup source with
  | some b =>
    have hlevel : l'.level b now = l.level b now := by
      simp only [SipRateLimiter.level, hrate, hburst]
    simp only [levelOf, hb, h source b hb, hlevel, le_refl]
  | none =>
    have hle := levelOf_le l source now
    simpa only [levelOf, hb, hburst] using hle

theorem Alone.sweep (h : Alone source t l)
    (now : Nat) : Alone source t (l.sweep now) ∧ (l.sweep now).burst = l.burst ∧
      (l.sweep now).ratePerSec = l.ratePerSec ∧ levelOf l source now ≤ levelOf (l.sweep now) source now := by
  have hrate : l.ratePerSec ≠ 0 := by
    have := h.rate
    omega
  unfold SipRateLimiter.sweep
  split
  · rw [SipRateLimiter.evictIdle, if_neg hrate]
    have hwithin := KeyMap.within_retain (fun _ b => decide (now - b.last < l.refill)) l.buckets
    refine ⟨⟨h.rate, h.room, fun k hk => h.only k (hwithin.mem hk),
      fun b hb => h.counted b (hwithin source b hb)⟩, rfl, rfl, ?_⟩
    apply levelOf_le_of_within
    · rfl
    · rfl
    · exact hwithin
  · exact ⟨⟨h.rate, h.room, h.only, h.counted⟩, rfl, rfl, le_refl _⟩

theorem decisions_replicate {e : SipRateLimiter κ} (h : Alone source now e)
    (n : Nat) (hn : (n : ℚ) ≤ levelOf e source now) (es : List (Event κ)) :
    ∃ e', Alone source now e' ∧ e'.burst = e.burst ∧ e'.ratePerSec = e.ratePerSec ∧
      decisions e (List.replicate n (.check source now now) ++ es) =
        List.replicate n true ++ decisions e' es := by
  induction n generalizing e with
  | zero => exact ⟨e, h, rfl, rfl, rfl⟩
  | succ n ih =>
    obtain ⟨hswept, hburst, hrate, hlevel⟩ := h.sweep now
    obtain ⟨hrate', hburst', -⟩ := takeToken_config (e.sweep now) source now
    have hone : 1 ≤ levelOf (e.sweep now) source now := by
      push_cast at hn
      have : (0 : ℚ) ≤ n := Nat.cast_nonneg n
      linarith
    have hallow : e.allow source now now = (e.sweep now).takeToken source now := by
      rw [SipRateLimiter.allow, if_neg (by have := h.rate; omega)]
    have hpass : ((e.sweep now).takeToken source now).1 = true := by
      rw [takeToken_of_room hswept.only hswept.room]
      exact decide_eq_true hone
    obtain ⟨e', halone, hb, hr, hdecisions⟩ := ih (hswept.takeToken now) (by
      rw [hswept.levelOf_takeToken, SipRateLimiter.tokens_after_of_le now hone]
      push_cast at hn
      linarith)
    refine ⟨e', halone, hb.trans (hburst'.trans hburst), hr.trans (hrate'.trans hrate), ?_⟩
    rw [List.replicate_succ, List.cons_append, decisions, hallow, hpass, hdecisions]
    rfl

/-- The same for the limiter that never evicts, which then holds exactly so
many tokens less. -/
theorem keepingDecisions_replicate
    (h : Alone source now r) (n : Nat) (hn : (n : ℚ) ≤ levelOf r source now) (es : List (Event κ)) :
    ∃ r', Alone source now r' ∧ r'.burst = r.burst ∧ r'.ratePerSec = r.ratePerSec ∧
      levelOf r' source now = levelOf r source now - n ∧
      keepingDecisions r (List.replicate n (.check source now now) ++ es) =
        List.replicate n true ++ keepingDecisions r' es := by
  induction n generalizing r with
  | zero => exact ⟨r, h, rfl, rfl, by simp, rfl⟩
  | succ n ih =>
    obtain ⟨hrate, hburst, -⟩ := takeToken_config r source now
    have hone : 1 ≤ levelOf r source now := by
      push_cast at hn
      have : (0 : ℚ) ≤ n := Nat.cast_nonneg n
      linarith
    have hallow : r.allowKeeping source now = r.takeToken source now := by
      rw [SipRateLimiter.allowKeeping, if_neg (by have := h.rate; omega)]
    have hpass : (r.takeToken source now).1 = true := by
      rw [takeToken_of_room h.only h.room]
      exact decide_eq_true hone
    have hlevel : levelOf (r.takeToken source now).2 source now = levelOf r source now - 1 := by
      rw [h.levelOf_takeToken, SipRateLimiter.tokens_after_of_le now hone]
    obtain ⟨r', halone, hb, hr, hl, hdecisions⟩ := ih (h.takeToken now) (by
      rw [hlevel]
      push_cast at hn
      linarith)
    refine ⟨r', halone, hb.trans hburst, hr.trans hrate, ?_, ?_⟩
    · rw [hl, hlevel]
      push_cast
      ring
    · rw [List.replicate_succ, List.cons_append, keepingDecisions, hallow, hpass, hdecisions]
      rfl

theorem false_mem_keepingDecisions
    (h : Alone source t r) (n : Nat) (hnonneg : 0 ≤ levelOf r source now)
    (hn : levelOf r source now < n) :
    false ∈ keepingDecisions r (List.replicate n (.check source now now)) := by
  induction n generalizing t r with
  | zero =>
    push_cast at hn
    linarith
  | succ n ih =>
    have hallow : r.allowKeeping source now = r.takeToken source now := by
      rw [SipRateLimiter.allowKeeping, if_neg (by have := h.rate; omega)]
    have hdecision : (r.takeToken source now).1 = decide (1 ≤ levelOf r source now) := by
      rw [takeToken_of_room h.only h.room]
    rw [List.replicate_succ, keepingDecisions, hallow, hdecision]
    by_cases hone : 1 ≤ levelOf r source now
    · have hlevel : levelOf (r.takeToken source now).2 source now =
          levelOf r source now - 1 := by
        rw [h.levelOf_takeToken, SipRateLimiter.tokens_after_of_le now hone]
      push_cast at hn
      exact List.mem_cons_of_mem _ (ih (h.takeToken now) (by linarith) (by linarith))
    · simp [hone]

theorem Alone.evictIdle_refill (h : Alone source 0 l) :
    Alone source l.refill (l.evictIdle l.refill).2 ∧ (l.evictIdle l.refill).2.burst = l.burst ∧
      levelOf (l.evictIdle l.refill).2 source l.refill = l.burst := by
  have hrate : l.ratePerSec ≠ 0 := by
    have := h.rate
    omega
  have hwithin := KeyMap.within_retain (fun _ b => decide (l.refill - b.last < l.refill)) l.buckets
  have hgone : (KeyMap.retain (fun _ b => decide (l.refill - b.last < l.refill))
      l.buckets).lookup source = none := by
    by_contra hkept
    obtain ⟨b, hb⟩ := Option.ne_none_iff_exists'.mp hkept
    obtain ⟨hold, hyoung⟩ := KeyMap.lookup_retain hb
    have hlast := h.counted b hold
    have hyoung' := of_decide_eq_true hyoung
    omega
  rw [SipRateLimiter.evictIdle, if_neg hrate]
  refine ⟨⟨h.rate, h.room, fun k hk => h.only k (hwithin.mem hk), ?_⟩, rfl, ?_⟩
  · intro b hb
    rw [hgone] at hb
    contradiction
  · unfold levelOf
    dsimp only
    rw [hgone]

/-- Empty the bucket, evict it when the refill time is over, and empty it
again. -/
def earlyEviction (source : κ) (burst rate : Nat) : List (Event κ) :=
  (List.replicate burst (.check source 0 0) : List (Event κ)) ++ (.evict (refillNanos burst rate) ::
    List.replicate burst (.check source (refillNanos burst rate) (refillNanos burst rate)) : List (Event κ))

omit [DecidableEq κ] in
theorem timed_replicate (source : κ) (now n : Nat) {es : List (Event κ)} (h : Timed now es) :
    Timed now (List.replicate n (.check source now now) ++ es) := by
  induction n with
  | zero => exact h
  | succ n ih => exact ⟨le_refl _, le_refl _, ih⟩

omit [DecidableEq κ] in
theorem timed_earlyEviction (source : κ) (burst rate : Nat) :
    Timed 0 (earlyEviction source burst rate) := by
  apply timed_replicate
  refine ⟨Nat.zero_le _, ?_⟩
  have hnil : Timed (refillNanos burst rate) ([] : List (Event κ)) := trivial
  simpa using timed_replicate source (refillNanos burst rate) burst hnil

/-- The limiter as built, before any check. -/
structure Fresh (l : SipRateLimiter κ) : Prop where
  rate : 0 < l.ratePerSec
  burst : 0 < l.burst
  room : 1 < l.maxSources
  empty : l.buckets = ∅

theorem decisions_earlyEviction (h : Fresh l) (source : κ) :
    decisions l (earlyEviction source l.burst l.ratePerSec) =
      List.replicate (l.burst + l.burst) true := by
  have hlevel : levelOf l source 0 = l.burst := by simp [levelOf, h.empty]
  have hstart : Alone source 0 l :=
    ⟨h.rate, h.room, by simp [h.empty], by simp [h.empty]⟩
  obtain ⟨e, halone, hburst, hrate, hfirst⟩ := decisions_replicate hstart l.burst
    (by rw [hlevel]) (.evict (refillNanos l.burst l.ratePerSec) ::
      List.replicate l.burst (.check source (refillNanos l.burst l.ratePerSec)
        (refillNanos l.burst l.ratePerSec)))
  have hevicted : Alone source (refillNanos l.burst l.ratePerSec)
      (e.evictIdle (refillNanos l.burst l.ratePerSec)).2 ∧
      levelOf (e.evictIdle (refillNanos l.burst l.ratePerSec)).2 source
        (refillNanos l.burst l.ratePerSec) = l.burst := by
    obtain ⟨hnext, -, hfull⟩ := halone.evictIdle_refill
    rw [SipRateLimiter.refill, hburst, hrate] at hnext hfull
    exact ⟨hnext, hfull⟩
  obtain ⟨e', -, -, -, hsecond⟩ := decisions_replicate hevicted.1 l.burst
    (by rw [hevicted.2]) []
  rw [earlyEviction, hfirst, decisions]
  rw [List.append_nil] at hsecond
  rw [hsecond, decisions, List.append_nil, List.replicate_add]

theorem false_mem_earlyEviction (h : Fresh l) (source : κ)
    (hshort : ¬ CoversRefill l.burst l.ratePerSec) :
    false ∈ keepingDecisions l (earlyEviction source l.burst l.ratePerSec) := by
  have hlevel : levelOf l source 0 = l.burst := by simp [levelOf, h.empty]
  have hstart : Alone source 0 l :=
    ⟨h.rate, h.room, by simp [h.empty], by simp [h.empty]⟩
  obtain ⟨r, halone, hburst, hrate, hempty, hfirst⟩ := keepingDecisions_replicate hstart l.burst
    (by rw [hlevel]) (.evict (refillNanos l.burst l.ratePerSec) ::
      List.replicate l.burst (.check source (refillNanos l.burst l.ratePerSec)
        (refillNanos l.burst l.ratePerSec)))
  rw [hlevel, sub_self] at hempty
  have hless : (refillNanos l.burst l.ratePerSec : ℚ) / 10 ^ 9 * l.ratePerSec < l.burst := by
    unfold CoversRefill at hshort
    rw [div_mul_eq_mul_div, div_lt_iff₀ (by positivity)]
    exact_mod_cast Nat.lt_of_not_le hshort
  have hpos : (0 : ℚ) < r.burst := by
    rw [hburst]
    exact_mod_cast h.burst
  have hrefilled : levelOf r source (refillNanos l.burst l.ratePerSec) =
      (refillNanos l.burst l.ratePerSec : ℚ) / 10 ^ 9 * l.ratePerSec := by
    cases hb : r.buckets.lookup source with
    | none =>
      simp only [levelOf, hb] at hempty
      linarith
    | some b =>
      have hlast := halone.counted b hb
      have htokens : b.tokens = 0 := by
        simp only [levelOf, hb, SipRateLimiter.level, hlast, Nat.sub_self, Nat.cast_zero,
          zero_div, zero_mul, add_zero] at hempty
        obtain ⟨hmin, -⟩ | ⟨hmin, -⟩ := min_eq_iff.mp hempty
        · exact hmin
        · linarith
      simp only [levelOf, hb, SipRateLimiter.level, hlast, htokens, Nat.sub_zero, zero_add, hrate,
        hburst]
      exact min_eq_left hless.le
  rw [earlyEviction, hfirst]
  apply List.mem_append_right
  rw [keepingDecisions]
  apply false_mem_keepingDecisions halone
  · rw [hrefilled]
    positivity
  · rwa [hrefilled]

end Early

/-! ## transparency -/

section Transparency

variable {κ : Type} [DecidableEq κ]

/-- With fewer sources than the table holds, no schedule of evictions changes a
decision. -/
def EvictionTransparent (κ : Type) [DecidableEq κ] (cfg : SipRateLimit) (maxSources : Nat) : Prop :=
  ∀ es : List (Event κ), Timed 0 es →
    (sources es).dedup.length < ((SipRateLimiter.new cfg).withMaxSources maxSources :
      SipRateLimiter κ).maxSources →
    decisions ((SipRateLimiter.new cfg).withMaxSources maxSources) es =
      keepingDecisions ((SipRateLimiter.new cfg).withMaxSources maxSources) es

/-- The bucket depth that a configuration stands for. -/
def SipRateLimit.depth (cfg : SipRateLimit) : Nat :=
  if cfg.burst = 0 then cfg.perSec.toNat else cfg.burst.toNat

theorem decisions_of_no_sources {e r : SipRateLimiter κ} {es : List (Event κ)}
    (h : sources es = []) : decisions e es = keepingDecisions r es := by
  induction es generalizing e with
  | nil => rfl
  | cons event es ih =>
    cases event with
    | check source gcNow now => contradiction
    | evict now => exact ih h

omit [DecidableEq κ] in
theorem sources_replicate (source : κ) (now n : Nat) (es : List (Event κ)) :
    sources (List.replicate n (.check source now now) ++ es) =
      List.replicate n source ++ sources es := by
  induction n with
  | zero => rfl
  | succ n ih =>
    rw [List.replicate_succ, List.cons_append, sources, ih, List.replicate_succ, List.cons_append]

theorem sim_new {S : List κ} (cfg : SipRateLimit) (maxSources : Nat) :
    Sim S 0 ((SipRateLimiter.new cfg).withMaxSources maxSources)
      ((SipRateLimiter.new cfg).withMaxSources maxSources) := by
  refine ⟨rfl, rfl, rfl, ?_, KeyMap.Within.refl _, ?_, ?_⟩
  · simp [SipRateLimiter.new, SipRateLimiter.withMaxSources]
  · simp [SipRateLimiter.new, SipRateLimiter.withMaxSources]
  · simp [SipRateLimiter.new, SipRateLimiter.withMaxSources]

theorem sources_earlyEviction_le (source : κ) (burst rate : Nat) :
    (sources (earlyEviction source burst rate)).dedup.length ≤ 1 := by
  have hrest : sources (List.replicate burst (Event.check source (refillNanos burst rate)
      (refillNanos burst rate))) = List.replicate burst source := by
    simpa [sources] using sources_replicate source (refillNanos burst rate) burst []
  have hall : sources (earlyEviction source burst rate) =
      List.replicate burst source ++ List.replicate burst source := by
    rw [earlyEviction, sources_replicate, sources, hrest]
  have hsub : (sources (earlyEviction source burst rate)).dedup ⊆ [source] := by
    intro k hk
    rw [List.mem_dedup, hall, List.mem_append, List.mem_replicate, or_self] at hk
    exact List.mem_singleton.mpr hk.2
  exact ((List.nodup_dedup _).subperm hsub).length_le

/-- Eviction is transparent exactly where the limiter is off, the table holds
one source at most, or the refill time was not rounded below what it takes to
fill the bucket. -/
theorem evictionTransparent_iff [Inhabited κ] (cfg : SipRateLimit) (maxSources : Nat) :
    EvictionTransparent κ cfg maxSources ↔
      cfg.perSec = 0 ∨ maxSources ≤ 1 ∨ CoversRefill cfg.depth cfg.perSec.toNat := by
  have hzero : cfg.perSec = 0 ↔ cfg.perSec.toNat = 0 := by
    rw [← UInt32.toNat_inj]
    rfl
  constructor
  · intro htransparent
    by_contra hnot
    simp only [not_or, Nat.not_le] at hnot
    obtain ⟨hrate, hroom, hshort⟩ := hnot
    rw [hzero] at hrate
    have hfresh : Fresh ((SipRateLimiter.new cfg).withMaxSources maxSources :
        SipRateLimiter κ) := by
      refine ⟨Nat.pos_of_ne_zero hrate, ?_, lt_max_of_lt_left hroom, rfl⟩
      show 0 < cfg.depth
      unfold SipRateLimit.depth
      split
      · omega
      · next hburst =>
        rw [← UInt32.toNat_inj] at hburst
        exact Nat.pos_of_ne_zero hburst
    have hsame := htransparent (earlyEviction default cfg.depth cfg.perSec.toNat)
      (timed_earlyEviction _ _ _)
      (lt_of_le_of_lt (sources_earlyEviction_le _ _ _) hfresh.room)
    have hfalse : false ∈ keepingDecisions _ (earlyEviction default cfg.depth cfg.perSec.toNat) :=
      false_mem_earlyEviction hfresh default hshort
    have htrue : decisions _ (earlyEviction default cfg.depth cfg.perSec.toNat) = _ :=
      decisions_earlyEviction hfresh default
    rw [← hsame, htrue, List.mem_replicate] at hfalse
    exact absurd hfalse.2 (by decide)
  · intro hcond es htimed hfew
    obtain hoff | hone | hcovers := hcond
    · exact decisions_of_rate_zero (hzero.mp hoff) (hzero.mp hoff)
    · apply decisions_of_no_sources
      have hcap : ((SipRateLimiter.new cfg).withMaxSources maxSources :
          SipRateLimiter κ).maxSources = 1 := max_eq_right hone
      rw [hcap, Nat.lt_one_iff, List.length_eq_zero_iff, List.dedup_eq_nil] at hfew
      exact hfew
    · by_cases hoff : cfg.perSec.toNat = 0
      · exact decisions_of_rate_zero hoff hoff
      · exact decisions_of_sim (sim_new cfg maxSources) (Nat.pos_of_ne_zero hoff) hcovers hfew htimed
          fun s hs => List.mem_dedup.mpr hs

/-- Three tokens a second, one at a time: the refill time is 333333333 ns. -/
theorem early_eviction_three_per_second : ¬ EvictionTransparent Nat ⟨3, 1⟩ 100000 := by
  intro htransparent
  have hsame := htransparent
    [.check 7 0 0, .evict 333333333, .check 7 333333333 333333333] (by simp [Timed]) (by decide)
  revert hsame
  decide +kernel

end Transparency

end SmithsNet.Uas.RateLimit
