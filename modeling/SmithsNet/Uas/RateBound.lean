import SmithsNet.Uas.RateLimit

/-!
# SmithsNet.Uas.RateBound

What the limiter admits of one source in a window of time, and what it denies.

The level a source finds is a potential: it rises with the rate, a check that is admitted
takes one from it, and it never exceeds the burst.  Losing the bucket leaves the level alone
as long as only full buckets are lost, so the bound `burst + rate * t` holds exactly where
the refill time is not rounded below what it takes to fill a bucket (`tokenBounded_iff`).
A source that keeps to its rate is served under every schedule of evictions.
-/

namespace SmithsNet.Uas.RateLimit

open Lib SipRateLimiter

/-! ## verdicts -/

/-- What becomes of a check. -/
inductive Verdict
  | admitted
  /-- The bucket of the source holds no token. -/
  | overRate
  /-- The source has no bucket, and the table is full. -/
  | noRoom
  deriving DecidableEq

/-- A check of the past. -/
structure Check (κ : Type) where
  source : κ
  time : Nat
  verdict : Verdict

section Log

variable {κ : Type} [DecidableEq κ]

/-- Why `allow` decides as it does. -/
def SipRateLimiter.verdict (l : SipRateLimiter κ) (source : κ) (gcNow now : Nat) : Verdict :=
  if (l.allow source gcNow now).1 then .admitted
  else if (l.sweep gcNow).buckets.lookup source = none ∧ (l.sweep gcNow).buckets.len ≥ l.maxSources then .noRoom
  else .overRate

/-- The checks of a run. -/
def log (l : SipRateLimiter κ) : List (Event κ) → List (Check κ)
  | [] => []
  | .check source gcNow now :: es =>
    ⟨source, now, l.verdict source gcNow now⟩ :: log (l.allow source gcNow now).2 es
  | .evict now :: es => log (l.evictIdle now).2 es

/-- How many checks of a source were admitted from `lo` to `hi`. -/
def admittedIn (source : κ) (lo hi : Nat) (checks : List (Check κ)) : Nat :=
  checks.countP fun c => c.source = source ∧ lo ≤ c.time ∧ c.time ≤ hi ∧ c.verdict = .admitted

/-- How many checks a source asks for from `lo` to `hi`. -/
def requestedIn (source : κ) (lo hi : Nat) (es : List (Event κ)) : Nat :=
  es.countP fun
    | .check s _ now => s = source ∧ lo ≤ now ∧ now ≤ hi
    | .evict _ => false

end Log

/-- What a bucket earns in a time. -/
def earned (rate nanos : Nat) : ℚ := (nanos : ℚ) / 10 ^ 9 * rate

theorem earned_nonneg (rate nanos : Nat) : 0 ≤ earned rate nanos := by
  unfold earned
  positivity

theorem earned_add (rate : Nat) {t now hi : Nat} (h : t ≤ now) (hhi : now ≤ hi) :
    earned rate (now - t) + earned rate (hi - now) = earned rate (hi - t) := by
  unfold earned
  rw [Nat.cast_sub h, Nat.cast_sub hhi, Nat.cast_sub (h.trans hhi)]
  ring

theorem earned_mono (rate : Nat) {a b : Nat} (h : a ≤ b) : earned rate a ≤ earned rate b := by
  have hcast : (a : ℚ) ≤ b := by exact_mod_cast h
  unfold earned
  gcongr

theorem min_add_min {x gain cap : ℚ} (h : 0 ≤ gain) : min (min x cap + gain) cap = min (x + gain) cap := by
  rcases le_total x cap with hx | hx
  · rw [min_eq_left hx]
  · rw [min_eq_right hx, min_eq_right (by linarith), min_eq_right (by linarith)]

/-! ## the level as a potential -/

section Potential

variable {κ : Type} [DecidableEq κ]

/-- A limiter whose buckets were counted by time `t`. -/
structure Counted (rate burst t : Nat) (l : SipRateLimiter κ) : Prop where
  rate : l.ratePerSec = rate
  burst : l.burst = burst
  tokens : ∀ k b, l.buckets.lookup k = some b → 0 ≤ b.tokens
  last : ∀ k b, l.buckets.lookup k = some b → b.last ≤ t

theorem counted_new (cfg : SipRateLimit) (maxSources : Nat) : Counted cfg.perSec.toNat cfg.depth 0
      ((new cfg).withMaxSources maxSources : SipRateLimiter κ) := by
  refine ⟨rfl, rfl, ?_, ?_⟩
  · simp [new, withMaxSources]
  · simp [new, withMaxSources]

variable {rate burst t : Nat} {l : SipRateLimiter κ}

theorem levelOf_nonneg (h : Counted rate burst t l) (source : κ)
    (now : Nat) : 0 ≤ levelOf l source now := by
  unfold levelOf
  cases hb : l.buckets.lookup source with
  | none => exact Nat.cast_nonneg _
  | some b => exact l.level_nonneg now (h.tokens source b hb)

/-- What a check finds and does: a token is taken where there is one, unless the source is new
and the table full. -/
theorem takeToken_cases (l : SipRateLimiter κ) (source : κ) (t : Nat) :
    (l.buckets.lookup source = none ∧ l.buckets.len ≥ l.maxSources ∧ l.takeToken source t = (false, l)) ∨
      ¬ (l.buckets.lookup source = none ∧ l.buckets.len ≥ l.maxSources) ∧
        l.takeToken source t = (decide (1 ≤ levelOf l source t),
          { l with buckets := l.buckets.insert source (after (levelOf l source t) t) }) := by
  unfold SipRateLimiter.takeToken levelOf
  cases hb : l.buckets.lookup source with
  | some b => exact .inr ⟨by simp, l.spend_eq source b t⟩
  | none =>
    dsimp only
    split
    · next hfull => exact .inl ⟨rfl, hfull, rfl⟩
    · next hroom =>
      refine .inr ⟨by simp [hroom], ?_⟩
      rw [l.spend_eq, l.level_fresh]

theorem levelOf_takeToken (l : SipRateLimiter κ) (source checked : κ) (t : Nat) :
    levelOf (l.takeToken checked t).2 source t +
      (if checked = source ∧ (l.takeToken checked t).1 then 1 else 0) = levelOf l source t := by
  obtain ⟨-, -, hsame⟩ | ⟨-, htake⟩ := takeToken_cases l checked t
  · simp [hsame]
  · rw [htake]
    by_cases hsource : checked = source
    · subst hsource
      have hafter := l.level_after t (levelOf_le l checked t)
      have hlevel : levelOf { l with buckets := l.buckets.insert checked (after (levelOf l checked t) t) }
          checked t = (after (levelOf l checked t) t).tokens := by
        rw [← hafter]
        simp [levelOf, SipRateLimiter.level]
      rw [hlevel]
      by_cases hone : 1 ≤ levelOf l checked t
      · simp [after, hone]
      · simp [after, hone]
    · have hother : source ≠ checked := fun heq => hsource heq.symm
      simp [levelOf, hsource, AList.lookup_insert_ne hother, SipRateLimiter.level]

namespace Counted

variable {rate burst t now : Nat} {l : SipRateLimiter κ}

section

variable (h : Counted rate burst t l)
include h

theorem later (hnow : t ≤ now) : Counted rate burst now l :=
  { h with last := fun k b hb => (h.last k b hb).trans hnow }

theorem levelOf_le_burst (source : κ) (now : Nat) : levelOf l source now ≤ burst := by
  have hle := levelOf_le l source now
  rwa [h.burst] at hle

theorem levelOf_later (hnow : t ≤ now) (source : κ) :
    levelOf l source now = min (levelOf l source t + earned rate (now - t)) burst := by
  have hearned := earned_nonneg rate (now - t)
  unfold levelOf
  cases hb : l.buckets.lookup source with
  | none =>
    simp only [h.burst]
    rw [min_eq_right]
    linarith
  | some b =>
    have hsum : earned rate (t - b.last) + earned rate (now - t) = earned rate (now - b.last) :=
      earned_add rate (h.last source b hb) hnow
    have hlevel : ∀ time, l.level b time = min (b.tokens + earned rate (time - b.last)) burst := by
      intro time
      rw [SipRateLimiter.level, h.rate, h.burst]
      rfl
    simp only [hlevel]
    rw [min_add_min hearned, ← hsum, add_assoc]

theorem evictIdle (hpos : 0 < rate) : Counted rate burst t (l.evictIdle t).2 := by
  have hwithin := KeyMap.within_retain (fun _ b => decide (t - b.last < l.refill)) l.buckets
  have hrate := h.rate
  rw [SipRateLimiter.evictIdle, if_neg (by omega)]
  exact ⟨h.rate, h.burst, fun k b hb => h.tokens k b (hwithin k b hb), fun k b hb => h.last k b (hwithin k b hb)⟩

theorem le_levelOf_evictIdle (hpos : 0 < rate) (source : κ) :
    levelOf l source t ≤ levelOf (l.evictIdle t).2 source t := by
  have hrate := h.rate
  rw [SipRateLimiter.evictIdle, if_neg (by omega)]
  apply levelOf_le_of_within
  · rfl
  · rfl
  · exact KeyMap.within_retain _ _

theorem levelOf_evictIdle (hpos : 0 < rate) (hcovers : CoversRefill burst rate)
    (source : κ) : levelOf (l.evictIdle t).2 source t = levelOf l source t := by
  have hrate := h.rate
  have hconfig := h.burst
  rw [SipRateLimiter.evictIdle, if_neg (by omega)]
  unfold levelOf
  rw [KeyMap.lookup_retain_apply]
  cases hb : l.buckets.lookup source with
  | none => rfl
  | some b =>
    rw [Option.filter_some]
    by_cases hyoung : t - b.last < l.refill
    · simp [hyoung, SipRateLimiter.level]
    · have hfull : l.level b t = l.burst := by
        have hidle : refillNanos l.burst l.ratePerSec ≤ t - b.last := Nat.le_of_not_lt hyoung
        have hgain := l.le_gain hidle (by rwa [hrate, hconfig])
        have htokens := h.tokens source b hb
        exact l.level_of_full (by linarith)
      simp [hyoung, hfull]

theorem uncounted (calls : Nat) :
    Counted rate burst t { l with callsSinceGc := calls } := ⟨h.rate, h.burst, h.tokens, h.last⟩

theorem sweep (hpos : 0 < rate) : Counted rate burst t (l.sweep t) := by
  unfold SipRateLimiter.sweep
  split
  · exact (h.uncounted 0).evictIdle hpos
  · exact h.uncounted _

theorem le_levelOf_sweep (hpos : 0 < rate) (source : κ) :
    levelOf l source t ≤ levelOf (l.sweep t) source t := by
  unfold SipRateLimiter.sweep
  split
  · exact (h.uncounted 0).le_levelOf_evictIdle hpos source
  · exact le_refl _

theorem levelOf_sweep (hpos : 0 < rate) (hcovers : CoversRefill burst rate)
    (source : κ) : levelOf (l.sweep t) source t = levelOf l source t := by
  unfold SipRateLimiter.sweep
  split
  · exact (h.uncounted 0).levelOf_evictIdle hpos hcovers source
  · rfl

theorem takeToken (source : κ) : Counted rate burst t (l.takeToken source t).2 := by
  obtain ⟨-, -, hsame⟩ | ⟨-, htake⟩ := takeToken_cases l source t
  · rw [hsame]
    exact h
  · rw [htake]
    have hnonneg := after_nonneg (levelOf_nonneg h source t) t
    refine ⟨h.rate, h.burst, ?_, ?_⟩
    · intro k b hb
      simp only [KeyMap.lookup_insert_apply] at hb
      split at hb
      · exact Option.some.inj hb ▸ hnonneg
      · exact h.tokens k b hb
    · intro k b hb
      simp only [KeyMap.lookup_insert_apply] at hb
      split at hb
      · exact Option.some.inj hb ▸ le_refl t
      · exact h.last k b hb

end

end Counted

theorem allow_eq (h : Counted rate burst t l) (hpos : 0 < rate)
    (source : κ) (gcNow now : Nat) : l.allow source gcNow now = (l.sweep gcNow).takeToken source now := by
  have hrate := h.rate
  rw [allow, if_neg (by omega)]

theorem verdict_admitted_iff (l : SipRateLimiter κ) (source : κ) (gcNow now : Nat) :
    l.verdict source gcNow now = .admitted ↔ (l.allow source gcNow now).1 = true := by
  unfold SipRateLimiter.verdict
  split
  · next h => simp [h]
  · next h =>
    split
    · simp [h]
    · simp [h]

end Potential

/-! ## windows -/

section Windows

variable {κ : Type} [DecidableEq κ]

theorem admittedIn_check (l : SipRateLimiter κ) (source checked : κ) (lo hi gcNow now : Nat) (es : List (Event κ)) :
    admittedIn source lo hi (log l (.check checked gcNow now :: es)) =
      admittedIn source lo hi (log (l.allow checked gcNow now).2 es) +
        if checked = source ∧ lo ≤ now ∧ now ≤ hi ∧ (l.allow checked gcNow now).1 then 1 else 0 := by
  unfold admittedIn
  rw [log, List.countP_cons]
  simp only [verdict_admitted_iff, decide_eq_true_eq]

variable {es : List (Event κ)} {hi t rate burst : Nat} {l : SipRateLimiter κ} {source : κ}

theorem admittedIn_of_after (htimed : Timed t es) (hhi : hi < t)
    (l : SipRateLimiter κ) (source : κ) (lo : Nat) : admittedIn source lo hi (log l es) = 0 := by
  induction es generalizing t l with
  | nil => rfl
  | cons event es ih =>
    cases event with
    | check checked gcNow now =>
      obtain ⟨hgc, hnow, hrest⟩ := htimed
      rw [admittedIn_check, ih hrest (by omega), if_neg (by omega)]
    | evict now =>
      obtain ⟨hnow, hrest⟩ := htimed
      exact ih hrest (by omega) (l.evictIdle now).2

/-- From a time on, a source is admitted as often as what it finds there and what it earns allow. -/
theorem admittedIn_le (h : Counted rate burst t l)
    (hpos : 0 < rate) (hcovers : CoversRefill burst rate) (htimed : Timed t es) (source : κ) (lo hi : Nat) :
    (admittedIn source lo hi (log l es) : ℚ) ≤ levelOf l source t + earned rate (hi - t) := by
  induction es generalizing t l with
  | nil =>
    have hlevel := levelOf_nonneg h source t
    have hearned := earned_nonneg rate (hi - t)
    simp only [log, admittedIn, List.countP_nil, Nat.cast_zero]
    linarith
  | cons event es ih =>
    by_cases hbefore : hi < t
    · rw [admittedIn_of_after htimed hbefore]
      have hlevel := levelOf_nonneg h source t
      have hearned := earned_nonneg rate (hi - t)
      push_cast
      linarith
    cases event with
    | check checked gcNow now =>
      obtain ⟨hgc, hnow, hrest⟩ := htimed
      have hswept := (h.later hgc).sweep hpos
      have hfound := hswept.later hnow
      have hlevel := (h.later hgc).levelOf_sweep hpos hcovers source
      have hrise := h.levelOf_later hgc source
      have hrise' := hswept.levelOf_later hnow source
      have htaken := levelOf_takeToken (l.sweep gcNow) source checked now
      have htail := ih (hfound.takeToken checked) hrest
      rw [admittedIn_check, allow_eq h hpos]
      by_cases hlate : hi < now
      · rw [admittedIn_of_after hrest hlate, if_neg (by omega)]
        have hpositive := levelOf_nonneg h source t
        have hearned := earned_nonneg rate (hi - t)
        push_cast
        linarith
      · have hearned := earned_add rate hgc hnow
        have hearned' := earned_add rate (hgc.trans hnow) (Nat.le_of_not_lt hlate)
        have hmin := min_le_left (levelOf l source t + earned rate (gcNow - t)) (burst : ℚ)
        have hmin' := min_le_left (levelOf (l.sweep gcNow) source gcNow + earned rate (now - gcNow)) (burst : ℚ)
        have hone : ((if checked = source ∧ lo ≤ now ∧ now ≤ hi ∧ ((l.sweep gcNow).takeToken checked now).1 then 1
            else 0 : Nat) : ℚ) ≤ if checked = source ∧ ((l.sweep gcNow).takeToken checked now).1 then 1 else 0 := by
          split
          · next hin => rw [if_pos ⟨hin.1, hin.2.2.2⟩, Nat.cast_one]
          · split <;> simp
        push_cast at hone ⊢
        linarith
    | evict now =>
      obtain ⟨hnow, hrest⟩ := htimed
      have hsame := (h.later hnow).levelOf_evictIdle hpos hcovers source
      have hrise := h.levelOf_later hnow source
      have htail := ih ((h.later hnow).evictIdle hpos) hrest
      rw [log]
      by_cases hlate : hi < now
      · rw [admittedIn_of_after hrest hlate]
        have hpositive := levelOf_nonneg h source t
        have hearned := earned_nonneg rate (hi - t)
        push_cast
        linarith
      · have hearned := earned_add rate hnow (Nat.le_of_not_lt hlate)
        have hmin := min_le_left (levelOf l source t + earned rate (now - t)) (burst : ℚ)
        linarith

/-- In any window a source is admitted no more often than a full bucket and the rate allow. -/
theorem admittedIn_le_burst
    (h : Counted rate burst t l) (hpos : 0 < rate) (hcovers : CoversRefill burst rate) (htimed : Timed t es)
    (source : κ) (lo hi : Nat) :
    (admittedIn source lo hi (log l es) : ℚ) ≤ burst + earned rate (hi - lo) := by
  have hburst : (0 : ℚ) ≤ burst := Nat.cast_nonneg _
  have hearned := earned_nonneg rate (hi - lo)
  induction es generalizing t l with
  | nil =>
    simp only [log, admittedIn, List.countP_nil, Nat.cast_zero]
    linarith
  | cons event es ih =>
    cases event with
    | check checked gcNow now =>
      obtain ⟨hgc, hnow, hrest⟩ := htimed
      have hfound := ((h.later hgc).sweep hpos).later hnow
      rw [admittedIn_check, allow_eq h hpos]
      by_cases hin : lo ≤ now ∧ now ≤ hi
      · -- the first check of the window finds a full bucket at most
        have htail := admittedIn_le (hfound.takeToken checked) hpos hcovers hrest source lo hi
        have htaken := levelOf_takeToken (l.sweep gcNow) source checked now
        have hfull := hfound.levelOf_le_burst source now
        have hmono := earned_mono rate (Nat.sub_le_sub_left hin.1 hi)
        simp only [hin.1, hin.2, true_and]
        push_cast
        linarith
      · rw [if_neg (by tauto), Nat.add_zero]
        exact ih (hfound.takeToken checked) hrest
    | evict now =>
      obtain ⟨hnow, hrest⟩ := htimed
      exact ih ((h.later hnow).evictIdle hpos) hrest

/-- What a source asks for from a time on fits what it finds then. -/
def Fits (rate : Nat) (source : κ) (t : Nat) (level : ℚ) (es : List (Event κ)) : Prop :=
  ∀ hi, t ≤ hi → (requestedIn source t hi es : ℚ) ≤ level + earned rate (hi - t)

/-- A source that never exceeds the burst and the rate. -/
def Conforms (rate burst : Nat) (source : κ) (es : List (Event κ)) : Prop :=
  ∀ lo hi, lo ≤ hi → (requestedIn source lo hi es : ℚ) ≤ burst + earned rate (hi - lo)

theorem requestedIn_check (source checked : κ) (lo hi gcNow now : Nat) (es : List (Event κ)) :
    requestedIn source lo hi (.check checked gcNow now :: es) =
      requestedIn source lo hi es + if checked = source ∧ lo ≤ now ∧ now ≤ hi then 1 else 0 := by
  unfold requestedIn
  rw [List.countP_cons]
  simp only [decide_eq_true_eq]

theorem requestedIn_anti {lo lo' : Nat} (h : lo ≤ lo') (es : List (Event κ)) :
    requestedIn source lo' hi es ≤ requestedIn source lo hi es := by
  induction es with
  | nil => exact le_refl _
  | cons event es ih =>
    cases event with
    | check checked gcNow now =>
      rw [requestedIn_check, requestedIn_check]
      split
      · next hin =>
        rw [if_pos ⟨hin.1, h.trans hin.2.1, hin.2.2⟩]
        omega
      · omega
    | evict now => exact ih

theorem Conforms.tail {event : Event κ}
    (h : Conforms rate burst source (event :: es)) : Conforms rate burst source es := by
  intro lo hi hle
  have hall := h lo hi hle
  cases event with
  | check checked gcNow now =>
    rw [requestedIn_check] at hall
    push_cast at hall
    split at hall <;> linarith
  | evict now => exact hall

theorem Fits.later {now : Nat}
    (hfits : Fits rate source t (levelOf l source t) es) (hconforms : Conforms rate burst source es)
    (h : Counted rate burst t l) (hnow : t ≤ now) : Fits rate source now (levelOf l source now) es := by
  intro hi hhi
  have hearly := hfits hi (hnow.trans hhi)
  have hfull := hconforms now hi hhi
  have hfewer : (requestedIn source now hi es : ℚ) ≤ requestedIn source t hi es := by
    exact_mod_cast requestedIn_anti hnow es
  rw [h.levelOf_later hnow, ← sub_le_iff_le_add, le_min_iff]
  have hearned := earned_add rate hnow hhi
  constructor <;> linarith

theorem Fits.mono {level level' : ℚ}
    (h : Fits rate source t level es) (hle : level ≤ level') : Fits rate source t level' es := by
  intro hi hhi
  have hfits := h hi hhi
  linarith

/-- A source that keeps to the burst and the rate is never denied for want of a token, whatever is evicted. -/
theorem not_overRate (h : Counted rate burst t l)
    (hpos : 0 < rate) (htimed : Timed t es) (hconforms : Conforms rate burst source es)
    (hfits : Fits rate source t (levelOf l source t) es) :
    ∀ c ∈ log l es, c.source = source → c.verdict ≠ .overRate := by
  induction es generalizing t l with
  | nil => simp [log]
  | cons event es ih =>
    cases event with
    | check checked gcNow now =>
      obtain ⟨hgc, hnow, hrest⟩ := htimed
      have hswept := (h.later hgc).sweep hpos
      have hfound := hswept.later hnow
      -- what it asks for fits what it finds behind the sweep
      have hthen : Fits rate source now (levelOf (l.sweep gcNow) source now) (.check checked gcNow now :: es) :=
        ((hfits.later hconforms h hgc).mono ((h.later hgc).le_levelOf_sweep hpos source)).later hconforms hswept hnow
      have htaken := levelOf_takeToken (l.sweep gcNow) source checked now
      have hrestfits : Fits rate source now (levelOf ((l.sweep gcNow).takeToken checked now).2 source now) es := by
        intro hi hhi
        have hall := hthen hi hhi
        rw [requestedIn_check] at hall
        by_cases hsource : checked = source
        · rw [if_pos ⟨hsource, le_refl _, hhi⟩] at hall
          push_cast at hall
          split at htaken <;> linarith
        · rw [if_neg (fun hin => hsource hin.1)] at hall htaken
          push_cast at hall
          linarith
      intro c hc
      rw [log, List.mem_cons] at hc
      obtain rfl | hc := hc
      · rintro rfl hover
        -- a token is there
        have hone : 1 ≤ levelOf (l.sweep gcNow) checked now := by
          have hall := hthen now (le_refl now)
          rw [requestedIn_check, if_pos ⟨rfl, le_refl _, le_refl _⟩] at hall
          have hnonneg : (0 : ℚ) ≤ requestedIn checked now now es := Nat.cast_nonneg _
          have hnothing : earned rate (now - now) = 0 := by simp [earned]
          rw [hnothing] at hall
          push_cast at hall
          linarith
        have hdenied : l.verdict checked gcNow now = .overRate := hover
        unfold SipRateLimiter.verdict at hdenied
        rw [allow_eq h hpos] at hdenied
        obtain ⟨hnone, hfull, htake⟩ | ⟨-, htake⟩ := takeToken_cases (l.sweep gcNow) checked now
        · have hmax : (l.sweep gcNow).maxSources = l.maxSources := by
            unfold SipRateLimiter.sweep SipRateLimiter.evictIdle
            split
            · split <;> rfl
            · rfl
          rw [hmax] at hfull
          simp [htake, hnone, hfull] at hdenied
        · simp [htake, hone] at hdenied
      · rw [allow_eq h hpos] at hc
        exact ih (hfound.takeToken checked) hrest hconforms.tail hrestfits c hc
    | evict now =>
      obtain ⟨hnow, hrest⟩ := htimed
      have hthen : Fits rate source now (levelOf (l.evictIdle now).2 source now) es :=
        (Fits.later hfits hconforms h hnow).mono ((h.later hnow).le_levelOf_evictIdle hpos source)
      exact ih ((h.later hnow).evictIdle hpos) hrest hconforms.tail hthen

end Windows

/-! ## the bound -/

section Bound

variable {κ : Type} [DecidableEq κ]

/-- A limiter that is on admits of a source, in any window, no more than burst and rate allow,
and denies nothing for rate to a source that keeps to them. -/
def TokenBounded (κ : Type) [DecidableEq κ] (cfg : SipRateLimit) (maxSources : Nat) : Prop :=
  cfg.perSec ≠ 0 → ∀ es : List (Event κ), Timed 0 es → ∀ source,
    (∀ lo hi, lo ≤ hi →
      (admittedIn source lo hi (log ((new cfg).withMaxSources maxSources) es) : ℚ) ≤
        cfg.depth + earned cfg.perSec.toNat (hi - lo)) ∧
    (Conforms cfg.perSec.toNat cfg.depth source es →
      ∀ c ∈ log ((new cfg).withMaxSources maxSources) es, c.source = source → c.verdict ≠ .overRate)

variable {rate burst : Nat} {cfg : SipRateLimit} {l : SipRateLimiter κ} {source : κ}

theorem toNat_perSec_pos (h : cfg.perSec ≠ 0) : 0 < cfg.perSec.toNat := by
  apply Nat.pos_of_ne_zero
  intro hzero
  exact h (UInt32.toNat_inj.mp hzero)

theorem conforming_served (h : cfg.perSec ≠ 0) (maxSources : Nat) {es : List (Event κ)}
    (htimed : Timed 0 es) (hconforms : Conforms cfg.perSec.toNat cfg.depth source es) :
    ∀ c ∈ log ((new cfg).withMaxSources maxSources) es, c.source = source → c.verdict ≠ .overRate := by
  refine not_overRate (counted_new cfg maxSources) (toNat_perSec_pos h) htimed hconforms ?_
  intro hi hhi
  exact hconforms 0 hi hhi

/-- A table that knows one source at most, and may know one. -/
structure Sole (source : κ) (l : SipRateLimiter κ) : Prop where
  only : ∀ k ∈ l.buckets, k = source
  room : 0 < l.maxSources

theorem Sole.not_full (h : Sole source l) :
    ¬ (l.buckets.lookup source = none ∧ l.buckets.len ≥ l.maxSources) := by
  rintro ⟨hnone, hfull⟩
  have hknown : ∀ k ∈ l.buckets, k ∈ ([] : List κ) := by
    intro k hk
    rw [h.only k hk] at hk
    exact absurd hnone (AList.lookup_eq_none.not_left.mpr hk)
  have hlen := len_le_of_known hknown
  have hroom := h.room
  simp only [List.length_nil] at hlen
  omega

section

variable (h : Sole source l) (now : Nat)
include h

theorem Sole.evictIdle : Sole source (l.evictIdle now).2 := by
  unfold SipRateLimiter.evictIdle
  split
  · exact ⟨by simp, h.room⟩
  · exact ⟨fun k hk => h.only k ((KeyMap.within_retain _ _).mem hk), h.room⟩

theorem Sole.sweep : Sole source (l.sweep now) := by
  unfold SipRateLimiter.sweep
  split
  · have huncounted : Sole source { l with callsSinceGc := 0 } := ⟨h.only, h.room⟩
    exact huncounted.evictIdle now
  · exact ⟨h.only, h.room⟩

theorem Sole.takeToken : Sole source (l.takeToken source now).2 := by
  obtain ⟨hnone, hfull, -⟩ | ⟨-, htake⟩ := takeToken_cases l source now
  · exact absurd ⟨hnone, hfull⟩ h.not_full
  · rw [htake]
    refine ⟨?_, h.room⟩
    intro k hk
    rw [AList.mem_insert] at hk
    exact hk.elim id (h.only k)

end

theorem admittedIn_replicate {t lo hi : Nat} (h : Counted rate burst t l)
    (hpos : 0 < rate) (hsole : Sole source l) (hlo : lo ≤ t) (hhi : t ≤ hi) (n : Nat)
    (hn : (n : ℚ) ≤ levelOf l source t) : ∃ l', Counted rate burst t l' ∧ Sole source l' ∧ ∀ es,
      admittedIn source lo hi (log l (List.replicate n (.check source t t) ++ es)) =
        n + admittedIn source lo hi (log l' es) := by
  induction n generalizing l with
  | zero =>
    refine ⟨l, h, hsole, ?_⟩
    intro es
    simp
  | succ n ih =>
    have hraised := h.le_levelOf_sweep hpos source
    have htaken := levelOf_takeToken (l.sweep t) source source t
    have hnonneg : (0 : ℚ) ≤ n := Nat.cast_nonneg n
    push_cast at hn
    obtain ⟨hnone, hfull, -⟩ | ⟨-, htake⟩ := takeToken_cases (l.sweep t) source t
    · exact absurd ⟨hnone, hfull⟩ (hsole.sweep t).not_full
    have hpass : ((l.sweep t).takeToken source t).1 = true := by
      rw [htake]
      exact decide_eq_true (by linarith)
    rw [if_pos ⟨rfl, hpass⟩] at htaken
    obtain ⟨l', hcounted, hsole', hall⟩ := ih ((h.sweep hpos).takeToken source) ((hsole.sweep t).takeToken t)
      (by linarith)
    refine ⟨l', hcounted, hsole', ?_⟩
    intro es
    rw [List.replicate_succ, List.cons_append, admittedIn_check, allow_eq h hpos, hall es,
      if_pos ⟨rfl, hlo, hhi, hpass⟩]
    omega

theorem admittedIn_earlyEviction (h : Counted rate burst 0 l)
    (hpos : 0 < rate) (hsole : Sole source l) (hempty : l.buckets.lookup source = none) :
    admittedIn source 0 (refillNanos burst rate) (log l (earlyEviction source burst rate)) = burst + burst := by
  have hfull : ∀ l : SipRateLimiter κ, Counted rate burst 0 l →
      (burst : ℚ) ≤ levelOf (l.evictIdle (refillNanos burst rate)).2 source (refillNanos burst rate) := by
    intro l h
    have hgone : (l.evictIdle (refillNanos burst rate)).2.buckets.lookup source = none := by
      have hrate := h.rate
      rw [SipRateLimiter.evictIdle, if_neg (by omega), KeyMap.lookup_retain_apply, Option.filter_eq_none_iff]
      intro b hb hyoung
      have hlast := h.last source b hb
      have hrefill : l.refill = refillNanos burst rate := by rw [refill, h.burst, h.rate]
      have hyoung' := of_decide_eq_true hyoung
      omega
    have hburst := ((h.later (Nat.zero_le (refillNanos burst rate))).evictIdle hpos).burst
    unfold levelOf
    rw [hgone, hburst]
  have hstart : (burst : ℚ) ≤ levelOf l source 0 := by
    unfold levelOf
    rw [hempty, h.burst]
  obtain ⟨l₁, hcounted₁, hsole₁, hfirst⟩ := admittedIn_replicate h hpos hsole (le_refl 0)
    (Nat.zero_le (refillNanos burst rate)) burst hstart
  obtain ⟨l₂, -, -, hsecond⟩ := admittedIn_replicate
    ((hcounted₁.later (Nat.zero_le (refillNanos burst rate))).evictIdle hpos) hpos (hsole₁.evictIdle _)
    (Nat.zero_le _) (le_refl (refillNanos burst rate)) burst (hfull l₁ hcounted₁)
  have hrest := hsecond []
  rw [List.append_nil] at hrest
  rw [earlyEviction, hfirst, log, hrest]
  simp [admittedIn, log]

/-- **The token bucket bound holds exactly for the configurations whose refill time is not
rounded below what it takes to fill a bucket.** -/
theorem tokenBounded_iff [Inhabited κ] (cfg : SipRateLimit) (maxSources : Nat) :
    TokenBounded κ cfg maxSources ↔ cfg.perSec = 0 ∨ CoversRefill cfg.depth cfg.perSec.toNat := by
  constructor
  · intro hbounded
    by_contra hnot
    obtain ⟨hon, hshort⟩ := not_or.mp hnot
    have hpos := toNat_perSec_pos hon
    let l : SipRateLimiter κ := (new cfg).withMaxSources maxSources
    have hsole : Sole default l := ⟨by simp [l, new, withMaxSources], by
      show 0 < max maxSources 1
      omega⟩
    have hcount := admittedIn_earlyEviction (counted_new cfg maxSources) hpos hsole rfl
    have hle := (hbounded hon (earlyEviction default cfg.depth cfg.perSec.toNat) (timed_earlyEviction _ _ _)
      default).1 0 (refillNanos cfg.depth cfg.perSec.toNat) (Nat.zero_le _)
    rw [hcount, Nat.sub_zero] at hle
    have hless : earned cfg.perSec.toNat (refillNanos cfg.depth cfg.perSec.toNat) < cfg.depth := by
      unfold earned CoversRefill at *
      rw [div_mul_eq_mul_div, div_lt_iff₀ (by positivity)]
      exact_mod_cast Nat.lt_of_not_le hshort
    push_cast at hle
    linarith
  · intro hcond hon es htimed source
    have hcovers := hcond.resolve_left hon
    refine ⟨?_, conforming_served hon maxSources htimed⟩
    intro lo hi _
    exact admittedIn_le_burst (counted_new cfg maxSources) (toNat_perSec_pos hon) hcovers htimed source lo hi

/-- Three tokens a second, one at a time: the second check comes after 333333333 ns. -/
theorem third_of_second_too_short : ¬ TokenBounded Nat ⟨3, 1⟩ 100000 := by
  intro hbounded
  have hle := (hbounded (by decide) [.check 7 0 0, .evict 333333333, .check 7 333333333 333333333]
    (by simp [Timed]) 7).1 0 333333333 (by decide)
  revert hle
  decide +kernel

end Bound

end SmithsNet.Uas.RateLimit
