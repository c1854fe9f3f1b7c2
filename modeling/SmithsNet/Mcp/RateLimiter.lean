import Mathlib
import SmithsNet.Lib.KeyMap
import SmithsNet.Lib.TokenBucket
import SmithsNet.Lib.Lines

/-!
# SmithsNet.Mcp.RateLimiter

The token buckets in front of the tools (`smiths-mcp/src/rate_limit.rs`, and where
`dispatch.rs` asks it), one for each caller of a tool and one that the other callers of the tool
share.

Where there are too many buckets those of callers that have been idle long enough are dropped;
a caller for whom there is still no room shares the bucket of the tool.  What is dropped is
full, so that no bucket answers otherwise than one that is never dropped
(`rate_limiter_refines`).  Tokens are exact.
-/

namespace SmithsNet.Mcp.RateLimit

open Lib

structure RateLimitConfig where
  perSec : UInt32
  burst : UInt32

/-- `caller` is `none` for the bucket that is shared. -/
structure BucketKey where
  caller : Option Text
  tool : Text
  deriving DecidableEq

structure RateLimiter where
  refillPerSec : ℚ
  capacity : ℚ
  maxBuckets : Nat
  buckets : KeyMap BucketKey Tokens

def DEFAULT_MAX_BUCKETS : Nat := 4096

structure RateLimitReject where
  tool : Text
  caller : Option Text
  perSec : Nat

/-- ``rate limited for tool `{}` ({} req/s)`` -/
def RateLimitReject.toText (r : RateLimitReject) : Text :=
  "rate limited for tool `".toList ++ r.tool ++ "` (".toList ++ showNat r.perSec ++ " req/s)".toList

/-- The three times a call reads the clock: in the sweep, for a new bucket and to refill. -/
structure Clock where
  sweep : Nat
  insert : Nat
  now : Nat

namespace RateLimiter

/-- A burst of zero stands for the rate. -/
def new (cfg : RateLimitConfig) : RateLimiter where
  refillPerSec := cfg.perSec.toNat
  capacity := if cfg.burst = 0 then cfg.perSec.toNat else cfg.burst.toNat
  maxBuckets := DEFAULT_MAX_BUCKETS
  buckets := ∅

def withMaxBuckets (l : RateLimiter) (maxBuckets : Nat) : RateLimiter := { l with maxBuckets := max maxBuckets 1 }

def isDisabled (l : RateLimiter) : Bool := decide (l.refillPerSec ≤ 0)

def bucketCount (l : RateLimiter) : Nat := l.buckets.len

/-- The buckets of callers that have been idle for the time an empty one takes to fill up go. -/
def sweepIdle (l : RateLimiter) (now : Nat) : RateLimiter :=
  let fullAfter := l.capacity / l.refillPerSec
  let stays (key : BucketKey) (b : Tokens) : Bool := key.caller.isNone || decide (secs (now - b.countedAt) < fullAfter)
  { l with buckets := KeyMap.retain stays l.buckets }

def resolveKey (l : RateLimiter) (caller : Option Text) (tool : Text) (now : Nat) : BucketKey × RateLimiter :=
  let key : BucketKey := ⟨caller, tool⟩
  if key.caller = none ∨ key ∈ l.buckets then (key, l)
  else
    let l := if l.bucketCount ≥ l.maxBuckets then l.sweepIdle now else l
    if l.bucketCount ≥ l.maxBuckets then (⟨none, tool⟩, l) else (key, l)

/-- The bucket under a key, or a new one, is asked for a token. -/
def spendFrom (l : RateLimiter) (key : BucketKey) (clock : Clock) : Bool × RateLimiter :=
  let b := (l.buckets.lookup key).getD ⟨l.capacity, clock.insert⟩
  let (admitted, b) := b.spend l.refillPerSec l.capacity clock.now
  (admitted, { l with buckets := l.buckets.insert key b })

def tryAcquireFor (l : RateLimiter) (caller : Option Text) (tool : Text) (clock : Clock) :
    Except RateLimitReject Unit × RateLimiter :=
  if l.isDisabled then (.ok (), l)
  else
    let (key, l) := l.resolveKey caller tool clock.sweep
    let (admitted, l) := l.spendFrom key clock
    (if admitted then .ok () else .error ⟨tool, caller, ⌊l.refillPerSec⌋.toNat⟩, l)

end RateLimiter

inductive ToolError
  | notFound (message : Text)
  | forbidden (message : Text)
  | invalidArguments (message : Text)

/-- A call of a tool, and whether the registry has the tool when it comes. -/
structure Invocation where
  caller : Option Text
  tool : Text
  registered : Bool
  clock : Clock

/-- `invoke_audited_as`, up to where the limiter has been asked. -/
def invokeAuditedAs (l : RateLimiter) (i : Invocation) : Except ToolError Unit × RateLimiter :=
  if ! i.registered then (.error (.notFound ("tool ".toList ++ i.tool)), l)
  else
    match l.tryAcquireFor i.caller i.tool i.clock with
    | (.error limited, l) => (.error (.forbidden limited.toText), l)
    | (.ok _, l) => (.ok (), l)

/-! ## runs -/

/-- The limiter after these calls. -/
def stateAfter (l : RateLimiter) : List Invocation → RateLimiter
  | [] => l
  | i :: is => stateAfter (invokeAuditedAs l i).2 is

/-- What a bucket has answered, and when. -/
structure Decision where
  key : BucketKey
  time : Nat
  admitted : Bool

/-- The decision on a call, unless the limiter has nothing to decide. -/
def decision (l : RateLimiter) (i : Invocation) : List Decision :=
  if i.registered ∧ ¬ l.isDisabled then
    [⟨(l.resolveKey i.caller i.tool i.clock.sweep).1, i.clock.now, (invokeAuditedAs l i).1.isOk⟩]
  else []

def decisions (l : RateLimiter) : List Invocation → List Decision
  | [] => []
  | i :: is => decision l i ++ decisions (invokeAuditedAs l i).2 is

/-- Those made with a bucket. -/
def decisionsOf (key : BucketKey) (ds : List Decision) : List Decision := ds.filter fun d => decide (d.key = key)

/-- Time does not go backwards. -/
def Timed (t : Nat) : List Invocation → Prop
  | [] => True
  | i :: is => t ≤ i.clock.sweep ∧ i.clock.sweep ≤ i.clock.insert ∧ i.clock.insert ≤ i.clock.now ∧ Timed i.clock.now is

instance decidableTimed (t : Nat) : ∀ is, Decidable (Timed t is)
  | [] => isTrue trivial
  | i :: is =>
    have := decidableTimed i.clock.now is
    inferInstanceAs (Decidable (_ ∧ _ ∧ _ ∧ _))

/-- The tools that have been called, each once. -/
def toolsOf (is : List Invocation) : List Text := ((is.filter Invocation.registered).map Invocation.tool).dedup

/-! ## one step -/

namespace RateLimiter

variable {l : RateLimiter}

/-- What sweeping and asking leave as they are. -/
structure SameLimits (l l' : RateLimiter) : Prop where
  rate : l'.refillPerSec = l.refillPerSec
  capacity : l'.capacity = l.capacity
  maxBuckets : l'.maxBuckets = l.maxBuckets

theorem SameLimits.refl (l : RateLimiter) : SameLimits l l := ⟨rfl, rfl, rfl⟩

/-- How the bucket of a call is found: the one asked for, or the shared one where there is no room. -/
inductive Resolves (l : RateLimiter) (caller : Option Text) (tool : Text) (now : Nat) : BucketKey × RateLimiter → Prop
  | known (h : caller = none ∨ ⟨caller, tool⟩ ∈ l.buckets) : Resolves l caller tool now (⟨caller, tool⟩, l)
  | room {l' : RateLimiter} (hsweep : l' = l ∨ l' = l.sweepIdle now) (hroom : l'.bucketCount < l'.maxBuckets) :
      Resolves l caller tool now (⟨caller, tool⟩, l')
  | shared {l' : RateLimiter} (hsweep : l' = l ∨ l' = l.sweepIdle now) : Resolves l caller tool now (⟨none, tool⟩, l')

theorem resolves_resolveKey (l : RateLimiter) (caller : Option Text) (tool : Text) (now : Nat) :
    Resolves l caller tool now (l.resolveKey caller tool now) := by
  unfold resolveKey
  simp only
  split
  · next hknown => exact .known hknown
  · have hsweep : (if l.bucketCount ≥ l.maxBuckets then l.sweepIdle now else l) = l ∨
        (if l.bucketCount ≥ l.maxBuckets then l.sweepIdle now else l) = l.sweepIdle now := by
      split
      · exact .inr rfl
      · exact .inl rfl
    generalize (if l.bucketCount ≥ l.maxBuckets then l.sweepIdle now else l) = l' at hsweep
    split
    · exact .shared hsweep
    · next hroom => exact .room hsweep (Nat.lt_of_not_ge hroom)

theorem sameLimits_of_resolves {caller : Option Text} {tool : Text} {now : Nat} {result : BucketKey × RateLimiter}
    (h : Resolves l caller tool now result) : SameLimits l result.2 := by
  cases h with
  | known => exact .refl l
  | room hsweep => obtain rfl | rfl := hsweep <;> exact ⟨rfl, rfl, rfl⟩
  | shared hsweep => obtain rfl | rfl := hsweep <;> exact ⟨rfl, rfl, rfl⟩

end RateLimiter

/-! ## no bucket is missed -/

/-- Beside buckets that are never dropped: what is there is the same, and what is not is full. -/
structure Inv (l₀ : RateLimiter) (t : Nat) (ideal : BucketKey → Tokens) (l : RateLimiter) : Prop where
  limits : RateLimiter.SameLimits l₀ l
  kept : ∀ key b, l.buckets.lookup key = some b → ideal key = b
  gone : ∀ key, l.buckets.lookup key = none → (ideal key).Full l₀.refillPerSec l₀.capacity t
  nonneg : ∀ key, 0 ≤ (ideal key).count

section steps

variable {l₀ l : RateLimiter} {ideal : BucketKey → Tokens} {t now : Nat}

section

variable (h : Inv l₀ t ideal l)
include h

theorem Inv.later (hnow : t ≤ now) : Inv l₀ now ideal l :=
  { h with gone := fun key hgone => (h.gone key hgone).later hnow }

theorem Inv.sweepIdle (hrate : 0 < l₀.refillPerSec) (hnow : t ≤ now) :
    Inv l₀ now ideal (l.sweepIdle now) := by
  have hlookup : ∀ key, (l.sweepIdle now).buckets.lookup key = (l.buckets.lookup key).filter fun b =>
      key.caller.isNone || decide (secs (now - b.countedAt) < l.capacity / l.refillPerSec) :=
    fun key => KeyMap.lookup_retain_apply _ _ key
  refine ⟨⟨h.limits.rate, h.limits.capacity, h.limits.maxBuckets⟩, fun key b hb => ?_, fun key hgone => ?_, h.nonneg⟩
  · rw [hlookup, Option.filter_eq_some_iff] at hb
    exact h.kept key b hb.1
  · rw [hlookup] at hgone
    cases hkey : l.buckets.lookup key with
    | none => exact (h.gone key hkey).later hnow
    | some b =>
      rw [hkey, Option.filter_some, ite_eq_right_iff] at hgone
      -- it has been idle for long enough
      have hidle : ¬ secs (now - b.countedAt) < l₀.capacity / l₀.refillPerSec := by
        intro hyoung
        refine absurd (hgone ?_) (Option.some_ne_none b)
        rw [h.limits.capacity, h.limits.rate, decide_eq_true hyoung, Bool.or_true]
      have hnonneg := h.nonneg key
      rw [h.kept key b hkey] at hnonneg ⊢
      exact Tokens.level_of_idle hrate hnonneg (not_lt.mp hidle)

theorem Inv.resolve (hrate : 0 < l₀.refillPerSec) (hnow : t ≤ now) {caller : Option Text}
    {tool : Text} {result : BucketKey × RateLimiter} (hresolves : RateLimiter.Resolves l caller tool now result) :
    Inv l₀ now ideal result.2 := by
  cases hresolves with
  | known => exact h.later hnow
  | room hsweep =>
    obtain rfl | rfl := hsweep
    · exact h.later hnow
    · exact h.sweepIdle hrate hnow
  | shared hsweep =>
    obtain rfl | rfl := hsweep
    · exact h.later hnow
    · exact h.sweepIdle hrate hnow

theorem Inv.spendFrom (hrate : 0 ≤ l₀.refillPerSec) (hcapacity : 0 ≤ l₀.capacity) (key : BucketKey)
    {clock : Clock} (hnow : t ≤ clock.now) :
    let answer := (ideal key).spend l₀.refillPerSec l₀.capacity clock.now
    (l.spendFrom key clock).1 = answer.1 ∧
      Inv l₀ clock.now (Function.update ideal key answer.2) (l.spendFrom key clock).2 := by
  have hsame : ((l.buckets.lookup key).getD ⟨l.capacity, clock.insert⟩).spend l.refillPerSec l.capacity clock.now =
      (ideal key).spend l₀.refillPerSec l₀.capacity clock.now := by
    rw [h.limits.rate, h.limits.capacity]
    cases hkey : l.buckets.lookup key with
    | some b => rw [Option.getD_some, h.kept key b hkey]
    | none => exact Tokens.spend_of_full (Tokens.full_of_count hrate rfl _) ((h.gone key hkey).later hnow)
  unfold RateLimiter.spendFrom
  simp only
  rw [hsame]
  refine ⟨rfl, ⟨h.limits.rate, h.limits.capacity, h.limits.maxBuckets⟩, fun key' b hb => ?_,
    fun key' hgone => ?_, fun key' => ?_⟩
  · rw [KeyMap.lookup_insert_apply] at hb
    split at hb
    · next heq => rw [heq, Function.update_self, Option.some.inj hb]
    · next hne => rw [Function.update_of_ne hne, h.kept key' b hb]
  · rw [KeyMap.lookup_insert_apply] at hgone
    split at hgone
    · contradiction
    · next hne =>
      rw [Function.update_of_ne hne]
      exact (h.gone key' hgone).later hnow
  · by_cases heq : key' = key
    · rw [heq, Function.update_self]
      exact Tokens.spend_nonneg hrate hcapacity (h.nonneg key)
    · rw [Function.update_of_ne heq]
      exact h.nonneg key'

end

theorem isOk_invokeAuditedAs {i : Invocation} (hregistered : i.registered = true) (henabled : ¬ l.isDisabled) :
    let resolved := l.resolveKey i.caller i.tool i.clock.sweep
    (invokeAuditedAs l i).1.isOk = (resolved.2.spendFrom resolved.1 i.clock).1 ∧
      (invokeAuditedAs l i).2 = (resolved.2.spendFrom resolved.1 i.clock).2 := by
  unfold invokeAuditedAs RateLimiter.tryAcquireFor
  rw [hregistered, if_neg henabled]
  simp only [Bool.not_true, Bool.false_eq_true, if_false]
  cases ((l.resolveKey i.caller i.tool i.clock.sweep).2.spendFrom
    (l.resolveKey i.caller i.tool i.clock.sweep).1 i.clock).1 with
  | true => exact ⟨rfl, rfl⟩
  | false => exact ⟨rfl, rfl⟩

theorem invokeAuditedAs_of_undecided {i : Invocation} (h : ¬ (i.registered ∧ ¬ l.isDisabled)) :
    (invokeAuditedAs l i).2 = l := by
  unfold invokeAuditedAs RateLimiter.tryAcquireFor
  by_cases hregistered : i.registered = true
  · have hdisabled : l.isDisabled = true := by simpa [hregistered] using h
    simp [hregistered, hdisabled]
  · simp [hregistered]

end steps

theorem isDisabled_eq_false {l₀ l : RateLimiter} (h : RateLimiter.SameLimits l₀ l) (hrate : 0 < l₀.refillPerSec) :
    l.isDisabled = false := by
  rw [RateLimiter.isDisabled, h.rate]
  exact decide_eq_false (not_le.mpr hrate)

theorem answers_decisions {l₀ l : RateLimiter} (hrate : 0 < l₀.refillPerSec) (hcapacity : 0 ≤ l₀.capacity)
    {is : List Invocation} {t : Nat} {ideal : BucketKey → Tokens} (h : Inv l₀ t ideal l)
    (htimed : Timed t is) (key : BucketKey) :
    (decisionsOf key (decisions l is)).map Decision.admitted =
      (ideal key).answers l₀.refillPerSec l₀.capacity ((decisionsOf key (decisions l is)).map Decision.time) := by
  induction is generalizing l t ideal with
  | nil => rfl
  | cons i is ih =>
    obtain ⟨hsweep, hinsert, hnow, hrest⟩ := htimed
    have henabled : ¬ l.isDisabled := by rw [isDisabled_eq_false h.limits hrate]; nofun
    rw [decisions, decision]
    by_cases hregistered : i.registered = true
    · obtain ⟨hok, hafter⟩ := isOk_invokeAuditedAs hregistered henabled
      have hresolved := h.resolve hrate hsweep (RateLimiter.resolves_resolveKey l i.caller i.tool i.clock.sweep)
      obtain ⟨hanswer, hinv⟩ := hresolved.spendFrom hrate.le hcapacity (l.resolveKey i.caller i.tool i.clock.sweep).1
        (hinsert.trans hnow)
      rw [← hafter] at hinv
      have hlater := ih hinv hrest
      rw [if_pos ⟨hregistered, henabled⟩, hok, hanswer, decisionsOf, List.singleton_append, List.filter_cons]
      by_cases hkey : (l.resolveKey i.caller i.tool i.clock.sweep).1 = key
      · simp only [decide_eq_true hkey, if_true, List.map_cons, Tokens.answers]
        rw [hkey, Function.update_self] at hlater
        rw [hkey]
        exact congrArg _ hlater
      · simp only [decide_eq_false hkey, Bool.false_eq_true, if_false]
        rw [Function.update_of_ne (Ne.symm hkey)] at hlater
        exact hlater
    · have hundecided : ¬ (i.registered ∧ ¬ l.isDisabled) := fun hboth => hregistered hboth.1
      rw [if_neg hundecided, List.nil_append, invokeAuditedAs_of_undecided hundecided]
      exact ih (h.later (hsweep.trans (hinsert.trans hnow))) hrest

/-! ## how many buckets there are -/

/-- At most the limit of callers' buckets, and shared ones of known tools. -/
structure Bounded (tools : List Text) (l : RateLimiter) : Prop where
  callers : KeyMap.countKeys (fun key => key.caller.isSome) l.buckets ≤ l.maxBuckets
  shared : ∀ key ∈ l.buckets, key.caller = none → key.tool ∈ tools

section bound

variable {l : RateLimiter} {tools : List Text}

section

variable (h : Bounded tools l)
include h

theorem Bounded.len_le : l.bucketCount ≤ l.maxBuckets + tools.length := by
  have hsplit := List.length_eq_countP_add_countP (fun key : BucketKey => key.caller.isSome) (l := l.buckets.keys)
  have hlen : l.bucketCount = l.buckets.keys.length := by
    simp [RateLimiter.bucketCount, KeyMap.len, AList.keys, List.keys]
  have hshared : l.buckets.keys.countP (fun key => ! key.caller.isSome) ≤ tools.length := by
    rw [List.countP_eq_length_filter]
    have hmem : ∀ key ∈ l.buckets.keys.filter (fun key => ! key.caller.isSome), key.caller = none ∧ key.tool ∈ tools := by
      intro key hkey
      obtain ⟨hkey, hcaller⟩ := List.mem_filter.mp hkey
      have hnone : key.caller = none := by simpa using hcaller
      exact ⟨hnone, h.shared key (AList.mem_keys.mpr hkey) hnone⟩
    have hinj : ((l.buckets.keys.filter fun key => ! key.caller.isSome).map BucketKey.tool).Nodup := by
      refine List.Nodup.map_on (fun a ha b hb heq => ?_) (l.buckets.keys_nodup.filter _)
      obtain ⟨caller, tool⟩ := a
      obtain ⟨caller', tool'⟩ := b
      obtain rfl : caller = none := (hmem _ ha).1
      obtain rfl : caller' = none := (hmem _ hb).1
      exact congrArg _ heq
    have hsub : (l.buckets.keys.filter fun key => ! key.caller.isSome).map BucketKey.tool ⊆ tools := by
      intro tool htool
      obtain ⟨key, hkey, rfl⟩ := List.mem_map.mp htool
      exact (hmem key hkey).2
    have hle := (hinj.subperm hsub).length_le
    rwa [List.length_map] at hle
  have hcallers := h.callers
  rw [KeyMap.countKeys] at hcallers
  simp only [Bool.not_eq_true, Bool.decide_eq_false] at hsplit
  omega

theorem Bounded.sweepIdle (now : Nat) : Bounded tools (l.sweepIdle now) := by
  constructor
  · refine le_trans (List.Sublist.countP_le (List.Sublist.map _ List.filter_sublist)) h.callers
  · intro key hkey
    obtain ⟨b, hb⟩ := Option.isSome_iff_exists.mp (AList.lookup_isSome.mpr hkey)
    exact h.shared key (AList.lookup_isSome.mp (by rw [(KeyMap.lookup_retain hb).1]; rfl))

theorem Bounded.insert {key : BucketKey}
    (hroom : key ∈ l.buckets ∨ key.caller = none ∨ l.bucketCount < l.maxBuckets)
    (htool : key.caller = none → key.tool ∈ tools) (b : Tokens) :
    Bounded tools { l with buckets := l.buckets.insert key b } := by
  constructor
  · show KeyMap.countKeys _ (l.buckets.insert key b) ≤ l.maxBuckets
    have hcallers := h.callers
    by_cases hmem : key ∈ l.buckets
    · have hsame : ((key :: l.buckets.keys.erase key).countP fun key => key.caller.isSome) =
          l.buckets.keys.countP fun key => key.caller.isSome :=
        (List.perm_cons_erase (AList.mem_keys.mp hmem)).symm.countP_eq _
      rw [KeyMap.countKeys, AList.keys_insert, hsame]
      exact hcallers
    · rw [KeyMap.countKeys_insert _ (AList.lookup_eq_none.mpr hmem)]
      split
      · next hcaller =>
        obtain hin | hnone | hlt := hroom
        · exact absurd hin hmem
        · rw [hnone] at hcaller
          contradiction
        · have hle : KeyMap.countKeys (fun key => key.caller.isSome) l.buckets ≤ l.bucketCount := by
            rw [RateLimiter.bucketCount, KeyMap.len_eq_countKeys]
            exact List.countP_mono_left fun _ _ _ => rfl
          omega
      · omega
  · intro key' hkey' hnone
    obtain rfl | hkey' := (AList.mem_insert _).mp hkey'
    · exact htool hnone
    · exact h.shared key' hkey' hnone

theorem Bounded.invoke {i : Invocation} (htool : i.registered = true → i.tool ∈ tools) :
    Bounded tools (invokeAuditedAs l i).2 := by
  by_cases hdecided : i.registered ∧ ¬ l.isDisabled
  · obtain ⟨hregistered, henabled⟩ := hdecided
    rw [(isOk_invokeAuditedAs hregistered henabled).2]
    have hresolves := RateLimiter.resolves_resolveKey l i.caller i.tool i.clock.sweep
    generalize l.resolveKey i.caller i.tool i.clock.sweep = resolved at hresolves
    have hswept : ∀ l', l' = l ∨ l' = l.sweepIdle i.clock.sweep → Bounded tools l' := by
      rintro l' (rfl | rfl)
      · exact h
      · exact h.sweepIdle _
    cases hresolves with
    | known hknown => exact h.insert (hknown.symm.imp_right .inl) (fun _ => htool hregistered) _
    | room hsweep hroom => exact (hswept _ hsweep).insert (.inr (.inr hroom)) (fun _ => htool hregistered) _
    | shared hsweep => exact (hswept _ hsweep).insert (.inr (.inl rfl)) (fun _ => htool hregistered) _
  · rwa [invokeAuditedAs_of_undecided hdecided]

theorem Bounded.stateAfter {is : List Invocation} (htools : ∀ i ∈ is, i.registered = true → i.tool ∈ tools) :
    Bounded tools (stateAfter l is) := by
  induction is generalizing l with
  | nil => exact h
  | cons i is ih =>
    obtain ⟨hi, his⟩ := List.forall_mem_cons.mp htools
    exact ih (h.invoke hi) his

end

end bound

theorem maxBuckets_invokeAuditedAs (l : RateLimiter) (i : Invocation) :
    (invokeAuditedAs l i).2.maxBuckets = l.maxBuckets := by
  by_cases hdecided : i.registered ∧ ¬ l.isDisabled
  · rw [(isOk_invokeAuditedAs hdecided.1 hdecided.2).2]
    exact (RateLimiter.sameLimits_of_resolves (RateLimiter.resolves_resolveKey l i.caller i.tool i.clock.sweep)).maxBuckets
  · rw [invokeAuditedAs_of_undecided hdecided]

theorem maxBuckets_stateAfter (l : RateLimiter) (is : List Invocation) : (stateAfter l is).maxBuckets = l.maxBuckets := by
  induction is generalizing l with
  | nil => rfl
  | cons i is ih => exact (ih _).trans (maxBuckets_invokeAuditedAs l i)

theorem decisions_of_disabled {l : RateLimiter} (h : l.isDisabled = true) (is : List Invocation) : decisions l is = [] := by
  induction is with
  | nil => rfl
  | cons i is ih =>
    have hundecided : ¬ (i.registered ∧ ¬ l.isDisabled) := fun hboth => hboth.2 h
    rw [decisions, decision, if_neg hundecided, invokeAuditedAs_of_undecided hundecided, ih]
    rfl

/-- The callers of the tools never have more than the limit of buckets, the tools called one
each; and every bucket admits and denies what one would that is never dropped. -/
theorem rate_limiter_refines (cfg : RateLimitConfig) (maxBuckets : Nat) (is : List Invocation) (htimed : Timed 0 is) :
    let l := (RateLimiter.new cfg).withMaxBuckets maxBuckets
    (stateAfter l is).bucketCount ≤ l.maxBuckets + (toolsOf is).length ∧
      ∀ key, (decisionsOf key (decisions l is)).map Decision.admitted =
        Tokens.answers l.refillPerSec l.capacity ⟨l.capacity, 0⟩ ((decisionsOf key (decisions l is)).map Decision.time) := by
  intro l
  constructor
  · have hempty : Bounded (toolsOf is) l :=
      ⟨Nat.zero_le _, fun key hkey => absurd hkey (AList.notMem_empty key)⟩
    have htools : ∀ i ∈ is, i.registered = true → i.tool ∈ toolsOf is := fun i hi hregistered =>
      List.mem_dedup.mpr (List.mem_map.mpr ⟨i, List.mem_filter.mpr ⟨hi, hregistered⟩, rfl⟩)
    rw [← maxBuckets_stateAfter l is]
    exact (hempty.stateAfter htools).len_le
  · intro key
    have hcapacity : 0 ≤ l.capacity := by
      show (0 : ℚ) ≤ if cfg.burst = 0 then (cfg.perSec.toNat : ℚ) else cfg.burst.toNat
      split
      · exact Nat.cast_nonneg _
      · exact Nat.cast_nonneg _
    by_cases hrate : 0 < l.refillPerSec
    · refine @answers_decisions l l hrate hcapacity is 0 (fun _ => ⟨l.capacity, 0⟩) ?_ htimed key
      refine ⟨.refl l, fun key b hb => ?_, fun key _ => Tokens.full_of_count hrate.le rfl 0, fun _ => hcapacity⟩
      exact absurd hb (Option.some_ne_none b).symm
    · rw [decisions_of_disabled (decide_eq_true (not_lt.mp hrate))]
      rfl

/-- At one time. -/
def at_ (caller : Option Text) (tool : Text) (now : Nat) : Invocation := ⟨caller, tool, true, now, now, now⟩

/-- The third caller is sent to the shared bucket; later those of the others are dropped for it. -/
def sampleCalls : List Invocation :=
  [at_ (some ['a']) ['t'] 0, at_ (some ['b']) ['t'] 1000, at_ (some ['c']) ['t'] 2000,
    at_ (some ['c']) ['t'] 2000000000, at_ (some ['a']) ['t'] 2000000000,
    { at_ none ['u'] 2000000000 with registered := false }]

theorem rate_limiter_refines_sampleCalls : Timed 0 sampleCalls ∧
    let l := (RateLimiter.new ⟨1, 1⟩).withMaxBuckets 2
    (stateAfter l sampleCalls).bucketCount ≤ l.maxBuckets + (toolsOf sampleCalls).length ∧
      ∀ key, (decisionsOf key (decisions l sampleCalls)).map Decision.admitted =
        Tokens.answers l.refillPerSec l.capacity ⟨l.capacity, 0⟩
          ((decisionsOf key (decisions l sampleCalls)).map Decision.time) :=
  ⟨by decide, rate_limiter_refines ⟨1, 1⟩ 2 sampleCalls (by decide)⟩

end SmithsNet.Mcp.RateLimit
