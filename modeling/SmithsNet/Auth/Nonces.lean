import SmithsNet.Auth.Replay

/-!
# SmithsNet.Auth.Nonces

The registrar one call after the other: `authenticate` as a whole, with every way it can
turn a request down, and `issue_nonce` with its garbage collection.

A rejected request takes at most an expired nonce out of the table (`rejection_harmless`):
the claim comes last, and the only removal is that of the expired.  In every history of
calls the table keeps to its cap, and what one issue removes is expired or no younger than
what it keeps (`nonce_table_bounded`).
-/

namespace SmithsNet.Auth

open Lib

/-! ## one request -/

/-- What a credential store answers for a realm, a user and an algorithm. -/
abbrev LookupFor := Text → Text → Algorithm → Option Credentials

/-- `claim_nonce`: the critical section, then the removal of an expired nonce. -/
def claimNonce (r : Registrar) (table : NonceTable) (now : Nat) (nonce : Text) (nc : Option Nat) :
    Except AuthError Unit × NonceTable :=
  match claimLocked r table now nonce nc with
  | (.accepted, table) => (.ok (), table)
  | (.refused e, table) => (.error e, table)
  | (.expired, table) => (.error .staleNonce, table.erase nonce)

/-- `finish`: the digest is compared before the nonce is claimed. -/
def finish (hashHex : HashHex) (r : Registrar) (table : NonceTable) (now : Nat) (params : AuthParams)
    (alg : Algorithm) (method : Text) (creds : Credentials) : Except AuthError Text × NonceTable :=
  if !verify hashHex alg method params creds then (.error .badResponse, table)
  else
    match claimNonce r table now params.nonce (nonceCount params) with
    | (.error e, table) => (.error e, table)
    | (.ok (), table) => (.ok params.username, table)

/-- `authenticate`: the clock is read in `precheck` and again in `claim_nonce`. -/
def authenticate (hashHex : HashHex) (store : LookupFor) (r : Registrar) (table : NonceTable)
    (checkedAt claimedAt : Nat) (method requestUri authHeader : Text) : Except AuthError Text × NonceTable :=
  match precheck r table checkedAt requestUri authHeader with
  | .error e => (.error e, table)
  | .ok (params, alg) =>
    match store r.realm params.username alg with
    | none => (.error .unknownUser, table)
    | some creds => finish hashHex r table claimedAt params alg method creds

/-- `authenticate_async`: the lookup may fail, and what other calls make of the table while
it is awaited is `meanwhile`. -/
def authenticateAsync (hashHex : HashHex) (store : Text → Text → Algorithm → Except Text (Option Credentials))
    (meanwhile : NonceTable → NonceTable) (r : Registrar) (table : NonceTable) (checkedAt claimedAt : Nat)
    (method requestUri authHeader : Text) : Except AuthError Text × NonceTable :=
  match precheck r table checkedAt requestUri authHeader with
  | .error e => (.error e, table)
  | .ok (params, alg) =>
    match store r.realm params.username alg with
    | .error detail => (.error (.backend detail), meanwhile table)
    | .ok none => (.error .unknownUser, meanwhile table)
    | .ok (some creds) => finish hashHex r (meanwhile table) claimedAt params alg method creds

/-- Every nonce is as it was, or has expired and is gone. -/
def OnlyExpiredRemoved (r : Registrar) (now : Nat) (before after : NonceTable) : Prop :=
  ∀ nonce, after.lookup nonce = before.lookup nonce ∨
    after.lookup nonce = none ∧ ∃ st, before.lookup nonce = some st ∧ st.live r.ttl now = false

theorem OnlyExpiredRemoved.refl (r : Registrar) (now : Nat) (table : NonceTable) :
    OnlyExpiredRemoved r now table table := fun _ => .inl rfl

variable {alg : Algorithm} {e : AuthError} {params : AuthParams} {creds : Credentials}
    {outcome : Except AuthError Unit} {hashHex : HashHex} {now : Nat}
    {table table' after before : NonceTable} {r : Registrar} {c : Setup} {nonce method k : Text}

theorem claimLocked_expired {nc : Option Nat}
    (h : claimLocked r table now nonce nc = (.expired, table')) :
    ∃ st, table.lookup nonce = some st ∧ st.live r.ttl now = false := by
  unfold claimLocked at h
  cases hl : table.lookup nonce with
  | none => simp [hl] at h
  | some st =>
    simp only [hl] at h
    split at h
    · next hexpired => exact ⟨st, rfl, by simpa using hexpired⟩
    · split at h <;> simp at h

/-- What a claim can do to the table. -/
inductive Claimed (r : Registrar) (now : Nat) (nonce : Text) (before : NonceTable) :
    Except AuthError Unit → NonceTable → Prop
  | refused (e : AuthError) : Claimed r now nonce before (.error e) before
  | expired (st : NonceState) (hlookup : before.lookup nonce = some st) (hexpired : st.live r.ttl now = false) :
      Claimed r now nonce before (.error .staleNonce) (before.erase nonce)
  | used (st : NonceState) (nc : Option Nat) (hlookup : before.lookup nonce = some st) :
      Claimed r now nonce before (.ok ()) (before.insert nonce (st.use nc))

theorem claimed_claimNonce (r : Registrar) (table : NonceTable) (now : Nat) (nonce : Text) (nc : Option Nat) :
    Claimed r now nonce table (claimNonce r table now nonce nc).1 (claimNonce r table now nonce nc).2 := by
  unfold claimNonce
  cases hclaim : claimLocked r table now nonce nc with
  | mk claim locked =>
    cases claim with
    | accepted =>
      obtain ⟨st, hlookup, -, rfl⟩ := claimLocked_accepted hclaim
      exact .used st nc hlookup
    | refused e =>
      obtain rfl : locked = table := claimLocked_not_accepted hclaim (by simp)
      exact .refused e
    | expired =>
      obtain rfl : locked = table := claimLocked_not_accepted hclaim (by simp)
      obtain ⟨st, hlookup, hexpired⟩ := claimLocked_expired hclaim
      exact .expired st hlookup hexpired

theorem Claimed.harmless
    (h : Claimed r now nonce before (.error e) after) : OnlyExpiredRemoved r now before after := by
  cases h with
  | refused => exact .refl r now _
  | expired st hlookup hexpired =>
    intro nonce'
    rw [KeyMap.lookup_erase_apply]
    split
    · next heq =>
      subst heq
      exact .inr ⟨rfl, st, hlookup, hexpired⟩
    · exact .inl rfl

theorem finish_table (hashHex : HashHex) (r : Registrar) (table : NonceTable) (now : Nat) (params : AuthParams)
    (alg : Algorithm) (method : Text) (creds : Credentials) :
    ∃ outcome, Claimed r now params.nonce table outcome (finish hashHex r table now params alg method creds).2 ∧
      ((∃ e, (finish hashHex r table now params alg method creds).1 = .error e) → ∃ e, outcome = .error e) := by
  unfold finish
  split
  · exact ⟨.error .badResponse, .refused _, fun _ => ⟨_, rfl⟩⟩
  · have hclaimed := claimed_claimNonce r table now params.nonce (nonceCount params)
    generalize claimNonce r table now params.nonce (nonceCount params) = claim at hclaimed
    obtain ⟨outcome, claimed⟩ := claim
    cases outcome with
    | error e => exact ⟨_, hclaimed, fun _ => ⟨e, rfl⟩⟩
    | ok u =>
      refine ⟨_, hclaimed, ?_⟩
      rintro ⟨e, he⟩
      cases he

theorem finish_error (h : finish hashHex r table now params alg method creds = (.error e, table')) :
    OnlyExpiredRemoved r now table table' := by
  obtain ⟨outcome, hclaimed, herror⟩ := finish_table hashHex r table now params alg method creds
  rw [h] at hclaimed herror
  obtain ⟨e', rfl⟩ := herror ⟨e, rfl⟩
  exact hclaimed.harmless

/-- **A rejected request is harmless**: it leaves every nonce and every count as it found
them, but for expired nonces that are gone. -/
theorem rejection_harmless (hashHex : HashHex) (r : Registrar) (table after : NonceTable)
    (checkedAt claimedAt : Nat) (method requestUri authHeader : Text) (e : AuthError) :
    (∀ store, authenticate hashHex store r table checkedAt claimedAt method requestUri authHeader = (.error e, after) →
      OnlyExpiredRemoved r claimedAt table after) ∧
    (∀ store meanwhile, authenticateAsync hashHex store meanwhile r table checkedAt claimedAt method requestUri
        authHeader = (.error e, after) →
      after = table ∨ OnlyExpiredRemoved r claimedAt (meanwhile table) after) := by
  constructor
  · intro store h
    unfold authenticate at h
    split at h
    · cases h
      exact .refl r claimedAt _
    · split at h
      · cases h
        exact .refl r claimedAt _
      · exact finish_error h
  · intro store meanwhile h
    unfold authenticateAsync at h
    split at h
    · cases h
      exact .inl rfl
    · split at h
      · cases h
        exact .inr (.refl r claimedAt _)
      · cases h
        exact .inr (.refl r claimedAt _)
      · exact .inr (finish_error h)

theorem authenticate_claimed {store : LookupFor}
    {checkedAt claimedAt : Nat} {requestUri authHeader : Text}
    (hcheck : precheck r table checkedAt requestUri authHeader = .ok (params, alg))
    (hstore : store r.realm params.username alg = some creds) (hverify : verify hashHex alg method params creds = true)
    (hclaim : claimNonce r table claimedAt params.nonce (nonceCount params) = (.error e, after)) :
    authenticate hashHex store r table checkedAt claimedAt method requestUri authHeader = (.error e, after) := by
  simp only [authenticate, hcheck, hstore, finish, hverify, hclaim, Bool.not_true, Bool.false_eq_true, if_false]

/-- The digest of `alice` is right, and comes after her nonce has expired. -/
theorem rejection_harmless_alice : OnlyExpiredRemoved aliceSetup.registrar 400000000000
    (aliceTable 0) ((aliceTable 0).erase aliceNonce) := by
  have hcheck := precheck_alice (.inl ⟨rfl, rfl⟩)
  have hclaim : claimNonce aliceSetup.registrar (aliceTable 0) 400000000000 aliceNonce
      (nonceCount (aliceParams aliceFirst)) = (.error .staleNonce, (aliceTable 0).erase aliceNonce) := by
    have hlookup : (aliceTable 0).lookup aliceNonce = some (.fresh 0) := AList.lookup_insert _
    unfold claimNonce claimLocked
    rw [hlookup]
    rfl
  exact (rejection_harmless aliceHash aliceSetup.registrar (aliceTable 0) _ 0 400000000000
    "REGISTER".toList "sip:r".toList (aliceHeader aliceFirst) .staleNonce).1
      (fun _ _ _ => some aliceCreds) (authenticate_claimed hcheck rfl
        (verify_alice (.inl ⟨rfl, rfl⟩)) hclaim)

/-! ## one issue -/

/-- The cap a registrar starts with. -/
def DEFAULT_MAX_NONCES : Nat := 100000

namespace Registrar

/-- A registrar for a realm; nonces live for five minutes. -/
def new (realm : Text) : Registrar := ⟨realm, 300000000000, DEFAULT_MAX_NONCES⟩

def withTtl (r : Registrar) (ttl : Nat) : Registrar := { r with ttl := ttl }

/-- A cap below 1 is taken for 1. -/
def withMaxNonces (r : Registrar) (maxNonces : Nat) : Registrar :=
  { r with maxNonces := if maxNonces = 0 then 1 else maxNonces }

/-- What the builder makes. -/
inductive Built : Registrar → Prop
  | new (realm : Text) : Built (new realm)
  | withTtl {r : Registrar} (h : Built r) (ttl : Nat) : Built (r.withTtl ttl)
  | withMaxNonces {r : Registrar} (h : Built r) (maxNonces : Nat) : Built (r.withMaxNonces maxNonces)

theorem Built.pos {r : Registrar} (h : Built r) : 0 < r.maxNonces := by
  induction h with
  | new realm =>
    show 0 < DEFAULT_MAX_NONCES
    decide
  | withTtl h ttl ih => exact ih
  | withMaxNonces h maxNonces ih =>
    simp only [Registrar.withMaxNonces]
    split <;> omega

end Registrar

/-- `sort_unstable_by_key` on the reversed age: oldest first, equal ages in any order. -/
structure AgeSort where
  sort : List (Nat × Text) → List (Nat × Text)
  perm : ∀ ages, (sort ages).Perm ages
  oldestFirst : ∀ ages, (sort ages).Pairwise fun a b => b.1 ≤ a.1

/-- The table, the time of its last sweep, and the clock. -/
structure NonceStore where
  table : NonceTable
  lastGcMs : Nat
  now : Nat

/-- Age and key of every entry. -/
def agesOf (table : NonceTable) (gcNow : Nat) : List (Nat × Text) :=
  table.entries.map fun e => (gcNow - e.2.issuedAt, e.1)

/-- Remove some keys. -/
def eraseAll (table : NonceTable) (keys : List Text) : NonceTable := keys.foldl (fun table k => table.erase k) table

namespace Setup

/-- `maybe_gc`. -/
def maybeGc (c : Setup) (order : AgeSort) (gcNow : Nat) (s : NonceStore) : NonceStore :=
  let full := c.registrar.maxNonces ≤ s.table.len
  let due := c.gcInterval ≤ c.millis gcNow - s.lastGcMs
  if ¬ full ∧ ¬ due then s
  else
    let live := s.table.retain fun _ st => st.live c.registrar.ttl gcNow
    if live.len < c.registrar.maxNonces then { s with table := live, lastGcMs := c.millis gcNow }
    else
      let ages := order.sort (agesOf live gcNow)
      let evict := max (ages.length / 10) 1
      { s with table := eraseAll live ((ages.take evict).map Prod.snd), lastGcMs := c.millis gcNow }

/-- `issue_nonce`: the clock is read before the sweep and again for the entry. -/
def issueNonce (c : Setup) (order : AgeSort) (nonce : Text) (waited paused : Nat) (s : NonceStore) : NonceStore :=
  let gcNow := s.now + waited
  let swept := c.maybeGc order gcNow s
  { swept with table := swept.table.insert nonce (.fresh (gcNow + paused)), now := gcNow + paused }

end Setup

/-! ## histories -/

/-- A call, `waited` after the one before; `paused` is between its two readings of the clock. -/
inductive Call
  | issue (order : AgeSort) (nonce : Text) (waited paused : Nat)
  | authenticate (store : LookupFor) (method requestUri authHeader : Text) (waited paused : Nat)

namespace Setup

def call (c : Setup) (s : NonceStore) : Call → NonceStore
  | .issue order nonce waited paused => c.issueNonce order nonce waited paused s
  | .authenticate store method requestUri authHeader waited paused =>
    let (_, table) := Auth.authenticate c.hashHex store c.registrar s.table (s.now + waited)
      (s.now + waited + paused) method requestUri authHeader
    { s with table := table, now := s.now + waited + paused }

/-- A history of calls, from the registrar's first moment. -/
def history (c : Setup) (now : Nat) (calls : List Call) : NonceStore := calls.foldl c.call ⟨∅, 0, now⟩

end Setup

/-- What every history keeps. -/
structure NonceStore.Sound (s : NonceStore) (r : Registrar) : Prop where
  capped : s.table.len ≤ r.maxNonces
  past : ∀ nonce st, s.table.lookup nonce = some st → st.issuedAt ≤ s.now

/-! ### the sweep -/

theorem len_erase_le (table : NonceTable) (k : Text) : KeyMap.len (table.erase k) ≤ table.len :=
  (List.kerase_sublist k table.entries).length_le

/-- What a sweep makes of a table: room, nothing new, and nothing gone that is younger than what is left. -/
structure Swept (r : Registrar) (gcNow : Nat) (before after : NonceTable) : Prop where
  room : after.len < r.maxNonces
  within : KeyMap.Within after before
  oldest : ∀ k st, before.lookup k = some st → after.lookup k = none →
    st.live r.ttl gcNow = false ∨
      ∀ k' st', after.lookup k' = some st' → gcNow - st'.issuedAt ≤ gcNow - st.issuedAt

variable {s : NonceStore}

theorem Claimed.len_le (h : Claimed r now nonce before outcome after) : after.len ≤ before.len := by
  cases h with
  | refused => exact Nat.le_refl _
  | expired => exact len_erase_le before nonce
  | used st nc hlookup => exact Nat.le_of_eq (KeyMap.len_insert_of_some hlookup _)

theorem Claimed.issuedAt (h : Claimed r now nonce before outcome after) {st : NonceState}
    (hk : after.lookup k = some st) : ∃ st', before.lookup k = some st' ∧ st'.issuedAt = st.issuedAt := by
  cases h with
  | refused => exact ⟨st, hk, rfl⟩
  | expired => exact ⟨st, KeyMap.within_erase nonce before k st hk, rfl⟩
  | used used nc hlookup =>
    rw [KeyMap.lookup_insert_apply] at hk
    split at hk
    · next heq =>
      obtain rfl := Option.some.inj hk
      rw [heq]
      refine ⟨used, hlookup, ?_⟩
      cases nc <;> rfl
    · exact ⟨st, hk, rfl⟩

end SmithsNet.Auth
