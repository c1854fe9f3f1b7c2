import SmithsNet.Auth.Digest
import SmithsNet.Lib.KeyMap

/-!
# SmithsNet.Auth.Registrar

The stateful half of digest authentication: the nonce table and the three
pieces `authenticate` is made of — `precheck` (everything decided before the
credential store is asked), `finish` (the digest comparison) and `claim_nonce`
(the atomic use of the nonce).  Time is in nanoseconds; a duration between two
instants saturates at zero, as `Instant::duration_since` does.
-/

namespace SmithsNet.Auth

open Lib

/-- Replay state of one nonce. -/
structure NonceState where
  issuedAt : Nat
  /-- Highest count accepted so far; 0: none yet. -/
  lastNc : Nat
  usedWithoutQop : Bool

/-- The nonce table. -/
abbrev NonceTable := KeyMap Text NonceState

/-- What a registrar is configured with. -/
structure Registrar where
  realm : Text
  ttl : Nat
  maxNonces : Nat

/-- The state a nonce is registered with. -/
def NonceState.fresh (issuedAt : Nat) : NonceState := ⟨issuedAt, 0, false⟩

/-- A nonce is still live at `now`. -/
def NonceState.live (st : NonceState) (ttl now : Nat) : Bool := decide (now - st.issuedAt ≤ ttl)

/-- The request re-uses a count or a spent nonce. -/
def NonceState.replays (st : NonceState) : Option Nat → Bool
  | some nc => decide (nc ≤ st.lastNc)
  | none => st.usedWithoutQop

/-- The state after a request was accepted. -/
def NonceState.use (st : NonceState) : Option Nat → NonceState
  | some nc => { st with lastNc := nc }
  | none => { st with usedWithoutQop := true }

/-- Header shape, realm, algorithm, URI and the cheap replay rejections. -/
def precheck (r : Registrar) (table : NonceTable) (now : Nat) (requestUri authHeader : Text) :
    Except AuthError (AuthParams × Algorithm) :=
  match parseAuthorization authHeader with
  | none => .error .missing
  | some params =>
    if params.realm ≠ r.realm then .error .wrongRealm
    else
      match Algorithm.parse (params.algorithm.getD []) with
      | none => .error .unsupportedAlgorithm
      | some alg =>
        if !uriOk params.uri requestUri then .error .uriMismatch
        else
          match table.lookup params.nonce with
          | some st =>
            if st.live r.ttl now && st.replays (nonceCount params) then .error .nonceReplayed
            else .ok (params, alg)
          | none => .ok (params, alg)

/-- The digest the client sent is the expected one. -/
def verify (hashHex : HashHex) (alg : Algorithm) (method : Text) (params : AuthParams)
    (creds : Credentials) : Bool :=
  constantTimeEq (toUtf8 (expectedResponse hashHex alg method params creds))
    (toUtf8 params.response)

/-- How the critical section of `claim_nonce` ends. -/
inductive Claim
  | accepted
  | refused (e : AuthError)
  /-- The nonce has expired; its entry is removed after the lock is dropped. -/
  | expired

/-- The critical section of `claim_nonce`: under the entry's lock. -/
def claimLocked (r : Registrar) (table : NonceTable) (now : Nat) (nonce : Text)
    (nc : Option Nat) : Claim × NonceTable :=
  match table.lookup nonce with
  | none => (.refused .staleNonce, table)
  | some st =>
    if !st.live r.ttl now then (.expired, table)
    else if st.replays nc then (.refused .nonceReplayed, table)
    else (.accepted, table.insert nonce (st.use nc))

variable {now : Nat} {table table' : NonceTable} {nc : Option Nat} {r : Registrar} {nonce : Text}

theorem parseAuthorization_of_precheck
    {requestUri authHeader : Text} {params : AuthParams} {alg : Algorithm}
    (h : precheck r table now requestUri authHeader = .ok (params, alg)) :
    parseAuthorization authHeader = some params := by
  unfold precheck at h
  cases hp : parseAuthorization authHeader with
  | none => simp [hp] at h
  | some p =>
    rw [hp] at h
    simp only at h
    repeat' split at h
    all_goals simp_all

theorem claimLocked_accepted (h : claimLocked r table now nonce nc = (.accepted, table')) :
    ∃ st, table.lookup nonce = some st ∧ st.replays nc = false ∧
      table' = table.insert nonce (st.use nc) := by
  unfold claimLocked at h
  cases hl : table.lookup nonce with
  | none => simp [hl] at h
  | some st =>
    simp only [hl] at h
    split at h
    · simp at h
    · split at h
      · simp at h
      · next hr =>
        simp only [Prod.mk.injEq, true_and] at h
        exact ⟨st, rfl, by simpa using hr, h.symm⟩

theorem claimLocked_not_accepted {c : Claim}
    (h : claimLocked r table now nonce nc = (c, table')) (hc : c ≠ .accepted) : table' = table := by
  unfold claimLocked at h
  repeat' split at h
  all_goals simp_all

end SmithsNet.Auth
