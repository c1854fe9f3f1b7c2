import SmithsNet.Auth.Registrar
import SmithsNet.Lib.Tasks

/-!
# SmithsNet.Auth.Replay

The registrar under concurrency: any number of `authenticate` calls, each cut
at its await (the credential lookup) and at every lock it takes, any number of
`issue_nonce` calls with the garbage collection they carry, cut at every shard
lock, and a clock that may move between any two steps.

Main result: `digest_admits_no_replay`.
-/

namespace SmithsNet.Auth

open Lib

/-! ## the concurrent registrar -/

/-- A registrar, its hash functions and the shards of its table. -/
structure Setup where
  registrar : Registrar
  hashHex : HashHex
  epoch : Nat
  shards : Nat
  shardOf : Text → Nat

/-- A header and what was read from it. -/
structure Checked where
  header : Text
  params : AuthParams
  parsed : parseAuthorization header = some params

/-- Shared state.  `issued` and `accepted` are logs, in order. -/
structure Shared where
  now : Nat
  table : NonceTable
  lastGcMs : Nat
  issued : List Text
  accepted : List Checked

/-- A freshly built registrar. -/
def Shared.new (now : Nat) : Shared := ⟨now, ∅, 0, [], []⟩

/-- Where a running call stands. -/
inductive Task
  /-- `authenticate`, not yet started. -/
  | authenticate (method requestUri header : Text)
  /-- Waiting for the credential store. -/
  | lookup (method : Text) (c : Checked) (alg : Algorithm)
  /-- About to verify and to claim the nonce. -/
  | finish (method : Text) (c : Checked) (alg : Algorithm) (creds : Credentials)
  /-- The claim found the nonce expired; its removal is pending. -/
  | dropExpired (nonce : Text)
  /-- `issue_nonce`, with the nonce drawn. -/
  | issue (nonce : Text)
  /-- `maybe_gc` started at `gcNow`, `sum` entries counted in the first shards. -/
  | count (nonce : Text) (gcNow shard sum : Nat)
  /-- A sweep is due. -/
  | mark (nonce : Text) (gcNow : Nat)
  /-- The first shards are swept. -/
  | sweep (nonce : Text) (gcNow shard : Nat)
  /-- Counting again after the sweep. -/
  | recount (nonce : Text) (gcNow shard sum : Nat)
  /-- Still full: collecting ages. -/
  | collect (nonce : Text) (gcNow shard : Nat) (ages : List (Nat × Text))
  /-- Evicting the oldest, one at a time. -/
  | evict (nonce : Text) (keys : List Text)
  /-- Garbage collection is over; the time of issue is read next. -/
  | stamp (nonce : Text)
  /-- About to insert the nonce. -/
  | insert (nonce : Text) (issuedAt : Nat)

namespace Setup

/-- Milliseconds since the table was built. -/
def millis (c : Setup) (now : Nat) : Nat := min ((now - c.epoch) / 1000000) (2 ^ 64 - 1)

/-- Pause between two sweeps: the nonce lifetime, at most a second. -/
def gcInterval (c : Setup) : Nat := min c.registrar.ttl 1000000000 / 1000000

/-- Entries of one shard. -/
def shard (c : Setup) (table : NonceTable) (i : Nat) : NonceTable :=
  table.retain fun k _ => c.shardOf k == i

/-- Drop the expired entries of one shard. -/
def sweepShard (c : Setup) (table : NonceTable) (gcNow i : Nat) : NonceTable :=
  table.retain fun k st => c.shardOf k != i || st.live c.registrar.ttl gcNow

/-- Age and key of every entry of one shard. -/
def ages (c : Setup) (table : NonceTable) (gcNow i : Nat) : List (Nat × Text) :=
  (c.shard table i).entries.map fun e => (gcNow - e.2.issuedAt, e.1)

/-- Atomic moves. -/
inductive Move (c : Setup) : Shared → Task → Shared → Option Task → Prop
  | precheckOk {s method requestUri header params alg}
      (h : precheck c.registrar s.table s.now requestUri header = .ok (params, alg)) :
      Move c s (.authenticate method requestUri header) s
        (some (.lookup method ⟨header, params, parseAuthorization_of_precheck h⟩ alg))
  | precheckErr {s method requestUri header e}
      (h : precheck c.registrar s.table s.now requestUri header = .error e) :
      Move c s (.authenticate method requestUri header) s none
  | lookupFound {s method ch alg} (creds : Credentials) :
      Move c s (.lookup method ch alg) s (some (.finish method ch alg creds))
  -- unknown user, or the backend failed
  | lookupFailed {s method ch alg} : Move c s (.lookup method ch alg) s none
  | badResponse {s method ch alg creds}
      (h : verify c.hashHex alg method ch.params creds = false) :
      Move c s (.finish method ch alg creds) s none
  | claimAccepted {s method ch alg creds table'}
      (hv : verify c.hashHex alg method ch.params creds = true)
      (h : claimLocked c.registrar s.table s.now ch.params.nonce (nonceCount ch.params) =
        (.accepted, table')) :
      Move c s (.finish method ch alg creds)
        { s with table := table', accepted := s.accepted ++ [ch] } none
  | claimRefused {s method ch alg creds e table'}
      (hv : verify c.hashHex alg method ch.params creds = true)
      (h : claimLocked c.registrar s.table s.now ch.params.nonce (nonceCount ch.params) =
        (.refused e, table')) :
      Move c s (.finish method ch alg creds) { s with table := table' } none
  | claimExpired {s method ch alg creds table'}
      (hv : verify c.hashHex alg method ch.params creds = true)
      (h : claimLocked c.registrar s.table s.now ch.params.nonce (nonceCount ch.params) =
        (.expired, table')) :
      Move c s (.finish method ch alg creds) { s with table := table' }
        (some (.dropExpired ch.params.nonce))
  | dropExpired {s nonce} :
      Move c s (.dropExpired nonce) { s with table := s.table.erase nonce } none
  | gcStart {s nonce} : Move c s (.issue nonce) s (some (.count nonce s.now 0 0))
  | gcCount {s nonce gcNow i sum} (hi : i < c.shards) :
      Move c s (.count nonce gcNow i sum) s
        (some (.count nonce gcNow (i + 1) (sum + (c.shard s.table i).len)))
  | gcDecide {s nonce gcNow sum} :
      Move c s (.count nonce gcNow c.shards sum) s
        (some (if c.registrar.maxNonces ≤ sum ∨ c.gcInterval ≤ c.millis gcNow - s.lastGcMs
          then .mark nonce gcNow else .stamp nonce))
  | gcMark {s nonce gcNow} :
      Move c s (.mark nonce gcNow) { s with lastGcMs := c.millis gcNow }
        (some (.sweep nonce gcNow 0))
  | gcSweep {s nonce gcNow i} (hi : i < c.shards) :
      Move c s (.sweep nonce gcNow i) { s with table := c.sweepShard s.table gcNow i }
        (some (.sweep nonce gcNow (i + 1)))
  | gcSwept {s nonce gcNow} :
      Move c s (.sweep nonce gcNow c.shards) s (some (.recount nonce gcNow 0 0))
  | gcRecount {s nonce gcNow i sum} (hi : i < c.shards) :
      Move c s (.recount nonce gcNow i sum) s
        (some (.recount nonce gcNow (i + 1) (sum + (c.shard s.table i).len)))
  | gcRecounted {s nonce gcNow sum} :
      Move c s (.recount nonce gcNow c.shards sum) s
        (some (if sum < c.registrar.maxNonces then .stamp nonce else .collect nonce gcNow 0 []))
  | gcCollect {s nonce gcNow i as} (hi : i < c.shards) :
      Move c s (.collect nonce gcNow i as) s
        (some (.collect nonce gcNow (i + 1) (as ++ c.ages s.table gcNow i)))
  -- the unstable sort may order equal ages in any way
  | gcCollected {s nonce gcNow as} (sorted : List (Nat × Text)) (hp : sorted.Perm as)
      (hs : sorted.Pairwise fun a b => b.1 ≤ a.1) :
      Move c s (.collect nonce gcNow c.shards as) s
        (some (.evict nonce ((sorted.take (max (as.length / 10) 1)).map Prod.snd)))
  | gcEvict {s nonce k ks} :
      Move c s (.evict nonce (k :: ks)) { s with table := s.table.erase k }
        (some (.evict nonce ks))
  | gcEvicted {s nonce} : Move c s (.evict nonce []) s (some (.stamp nonce))
  | stamp {s nonce} : Move c s (.stamp nonce) s (some (.insert nonce s.now))
  | insert {s nonce issuedAt} :
      Move c s (.insert nonce issuedAt)
        { s with
          table := s.table.insert nonce (.fresh issuedAt)
          issued := s.issued ++ [nonce] } none

/-- The registrar as a concurrent program: requests and challenges start at
any time, and the clock moves at any time. -/
def program (c : Setup) : Program Shared Task where
  start t := (∃ method requestUri header, t = .authenticate method requestUri header) ∨
    ∃ nonce, t = .issue nonce
  env s s' := ∃ now', s.now ≤ now' ∧ s' = { s with now := now' }
  move := c.Move

end Setup

/-! ## what a move can do to the table and the logs -/

variable {b a : Checked} {st : NonceState} {t' : Option Task} {c : Setup} {s s' : Shared} {t : Task}

/-- A move only removes entries, or accepts one request by marking its entry,
or inserts one nonce. -/
theorem Setup.Move.effect (h : c.Move s t s' t') :
    (KeyMap.Within s'.table s.table ∧ s'.issued = s.issued ∧ s'.accepted = s.accepted) ∨
    (∃ ch st, s.table.lookup ch.params.nonce = some st ∧
      st.replays (nonceCount ch.params) = false ∧
      s'.table = s.table.insert ch.params.nonce (st.use (nonceCount ch.params)) ∧
      s'.issued = s.issued ∧ s'.accepted = s.accepted ++ [ch]) ∨
    (∃ nonce issuedAt, s'.table = s.table.insert nonce (.fresh issuedAt) ∧
      s'.issued = s.issued ++ [nonce] ∧ s'.accepted = s.accepted) := by
  cases h with
  | @claimAccepted _ ch _ _ table' hv h =>
    obtain ⟨st, hl, hr, ht⟩ := claimLocked_accepted h
    exact Or.inr (Or.inl ⟨ch, st, hl, hr, ht, rfl, rfl⟩)
  | claimRefused hv h =>
    have ht := claimLocked_not_accepted h (by simp)
    exact Or.inl ⟨ht ▸ KeyMap.Within.refl _, rfl, rfl⟩
  | claimExpired hv h =>
    have ht := claimLocked_not_accepted h (by simp)
    exact Or.inl ⟨ht ▸ KeyMap.Within.refl _, rfl, rfl⟩
  | dropExpired | gcEvict => exact Or.inl ⟨KeyMap.within_erase _ _, rfl, rfl⟩
  | gcSweep hi => exact Or.inl ⟨KeyMap.within_retain _ _, rfl, rfl⟩
  | insert => exact Or.inr (Or.inr ⟨_, _, rfl, rfl, rfl⟩)
  | _ => exact Or.inl ⟨KeyMap.Within.refl _, rfl, rfl⟩

/-! ## one nonce's history -/

theorem NonceState.replays_use_self (st : NonceState) (nc : Option Nat) :
    (st.use nc).replays nc = true := by
  cases nc <;> simp [use, replays]

theorem NonceState.replays_use {nc nc' : Option Nat}
    (hnew : st.replays nc = false) (hold : st.replays nc' = true) :
    (st.use nc).replays nc' = true := by
  cases nc with
  | none => cases nc' <;> simp_all [use, replays]
  | some n =>
    cases nc' with
    | none => simpa [use, replays] using hold
    | some n' =>
      simp only [replays, decide_eq_true_eq, decide_eq_false_iff_not] at hnew hold
      show decide (n' ≤ n) = true
      rw [decide_eq_true_eq]
      omega

/-- `b` may be accepted after `a`: on one nonce, counts increase and at most
one of them goes without a count. -/
def Later (a b : Checked) : Prop :=
  a.params.nonce = b.params.nonce →
    (∀ x y, nonceCount a.params = some x → nonceCount b.params = some y → x < y) ∧
      ¬ (nonceCount a.params = none ∧ nonceCount b.params = none)

/-- A request that is a replay in the state where another is not came before
it. -/
theorem later_of_replays (ha : st.replays (nonceCount a.params) = true)
    (hb : st.replays (nonceCount b.params) = false) : Later a b := by
  intro _
  constructor
  · intro x y hx hy
    rw [hx] at ha
    rw [hy] at hb
    simp only [NonceState.replays, decide_eq_true_eq, decide_eq_false_iff_not] at ha hb
    omega
  · rintro ⟨hx, hy⟩
    rw [hx] at ha
    rw [hy] at hb
    simp only [NonceState.replays] at ha hb
    rw [ha] at hb
    contradiction

/-! ## the invariant -/

/-- What the table remembers about the accepted requests. -/
structure Remembers (s : Shared) : Prop where
  later : s.accepted.Pairwise Later
  /-- Only issued nonces have entries. -/
  known : ∀ k st, s.table.lookup k = some st → k ∈ s.issued
  /-- Only issued nonces were accepted. -/
  spent : ∀ a ∈ s.accepted, a.params.nonce ∈ s.issued
  /-- An entry makes a replay of every accepted request on its nonce. -/
  covers : ∀ k st, s.table.lookup k = some st → ∀ a ∈ s.accepted, a.params.nonce = k →
    st.replays (nonceCount a.params) = true

/-- Losing entries forgets nothing that matters: a nonce without an entry is
never accepted again. -/
theorem Remembers.within (h : Remembers s)
    (ht : KeyMap.Within s'.table s.table) (hi : s'.issued = s.issued)
    (ha : s'.accepted = s.accepted) : Remembers s' := by
  refine ⟨?_, ?_, ?_, ?_⟩
  · rw [ha]
    exact h.later
  · intro k st hl
    rw [hi]
    exact h.known k st (ht k st hl)
  · rw [ha, hi]
    exact h.spent
  · intro k st hl
    rw [ha]
    exact h.covers k st (ht k st hl)

theorem Remembers.accept {ch : Checked} (h : Remembers s)
    (hl : s.table.lookup ch.params.nonce = some st) (hr : st.replays (nonceCount ch.params) = false)
    (ht : s'.table = s.table.insert ch.params.nonce (st.use (nonceCount ch.params)))
    (hi : s'.issued = s.issued) (ha : s'.accepted = s.accepted ++ [ch]) : Remembers s' := by
  refine ⟨?_, ?_, ?_, ?_⟩
  · rw [ha, List.pairwise_append]
    refine ⟨h.later, List.pairwise_singleton _ _, fun a hmem b hb => ?_⟩
    rw [List.mem_singleton] at hb
    subst hb
    intro hn
    exact later_of_replays (h.covers _ st hl a hmem hn) hr hn
  · intro k st' hk
    rw [ht] at hk
    rw [hi]
    by_cases hkn : k = ch.params.nonce
    · rw [hkn]
      exact h.known _ st hl
    · rw [AList.lookup_insert_ne hkn] at hk
      exact h.known k st' hk
  · intro a hmem
    rw [ha, List.mem_append, List.mem_singleton] at hmem
    rw [hi]
    obtain hmem | rfl := hmem
    · exact h.spent a hmem
    · exact h.known _ st hl
  · intro k st' hk a hmem hn
    rw [ht] at hk
    rw [ha, List.mem_append, List.mem_singleton] at hmem
    by_cases hkn : k = ch.params.nonce
    · rw [hkn, AList.lookup_insert, Option.some.injEq] at hk
      rw [← hk]
      obtain hmem | rfl := hmem
      · exact NonceState.replays_use hr (h.covers _ st hl a hmem (hn.trans hkn))
      · exact NonceState.replays_use_self st _
    · rw [AList.lookup_insert_ne hkn] at hk
      obtain hmem | rfl := hmem
      · exact h.covers k st' hk a hmem hn
      · exact absurd hn.symm hkn

/-- Registering a nonce never issued before: nothing was accepted on it. -/
theorem Remembers.issue {nonce : Text} (h : Remembers s)
    (hnew : nonce ∉ s.issued) (ht : s'.table = s.table.insert nonce st)
    (hi : s'.issued = s.issued ++ [nonce]) (ha : s'.accepted = s.accepted) : Remembers s' := by
  refine ⟨?_, ?_, ?_, ?_⟩
  · rw [ha]
    exact h.later
  · intro k st' hk
    rw [ht] at hk
    rw [hi, List.mem_append, List.mem_singleton]
    by_cases hkn : k = nonce
    · exact Or.inr hkn
    · rw [AList.lookup_insert_ne hkn] at hk
      exact Or.inl (h.known k st' hk)
  · intro a hmem
    rw [ha] at hmem
    rw [hi]
    exact List.mem_append_left _ (h.spent a hmem)
  · intro k st' hk a hmem hn
    rw [ht] at hk
    rw [ha] at hmem
    by_cases hkn : k = nonce
    · rw [hkn] at hn
      exact absurd (hn ▸ h.spent a hmem) hnew
    · rw [AList.lookup_insert_ne hkn] at hk
      exact h.covers k st' hk a hmem hn

/-- One move keeps the invariant, as long as no nonce is issued twice. -/
theorem Remembers.move (h : s.issued.Nodup → Remembers s) (hm : c.Move s t s' t') :
    s'.issued.Nodup → Remembers s' := by
  intro hnd
  obtain ⟨ht, hi, ha⟩ | ⟨ch, st, hl, hr, ht, hi, ha⟩ | ⟨nonce, issuedAt, ht, hi, ha⟩ := hm.effect
  · rw [hi] at hnd
    exact (h hnd).within ht hi ha
  · rw [hi] at hnd
    exact (h hnd).accept hl hr ht hi ha
  · rw [hi, List.nodup_append] at hnd
    obtain ⟨hold, -, hdisj⟩ := hnd
    exact (h hold).issue (fun hmem => hdisj _ hmem _ (List.mem_singleton_self _) rfl) ht hi ha

/-- Every run keeps the invariant, as long as no nonce is issued twice. -/
theorem remembers_run (c : Setup) (now : Nat) {w : World Shared Task}
    (hrun : c.program.Run (Program.idle (.new now)) w) (hissued : w.shared.issued.Nodup) :
    Remembers w.shared := by
  refine c.program.invariant_of_moves (I := fun s => s.issued.Nodup → Remembers s) ?_ ?_ hrun ?_
    hissued
  · rintro s s' h ⟨now', -, rfl⟩ hnd
    exact (h hnd).within (KeyMap.Within.refl _) rfl rfl
  · intro s t s' t' h hm
    exact Remembers.move h hm
  · intro _
    constructor <;> simp [Program.idle, Shared.new]

/-! ## no replay -/

/-- No replay in a log of accepted requests. -/
structure NoReplay (log : List Checked) : Prop where
  /-- For each nonce, the accepted counts increase strictly. -/
  counts : ∀ nonce, ((log.filter fun a => a.params.nonce = nonce).filterMap
    fun a => nonceCount a.params).Pairwise (· < ·)
  /-- For each nonce, at most one request without a count was accepted. -/
  single : ∀ nonce, (log.filter fun a =>
    a.params.nonce = nonce ∧ nonceCount a.params = none).length ≤ 1
  /-- No header was accepted twice. -/
  headers : (log.map Checked.header).Nodup

theorem Checked.params_eq (h : a.header = b.header) : a.params = b.params := by
  have hb := b.parsed
  rw [← h, a.parsed] at hb
  exact Option.some.inj hb

/-- A log in which every request comes later than those before it has no
replay. -/
theorem noReplay_of_later {log : List Checked} (h : log.Pairwise Later) : NoReplay log := by
  refine ⟨fun nonce => ?_, fun nonce => ?_, ?_⟩
  · rw [List.pairwise_filterMap]
    refine List.Pairwise.imp_of_mem ?_ (h.filter _)
    intro a b ha hb hlater x hx y hy
    have han : a.params.nonce = nonce := by simpa using (List.mem_filter.mp ha).2
    have hbn : b.params.nonce = nonce := by simpa using (List.mem_filter.mp hb).2
    exact (hlater (han.trans hbn.symm)).1 x y hx hy
  · have hf := h.filter fun a => a.params.nonce = nonce ∧ nonceCount a.params = none
    cases hl : log.filter fun a => a.params.nonce = nonce ∧ nonceCount a.params = none with
    | nil => simp
    | cons a rest =>
      cases rest with
      | nil => simp
      | cons b rest =>
        exfalso
        have hmem : ∀ x ∈ [a, b], x.params.nonce = nonce ∧ nonceCount x.params = none := by
          intro x hx
          have hx' : x ∈ log.filter fun a =>
              a.params.nonce = nonce ∧ nonceCount a.params = none := by
            rw [hl]
            simp only [List.mem_cons, List.not_mem_nil, or_false] at hx ⊢
            tauto
          simpa using (List.mem_filter.mp hx').2
        obtain ⟨han, hac⟩ := hmem a (by simp)
        obtain ⟨hbn, hbc⟩ := hmem b (by simp)
        rw [hl] at hf
        have hab := List.rel_of_pairwise_cons hf (List.mem_cons_self)
        exact (hab (han.trans hbn.symm)).2 ⟨hac, hbc⟩
  · rw [List.nodup_iff_pairwise_ne, List.pairwise_map]
    refine h.imp fun {a b} hlater heq => ?_
    have hp := Checked.params_eq heq
    obtain ⟨hlt, hnone⟩ := hlater (by rw [hp])
    cases hc : nonceCount b.params with
    | none => exact hnone ⟨by rw [hp]; exact hc, hc⟩
    | some x => exact absurd (hlt x x (by rw [hp]; exact hc) hc) (Nat.lt_irrefl x)

/-- **Digest authentication admits no replay**: for every interleaving of
requests, challenges and garbage collection in which no nonce is issued twice,
the requests accepted so far contain no replay. -/
theorem digest_admits_no_replay (c : Setup) (now : Nat) (w : World Shared Task)
    (hrun : c.program.Run (Program.idle (.new now)) w) (hissued : w.shared.issued.Nodup) :
    NoReplay w.shared.accepted :=
  noReplay_of_later (remembers_run c now hrun hissued).later

/-- The MD5 digests that two exchanges of `alice` need. -/
def aliceHash : HashHex := fun _ input =>
  if input = toUtf8 "alice:r:pw".toList then "ab3fa3c991764b61d9f39c0217daf918".toList
  else if input = toUtf8 "REGISTER:sip:r".toList then "669b23f34a926df7cf4c74a53375a761".toList
  else if toUtf8 "00000001".toList <:+: input then "382c132e587eb96626676fb6a7ab68ae".toList
  else "72d0ea16e3700c2497731a842b4a7f01".toList

/-- A registrar with a one-shard table. -/
def aliceSetup : Setup where
  registrar := ⟨"r".toList, 300000000000, 100000⟩
  hashHex := aliceHash
  epoch := 0
  shards := 1
  shardOf := fun _ => 0

/-- The nonce of the challenge. -/
def aliceNonce : Text := "0123456789abcdef0123456789abcdef".toList

/-- A nonce count and the response that goes with it. -/
def aliceFirst : Text × Text := ("00000001".toList, "382c132e587eb96626676fb6a7ab68ae".toList)

def aliceSecond : Text × Text := ("00000002".toList, "72d0ea16e3700c2497731a842b4a7f01".toList)

/-- What `alice` answers to the challenge. -/
def aliceHeader (a : Text × Text) : Text :=
  "Digest username=\"alice\", realm=\"r\", nonce=\"".toList ++ aliceNonce ++
    "\", uri=\"sip:r\", algorithm=MD5, qop=auth, cnonce=\"c\", nc=".toList ++ a.1 ++
    ", response=\"".toList ++ a.2 ++ "\"".toList

/-- What the registrar reads from the header. -/
def aliceParams (a : Text × Text) : AuthParams where
  username := "alice".toList
  realm := "r".toList
  nonce := aliceNonce
  uri := "sip:r".toList
  response := a.2
  algorithm := some "MD5".toList
  qop := some "auth".toList
  nc := some a.1
  cnonce := some "c".toList

/-- What the credential store knows about `alice`. -/
def aliceCreds : Credentials := ⟨"alice".toList, "r".toList, "pw".toList, none⟩

/-- The nonce table when `n` has been counted. -/
def aliceTable (n : Nat) : NonceTable :=
  AList.insert aliceNonce ⟨0, n, false⟩ ∅

def aliceShared (n : Nat) (accepted : List Checked) : Shared :=
  ⟨0, aliceTable n, 0, [aliceNonce], accepted⟩

section

variable {n : Nat} {a : Text × Text} (ha : n = 0 ∧ a = aliceFirst ∨ n = 1 ∧ a = aliceSecond)

include ha

theorem precheck_alice : precheck aliceSetup.registrar (aliceTable n) 0 "sip:r".toList
    (aliceHeader a) = .ok (aliceParams a, .md5) := by
  obtain ⟨rfl, rfl⟩ | ⟨rfl, rfl⟩ := ha <;> decide +kernel

theorem verify_alice :
    verify aliceHash .md5 "REGISTER".toList (aliceParams a) aliceCreds = true := by
  obtain ⟨-, rfl⟩ | ⟨-, rfl⟩ := ha <;> decide +kernel

/-- The exchange with the count after `n`. -/
theorem alice_accepted (accepted : List Checked) :
    ∃ c : Checked, c.header = aliceHeader a ∧ aliceSetup.program.Run
      (Program.idle (aliceShared n accepted))
        (Program.idle (aliceShared (n + 1) (accepted ++ [c]))) := by
  have hclaim : claimLocked aliceSetup.registrar (aliceTable n) 0 aliceNonce
      (nonceCount (aliceParams a)) = (.accepted, aliceTable (n + 1)) := by
    have hnc : nonceCount (aliceParams a) = some (n + 1) := by
      obtain ⟨rfl, rfl⟩ | ⟨rfl, rfl⟩ := ha <;> decide +kernel
    rw [hnc]
    obtain ⟨rfl, -⟩ | ⟨rfl, -⟩ := ha <;> rfl
  have hmove := @Setup.Move.claimAccepted aliceSetup (aliceShared n accepted) _
    ⟨aliceHeader a, aliceParams a, parseAuthorization_of_precheck (precheck_alice ha)⟩ _ _ _
      (verify_alice ha) hclaim
  exact ⟨_, rfl, aliceSetup.program.run_alone (Or.inl ⟨_, _, _, rfl⟩)
    (.more (.precheckOk (precheck_alice ha)) (.more (.lookupFound aliceCreds) (.last hmove)))⟩

end

/-- A challenge, a request, the same again, which is refused, and one that counts on. -/
theorem digest_admits_no_replay_alice :
    ∃ w, aliceSetup.program.Run (Program.idle (.new 0)) w ∧ w.shared.issued.Nodup ∧
      w.shared.accepted.map Checked.header = [aliceHeader aliceFirst, aliceHeader aliceSecond] ∧
      NoReplay w.shared.accepted := by
  have hissue : aliceSetup.program.Alone (.new 0) (.issue aliceNonce) (aliceShared 0 []) :=
    .more .gcStart (.more (.gcCount (by decide)) (.more .gcDecide (.more .stamp (.last .insert))))
  have hreplayed : precheck aliceSetup.registrar (aliceTable 1) 0 "sip:r".toList
      (aliceHeader aliceFirst) = .error .nonceReplayed := by decide +kernel
  obtain ⟨c, hc, hfirst⟩ := alice_accepted (.inl ⟨rfl, rfl⟩) []
  have hagain : aliceSetup.program.Alone (aliceShared 1 [c])
      (.authenticate "REGISTER".toList "sip:r".toList (aliceHeader aliceFirst))
      (aliceShared 1 [c]) :=
    .last (.precheckErr hreplayed)
  obtain ⟨d, hd, hsecond⟩ := alice_accepted (.inr ⟨rfl, rfl⟩) [c]
  have hrun := ((aliceSetup.program.run_alone (Or.inr ⟨_, rfl⟩) hissue).trans hfirst).trans
    ((aliceSetup.program.run_alone (Or.inl ⟨_, _, _, rfl⟩) hagain).trans hsecond)
  have hnodup : [aliceNonce].Nodup := List.nodup_singleton _
  exact ⟨_, hrun, hnodup, by simp [Program.idle, aliceShared, hc, hd],
    digest_admits_no_replay aliceSetup 0 _ hrun hnodup⟩

end SmithsNet.Auth
