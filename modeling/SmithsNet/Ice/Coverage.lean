import SmithsNet.Ice.Integrity

/-!
# SmithsNet.Ice.Coverage

Different readings of two datagrams show: some agent does something else with
the one than with the other.  Agents without candidates show whose checks are
answered, with which role and priority; agents with one pair show nominations;
an agent whose check is under way shows what it reads in a response.

`handleDatagramAt_same_iff`: two datagrams that are the same through their
MESSAGE-INTEGRITY attribute do the same to every agent exactly when the agents
read the same from both.  `useCandidate_after_integrity`: a USE-CANDIDATE
behind it nominates.
-/

namespace SmithsNet.Ice

open Lib SmithsNet.Core IceAgent

variable {d d' : Bytes} {m msg msg' : StunMessage}

/-! ## what is written -/

/-- An attribute that is put behind a buffer, over a length that counts it. -/
theorem seal_of_lt (ty : Nat) (buf : Bytes) {k : Nat} (value : Bytes → Bytes)
    (hvalue : ∀ b, (value b).length = k) (hfour : 4 ≤ buf.length)
    (h : buf.length + 4 + k - HEADER_LEN < 2 ^ 16) (hk : k < 2 ^ 16) :
    ∃ out, (do
        let out ← setLength buf (buf.length + 4 + k - HEADER_LEN)
        let attr ← writeAttr ty (value out)
        return out ++ attr) = Except.ok out ∧ out.length = buf.length + attrSpan k := by
  have hattr : ∀ b, writeAttr ty (value b) = .ok (attrBytes (ty, value b)) :=
    fun b => writeAttr_eq_attrBytes (x := (ty, value b)) (by rw [hvalue]; exact hk)
  let out := patched buf (buf.length + 4 + k - HEADER_LEN)
  refine ⟨out ++ attrBytes (ty, value out), ?_, ?_⟩
  · rw [setLength, if_pos h]
    show (writeAttr ty _ >>= _) = _
    rw [hattr]
    rfl
  · rw [List.length_append, (patched_parts _ hfour).2.2, length_attrBytes, hvalue]

/-- A message that fits is written. -/
theorem exists_encodeWith {hmac : Hmac} {key : Option Bytes}
    (h : (m.attributes.flatMap attrBytes).length + 32 < 2 ^ 16) :
    ∃ out, m.encodeWith hmac key true = .ok out := by
  have hplain : writeAttrs m.attributes = .ok (m.attributes.flatMap attrBytes) :=
    writeAttrs_eq_flatMap fun x hx => length_lt_of_mem hx (by omega)
  have hlength : (m.header ++ m.attributes.flatMap attrBytes).length =
      HEADER_LEN + (m.attributes.flatMap attrBytes).length := length_front m m.attributes
  have hlast : ∀ buf : Bytes, HEADER_LEN ≤ buf.length → buf.length + 8 < HEADER_LEN + 2 ^ 16 →
      ∃ out, (addFingerprint buf >>= fun out => setLength out (out.length - HEADER_LEN)) =
        .ok out := by
    intro buf hlong hfits
    obtain ⟨out, hout, hlength⟩ := seal_of_lt ATTR_FINGERPRINT buf
      (fun out => beBytes 4 (crc32 out ^^^ FINGERPRINT_XOR).toNat) (fun _ => length_beBytes 4 _)
      (by simp only [HEADER_LEN] at hlong; omega) (by omega) (by decide)
    refine ⟨patched out (out.length - HEADER_LEN), ?_⟩
    rw [show addFingerprint buf = .ok out from hout]
    exact if_pos (by rw [hlength, show attrSpan 4 = 8 from rfl]; omega)
  unfold StunMessage.encodeWith
  rw [hplain]
  cases key with
  | none => exact hlast _ (by omega) (by omega)
  | some key =>
    obtain ⟨out, hout, hsealed⟩ := seal_of_lt ATTR_MESSAGE_INTEGRITY
      (m.header ++ m.attributes.flatMap attrBytes) (fun out => (hmac key out).1)
      (fun out => (hmac key out).2) (by rw [hlength, HEADER_LEN]; omega)
      (by rw [hlength, INTEGRITY_LEN]; omega) (by decide)
    rw [show attrSpan INTEGRITY_LEN = 24 from rfl] at hsealed
    obtain ⟨last, hlast⟩ := hlast out (by omega) (by omega)
    refine ⟨last, ?_⟩
    show (addIntegrity hmac key _ >>= _) = _
    rw [show addIntegrity hmac key _ = .ok out from hout]
    exact hlast

/-- The code in a reply. -/
def replyCode (out : Option Bytes) : Option UInt16 :=
  out.bind fun out => (decode out).toOption.bind fun m => m.errorCode.map ErrorCode.code

theorem replyCode_errorReply (hmac : Hmac) (msg : StunMessage) {code : UInt16} {reason : String}
    (hcode : code.toNat < 800) (hreason : (toUtf8 reason.toList).length < 100) :
    replyCode (errorReply hmac msg code reason none) = some code := by
  obtain ⟨out, hout⟩ : ∃ out, (StunMessage.newBindingError msg code reason.toList).encodeWith hmac
      none true = .ok out := by
    apply exists_encodeWith
    simp [StunMessage.attributes, StunMessage.newBindingError, length_attrBytes, errorCodeValue,
      attrSpan, pad4]
    omega
  have hdecode := decode_encodeWith hout (by
    rintro e he
    obtain rfl := Option.some.inj he
    exact hcode)
  rw [replyCode, errorReply, hout]
  show (decode out).toOption.bind _ = _
  rw [hdecode]
  rfl

/-! ## probes -/

variable {hmac : Hmac} {l r : Text} {role : IceRole} {t : UInt64} {a a₁ : IceAgent}

/-- What the agent does with a datagram of its peer. -/
def probe (hmac : Hmac) (a : IceAgent) (d : Bytes) : IceAgent × Option Bytes :=
  a.handleDatagramAt hmac d (sampleAddr 2) (sampleAddr 1) 0

def probeParams (l r : Text) (role : IceRole) (t : UInt64) : IceParams :=
  ⟨String.ofList l, "", String.ofList r, "", role, t⟩

/-- An agent without candidates. -/
def lone (l r : Text) (role : IceRole) (t : UInt64) : IceAgent :=
  .new (probeParams l r role t) [] [] []

/-- An agent with one pair. -/
def paired (l r : Text) (role : IceRole) (t : UInt64) : IceAgent :=
  .new (probeParams l r role t) [sampleCandidate 1 0] [sampleCandidate 2 0] [sampleAddr 1]

theorem reachable_probes (hmac : Hmac) (l r : Text) (role : IceRole) (t : UInt64) :
    (lone l r role t).Reachable hmac ∧ (paired l r role t).Reachable hmac :=
  ⟨⟨_, _, _, _, [], rfl⟩, ⟨_, _, _, _, [], rfl⟩⟩

theorem expectedUsername_probe :
    (lone l r role t).expectedUsername = l ++ ':' :: r ∧
      (paired l r role t).expectedUsername = l ++ ':' :: r := by
  have hname : (probeParams l r role t).localUfrag.toList ++ [':'] ++
      (probeParams l r role t).remoteUfrag.toList = l ++ ':' :: r := by
    simp [probeParams]
  exact ⟨hname, hname⟩

theorem parts_revive (a : IceAgent) : a.revive.remoteCandidates = a.remoteCandidates ∧
    a.revive.role = a.role ∧ a.revive.pairs = a.pairs := by
  obtain hsame | ⟨-, hrevived⟩ := revive_eq a
  · rw [hsame]
    exact ⟨rfl, rfl, rfl⟩
  · rw [hrevived]
    exact ⟨rfl, rfl, rfl⟩

/-- What becomes of an agent that takes a check of its peer. -/
abbrev probed (hmac : Hmac) (a : IceAgent) (msg : StunMessage) : IceAgent :=
  (a.accept hmac msg (sampleAddr 2) (sampleAddr 1) 0).1

theorem probed_lone (hmac : Hmac) (h : (lone l r role t).resolveRole msg = some a₁) :
    (probed hmac (lone l r role t) msg).remoteCandidates.map IceCandidate.priority =
        [msg.priority.getD 0] ∧
      (probed hmac (lone l r role t) msg).role = a₁.role := by
  have hparts : a₁.remoteCandidates = [] ∧ a₁.localCandidates = [] ∧ a₁.pairs = [] := by
    obtain rfl | ⟨-, rfl, -⟩ | ⟨-, rfl, -⟩ := resolveRole_cases h <;> exact ⟨rfl, rfl, rfl⟩
  obtain ⟨hremote, hlocal, hpairs⟩ := hparts
  have hlearn : (a₁.learnRemotePrflx msg (sampleAddr 2) (sampleAddr 1)).pairs = [] ∧
      ((a₁.learnRemotePrflx msg (sampleAddr 2) (sampleAddr 1)).remoteCandidates.map
        IceCandidate.priority) = [msg.priority.getD 0] := by
    simp [learnRemotePrflx, hremote, hlocal, hpairs, addRemoteCandidate, parts_revive]
  simp [probed, accept, h, onPair, findPair, hlearn, role_learnRemotePrflx]

theorem probed_paired (hmac : Hmac) (h : (paired l r role t).resolveRole msg = some a₁) :
    (probed hmac (paired l r role t) msg).pairs.map IcePair.nominateRequested = [a₁.asks msg] := by
  have hparts : a₁.remoteCandidates = [sampleCandidate 2 0] ∧
      ∃ p, a₁.pairs = [p] ∧ p.localAddr = sampleAddr 1 ∧ p.remoteAddr = sampleAddr 2 ∧
        p.state = .waiting ∧ p.nominateRequested = false := by
    obtain rfl | ⟨-, rfl, -⟩ | ⟨-, rfl, -⟩ := resolveRole_cases h <;>
      exact ⟨rfl, _, rfl, rfl, rfl, rfl, rfl⟩
  obtain ⟨hremote, p, hpairs, hlocal, haddr, hstate, hasked⟩ := hparts
  have hlearn : a₁.learnRemotePrflx msg (sampleAddr 2) (sampleAddr 1) = a₁ := by
    simp [learnRemotePrflx, hremote, IceCandidate.addr, sampleCandidate, sampleAddr, SocketAddr.new]
  have hfind : a₁.findPair (sampleAddr 1) (sampleAddr 2) = some 0 := by
    simp [findPair, hpairs, hlocal, haddr]
  simp [probed, accept, h, hlearn, onPair, hfind, noteNomination_eq, trigger, hpairs,
    hstate, hasked, parts_revive]

theorem eq_of_forall_le {α : Type} {x y : Option UInt64} {p q r : α} (hpq : p ≠ q) (hqr : q ≠ r)
    (h : ∀ t, (x.elim p fun s => if s ≤ t then q else r) =
      y.elim p fun s => if s ≤ t then q else r) : x = y := by
  cases x with
  | none =>
    cases y with
    | none => rfl
    | some s => exact absurd ((h s).trans (if_pos (UInt64.le_refl s))) hpq
  | some s =>
    have hs : q = y.elim p fun s' => if s' ≤ s then q else r :=
      (if_pos (UInt64.le_refl s)).symm.trans (h s)
    cases y with
    | none => exact absurd hs.symm hpq
    | some s' =>
      have hs' : (if s ≤ s' then q else r) = q := (h s').trans (if_pos (UInt64.le_refl s'))
      have hle : s' ≤ s := by
        by_contra hnot
        exact hqr (hs.trans (if_neg hnot))
      have hle' : s ≤ s' := by
        by_contra hnot
        rw [if_neg hnot] at hs'
        exact hqr hs'.symm
      rw [UInt64.le_antisymm hle hle']

/-- Its check is under way: the one pair is in progress. -/
structure Pending (tid : TransactionId) (a : IceAgent) (c : PendingCheck) (p : IcePair) : Prop where
  pending : a.pending = [c]
  transactionId : c.transactionId = tid
  pairIdx : c.pairIdx = 0
  pairs : a.pairs = [p]
  here : p.localAddr = sampleAddr 1
  there : p.remoteAddr = sampleAddr 2
  mapped : p.mappedAddress = none
  role : a.role = .controlled

theorem exists_pending (hmac : Hmac) (tid : TransactionId) :
    ∃ a c p, a.Reachable hmac ∧ Pending tid a c p := by
  let start := paired [] [] .controlled 0
  have hretransmit : start.retransmit 0 = (start, []) := rfl
  have hnext : start.nextCheck = (some (0, false), start) := rfl
  have hname : (toUtf8 start.checkUsername).length = 1 := by decide +kernel
  have hsocket : ∀ p ∈ start.pairs, p.localAddr ∈ start.sockets ∧ p.state ≠ .succeeded := by
    decide +kernel
  have hreach : (start.tickAt hmac 0 tid).1.Reachable hmac := ⟨_, _, _, _, [.tick 0 tid], rfl⟩
  obtain ⟨pair, hpair, hhere, hthere, hmapped⟩ : ∃ pair, start.pairs = [pair] ∧
      pair.localAddr = sampleAddr 1 ∧ pair.remoteAddr = sampleAddr 2 ∧ pair.mappedAddress = none :=
    ⟨_, rfl, rfl, rfl, rfl⟩
  have hparts : start.state = .checking ∧ start.role = .controlled ∧ start.pending = [] ∧
      start.paced 0 = true := ⟨rfl, rfl, rfl, rfl⟩
  clear_value start
  obtain ⟨hstate, hrole, hnone, hpaced⟩ := hparts
  rw [hpair] at hsocket
  obtain ⟨hsocket, hfresh⟩ := hsocket pair (List.mem_singleton.mpr rfl)
  obtain ⟨bytes, hbytes⟩ : ∃ bytes, (start.checkMessage pair false tid).encodeWith hmac
      (some start.remoteKey) true = .ok bytes := by
    apply exists_encodeWith
    simp [StunMessage.attributes, checkMessage, hrole, StunMessage.newBindingRequest,
      length_attrBytes, attrSpan, pad4, hname]
  let begun : IceAgent := { start.setPairState 0 .inProgress with
    pending := [start.newCheck 0 pair false 0 tid bytes], lastCheckSent := some 0 }
  have htick : (start.tickAt hmac 0 tid).1 = begun.updateFailure := by
    simp [begun, tickAt, hstate, hretransmit, hpaced, startCheck, hnext, sendCheck, hpair, hsocket,
      hbytes, hfresh, hnone, setPairState]
  obtain ⟨hframe, hpairs, hpending, -⟩ := frame_updateFailure begun
  rw [← htick] at hframe hpairs hpending
  refine ⟨_, _, { pair with state := .inProgress }, hreach, hpending, ?_, rfl, ?_, hhere, hthere,
    hmapped, hframe.role.trans hrole⟩
  · simp [PendingCheck.transactionId, newCheck, checkMessage, hrole, StunMessage.newBindingRequest]
  · rw [hpairs]
    simp [begun, setPairState, hpair]

variable {c : PendingCheck} {p : IcePair}

/-- A response that the check waits for. -/
theorem Pending.taken (h : Pending msg.transactionId a c p) :
    ∃ b : IceAgent, a.takePending msg.transactionId = some (c, b) ∧ b.pending = [] ∧
      b.pairs = [p] ∧ b.role = .controlled := by
  refine ⟨{ a with pending := [] }, ?_, rfl, h.pairs, h.role⟩
  simp [takePending, h.pending, h.transactionId]

theorem Pending.success (h : Pending msg.transactionId a c p) (hs : Sealed d msg)
    (hkind : msg.kind = .successResponse)
    (hverify : ∀ key, verifyMessageIntegrity hmac d key = true) :
    (probe hmac a d).1.pending = [] ∧
      (probe hmac a d).1.pairs.map IcePair.mappedAddress = [msg.xorMappedAddress] := by
  obtain ⟨b, htaken, hnone, hpairs, -⟩ := h.taken
  have hdone : (probe hmac a d).1 =
      (b.noteMapped 0 p msg.xorMappedAddress).concludeCheck c p.nominateRequested 0 := by
    simp [probe, handleDatagramAt, hs.decoded, hkind, handleSuccess, htaken, hs.fingerprint,
      hverify, h.pairs, h.here, h.there, h.pairIdx]
  rw [hdone]
  have hnoted : (b.noteMapped 0 p msg.xorMappedAddress).pending = [] ∧
      ∃ p', (b.noteMapped 0 p msg.xorMappedAddress).pairs = [p'] ∧
        p'.mappedAddress = msg.xorMappedAddress := by
    cases msg.xorMappedAddress with
    | none => exact ⟨hnone, p, hpairs, h.mapped⟩
    | some addr =>
      refine ⟨?_, { p with mappedAddress := some addr }, ?_, rfl⟩ <;>
        simp only [noteMapped, learnLocalPrflx] <;> split <;> simp [hnone, hpairs]
  generalize b.noteMapped 0 p msg.xorMappedAddress = b' at *
  obtain ⟨hpending, p', hpairs', hmapped⟩ := hnoted
  unfold concludeCheck nominate
  simp only [h.pairIdx, setPairState, hpairs', List.modify_zero_cons]
  repeat' split
  all_goals simp [hpending, hmapped]

theorem Pending.error (h : Pending msg.transactionId a c p) (hs : Sealed d msg)
    (hkind : msg.kind = .errorResponse)
    (hverify : ∀ key, verifyMessageIntegrity hmac d key = true) :
    (probe hmac a d).1.pending = [] ∧
      (if (probe hmac a d).1.role = .controlling then ERR_ROLE_CONFLICT
        else if (probe hmac a d).1.pairs.map IcePair.authFailed = [true]
        then ERR_UNAUTHENTICATED else 0) = msg.rejection := by
  obtain ⟨b, htaken, hnone, hpairs, hrole⟩ := h.taken
  have hdone : (probe hmac a d).1 =
      if (msg.errorCode.map ErrorCode.code).getD 0 = ERR_ROLE_CONFLICT then b.onRoleConflict c
      else b.onRejected c ((msg.errorCode.map ErrorCode.code).getD 0) := by
    simp [probe, handleDatagramAt, hs.decoded, hkind, handleError, htaken, hverify]
  rw [hdone, StunMessage.rejection]
  generalize (msg.errorCode.map ErrorCode.code).getD 0 = code
  have hne : ERR_ROLE_CONFLICT ≠ ERR_UNAUTHENTICATED := by decide
  split
  · next hcode =>
    have hswitched : (b.onRoleConflict c).role = .controlling := by
      show otherRole b.role = .controlling
      rw [hrole]
      rfl
    exact ⟨hnone, by simp [hswitched, hcode]⟩
  · next hcode =>
    obtain ⟨hframe, hsame, hpending, -⟩ := frame_ended { b with
      pairs := b.pairs.modify c.pairIdx fun p =>
        { p with state := .failed, authFailed := decide (code = ERR_UNAUTHENTICATED) } } c
    have hauth : (b.onRejected c code).pairs.map IcePair.authFailed =
        [decide (code = ERR_UNAUTHENTICATED)] := by
      refine (congrArg _ hsame).trans ?_
      simp [hpairs, h.pairIdx]
    rw [show (b.onRejected c code).role = .controlled from hframe.role.trans hrole, hauth]
    refine ⟨hpending.trans hnone, ?_⟩
    by_cases hcode' : code = ERR_UNAUTHENTICATED <;> simp [hcode, hcode', hne.symm]

theorem probe_accept (h : Sealed d msg) (hkind : msg.kind = .request)
    (hu : msg.username = some a.expectedUsername)
    (hverify : ∀ key, verifyMessageIntegrity hmac d key = true) :
    probe hmac a d = a.accept hmac msg (sampleAddr 2) (sampleAddr 1) 0 := by
  unfold probe handleDatagramAt
  rw [h.decoded]
  simp only [hkind, handleRequest_sealed h, hu, reduceCtorEq, if_false, hverify, and_self, if_true]

theorem probe_refuse (hmac : Hmac) (h : Sealed d msg) (hkind : msg.kind = .request)
    (hu : msg.username ≠ some a.expectedUsername) :
    (probe hmac a d).1 = a ∧ replyCode (probe hmac a d).2 =
      some (if msg.username = none then ERR_BAD_REQUEST else ERR_UNAUTHENTICATED) := by
  unfold probe handleDatagramAt
  rw [h.decoded]
  simp only [hkind, handleRequest_sealed h, hu, false_and, if_false]
  split
  · exact ⟨rfl, replyCode_errorReply hmac msg (by decide) (by decide +kernel)⟩
  · exact ⟨rfl, replyCode_errorReply hmac msg (by decide) (by decide +kernel)⟩

/-- What shows of the role that an agent without candidates comes to. -/
theorem observe_lone (hmac : Hmac) (msg : StunMessage) (role : IceRole) (t : UInt64) :
    ((probed hmac (lone l r role t) msg).remoteCandidates.length,
        (probed hmac (lone l r role t) msg).role) =
      ((lone l r role t).resolveRole msg).elim (0, role) fun a => (1, a.role) := by
  cases hres : (lone l r role t).resolveRole msg with
  | none =>
    rw [probed, accept, hres]
    rfl
  | some a₁ =>
    obtain ⟨hpriority, hrole⟩ := probed_lone hmac hres
    have hlength := congrArg List.length hpriority
    rw [List.length_map] at hlength
    rw [hlength, hrole]
    rfl

/-- The role attribute that an agent in the role compares with its own. -/
def claim (msg : StunMessage) : IceRole → Option UInt64
  | .controlling => msg.iceControlling
  | .controlled => msg.iceControlled

theorem resolveRole_lone (msg : StunMessage) (role : IceRole) (t : UInt64) :
    ((lone l r role t).resolveRole msg).elim (0, role) (fun a => (1, a.role)) =
      (claim msg role).elim (1, role) fun theirs =>
        if theirs ≤ t then (if role = .controlling then 0 else 1, .controlling)
        else (if role = .controlled then 0 else 1, .controlled) := by
  unfold resolveRole claim
  cases role with
  | controlling =>
    cases msg.iceControlling with
    | none => rfl
    | some theirs =>
      show Option.elim (if theirs ≤ t then _ else _) _ _ = _
      split <;> simp [*, switchRole]
  | controlled =>
    cases msg.iceControlled with
    | none => rfl
    | some theirs =>
      show Option.elim (if theirs ≤ t then _ else _) _ _ = _
      split <;> simp [*, switchRole]

theorem exists_resolves (l r : Text) (msg : StunMessage) :
    ∃ a, (lone l r .controlled (msg.iceControlled.getD 0)).resolveRole msg = some a := by
  unfold resolveRole
  cases msg.iceControlled with
  | none => exact ⟨_, rfl⟩
  | some theirs => exact ⟨_, if_pos (UInt64.le_refl theirs)⟩

/-- What a check asks for shows in what the agents with its names do. -/
theorem reading_of_probed (hmac : Hmac) (hname : msg.username = some (l ++ ':' :: r))
    (hname' : msg'.username = some (l ++ ':' :: r)) (hkind : msg.kind = .request)
    (hkind' : msg'.kind = .request)
    (hsame : ∀ a, a.Reachable hmac → a.expectedUsername = l ++ ':' :: r →
      probed hmac a msg = probed hmac a msg') :
    msg.reading = msg'.reading := by
  have hlone := fun role t =>
    hsame (lone l r role t) (reachable_probes hmac l r role t).1 expectedUsername_probe.1
  have hpaired := fun role t =>
    hsame (paired l r role t) (reachable_probes hmac l r role t).2 expectedUsername_probe.2
  have hclaim : ∀ role, claim msg role = claim msg' role := by
    intro role
    refine eq_of_forall_le (p := (1, role))
      (q := (if role = .controlling then 0 else 1, .controlling))
      (r := (if role = .controlled then 0 else 1, .controlled)) ?_ ?_ fun t => ?_
    · cases role <;> decide
    · cases role <;> decide
    · rw [← resolveRole_lone (l := l) (r := r), ← observe_lone hmac, hlone, observe_lone,
        resolveRole_lone]
  have hcontrolling : msg.iceControlling = msg'.iceControlling := hclaim .controlling
  have hcontrolled : msg.iceControlled = msg'.iceControlled := hclaim .controlled
  have hresolve : ∀ a : IceAgent, a.resolveRole msg = a.resolveRole msg' := by
    intro a
    simp only [resolveRole, hcontrolling, hcontrolled]
  have hpriority : msg.priority.getD 0 = msg'.priority.getD 0 := by
    obtain ⟨a₁, ha₁⟩ := exists_resolves l r msg
    have hlearnt := (probed_lone hmac ha₁).1
    rw [hlone, (probed_lone hmac ((hresolve _).symm.trans ha₁)).1] at hlearnt
    exact (List.singleton_inj.mp hlearnt).symm
  have hasks : ∀ role t a₁, (paired l r role t).resolveRole msg = some a₁ → a₁.role = .controlled →
      msg.nominates = msg'.nominates := by
    intro role t a₁ ha₁ hrole
    have ha₁' := (hresolve _).symm.trans ha₁
    have hasked := probed_paired hmac ha₁
    rw [hpaired, probed_paired hmac ha₁', asks_of_resolveRole ha₁, asks_of_resolveRole ha₁',
      hrole] at hasked
    simpa using hasked.symm
  have hnominates : msg.nominates = msg'.nominates := by
    cases htheirs : msg.iceControlled with
    | none => exact hasks .controlled 0 _ (by unfold resolveRole; rw [htheirs]; rfl) rfl
    | some _ =>
      by_cases hpos : ∃ theirs ∈ msg.iceControlling, 0 < theirs
      · obtain ⟨theirs, hcontrol, hpos⟩ := hpos
        refine hasks .controlling 0 ((paired l r .controlling 0).switchRole .controlled) ?_ rfl
        unfold resolveRole
        rw [hcontrol]
        exact if_neg (UInt64.not_le.mpr hpos)
      · -- no agent that takes the check is controlled then
        have hidle : (msg.iceControlling.any fun t => decide (0 < t)) = false := by
          cases hcontrol : msg.iceControlling with
          | none => rfl
          | some theirs => exact decide_eq_false fun hless => hpos ⟨theirs, hcontrol, hless⟩
        simp [StunMessage.nominates, ← hcontrolling, ← hcontrolled, htheirs, hidle]
  rw [reading_of_username hkind hname (by simp), reading_of_username hkind' hname' (by simp),
    hcontrolling, hcontrolled, hpriority, hnominates]

theorem reading_of_sealed (h : Sealed d msg) : reading d = msg.reading := by
  unfold reading
  rw [h.decoded]

/-- What the readings of requests look like from outside. -/
theorem request_cases (h : Sealed d msg) (hkind : msg.kind = .request) :
    (reading d = .bare ∧ ∀ hmac a, (probe hmac a d).1 = a ∧
        replyCode (probe hmac a d).2 = some ERR_BAD_REQUEST) ∨
      (reading d = .stranger ∧ ∀ hmac a, (probe hmac a d).1 = a ∧
        replyCode (probe hmac a d).2 = some ERR_UNAUTHENTICATED) ∨
      ∃ l r, msg.username = some (l ++ ':' :: r) := by
  rw [reading_of_sealed h]
  cases hu : msg.username with
  | none =>
    refine .inl ⟨(bare_iff hkind).mpr hu, fun hmac a => ?_⟩
    have hrefuse := probe_refuse hmac (a := a) h hkind (by rw [hu]; simp)
    rwa [if_pos hu] at hrefuse
  | some u =>
    by_cases hcolon : ':' ∈ u
    · obtain ⟨l, r, rfl⟩ := List.append_of_mem hcolon
      exact .inr (.inr ⟨l, r, rfl⟩)
    · refine .inr (.inl ⟨by simp only [StunMessage.reading, hkind, hu, hcolon, if_false],
        fun hmac a => ?_⟩)
      have hexpected : ':' ∈ a.expectedUsername := by simp [expectedUsername]
      have hrefuse := probe_refuse hmac (a := a) h hkind (by
        rw [hu]
        rintro hname
        exact hcolon (Option.some.inj hname ▸ hexpected))
      rwa [if_neg (by rw [hu]; simp)] at hrefuse

/-- Some agent with its names learns the source of a check. -/
theorem exists_learns (h : Sealed d msg) (hkind : msg.kind = .request)
    (hu : msg.username = some (l ++ ':' :: r)) :
    ∃ hmac, (∀ key, verifyMessageIntegrity hmac d key = true) ∧
      ∃ t, (probe hmac (lone l r .controlled t) d).1.remoteCandidates ≠ [] := by
  obtain ⟨hmac, hverify⟩ := h.exists_hmac
  refine ⟨hmac, hverify, msg.iceControlled.getD 0, ?_⟩
  obtain ⟨a₁, ha₁⟩ := exists_resolves l r msg
  rw [probe_accept h hkind (by rw [hu, expectedUsername_probe.1]) hverify]
  intro hnone
  have hlearnt := (probed_lone hmac ha₁).1
  rw [hnone] at hlearnt
  contradiction

/-- A message that no agent takes notice of says nothing. -/
theorem reading_of_silent (h : Sealed d msg)
    (hsilent : ∀ hmac a, a.Reachable hmac → probe hmac a d = (a, none)) : reading d = .nothing := by
  have hreply : ∀ hmac, replyCode (probe hmac (lone [] [] .controlled 0) d).2 = none := by
    intro hmac
    rw [hsilent hmac _ (reachable_probes hmac _ _ _ _).1]
    rfl
  obtain ⟨hmac, hverify⟩ := h.exists_hmac
  obtain ⟨a, c, p, hreach, hpending⟩ := exists_pending hmac msg.transactionId
  have hkept : (probe hmac a d).1.pending ≠ [] := by
    rw [hsilent hmac a hreach, hpending.pending]
    simp
  cases hkind : msg.kind with
  | indication =>
    rw [reading_of_sealed h]
    simp only [StunMessage.reading, hkind]
  | request =>
    obtain ⟨-, hbare⟩ | ⟨-, hstranger⟩ | ⟨l, r, hu⟩ := request_cases h hkind
    · have hcode := (hbare hmac (lone [] [] .controlled 0)).2
      rw [hreply] at hcode
      contradiction
    · have hcode := (hstranger hmac (lone [] [] .controlled 0)).2
      rw [hreply] at hcode
      contradiction
    · obtain ⟨hmac, -, t, hlearns⟩ := exists_learns h hkind hu
      rw [hsilent hmac _ (reachable_probes hmac _ _ _ _).1] at hlearns
      exact absurd rfl hlearns
  | successResponse => exact absurd (hpending.success h hkind hverify).1 hkept
  | errorResponse => exact absurd (hpending.error h hkind hverify).1 hkept

/-- A check is told from a request that no agent takes. -/
theorem false_of_check (h : Sealed d msg) (hkind : msg.kind = .request)
    (hu : msg.username = some (l ++ ':' :: r)) (hkept : ∀ hmac a, (probe hmac a d').1 = a)
    (hsame : ∀ hmac a, a.Reachable hmac → probe hmac a d = probe hmac a d') : False := by
  obtain ⟨hmac, -, t, hlearns⟩ := exists_learns h hkind hu
  rw [hsame hmac _ (reachable_probes hmac _ _ _ _).1, hkept] at hlearns
  exact absurd rfl hlearns

/-- Where every agent does the same with two checks, the same is read from both. -/
theorem reading_of_checks (h : Sealed d msg) (h' : Sealed d' msg') (hkind : msg.kind = .request)
    (hkind' : msg'.kind = .request) (hu : msg.username = some (l ++ ':' :: r))
    (hverify : ∀ hmac key, verifyMessageIntegrity hmac d key = verifyMessageIntegrity hmac d' key)
    (hsame : ∀ hmac a, a.Reachable hmac → probe hmac a d = probe hmac a d') :
    reading d = reading d' := by
  obtain ⟨hmac, hright, t, hlearns⟩ := exists_learns h hkind hu
  have hright' : ∀ key, verifyMessageIntegrity hmac d' key = true :=
    fun key => hverify hmac key ▸ hright key
  have hu' : msg'.username = some (l ++ ':' :: r) := by
    by_contra hother
    have hkept := (probe_refuse hmac (a := lone l r .controlled t) h' hkind' (by
      rw [expectedUsername_probe.1]
      exact hother)).1
    rw [hsame hmac _ (reachable_probes hmac _ _ _ _).1, hkept] at hlearns
    exact absurd rfl hlearns
  rw [reading_of_sealed h, reading_of_sealed h']
  refine reading_of_probed hmac hu hu' hkind hkind' fun a hreach hname => ?_
  have heffect := hsame hmac a hreach
  rw [probe_accept h hkind (by rw [hu, hname]) hright,
    probe_accept h' hkind' (by rw [hu', hname]) hright'] at heffect
  rw [probed, heffect]

/-- Where every agent does the same with both, the same is read from both. -/
theorem reading_of_same (h : Sealed d msg) (h' : Sealed d' msg') (hkind : msg.kind = msg'.kind)
    (htid : msg.transactionId = msg'.transactionId)
    (hverify : ∀ hmac key, verifyMessageIntegrity hmac d key = verifyMessageIntegrity hmac d' key)
    (hsame : ∀ hmac a, a.Reachable hmac → probe hmac a d = probe hmac a d') :
    reading d = reading d' := by
  obtain ⟨hmac, hright⟩ := h.exists_hmac
  have hright' : ∀ key, verifyMessageIntegrity hmac d' key = true :=
    fun key => hverify hmac key ▸ hright key
  obtain ⟨a, c, p, hreach, hpending⟩ := exists_pending hmac msg.transactionId
  have hpending' := htid ▸ hpending
  cases hk : msg.kind with
  | indication =>
    have hk' := hkind.symm.trans hk
    rw [reading_of_sealed h, reading_of_sealed h']
    simp only [StunMessage.reading, hk, hk']
  | successResponse =>
    have hk' := hkind.symm.trans hk
    have hmapped := (hpending.success h hk hright).2
    rw [hsame hmac a hreach, (hpending'.success h' hk' hright').2] at hmapped
    rw [reading_of_sealed h, reading_of_sealed h']
    simp only [StunMessage.reading, hk, hk', List.singleton_inj.mp hmapped]
  | errorResponse =>
    have hk' := hkind.symm.trans hk
    have hcode := (hpending.error h hk hright).2
    rw [hsame hmac a hreach, (hpending'.error h' hk' hright').2] at hcode
    rw [reading_of_sealed h, reading_of_sealed h']
    simp only [StunMessage.reading, hk, hk', hcode]
  | request =>
    have hk' := hkind.symm.trans hk
    have hsame' : ∀ hmac a, a.Reachable hmac → probe hmac a d' = probe hmac a d :=
      fun hmac a hreach => (hsame hmac a hreach).symm
    have hreply := congrArg (fun r => replyCode r.2) (hsame hmac a hreach)
    obtain ⟨hread, hbare⟩ | ⟨hread, hstranger⟩ | ⟨l, r, hu⟩ := request_cases h hk
    · obtain ⟨hread', -⟩ | ⟨-, hstranger'⟩ | ⟨l', r', hu'⟩ := request_cases h' hk'
      · rw [hread, hread']
      · rw [(hbare hmac a).2, (hstranger' hmac a).2] at hreply
        contradiction
      · exact (false_of_check h' hk' hu' (fun hmac a => (hbare hmac a).1) hsame').elim
    · obtain ⟨-, hbare'⟩ | ⟨hread', -⟩ | ⟨l', r', hu'⟩ := request_cases h' hk'
      · rw [(hstranger hmac a).2, (hbare' hmac a).2] at hreply
        contradiction
      · rw [hread, hread']
      · exact (false_of_check h' hk' hu' (fun hmac a => (hstranger hmac a).1) hsame').elim
    · exact reading_of_checks h h' hk hk' hu hverify hsame

/-! ## the result -/

/-- **What integrity covers.**  Two datagrams that are the same through their
MESSAGE-INTEGRITY attribute and pass the fingerprint check lead every agent, in
every state it can get to, to the same state and the same reply exactly when the
agents read the same from both. -/
theorem handleDatagramAt_same_iff (d d' : Bytes) (h : SameThroughIntegrity d d')
    (hfp : verifyFingerprint d = true) (hfp' : verifyFingerprint d' = true) :
    (∀ (hmac : Hmac) (a : IceAgent), a.Reachable hmac →
      ∀ (source localAddr : SocketAddr) (clock : Nat),
        a.handleDatagramAt hmac d source localAddr clock =
          a.handleDatagramAt hmac d' source localAddr clock) ↔ reading d = reading d' := by
  have hsealed : ∀ msg, decode d = .ok msg → Sealed d msg := fun msg hd => by
    obtain ⟨off, hoff, -, hlen, -⟩ := h
    exact ⟨hd, hfp, off, hoff, hlen⟩
  have hsealed' : ∀ msg, decode d' = .ok msg → Sealed d' msg := fun msg hd => by
    obtain ⟨off, -, hoff, -, hlen, -⟩ := h
    exact ⟨hd, hfp', off, hoff, hlen⟩
  constructor
  · intro hsame
    have hprobe : ∀ hmac a, a.Reachable hmac → probe hmac a d = probe hmac a d' :=
      fun hmac a hreach => hsame hmac a hreach _ _ _
    cases hd : decode d with
    | error e =>
      have hquiet : ∀ hmac a, probe hmac a d = (a, none) := by
        intro hmac a
        simp only [probe, handleDatagramAt, hd]
      have hread : reading d = .nothing := by simp only [reading, hd]
      rw [hread]
      cases hd' : decode d' with
      | error e' => simp only [reading, hd']
      | ok msg' =>
        exact (reading_of_silent (hsealed' msg' hd') fun hmac a hreach =>
          (hprobe hmac a hreach).symm.trans (hquiet hmac a)).symm
    | ok msg =>
      cases hd' : decode d' with
      | error e' =>
        have hread : reading d' = .nothing := by simp only [reading, hd']
        rw [hread]
        refine reading_of_silent (hsealed msg hd) fun hmac a hreach => ?_
        rw [hprobe hmac a hreach]
        simp only [probe, handleDatagramAt, hd']
      | ok msg' =>
        obtain ⟨hkind, htid⟩ := h.alike hd hd'
        exact reading_of_same (hsealed msg hd) (hsealed' msg' hd') hkind htid h.verify hprobe
  · intro hread hmac a _ source localAddr clock
    exact handleDatagramAt_of_reading h hsealed hsealed' hread

/-- A check of the peer, with more attributes behind MESSAGE-INTEGRITY. -/
def sampleSealed (extra : List (Nat × Bytes)) : Bytes :=
  let m : StunMessage := { StunMessage.newBindingRequest (sampleTid 9) with
    username := some "a:b".toList, priority := some 7, iceControlling := some 3 }
  let sealed : Except StunError Bytes := do
    let attrs ← writeAttrs m.attributes
    let out ← addIntegrity sampleHmac (toUtf8 "pa".toList) (m.header ++ attrs)
    let extra ← writeAttrs extra
    addFingerprint (out ++ extra)
  sealed.toOption.getD []

theorem sameThroughIntegrity_sampleSealed :
    SameThroughIntegrity (sampleSealed []) (sampleSealed [(ATTR_USE_CANDIDATE, [])]) ∧
      SameThroughIntegrity (sampleSealed []) (sampleSealed [(0x7FFF, [1])]) :=
  ⟨⟨48, by decide +kernel⟩, ⟨48, by decide +kernel⟩⟩

/-- An unknown attribute behind it changes nothing: the check is answered and
its pair's own check triggered. -/
theorem handleDatagramAt_unknown_attribute :
    ((sampleAgent .controlled).handleDatagramAt sampleHmac (sampleSealed [(0x7FFF, [1])])
        (sampleAddr 2) (sampleAddr 1) 0).1.triggered = [(0, false)] ∧
      (sampleAgent .controlled).handleDatagramAt sampleHmac (sampleSealed []) (sampleAddr 2)
          (sampleAddr 1) 0 =
        (sampleAgent .controlled).handleDatagramAt sampleHmac (sampleSealed [(0x7FFF, [1])])
          (sampleAddr 2) (sampleAddr 1) 0 :=
  ⟨by decide +kernel,
    (handleDatagramAt_same_iff _ _ sameThroughIntegrity_sampleSealed.2 (by decide +kernel)
      (by decide +kernel)).mpr (by decide +kernel) sampleHmac (sampleAgent .controlled)
      ⟨_, _, _, _, [], rfl⟩ (sampleAddr 2) (sampleAddr 1) 0⟩

/-- USE-CANDIDATE behind it asks for the nomination of the pair. -/
theorem useCandidate_after_integrity :
    ¬ ∀ (hmac : Hmac) (a : IceAgent) (d d' : Bytes) (source localAddr : SocketAddr) (clock : Nat),
      a.Reachable hmac → SameThroughIntegrity d d' → verifyFingerprint d = true →
      verifyFingerprint d' = true →
      a.handleDatagramAt hmac d source localAddr clock =
        a.handleDatagramAt hmac d' source localAddr clock := by
  intro h
  have hequal := h sampleHmac (sampleAgent .controlled) (sampleSealed [])
    (sampleSealed [(ATTR_USE_CANDIDATE, [])]) (sampleAddr 2) (sampleAddr 1) 0
    ⟨_, _, _, _, [], rfl⟩ sameThroughIntegrity_sampleSealed.1 (by decide +kernel)
    (by decide +kernel)
  have hasked := congrArg (fun r => r.1.pairs.map IcePair.nominateRequested) hequal
  revert hasked
  decide +kernel

end SmithsNet.Ice
