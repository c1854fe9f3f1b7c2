import SmithsNet.Ice.Steps

/-!
# SmithsNet.Ice.Integrity

What MESSAGE-INTEGRITY protects.  The code covers a datagram up to the
attribute; the decoder reads on behind it.

`reading` is what an agent makes of a datagram that has the attribute and a
right fingerprint.  `handleDatagramAt_of_reading`: two such datagrams that are
the same up to and with the attribute, apart from the length field, do the same
to an agent that reads the same from both.
-/

namespace SmithsNet.Ice

open Lib SmithsNet.Core

/-- The datagrams have their MESSAGE-INTEGRITY attribute at the same place, and
up to its end they differ in the length field only. -/
def SameThroughIntegrity (d d' : Bytes) : Prop :=
  ∃ off, findAttrOffset d ATTR_MESSAGE_INTEGRITY = some off ∧
    findAttrOffset d' ATTR_MESSAGE_INTEGRITY = some off ∧
    off + 4 + INTEGRITY_LEN ≤ d.length ∧ off + 4 + INTEGRITY_LEN ≤ d'.length ∧
    d.take 2 = d'.take 2 ∧ slice d 4 (off + INTEGRITY_LEN) = slice d' 4 (off + INTEGRITY_LEN)

/-! ## what an agent reads -/

/-- What the agents read from a datagram with MESSAGE-INTEGRITY and a right
fingerprint. -/
inductive Reading
  /-- It does not decode, or it is an indication. -/
  | nothing
  /-- A request without USERNAME. -/
  | bare
  /-- A request with a name that no agent has. -/
  | stranger
  | check (username : Text) (controlling controlled : Option UInt64) (priority : UInt32)
      (nominates : Bool)
  | success (mapped : Option SocketAddr)
  /-- The code is 0 but for a role conflict and a rejected credential. -/
  | error (code : UInt16)
  deriving DecidableEq

namespace StunMessage

/-- USE-CANDIDATE is there, and some agent that takes the check is controlled
then: with ICE-CONTROLLED it is not, unless it has just given up its role. -/
def nominates (m : StunMessage) : Bool :=
  m.useCandidate && (m.iceControlled.isNone || m.iceControlling.any fun t => decide (0 < t))

/-- The code of an error, as far as it makes a difference. -/
def rejection (m : StunMessage) : UInt16 :=
  let code := (m.errorCode.map ErrorCode.code).getD 0
  if code = ERR_ROLE_CONFLICT ∨ code = ERR_UNAUTHENTICATED then code else 0

def reading (m : StunMessage) : Reading :=
  match m.kind with
  | .indication => .nothing
  | .request =>
    match m.username with
    | none => .bare
    | some u =>
      if ':' ∈ u then .check u m.iceControlling m.iceControlled (m.priority.getD 0) m.nominates
      else .stranger
  | .successResponse => .success m.xorMappedAddress
  | .errorResponse => .error m.rejection

end StunMessage

def reading (d : Bytes) : Reading :=
  match decode d with
  | .error _ => .nothing
  | .ok msg => msg.reading

theorem reading_of_username {m : StunMessage} {u : Text} (hkind : m.kind = .request)
    (hu : m.username = some u) (hcolon : ':' ∈ u) :
    m.reading = .check u m.iceControlling m.iceControlled (m.priority.getD 0) m.nominates := by
  simp only [StunMessage.reading, hkind, hu, hcolon, if_true]

theorem username_of_check {m : StunMessage} {u : Text} {x y : Option UInt64} {p : UInt32} {b : Bool}
    (h : m.reading = .check u x y p b) :
    m.username = some u ∧ m.iceControlling = x ∧ m.iceControlled = y ∧ m.priority.getD 0 = p ∧
      m.nominates = b := by
  unfold StunMessage.reading at h
  repeat' split at h
  all_goals simp_all

theorem bare_iff {m : StunMessage} (hkind : m.kind = .request) :
    m.reading = .bare ↔ m.username = none := by
  simp only [StunMessage.reading, hkind]
  repeat' split
  all_goals simp_all

theorem kind_of_nothing {m : StunMessage} (h : m.reading = .nothing) : m.kind = .indication := by
  unfold StunMessage.reading at h
  repeat' split at h
  all_goals simp_all

/-! ## decoding -/

variable {raw body d d' : Bytes} {l : List (Except StunError (Nat × Bytes))} {ty off : Nat}
    {attr : Nat × Bytes} {m m' msg msg' : StunMessage}

/-- What reading an attribute leaves as it is. -/
structure StunMessage.Keeps (m m' : StunMessage) : Prop where
  kind : m'.kind = m.kind
  transactionId : m'.transactionId = m.transactionId
  integrity : m.hasMessageIntegrity = true → m'.hasMessageIntegrity = true
  fingerprint : m.hasFingerprint = true → m'.hasFingerprint = true

theorem StunMessage.Keeps.refl (m : StunMessage) : m.Keeps m := ⟨rfl, rfl, id, id⟩

theorem StunMessage.Keeps.trans {m₁ m₂ m₃ : StunMessage} (h : m₁.Keeps m₂) (h' : m₂.Keeps m₃) :
    m₁.Keeps m₃ :=
  ⟨h'.kind.trans h.kind, h'.transactionId.trans h.transactionId,
    fun hm => h'.integrity (h.integrity hm), fun hm => h'.fingerprint (h.fingerprint hm)⟩

theorem keeps_apply (h : m.apply attr = .ok m') : m.Keeps m' := by
  obtain ⟨kind, value⟩ := attr
  unfold StunMessage.apply at h
  dsimp only at h
  by_cases hmapped : kind = ATTR_XOR_MAPPED_ADDRESS
  · rw [if_pos hmapped] at h
    cases hdecode : decodeXorMappedAddress value m.transactionId with
    | error e =>
      rw [hdecode] at h
      contradiction
    | ok addr =>
      rw [hdecode] at h
      cases h
      exact ⟨rfl, rfl, id, id⟩
  rw [if_neg hmapped] at h
  by_cases husername : kind = ATTR_USERNAME
  · rw [if_pos husername] at h
    cases hutf8 : fromUtf8 value with
    | none =>
      rw [hutf8] at h
      contradiction
    | some u =>
      rw [hutf8] at h
      cases h
      exact ⟨rfl, rfl, id, id⟩
  rw [if_neg husername] at h
  -- every other attribute sets one field
  repeat' split at h
  all_goals cases h
  all_goals exact ⟨rfl, rfl, fun h => by first | exact h | rfl, fun h => by first | exact h | rfl⟩

theorem readAttr_eq_ok {x : Except StunError (Nat × Bytes)} (h : readAttr m x = .ok m') :
    ∃ attr, x = .ok attr ∧ m.apply attr = .ok m' := exists_of_bind_eq_ok h

theorem keeps_foldlM (h : l.foldlM readAttr m = .ok m') : m.Keeps m' := by
  induction l generalizing m with
  | nil =>
    obtain rfl := Except.ok.inj h
    exact .refl m
  | cons x l ih =>
    rw [List.foldlM_cons] at h
    obtain ⟨m₁, hread, hrest⟩ := exists_of_bind_eq_ok h
    obtain ⟨attr, -, happly⟩ := readAttr_eq_ok hread
    exact (keeps_apply happly).trans (ih hrest)

/-- Where the decoder gets to the end, it has read every attribute. -/
theorem read_of_mem {x : Except StunError (Nat × Bytes)} (h : l.foldlM readAttr m = .ok m')
    (hx : x ∈ l) : ∃ attr m₁ m₂, x = .ok attr ∧ StunMessage.apply m₁ attr = .ok m₂ ∧
      StunMessage.Keeps m₂ m' := by
  obtain ⟨before, after, rfl⟩ := List.append_of_mem hx
  rw [List.foldlM_append] at h
  obtain ⟨m₁, -, hfold⟩ := exists_of_bind_eq_ok h
  rw [List.foldlM_cons] at hfold
  obtain ⟨m₂, hread, hrest⟩ := exists_of_bind_eq_ok hfold
  obtain ⟨attr, hattr, happly⟩ := readAttr_eq_ok hread
  exact ⟨attr, m₁, m₂, hattr, happly, keeps_foldlM hrest⟩

theorem decode_eq_ok (h : decode raw = .ok msg) :
    ∃ body m, attrBlock raw = some body ∧ (attrs body).foldlM readAttr m = .ok msg ∧
      msg.kind = .fromBits (beNat (slice raw 0 2)) ∧ msg.transactionId.1 = slice raw 8 12 := by
  unfold decode at h
  split at h
  · contradiction
  split at h
  · contradiction
  split at h
  · contradiction
  dsimp only at h
  split at h
  · contradiction
  split at h
  · contradiction
  · next body hbody =>
    have hkeeps := keeps_foldlM h
    exact ⟨body, _, hbody, h, hkeeps.kind, congrArg Subtype.val hkeeps.transactionId⟩

theorem findAttrOffset_eq_some (h : findAttrOffset raw ty = some off) :
    ∃ body m, attrBlock raw = some body ∧ findAttr ty body.length body = some m ∧
      off = HEADER_LEN + m := by
  unfold findAttrOffset at h
  split at h
  · contradiction
  · obtain ⟨body, hbody, hfind⟩ := Option.bind_eq_some_iff.mp h
    obtain ⟨m, hm, rfl⟩ := Option.map_eq_some_iff.mp hfind
    exact ⟨body, m, hbody, hm, rfl⟩

/-- An attribute that the verifiers find is one that the decoder has read. -/
theorem read_of_offset (h : decode raw = .ok msg) (hoff : findAttrOffset raw ty = some off) :
    ∃ v m₁ m₂, StunMessage.apply m₁ (ty, v) = .ok m₂ ∧ StunMessage.Keeps m₂ msg := by
  obtain ⟨body, m, hbody, hfold, -⟩ := decode_eq_ok h
  obtain ⟨body₁, m₁, hbody₁, hm, -⟩ := findAttrOffset_eq_some hoff
  obtain rfl := Option.mem_unique hbody hbody₁
  obtain ⟨v, hv⟩ | ⟨e, he⟩ := mem_attrs_of_findAttr hm
  · obtain ⟨attr, m₁, m₂, hattr, happly, hkeeps⟩ := read_of_mem hfold hv
    obtain rfl := Except.ok.inj hattr
    exact ⟨v, m₁, m₂, happly, hkeeps⟩
  · obtain ⟨attr, m₁, m₂, hattr, -⟩ := read_of_mem hfold he
    contradiction

theorem flags_of_decode {off' : Nat} (h : decode raw = .ok msg)
    (hmi : findAttrOffset raw ATTR_MESSAGE_INTEGRITY = some off)
    (hfp : findAttrOffset raw ATTR_FINGERPRINT = some off') :
    msg.hasMessageIntegrity = true ∧ msg.hasFingerprint = true := by
  obtain ⟨v, m₁, m₂, happly, hkeeps⟩ := read_of_offset h hmi
  obtain ⟨v', m₁', m₂', happly', hkeeps'⟩ := read_of_offset h hfp
  rw [apply_integrity] at happly
  rw [apply_fingerprint] at happly'
  exact ⟨hkeeps.integrity (Except.ok.inj happly ▸ rfl),
    hkeeps'.fingerprint (Except.ok.inj happly' ▸ rfl)⟩

theorem findAttrOffset_of_verifyFingerprint (h : verifyFingerprint raw = true) :
    ∃ off, findAttrOffset raw ATTR_FINGERPRINT = some off ∧ raw.length < HEADER_LEN + 2 ^ 16 := by
  unfold verifyFingerprint at h
  split at h
  · contradiction
  · next off hoff =>
    split at h
    · contradiction
    · next hlast =>
      cases hset : setLength (raw.take off) (off + 8 - HEADER_LEN) with
      | error e =>
        rw [hset] at h
        contradiction
      | ok covered =>
        obtain ⟨hsmall, -⟩ := setLength_eq_ok hset
        exact ⟨off, hoff, by omega⟩

/-! ## what the two datagrams share -/

theorem slice_of_same {n : Nat} (h : slice d 4 n = slice d' 4 n) {j k : Nat} (hjk : j + k ≤ n) :
    slice d (4 + j) k = slice d' (4 + j) k := by
  have := congrArg (fun s => slice s j k) h
  simpa only [slice_slice hjk] using this

namespace SameThroughIntegrity

theorem alike (h : SameThroughIntegrity d d') (hd : decode d = .ok msg)
    (hd' : decode d' = .ok msg') :
    msg.kind = msg'.kind ∧ msg.transactionId = msg'.transactionId := by
  obtain ⟨-, -, -, -, hkind, htid⟩ := decode_eq_ok hd
  obtain ⟨-, -, -, -, hkind', htid'⟩ := decode_eq_ok hd'
  obtain ⟨off, hoff, -, -, -, hfirst, hsame⟩ := h
  obtain ⟨-, m, -, -, rfl⟩ := findAttrOffset_eq_some hoff
  refine ⟨?_, Subtype.ext ?_⟩
  · have htype : slice d 0 2 = slice d' 0 2 := by simpa [slice] using hfirst
    rw [hkind, hkind', htype]
  · rw [htid, htid']
    exact slice_of_same hsame (j := 4) (k := 12) (by simp only [HEADER_LEN, INTEGRITY_LEN]; omega)

theorem verify (h : SameThroughIntegrity d d') (hmac : Hmac) (key : Bytes) :
    verifyMessageIntegrity hmac d key = verifyMessageIntegrity hmac d' key := by
  obtain ⟨off, hoff, hoff', hlen, hlen', hfirst, hsame⟩ := h
  obtain ⟨-, m, -, -, rfl⟩ := findAttrOffset_eq_some hoff
  have hvalue : slice d (HEADER_LEN + m + 4) INTEGRITY_LEN =
      slice d' (HEADER_LEN + m + 4) INTEGRITY_LEN := by
    rw [Nat.add_comm (HEADER_LEN + m) 4]
    exact slice_of_same hsame (Nat.le_refl _)
  have hcovered : ∀ n, setLength (d.take (HEADER_LEN + m)) n =
      setLength (d'.take (HEADER_LEN + m)) n := by
    intro n
    have htwo : min 2 (HEADER_LEN + m) = 2 := by
      simp only [HEADER_LEN]
      omega
    have hrest : (d.take (HEADER_LEN + m)).drop 4 = (d'.take (HEADER_LEN + m)).drop 4 := by
      rw [List.drop_take, List.drop_take]
      exact slice_of_same hsame (j := 0) (k := HEADER_LEN + m - 4) (by omega)
    simp only [setLength, List.take_take, htwo, hfirst, hrest]
  simp only [verifyMessageIntegrity, hoff, hoff', Nat.not_lt.mpr hlen, Nat.not_lt.mpr hlen',
    if_false, hvalue, hcovered]

end SameThroughIntegrity

/-- A message of an agent, as far as its seals go. -/
structure Sealed (d : Bytes) (msg : StunMessage) : Prop where
  decoded : decode d = .ok msg
  fingerprint : verifyFingerprint d = true
  integrity : ∃ off, findAttrOffset d ATTR_MESSAGE_INTEGRITY = some off ∧
    off + 4 + INTEGRITY_LEN ≤ d.length

theorem Sealed.flags (h : Sealed d msg) :
    msg.hasMessageIntegrity = true ∧ msg.hasFingerprint = true := by
  obtain ⟨off, hmi, -⟩ := h.integrity
  obtain ⟨off', hfp, -⟩ := findAttrOffset_of_verifyFingerprint h.fingerprint
  exact flags_of_decode h.decoded hmi hfp

/-- There is a function for which the code is right, under every key. -/
theorem Sealed.exists_hmac (h : Sealed d msg) :
    ∃ hmac : Hmac, ∀ key, verifyMessageIntegrity hmac d key = true := by
  obtain ⟨off, hoff, hlen⟩ := h.integrity
  obtain ⟨-, -, hsmall⟩ := findAttrOffset_of_verifyFingerprint h.fingerprint
  refine ⟨fun _ _ => ⟨slice d (off + 4) INTEGRITY_LEN, length_slice hlen⟩, fun key => ?_⟩
  have hfits : off + 4 + INTEGRITY_LEN - HEADER_LEN < 2 ^ 16 := by omega
  simp only [verifyMessageIntegrity, hoff, Nat.not_lt.mpr hlen, if_false, setLength, hfits, if_true,
    decide_true]

/-! ## the same reading has the same effect -/

namespace IceAgent

variable {hmac : Hmac} {a a₁ : IceAgent} {source localAddr : SocketAddr} {clock : Nat}

/-- What an agent does with a check of its peer. -/
def accept (hmac : Hmac) (a : IceAgent) (msg : StunMessage) (source localAddr : SocketAddr)
    (clock : Nat) : IceAgent × Option Bytes :=
  match a.resolveRole msg with
  | none => (a, errorReply hmac msg ERR_ROLE_CONFLICT "Role Conflict" (some a.localKey))
  | some a => ((a.learnRemotePrflx msg source localAddr).onPair msg source localAddr clock,
      ((StunMessage.newBindingResponse msg source).encodeWith hmac (some a.localKey) true).toOption)

theorem handleRequest_sealed (h : Sealed d msg) :
    a.handleRequest hmac msg d source localAddr clock =
      if msg.username = none then (a, errorReply hmac msg ERR_BAD_REQUEST "Bad Request" none)
      else if msg.username = some a.expectedUsername ∧
          verifyMessageIntegrity hmac d a.localKey = true then
        a.accept hmac msg source localAddr clock
      else (a, errorReply hmac msg ERR_UNAUTHENTICATED "Unauthenticated" none) := by
  obtain ⟨hmi, hfp⟩ := h.flags
  unfold handleRequest authentic accept
  simp only [hmi, hfp, h.fingerprint, Bool.not_true, Bool.or_self, Bool.or_false,
    Bool.false_eq_true, if_false, Option.isNone_iff_eq_none]
  split
  · rfl
  · simp only [Bool.not_eq_true', Bool.and_eq_false_iff, decide_eq_false_iff_not]
    split
    · next hno =>
      rw [if_neg]
      rintro ⟨hu, hright⟩
      obtain hno | hno := hno
      · exact hno hu
      · rw [hright] at hno
        contradiction
    · next hyes =>
      simp only [not_or, not_not, Bool.not_eq_false] at hyes
      exact (if_pos hyes).symm

theorem asks_of_resolveRole (h : a.resolveRole msg = some a₁) :
    a₁.asks msg = (msg.nominates && decide (a₁.role = .controlled)) := by
  unfold resolveRole at h
  unfold asks StunMessage.nominates
  cases hrole : a.role with
  | controlling =>
    cases hcontrolling : msg.iceControlling with
    | none =>
      simp only [hrole, hcontrolling, Option.some.injEq] at h
      subst h
      simp [hrole]
    | some theirs =>
      simp only [hrole, hcontrolling] at h
      split at h
      · contradiction
      · next hless =>
        have hpos : 0 < theirs := by
          rw [UInt64.not_le, UInt64.lt_iff_toNat_lt] at hless
          rw [UInt64.lt_iff_toNat_lt]
          exact Nat.lt_of_le_of_lt (Nat.zero_le _) hless
        simp [hpos]
  | controlled =>
    cases hcontrolled : msg.iceControlled with
    | none => simp
    | some theirs =>
      simp only [hrole, hcontrolled] at h
      split at h
      · obtain rfl := Option.some.inj h
        simp [switchRole]
      · contradiction

theorem role_learnRemotePrflx (a : IceAgent) (msg : StunMessage) (source localAddr : SocketAddr) :
    (a.learnRemotePrflx msg source localAddr).role = a.role := by
  obtain hsame | ⟨there, hgrows, -⟩ := learnRemotePrflx_cases a msg source localAddr
  · rw [hsame]
  · exact hgrows.role

theorem accept_congr (htid : msg.transactionId = msg'.transactionId)
    (hcontrolling : msg.iceControlling = msg'.iceControlling)
    (hcontrolled : msg.iceControlled = msg'.iceControlled)
    (hpriority : msg.priority.getD 0 = msg'.priority.getD 0)
    (hnominates : msg.nominates = msg'.nominates) :
    a.accept hmac msg source localAddr clock = a.accept hmac msg' source localAddr clock := by
  have hrole : a.resolveRole msg = a.resolveRole msg' := by
    simp only [resolveRole, hcontrolling, hcontrolled]
  unfold accept
  rw [hrole]
  cases hres : a.resolveRole msg' with
  | none => simp only [errorReply, StunMessage.newBindingError, htid]
  | some a₁ =>
    have hlearn : a₁.learnRemotePrflx msg source localAddr =
        a₁.learnRemotePrflx msg' source localAddr := by
      simp only [learnRemotePrflx, hpriority]
    have hasks : (a₁.learnRemotePrflx msg' source localAddr).asks msg =
        (a₁.learnRemotePrflx msg' source localAddr).asks msg' := by
      have hboth := (asks_of_resolveRole (hrole.trans hres)).trans
        ((congrArg (· && _) hnominates).trans (asks_of_resolveRole hres).symm)
      simpa only [asks, role_learnRemotePrflx] using hboth
    simp only [hlearn, onPair, noteNomination_eq, hasks, StunMessage.newBindingResponse, htid]

theorem rejection_eq_iff (m : StunMessage) {code : UInt16}
    (h : code = ERR_ROLE_CONFLICT ∨ code = ERR_UNAUTHENTICATED) :
    m.rejection = code ↔ (m.errorCode.map ErrorCode.code).getD 0 = code := by
  have hzero : (0 : UInt16) ≠ code := by obtain rfl | rfl := h <;> decide
  unfold StunMessage.rejection
  dsimp only
  split
  · exact Iff.rfl
  · next hno => exact iff_of_false hzero fun heq => hno (heq ▸ h)

theorem handleError_congr (htid : msg.transactionId = msg'.transactionId)
    (hverify : verifyMessageIntegrity hmac d a.remoteKey = verifyMessageIntegrity hmac d' a.remoteKey)
    (hcode : msg.rejection = msg'.rejection) :
    a.handleError hmac msg d = a.handleError hmac msg' d' := by
  unfold handleError
  rw [htid, hverify]
  simp only [onRejected, ← rejection_eq_iff _ (.inl rfl), ← rejection_eq_iff _ (.inr rfl), hcode]

theorem handleRequest_congr (h : Sealed d msg) (h' : Sealed d' msg') (hkind : msg.kind = .request)
    (hkind' : msg'.kind = .request) (htid : msg.transactionId = msg'.transactionId)
    (hverify : verifyMessageIntegrity hmac d a.localKey = verifyMessageIntegrity hmac d' a.localKey)
    (hread : msg.reading = msg'.reading) :
    a.handleRequest hmac msg d source localAddr clock =
      a.handleRequest hmac msg' d' source localAddr clock := by
  have hreply : ∀ code reason key,
      errorReply hmac msg code reason key = errorReply hmac msg' code reason key := by
    intro code reason key
    simp only [errorReply, StunMessage.newBindingError, htid]
  rw [handleRequest_sealed h, handleRequest_sealed h', hverify]
  simp only [hreply]
  have hcolon : ':' ∈ a.expectedUsername := by simp [expectedUsername]
  by_cases hu : msg.username = some a.expectedUsername
  · have hcheck := hread.symm.trans (reading_of_username hkind hu hcolon)
    obtain ⟨hu', hcontrolling, hcontrolled, hpriority, hnominates⟩ := username_of_check hcheck
    simp only [hu, hu', accept_congr htid hcontrolling.symm hcontrolled.symm hpriority.symm
      hnominates.symm]
  · have hu' : msg'.username ≠ some a.expectedUsername := fun hu' =>
      hu (username_of_check (hread.trans (reading_of_username hkind' hu' hcolon))).1
    have hnone : msg.username = none ↔ msg'.username = none := by
      rw [← bare_iff hkind, hread, bare_iff hkind']
    simp only [hu, hu', false_and, if_false, hnone]

end IceAgent

/-- Whatever state the agent is in, reachable or not. -/
theorem handleDatagramAt_of_reading {hmac : Hmac} {a : IceAgent} {source localAddr : SocketAddr}
    {clock : Nat} (h : SameThroughIntegrity d d') (hs : ∀ msg, decode d = .ok msg → Sealed d msg)
    (hs' : ∀ msg, decode d' = .ok msg → Sealed d' msg) (hread : reading d = reading d') :
    a.handleDatagramAt hmac d source localAddr clock =
      a.handleDatagramAt hmac d' source localAddr clock := by
  have hnothing : ∀ e, reading e = .nothing →
      a.handleDatagramAt hmac e source localAddr clock = (a, none) := by
    intro e he
    unfold IceAgent.handleDatagramAt
    cases hd : decode e with
    | error _ => rfl
    | ok msg =>
      rw [reading, hd] at he
      simp only [kind_of_nothing he]
  by_cases hquiet : reading d = .nothing
  · rw [hnothing d hquiet, hnothing d' (hread ▸ hquiet)]
  · cases hd : decode d with
    | error _ => exact absurd (by simp only [reading, hd]) hquiet
    | ok msg =>
      cases hd' : decode d' with
      | error _ => exact absurd (hread.trans (by simp only [reading, hd'])) hquiet
      | ok msg' =>
        obtain ⟨hkind, htid⟩ := h.alike hd hd'
        have hs := hs msg hd
        have hs' := hs' msg' hd'
        simp only [reading, hd, hd'] at hread
        unfold IceAgent.handleDatagramAt
        rw [hd, hd']
        dsimp only
        rw [← hkind]
        cases hk : msg.kind with
        | indication => rfl
        | request =>
          exact IceAgent.handleRequest_congr hs hs' hk (hkind.symm.trans hk) htid (h.verify hmac _) hread
        | successResponse =>
          have hk' := hkind.symm.trans hk
          simp only [StunMessage.reading, hk, hk', Reading.success.injEq] at hread
          simp only [IceAgent.handleSuccess, htid, hs.fingerprint, hs'.fingerprint, h.verify hmac, hread]
        | errorResponse =>
          have hk' := hkind.symm.trans hk
          simp only [StunMessage.reading, hk, hk', Reading.error.injEq] at hread
          rw [IceAgent.handleError_congr htid (h.verify hmac _) hread]

end SmithsNet.Ice
