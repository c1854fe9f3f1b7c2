import Mathlib
import SmithsNet.Ice.Integrity
import SmithsNet.Ice.TurnPermissions

/-!
# SmithsNet.Ice.TurnIntegrity

What MESSAGE-INTEGRITY protects of a TURN request.  The code covers the request
up to the attribute; the handlers look for their attributes in all of it.

`dispatch_same_iff`: two requests that are the same up to and with their
MESSAGE-INTEGRITY attribute, apart from the length field, do the same to every
server exactly when their handler reads the same from both.
`peer_after_integrity`: a peer address behind it is permitted.
-/

namespace SmithsNet.Ice.Turn

open Lib SmithsNet.Core ParsedStun
open Option (bind_some isNone_eq_false_iff map_eq_some_iff map_some)
open TurnServer

/-- Where the header says that the message ends. -/
def announcedEnd (d : Bytes) : Nat := HEADER_LEN + beNat (slice d 2 2)

/-- The requests have their MESSAGE-INTEGRITY attribute at the same place, and
up to its end they differ in the length field only. -/
def SameThroughIntegrity (d d' : Bytes) : Prop :=
  ∃ off len, findAttrOffset d ATTR_MESSAGE_INTEGRITY = some off ∧
    findAttrOffset d' ATTR_MESSAGE_INTEGRITY = some off ∧ beNat (slice d (off + 2) 2) = len ∧
    off + 4 + len ≤ announcedEnd d ∧ off + 4 + len ≤ announcedEnd d' ∧
    d.take 2 = d'.take 2 ∧ slice d 4 (off + len) = slice d' 4 (off + len)

/-! ## what a handler reads -/

/-- What a request asks for, once its sender is known. -/
inductive Payload
  | lifetime (seconds : Nat)
  | peers (ips : Finset IpAddr)
  | binding (b : Option (UInt16 × SocketAddr))
  deriving DecidableEq

/-- What a handler reads from a request with MESSAGE-INTEGRITY. -/
inductive Reading
  /-- A method the server does not know. -/
  | unknown
  /-- Not a transport it has. -/
  | transport
  /-- USERNAME, REALM or NONCE is not there. -/
  | incomplete
  /-- The attribute does not have the length of a code, so no user is asked for. -/
  | unsigned (realm nonce : Text)
  | signed (username realm nonce : Text) (payload : Payload)
  deriving DecidableEq

namespace ParsedStun

def payload (msg : ParsedStun) : Payload :=
  if msg.method = METHOD_CREATE_PERMISSION then
    .peers ((peersOf msg).map SocketAddr.ip).toFinset
  else if msg.method = METHOD_CHANNEL_BIND then .binding (bindingOf msg)
  else .lifetime (requestedLifetime msg)

/-- The method is one of the four requests. -/
def known (msg : ParsedStun) : Prop :=
  msg.method = METHOD_ALLOCATE ∨ msg.method = METHOD_REFRESH ∨ msg.method = METHOD_CREATE_PERMISSION ∨
    msg.method = METHOD_CHANNEL_BIND

instance (msg : ParsedStun) : Decidable msg.known := inferInstanceAs (Decidable (_ ∨ _))

def reading (msg : ParsedStun) : Reading :=
  if ¬ msg.known then .unknown
  else if msg.method = METHOD_ALLOCATE ∧ transportOk msg = false then .transport
  else
    match credentialsOf msg with
    | none => .incomplete
    | some (username, realm, nonce) =>
      if (sealOf msg.raw).isSome then .signed username realm nonce msg.payload
      else .unsigned realm nonce

end ParsedStun

/-! ## what the two requests share -/

variable {d d' : Bytes} {i m : Nat} {msg msg' : ParsedStun}

theorem ParsedStun.parse_eq_some (h : parse d = some msg) :
    HEADER_LEN ≤ d.length ∧ beNat (slice d 4 4) = MAGIC_COOKIE ∧ announcedEnd d ≤ d.length ∧
      msg.method = methodBits (beNat (slice d 0 2)) ∧ msg.kind = classBits (beNat (slice d 0 2)) ∧
      msg.txid.1 = slice d 8 12 ∧ msg.raw = d.take (announcedEnd d) ∧
      msg.body = slice d HEADER_LEN (beNat (slice d 2 2)) := by
  unfold parse at h
  split at h
  · contradiction
  · next hlen =>
    split at h
    · contradiction
    · next hcookie =>
      dsimp only at h
      split at h
      · contradiction
      · next hfits =>
        obtain rfl := Option.some.inj h
        exact ⟨Nat.le_of_not_lt hlen, Decidable.not_not.mp hcookie, Nat.le_of_not_lt hfits, rfl, rfl,
          rfl, rfl, rfl⟩

theorem attrIter_eq_filterMap (fuel : Nat) (body : Bytes) :
    ParsedStun.attrIter fuel body = (Ice.attrIter fuel body).filterMap Except.toOption := by
  induction fuel generalizing body with
  | zero => rfl
  | succ fuel ih =>
    simp only [ParsedStun.attrIter, Ice.attrIter]
    split
    · rfl
    · split
      · rfl
      · simp [ih, Except.toOption]

theorem iterAttrs_eq (msg : ParsedStun) :
    msg.iterAttrs = (attrs msg.body).filterMap Except.toOption := attrIter_eq_filterMap _ _

/-- The parts of two requests that are the same. -/
structure Alike (msg msg' : ParsedStun) : Prop where
  method : msg.method = msg'.method
  kind : msg.kind = msg'.kind
  txid : msg.txid = msg'.txid
  integrity : (msg.attr ATTR_MESSAGE_INTEGRITY).isSome ∧ (msg'.attr ATTR_MESSAGE_INTEGRITY).isSome
  sealed : sealOf msg.raw = sealOf msg'.raw

theorem slice_raw {e k : Nat} (h : i + k ≤ e) : slice (d.take e) i k = slice d i k := by
  have := slice_slice (s := d) (i := 0) (k := e) h
  simpa [slice] using this

theorem ParsedStun.parse_raw (h : parse d = some msg) :
    parse msg.raw = some msg := by
  obtain ⟨hlen, hcookie, hfits, hmethod, hkind, htxid, hraw, hbody⟩ := parse_eq_some h
  have hend : HEADER_LEN ≤ announcedEnd d := Nat.le_add_right _ _
  have hslice : ∀ i k, i + k ≤ announcedEnd d → slice msg.raw i k = slice d i k := by
    intro i k hik
    rw [hraw, slice_raw hik]
  have hlength : msg.raw.length = announcedEnd d := by
    rw [hraw, List.length_take, Nat.min_eq_left hfits]
  have h2 : slice msg.raw 2 2 = slice d 2 2 := hslice 2 2 (by simp only [HEADER_LEN] at hend; omega)
  have hsame : announcedEnd msg.raw = announcedEnd d := by rw [announcedEnd, h2, announcedEnd]
  unfold parse
  rw [dif_neg (by omega), if_neg (by
    rw [hslice 4 4 (by simp only [HEADER_LEN] at hend; omega), hcookie]
    simp)]
  dsimp only
  rw [if_neg (by rw [hlength, h2]; exact Nat.lt_irrefl _)]
  congr 1
  obtain ⟨method, kind, ⟨txid, htwelve⟩, raw, body⟩ := msg
  dsimp only at *
  simp only [ParsedStun.mk.injEq, Subtype.mk.injEq]
  refine ⟨?_, ?_, ?_, ?_, ?_⟩
  · rw [hmethod, hslice 0 2 (by simp only [HEADER_LEN] at hend; omega)]
  · rw [hkind, hslice 0 2 (by simp only [HEADER_LEN] at hend; omega)]
  · rw [htxid, hslice 8 12 (by simp only [HEADER_LEN] at hend; omega)]
  · rw [List.take_of_length_le]
    rw [hlength, h2]
    exact Nat.le_refl _
  · rw [hbody, h2, hslice HEADER_LEN _ (Nat.le_refl _)]

theorem mem_attrs_of_fits {ty : Nat} {body : Bytes} (h : findAttr ty body.length body = some m)
    (hfits : m + 4 + (attrHead (body.drop m)).2 ≤ body.length) : ∃ v, .ok (ty, v) ∈ attrs body := by
  induction hn : body.length using Nat.strongRecOn generalizing body m with
  | ind n ih =>
    have hbound := findAttr_bound h
    have hlong : 4 ≤ body.length := by omega
    rw [findAttr_step hlong] at h
    rw [attrs_step hlong]
    split at h
    · next hkind =>
      obtain rfl := Option.some.inj h
      rw [List.drop_zero] at hfits
      rw [if_neg (by omega), hkind]
      exact ⟨_, List.mem_cons_self⟩
    · obtain ⟨k, hk, rfl⟩ := map_eq_some_iff.mp h
      have hlt := length_drop_attrSpan hlong (attrHead body).2
      have hkbound := findAttr_bound hk
      rw [List.length_drop] at hkbound
      have hspan : 4 + (attrHead body).2 ≤ attrSpan (attrHead body).2 := by
        simp only [attrSpan]
        omega
      rw [if_neg (by omega)]
      rw [← List.drop_drop] at hfits
      obtain ⟨v, hv⟩ := ih _ (hn ▸ hlt) hk (by rw [List.length_drop]; omega) rfl
      exact ⟨v, List.mem_cons_of_mem _ hv⟩

theorem integrity_of_offset (hd : parse d = some msg)
    {off len : Nat} (hoff : findAttrOffset d ATTR_MESSAGE_INTEGRITY = some off)
    (hlen : beNat (slice d (off + 2) 2) = len) (hend : off + 4 + len ≤ announcedEnd d) :
    ∃ m, off = HEADER_LEN + m ∧ findAttr ATTR_MESSAGE_INTEGRITY msg.body.length msg.body = some m ∧
      (msg.attr ATTR_MESSAGE_INTEGRITY).isSome := by
  obtain ⟨-, -, hfits, -, -, -, -, hbody⟩ := parse_eq_some hd
  obtain ⟨body, m, hblock, hm, rfl⟩ := findAttrOffset_eq_some hoff
  obtain rfl : body = msg.body := by
    unfold attrBlock at hblock
    unfold announcedEnd at hfits
    simp only [Nat.not_lt.mpr hfits, if_false] at hblock
    exact (Option.some.inj hblock).symm.trans hbody.symm
  refine ⟨m, rfl, hm, ?_⟩
  have hlength : msg.body.length = beNat (slice d 2 2) := by
    rw [hbody, length_slice hfits]
  have hhead : (attrHead (msg.body.drop m)).2 = len := by
    rw [← hlen, attrHead, hbody]
    have hslice := slice_slice (s := d) (i := HEADER_LEN) (k := beNat (slice d 2 2)) (j := m + 2) (l := 2)
      (by unfold announcedEnd at hend; omega)
    have hdrop : slice (List.drop m (slice d HEADER_LEN (beNat (slice d 2 2)))) 2 2 =
        slice (slice d HEADER_LEN (beNat (slice d 2 2))) (m + 2) 2 := by
      simp [slice, List.drop_drop]
    rw [hdrop, hslice, ← Nat.add_assoc]
  obtain ⟨v, hv⟩ := mem_attrs_of_fits hm (by rw [hhead, hlength]; unfold announcedEnd at hend; omega)
  rw [ParsedStun.attr, Option.isSome_map, List.find?_isSome, iterAttrs_eq]
  exact ⟨(ATTR_MESSAGE_INTEGRITY, v), List.mem_filterMap.mpr ⟨_, hv, rfl⟩, by simp⟩

theorem sealOf_raw (hd : parse d = some msg)
    (hm : findAttr ATTR_MESSAGE_INTEGRITY msg.body.length msg.body = some m)
    (hend : HEADER_LEN + m + 4 + beNat (slice d (HEADER_LEN + m + 2) 2) ≤ announcedEnd d) :
    sealOf msg.raw =
      if beNat (slice d (HEADER_LEN + m + 2) 2) = INTEGRITY_LEN then
        some (d.take 2 ++ beBytes 2 (m + 4 + INTEGRITY_LEN) ++ slice d 4 (16 + m),
          slice d (HEADER_LEN + m + 4) INTEGRITY_LEN)
      else none := by
  obtain ⟨-, -, hfits, -, -, -, hraw, -⟩ := parse_eq_some hd
  have hlength : msg.raw.length = announcedEnd d := by
    rw [hraw, List.length_take, Nat.min_eq_left hfits]
  have hlen : slice msg.raw (HEADER_LEN + m + 2) 2 = slice d (HEADER_LEN + m + 2) 2 := by
    rw [hraw, slice_raw (by omega)]
  unfold sealOf
  rw [ParsedStun.parse_raw hd]
  simp only [Option.bind_eq_bind, bind_some, hm, hlen, hlength]
  by_cases hcode : beNat (slice d (HEADER_LEN + m + 2) 2) = INTEGRITY_LEN
  · rw [hcode] at hend
    rw [if_neg (by rw [hcode]; simp only [ne_eq, not_true_eq_false, false_or]; omega), if_pos hcode]
    have hcovered : (msg.raw.take (HEADER_LEN + m)).take 2 = d.take 2 ∧
        (msg.raw.take (HEADER_LEN + m)).drop 4 = slice d 4 (16 + m) := by
      have htake : msg.raw.take (HEADER_LEN + m) = d.take (HEADER_LEN + m) := by
        rw [hraw, List.take_take, Nat.min_eq_left (by omega)]
      rw [htake, List.take_take, List.drop_take]
      refine ⟨?_, ?_⟩
      · rw [Nat.min_eq_left (by simp only [HEADER_LEN]; omega)]
      · rw [slice]
        congr 1
        simp only [HEADER_LEN]
        omega
    rw [hcovered.1, hcovered.2, hraw, slice_raw (by omega)]
    congr 3
    simp only [HEADER_LEN]
    congr 2
    omega
  · rw [if_pos (.inl hcode), if_neg hcode]

theorem SameThroughIntegrity.alike (h : SameThroughIntegrity d d')
    (hd : parse d = some msg) (hd' : parse d' = some msg') : Alike msg msg' := by
  obtain ⟨off, len, hoff, hoff', hlen, hend, hend', hfirst, hsame⟩ := h
  obtain ⟨m, rfl, hm, hmi⟩ := integrity_of_offset hd hoff hlen hend
  have hpart : ∀ j l, j + l ≤ HEADER_LEN + m + len → slice d (4 + j) l = slice d' (4 + j) l :=
    fun j l => slice_of_same hsame
  have hfield : slice d (HEADER_LEN + m + 2) 2 = slice d' (HEADER_LEN + m + 2) 2 := by
    have := hpart (HEADER_LEN + m - 2) 2 (by simp only [HEADER_LEN]; omega)
    simpa only [show 4 + (HEADER_LEN + m - 2) = HEADER_LEN + m + 2 by simp only [HEADER_LEN]; omega]
      using this
  have hlen' : beNat (slice d' (HEADER_LEN + m + 2) 2) = len := by rw [← hfield, hlen]
  obtain ⟨m', heq, hm', hmi'⟩ := integrity_of_offset hd' hoff' hlen' hend'
  obtain rfl : m' = m := by omega
  obtain ⟨-, -, -, hmethod, hkind, htxid, -, -⟩ := parse_eq_some hd
  obtain ⟨-, -, -, hmethod', hkind', htxid', -, -⟩ := parse_eq_some hd'
  have htype : slice d 0 2 = slice d' 0 2 := by simpa [slice] using hfirst
  refine ⟨by rw [hmethod, hmethod', htype], by rw [hkind, hkind', htype], Subtype.ext ?_, ⟨hmi, hmi'⟩, ?_⟩
  · rw [htxid, htxid']
    exact hpart 4 12 (by simp only [HEADER_LEN]; omega)
  · rw [sealOf_raw hd hm (by rw [hlen]; exact hend), sealOf_raw hd' hm' (by rw [hlen']; exact hend'),
      hlen, hlen']
    split
    · next hcode =>
      have hbefore : slice d 4 (16 + m') = slice d' 4 (16 + m') :=
        hpart 0 _ (by simp only [HEADER_LEN]; omega)
      have hvalue : slice d (HEADER_LEN + m' + 4) INTEGRITY_LEN =
          slice d' (HEADER_LEN + m' + 4) INTEGRITY_LEN := by
        rw [Nat.add_comm (HEADER_LEN + m') 4]
        exact hpart _ _ (by rw [hcode])
      rw [hfirst, hbefore, hvalue]
    · rfl

/-! ## the same reading has the same effect -/

section Same

variable {hmac : Hmac} {s : TurnServer} {msg msg' : ParsedStun} {client : SocketAddr} {env : Env}

theorem Alike.verify (h : Alike msg msg') (hmac : Hmac) (key : Bytes) :
    verifyMessageIntegrity hmac msg.raw key = verifyMessageIntegrity hmac msg'.raw key := by
  rw [verifyMessageIntegrity, h.sealed, verifyMessageIntegrity]

theorem authenticate_congr (h : Alike msg msg')
    (hcred : credentialsOf msg = credentialsOf msg') :
    s.authenticate hmac msg client env = s.authenticate hmac msg' client env := by
  have hmi := isNone_eq_false_iff.mpr h.integrity.1
  have hmi' := isNone_eq_false_iff.mpr h.integrity.2
  simp only [authenticate, hmi, hmi', hcred, h.method, h.txid, h.verify]

theorem authenticate_unsealed (hmi : (msg.attr ATTR_MESSAGE_INTEGRITY).isSome) (hseal : sealOf msg.raw = none)
    {username realm nonce : Text}
    (hcred : credentialsOf msg = some (username, realm, nonce)) :
    s.authenticate hmac msg client env = .error
      (if ¬ s.nonceValid client nonce env.nonceAt ∨ realm ≠ s.realm then
        (s.issueNonce client env, buildChallenge msg.method msg.txid 438 s.realm env.nonce)
      else (s, buildError msg.method msg.txid 401 "Unauthorized")) := by
  have hverify : ∀ key, verifyMessageIntegrity hmac msg.raw key = false := by
    intro key
    simp [verifyMessageIntegrity, hseal]
  simp only [authenticate, isNone_eq_false_iff.mpr hmi, hcred, hverify]
  split
  · contradiction
  · split
    · rfl
    · split <;> rfl

theorem authenticate_of_reading (h : Alike msg msg') (hknown : msg.known) (hread : msg.reading = msg'.reading)
    (htransport : msg.method = METHOD_ALLOCATE → transportOk msg = true)
    (htransport' : msg'.method = METHOD_ALLOCATE → transportOk msg' = true) :
    s.authenticate hmac msg client env = s.authenticate hmac msg' client env := by
  have hknown' : msg'.known := by rwa [ParsedStun.known, ← h.method]
  have hok : ¬ (msg.method = METHOD_ALLOCATE ∧ transportOk msg = false) := by
    rintro ⟨hmethod, hfalse⟩
    rw [htransport hmethod] at hfalse
    contradiction
  have hok' : ¬ (msg'.method = METHOD_ALLOCATE ∧ transportOk msg' = false) := by
    rintro ⟨hmethod, hfalse⟩
    rw [htransport' hmethod] at hfalse
    contradiction
  simp only [ParsedStun.reading, hknown, hknown', not_true_eq_false, if_false, hok, hok'] at hread
  cases hcred : credentialsOf msg with
  | none =>
    cases hcred' : credentialsOf msg' with
    | none => exact authenticate_congr h (hcred.trans hcred'.symm)
    | some c =>
      rw [hcred, hcred'] at hread
      dsimp only at hread
      split at hread <;> contradiction
  | some c =>
    obtain ⟨u, r, n⟩ := c
    cases hcred' : credentialsOf msg' with
    | none =>
      rw [hcred, hcred'] at hread
      dsimp only at hread
      split at hread <;> contradiction
    | some c' =>
      obtain ⟨u', r', n'⟩ := c'
      rw [hcred, hcred', ← h.sealed] at hread
      dsimp only at hread
      split at hread
      · simp only [Reading.signed.injEq] at hread
        obtain ⟨rfl, rfl, rfl, -⟩ := hread
        exact authenticate_congr h (hcred.trans hcred'.symm)
      · next hnone =>
        -- no user is asked for, so that the names may differ
        simp only [Reading.unsigned.injEq] at hread
        obtain ⟨rfl, rfl⟩ := hread
        have hseal : sealOf msg.raw = none := by simpa using hnone
        rw [authenticate_unsealed h.integrity.1 hseal hcred,
          authenticate_unsealed h.integrity.2 (h.sealed ▸ hseal) hcred', h.method, h.txid]

variable {auth : Authenticated}

theorem reading_of_authenticate (hknown : msg.known)
    (htransport : msg.method = METHOD_ALLOCATE → transportOk msg = true)
    (hauth : s.authenticate hmac msg client env = .ok auth) :
    ∃ username realm nonce, msg.reading = .signed username realm nonce msg.payload := by
  have hok : ¬ (msg.method = METHOD_ALLOCATE ∧ transportOk msg = false) := by
    rintro ⟨hmethod, hfalse⟩
    rw [htransport hmethod] at hfalse
    contradiction
  simp only [ParsedStun.reading, hknown, not_true_eq_false, if_false, hok]
  unfold authenticate at hauth
  split at hauth
  · contradiction
  · split at hauth
    · contradiction
    · next u r n hcred =>
      split at hauth
      · contradiction
      · split at hauth
        · contradiction
        · next cred _ =>
          split at hauth
          · next hverify =>
            have hsome : (sealOf msg.raw).isSome = true := by
              unfold verifyMessageIntegrity at hverify
              exact Option.isSome_of_any hverify
            refine ⟨u, r, n, ?_⟩
            simp only [hcred, hsome, if_true]
          · contradiction

theorem payload_of_reading (h : Alike msg msg') (hknown : msg.known) (hread : msg.reading = msg'.reading)
    (htransport : msg.method = METHOD_ALLOCATE → transportOk msg = true)
    (htransport' : msg'.method = METHOD_ALLOCATE → transportOk msg' = true)
    (hauth : s.authenticate hmac msg client env = .ok auth) : msg.payload = msg'.payload := by
  have hknown' : msg'.known := by rwa [ParsedStun.known, ← h.method]
  obtain ⟨u, r, n, hsigned⟩ := reading_of_authenticate hknown htransport hauth
  rw [authenticate_of_reading h hknown hread htransport htransport'] at hauth
  obtain ⟨u', r', n', hsigned'⟩ := reading_of_authenticate hknown' htransport' hauth
  rw [hsigned, hsigned'] at hread
  exact (Reading.signed.inj hread).2.2.2

theorem foldl_permissions (peers : List SocketAddr) (deadline : Nat) (t : Table IpAddr Nat) (ip : IpAddr) :
    peers.foldl (fun t peer => Table.insert t peer.ip deadline) t ip =
      if ip ∈ (peers.map SocketAddr.ip).toFinset then some deadline else t ip := by
  induction peers generalizing t with
  | nil => simp
  | cons peer peers ih =>
    rw [List.foldl_cons, ih, Table.insert_apply]
    simp only [List.map_cons, List.toFinset_cons, Finset.mem_insert]
    split
    · next hmem => rw [if_pos (.inr hmem)]
    · next hmem =>
      split
      · next hip => rw [if_pos (.inl hip)]
      · next hip => rw [if_neg (by simp [hip, hmem])]

theorem isEmpty_of_toFinset {peers peers' : List SocketAddr}
    (h : (peers.map SocketAddr.ip).toFinset = (peers'.map SocketAddr.ip).toFinset) :
    peers.isEmpty = peers'.isEmpty := by
  have hnil : ∀ l : List SocketAddr, l.isEmpty = decide ((l.map SocketAddr.ip).toFinset = ∅) := by
    intro l
    cases l <;> simp
  rw [hnil, hnil, h]

theorem authenticateOnAllocation_congr (h : Alike msg msg')
    (hauth : s.authenticate hmac msg client env = s.authenticate hmac msg' client env) :
    s.authenticateOnAllocation hmac msg client env = s.authenticateOnAllocation hmac msg' client env := by
  unfold authenticateOnAllocation
  rw [hauth, h.method, h.txid]

theorem handleAllocate_congr (h : Alike msg msg')
    (htransport : transportOk msg = transportOk msg')
    (hauth : transportOk msg = true →
      s.authenticate hmac msg client env = s.authenticate hmac msg' client env)
    (hlife : ∀ auth, transportOk msg = true → s.authenticate hmac msg client env = .ok auth →
      requestedLifetime msg = requestedLifetime msg') :
    s.handleAllocate hmac msg client env = s.handleAllocate hmac msg' client env := by
  unfold handleAllocate
  rw [← htransport, h.txid]
  by_cases hok : transportOk msg = true
  · rw [if_neg (not_not_intro hok), if_neg (not_not_intro hok), ← hauth hok]
    cases hres : s.authenticate hmac msg client env with
    | error r => rfl
    | ok auth => simp only [hlife auth hok hres]
  · rw [if_pos hok, if_pos hok]

section

variable (h : Alike msg msg')
    (hauth : s.authenticate hmac msg client env = s.authenticate hmac msg' client env)
include h hauth

theorem handleRefresh_congr (hlife : ∀ auth, s.authenticate hmac msg client env = .ok auth →
      requestedLifetime msg = requestedLifetime msg') :
    s.handleRefresh hmac msg client env = s.handleRefresh hmac msg' client env := by
  unfold handleRefresh
  rw [← authenticateOnAllocation_congr h hauth, h.txid]
  cases hres : s.authenticateOnAllocation hmac msg client env with
  | error r => rfl
  | ok auth => simp only [hlife auth (owner_of_authenticateOnAllocation hres).1]

theorem handleCreatePermission_congr
    (hpeers : ∀ auth, s.authenticate hmac msg client env = .ok auth →
      ((peersOf msg).map SocketAddr.ip).toFinset =
        ((peersOf msg').map SocketAddr.ip).toFinset) :
    s.handleCreatePermission hmac msg client env = s.handleCreatePermission hmac msg' client env := by
  unfold handleCreatePermission
  rw [← authenticateOnAllocation_congr h hauth, h.txid]
  cases hres : s.authenticateOnAllocation hmac msg client env with
  | error r => rfl
  | ok auth =>
    have hsame := hpeers auth (owner_of_authenticateOnAllocation hres).1
    have hfold : ∀ (deadline : Nat) t, (peersOf msg).foldl
        (fun t peer => Table.insert t peer.ip deadline) t =
          (peersOf msg').foldl (fun t peer => Table.insert t peer.ip deadline) t := by
      intro deadline t
      funext ip
      rw [foldl_permissions, foldl_permissions, hsame]
    simp only [isEmpty_of_toFinset hsame, hfold]

theorem handleChannelBind_congr (hbinding : ∀ auth, s.authenticate hmac msg client env = .ok auth →
      bindingOf msg = bindingOf msg') :
    s.handleChannelBind hmac msg client env = s.handleChannelBind hmac msg' client env := by
  unfold handleChannelBind
  rw [← authenticateOnAllocation_congr h hauth, h.txid]
  cases hres : s.authenticateOnAllocation hmac msg client env with
  | error r => rfl
  | ok auth => simp only [hbinding auth (owner_of_authenticateOnAllocation hres).1]

end

/-- What the server does with a request. -/
def handled (hmac : Hmac) (s : TurnServer) (msg : ParsedStun) (client : SocketAddr) (env : Env) :
    TurnServer × Bytes :=
  if msg.method = METHOD_ALLOCATE then s.handleAllocate hmac msg client env
  else if msg.method = METHOD_REFRESH then s.handleRefresh hmac msg client env
  else if msg.method = METHOD_CREATE_PERMISSION then s.handleCreatePermission hmac msg client env
  else if msg.method = METHOD_CHANNEL_BIND then s.handleChannelBind hmac msg client env
  else (s, buildError msg.method msg.txid 400 "Bad Request")

theorem dispatch_request {d : Bytes} (hdata : isChannelData d = false)
    (hd : parse d = some msg) (hkind : msg.kind = CLASS_REQUEST) :
    s.dispatch hmac d client env =
      ((handled hmac s msg client env).1, some (handled hmac s msg client env).2, none) := by
  simp only [dispatch, hdata, hd, hkind, if_true, handled, Bool.false_eq_true, if_false]
  repeat' split
  all_goals rfl

theorem handled_of_reading (h : Alike msg msg') (hread : msg.reading = msg'.reading) :
    handled hmac s msg client env = handled hmac s msg' client env := by
  unfold handled
  rw [← h.method]
  by_cases hallocate : msg.method = METHOD_ALLOCATE
  · have hknown : msg.known := .inl hallocate
    have hknown' : msg'.known := .inl (h.method.symm.trans hallocate)
    rw [if_pos hallocate, if_pos hallocate]
    have htransport : transportOk msg = transportOk msg' := by
      have hallocate' := h.method.symm.trans hallocate
      cases hok : transportOk msg <;> cases hok' : transportOk msg' <;>
        simp only [ParsedStun.reading, hknown, hknown', hallocate, hallocate', hok, hok', not_true_eq_false,
          if_false, if_true, and_self, and_false, Bool.true_eq_false] at hread ⊢
      all_goals
        cases hcred : credentialsOf msg <;> cases hcred' : credentialsOf msg' <;>
          simp only [hcred, hcred'] at hread <;> (try split at hread) <;> contradiction
    have hauth : transportOk msg = true →
        s.authenticate hmac msg client env = s.authenticate hmac msg' client env :=
      fun hok => authenticate_of_reading h hknown hread (fun _ => hok) fun _ => htransport ▸ hok
    refine handleAllocate_congr h htransport hauth fun auth hok hres => ?_
    have hpayload := payload_of_reading h hknown hread (fun _ => hok) (fun _ => htransport ▸ hok) hres
    have hne : METHOD_ALLOCATE ≠ METHOD_CREATE_PERMISSION ∧ METHOD_ALLOCATE ≠ METHOD_CHANNEL_BIND := by
      decide
    simpa [ParsedStun.payload, ← h.method, hallocate, hne] using hpayload
  · have htransport : msg.method = METHOD_ALLOCATE → transportOk msg = true :=
      fun hm => absurd hm hallocate
    have htransport' : msg'.method = METHOD_ALLOCATE → transportOk msg' = true :=
      fun hm => absurd (h.method.trans hm) hallocate
    rw [if_neg hallocate, if_neg hallocate]
    have hauth : msg.known →
        s.authenticate hmac msg client env = s.authenticate hmac msg' client env :=
      fun hknown => authenticate_of_reading h hknown hread htransport htransport'
    have hpayload : msg.known → ∀ auth, s.authenticate hmac msg client env = .ok auth →
        msg.payload = msg'.payload :=
      fun hknown auth hres => payload_of_reading h hknown hread htransport htransport' hres
    have hne : METHOD_REFRESH ≠ METHOD_CREATE_PERMISSION ∧ METHOD_REFRESH ≠ METHOD_CHANNEL_BIND ∧
        METHOD_CHANNEL_BIND ≠ METHOD_CREATE_PERMISSION := by decide
    split
    · next hmethod =>
      have hknown : msg.known := .inr (.inl hmethod)
      refine handleRefresh_congr h (hauth hknown) fun auth hres => ?_
      have := hpayload hknown auth hres
      simpa [ParsedStun.payload, ← h.method, hmethod, hne] using this
    · split
      · next hmethod =>
        have hknown : msg.known := .inr (.inr (.inl hmethod))
        refine handleCreatePermission_congr h (hauth hknown) fun auth hres => ?_
        have := hpayload hknown auth hres
        simpa [ParsedStun.payload, ← h.method, hmethod] using this
      · split
        · next hmethod =>
          have hknown : msg.known := .inr (.inr (.inr hmethod))
          refine handleChannelBind_congr h (hauth hknown) fun auth hres => ?_
          have := hpayload hknown auth hres
          simpa [ParsedStun.payload, ← h.method, hmethod, hne] using this
        · rw [h.txid]

end Same

/-! ## different readings can be told apart -/

/-- The last two digits of the error code of a reply. -/
def errorNumber (reply : Bytes) : UInt8 := reply.getD 27 0

theorem getD_setLength (buf : Bytes) (n : Nat) (h : 4 ≤ i) (hbuf : 2 ≤ buf.length) :
    (setLength buf n).getD i 0 = buf.getD i 0 := by
  have hfour : (buf.take 2 ++ beBytes 2 n).length = 4 := by
    simp [List.length_take, Nat.min_eq_left hbuf]
  unfold setLength
  rw [List.getD_append_right _ _ _ _ (by omega), hfour, List.getD_eq_getElem?_getD, List.getElem?_drop,
    List.getD_eq_getElem?_getD]
  congr 2
  omega

theorem appendErrorCode_parts (method : Nat) (txid : TransactionId) (code : Nat) (reason : Text) :
    ∃ front rest, appendErrorCode (header method CLASS_ERROR txid) code reason =
      front ++ UInt8.ofNat (code % 100) :: rest ∧ front.length = 27 := by
  refine ⟨header method CLASS_ERROR txid ++ beBytes 2 ATTR_ERROR_CODE ++
    beBytes 2 (4 + (toUtf8 reason).length) ++ [0, 0, UInt8.ofNat (code / 100)],
    toUtf8 reason ++ List.replicate (pad4 (4 + (toUtf8 reason).length)) 0, ?_, ?_⟩
  · have hlen : ([0, 0, UInt8.ofNat (code / 100), UInt8.ofNat (code % 100)] ++ toUtf8 reason).length =
        4 + (toUtf8 reason).length := by
      rw [List.length_append]
      rfl
    unfold appendErrorCode appendAttr
    rw [hlen]
    simp only [List.append_assoc, List.cons_append, List.nil_append]
  · simp only [List.length_append, length_header, length_beBytes, HEADER_LEN]
    rfl

theorem errorNumber_finalizeLength {front rest : Bytes} {b : UInt8} (h : front.length = 27) :
    errorNumber (finalizeLength (front ++ b :: rest)) = b := by
  unfold errorNumber finalizeLength
  rw [getD_setLength _ _ (by omega) (by rw [List.length_append]; omega),
    List.getD_append_right _ _ _ _ (by omega), h]
  rfl

theorem errorNumber_buildError (method : Nat) (txid : TransactionId) (code : Nat) (reason : String) :
    errorNumber (buildError method txid code reason) = UInt8.ofNat (code % 100) := by
  obtain ⟨front, rest, hparts, hlen⟩ := appendErrorCode_parts method txid code reason.toList
  rw [buildError, hparts, errorNumber_finalizeLength hlen]

theorem errorNumber_buildChallenge (method : Nat) (txid : TransactionId) (code : Nat) (realm nonce : Text) :
    errorNumber (buildChallenge method txid code realm nonce) = UInt8.ofNat (code % 100) := by
  unfold buildChallenge
  dsimp only
  obtain ⟨front, rest, hparts, hlen⟩ := appendErrorCode_parts method txid code
    (if code = 438 then "Stale Nonce" else "Unauthorized").toList
  rw [hparts]
  unfold appendAttr
  simp only [List.append_assoc, List.cons_append]
  exact errorNumber_finalizeLength hlen

/-- The client of the probes. -/
def probeClient : SocketAddr := .v4 0 0

/-- The clock stands at zero. -/
def probeEnv (relay : RelaySocket) : Env := ⟨0, 0, 0, 0, [], relay⟩

/-- A server that has challenged the client. -/
def probe (realm nonce : Text) (credentials : Table Text LongTermCredential)
    (allocations : Table SocketAddr Allocation) : TurnServer where
  realm := realm
  relayIp := .v4 0
  allocationLifetime := (2 ^ 32 - 1) * SECOND
  allocations := allocations
  challenges := Table.empty.insert probeClient (nonce, 1)
  credentials := credentials

/-- The transport is not what the request fails on. -/
def ParsedStun.Carried (msg : ParsedStun) : Prop :=
  msg.method = METHOD_ALLOCATE → transportOk msg = true

/-- The number of the reply where nobody has been challenged. -/
def Reading.atBlank : Reading → UInt8
  | transport => 42
  | incomplete => 0
  | unknown | unsigned _ _ | signed _ _ _ _ => 38

theorem reading_cases (hknown : msg.known) : (¬ msg.Carried ∧ msg.reading = .transport) ∨
      (msg.Carried ∧ credentialsOf msg = none ∧ msg.reading = .incomplete) ∨
      ∃ u r n, msg.Carried ∧ credentialsOf msg = some (u, r, n) ∧ msg.reading.atBlank = 38 ∧
        (sealOf msg.raw = none ∧ msg.reading = .unsigned r n ∨
          (∃ c, sealOf msg.raw = some c) ∧ msg.reading = .signed u r n msg.payload) := by
  by_cases hcarried : msg.Carried
  · right
    have hok : ¬ (msg.method = METHOD_ALLOCATE ∧ transportOk msg = false) := by
      rintro ⟨hmethod, hfalse⟩
      rw [hcarried hmethod] at hfalse
      contradiction
    simp only [ParsedStun.reading, hknown, not_true_eq_false, if_false, hok]
    cases hcred : credentialsOf msg with
    | none => exact .inl ⟨hcarried, rfl, rfl⟩
    | some c =>
      obtain ⟨u, r, n⟩ := c
      cases hseal : sealOf msg.raw with
      | none => exact .inr ⟨u, r, n, hcarried, rfl, rfl, .inl ⟨rfl, rfl⟩⟩
      | some c => exact .inr ⟨u, r, n, hcarried, rfl, rfl, .inr ⟨⟨c, rfl⟩, rfl⟩⟩
  · left
    refine ⟨hcarried, ?_⟩
    have hnot : msg.method = METHOD_ALLOCATE ∧ transportOk msg = false := by
      simpa [ParsedStun.Carried] using hcarried
    rw [ParsedStun.reading, if_neg (not_not_intro hknown), if_pos hnot]

section Probes

variable {hmac : Hmac} {s : TurnServer} {msg msg' : ParsedStun} {client : SocketAddr} {env : Env}

theorem handled_of_refused (hknown : msg.known) (hcarried : msg.Carried) {r : TurnServer × Bytes}
    (hauth : s.authenticate hmac msg client env = .error r) : handled hmac s msg client env = r := by
  have hon : s.authenticateOnAllocation hmac msg client env = .error r := by
    unfold authenticateOnAllocation
    rw [hauth]
    rfl
  unfold handled
  by_cases hallocate : msg.method = METHOD_ALLOCATE
  · rw [if_pos hallocate, handleAllocate, if_neg (not_not_intro (hcarried hallocate)), hauth]
  · rw [if_neg hallocate]
    split
    · rw [handleRefresh, hon]
    · split
      · rw [handleCreatePermission, hon]
      · split
        · rw [handleChannelBind, hon]
        · next hrefresh hcreate hbind =>
          obtain h | h | h | h := hknown <;> contradiction

/-- A server that has challenged nobody. -/
def blank : TurnServer := .new ⟨[], .v4 0, 0, []⟩

theorem errorNumber_blank (hmac : Hmac) (hknown : msg.known)
    (hmi : (msg.attr ATTR_MESSAGE_INTEGRITY).isSome) :
    errorNumber (handled hmac blank msg probeClient (probeEnv .bindFailed)).2 = msg.reading.atBlank := by
  have hmi := isNone_eq_false_iff.mpr hmi
  obtain ⟨hcarried, hread⟩ | ⟨hcarried, hcred, hread⟩ | ⟨u, r, n, hcarried, hcred, hblank, -⟩ :=
    reading_cases hknown
  · obtain ⟨hmethod, hfalse⟩ : msg.method = METHOD_ALLOCATE ∧ transportOk msg = false := by
      simpa [ParsedStun.Carried] using hcarried
    rw [hread, handled, if_pos hmethod, handleAllocate, if_pos (by rw [hfalse]; simp),
      errorNumber_buildError]
    rfl
  · have hauth : blank.authenticate hmac msg probeClient (probeEnv .bindFailed) =
        .error (blank, buildError msg.method msg.txid 400 "Bad Request") := by
      simp only [authenticate, hmi, hcred, Bool.false_eq_true, if_false]
    rw [handled_of_refused hknown hcarried hauth, errorNumber_buildError, hread]
    rfl
  · have hauth : blank.authenticate hmac msg probeClient (probeEnv .bindFailed) =
        .error (blank.issueNonce probeClient (probeEnv .bindFailed),
          buildChallenge msg.method msg.txid 438 blank.realm (probeEnv .bindFailed).nonce) := by
      have hnonce : blank.nonceValid probeClient n (probeEnv .bindFailed).nonceAt = false := rfl
      simp only [authenticate, hmi, hcred, hnonce, Bool.false_eq_true, not_false_eq_true, true_or,
        if_true, if_false]
    rw [handled_of_refused hknown hcarried hauth, errorNumber_buildChallenge, hblank]
    rfl

theorem nonceValid_probe {realm nonce nonce' : Text} {credentials : Table Text LongTermCredential}
    {allocations : Table SocketAddr Allocation} (hnonce : ∀ a ∈ allocations probeClient, a.nonce = nonce) :
    (probe realm nonce credentials allocations).nonceValid probeClient nonce' 0 = decide (nonce = nonce') := by
  have hchallenge : (probe realm nonce credentials allocations).challenges probeClient = some (nonce, 1) := by
    simp [probe]
  unfold nonceValid
  rw [hchallenge]
  cases halloc : (probe realm nonce credentials allocations).allocations probeClient with
  | none => simp
  | some a =>
    have hname : a.nonce = nonce := hnonce a halloc
    by_cases hsame : nonce = nonce' <;> simp [hname, hsame]

variable {observed covered : Bytes} {n r u : Text}

theorem errorNumber_probe (hmac : Hmac) (hknown : msg.known) (hcarried : msg.Carried)
    (hmi : (msg.attr ATTR_MESSAGE_INTEGRITY).isSome)
    (hcred : credentialsOf msg = some (u, r, n)) (realm nonce : Text) :
    errorNumber (handled hmac (probe realm nonce .empty .empty) msg probeClient (probeEnv .bindFailed)).2 =
      if nonce = n ∧ r = realm then 1 else 38 := by
  have hmi := isNone_eq_false_iff.mpr hmi
  have hnonce : (probe realm nonce .empty .empty).nonceValid probeClient n 0 = decide (nonce = n) :=
    nonceValid_probe (by simp)
  have hrealm : (probe realm nonce .empty .empty).realm = realm := rfl
  by_cases hgood : nonce = n ∧ r = realm
  · obtain ⟨rfl, rfl⟩ := hgood
    have hauth : (probe r nonce .empty .empty).authenticate hmac msg probeClient (probeEnv .bindFailed) =
        .error (probe r nonce .empty .empty, buildError msg.method msg.txid 401 "Unauthorized") := by
      have hnobody : (probe r nonce .empty .empty).credentials u = none := rfl
      simp only [authenticate, hmi, hcred, probeEnv, hnonce, hrealm, hnobody, decide_true,
        Bool.false_eq_true, not_true_eq_false, ne_eq, or_self, if_false]
    rw [handled_of_refused hknown hcarried hauth, errorNumber_buildError, if_pos ⟨rfl, rfl⟩]
    rfl
  · have hauth : (probe realm nonce .empty .empty).authenticate hmac msg probeClient (probeEnv .bindFailed) =
        .error ((probe realm nonce .empty .empty).issueNonce probeClient (probeEnv .bindFailed),
          buildChallenge msg.method msg.txid 438 realm []) := by
      have hbad : ¬ decide (nonce = n) = true ∨ r ≠ realm := by
        rw [decide_eq_true_eq]
        exact Decidable.not_and_iff_or_not.mp hgood
      simp only [authenticate, hmi, hcred, Bool.false_eq_true, if_false]
      rw [if_pos]
      · rfl
      · rw [hrealm]
        simp only [probeEnv, hnonce]
        exact hbad
    rw [handled_of_refused hknown hcarried hauth, errorNumber_buildChallenge, if_neg hgood]
    rfl

theorem length_sealOf {raw : Bytes} (h : sealOf raw = some (covered, observed)) :
    observed.length = INTEGRITY_LEN := by
  simp only [sealOf, Option.bind_eq_bind, Option.bind_eq_some_iff] at h
  obtain ⟨msg, -, m, -, h⟩ := h
  split at h
  · contradiction
  · next hfits =>
    obtain ⟨-, rfl⟩ := Prod.mk.inj (Option.some.inj h)
    exact length_slice (Nat.le_of_not_lt fun hshort => hfits (.inr hshort))

/-- A code under which this value is right. -/
def agreeing (observed : Bytes) (h : observed.length = INTEGRITY_LEN) : Hmac := fun _ _ => ⟨observed, h⟩

/-- One user. -/
def single (u : Text) : Table Text LongTermCredential := Table.empty.insert u ⟨u, []⟩

theorem authenticate_agreeing (hseal : sealOf msg.raw = some (covered, observed))
    (hmi : (msg.attr ATTR_MESSAGE_INTEGRITY).isSome)
    (hcred : credentialsOf msg = some (u, r, n)) (user : Text)
    (allocations : Table SocketAddr Allocation) (hnonce : ∀ a ∈ allocations probeClient, a.nonce = n)
    (relay : RelaySocket) :
    (probe r n (single user) allocations).authenticate (agreeing observed (length_sealOf hseal)) msg
        probeClient (probeEnv relay) =
      if u = user then .ok ⟨u, [], n⟩
      else .error (probe r n (single user) allocations, buildError msg.method msg.txid 401 "Unauthorized") := by
  have hmi := isNone_eq_false_iff.mpr hmi
  have hvalid : (probe r n (single user) allocations).nonceValid probeClient n 0 = decide (n = n) :=
    nonceValid_probe hnonce
  have hrealm : (probe r n (single user) allocations).realm = r := rfl
  have hverify : ∀ key, verifyMessageIntegrity (agreeing observed (length_sealOf hseal)) msg.raw key = true := by
    intro key
    simp [verifyMessageIntegrity, hseal, agreeing]
  have hkey : (probe r n (single user) allocations).credentials u =
      if u = user then some ⟨user, []⟩ else none := by
    simp [probe, single, Table.insert_apply]
  simp only [authenticate, hmi, hcred, probeEnv, hvalid, hrealm, hkey, hverify, decide_true,
    Bool.false_eq_true, not_true_eq_false, ne_eq, or_self, if_false, if_true]
  by_cases huser : u = user
  · simp [huser]
  · simp [huser]

theorem errorNumber_agreeing (hknown : msg.known) (hcarried : msg.Carried)
    (hseal : sealOf msg.raw = some (covered, observed))
    (hmi : (msg.attr ATTR_MESSAGE_INTEGRITY).isSome)
    (hcred : credentialsOf msg = some (u, r, n)) (user : Text) :
    errorNumber (handled (agreeing observed (length_sealOf hseal)) (probe r n (single user) .empty) msg
        probeClient (probeEnv .bindFailed)).2 =
      if u = user then (if msg.method = METHOD_ALLOCATE then 8 else 37) else 1 := by
  have hauth := authenticate_agreeing hseal hmi hcred user .empty (by simp) .bindFailed
  by_cases huser : u = user
  · rw [if_pos huser] at hauth
    rw [if_pos huser]
    by_cases hmethod : msg.method = METHOD_ALLOCATE
    · rw [if_pos hmethod, handled, if_pos hmethod, handleAllocate,
        if_neg (not_not_intro (hcarried hmethod)), hauth]
      dsimp only
      rw [if_neg (by simp [probe])]
      exact errorNumber_buildError _ _ _ _
    · have hon : (probe r n (single user) .empty).authenticateOnAllocation
          (agreeing observed (length_sealOf hseal)) msg probeClient (probeEnv .bindFailed) =
          .error (probe r n (single user) .empty,
            buildError msg.method msg.txid 437 "Allocation Mismatch") := by
        unfold authenticateOnAllocation
        rw [hauth]
        rfl
      have hreply : (handled (agreeing observed (length_sealOf hseal)) (probe r n (single user) .empty) msg
          probeClient (probeEnv .bindFailed)).2 =
            buildError msg.method msg.txid 437 "Allocation Mismatch" := by
        unfold handled
        rw [if_neg hmethod]
        split
        · rw [handleRefresh, hon]
        · split
          · rw [handleCreatePermission, hon]
          · split
            · rw [handleChannelBind, hon]
            · next hrefresh hcreate hbind =>
              obtain h | h | h | h := hknown <;> contradiction
      rw [if_neg hmethod, hreply, errorNumber_buildError]
      rfl
  · rw [if_neg huser] at hauth
    rw [if_neg huser, handled_of_refused hknown hcarried hauth, errorNumber_buildError]
    rfl

/-- The client's allocation, for the requests that need one. -/
def ownAllocation (u n : Text) : Allocation where
  username := u
  relayAddr := probeClient
  nonce := n
  expiresAt := 1
  permissions := .empty
  channelsToPeer := .empty
  peerToChannel := .empty

def owned (u n : Text) : Table SocketAddr Allocation := Table.empty.insert probeClient (ownAllocation u n)

theorem allocations_owned (r u n : Text) (credentials : Table Text LongTermCredential) :
    (probe r n credentials (owned u n)).allocations probeClient = some (ownAllocation u n) := by
  simp [probe, owned]

theorem requestedLifetime_le (msg : ParsedStun) : requestedLifetime msg ≤ 2 ^ 32 - 1 := by
  unfold requestedLifetime
  split
  · decide
  · next v hv =>
    obtain ⟨-, hlen⟩ := Option.filter_eq_some_iff.mp hv
    have hlt := beNat_lt v
    rw [of_decide_eq_true hlen] at hlt
    omega

theorem min_maxLifetime_probe (msg : ParsedStun) (r n : Text) (credentials : Table Text LongTermCredential)
    (allocations : Table SocketAddr Allocation) :
    min (requestedLifetime msg) (probe r n credentials allocations).maxLifetime =
      requestedLifetime msg := by
  have hmax : (probe r n credentials allocations).maxLifetime = 2 ^ 32 - 1 := by
    rw [maxLifetime, probe, Nat.mul_div_cancel _ (by decide),
      Nat.mod_eq_of_lt (by omega)]
  rw [hmax]
  exact Nat.min_eq_left (requestedLifetime_le msg)

section Agreeing

variable {covered observed : Bytes} (hseal : sealOf msg.raw = some (covered, observed))
  (hmi : (msg.attr ATTR_MESSAGE_INTEGRITY).isSome) {u r n : Text}
  (hcred : credentialsOf msg = some (u, r, n))

include hmi hcred

theorem authenticateOnAllocation_agreeing :
    (probe r n (single u) (owned u n)).authenticateOnAllocation (agreeing observed (length_sealOf hseal)) msg
        probeClient (probeEnv (.bound 0)) = .ok ⟨u, [], n⟩ := by
  have hnonce : ∀ a ∈ owned u n probeClient, a.nonce = n := by simp [owned, ownAllocation]
  have hauth := authenticate_agreeing hseal hmi hcred u (owned u n) hnonce (.bound 0)
  rw [if_pos rfl] at hauth
  unfold authenticateOnAllocation
  rw [hauth]
  have hfilter : ((probe r n (single u) (owned u n)).allocations probeClient).filter
      (fun a => a.isLive (probeEnv (.bound 0)).ownerAt) = owned u n probeClient := by
    simp [probe, owned, ownAllocation, Allocation.isLive, probeEnv]
  simp only [bind, Except.bind, hfilter]
  simp [owned, ownAllocation]

theorem expiresAt_allocate (hmethod : msg.method = METHOD_ALLOCATE) (hcarried : msg.Carried) :
    ((handled (agreeing observed (length_sealOf hseal)) (probe r n (single u) .empty) msg probeClient
        (probeEnv (.bound 0))).1.allocations probeClient).map Allocation.expiresAt =
      some (requestedLifetime msg * SECOND) := by
  have hauth := authenticate_agreeing hseal hmi hcred u .empty (by simp) (.bound 0)
  rw [if_pos rfl] at hauth
  rw [handled, if_pos hmethod, handleAllocate, if_neg (not_not_intro (hcarried hmethod)), hauth]
  dsimp only
  rw [if_neg (by simp [probe])]
  simp only [probeEnv, setAllocation, Table.insert_self, map_some, min_maxLifetime_probe,
    Nat.zero_add]

theorem expiresAt_refresh (hmethod : msg.method = METHOD_REFRESH) :
    ((handled (agreeing observed (length_sealOf hseal)) (probe r n (single u) (owned u n)) msg probeClient
        (probeEnv (.bound 0))).1.allocations probeClient).map Allocation.expiresAt =
      if requestedLifetime msg = 0 then none
      else some (requestedLifetime msg * SECOND) := by
  have hne : METHOD_REFRESH ≠ METHOD_ALLOCATE := by decide
  have ha := allocations_owned r u n (single u)
  rw [handled, if_neg (by rw [hmethod]; exact hne), if_pos hmethod, handleRefresh,
    authenticateOnAllocation_agreeing hseal hmi hcred]
  dsimp only
  split
  · simp [Table.erase_apply]
  · simp only [ha, probeEnv, setAllocation, Table.insert_self, map_some,
      min_maxLifetime_probe, Nat.zero_add]

theorem permissions_create (hmethod : msg.method = METHOD_CREATE_PERMISSION) :
    ((handled (agreeing observed (length_sealOf hseal)) (probe r n (single u) (owned u n)) msg probeClient
        (probeEnv (.bound 0))).1.allocations probeClient).map Allocation.permissions =
      some fun ip => if ip ∈ ((peersOf msg).map SocketAddr.ip).toFinset then
        some PERMISSION_LIFETIME else none := by
  have hne : METHOD_CREATE_PERMISSION ≠ METHOD_ALLOCATE ∧ METHOD_CREATE_PERMISSION ≠ METHOD_REFRESH := by
    decide
  have ha := allocations_owned r u n (single u)
  have hnone : (ownAllocation u n).permissions = .empty := rfl
  rw [handled, if_neg (by rw [hmethod]; exact hne.1), if_neg (by rw [hmethod]; exact hne.2), if_pos hmethod,
    handleCreatePermission, authenticateOnAllocation_agreeing hseal hmi hcred]
  dsimp only
  split
  · next hempty =>
    rw [List.isEmpty_iff.mp hempty]
    simp only [ha, map_some, hnone]
    rfl
  · simp only [ha, probeEnv, setAllocation, Table.insert_self, map_some, hnone,
      Nat.zero_add]
    congr 1
    funext ip
    rw [foldl_permissions]
    rfl

theorem channels_bind (hmethod : msg.method = METHOD_CHANNEL_BIND) :
    ((handled (agreeing observed (length_sealOf hseal)) (probe r n (single u) (owned u n)) msg probeClient
        (probeEnv (.bound 0))).1.allocations probeClient).map Allocation.channelsToPeer =
      some fun channel => (bindingOf msg).bind fun b =>
        if channel = b.1 then some (b.2, CHANNEL_LIFETIME) else none := by
  have hne : METHOD_CHANNEL_BIND ≠ METHOD_ALLOCATE ∧ METHOD_CHANNEL_BIND ≠ METHOD_REFRESH ∧
      METHOD_CHANNEL_BIND ≠ METHOD_CREATE_PERMISSION := by decide
  have ha := allocations_owned r u n (single u)
  have hchannels : (ownAllocation u n).channelsToPeer = .empty := rfl
  rw [handled, if_neg (by rw [hmethod]; exact hne.1), if_neg (by rw [hmethod]; exact hne.2.1),
    if_neg (by rw [hmethod]; exact hne.2.2), if_pos hmethod, handleChannelBind,
    authenticateOnAllocation_agreeing hseal hmi hcred]
  dsimp only
  cases hbinding : bindingOf msg with
  | none =>
    simp only [ha, map_some, hchannels, Option.bind_none]
    rfl
  | some b =>
    obtain ⟨channel, peer⟩ := b
    have hprune : ((ownAllocation u n).prune 0).channelsToPeer = .empty ∧
        ((ownAllocation u n).prune 0).peerToChannel = .empty := ⟨rfl, rfl⟩
    have hfree : ((ownAllocation u n).prune 0).channelPeer channel 0 = none ∧
        ((ownAllocation u n).prune 0).peerChannel peer 0 = none := ⟨rfl, rfl⟩
    simp only [ha, probeEnv, hfree, Option.any_none, Bool.or_self, Bool.false_eq_true, if_false,
      setAllocation, Table.insert_self, map_some, hprune, Nat.zero_add, bind_some]
    congr 1
    funext c
    rw [Table.insert_apply]
    rfl

end Agreeing

end Probes

/-- What is asked for shows in the state of a server that lets the request in. -/
theorem payload_of_handled (h : Alike msg msg') (hknown : msg.known)
    (hcarried : msg.Carried) (hcarried' : msg'.Carried) {c : Bytes × Bytes} (hseal : sealOf msg.raw = some c)
    {u r n : Text} (hcred : credentialsOf msg = some (u, r, n))
    (hcred' : credentialsOf msg' = some (u, r, n))
    (hsame : ∀ hmac s client env, handled hmac s msg client env = handled hmac s msg' client env) :
    msg.payload = msg'.payload := by
  obtain ⟨covered, observed⟩ := c
  have hseal' : sealOf msg'.raw = some (covered, observed) := h.sealed ▸ hseal
  obtain ⟨hmi, hmi'⟩ := h.integrity
  have hsecond : 0 < SECOND := by decide
  have hne : METHOD_ALLOCATE ≠ METHOD_CREATE_PERMISSION ∧ METHOD_ALLOCATE ≠ METHOD_CHANNEL_BIND ∧
      METHOD_REFRESH ≠ METHOD_CREATE_PERMISSION ∧ METHOD_REFRESH ≠ METHOD_CHANNEL_BIND ∧
      METHOD_CHANNEL_BIND ≠ METHOD_CREATE_PERMISSION := by decide
  unfold ParsedStun.payload
  obtain hmethod | hmethod | hmethod | hmethod := hknown
  · have hmethod' := h.method.symm.trans hmethod
    have hstate := expiresAt_allocate hseal hmi hcred hmethod hcarried
    rw [hsame, expiresAt_allocate hseal' hmi' hcred' hmethod' hcarried'] at hstate
    have hlife := Nat.eq_of_mul_eq_mul_right hsecond (Option.some.inj hstate)
    simp [hmethod, hmethod', hne, hlife]
  · have hmethod' := h.method.symm.trans hmethod
    have hstate := expiresAt_refresh hseal hmi hcred hmethod
    rw [hsame, expiresAt_refresh hseal' hmi' hcred' hmethod'] at hstate
    have hlife : requestedLifetime msg' = requestedLifetime msg := by
      split at hstate
      · next hzero =>
        split at hstate
        · next hzero' => rw [hzero, hzero']
        · contradiction
      · split at hstate
        · contradiction
        · exact Nat.eq_of_mul_eq_mul_right hsecond (Option.some.inj hstate)
    simp [hmethod, hmethod', hne, hlife]
  · have hmethod' := h.method.symm.trans hmethod
    have hstate := permissions_create hseal hmi hcred hmethod
    rw [hsame, permissions_create hseal' hmi' hcred' hmethod'] at hstate
    rw [if_pos hmethod, if_pos hmethod']
    congr 1
    ext ip
    have hip := congrFun (Option.some.inj hstate) ip
    split at hip
    · next hmem' =>
      split at hip
      · next hmem => exact iff_of_true hmem hmem'
      · contradiction
    · next hmem' =>
      split at hip
      · contradiction
      · next hmem => exact iff_of_false hmem hmem'
  · have hmethod' := h.method.symm.trans hmethod
    have hstate := channels_bind hseal hmi hcred hmethod
    rw [hsame, channels_bind hseal' hmi' hcred' hmethod'] at hstate
    have hchannel := congrFun (Option.some.inj hstate)
    have hbinding : bindingOf msg = bindingOf msg' := by
      cases hb : bindingOf msg with
      | none =>
        cases hb' : bindingOf msg' with
        | none => rfl
        | some b' => simpa [hb, hb'] using hchannel b'.1
      | some b =>
        have hat := hchannel b.1
        cases hb' : bindingOf msg' with
        | none => simp [hb, hb'] at hat
        | some b' =>
          simp only [hb, hb', bind_some, if_true] at hat
          split at hat
          · next hfirst => rw [Prod.ext hfirst (Prod.mk.inj (Option.some.inj hat)).1.symm]
          · contradiction
    simp [hmethod, hmethod', hne, hbinding]

/-- Where every server does the same with both, the same is read from both. -/
theorem reading_of_handled (h : Alike msg msg')
    (hsame : ∀ hmac s client env, handled hmac s msg client env = handled hmac s msg' client env) :
    msg.reading = msg'.reading := by
  by_cases hknown : msg.known
  · have hknown' : msg'.known := by rwa [ParsedStun.known, ← h.method]
    obtain ⟨hmi, hmi'⟩ := h.integrity
    have hmac₀ : Hmac := fun _ _ => ⟨List.replicate INTEGRITY_LEN 0, List.length_replicate⟩
    have hblank := errorNumber_blank hmac₀ hknown hmi
    rw [hsame, errorNumber_blank hmac₀ hknown' hmi'] at hblank
    obtain ⟨-, hread⟩ | ⟨-, -, hread⟩ | ⟨u, r, n, hcarried, hcred, hnumber, hread⟩ := reading_cases hknown <;>
      obtain ⟨-, hread'⟩ | ⟨-, -, hread'⟩ | ⟨u', r', n', hcarried', hcred', hnumber', hread'⟩ :=
        reading_cases hknown'
    · rw [hread, hread']
    · rw [hread, hread'] at hblank
      exact absurd hblank (by decide)
    · rw [hread, hnumber'] at hblank
      exact absurd hblank (by decide)
    · rw [hread, hread'] at hblank
      exact absurd hblank (by decide)
    · rw [hread, hread']
    · rw [hread, hnumber'] at hblank
      exact absurd hblank (by decide)
    · rw [hnumber, hread'] at hblank
      exact absurd hblank (by decide)
    · rw [hnumber, hread'] at hblank
      exact absurd hblank (by decide)
    · -- both are complete: realm and nonce, then the user, then what is asked for
      have hfirst := errorNumber_probe hmac₀ hknown hcarried hmi hcred r n
      rw [hsame, errorNumber_probe hmac₀ hknown' hcarried' hmi' hcred',
        if_pos (⟨rfl, rfl⟩ : n = n ∧ r = r)] at hfirst
      obtain ⟨rfl, rfl⟩ : n = n' ∧ r' = r := by
        by_contra hnot
        rw [if_neg hnot] at hfirst
        exact absurd hfirst (by decide)
      obtain ⟨hnone, hread⟩ | ⟨⟨c, hc⟩, hread⟩ := hread <;>
        obtain ⟨hnone', hread'⟩ | ⟨⟨c', hc'⟩, hread'⟩ := hread'
      · rw [hread, hread']
      · rw [h.sealed, hc'] at hnone
        contradiction
      · rw [← h.sealed, hc] at hnone'
        contradiction
      · obtain ⟨covered, observed⟩ := c
        have hseal' : sealOf msg'.raw = some (covered, observed) := h.sealed ▸ hc
        have huser := errorNumber_agreeing hknown hcarried hc hmi hcred u
        rw [hsame, errorNumber_agreeing hknown' hcarried' hseal' hmi' hcred', if_pos rfl, h.method] at huser
        obtain rfl : u' = u := by
          by_contra hnot
          rw [if_neg hnot] at huser
          split at huser <;> exact absurd huser (by decide)
        rw [hread, hread', payload_of_handled h hknown hcarried hcarried' hc hcred hcred' hsame]
  · have hknown' : ¬ msg'.known := by rwa [ParsedStun.known, ← h.method]
    rw [ParsedStun.reading, if_pos hknown, ParsedStun.reading, if_pos hknown']

/-! ## the result -/

/-- **What integrity covers.**  Two requests that are the same through their
MESSAGE-INTEGRITY attribute lead every server to the same state and the same
reply exactly when their handler reads the same from both. -/
theorem dispatch_same_iff (d d' : Bytes) (msg msg' : ParsedStun) (h : SameThroughIntegrity d d')
    (hd : parse d = some msg) (hd' : parse d' = some msg')
    (hdata : isChannelData d = false) (hkind : msg.kind = CLASS_REQUEST) :
    (∀ (hmac : Hmac) (s : TurnServer) (client : SocketAddr) (env : Env),
      s.dispatch hmac d client env = s.dispatch hmac d' client env) ↔ msg.reading = msg'.reading := by
  have halike := h.alike hd hd'
  have hkind' : msg'.kind = CLASS_REQUEST := halike.kind.symm.trans hkind
  have hdata' : isChannelData d' = false := by
    obtain ⟨hlen, -⟩ := parse_eq_some hd
    obtain ⟨hlen', -⟩ := parse_eq_some hd'
    obtain ⟨-, -, -, -, -, -, -, hfirst, -⟩ := h
    have hbyte : d.getD 0 0 = d'.getD 0 0 := by
      have := congrArg (fun l => l.getD 0 0) hfirst
      simpa [List.getD, List.getElem?_take] using this
    simp only [HEADER_LEN] at hlen hlen'
    simp only [isChannelData, hbyte, (by omega : 4 ≤ d.length), (by omega : 4 ≤ d'.length),
      true_and] at hdata ⊢
    exact hdata
  constructor
  · intro hsame
    refine reading_of_handled halike fun hmac s client env => ?_
    have hdispatch := hsame hmac s client env
    rw [dispatch_request hdata hd hkind, dispatch_request hdata' hd' hkind'] at hdispatch
    obtain ⟨hstate, hreply⟩ := Prod.mk.inj hdispatch
    exact Prod.ext hstate (Option.some.inj (Prod.mk.inj hreply).1)
  · intro hread hmac s client env
    rw [dispatch_request hdata hd hkind, dispatch_request hdata' hd' hkind',
      handled_of_reading halike hread]

/-- A CreatePermission of the client, with more attributes behind MESSAGE-INTEGRITY. -/
def sampleTail (extra : List (Nat × Bytes)) : Bytes :=
  finalizeLength (extra.foldl (fun buf a => appendAttr buf a.1 a.2)
    (sampleRequest METHOD_CREATE_PERMISSION [samplePeer]))

/-- An address nobody signed for. -/
def otherPeer : SocketAddr := .v4 0x0A000001#32 5

/-- Its attribute. -/
def otherAttr : Nat × Bytes := (ATTR_XOR_PEER_ADDRESS, xorMappedValue otherPeer (sampleTid 1))

theorem sameThroughIntegrity_sampleTail :
    SameThroughIntegrity (sampleTail []) (sampleTail [(0x7FFF, [1])]) ∧
      SameThroughIntegrity (sampleTail []) (sampleTail [otherAttr]) :=
  ⟨⟨56, 20, by decide +kernel⟩, ⟨56, 20, by decide +kernel⟩⟩

/-- An unknown attribute behind it changes nothing: the peer is permitted. -/
theorem dispatch_same_unknown_attribute :
    ∃ s, exec (TurnServer.next sampleHmac) (.new sampleConfig) sampleBound = some s ∧
      ((s.dispatch sampleHmac (sampleTail []) sampleClient (sampleEnv 3)).1.allocations sampleClient).bind
          (fun a => a.permissions (sampleAddr 2).ip) = some (3 + PERMISSION_LIFETIME) ∧
      s.dispatch sampleHmac (sampleTail []) sampleClient (sampleEnv 3) =
        s.dispatch sampleHmac (sampleTail [(0x7FFF, [1])]) sampleClient (sampleEnv 3) := by
  have hread : (parse (sampleTail [])).map (fun m => (m.kind, m.reading)) =
      (parse (sampleTail [(0x7FFF, [1])])).map (fun m => (m.kind, m.reading)) ∧
      (parse (sampleTail [])).map ParsedStun.kind = some CLASS_REQUEST := by
    decide +kernel
  obtain ⟨hread, hkind⟩ := hread
  obtain ⟨msg, hd, hkind⟩ := map_eq_some_iff.mp hkind
  rw [hd, map_some, eq_comm] at hread
  obtain ⟨msg', hd', hread⟩ := map_eq_some_iff.mp hread
  have hsame := (dispatch_same_iff (sampleTail []) (sampleTail [(0x7FFF, [1])]) msg msg'
    sameThroughIntegrity_sampleTail.1 hd hd' (by decide +kernel) hkind).mpr (Prod.mk.inj hread).2.symm
  have hrun : (exec (TurnServer.next sampleHmac) (.new sampleConfig) sampleBound).bind (fun s =>
      ((s.dispatch sampleHmac (sampleTail []) sampleClient (sampleEnv 3)).1.allocations sampleClient).bind
        fun a => a.permissions (sampleAddr 2).ip) = some (3 + PERMISSION_LIFETIME) := by
    decide +kernel
  obtain ⟨s, hs, hperm⟩ := Option.bind_eq_some_iff.mp hrun
  exact ⟨s, hs, hperm, hsame sampleHmac s sampleClient (sampleEnv 3)⟩

/-- A peer address behind it is permitted, though nobody signed for it. -/
theorem peer_after_integrity :
    ¬ ∀ (d d' : Bytes), SameThroughIntegrity d d' → isChannelData d = false →
      (parse d).map ParsedStun.kind = some CLASS_REQUEST →
      (parse d').map ParsedStun.kind = some CLASS_REQUEST →
      ∀ (hmac : Hmac) (s : TurnServer) (client : SocketAddr) (env : Env),
        s.dispatch hmac d client env = s.dispatch hmac d' client env := by
  intro h
  have hsame := h (sampleTail []) (sampleTail [otherAttr]) sameThroughIntegrity_sampleTail.2
    (by decide +kernel) (by decide +kernel) (by decide +kernel) sampleHmac
  have hrun : ∀ extra s, exec (TurnServer.next sampleHmac) (.new sampleConfig) sampleBound = some s →
      (exec (TurnServer.next sampleHmac) (.new sampleConfig) sampleBound).bind (fun s =>
        ((s.dispatch sampleHmac (sampleTail extra) sampleClient (sampleEnv 3)).1.allocations
          sampleClient).bind fun a => a.permissions otherPeer.ip) =
        ((s.dispatch sampleHmac (sampleTail extra) sampleClient (sampleEnv 3)).1.allocations
          sampleClient).bind fun a => a.permissions otherPeer.ip := by
    intro extra s hs
    rw [hs, bind_some]
  obtain ⟨s, hs⟩ : ∃ s, exec (TurnServer.next sampleHmac) (.new sampleConfig) sampleBound = some s :=
    ⟨_, rfl⟩
  have hplain := hrun [] s hs
  have hmore := hrun [otherAttr] s hs
  rw [hsame s sampleClient (sampleEnv 3), ← hmore] at hplain
  revert hplain
  decide +kernel

end SmithsNet.Ice.Turn
