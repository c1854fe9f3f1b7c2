import SmithsNet.Ice.Agent
import SmithsNet.Ice.Codec
import SmithsNet.Lib.Checked

/-!
# SmithsNet.Ice.StunCodec

The STUN codec as the code reads it, by index and by slice, and the round trip of
a message through it.

`Indexed` has the decoder and the verifiers with every access that could be out
of range; `Indexed.decode_eq` and its companions show that they are the functions
of `SmithsNet.Ice.Stun`, so none of the accesses ever is.  Integrity and
fingerprint are computed over a buffer whose length field is patched to what ends
with them, on both sides: `around_front` says what the verifier cuts out of a
finished message.
-/

namespace SmithsNet.Ice

open Lib SmithsNet.Core Checked

/-! ## reading by index -/

namespace Indexed

def setLength (buf : Bytes) (bodyLen : Nat) : Checked StunError Bytes :=
  if bodyLen < 2 ^ 16 then do
    let _ ← range buf 2 4
    return buf.take 2 ++ beBytes 2 bodyLen ++ buf.drop 4
  else fail .tooLarge

def decodeXorMappedAddress (value : Bytes) (tid : TransactionId) : Checked StunError SocketAddr :=
  if value.length < 4 then fail .xorMappedShort
  else do
    let family ← getAt value 1
    let xored ← bytesAt value 2 2
    let port := xorPort (UInt16.ofNat (beNat xored))
    let cookie := beBytes 4 MAGIC_COOKIE
    if family = 0x01 then
      if value.length < 8 then fail .xorMappedV4Truncated
      else do
        let octets ← bytesAt value 4 4
        let mask ← bytesAt cookie 0 4
        return .new (.v4 (BitVec.ofNat 32 (beNat (xorBytes octets mask)))) port
    else if family = 0x02 then
      if value.length < 20 then fail .xorMappedV6Truncated
      else do
        let octets ← bytesAt value 4 16
        -- `if i < 4 { cookie[i] } else { tid.0[i - 4] }`
        let first ← bytesAt cookie 0 4
        let others ← bytesAt tid.1 0 12
        return .new (.v6 (BitVec.ofNat 128 (beNat (xorBytes octets (first ++ others))))) port
    else fail (.xorMappedFamily family)

/-- What an attribute says. -/
def apply (m : StunMessage) (kind : Nat) (value : Bytes) : Checked StunError StunMessage :=
  if kind = ATTR_XOR_MAPPED_ADDRESS then do
    let a ← decodeXorMappedAddress value m.transactionId
    return { m with xorMappedAddress := some a }
  else if kind = ATTR_USERNAME then
    match fromUtf8 value with
    | some u => .ok { m with username := some u }
    | none => fail .usernameNotUtf8
  else if kind = ATTR_ERROR_CODE ∧ 4 ≤ value.length then do
    let hundreds ← getAt value 2
    let number ← getAt value 3
    let reason ← range value 4 value.length
    return { m with
      errorCode := some ⟨UInt16.ofNat ((hundreds &&& 0x07).toNat * 100 + number.toNat), fromUtf8Lossy reason⟩ }
  else if kind = ATTR_PRIORITY ∧ value.length = 4 then do
    let bytes ← bytesAt value 0 4
    return { m with priority := some (UInt32.ofNat (beNat bytes)) }
  else if kind = ATTR_USE_CANDIDATE then .ok { m with useCandidate := true }
  else if kind = ATTR_ICE_CONTROLLING ∧ value.length = 8 then
    .ok { m with iceControlling := some (UInt64.ofNat (beNat value)) }
  else if kind = ATTR_ICE_CONTROLLED ∧ value.length = 8 then
    .ok { m with iceControlled := some (UInt64.ofNat (beNat value)) }
  else if kind = ATTR_MESSAGE_INTEGRITY then .ok { m with hasMessageIntegrity := true }
  else if kind = ATTR_FINGERPRINT then .ok { m with hasFingerprint := true }
  else .ok m

/-- The attributes from the cursor on. -/
def readAttrs (body : Bytes) (cursor : Nat) (m : StunMessage) : Checked StunError StunMessage :=
  if body.length < cursor + 4 then .ok m
  else do
    let ty ← bytesAt body cursor 2
    let len ← bytesAt body (cursor + 2) 2
    if body.length < cursor + 4 + beNat len then fail .valueTruncated
    else do
      let m ← apply m (beNat ty) (slice body (cursor + 4) (beNat len))
      readAttrs body (cursor + attrSpan (beNat len)) m
termination_by body.length - cursor
decreasing_by
  simp only [attrSpan]
  omega

def decode (raw : Bytes) : Checked StunError StunMessage :=
  if raw.length < HEADER_LEN then fail .shortHeader
  else do
    let b0 ← getAt raw 0
    if b0 &&& 0xC0 ≠ 0 then fail .highBits
    else do
      let typeBits ← bytesAt raw 0 2
      let length ← bytesAt raw 2 2
      let cookie ← bytesAt raw 4 4
      if beNat cookie ≠ MAGIC_COOKIE then fail .wrongCookie
      else do
        let tid ← range raw 8 20
        -- `copy_from_slice`
        if h : tid.length ≠ 12 then .error .outOfRange
        else if methodBits (beNat typeBits) ≠ METHOD_BINDING then
          fail (.unknownMethod (beNat typeBits))
        else if raw.length < HEADER_LEN + beNat length then fail .blockTruncated
        else
          readAttrs (slice raw HEADER_LEN (beNat length)) 0
            { kind := .fromBits (beNat typeBits), transactionId := ⟨tid, not_not.mp h⟩ }

/-- The first attribute of a type, from the cursor on. -/
def findAttr (ty : Nat) (body : Bytes) (cursor : Nat) : Checked StunError (Option Nat) :=
  if body.length < cursor + 4 then .ok none
  else do
    let kind ← bytesAt body cursor 2
    let len ← bytesAt body (cursor + 2) 2
    if beNat kind = ty then .ok (some (HEADER_LEN + cursor))
    else findAttr ty body (cursor + attrSpan (beNat len))
termination_by body.length - cursor
decreasing_by
  simp only [attrSpan]
  omega

def findAttrOffset (raw : Bytes) (ty : Nat) : Checked StunError (Option Nat) :=
  if raw.length < 4 then .ok none
  else
    let length := beNat (slice raw 2 2)
    if raw.length < HEADER_LEN + length then .ok none else findAttr ty (slice raw HEADER_LEN length) 0

/-- What stands before an offset, its length field counting what ends at `stop`; a
length that is too large is a refusal. -/
def covered (raw : Bytes) (offset stop : Nat) : Checked StunError (Option Bytes) := do
  let before ← range raw 0 offset
  match setLength before (stop - HEADER_LEN) with
  | .ok covered => return some covered
  | .error (.error _) => return none
  | .error .outOfRange => .error .outOfRange

def verifyMessageIntegrity (hmac : Hmac) (raw key : Bytes) : Checked StunError Bool := do
  match ← findAttrOffset raw ATTR_MESSAGE_INTEGRITY with
  | none => return false
  | some offset =>
    if raw.length < offset + 4 + INTEGRITY_LEN then return false
    else
      match ← covered raw offset (offset + 4 + INTEGRITY_LEN) with
      | none => return false
      | some covered => return decide (slice raw (offset + 4) INTEGRITY_LEN = (hmac key covered).1)

def verifyFingerprint (raw : Bytes) : Checked StunError Bool := do
  match ← findAttrOffset raw ATTR_FINGERPRINT with
  | none => return false
  | some offset =>
    if raw.length < offset + 8 then return false
    else if raw.length ≠ offset + 8 then return false
    else
      let observed ← bytesAt (slice raw (offset + 4) 4) 0 4
      match ← covered raw offset (offset + 8) with
      | none => return false
      | some covered => return decide (UInt32.ofNat (beNat observed) = crc32 covered ^^^ FINGERPRINT_XOR)

/-! ## no access is out of range -/

theorem setLength_eq {buf : Bytes} (h : 4 ≤ buf.length) (n : Nat) :
    setLength buf n = lift (Ice.setLength buf n) := by
  rw [setLength, Ice.setLength]
  split
  · rw [range_eq (by omega) h]
    rfl
  · rfl

theorem xorBytes_cookie {octets : Bytes} (h : octets.length = 4) (tid : TransactionId) :
    xorBytes octets (addressMask tid) = xorBytes octets (beBytes 4 MAGIC_COOKIE) := by
  calc xorBytes octets (addressMask tid) = xorBytes (octets ++ []) (beBytes 4 MAGIC_COOKIE ++ tid.1) := by
        rw [List.append_nil, addressMask]
    _ = xorBytes octets (beBytes 4 MAGIC_COOKIE) ++ xorBytes [] tid.1 :=
        List.zipWith_append (h.trans (length_beBytes 4 MAGIC_COOKIE).symm)
    _ = xorBytes octets (beBytes 4 MAGIC_COOKIE) := List.append_nil _

theorem decodeXorMappedAddress_eq (value : Bytes) (tid : TransactionId) :
    decodeXorMappedAddress value tid = lift (Ice.decodeXorMappedAddress value tid) := by
  have hcookie : (bytesAt (beBytes 4 MAGIC_COOKIE) 0 4 : Checked StunError Bytes) =
      .ok (beBytes 4 MAGIC_COOKIE) := rfl
  have htid : (bytesAt tid.1 0 12 : Checked StunError Bytes) = .ok tid.1 := by
    rw [bytesAt_eq (by rw [tid.2]), slice, List.drop_zero, List.take_of_length_le (by rw [tid.2])]
  unfold decodeXorMappedAddress Ice.decodeXorMappedAddress
  split
  · rfl
  · next hlen =>
    have hsecond : 1 < value.length := by omega
    have hfamily : value[1] = value.getD 1 0 := (List.getD_eq_getElem _ _ hsecond).symm
    rw [getAt_eq hsecond, ok_bind, bytesAt_eq (by omega), ok_bind, hfamily]
    dsimp only
    split
    · split
      · rfl
      · next hv4 =>
        have hoctets : (slice value 4 4).length = 4 := length_slice (by omega)
        rw [bytesAt_eq (by omega), ok_bind, hcookie, ok_bind,
          xorBytes_cookie hoctets]
        rfl
    · split
      · split
        · rfl
        · rw [bytesAt_eq (by omega), ok_bind, hcookie, ok_bind, htid,
            ok_bind]
          rfl
      · rfl

theorem ite_eq_lift {c : Prop} [Decidable c] {x y : Checked StunError StunMessage} {a b : Except StunError StunMessage}
    (hthen : c → x = lift a) (helse : ¬ c → y = lift b) :
    (if c then x else y) = lift (if c then a else b) := by
  split
  · next hc => exact hthen hc
  · next hc => exact helse hc

theorem apply_eq (m : StunMessage) (kind : Nat) (value : Bytes) :
    apply m kind value = lift (m.apply (kind, value)) := by
  unfold apply StunMessage.apply
  dsimp only
  refine ite_eq_lift (fun _ => ?_) fun _ => ite_eq_lift (fun _ => ?_) fun _ => ite_eq_lift (fun hcode => ?_) fun _ =>
    ite_eq_lift (fun hpriority => ?_) fun _ => ?_
  · rw [decodeXorMappedAddress_eq]
    cases Ice.decodeXorMappedAddress value m.transactionId <;> rfl
  · cases fromUtf8 value <;> rfl
  · obtain ⟨-, hlen⟩ := hcode
    rw [getAt_eq (by omega), ok_bind, getAt_eq (by omega), ok_bind,
      range_length_eq hlen, ok_bind, List.getD_eq_getElem _ _ (by omega),
      List.getD_eq_getElem _ _ (by omega)]
    rfl
  · obtain ⟨-, hlen⟩ := hpriority
    rw [bytesAt_eq (by omega), ok_bind, slice, List.drop_zero,
      List.take_of_length_le (by omega)]
    rfl
  · -- the others read nothing of the value by index
    exact ite_eq_lift (fun _ => rfl) fun _ => ite_eq_lift (fun _ => rfl) fun _ => ite_eq_lift (fun _ => rfl) fun _ =>
      ite_eq_lift (fun _ => rfl) fun _ => ite_eq_lift (fun _ => rfl) fun _ => rfl

theorem slice_drop (s : Bytes) (i j k : Nat) : slice (s.drop i) j k = slice s (i + j) k := by
  rw [slice, List.drop_drop, slice]

theorem attrHead_drop (body : Bytes) (cursor : Nat) :
    attrHead (body.drop cursor) = (beNat (slice body cursor 2), beNat (slice body (cursor + 2) 2)) := by
  rw [attrHead, slice_drop, slice_drop, Nat.add_zero]

/-- From the cursor on, the loop does what the walk does from the front. -/
theorem readAttrs_eq (body : Bytes) (cursor : Nat) (m : StunMessage) :
    readAttrs body cursor m = lift ((attrs (body.drop cursor)).foldlM readAttr m) := by
  induction hn : body.length - cursor using Nat.strongRecOn generalizing cursor m with
  | ind n ih =>
    rw [readAttrs]
    split
    · next hshort =>
      have hnone : attrs (body.drop cursor) = [] := by
        have hdrop : (body.drop cursor).length < 4 := by
          rw [List.length_drop]
          omega
        rw [attrs]
        cases (body.drop cursor).length with
        | zero => rfl
        | succ fuel => rw [attrIter, if_pos hdrop]
      rw [hnone]
      rfl
    · next hlong =>
      have hdrop : 4 ≤ (body.drop cursor).length := by
        rw [List.length_drop]
        omega
      rw [bytesAt_eq (by omega), ok_bind, bytesAt_eq (by omega), ok_bind,
        attrs_step hdrop, attrHead_drop, slice_drop, List.drop_drop, List.length_drop]
      dsimp only
      split
      · rw [if_pos (by omega)]
        rfl
      · rw [if_neg (by omega), apply_eq, List.foldlM_cons, lift_bind]
        congr 1
        funext m'
        exact ih _ (by simp only [attrSpan]; omega) _ m' rfl

theorem decode_eq (raw : Bytes) : decode raw = lift (Ice.decode raw) := by
  unfold decode Ice.decode
  split
  · rfl
  · next hlen =>
    have hlong : HEADER_LEN ≤ raw.length := Nat.le_of_not_lt hlen
    simp only [HEADER_LEN] at hlong
    rw [getAt_eq (by omega), ok_bind, List.getD_eq_getElem _ _ (by omega)]
    split
    · rfl
    · rw [bytesAt_eq (by omega), ok_bind, bytesAt_eq (by omega), ok_bind,
        bytesAt_eq (by omega), ok_bind]
      split
      · rfl
      · have hrange : (range raw 8 20 : Checked StunError Bytes) = .ok (slice raw 8 12) :=
          range_eq (by omega) hlong
        rw [hrange, ok_bind, dif_neg (not_not.mpr (length_transactionId hlen))]
        simp only [attrBlock]
        split
        · rfl
        · split
          · rfl
          · rw [readAttrs_eq, List.drop_zero]

theorem findAttr_eq (ty : Nat) (body : Bytes) (cursor : Nat) :
    findAttr ty body cursor = .ok ((Ice.findAttr ty (body.drop cursor).length (body.drop cursor)).map
      (HEADER_LEN + cursor + ·)) := by
  induction hn : body.length - cursor using Nat.strongRecOn generalizing cursor with
  | ind n ih =>
    rw [findAttr]
    split
    · next hshort =>
      have hnone : Ice.findAttr ty (body.drop cursor).length (body.drop cursor) = none := by
        have hdrop : (body.drop cursor).length < 4 := by
          rw [List.length_drop]
          omega
        cases hlen : (body.drop cursor).length with
        | zero => rfl
        | succ fuel => rw [Ice.findAttr, if_pos hdrop]
      rw [hnone, Option.map_none]
    · next hlong =>
      have hdrop : 4 ≤ (body.drop cursor).length := by
        rw [List.length_drop]
        omega
      rw [bytesAt_eq (by omega), ok_bind, bytesAt_eq (by omega), ok_bind,
        findAttr_step hdrop, attrHead_drop, List.drop_drop]
      dsimp only
      split
      · rfl
      · rw [ih _ (by simp only [attrSpan]; omega) _ rfl, Option.map_map]
        congr 2
        funext k
        simp only [Function.comp_apply]
        omega

theorem findAttrOffset_eq (raw : Bytes) (ty : Nat) :
    findAttrOffset raw ty = .ok (Ice.findAttrOffset raw ty) := by
  unfold findAttrOffset Ice.findAttrOffset attrBlock
  split
  · rfl
  · dsimp only
    split
    · rfl
    · rw [findAttr_eq]
      rfl

theorem findAttrOffset_bounds {raw : Bytes} {ty offset : Nat}
    (h : Ice.findAttrOffset raw ty = some offset) : HEADER_LEN ≤ offset ∧ offset + 4 ≤ raw.length := by
  unfold Ice.findAttrOffset at h
  split at h
  · contradiction
  · obtain ⟨body, hbody, h⟩ := Option.bind_eq_some_iff.mp h
    obtain ⟨m, hm, rfl⟩ := Option.map_eq_some_iff.mp h
    have hbound := findAttr_bound hm
    unfold attrBlock at hbody
    dsimp only at hbody
    split at hbody
    · contradiction
    · next hfits =>
      rw [← Option.some.inj hbody, length_slice (by omega)] at hbound
      omega

theorem covered_eq {raw : Bytes} {offset : Nat} (h : HEADER_LEN ≤ offset ∧ offset + 4 ≤ raw.length)
    (stop : Nat) :
    covered raw offset stop = .ok (Ice.setLength (raw.take offset) (stop - HEADER_LEN)).toOption := by
  have htake : slice raw 0 (offset - 0) = raw.take offset := by rw [slice, List.drop_zero, Nat.sub_zero]
  have hlength : 4 ≤ (raw.take offset).length := by
    rw [List.length_take]
    simp only [HEADER_LEN] at h
    omega
  rw [covered, range_eq (Nat.zero_le _) (by omega), ok_bind, htake, setLength_eq hlength]
  cases Ice.setLength (raw.take offset) (stop - HEADER_LEN) <;> rfl

theorem verifyMessageIntegrity_eq (hmac : Hmac) (raw key : Bytes) :
    verifyMessageIntegrity hmac raw key = .ok (Ice.verifyMessageIntegrity hmac raw key) := by
  rw [verifyMessageIntegrity, Ice.verifyMessageIntegrity, findAttrOffset_eq, ok_bind]
  cases hfind : Ice.findAttrOffset raw ATTR_MESSAGE_INTEGRITY with
  | none => rfl
  | some offset =>
    dsimp only
    split
    · rfl
    · rw [covered_eq (findAttrOffset_bounds hfind), ok_bind]
      cases Ice.setLength (raw.take offset) (offset + 4 + INTEGRITY_LEN - HEADER_LEN) <;> rfl

theorem verifyFingerprint_eq (raw : Bytes) : verifyFingerprint raw = .ok (Ice.verifyFingerprint raw) := by
  rw [verifyFingerprint, Ice.verifyFingerprint, findAttrOffset_eq, ok_bind]
  cases hfind : Ice.findAttrOffset raw ATTR_FINGERPRINT with
  | none => rfl
  | some offset =>
    dsimp only
    split
    · next hshort =>
      rw [if_pos (by omega)]
      rfl
    · split
      · rfl
      · next hlength =>
        have hlong : (slice raw (offset + 4) 4).length = 4 := length_slice (by omega)
        have hvalue : slice (slice raw (offset + 4) 4) 0 4 = slice raw (offset + 4) 4 :=
          slice_slice (by omega)
        rw [bytesAt_eq (by omega), ok_bind, covered_eq (findAttrOffset_bounds hfind),
          ok_bind, hvalue]
        cases Ice.setLength (raw.take offset) (offset + 8 - HEADER_LEN) <;> rfl

end Indexed

/-! ## what the verifiers cut out -/

/-- Around an attribute of a finished message: where it is found, what its value
is, and what stands before it. -/
theorem around_front {m : StunMessage} {l front back : List (Nat × Bytes)} {x : Nat × Bytes}
    (hl : l = front ++ x :: back) (hsmall : (l.flatMap attrBytes).length < 2 ^ 16)
    (hkinds : ∀ y ∈ l, y.1 < 2 ^ 16) (hfirst : ∀ y ∈ front, y.1 ≠ x.1) :
    let out := patched (m.front l) (l.flatMap attrBytes).length
    let offset := HEADER_LEN + (front.flatMap attrBytes).length
    findAttrOffset out x.1 = some offset ∧ slice out (offset + 4) x.2.length = x.2 ∧
      out.length = offset + (attrBytes x).length + (back.flatMap attrBytes).length ∧
      ∀ n, patched (out.take offset) n = patched (m.front front) n := by
  intro out offset
  have hflat : l.flatMap attrBytes = front.flatMap attrBytes ++ (attrBytes x ++ back.flatMap attrBytes) := by
    rw [hl, List.flatMap_append, List.flatMap_cons]
  have hfits {y : Nat × Bytes} (hy : y ∈ l) : y.2.length < 2 ^ 16 := length_lt_of_mem hy hsmall
  have hfront {y : Nat × Bytes} (hy : y ∈ front) : y ∈ l := hl ▸ List.mem_append_left _ hy
  have hx : x ∈ l := hl ▸ List.mem_append_right _ List.mem_cons_self
  obtain ⟨hlength, hblock⟩ := attrBlock_front (m := m) hsmall
  -- the header is the same whatever stands behind it
  obtain ⟨head, hhead, hbehind⟩ : ∃ head : Bytes, head.length = HEADER_LEN ∧
      ∀ l', patched (m.front l') (l.flatMap attrBytes).length = head ++ l'.flatMap attrBytes := by
    refine ⟨beBytes 2 m.typeField ++ beBytes 2 (l.flatMap attrBytes).length ++ beBytes 4 MAGIC_COOKIE ++
      m.transactionId.1, by simp [m.transactionId.2, HEADER_LEN], fun l' => ?_⟩
    simp only [patched_front_flatten, List.flatten_cons, List.flatten_nil, List.append_nil, List.append_assoc]
  have hpieces : out = [head ++ front.flatMap attrBytes, beBytes 2 x.1, beBytes 2 x.2.length, x.2,
      List.replicate (pad4 x.2.length) 0 ++ back.flatMap attrBytes].flatten := by
    simp only [out, hbehind, hflat, attrBytes, List.flatten_cons, List.flatten_nil, List.append_nil,
      List.append_assoc]
  refine ⟨?_, ?_, ?_, fun n => ?_⟩
  · have hfind : findAttr x.1 (l.flatMap attrBytes).length (l.flatMap attrBytes) =
        some (front.flatMap attrBytes).length := by
      rw [hflat, findAttr_flatMap (fun y hy => hfits (hfront hy)) (fun y hy => hkinds y (hfront hy)) hfirst,
        findAttr_writeAttr (writeAttr_eq_attrBytes (hfits hx)) (hkinds x hx), if_pos rfl]
      rfl
    rw [findAttrOffset, if_neg (by rw [hlength, HEADER_LEN]; omega), hblock, Option.bind_some, hfind,
      Option.map_some]
  · rw [hpieces]
    exact slice_flatten 3 rfl (by simp [startOf, hhead, offset]) rfl
  · rw [hlength, hflat]
    simp only [List.length_append, offset]
    omega
  · have htake : out.take offset = patched (m.front front) (l.flatMap attrBytes).length := by
      rw [hbehind, hpieces, List.flatten_cons]
      exact List.take_left' (by rw [List.length_append, hhead])
    have hagain := patched_patched (l.flatMap attrBytes).length n [] (four_le_front m front)
    rw [List.append_nil, List.append_nil] at hagain
    rw [htake, hagain]

theorem verify_encodeWith {hmac : Hmac} {m : StunMessage} {key : Bytes} {fingerprint : Bool} {out : Bytes}
    (h : m.encodeWith hmac (some key) fingerprint = .ok out) : verifyMessageIntegrity hmac out key = true := by
  obtain ⟨rfl, hsmall⟩ := encodeWith_eq_ok h
  have hl : m.finished hmac (some key) fingerprint = m.attributes ++ m.integrity hmac m.attributes key ::
      (if fingerprint then [m.fingerprint (m.sealed hmac (some key))] else []) := by
    simp [StunMessage.finished, StunMessage.sealed]
  obtain ⟨hoffset, hvalue, hlength, hcovered⟩ := around_front (m := m) hl hsmall (fun y hy => kind_finished hy)
    fun y hy => (kind_attributes hy).2.1
  have hcode : (m.integrity hmac m.attributes key).2.length = INTEGRITY_LEN := (hmac _ _).2
  have hspan : (attrBytes (m.integrity hmac m.attributes key)).length = 4 + INTEGRITY_LEN := by
    rw [length_attrBytes, hcode]
    rfl
  have hcount : HEADER_LEN + (m.attributes.flatMap attrBytes).length + 4 + INTEGRITY_LEN - HEADER_LEN =
      (m.attributes.flatMap attrBytes).length + 4 + INTEGRITY_LEN := by
    omega
  have hout := (attrBlock_front (m := m) hsmall).1
  rw [hcode] at hvalue
  have hfound : findAttrOffset _ ATTR_MESSAGE_INTEGRITY = _ := hoffset
  rw [verifyMessageIntegrity, hfound]
  dsimp only at hlength ⊢
  rw [if_neg (by omega), hcount, setLength, if_pos (by omega), hvalue, ← patched, hcovered]
  exact decide_eq_true rfl

theorem verifyFingerprint_encodeWith {hmac : Hmac} {m : StunMessage} {key : Option Bytes} {out : Bytes}
    (h : m.encodeWith hmac key true = .ok out) : verifyFingerprint out = true := by
  obtain ⟨rfl, hsmall⟩ := encodeWith_eq_ok h
  have hl : m.finished hmac key true = m.sealed hmac key ++ m.fingerprint (m.sealed hmac key) :: [] := by
    simp [StunMessage.finished]
  have hfirst : ∀ y ∈ m.sealed hmac key, y.1 ≠ ATTR_FINGERPRINT := by
    intro y hy
    obtain hattr | hseal := List.mem_append.mp hy
    · exact (kind_attributes hattr).2.2
    · obtain ⟨k, -, rfl⟩ := Option.map_eq_some_iff.mp (Option.mem_toList.mp hseal)
      show ATTR_MESSAGE_INTEGRITY ≠ ATTR_FINGERPRINT
      decide
  obtain ⟨hoffset, hvalue, hlength, hcovered⟩ := around_front (m := m) hl hsmall (fun y hy => kind_finished hy)
    hfirst
  have hfour : (m.fingerprint (m.sealed hmac key)).2.length = 4 := length_beBytes _ _
  have hspan : (attrBytes (m.fingerprint (m.sealed hmac key))).length = 8 := by
    rw [length_attrBytes, hfour]
    rfl
  have hcount : HEADER_LEN + ((m.sealed hmac key).flatMap attrBytes).length + 8 - HEADER_LEN =
      ((m.sealed hmac key).flatMap attrBytes).length + 8 := by
    omega
  have hout := (attrBlock_front (m := m) hsmall).1
  rw [hfour] at hvalue
  have hfound : findAttrOffset _ ATTR_FINGERPRINT = _ := hoffset
  rw [verifyFingerprint, hfound]
  simp only [List.flatMap_nil, List.length_nil] at hlength
  dsimp only
  rw [if_neg (by omega), hcount, setLength, if_pos (by omega), hvalue, ← patched, hcovered]
  refine decide_eq_true ?_
  rw [StunMessage.fingerprint, beNat_beBytes_of_lt ((UInt32.toNat_lt _).trans_le (by decide)),
    UInt32.ofNat_toNat]

/-! ## the result -/

/-- **The STUN codec.**  Whatever is encoded decodes to the same message, its
address but for flow label and scope, with the flags that were asked for, and it
verifies; and on every byte string decoder and verifiers stay within it. -/
theorem stun_codec (hmac : Hmac) : (∀ (m : StunMessage) key fingerprint out,
      (∀ e ∈ m.errorCode, 100 ≤ e.code.toNat ∧ e.code.toNat ≤ 799) →
      m.encodeWith hmac key fingerprint = .ok out →
        Indexed.decode out = .ok { m with
          xorMappedAddress := m.xorMappedAddress.map fun a => .new a.ip a.port
          hasMessageIntegrity := key.isSome
          hasFingerprint := fingerprint } ∧
        (∀ k, key = some k → Indexed.verifyMessageIntegrity hmac out k = .ok true) ∧
        (fingerprint = true → Indexed.verifyFingerprint out = .ok true)) ∧
    ∀ raw key, Checked.InRange (Indexed.decode raw) ∧
      Checked.InRange (Indexed.verifyMessageIntegrity hmac raw key) ∧
      Checked.InRange (Indexed.verifyFingerprint raw) := by
  constructor
  · intro m key fingerprint out hcode h
    refine ⟨?_, ?_, ?_⟩
    · rw [Indexed.decode_eq, decode_encodeWith_flags h fun e he => by have hle := (hcode e he).2; omega]
      rfl
    · rintro k rfl
      rw [Indexed.verifyMessageIntegrity_eq, verify_encodeWith h]
    · rintro rfl
      rw [Indexed.verifyFingerprint_eq, verifyFingerprint_encodeWith h]
  · intro raw key
    refine ⟨inRange_of_lift (Indexed.decode_eq raw), ?_, ?_⟩
    · rw [Indexed.verifyMessageIntegrity_eq]
      exact inRange_ok _
    · rw [Indexed.verifyFingerprint_eq]
      exact inRange_ok _

/-- A role conflict, sealed. -/
def sampleConflictError : StunMessage :=
  .newBindingError (.newBindingRequest (sampleTid 1)) ERR_ROLE_CONFLICT "Role Conflict".toList

theorem stun_codec_conflict :
    ∃ out, sampleConflictError.encodeWith sampleHmac (some [7]) true = .ok out ∧
      Indexed.decode out =
        .ok { sampleConflictError with hasMessageIntegrity := true, hasFingerprint := true } ∧
      Indexed.verifyMessageIntegrity sampleHmac out [7] = .ok true ∧
      Indexed.verifyFingerprint out = .ok true := by
  have hencodes : (sampleConflictError.encodeWith sampleHmac (some [7]) true).toOption.isSome = true := by
    decide +kernel
  cases hout : sampleConflictError.encodeWith sampleHmac (some [7]) true with
  | error e =>
    rw [hout] at hencodes
    contradiction
  | ok out =>
    have hcode : ∀ e ∈ sampleConflictError.errorCode, 100 ≤ e.code.toNat ∧ e.code.toNat ≤ 799 := by
      intro e he
      obtain rfl := Option.some.inj he
      decide
    obtain ⟨hdecode, hverify, hprint⟩ := (stun_codec sampleHmac).1 _ (some [7]) true out hcode hout
    exact ⟨out, rfl, hdecode, hverify [7] rfl, hprint rfl⟩

/-- An address that is only good on one link. -/
def sampleScoped : SocketAddr := .v6 1#128 5 0 7

/-- The scope of an address does not come back. -/
theorem stun_codec_scope : ¬ ∀ (m : StunMessage) key fingerprint out,
      (∀ e ∈ m.errorCode, 100 ≤ e.code.toNat ∧ e.code.toNat ≤ 799) →
      m.encodeWith sampleHmac key fingerprint = .ok out →
        Indexed.decode out =
          .ok { m with hasMessageIntegrity := key.isSome, hasFingerprint := fingerprint } := by
  intro h
  let m : StunMessage := .newBindingResponse (.newBindingRequest (sampleTid 1)) sampleScoped
  have hread : ((m.encodeWith sampleHmac none false).toOption.bind fun out =>
      (decode out).toOption.bind StunMessage.xorMappedAddress) = some (.v6 1#128 5 0 0) := by
    decide +kernel
  obtain ⟨out, hout, hread⟩ := Option.bind_eq_some_iff.mp hread
  cases hencode : m.encodeWith sampleHmac none false with
  | error e =>
    rw [hencode] at hout
    contradiction
  | ok out' =>
    rw [hencode] at hout
    obtain rfl := Option.some.inj hout
    have hdecode := h m none false out' (fun e he => by contradiction) hencode
    rw [Indexed.decode_eq] at hdecode
    cases hplain : decode out' with
    | error e =>
      rw [hplain] at hread
      contradiction
    | ok m' =>
      rw [hplain] at hread hdecode
      obtain rfl := Except.ok.inj hdecode
      have hsame : sampleScoped = .v6 1#128 5 0 0 := Option.some.inj hread
      exact absurd hsame (by decide)

end SmithsNet.Ice
