import Mathlib
import SmithsNet.Ice.Stun

/-!
# SmithsNet.Ice.Codec

Reading what was written: a message that is encoded with a fingerprint decodes
to itself (`decode_encodeWith`).
-/

namespace SmithsNet.Ice

open Lib SmithsNet.Core List StunMessage

/-! ## attributes -/

variable {b value buf out : Bytes} {hmac : Hmac} {l : List (Nat × Bytes)}
    {kind ty n : Nat} {x : Nat × Bytes} {key : Option Bytes} {m : StunMessage} {α : Type}

theorem length_writeAttr (h : writeAttr kind value = .ok b) : b.length = attrSpan value.length := by
  unfold writeAttr at h
  split at h
  · cases h
    simp only [length_append, length_beBytes, length_replicate, attrSpan]
  · contradiction

section

variable (h : writeAttr kind value = .ok b) (hkind : kind < 2 ^ 16) (rest : Bytes)
include h hkind

theorem attrHead_writeAttr :
    attrHead (b ++ rest) = (kind, value.length) ∧ 4 + value.length ≤ (b ++ rest).length ∧
      slice (b ++ rest) 4 value.length = value ∧ (b ++ rest).drop (attrSpan value.length) = rest := by
  have hlength := length_writeAttr h
  unfold writeAttr at h
  split at h
  · next hvalue =>
    refine ⟨?_, ?_, ?_, drop_left' hlength⟩
    · cases h
      simp only [attrHead, slice, append_assoc, drop_zero]
      rw [take_left' (length_beBytes 2 kind), drop_left' (length_beBytes 2 kind),
        take_left' (length_beBytes 2 value.length), beNat_beBytes_of_lt (by simpa using hkind),
        beNat_beBytes_of_lt (by simpa using hvalue)]
    · rw [length_append, hlength, attrSpan]
      omega
    · cases h
      simp only [slice, append_assoc]
      rw [← append_assoc, drop_left' (by simp), take_left]
  · contradiction

theorem attrs_writeAttr : attrs (b ++ rest) = .ok (kind, value) :: attrs rest := by
  obtain ⟨hhead, hlong, hslice, hdrop⟩ := attrHead_writeAttr h hkind rest
  rw [attrs_step (by omega), hhead, if_neg (by omega), hslice, hdrop]

theorem findAttr_writeAttr : findAttr ty (b ++ rest).length (b ++ rest) =
      if kind = ty then some 0 else (findAttr ty rest.length rest).map (b.length + ·) := by
  obtain ⟨hhead, hlong, -, hdrop⟩ := attrHead_writeAttr h hkind rest
  rw [findAttr_step (by omega), hhead, hdrop, length_writeAttr h]

end

theorem attrs_writeAttrs (h : writeAttrs l = .ok b)
    (hkinds : ∀ x ∈ l, x.1 < 2 ^ 16) (rest : Bytes) :
    attrs (b ++ rest) = l.map .ok ++ attrs rest := by
  induction l generalizing b with
  | nil =>
    cases h
    rfl
  | cons x l ih =>
    obtain ⟨kind, value⟩ := x
    obtain ⟨hkind, hkinds⟩ := forall_mem_cons.mp hkinds
    simp only [writeAttrs] at h
    cases hfirst : writeAttr kind value with
    | error e =>
      rw [hfirst] at h
      contradiction
    | ok first =>
      cases hothers : writeAttrs l with
      | error e =>
        rw [hfirst, hothers] at h
        contradiction
      | ok others =>
        rw [hfirst, hothers] at h
        cases h
        rw [append_assoc, attrs_writeAttr hfirst hkind, ih hothers hkinds]
        rfl

/-- What an attribute takes on the wire, if its length fits. -/
def attrBytes (x : Nat × Bytes) : Bytes :=
  beBytes 2 x.1 ++ beBytes 2 x.2.length ++ x.2 ++ List.replicate (pad4 x.2.length) 0

theorem length_attrBytes (x : Nat × Bytes) : (attrBytes x).length = attrSpan x.2.length := by
  simp only [attrBytes, length_append, length_beBytes, length_replicate, attrSpan]

theorem writeAttr_eq_attrBytes (h : x.2.length < 2 ^ 16) :
    writeAttr x.1 x.2 = .ok (attrBytes x) := if_pos h

theorem writeAttrs_eq_flatMap (h : ∀ x ∈ l, x.2.length < 2 ^ 16) :
    writeAttrs l = .ok (l.flatMap attrBytes) := by
  induction l with
  | nil => rfl
  | cons x l ih =>
    obtain ⟨hx, hl⟩ := forall_mem_cons.mp h
    simp only [writeAttrs, writeAttr_eq_attrBytes hx, ih hl, flatMap_cons]
    rfl

/-- The verifiers find the first attribute of a type behind those of other types. -/
theorem findAttr_flatMap (h : ∀ x ∈ l, x.2.length < 2 ^ 16)
    (hkinds : ∀ x ∈ l, x.1 < 2 ^ 16) (hother : ∀ x ∈ l, x.1 ≠ ty) (rest : Bytes) :
    findAttr ty (l.flatMap attrBytes ++ rest).length (l.flatMap attrBytes ++ rest) =
      (findAttr ty rest.length rest).map ((l.flatMap attrBytes).length + ·) := by
  induction l with
  | nil => simp
  | cons x l ih =>
    obtain ⟨hx, hl⟩ := forall_mem_cons.mp h
    obtain ⟨hkind, hkinds⟩ := forall_mem_cons.mp hkinds
    obtain ⟨hne, hother⟩ := forall_mem_cons.mp hother
    rw [flatMap_cons, append_assoc, findAttr_writeAttr (writeAttr_eq_attrBytes hx) hkind,
      if_neg hne, ih hl hkinds hother, Option.map_map, length_append]
    congr 1
    funext n
    exact (Nat.add_assoc _ _ _).symm

theorem attrs_nil : attrs [] = [] := rfl

/-! ## what the attributes say -/

section

variable (m : StunMessage)

theorem apply_username (u : Text) :
    m.apply (ATTR_USERNAME, toUtf8 u) = .ok { m with username := some u } := by
  have hne : ATTR_USERNAME ≠ ATTR_XOR_MAPPED_ADDRESS := by decide
  simp only [apply, if_neg hne, if_true, fromUtf8_toUtf8]

theorem apply_priority (p : UInt32) :
    m.apply (ATTR_PRIORITY, beBytes 4 p.toNat) = .ok { m with priority := some p } := by
  have hread : UInt32.ofNat (beNat (beBytes 4 p.toNat)) = p := by
    rw [beNat_beBytes_of_lt (by simpa using p.toNat_lt), UInt32.ofNat_toNat]
  simp [apply, hread, ATTR_PRIORITY, ATTR_XOR_MAPPED_ADDRESS, ATTR_USERNAME,
    ATTR_ERROR_CODE]

theorem apply_controlling (t : UInt64) :
    m.apply (ATTR_ICE_CONTROLLING, beBytes 8 t.toNat) = .ok { m with iceControlling := some t } := by
  have hread : UInt64.ofNat (beNat (beBytes 8 t.toNat)) = t := by
    rw [beNat_beBytes_of_lt (by simpa using t.toNat_lt), UInt64.ofNat_toNat]
  simp [apply, hread, ATTR_PRIORITY, ATTR_XOR_MAPPED_ADDRESS, ATTR_USERNAME,
    ATTR_ERROR_CODE, ATTR_USE_CANDIDATE, ATTR_ICE_CONTROLLING]

theorem apply_controlled (t : UInt64) :
    m.apply (ATTR_ICE_CONTROLLED, beBytes 8 t.toNat) = .ok { m with iceControlled := some t } := by
  have hread : UInt64.ofNat (beNat (beBytes 8 t.toNat)) = t := by
    rw [beNat_beBytes_of_lt (by simpa using t.toNat_lt), UInt64.ofNat_toNat]
  simp [apply, hread, ATTR_PRIORITY, ATTR_XOR_MAPPED_ADDRESS, ATTR_USERNAME,
    ATTR_ERROR_CODE, ATTR_USE_CANDIDATE, ATTR_ICE_CONTROLLING, ATTR_ICE_CONTROLLED]

theorem apply_errorCode {e : ErrorCode} (h : e.code.toNat < 800) :
    m.apply (ATTR_ERROR_CODE, errorCodeValue e) = .ok { m with errorCode := some e } := by
  have hclass : (UInt8.ofNat (min (e.code.toNat / 100) 255) &&& 0x07).toNat = e.code.toNat / 100 := by
    have hle : e.code.toNat / 100 < 8 := by omega
    rw [UInt8.toNat_and, UInt8.toNat_ofNat', Nat.min_eq_left (by omega),
      Nat.mod_eq_of_lt (by omega)]
    exact Nat.and_two_pow_sub_one_of_lt_two_pow (n := 3) hle
  have hnumber : (UInt8.ofNat (e.code.toNat % 100)).toNat = e.code.toNat % 100 := by
    rw [UInt8.toNat_ofNat', Nat.mod_eq_of_lt (by omega)]
  have hagain : (UInt8.ofNat (min (e.code.toNat / 100) 255) &&& 0x07 &&& 0x07).toNat =
      e.code.toNat / 100 := by
    rw [UInt8.and_assoc, UInt8.and_self, hclass]
  have hcode : UInt16.ofNat (e.code.toNat / 100 * 100 + e.code.toNat % 100) = e.code := by
    rw [Nat.div_add_mod', UInt16.ofNat_toNat]
  have hlength : 4 ≤ (errorCodeValue e).length := by simp [errorCodeValue]
  have hne : ATTR_ERROR_CODE ≠ ATTR_XOR_MAPPED_ADDRESS ∧ ATTR_ERROR_CODE ≠ ATTR_USERNAME := by decide
  simp only [apply, if_neg hne.1, if_neg hne.2, hlength, and_self, if_true]
  simp only [errorCodeValue, cons_append, nil_append, getD_cons_succ,
    getD_cons_zero, drop_succ_cons, drop_zero, hagain, hnumber, hcode,
    fromUtf8Lossy_toUtf8]

theorem apply_integrity (v : Bytes) :
    m.apply (ATTR_MESSAGE_INTEGRITY, v) = .ok { m with hasMessageIntegrity := true } := rfl

theorem apply_fingerprint (v : Bytes) :
    m.apply (ATTR_FINGERPRINT, v) = .ok { m with hasFingerprint := true } := rfl

end

/-! ## addresses -/

theorem xorBytes_xorBytes {x mask : Bytes} (h : x.length ≤ mask.length) :
    xorBytes (xorBytes x mask) mask = x := by
  induction x generalizing mask with
  | nil => simp [xorBytes]
  | cons b x ih =>
    cases mask with
    | nil => simp at h
    | cons k mask =>
      have hrest : xorBytes (xorBytes x mask) mask = x := ih (by simpa using h)
      simp only [xorBytes, zipWith_cons_cons] at hrest ⊢
      rw [hrest, UInt8.xor_assoc, UInt8.xor_self, UInt8.xor_zero]

theorem xorPort_xorPort (port : UInt16) : xorPort (xorPort port) = port := by
  rw [xorPort, xorPort, UInt16.xor_assoc, UInt16.xor_self, UInt16.xor_zero]

theorem length_addressMask (tid : TransactionId) : (addressMask tid).length = 16 := by
  rw [addressMask, length_append, length_beBytes, tid.2]

theorem addressValue_parts (family : UInt8) {port : Bytes} (body : Bytes) (hport : port.length = 2) :
    ([0, family] ++ port ++ body).getD 1 0 = family ∧
      slice ([0, family] ++ port ++ body) 2 2 = port ∧
      slice ([0, family] ++ port ++ body) 4 body.length = body := by
  refine ⟨rfl, ?_, ?_⟩
  · rw [slice, append_assoc]
    exact take_left' hport
  · rw [slice, drop_left' (by simp [hport]), take_length]

/-- What an address becomes on the wire: flow and scope are not written. -/
theorem decodeXorMappedAddress_xorMappedValue (addr : SocketAddr) (tid : TransactionId) :
    decodeXorMappedAddress (xorMappedValue addr tid) tid = .ok (.new addr.ip addr.port) := by
  have hport : xorPort (UInt16.ofNat (beNat (beBytes 2 (xorPort addr.port).toNat))) = addr.port := by
    rw [beNat_beBytes_of_lt (by simpa using (xorPort addr.port).toNat_lt), UInt16.ofNat_toNat,
      xorPort_xorPort]
  have hmask := length_addressMask tid
  unfold xorMappedValue
  cases hip : addr.ip with
  | v4 ip =>
    have hlength : (xorBytes (beBytes 4 ip.toNat) (addressMask tid)).length = 4 := by
      simp [xorBytes, hmask]
    have hvalue : BitVec.ofNat 32 (beNat (xorBytes (xorBytes (beBytes 4 ip.toNat)
        (addressMask tid)) (addressMask tid))) = ip := by
      rw [xorBytes_xorBytes (by simp [hmask]), beNat_beBytes_of_lt (by simpa using ip.isLt),
        BitVec.ofNat_toNat, BitVec.setWidth_eq]
    obtain ⟨hfamily, hslice, hbody⟩ := addressValue_parts 0x01
      (xorBytes (beBytes 4 ip.toNat) (addressMask tid))
      (length_beBytes 2 (xorPort addr.port).toNat)
    rw [hlength] at hbody
    simp only [decodeXorMappedAddress, hfamily, hslice, hbody, hport, hvalue, length_append,
      hlength, length_beBytes]
    simp
  | v6 ip =>
    have hlength : (xorBytes (beBytes 16 ip.toNat) (addressMask tid)).length = 16 := by
      simp [xorBytes, hmask]
    have hvalue : BitVec.ofNat 128 (beNat (xorBytes (xorBytes (beBytes 16 ip.toNat)
        (addressMask tid)) (addressMask tid))) = ip := by
      rw [xorBytes_xorBytes (by simp [hmask]), beNat_beBytes_of_lt (by simpa using ip.isLt),
        BitVec.ofNat_toNat, BitVec.setWidth_eq]
    obtain ⟨hfamily, hslice, hbody⟩ := addressValue_parts 0x02
      (xorBytes (beBytes 16 ip.toNat) (addressMask tid))
      (length_beBytes 2 (xorPort addr.port).toNat)
    rw [hlength] at hbody
    simp only [decodeXorMappedAddress, hfamily, hslice, hbody, hport, hvalue, length_append,
      hlength, length_beBytes]
    simp

theorem apply_xorMappedAddress {tid : TransactionId} (addr : SocketAddr)
    (h : m.transactionId = tid) : m.apply (ATTR_XOR_MAPPED_ADDRESS, xorMappedValue addr tid) =
      .ok { m with xorMappedAddress := some (.new addr.ip addr.port) } := by
  simp only [apply, if_true, h, decodeXorMappedAddress_xorMappedValue]
  rfl

/-! ## messages -/

/-- What a message is read back as. -/
def StunMessage.received (m : StunMessage) (integrity : Bool) : StunMessage :=
  { m with
    xorMappedAddress := m.xorMappedAddress.map fun a => .new a.ip a.port
    hasMessageIntegrity := integrity
    hasFingerprint := true }

theorem foldlM_option (o : Option α) (f : α → Nat × Bytes) (set : Option α → StunMessage)
    (h : ∀ x, (set none).apply (f x) = .ok (set (some x))) :
    (o.map f).toList.foldlM apply (set none) = .ok (set o) := by
  cases o with
  | none => rfl
  | some x =>
    simp only [Option.map_some, Option.toList_some, foldlM_cons, foldlM_nil, h x]
    rfl

theorem foldlM_flag (flag : Bool) (m : StunMessage) (h : m.useCandidate = false) :
    (if flag then [(ATTR_USE_CANDIDATE, [])] else []).foldlM apply m =
      .ok { m with useCandidate := flag } := by
  cases flag with
  | true => rfl
  | false =>
    have hsame : { m with useCandidate := false } = m := by rw [← h]
    exact congrArg Except.ok hsame.symm

theorem foldlM_then {l' : List (Nat × Bytes)} {m' m'' : StunMessage}
    (h : l.foldlM apply m = .ok m') (h' : l'.foldlM apply m' = .ok m'') :
    (l ++ l').foldlM apply m = .ok m'' := by
  rw [foldlM_append, h]
  exact h'

theorem foldlM_attributes (m : StunMessage) (hcode : ∀ e ∈ m.errorCode, e.code.toNat < 800) :
    m.attributes.foldlM apply { kind := m.kind, transactionId := m.transactionId } =
      .ok { m.received false with hasFingerprint := false } := by
  let m₀ : StunMessage := { kind := m.kind, transactionId := m.transactionId }
  let m₁ : StunMessage := { m₀ with xorMappedAddress := (m.received false).xorMappedAddress }
  let m₂ : StunMessage := { m₁ with username := m.username }
  let m₃ : StunMessage := { m₂ with errorCode := m.errorCode }
  let m₄ : StunMessage := { m₃ with priority := m.priority }
  let m₅ : StunMessage := { m₄ with useCandidate := m.useCandidate }
  let m₆ : StunMessage := { m₅ with iceControlling := m.iceControlling }
  have h₁ := foldlM_option m.xorMappedAddress _
    (fun o => { m₀ with xorMappedAddress := o.map fun a => .new a.ip a.port })
    fun a => apply_xorMappedAddress a rfl
  have h₂ := foldlM_option m.username _ (fun o => { m₁ with username := o }) (apply_username _)
  have h₄ := foldlM_option m.priority _ (fun o => { m₃ with priority := o }) (apply_priority _)
  have h₅ := foldlM_flag m.useCandidate m₄ rfl
  have h₆ := foldlM_option m.iceControlling _ (fun o => { m₅ with iceControlling := o })
    (apply_controlling _)
  have h₇ := foldlM_option m.iceControlled _ (fun o => { m₆ with iceControlled := o })
    (apply_controlled _)
  have h₃ : (m.errorCode.map fun e => (ATTR_ERROR_CODE, errorCodeValue e)).toList.foldlM
      apply m₂ = .ok m₃ := by
    cases herr : m.errorCode with
    | none => simp only [m₃, herr]; rfl
    | some e =>
      simp only [Option.map_some, Option.toList_some, foldlM_cons, foldlM_nil, m₃, herr,
        apply_errorCode m₂ (hcode e herr)]
      rfl
  exact foldlM_then (foldlM_then (foldlM_then (foldlM_then (foldlM_then (foldlM_then
    h₁ h₂) h₃) h₄) h₅) h₆) h₇

/-- A buffer with another length field. -/
def patched (buf : Bytes) (n : Nat) : Bytes := buf.take 2 ++ beBytes 2 n ++ buf.drop 4

theorem setLength_eq_ok (h : setLength buf n = .ok b) : n < 2 ^ 16 ∧ b = patched buf n := by
  unfold setLength at h
  split at h
  · next hn => exact ⟨hn, (Except.ok.inj h).symm⟩
  · contradiction

theorem patched_parts (n : Nat) (h : 4 ≤ buf.length) :
    (patched buf n).take 2 = buf.take 2 ∧ (patched buf n).drop 4 = buf.drop 4 ∧
      (patched buf n).length = buf.length := by
  have htwo : (buf.take 2).length = 2 := by
    rw [length_take]
    omega
  refine ⟨?_, ?_, ?_⟩
  · rw [patched, append_assoc, take_left' htwo]
  · exact drop_left' (by rw [length_append, htwo, length_beBytes])
  · rw [patched, length_append, length_append, htwo, length_beBytes, length_drop]
    omega

theorem patched_patched (n k : Nat) (rest : Bytes) (h : 4 ≤ buf.length) :
    patched (patched buf n ++ rest) k = patched (buf ++ rest) k := by
  obtain ⟨htake, hdrop, hlength⟩ := patched_parts n h
  generalize patched buf n = buf' at *
  rw [patched, patched, take_append_of_le_length (by omega), drop_append_of_le_length (by omega),
    take_append_of_le_length (by omega), drop_append_of_le_length (by omega), htake, hdrop]

theorem exists_of_bind_eq_ok {ε β : Type} {x : Except ε α} {f : α → Except ε β} {r : β}
    (h : x >>= f = .ok r) : ∃ y, x = .ok y ∧ f y = .ok r := by
  cases x with
  | error e => contradiction
  | ok y => exact ⟨y, rfl, h⟩

theorem length_header (m : StunMessage) : m.header.length = HEADER_LEN := by
  simp only [header, length_append, length_beBytes, m.transactionId.2]
  rfl

theorem mem_kinds_of_mem (h : x ∈ m.attributes) :
    x.1 ∈ [ATTR_XOR_MAPPED_ADDRESS, ATTR_USERNAME, ATTR_ERROR_CODE, ATTR_PRIORITY, ATTR_USE_CANDIDATE,
      ATTR_ICE_CONTROLLING, ATTR_ICE_CONTROLLED] := by
  simp only [StunMessage.attributes, mem_append, Option.mem_toList, Option.map_eq_some_iff] at h
  obtain (((((⟨a, -, rfl⟩ | ⟨u, -, rfl⟩) | ⟨e, -, rfl⟩) | ⟨p, -, rfl⟩) | hflag) | ⟨t, -, rfl⟩) |
    ⟨t, -, rfl⟩ := h
  · simp
  · simp
  · simp
  · simp
  · split at hflag
    · obtain rfl := List.mem_singleton.mp hflag
      simp
    · contradiction
  · simp
  · simp

theorem kind_attributes (h : x ∈ m.attributes) :
    x.1 < 2 ^ 16 ∧ x.1 ≠ ATTR_MESSAGE_INTEGRITY ∧ x.1 ≠ ATTR_FINGERPRINT := by
  have hkinds : ∀ k ∈ [ATTR_XOR_MAPPED_ADDRESS, ATTR_USERNAME, ATTR_ERROR_CODE, ATTR_PRIORITY,
      ATTR_USE_CANDIDATE, ATTR_ICE_CONTROLLING, ATTR_ICE_CONTROLLED],
      k < 2 ^ 16 ∧ k ≠ ATTR_MESSAGE_INTEGRITY ∧ k ≠ ATTR_FINGERPRINT := by
    decide
  exact hkinds _ (mem_kinds_of_mem h)

/-- A header and attributes behind it. -/
def StunMessage.front (m : StunMessage) (l : List (Nat × Bytes)) : Bytes := m.header ++ l.flatMap attrBytes

theorem length_front (m : StunMessage) (l : List (Nat × Bytes)) :
    (m.front l).length = HEADER_LEN + (l.flatMap attrBytes).length := by
  rw [front, length_append, length_header]

theorem four_le_front (m : StunMessage) (l : List (Nat × Bytes)) : 4 ≤ (m.front l).length := by
  rw [length_front, HEADER_LEN]
  omega

/-- The seal of a key over attributes. -/
def StunMessage.integrity (hmac : Hmac) (m : StunMessage) (l : List (Nat × Bytes)) (key : Bytes) : Nat × Bytes :=
  (ATTR_MESSAGE_INTEGRITY,
    (hmac key (patched (m.front l) ((l.flatMap attrBytes).length + 4 + INTEGRITY_LEN))).1)

/-- The fingerprint of attributes. -/
def StunMessage.fingerprint (m : StunMessage) (l : List (Nat × Bytes)) : Nat × Bytes :=
  (ATTR_FINGERPRINT,
    beBytes 4 (crc32 (patched (m.front l) ((l.flatMap attrBytes).length + 8)) ^^^ FINGERPRINT_XOR).toNat)

/-- The attributes of a message and its integrity. -/
def StunMessage.sealed (hmac : Hmac) (m : StunMessage) (key : Option Bytes) : List (Nat × Bytes) :=
  m.attributes ++ (key.map (m.integrity hmac m.attributes)).toList

/-- All attributes of a message that is encoded. -/
def StunMessage.finished (hmac : Hmac) (m : StunMessage) (key : Option Bytes) (fingerprint : Bool) :
    List (Nat × Bytes) :=
  m.sealed hmac key ++ if fingerprint then [m.fingerprint (m.sealed hmac key)] else []

/-- A header and attributes, whatever the length field says. -/
structure Spells (m : StunMessage) (l : List (Nat × Bytes)) (buf : Bytes) : Prop where
  length : buf.length = HEADER_LEN + (l.flatMap attrBytes).length
  patched : ∀ n, patched buf n = patched (m.front l) n

theorem writeAttr_eq_ok (h : writeAttr kind value = .ok b) : b = attrBytes (kind, value) := by
  unfold writeAttr at h
  split at h
  · exact (Except.ok.inj h).symm
  · contradiction

theorem Spells.append (h : Spells m l buf)
    (n : Nat) (x : Nat × Bytes) : Spells m (l ++ [x]) (Ice.patched buf n ++ attrBytes x) where
  length := by
    have hfour : 4 ≤ buf.length := by
      rw [h.length, HEADER_LEN]
      omega
    rw [length_append, (patched_parts n hfour).2.2, h.length]
    simp [flatMap_append, Nat.add_assoc]
  patched k := by
    rw [h.patched, patched_patched _ _ _ (four_le_front m l)]
    simp [front]

theorem writeAttrs_eq_ok (h : writeAttrs l = .ok b) : b = l.flatMap attrBytes := by
  induction l generalizing b with
  | nil => exact (Except.ok.inj h).symm
  | cons x l ih =>
    obtain ⟨first, hfirst, h⟩ := exists_of_bind_eq_ok h
    obtain ⟨others, hothers, h⟩ := exists_of_bind_eq_ok h
    rw [← Except.ok.inj h, writeAttr_eq_ok hfirst, ih hothers, flatMap_cons]

theorem spells_addIntegrity {key : Bytes}
    (hbuf : Spells m l buf) (h : addIntegrity hmac key buf = .ok b) :
    Spells m (l ++ [m.integrity hmac l key]) b := by
  obtain ⟨out, hset, h⟩ := exists_of_bind_eq_ok h
  obtain ⟨attr, hattr, h⟩ := exists_of_bind_eq_ok h
  obtain ⟨-, rfl⟩ := setLength_eq_ok hset
  have hcount : buf.length + 4 + INTEGRITY_LEN - HEADER_LEN =
      (l.flatMap attrBytes).length + 4 + INTEGRITY_LEN := by
    rw [hbuf.length]
    omega
  rw [← Except.ok.inj h, writeAttr_eq_ok hattr, hcount, StunMessage.integrity, ← hbuf.patched]
  exact hbuf.append _ _

theorem spells_addFingerprint
    (hbuf : Spells m l buf) (h : addFingerprint buf = .ok b) : Spells m (l ++ [m.fingerprint l]) b := by
  obtain ⟨out, hset, h⟩ := exists_of_bind_eq_ok h
  obtain ⟨attr, hattr, h⟩ := exists_of_bind_eq_ok h
  obtain ⟨-, rfl⟩ := setLength_eq_ok hset
  have hcount : buf.length + 8 - HEADER_LEN = (l.flatMap attrBytes).length + 8 := by
    rw [hbuf.length]
    omega
  rw [← Except.ok.inj h, writeAttr_eq_ok hattr, hcount, StunMessage.fingerprint, ← hbuf.patched]
  exact hbuf.append _ _

/-- The bytes of a message: its header, its attributes, and those that seal it. -/
theorem encodeWith_eq_ok {fingerprint : Bool} (h : m.encodeWith hmac key fingerprint = .ok out) :
    out = patched (m.front (m.finished hmac key fingerprint))
        ((m.finished hmac key fingerprint).flatMap attrBytes).length ∧
      ((m.finished hmac key fingerprint).flatMap attrBytes).length < 2 ^ 16 := by
  obtain ⟨written, hwritten, h⟩ := exists_of_bind_eq_ok h
  rw [writeAttrs_eq_ok hwritten] at h
  have hplain : Spells m m.attributes (m.header ++ m.attributes.flatMap attrBytes) :=
    ⟨length_front m m.attributes, fun _ => rfl⟩
  obtain ⟨marked, hsealed, h⟩ : ∃ marked, Spells m (m.sealed hmac key) marked ∧
      ((if fingerprint then addFingerprint marked else .ok marked) >>= fun last =>
        setLength last (last.length - HEADER_LEN)) = .ok out := by
    cases key with
    | none =>
      refine ⟨m.header ++ m.attributes.flatMap attrBytes, ?_, by cases fingerprint <;> exact h⟩
      rwa [sealed, Option.map_none, Option.toList_none, append_nil]
    | some key =>
      obtain ⟨marked, hmarked, h⟩ := exists_of_bind_eq_ok h
      exact ⟨marked, spells_addIntegrity hplain hmarked, by cases fingerprint <;> exact h⟩
  obtain ⟨last, hlast, h⟩ := exists_of_bind_eq_ok h
  have hfinished : Spells m (m.finished hmac key fingerprint) last := by
    cases fingerprint with
    | false =>
      obtain rfl := Except.ok.inj hlast
      rwa [finished, if_neg Bool.false_ne_true, append_nil]
    | true => exact spells_addFingerprint hsealed hlast
  obtain ⟨hsmall, rfl⟩ := setLength_eq_ok h
  rw [hfinished.length, Nat.add_sub_cancel_left] at hsmall ⊢
  exact ⟨hfinished.patched _, hsmall⟩

/-- The type field. -/
def StunMessage.typeField (m : StunMessage) : Nat := METHOD_BINDING ||| m.kind.encode

theorem typeField_spec (m : StunMessage) :
    m.typeField < 2 ^ 16 ∧ methodBits m.typeField = METHOD_BINDING ∧
      StunClass.fromBits m.typeField = m.kind ∧
      (beBytes 2 m.typeField).getD 0 0 &&& 0xC0 = 0 := by
  unfold StunMessage.typeField
  cases m.kind <;> decide

theorem patched_front_flatten (m : StunMessage) (l : List (Nat × Bytes)) (n : Nat) :
    patched (m.front l) n =
      [beBytes 2 m.typeField, beBytes 2 n, beBytes 4 MAGIC_COOKIE, m.transactionId.1,
        l.flatMap attrBytes].flatten := by
  have htake : (m.front l).take 2 = beBytes 2 m.typeField := by
    simp only [front, header, append_assoc]
    exact take_left' (length_beBytes 2 _)
  have hdrop : (m.front l).drop 4 = beBytes 4 MAGIC_COOKIE ++ (m.transactionId.1 ++ l.flatMap attrBytes) := by
    have hfour : (beBytes 2 (METHOD_BINDING ||| m.kind.encode) ++ [0, 0]).length = 4 := by simp
    simp only [front, header, append_assoc]
    rw [← append_assoc, drop_left' hfour]
  rw [patched, htake, hdrop]
  simp

theorem foldlM_readAttr (l : List (Nat × Bytes)) (m : StunMessage) :
    (l.map Except.ok).foldlM readAttr m = l.foldlM apply m := by
  rw [foldlM_map]
  rfl

theorem foldlM_seals (m m' : StunMessage) (key : Option Bytes) (fingerprint : Bool)
    (hmi : m'.hasMessageIntegrity = false) (hfp : m'.hasFingerprint = false) :
    ((key.map (m.integrity hmac m.attributes)).toList ++
        if fingerprint then [m.fingerprint (m.sealed hmac key)] else []).foldlM apply m' =
      .ok { m' with hasMessageIntegrity := key.isSome, hasFingerprint := fingerprint } := by
  cases m'
  simp only at hmi hfp
  subst hmi hfp
  cases key <;> cases fingerprint <;> rfl

theorem kind_finished {fingerprint : Bool} (h : x ∈ m.finished hmac key fingerprint) : x.1 < 2 ^ 16 := by
  simp only [finished, sealed, mem_append, Option.mem_toList,
    Option.map_eq_some_iff] at h
  obtain (hattr | ⟨key, -, rfl⟩) | hfp := h
  · exact (kind_attributes hattr).1
  · show ATTR_MESSAGE_INTEGRITY < 2 ^ 16
    decide
  · split at hfp
    · obtain rfl := List.mem_singleton.mp hfp
      show ATTR_FINGERPRINT < 2 ^ 16
      decide
    · contradiction

theorem length_lt_of_mem (hx : x ∈ l) (h : (l.flatMap attrBytes).length < n) : x.2.length < n := by
  have hle : (attrBytes x).length ≤ (l.flatMap attrBytes).length :=
    (sublist_flatten_of_mem (mem_map_of_mem hx)).length_le
  rw [length_attrBytes, attrSpan] at hle
  omega

theorem attrBlock_front (h : (l.flatMap attrBytes).length < 2 ^ 16) :
    (patched (m.front l) (l.flatMap attrBytes).length).length = HEADER_LEN + (l.flatMap attrBytes).length ∧
      attrBlock (patched (m.front l) (l.flatMap attrBytes).length) = some (l.flatMap attrBytes) := by
  have hlength := (patched_parts (l.flatMap attrBytes).length (four_le_front m l)).2.2.trans (length_front m l)
  refine ⟨hlength, ?_⟩
  have hfield : slice (patched (m.front l) (l.flatMap attrBytes).length) 2 2 =
      beBytes 2 (l.flatMap attrBytes).length := by
    rw [patched_front_flatten]
    exact slice_flatten 1 rfl (by simp [startOf]) (length_beBytes _ _)
  have hbody : slice (patched (m.front l) (l.flatMap attrBytes).length) HEADER_LEN
      (l.flatMap attrBytes).length = l.flatMap attrBytes := by
    rw [patched_front_flatten]
    exact slice_flatten 4 rfl (by simp [startOf, HEADER_LEN, m.transactionId.2]) rfl
  rw [attrBlock, hfield, beNat_beBytes_of_lt (by simpa using h)]
  simp only [hlength, Nat.lt_irrefl, if_false, hbody]

theorem decode_encodeWith_flags {fingerprint : Bool} (h : m.encodeWith hmac key fingerprint = .ok out)
    (hcode : ∀ e ∈ m.errorCode, e.code.toNat < 800) :
    decode out = .ok { m.received key.isSome with hasFingerprint := fingerprint } := by
  obtain ⟨hout, hsmall⟩ := encodeWith_eq_ok h
  have hattrs := attrs_writeAttrs (writeAttrs_eq_flatMap fun x hx => length_lt_of_mem hx hsmall)
    (fun x hx => kind_finished hx) []
  rw [append_nil, attrs_nil, append_nil] at hattrs
  obtain ⟨hlength, hblock⟩ := attrBlock_front (m := m) hsmall
  rw [← hout] at hlength hblock
  rw [patched_front_flatten] at hout
  generalize (m.finished hmac key fingerprint).flatMap attrBytes = body at *
  obtain ⟨htype, hmethod, hclass, hbits⟩ := typeField_spec m
  have hcookie : beNat (slice out 4 4) = MAGIC_COOKIE := by
    have hfield : slice out 4 4 = beBytes 4 MAGIC_COOKIE := by
      rw [hout]
      exact slice_flatten 2 rfl (by simp [startOf]) (length_beBytes _ _)
    rw [hfield, beNat_beBytes_of_lt (by decide)]
  have htypeBits : beNat (slice out 0 2) = m.typeField := by
    have hfield : slice out 0 2 = beBytes 2 m.typeField := by
      rw [hout]
      exact slice_flatten 0 rfl rfl (length_beBytes _ _)
    rw [hfield, beNat_beBytes_of_lt (by simpa using htype)]
  have htid : slice out 8 12 = m.transactionId.1 := by
    rw [hout]
    exact slice_flatten 3 rfl (by simp [startOf]) m.transactionId.2
  have hfirst : out.getD 0 0 &&& 0xC0 = 0 := by
    have hsame : out.getD 0 0 = (beBytes 2 m.typeField).getD 0 0 := by
      rw [hout, flatten_cons, getD_append]
      simp
    rw [hsame, hbits]
  have hfold : (attrs body).foldlM readAttr { kind := m.kind, transactionId := m.transactionId } =
      .ok { m.received key.isSome with hasFingerprint := fingerprint } := by
    rw [hattrs, foldlM_readAttr, finished, sealed, append_assoc]
    exact foldlM_then (foldlM_attributes m hcode) (foldlM_seals m _ key fingerprint rfl rfl)
  unfold decode
  rw [dif_neg (by rw [hlength]; omega), if_neg (not_not.mpr hfirst), if_neg (not_not.mpr hcookie)]
  simp only [htypeBits, hmethod, hblock, hclass, ne_eq, not_true_eq_false, if_false, htid]
  exact hfold

theorem decode_encodeWith
    (h : m.encodeWith hmac key true = .ok out) (hcode : ∀ e ∈ m.errorCode, e.code.toNat < 800) :
    decode out = .ok (m.received key.isSome) := decode_encodeWith_flags h hcode

end SmithsNet.Ice
