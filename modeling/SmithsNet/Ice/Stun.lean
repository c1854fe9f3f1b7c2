import SmithsNet.Core.Dialog
import SmithsNet.Lib.Wire

/-!
# SmithsNet.Ice.Stun

The STUN Binding codec (`smiths-ice/src/stun.rs`): the attributes of a
connectivity check, its integrity and its fingerprint.

Decoding and verification are separate walks over one datagram.  `attrs` is the
walk of the decoder, which stops at an attribute that does not fit;
`findAttrOffset` is the walk of the verifiers, which steps over it.

HMAC-SHA1 is a parameter: a function of the key and the message to 20 bytes.
-/

namespace SmithsNet.Ice

open Lib SmithsNet.Core

/-! ## numbers on the wire -/

def MAGIC_COOKIE : Nat := 0x2112A442

def HEADER_LEN : Nat := 20

def METHOD_BINDING : Nat := 0x0001

def ATTR_USERNAME : Nat := 0x0006

def ATTR_MESSAGE_INTEGRITY : Nat := 0x0008

def ATTR_ERROR_CODE : Nat := 0x0009

def ATTR_XOR_MAPPED_ADDRESS : Nat := 0x0020

def ATTR_PRIORITY : Nat := 0x0024

def ATTR_USE_CANDIDATE : Nat := 0x0025

def ATTR_FINGERPRINT : Nat := 0x8028

def ATTR_ICE_CONTROLLED : Nat := 0x8029

def ATTR_ICE_CONTROLLING : Nat := 0x802A

def FINGERPRINT_XOR : UInt32 := 0x5354554e

def ERR_BAD_REQUEST : UInt16 := 400

def ERR_UNAUTHENTICATED : UInt16 := 401

def ERR_ROLE_CONFLICT : UInt16 := 487

/-- Length of a MESSAGE-INTEGRITY value. -/
def INTEGRITY_LEN : Nat := 20

/-! ## messages -/

/-- 96 random bits. -/
abbrev TransactionId := { t : Bytes // t.length = 12 }

inductive StunClass
  | request
  | successResponse
  | errorResponse
  | indication
  deriving DecidableEq

namespace StunClass

def encode : StunClass → Nat
  | request => 0x0000
  | indication => 0x0010
  | successResponse => 0x0100
  | errorResponse => 0x0110

def fromBits (ty : Nat) : StunClass :=
  if ty &&& 0x0110 = 0x0010 then indication
  else if ty &&& 0x0110 = 0x0100 then successResponse
  else if ty &&& 0x0110 = 0x0110 then errorResponse
  else request

end StunClass

/-- The method bits of a type field; Binding is the only one there is. -/
def methodBits (bits : Nat) : Nat :=
  (bits &&& 0x000F) ||| ((bits &&& 0x00E0) >>> 1) ||| ((bits &&& 0x3E00) >>> 2)

structure ErrorCode where
  code : UInt16
  reason : Text

/-- A parsed Binding message. -/
structure StunMessage where
  kind : StunClass
  transactionId : TransactionId
  xorMappedAddress : Option SocketAddr := none
  username : Option Text := none
  priority : Option UInt32 := none
  useCandidate : Bool := false
  iceControlling : Option UInt64 := none
  iceControlled : Option UInt64 := none
  errorCode : Option ErrorCode := none
  /-- The datagram carried the attribute; whether it is right is another matter. -/
  hasMessageIntegrity : Bool := false
  hasFingerprint : Bool := false

inductive StunError
  | shortHeader
  | highBits
  | wrongCookie
  | unknownMethod (bits : Nat)
  | blockTruncated
  | valueTruncated
  | usernameNotUtf8
  | xorMappedShort
  | xorMappedV4Truncated
  | xorMappedV6Truncated
  | xorMappedFamily (family : UInt8)
  | tooLarge
  deriving DecidableEq

namespace StunMessage

def newBindingRequest (tid : TransactionId) : StunMessage := { kind := .request, transactionId := tid }

def newBindingIndication (tid : TransactionId) : StunMessage :=
  { kind := .indication, transactionId := tid }

def newBindingResponse (request : StunMessage) (observed : SocketAddr) : StunMessage where
  kind := .successResponse
  transactionId := request.transactionId
  xorMappedAddress := some observed

def newBindingError (request : StunMessage) (code : UInt16) (reason : Text) : StunMessage where
  kind := .errorResponse
  transactionId := request.transactionId
  errorCode := some ⟨code, reason⟩

end StunMessage

/-! ## writing -/

/-- Bytes to the next multiple of four. -/
def pad4 (n : Nat) : Nat := (4 - n % 4) % 4

def writeAttr (kind : Nat) (value : Bytes) : Except StunError Bytes :=
  if value.length < 2 ^ 16 then
    .ok (beBytes 2 kind ++ beBytes 2 value.length ++ value ++
      List.replicate (pad4 value.length) 0)
  else .error .tooLarge

/-- `buf[2..4]` gets the length. -/
def setLength (buf : Bytes) (bodyLen : Nat) : Except StunError Bytes :=
  if bodyLen < 2 ^ 16 then .ok (buf.take 2 ++ beBytes 2 bodyLen ++ buf.drop 4)
  else .error .tooLarge

def xorBytes (a b : Bytes) : Bytes := List.zipWith (· ^^^ ·) a b

/-- What an address is masked with. -/
def addressMask (tid : TransactionId) : Bytes := beBytes 4 MAGIC_COOKIE ++ tid.1

def xorPort (port : UInt16) : UInt16 := port ^^^ 0x2112

/-- The value of an XOR-MAPPED-ADDRESS attribute. -/
def xorMappedValue (addr : SocketAddr) (tid : TransactionId) : Bytes :=
  match addr.ip with
  | .v4 ip =>
    [0, 0x01] ++ beBytes 2 (xorPort addr.port).toNat ++
      xorBytes (beBytes 4 ip.toNat) (addressMask tid)
  | .v6 ip =>
    [0, 0x02] ++ beBytes 2 (xorPort addr.port).toNat ++
      xorBytes (beBytes 16 ip.toNat) (addressMask tid)

/-- The value of an ERROR-CODE attribute: the class in three bits, the number. -/
def errorCodeValue (err : ErrorCode) : Bytes :=
  [0, 0, UInt8.ofNat (min (err.code.toNat / 100) 255) &&& 0x07, UInt8.ofNat (err.code.toNat % 100)] ++
    toUtf8 err.reason

/-- The attributes of a message, in the order they are written. -/
def StunMessage.attributes (m : StunMessage) : List (Nat × Bytes) :=
  (m.xorMappedAddress.map fun a =>
      (ATTR_XOR_MAPPED_ADDRESS, xorMappedValue a m.transactionId)).toList ++
    (m.username.map fun u => (ATTR_USERNAME, toUtf8 u)).toList ++
    (m.errorCode.map fun e => (ATTR_ERROR_CODE, errorCodeValue e)).toList ++
    (m.priority.map fun p => (ATTR_PRIORITY, beBytes 4 p.toNat)).toList ++
    (if m.useCandidate then [(ATTR_USE_CANDIDATE, [])] else []) ++
    (m.iceControlling.map fun t => (ATTR_ICE_CONTROLLING, beBytes 8 t.toNat)).toList ++
    (m.iceControlled.map fun t => (ATTR_ICE_CONTROLLED, beBytes 8 t.toNat)).toList

/-- The header, its length field still zero. -/
def StunMessage.header (m : StunMessage) : Bytes :=
  beBytes 2 (METHOD_BINDING ||| m.kind.encode) ++ [0, 0] ++ beBytes 4 MAGIC_COOKIE ++
    m.transactionId.1

def writeAttrs : List (Nat × Bytes) → Except StunError Bytes
  | [] => .ok []
  | (kind, value) :: rest => do
      let first ← writeAttr kind value
      let others ← writeAttrs rest
      return first ++ others

/-- `crc >> 1`, with the polynomial when a one falls out. -/
def crcShift (crc : UInt32) : UInt32 := (crc >>> 1) ^^^ (0xEDB88320 &&& (0 - (crc &&& 1)))

def crcByte (crc : UInt32) (b : UInt8) : UInt32 :=
  crcShift (crcShift (crcShift (crcShift (crcShift (crcShift (crcShift (crcShift
    (crc ^^^ b.toUInt32))))))))

def crc32 (bytes : Bytes) : UInt32 := ~~~ (bytes.foldl crcByte 0xFFFFFFFF)

/-- The code of 20 bytes a key makes of a message. -/
abbrev Hmac := Bytes → Bytes → { t : Bytes // t.length = INTEGRITY_LEN }

/-- MESSAGE-INTEGRITY, over a length field that already counts it. -/
def addIntegrity (hmac : Hmac) (key : Bytes) (out : Bytes) : Except StunError Bytes := do
  let out ← setLength out (out.length + 4 + INTEGRITY_LEN - HEADER_LEN)
  let attr ← writeAttr ATTR_MESSAGE_INTEGRITY (hmac key out).1
  return out ++ attr

/-- FINGERPRINT, likewise. -/
def addFingerprint (out : Bytes) : Except StunError Bytes := do
  let out ← setLength out (out.length + 8 - HEADER_LEN)
  let attr ← writeAttr ATTR_FINGERPRINT (beBytes 4 (crc32 out ^^^ FINGERPRINT_XOR).toNat)
  return out ++ attr

def StunMessage.encodeWith (hmac : Hmac) (m : StunMessage) (integrityKey : Option Bytes)
    (fingerprint : Bool) : Except StunError Bytes := do
  let attrs ← writeAttrs m.attributes
  let out := m.header ++ attrs
  let out ← match integrityKey with
    | some key => addIntegrity hmac key out
    | none => .ok out
  let out ← if fingerprint then addFingerprint out else .ok out
  setLength out (out.length - HEADER_LEN)

/-! ## reading -/

/-- Type and length of the attribute at the front. -/
def attrHead (body : Bytes) : Nat × Nat := (beNat (slice body 0 2), beNat (slice body 2 2))

/-- How far the next attribute is. -/
def attrSpan (len : Nat) : Nat := 4 + len + pad4 len

/-- `AttrIter`: the attributes of a body, up to one that does not fit. -/
def attrIter : Nat → Bytes → List (Except StunError (Nat × Bytes))
  | 0, _ => []
  | fuel + 1, body =>
    if body.length < 4 then []
    else
      let (kind, len) := attrHead body
      if body.length < 4 + len then [.error .valueTruncated]
      else .ok (kind, slice body 4 len) :: attrIter fuel (body.drop (attrSpan len))

/-- Every attribute takes at least four bytes. -/
def attrs (body : Bytes) : List (Except StunError (Nat × Bytes)) := attrIter body.length body

def decodeXorMappedAddress (value : Bytes) (tid : TransactionId) : Except StunError SocketAddr :=
  if value.length < 4 then .error .xorMappedShort
  else
    let family := value.getD 1 0
    let port := xorPort (UInt16.ofNat (beNat (slice value 2 2)))
    if family = 0x01 then
      if value.length < 8 then .error .xorMappedV4Truncated
      else .ok (.new (.v4 (BitVec.ofNat 32
        (beNat (xorBytes (slice value 4 4) (addressMask tid))))) port)
    else if family = 0x02 then
      if value.length < 20 then .error .xorMappedV6Truncated
      else .ok (.new (.v6 (BitVec.ofNat 128
        (beNat (xorBytes (slice value 4 16) (addressMask tid))))) port)
    else .error (.xorMappedFamily family)

/-- One attribute; a later one of the same type wins, an unknown one and one of
the wrong length say nothing. -/
def StunMessage.apply (m : StunMessage) (attr : Nat × Bytes) : Except StunError StunMessage :=
  let (kind, value) := attr
  if kind = ATTR_XOR_MAPPED_ADDRESS then
    (decodeXorMappedAddress value m.transactionId).map fun a => { m with xorMappedAddress := some a }
  else if kind = ATTR_USERNAME then
    match fromUtf8 value with
    | some u => .ok { m with username := some u }
    | none => .error .usernameNotUtf8
  else if kind = ATTR_ERROR_CODE ∧ 4 ≤ value.length then
    let code := UInt16.ofNat ((value.getD 2 0 &&& 0x07).toNat * 100 + (value.getD 3 0).toNat)
    .ok { m with errorCode := some ⟨code, fromUtf8Lossy (value.drop 4)⟩ }
  else if kind = ATTR_PRIORITY ∧ value.length = 4 then
    .ok { m with priority := some (UInt32.ofNat (beNat value)) }
  else if kind = ATTR_USE_CANDIDATE then .ok { m with useCandidate := true }
  else if kind = ATTR_ICE_CONTROLLING ∧ value.length = 8 then
    .ok { m with iceControlling := some (UInt64.ofNat (beNat value)) }
  else if kind = ATTR_ICE_CONTROLLED ∧ value.length = 8 then
    .ok { m with iceControlled := some (UInt64.ofNat (beNat value)) }
  else if kind = ATTR_MESSAGE_INTEGRITY then .ok { m with hasMessageIntegrity := true }
  else if kind = ATTR_FINGERPRINT then .ok { m with hasFingerprint := true }
  else .ok m

/-- The next item of the iterator. -/
def readAttr (m : StunMessage) (attr : Except StunError (Nat × Bytes)) :
    Except StunError StunMessage := attr.bind m.apply

/-- The attribute block a header announces. -/
def attrBlock (raw : Bytes) : Option Bytes :=
  let length := beNat (slice raw 2 2)
  if raw.length < HEADER_LEN + length then none else some (slice raw HEADER_LEN length)

theorem length_transactionId {raw : Bytes} (h : ¬ raw.length < HEADER_LEN) :
    (slice raw 8 12).length = 12 := by
  apply length_slice
  simp only [HEADER_LEN] at h
  omega

def decode (raw : Bytes) : Except StunError StunMessage :=
  if h : raw.length < HEADER_LEN then .error .shortHeader
  else if raw.getD 0 0 &&& 0xC0 ≠ 0 then .error .highBits
  else if beNat (slice raw 4 4) ≠ MAGIC_COOKIE then .error .wrongCookie
  else
    let typeBits := beNat (slice raw 0 2)
    if methodBits typeBits ≠ METHOD_BINDING then .error (.unknownMethod typeBits)
    else
      match attrBlock raw with
      | none => .error .blockTruncated
      | some body =>
        (attrs body).foldlM readAttr
          { kind := .fromBits typeBits
            transactionId := ⟨slice raw 8 12, length_transactionId h⟩ }

/-! ## verifying -/

/-- The first attribute of a type, from the front of the body on. -/
def findAttr (ty : Nat) : Nat → Bytes → Option Nat
  | 0, _ => none
  | fuel + 1, body =>
    if body.length < 4 then none
    else
      let (kind, len) := attrHead body
      if kind = ty then some 0
      else (findAttr ty fuel (body.drop (attrSpan len))).map (attrSpan len + ·)

/-- Offset in the datagram of the first attribute of a type. -/
def findAttrOffset (raw : Bytes) (ty : Nat) : Option Nat :=
  if raw.length < 4 then none
  else (attrBlock raw).bind fun body => (findAttr ty body.length body).map (HEADER_LEN + ·)

def verifyMessageIntegrity (hmac : Hmac) (raw key : Bytes) : Bool :=
  match findAttrOffset raw ATTR_MESSAGE_INTEGRITY with
  | none => false
  | some offset =>
    if raw.length < offset + 4 + INTEGRITY_LEN then false
    else
      match setLength (raw.take offset) (offset + 4 + INTEGRITY_LEN - HEADER_LEN) with
      | .error _ => false
      | .ok covered => decide (slice raw (offset + 4) INTEGRITY_LEN = (hmac key covered).1)

/-- The attribute is there, it is the last one, and its value is right. -/
def verifyFingerprint (raw : Bytes) : Bool :=
  match findAttrOffset raw ATTR_FINGERPRINT with
  | none => false
  | some offset =>
    if raw.length ≠ offset + 8 then false
    else
      match setLength (raw.take offset) (offset + 8 - HEADER_LEN) with
      | .error _ => false
      | .ok covered =>
        decide (UInt32.ofNat (beNat (slice raw (offset + 4) 4)) = crc32 covered ^^^ FINGERPRINT_XOR)

/-! ## the two walks -/

variable {body : Bytes} {ty m : Nat}

theorem length_drop_attrSpan (h : 4 ≤ body.length) (len : Nat) :
    (body.drop (attrSpan len)).length < body.length := by
  simp only [List.length_drop, attrSpan]
  omega

theorem attrIter_of_le (fuel fuel' : Nat) (h : body.length ≤ fuel)
    (h' : body.length ≤ fuel') : attrIter fuel body = attrIter fuel' body := by
  induction fuel generalizing fuel' body with
  | zero =>
    obtain rfl := List.eq_nil_of_length_eq_zero (Nat.le_zero.mp h)
    cases fuel' <;> simp [attrIter]
  | succ fuel ih =>
    by_cases hshort : body.length < 4
    · cases fuel' <;> simp [attrIter, hshort]
    · cases fuel' with
      | zero => omega
      | succ fuel' =>
        have hlt := length_drop_attrSpan (Nat.le_of_not_lt hshort) (attrHead body).2
        simp only [attrIter, hshort, if_false]
        rw [ih fuel' (by omega) (by omega)]

theorem findAttr_of_le (fuel fuel' : Nat) (h : body.length ≤ fuel)
    (h' : body.length ≤ fuel') : findAttr ty fuel body = findAttr ty fuel' body := by
  induction fuel generalizing fuel' body with
  | zero =>
    obtain rfl := List.eq_nil_of_length_eq_zero (Nat.le_zero.mp h)
    cases fuel' <;> simp [findAttr]
  | succ fuel ih =>
    by_cases hshort : body.length < 4
    · cases fuel' <;> simp [findAttr, hshort]
    · cases fuel' with
      | zero => omega
      | succ fuel' =>
        have hlt := length_drop_attrSpan (Nat.le_of_not_lt hshort) (attrHead body).2
        simp only [findAttr, hshort, if_false]
        rw [ih fuel' (by omega) (by omega)]

theorem attrs_step (h : 4 ≤ body.length) : attrs body =
    if body.length < 4 + (attrHead body).2 then [.error .valueTruncated]
    else .ok ((attrHead body).1, slice body 4 (attrHead body).2) ::
      attrs (body.drop (attrSpan (attrHead body).2)) := by
  have hlt := length_drop_attrSpan h (attrHead body).2
  obtain ⟨fuel, hfuel⟩ : ∃ fuel, body.length = fuel + 1 := ⟨body.length - 1, by omega⟩
  rw [attrs, hfuel, attrIter, if_neg (by omega), hfuel]
  simp only [attrs]
  rw [attrIter_of_le fuel _ (by omega) (Nat.le_refl _)]

theorem findAttr_step (h : 4 ≤ body.length) : findAttr ty body.length body =
      if (attrHead body).1 = ty then some 0
      else (findAttr ty (body.drop (attrSpan (attrHead body).2)).length
        (body.drop (attrSpan (attrHead body).2))).map (attrSpan (attrHead body).2 + ·) := by
  have hlt := length_drop_attrSpan h (attrHead body).2
  obtain ⟨fuel, hfuel⟩ : ∃ fuel, body.length = fuel + 1 := ⟨body.length - 1, by omega⟩
  rw [hfuel, findAttr, if_neg (by omega)]
  simp only
  rw [findAttr_of_le fuel _ (by omega) (Nat.le_refl _)]

theorem findAttr_bound (h : findAttr ty body.length body = some m) : m + 4 ≤ body.length := by
  induction hn : body.length using Nat.strongRecOn generalizing body m with
  | ind n ih =>
    by_cases hshort : body.length < 4
    · cases hlen : body.length with
      | zero => simp [hlen, findAttr] at h
      | succ k =>
        rw [hlen, findAttr, if_pos hshort] at h
        contradiction
    · have hlong := Nat.le_of_not_lt hshort
      rw [findAttr_step hlong] at h
      split at h
      · obtain rfl := Option.some.inj h
        omega
      · obtain ⟨k, hk, rfl⟩ := Option.map_eq_some_iff.mp h
        have hlt := length_drop_attrSpan hlong (attrHead body).2
        have hbound := ih _ (hn ▸ hlt) hk rfl
        simp only [List.length_drop] at hbound
        omega

/-- An attribute that is found is among those of the decoder, unless that stops
before it. -/
theorem mem_attrs_of_findAttr (h : findAttr ty body.length body = some m) :
    (∃ v, .ok (ty, v) ∈ attrs body) ∨ ∃ e, .error e ∈ attrs body := by
  induction hn : body.length using Nat.strongRecOn generalizing body m with
  | ind n ih =>
    have hbound := findAttr_bound h
    have hlong : 4 ≤ body.length := by omega
    rw [attrs_step hlong]
    split
    · exact .inr ⟨_, List.mem_singleton.mpr rfl⟩
    · rw [findAttr_step hlong] at h
      split at h
      · next hkind =>
        subst hkind
        exact .inl ⟨_, List.mem_cons_self⟩
      · obtain ⟨k, hk, -⟩ := Option.map_eq_some_iff.mp h
        have hlt := length_drop_attrSpan hlong (attrHead body).2
        obtain ⟨v, hv⟩ | ⟨e, he⟩ := ih _ (hn ▸ hlt) hk rfl
        · exact .inl ⟨v, List.mem_cons_of_mem _ hv⟩
        · exact .inr ⟨e, List.mem_cons_of_mem _ he⟩

end SmithsNet.Ice
