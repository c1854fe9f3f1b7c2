import Mathlib
import SmithsNet.Ice.TurnIntegrity

/-!
# SmithsNet.Ice.TurnCodec

What the TURN message code writes and what it reads back.

A message is a header and attributes that are appended to it, with its length
field patched last; one that is sealed has its length patched before its code is
computed as well.  Of the type field, method and class are written by
`encodeType` and read by `methodBits` and `classBits`: the writer drops bit 7 of
the method, which no method of its own has, but which a request can have.  Of an
address, family, IP and port are written: a flow label or a scope id is lost.

* `parse_plain` — what a message is read back as;
* `verify_plain` — when a message verifies;
* `parseRelayed_channelDataFrame`, `parseRelayed_dataIndication` — the two ways
  data is relayed to a client.
-/

namespace SmithsNet.Ice.Turn

open Lib SmithsNet.Core List Nat
open ParsedStun (attr parse)

/-! ## writing a message -/

/-- An attribute, as it is handed to `append_attr` or `append_attr_xor_addr`. -/
inductive Attr
  | value (kind : UInt16) (value : Bytes)
  | addr (kind : UInt16) (addr : SocketAddr)

namespace Attr

variable (txid : TransactionId)

def append (buf : Bytes) : Attr → Bytes
  | value kind v => appendAttr buf kind.toNat v
  | addr kind a => appendAttrXorAddr buf kind.toNat a txid

/-- Its type and its value on the wire. -/
def written : Attr → Nat × Bytes
  | value kind v => (kind.toNat, v)
  | addr kind a => (kind.toNat, xorMappedValue a txid)

end Attr

/-- A header and its attributes. -/
def assemble (method kind : Nat) (txid : TransactionId) (attrs : List Attr) : Bytes :=
  attrs.foldl (Attr.append txid) (header method kind txid)

/-- A message without integrity. -/
def plainMessage (method kind : Nat) (txid : TransactionId) (attrs : List Attr) : Bytes :=
  finalizeLength (assemble method kind txid attrs)

/-- A message whose last attribute is its integrity. -/
def sealedMessage (hmac : Hmac) (key : Bytes) (method kind : Nat) (txid : TransactionId)
    (attrs : List Attr) : Bytes :=
  finalizeLength (appendMessageIntegrity hmac (assemble method kind txid attrs) key)

/-! ## what a client makes of a datagram -/

namespace TurnClient

/-- Data that a server has relayed. -/
inductive Relayed
  | channel (channel : UInt16) (data : Bytes)
  | data (peer : SocketAddr) (data : Bytes)

def parseRelayed (bytes : Bytes) : Option Relayed :=
  if 4 ≤ bytes.length ∧ bytes.getD 0 0 &&& 0xC0 = 0x40 then
    let channel := UInt16.ofNat (beNat (slice bytes 0 2))
    let len := beNat (slice bytes 2 2)
    if bytes.length < 4 + len then none else some (.channel channel (slice bytes 4 len))
  else do
    let msg ← parse bytes
    if msg.kind ≠ CLASS_INDICATION ∨ msg.method ≠ METHOD_DATA then none
    else
      let peer ← (msg.attr ATTR_XOR_PEER_ADDRESS).bind fun v => decodeXorAddr v msg.txid
      let data ← msg.attr ATTR_DATA
      return .data peer data

end TurnClient

/-! ## the type field -/

theorem methodBits_lt (bits : Nat) : methodBits bits < 2 ^ 12 := by
  have hmid : (bits &&& 0x00E0) >>> 1 < 2 ^ 12 := by
    have hmask : bits &&& 0x00E0 ≤ 0x00E0 := and_le_right
    rw [Nat.shiftRight_eq_div_pow]
    omega
  have hhigh : (bits &&& 0x3E00) >>> 2 < 2 ^ 12 := by
    have hmask : bits &&& 0x3E00 ≤ 0x3E00 := and_le_right
    rw [Nat.shiftRight_eq_div_pow]
    omega
  exact or_lt_two_pow (or_lt_two_pow (and_le_right.trans_lt (by omega)) hmid) hhigh

theorem encodeType_lt (method kind : Nat) : encodeType method kind < 2 ^ 14 := by
  have hhigh : (method &&& 0x0F00) <<< 2 < 2 ^ 14 := by
    have hmask : method &&& 0x0F00 ≤ 0x0F00 := and_le_right
    rw [shiftLeft_eq]
    omega
  have hone : ((kind >>> 1) &&& 0b01) <<< 8 < 2 ^ 14 := by
    have hmask : (kind >>> 1) &&& 0b01 ≤ 0b01 := and_le_right
    rw [shiftLeft_eq]
    omega
  have hmid : (method &&& 0x0070) <<< 1 < 2 ^ 14 := by
    have hmask : method &&& 0x0070 ≤ 0x0070 := and_le_right
    rw [shiftLeft_eq]
    omega
  have hzero : (kind &&& 0b01) <<< 4 < 2 ^ 14 := by
    have hmask : kind &&& 0b01 ≤ 0b01 := and_le_right
    rw [shiftLeft_eq]
    omega
  exact or_lt_two_pow (or_lt_two_pow (or_lt_two_pow (or_lt_two_pow hhigh hone) hmid) hzero)
    (and_le_right.trans_lt (by omega))

theorem eq_of_bits {x y : Nat} (n : Nat) (hx : x < 2 ^ n) (hy : y < 2 ^ n)
    (h : ∀ i < n, x.testBit i = y.testBit i) : x = y := by
  refine Nat.eq_of_testBit_eq fun i => ?_
  by_cases hi : i < n
  · exact h i hi
  · have hle := Nat.pow_le_pow_right (n := 2) (by omega) (Nat.le_of_not_lt hi)
    rw [Nat.testBit_lt_two_pow (hx.trans_le hle), Nat.testBit_lt_two_pow (hy.trans_le hle)]

theorem methodBits_encodeType (method kind : Nat) : methodBits (encodeType method kind) = method &&& 0x0F7F := by
  refine eq_of_bits 12 (methodBits_lt _) (and_le_right.trans_lt (by omega)) fun i hi => ?_
  simp only [methodBits, encodeType, Nat.testBit_or, Nat.testBit_and, Nat.testBit_shiftRight,
    Nat.testBit_shiftLeft]
  interval_cases i <;> simp [Nat.testBit]

theorem classBits_encodeType (method : Nat) {kind : Nat} (h : kind < 2 ^ 2) :
    classBits (encodeType method kind) = kind := by
  have hsmall : classBits (encodeType method kind) < 2 ^ 2 :=
    or_lt_two_pow (and_le_right.trans_lt (by omega)) (and_le_right.trans_lt (by omega))
  refine eq_of_bits 2 hsmall h fun i hi => ?_
  simp only [classBits, encodeType, Nat.testBit_or, Nat.testBit_and, Nat.testBit_shiftRight,
    Nat.testBit_shiftLeft]
  interval_cases i <;> simp [Nat.testBit]

theorem bit_clear_iff {method : Nat} (h : method < 2 ^ 12) :
    method &&& 0x0F7F = method ↔ method &&& 0x0080 = 0 := by
  have hsplit : method = (method &&& 0x0F7F) ||| (method &&& 0x0080) := by
    rw [← Nat.and_or_distrib_left]
    exact (Nat.and_two_pow_sub_one_of_lt_two_pow (n := 12) h).symm
  constructor
  · intro hsame
    rw [← hsame, Nat.and_assoc]
    exact Nat.and_zero method
  · intro hclear
    rw [hclear, Nat.or_zero] at hsplit
    exact hsplit.symm

/-! ## reading a message -/

variable {method kind : Nat} {txid : TransactionId} {attrs : List Attr}

theorem appendAttr_eq (buf : Bytes) (kind : Nat) (value : Bytes) :
    appendAttr buf kind value = buf ++ attrBytes (kind, value) := by
  simp only [appendAttr, attrBytes, append_assoc]

theorem append_eq (buf : Bytes) (a : Attr) : a.append txid buf = buf ++ attrBytes (a.written txid) := by
  cases a with
  | value kind v => exact appendAttr_eq buf kind.toNat v
  | addr kind a => exact appendAttr_eq buf kind.toNat (xorMappedValue a txid)

/-- The attributes of a message. -/
def bodyOf (txid : TransactionId) (attrs : List Attr) : Bytes :=
  (attrs.map (Attr.written txid)).flatMap attrBytes

theorem assemble_eq : assemble method kind txid attrs = header method kind txid ++ bodyOf txid attrs := by
  have happend (buf : Bytes) : attrs.foldl (Attr.append txid) buf = buf ++ bodyOf txid attrs := by
    induction attrs generalizing buf with
    | nil => simp [bodyOf]
    | cons a attrs ih => simp [ih, append_eq, bodyOf]
  exact happend _

section

variable (method kind : Nat) (txid : TransactionId)

theorem header_parts (rest : Bytes) :
    (header method kind txid ++ rest).take 2 = beBytes 2 (encodeType method kind) ∧
      (header method kind txid ++ rest).drop 4 = beBytes 4 MAGIC_COOKIE ++ (txid.1 ++ rest) := by
  have hfour : (beBytes 2 (encodeType method kind) ++ [0, 0]).length = 4 := by simp
  simp only [header, append_assoc]
  refine ⟨take_left' (length_beBytes 2 _), ?_⟩
  rw [← append_assoc, drop_left' hfour]

theorem finalizeLength_flatten (body : Bytes) : finalizeLength (header method kind txid ++ body) =
      [beBytes 2 (encodeType method kind), beBytes 2 body.length, beBytes 4 MAGIC_COOKIE, txid.1,
        body].flatten := by
  obtain ⟨htake, hdrop⟩ := header_parts method kind txid body
  rw [finalizeLength, setLength, htake, hdrop, length_append, length_header, Nat.add_sub_cancel_left]
  simp

theorem parse_finalizeLength (body : Bytes) :
    ∃ msg, parse (finalizeLength (header method kind txid ++ body)) = some msg ∧
      msg.method = methodBits (encodeType method kind) ∧ msg.kind = classBits (encodeType method kind) ∧
      msg.txid = txid ∧
      (body.length < 2 ^ 16 → msg.raw = finalizeLength (header method kind txid ++ body) ∧ msg.body = body) := by
  have hflat := finalizeLength_flatten method kind txid body
  generalize finalizeLength (header method kind txid ++ body) = out at hflat
  have hlength : out.length = HEADER_LEN + body.length := by
    rw [hflat]
    simp [HEADER_LEN, txid.2]
    omega
  have htype : beNat (slice out 0 2) = encodeType method kind := by
    have hfield : slice out 0 2 = beBytes 2 (encodeType method kind) := by
      rw [hflat]
      exact slice_flatten 0 rfl rfl (length_beBytes _ _)
    have hlt := encodeType_lt method kind
    rw [hfield, beNat_beBytes_of_lt (by omega)]
  have hlen : beNat (slice out 2 2) = body.length % 2 ^ 16 := by
    have hfield : slice out 2 2 = beBytes 2 body.length := by
      rw [hflat]
      exact slice_flatten 1 rfl (by simp [startOf]) (length_beBytes _ _)
    rw [hfield, beNat, beBytes, reverse_reverse, leNat_leBytes]
    rfl
  have hcookie : beNat (slice out 4 4) = MAGIC_COOKIE := by
    have hfield : slice out 4 4 = beBytes 4 MAGIC_COOKIE := by
      rw [hflat]
      exact slice_flatten 2 rfl (by simp [startOf]) (length_beBytes _ _)
    rw [hfield, beNat_beBytes_of_lt (by decide)]
  have htid : slice out 8 12 = txid.1 := by
    rw [hflat]
    exact slice_flatten 3 rfl (by simp [startOf]) txid.2
  have hbody : slice out HEADER_LEN body.length = body := by
    rw [hflat]
    exact slice_flatten 4 rfl (by simp [startOf, HEADER_LEN, txid.2]) rfl
  have hfits : ¬ out.length < HEADER_LEN + beNat (slice out 2 2) := by
    have hle := Nat.mod_le body.length (2 ^ 16)
    omega
  unfold parse
  rw [dif_neg (by omega), if_neg (not_not.mpr hcookie)]
  dsimp only
  rw [if_neg hfits]
  refine ⟨_, rfl, congrArg methodBits htype, congrArg classBits htype, Subtype.ext htid, fun hsmall => ?_⟩
  rw [hlen, Nat.mod_eq_of_lt hsmall, ← hlength]
  exact ⟨take_length, hbody⟩

end

theorem length_plainMessage :
    (plainMessage method kind txid attrs).length = HEADER_LEN + (bodyOf txid attrs).length := by
  rw [plainMessage, assemble_eq, finalizeLength_flatten]
  simp [HEADER_LEN, txid.2]
  omega

theorem written_lt {x : Nat × Bytes} (hbody : (bodyOf txid attrs).length < 2 ^ 16)
    (h : x ∈ attrs.map (Attr.written txid)) : x.1 < 2 ^ 16 ∧ x.2.length < 2 ^ 16 := by
  constructor
  · obtain ⟨a, -, rfl⟩ := List.mem_map.mp h
    cases a with
    | value kind v => exact kind.toNat_lt
    | addr kind a => exact kind.toNat_lt
  · have hle : (attrBytes x).length ≤ (bodyOf txid attrs).length :=
      (sublist_flatten_of_mem (mem_map_of_mem h)).length_le
    rw [length_attrBytes, attrSpan] at hle
    omega

/-- The message is read back with the method, the class, the transaction id and
the attributes it was written from, and each address among these decodes to
itself. -/
def Reads (method kind : Nat) (txid : TransactionId) (attrs : List Attr) (bytes : Bytes) : Prop :=
  ∃ msg, parse bytes = some msg ∧ msg.method = method ∧ msg.kind = kind ∧ msg.txid = txid ∧
    msg.iterAttrs = attrs.map (Attr.written txid) ∧
    ∀ k a, .addr k a ∈ attrs → decodeXorAddr (xorMappedValue a txid) msg.txid = some a

/-- The address has no flow label and no scope id. -/
def Unscoped : SocketAddr → Prop
  | .v4 _ _ => True
  | .v6 _ _ flowinfo scopeId => flowinfo = 0 ∧ scopeId = 0

/-- No address among the attributes has a flow label or a scope id. -/
def AllUnscoped (attrs : List Attr) : Prop := ∀ k a, .addr k a ∈ attrs → Unscoped a

theorem new_eq_iff (a : SocketAddr) : SocketAddr.new a.ip a.port = a ↔ Unscoped a := by
  cases a with
  | v4 ip port => exact iff_of_true rfl trivial
  | v6 ip port flowinfo scopeId =>
    simp only [SocketAddr.ip, SocketAddr.port, SocketAddr.new, Unscoped, SocketAddr.v6.injEq, true_and,
      eq_comm]

theorem decodeXorAddr_xorMappedValue (a : SocketAddr) (txid : TransactionId) :
    decodeXorAddr (xorMappedValue a txid) txid = some (.new a.ip a.port) := by
  rw [decodeXorAddr, decodeXorMappedAddress_xorMappedValue]
  rfl

/-- **Reading what was written**: all but bit 7 of the method. -/
theorem parse_plain (hkind : kind < 2 ^ 2) (hfits : (plainMessage method kind txid attrs).length < HEADER_LEN + 2 ^ 16) :
    ∃ msg, parse (plainMessage method kind txid attrs) = some msg ∧
      msg.method = method &&& 0x0F7F ∧ msg.kind = kind ∧ msg.txid = txid ∧
      msg.iterAttrs = attrs.map (Attr.written txid) := by
  rw [length_plainMessage] at hfits
  have hbody : (bodyOf txid attrs).length < 2 ^ 16 := by omega
  obtain ⟨msg, hparse, hmethod, hclass, htxid, hrest⟩ :=
    parse_finalizeLength method kind txid (bodyOf txid attrs)
  rw [plainMessage, assemble_eq]
  refine ⟨msg, hparse, hmethod.trans (methodBits_encodeType _ _), hclass.trans (classBits_encodeType _ hkind),
    htxid, ?_⟩
  have hwritten := writeAttrs_eq_flatMap fun x hx => (written_lt hbody hx).2
  have hattrs := attrs_writeAttrs hwritten (fun x hx => (written_lt hbody hx).1) []
  rw [append_nil, attrs_nil, append_nil] at hattrs
  rw [iterAttrs_eq, (hrest hbody).2, bodyOf, hattrs, filterMap_map]
  exact filterMap_some

theorem reads_plain_iff (hmethod : method < 2 ^ 12) (hkind : kind < 2 ^ 2)
    (hfits : (plainMessage method kind txid attrs).length < HEADER_LEN + 2 ^ 16) :
    Reads method kind txid attrs (plainMessage method kind txid attrs) ↔
      method &&& 0x0080 = 0 ∧ AllUnscoped attrs := by
  obtain ⟨msg, hparse, hread, hclass, htxid, hattrs⟩ := parse_plain hkind hfits
  have haddr : ∀ a, decodeXorAddr (xorMappedValue a txid) msg.txid = some a ↔ Unscoped a := by
    intro a
    rw [htxid, decodeXorAddr_xorMappedValue, Option.some.injEq, new_eq_iff]
  rw [← bit_clear_iff hmethod, ← hread]
  constructor
  · rintro ⟨msg', hparse', hsame, -, -, -, hdecodes⟩
    obtain rfl := Option.mem_unique hparse hparse'
    exact ⟨hsame, fun k a ha => (haddr a).mp (hdecodes k a ha)⟩
  · rintro ⟨hclear, hunscoped⟩
    exact ⟨msg, hparse, hclear, hclass, htxid, hattrs, fun k a ha => (haddr a).mpr (hunscoped k a ha)⟩

/-! ## integrity -/

/-- The code of a header and of the attributes behind it. -/
def codeOf (hmac : Hmac) (key : Bytes) (method kind : Nat) (txid : TransactionId) (l : List (Nat × Bytes)) :
    Bytes :=
  (hmac key (setLength (header method kind txid ++ l.flatMap attrBytes)
    ((l.flatMap attrBytes).length + 4 + INTEGRITY_LEN))).1

theorem finalizeLength_setLength {buf : Bytes} (n : Nat) (rest : Bytes) (h : 4 ≤ buf.length) :
    finalizeLength (setLength buf n ++ rest) = finalizeLength (buf ++ rest) := by
  have hlength : (setLength buf n).length = buf.length := (patched_parts n h).2.2
  rw [finalizeLength, finalizeLength, length_append, length_append, hlength]
  exact patched_patched n _ rest h

/-- The attributes of a sealed message: the integrity is one more. -/
def withCode (hmac : Hmac) (key : Bytes) (method kind : Nat) (txid : TransactionId) (attrs : List Attr) :
    List Attr :=
  attrs ++ [.value 0x0008 (codeOf hmac key method kind txid (attrs.map (Attr.written txid)))]

theorem allUnscoped_withCode (hmac : Hmac) (key : Bytes) :
    AllUnscoped (withCode hmac key method kind txid attrs) ↔ AllUnscoped attrs := by
  simp [AllUnscoped, withCode]

theorem sealedMessage_eq (hmac : Hmac) (key : Bytes) : sealedMessage hmac key method kind txid attrs =
    plainMessage method kind txid (withCode hmac key method kind txid attrs) := by
  have hlen : (header method kind txid ++ bodyOf txid attrs).length = HEADER_LEN + (bodyOf txid attrs).length := by
    rw [length_append, length_header]
  have hfour : 4 ≤ (header method kind txid ++ bodyOf txid attrs).length := by
    rw [hlen, HEADER_LEN]
    omega
  have hcount : (header method kind txid ++ bodyOf txid attrs).length + 4 + INTEGRITY_LEN - HEADER_LEN =
      (bodyOf txid attrs).length + 4 + INTEGRITY_LEN := by
    omega
  rw [sealedMessage, appendMessageIntegrity, assemble_eq]
  rw [appendAttr_eq, finalizeLength_setLength _ _ hfour, hcount, plainMessage, assemble_eq]
  simp [bodyOf, withCode, codeOf, Attr.written, ATTR_MESSAGE_INTEGRITY]

theorem around_attr (method kind : Nat) (txid : TransactionId) (front back : Bytes)
    {x : Nat × Bytes} (hx : x.2.length < 2 ^ 16) :
    let out := finalizeLength (header method kind txid ++ (front ++ (attrBytes x ++ back)))
    beNat (slice out (HEADER_LEN + front.length + 2) 2) = x.2.length ∧
      slice out (HEADER_LEN + front.length + 4) x.2.length = x.2 ∧
      HEADER_LEN + front.length + 4 + x.2.length ≤ out.length ∧
      ∀ n, setLength (out.take (HEADER_LEN + front.length)) n = setLength (header method kind txid ++ front) n := by
  intro out
  let head := beBytes 2 (encodeType method kind) ++ beBytes 2 (front ++ (attrBytes x ++ back)).length ++
    beBytes 4 MAGIC_COOKIE ++ txid.1
  have hhead : head.length = HEADER_LEN := by simp [head, txid.2, HEADER_LEN]
  have hflat : out = [head ++ front, beBytes 2 x.1, beBytes 2 x.2.length, x.2,
      List.replicate (pad4 x.2.length) 0 ++ back].flatten := by
    simp only [out, finalizeLength_flatten, head, attrBytes]
    simp
  refine ⟨?_, ?_, ?_, fun n => ?_⟩
  · have hfield : slice out (HEADER_LEN + front.length + 2) 2 = beBytes 2 x.2.length := by
      rw [hflat]
      exact slice_flatten 2 rfl (by simp [startOf, hhead]) (length_beBytes _ _)
    rw [hfield, beNat_beBytes_of_lt (by simpa using hx)]
  · rw [hflat]
    exact slice_flatten 3 rfl (by simp [startOf, hhead]) rfl
  · rw [hflat]
    simp [hhead]
    omega
  · have htake : out.take (HEADER_LEN + front.length) = head ++ front := by
      rw [hflat, flatten_cons]
      exact take_left' (by rw [length_append, hhead])
    obtain ⟨htwo, hfour⟩ := header_parts method kind txid front
    have htwo' : (head ++ front).take 2 = beBytes 2 (encodeType method kind) := by
      simp only [head, append_assoc]
      exact take_left' (length_beBytes 2 _)
    have hfour' : (head ++ front).drop 4 = beBytes 4 MAGIC_COOKIE ++ (txid.1 ++ front) := by
      simp only [head, append_assoc]
      rw [← append_assoc, drop_left' (by simp)]
    rw [htake, setLength, setLength, htwo, hfour, htwo', hfour']

/-- The walk of the verifier finds the first integrity, and what stands before it is covered. -/
theorem verify_plain (hmac : Hmac) (key : Bytes) {front back : List (Nat × Bytes)} {v : Bytes}
    (hfits : (plainMessage method kind txid attrs).length < HEADER_LEN + 2 ^ 16)
    (hsplit : attrs.map (Attr.written txid) = front ++ (ATTR_MESSAGE_INTEGRITY, v) :: back)
    (hfirst : ∀ x ∈ front, x.1 ≠ ATTR_MESSAGE_INTEGRITY) :
    verifyMessageIntegrity hmac (plainMessage method kind txid attrs) key =
      decide (v = codeOf hmac key method kind txid front) := by
  rw [length_plainMessage] at hfits
  have hbody : (bodyOf txid attrs).length < 2 ^ 16 := by omega
  have hwritten {x : Nat × Bytes} (hx : x ∈ front ++ (ATTR_MESSAGE_INTEGRITY, v) :: back) :
      x.1 < 2 ^ 16 ∧ x.2.length < 2 ^ 16 := written_lt hbody (hsplit ▸ hx)
  have hflat : bodyOf txid attrs = front.flatMap attrBytes ++
      (attrBytes (ATTR_MESSAGE_INTEGRITY, v) ++ back.flatMap attrBytes) := by
    rw [bodyOf, hsplit, flatMap_append, flatMap_cons]
  have hvalue := writeAttr_eq_attrBytes (hwritten (mem_append_right _ mem_cons_self)).2
  have hfind : findAttr ATTR_MESSAGE_INTEGRITY (bodyOf txid attrs).length (bodyOf txid attrs) =
      some (front.flatMap attrBytes).length := by
    rw [hflat, findAttr_flatMap (fun x hx => (hwritten (mem_append_left _ hx)).2)
      (fun x hx => (hwritten (mem_append_left _ hx)).1) hfirst,
      findAttr_writeAttr hvalue (hwritten (mem_append_right _ mem_cons_self)).1, if_pos rfl]
    rfl
  obtain ⟨msg, hparse, -, -, -, hrest⟩ :=
    parse_finalizeLength method kind txid (bodyOf txid attrs)
  obtain ⟨-, hmsg⟩ := hrest hbody
  obtain ⟨hlength, hslice, hlong, hcovered⟩ :=
  around_attr method kind txid (front.flatMap attrBytes) (back.flatMap attrBytes)
    (hwritten (mem_append_right _ mem_cons_self)).2
  rw [← hflat] at hlength hslice hlong hcovered
  rw [plainMessage, assemble_eq, verifyMessageIntegrity, sealOf, hparse]
  generalize finalizeLength (header method kind txid ++ bodyOf txid attrs) = out at *
  simp only [Option.bind_eq_bind, Option.bind_some, hmsg, hfind, hlength]
  have hcode := (hmac key (setLength (header method kind txid ++ front.flatMap attrBytes)
    ((front.flatMap attrBytes).length + 4 + INTEGRITY_LEN))).2
  by_cases hv : v.length = INTEGRITY_LEN
  · dsimp only at hslice hlong
    rw [hv] at hslice hlong
    have hadjusted : (out.take (HEADER_LEN + (front.flatMap attrBytes).length)).take 2 ++
        beBytes 2 (HEADER_LEN + (front.flatMap attrBytes).length + 4 + INTEGRITY_LEN - HEADER_LEN) ++
        (out.take (HEADER_LEN + (front.flatMap attrBytes).length)).drop 4 =
          setLength (header method kind txid ++ front.flatMap attrBytes)
            ((front.flatMap attrBytes).length + 4 + INTEGRITY_LEN) := by
      rw [← hcovered]
      congr 3
      omega
    rw [if_neg (by omega), hslice, hadjusted]
    rfl
  · rw [if_pos (.inl hv)]
    have hne : v ≠ codeOf hmac key method kind txid front := fun heq => hv (heq ▸ hcode)
    simp [hne]

/-- The attributes of their own that a sealed message has before its integrity do
not stand in its way: there is none of that type, or the first one is right. -/
def SealsAgree (hmac : Hmac) (key : Bytes) (method kind : Nat) (txid : TransactionId) (attrs : List Attr) :
    Prop :=
  let l := attrs.map (Attr.written txid)
  ∀ x ∈ (l.dropWhile fun x => x.1 ≠ ATTR_MESSAGE_INTEGRITY).head?,
    x.2 = codeOf hmac key method kind txid (l.takeWhile fun x => x.1 ≠ ATTR_MESSAGE_INTEGRITY)

theorem verify_sealed (hmac : Hmac) (key : Bytes)
    (hfits : (sealedMessage hmac key method kind txid attrs).length < HEADER_LEN + 2 ^ 16) :
    verifyMessageIntegrity hmac (sealedMessage hmac key method kind txid attrs) key = true ↔
      SealsAgree hmac key method kind txid attrs := by
  rw [sealedMessage_eq] at hfits ⊢
  have hwritten : (withCode hmac key method kind txid attrs).map (Attr.written txid) =
      attrs.map (Attr.written txid) ++
        [(ATTR_MESSAGE_INTEGRITY, codeOf hmac key method kind txid (attrs.map (Attr.written txid)))] := by
    rw [withCode, map_append]
    rfl
  rw [SealsAgree]
  generalize attrs.map (Attr.written txid) = l at *
  have hfront : ∀ x ∈ l.takeWhile fun x => x.1 ≠ ATTR_MESSAGE_INTEGRITY, x.1 ≠ ATTR_MESSAGE_INTEGRITY :=
    fun x hx => by simpa using mem_takeWhile_imp hx
  have hparts := takeWhile_append_dropWhile (p := fun x => decide (x.1 ≠ ATTR_MESSAGE_INTEGRITY)) (l := l)
  cases hback : l.dropWhile fun x => x.1 ≠ ATTR_MESSAGE_INTEGRITY with
  | nil =>
    rw [hback, append_nil] at hparts
    rw [hparts] at hfront
    rw [verify_plain hmac key hfits hwritten hfront]
    simp
  | cons x back =>
    have hx : x.1 = ATTR_MESSAGE_INTEGRITY := by
      have hhead := head?_dropWhile_not (fun x => decide (x.1 ≠ ATTR_MESSAGE_INTEGRITY)) l
      rw [hback] at hhead
      simpa using hhead
    obtain ⟨kind', v⟩ := x
    obtain rfl : kind' = ATTR_MESSAGE_INTEGRITY := hx
    rw [hback] at hparts
    have hsplit : l ++ [(ATTR_MESSAGE_INTEGRITY, codeOf hmac key method kind txid l)] =
        (l.takeWhile fun x => x.1 ≠ ATTR_MESSAGE_INTEGRITY) ++ (ATTR_MESSAGE_INTEGRITY, v) ::
          (back ++ [(ATTR_MESSAGE_INTEGRITY, codeOf hmac key method kind txid l)]) := by
      rw [← cons_append, ← append_assoc, hparts]
    rw [verify_plain hmac key hfits (hwritten.trans hsplit) hfront, decide_eq_true_iff]
    simp

/-! ## replies -/

/-- The reply carries the method and the transaction id of a request. -/
def Answers (method : Nat) (txid : TransactionId) (reply : Bytes) : Prop :=
  ∃ kind body, reply = finalizeLength (header method kind txid ++ body)

theorem answers_buildError (method : Nat) (txid : TransactionId) (code : Nat) (reason : String) :
    Answers method txid (buildError method txid code reason) := by
  rw [buildError, appendErrorCode, appendAttr_eq]
  exact ⟨_, _, rfl⟩

theorem answers_buildChallenge (method : Nat) (txid : TransactionId) (code : Nat) (realm nonce : Text) :
    Answers method txid (buildChallenge method txid code realm nonce) := by
  simp only [buildChallenge, appendErrorCode, appendAttr_eq, append_assoc]
  exact ⟨_, _, rfl⟩

theorem answers_sealReply (hmac : Hmac) (method : Nat) (txid : TransactionId) (key body : Bytes) :
    Answers method txid (TurnServer.sealReply hmac (buildSuccessHeader method txid ++ body) key) := by
  have hfour : 4 ≤ (buildSuccessHeader method txid ++ body).length := by
    rw [length_append, buildSuccessHeader, length_header, HEADER_LEN]
    omega
  rw [TurnServer.sealReply, appendMessageIntegrity, appendAttr_eq, finalizeLength_setLength _ _ hfour,
    append_assoc]
  exact ⟨_, _, rfl⟩

theorem answers_success (hmac : Hmac) (method : Nat) (txid : TransactionId) (key : Bytes) :
    Answers method txid (TurnServer.sealReply hmac (buildSuccessHeader method txid) key) := by
  have hanswers := answers_sealReply hmac method txid key []
  rwa [append_nil] at hanswers

section Handlers

variable {hmac : Hmac} {s : TurnServer} {msg : ParsedStun} {client : SocketAddr} {env : Env}

theorem answers_refused {r : TurnServer × Bytes} (h : s.authenticate hmac msg client env = .error r) :
    Answers msg.method msg.txid r.2 := by
  unfold TurnServer.authenticate at h
  split at h
  · obtain rfl := Except.error.inj h
    exact answers_buildChallenge _ _ _ _ _
  · split at h
    · obtain rfl := Except.error.inj h
      exact answers_buildError _ _ _ _
    · split at h
      · obtain rfl := Except.error.inj h
        exact answers_buildChallenge _ _ _ _ _
      · split at h
        · obtain rfl := Except.error.inj h
          exact answers_buildError _ _ _ _
        · split at h
          · contradiction
          · obtain rfl := Except.error.inj h
            exact answers_buildError _ _ _ _

theorem answers_refused_on {r : TurnServer × Bytes}
    (h : s.authenticateOnAllocation hmac msg client env = .error r) : Answers msg.method msg.txid r.2 := by
  unfold TurnServer.authenticateOnAllocation at h
  cases hauth : s.authenticate hmac msg client env with
  | error r' =>
    rw [hauth] at h
    obtain rfl : r' = r := Except.error.inj h
    exact answers_refused hauth
  | ok auth =>
    rw [hauth] at h
    simp only [bind, Except.bind] at h
    repeat' split at h
    all_goals first
      | contradiction
      | obtain rfl := Except.error.inj h
        exact answers_buildError _ _ _ _

theorem answers_handleAllocate (hmethod : msg.method = METHOD_ALLOCATE) :
    Answers msg.method msg.txid (s.handleAllocate hmac msg client env).2 := by
  unfold TurnServer.handleAllocate
  split
  · exact hmethod ▸ answers_buildError _ _ _ _
  · split
    · next r hauth => exact answers_refused hauth
    · dsimp only
      split
      · exact hmethod ▸ answers_buildError _ _ _ _
      · split
        · exact hmethod ▸ answers_buildError _ _ _ _
        · exact hmethod ▸ answers_buildError _ _ _ _
        · simp only [appendAttrLifetime, appendAttrXorAddr, appendAttr_eq, append_assoc]
          exact hmethod ▸ answers_sealReply _ _ _ _ _

theorem answers_handleRefresh (hmethod : msg.method = METHOD_REFRESH) :
    Answers msg.method msg.txid (s.handleRefresh hmac msg client env).2 := by
  unfold TurnServer.handleRefresh
  split
  · next r hauth => exact answers_refused_on hauth
  · simp only [appendAttrLifetime, appendAttr_eq]
    split
    · exact hmethod ▸ answers_sealReply _ _ _ _ _
    · split
      · exact hmethod ▸ answers_buildError _ _ _ _
      · exact hmethod ▸ answers_sealReply _ _ _ _ _

theorem answers_handleCreatePermission (hmethod : msg.method = METHOD_CREATE_PERMISSION) :
    Answers msg.method msg.txid (s.handleCreatePermission hmac msg client env).2 := by
  unfold TurnServer.handleCreatePermission
  split
  · next r hauth => exact answers_refused_on hauth
  · split
    · exact hmethod ▸ answers_buildError _ _ _ _
    · split
      · exact hmethod ▸ answers_buildError _ _ _ _
      · exact hmethod ▸ answers_success _ _ _ _

theorem answers_handleChannelBind (hmethod : msg.method = METHOD_CHANNEL_BIND) :
    Answers msg.method msg.txid (s.handleChannelBind hmac msg client env).2 := by
  unfold TurnServer.handleChannelBind
  split
  · next r hauth => exact answers_refused_on hauth
  · dsimp only
    split
    · exact hmethod ▸ answers_buildError _ _ _ _
    · split
      · exact hmethod ▸ answers_buildError _ _ _ _
      · split
        · exact hmethod ▸ answers_buildError _ _ _ _
        · exact hmethod ▸ answers_success _ _ _ _

end Handlers

/-- Whatever the server replies, it replies to a request, with the method and the
transaction id that it has read. -/
theorem answers_dispatch {hmac : Hmac} {s : TurnServer} {bytes : Bytes} {client : SocketAddr} {env : Env}
    {reply : Bytes} (h : (s.dispatch hmac bytes client env).2.1 = some reply) :
    ∃ msg, parse bytes = some msg ∧ Answers msg.method msg.txid reply := by
  unfold TurnServer.dispatch at h
  split at h
  · contradiction
  · split at h
    · contradiction
    · next msg hparse =>
      refine ⟨msg, hparse, ?_⟩
      dsimp only at h
      split at h
      · split at h
        · next hmethod =>
          obtain rfl := Option.some.inj h
          exact answers_handleAllocate hmethod
        · split at h
          · next hmethod =>
            obtain rfl := Option.some.inj h
            exact answers_handleRefresh hmethod
          · split at h
            · next hmethod =>
              obtain rfl := Option.some.inj h
              exact answers_handleCreatePermission hmethod
            · split at h
              · next hmethod =>
                obtain rfl := Option.some.inj h
                exact answers_handleChannelBind hmethod
              · obtain rfl := Option.some.inj h
                exact answers_buildError _ _ _ _
      · split at h
        · contradiction
        · contradiction

/-- A client reads a reply as one to the request if no bit of the method is lost. -/
theorem Answers.parse_iff {reply : Bytes} (h : Answers method txid reply) (hmethod : method < 2 ^ 12) :
    (∃ msg, parse reply = some msg ∧ msg.method = method ∧ msg.txid = txid) ↔
      method &&& 0x0080 = 0 := by
  obtain ⟨kind, body, rfl⟩ := h
  obtain ⟨msg, hparse, hread, -, htxid, -⟩ := parse_finalizeLength method kind txid body
  rw [methodBits_encodeType] at hread
  rw [← bit_clear_iff hmethod, ← hread]
  constructor
  · rintro ⟨msg', hparse', hmethod', -⟩
    obtain rfl := Option.mem_unique hparse hparse'
    exact hmethod'
  · exact fun hsame => ⟨msg, hparse, hsame, htxid⟩

/-! ## relayed data -/

/-- The two high bits of the first byte are those of a channel number. -/
theorem channel_byte_iff (channel : UInt16) (rest : Bytes) :
    (beBytes 2 channel.toNat ++ rest).getD 0 0 &&& 0xC0 = 0x40 ↔
      CHANNEL_MIN ≤ channel.toNat ∧ channel.toNat ≤ CHANNEL_MAX := by
  have htable : ∀ n < 256, n &&& 0xC0 = 0x40 ↔ 64 ≤ n ∧ n < 128 := by decide +kernel
  have hlt := channel.toNat_lt
  have hbyte : (beBytes 2 channel.toNat ++ rest).getD 0 0 = UInt8.ofNat (channel.toNat / 256) := by
    rfl
  rw [hbyte, ← UInt8.toNat_inj, UInt8.toNat_and, UInt8.toNat_ofNat', Nat.mod_eq_of_lt (by omega)]
  refine (htable _ (by omega)).trans ?_
  simp only [CHANNEL_MIN, CHANNEL_MAX]
  omega

namespace TurnClient

theorem parseRelayed_channelDataFrame {channel : UInt16} {data : Bytes} (h : data.length < 2 ^ 16) :
    parseRelayed (channelDataFrame channel data) = some (.channel channel data) ↔
      CHANNEL_MIN ≤ channel.toNat ∧ channel.toNat ≤ CHANNEL_MAX := by
  have hflat : channelDataFrame channel data =
      [beBytes 2 channel.toNat, beBytes 2 data.length, data].flatten := by
    simp [channelDataFrame]
  have hchannel : slice (channelDataFrame channel data) 0 2 = beBytes 2 channel.toNat := by
    rw [hflat]
    exact slice_flatten 0 rfl rfl (length_beBytes _ _)
  have hlen : slice (channelDataFrame channel data) 2 2 = beBytes 2 data.length := by
    rw [hflat]
    exact slice_flatten 1 rfl (by simp [startOf]) (length_beBytes _ _)
  have hdata : slice (channelDataFrame channel data) 4 data.length = data := by
    rw [hflat]
    exact slice_flatten 2 rfl (by simp [startOf]) rfl
  have hlength : (channelDataFrame channel data).length = 4 + data.length := by
    simp [channelDataFrame]
    omega
  have hbyte := channel_byte_iff channel (beBytes 2 data.length ++ data)
  rw [← append_assoc, ← channelDataFrame] at hbyte
  rw [← hbyte, parseRelayed]
  constructor
  · intro hparse
    by_contra hout
    rw [if_neg fun hin => hout hin.2] at hparse
    obtain ⟨msg, -, hparse⟩ := Option.bind_eq_some_iff.mp hparse
    split at hparse
    · contradiction
    · -- an indication names its peer
      obtain ⟨peer, -, hparse⟩ := Option.bind_eq_some_iff.mp hparse
      obtain ⟨data', -, hparse⟩ := Option.bind_eq_some_iff.mp hparse
      exact Relayed.noConfusion (Option.some.inj hparse)
  · intro hin
    rw [if_pos ⟨by omega, hin⟩, hchannel, hlen, beNat_beBytes_of_lt (by simpa using channel.toNat_lt),
      beNat_beBytes_of_lt (by simpa using h), UInt16.ofNat_toNat]
    dsimp only
    rw [hdata, if_neg (by omega)]

theorem parseRelayed_dataIndication {txid : TransactionId} {peer : SocketAddr} {data : Bytes}
    (h : (dataIndication txid peer data).length < HEADER_LEN + 2 ^ 16) :
    parseRelayed (dataIndication txid peer data) = some (.data (.new peer.ip peer.port) data) := by
  have hplain : dataIndication txid peer data =
      plainMessage METHOD_DATA CLASS_INDICATION txid [.addr 0x0012 peer, .value 0x0013 data] := rfl
  have hbyte : (dataIndication txid peer data).getD 0 0 = 0 := rfl
  rw [hplain] at h hbyte ⊢
  obtain ⟨msg, hparse, hmethod, hkind, htxid, hattrs⟩ := parse_plain (by decide) h
  have hpeer : msg.attr ATTR_XOR_PEER_ADDRESS = some (xorMappedValue peer txid) := by
    rw [attr, hattrs]
    rfl
  have hdata : msg.attr ATTR_DATA = some data := by
    rw [attr, hattrs]
    rfl
  rw [parseRelayed, hbyte, if_neg (by simp), hparse]
  simp only [Option.bind_eq_bind, Option.bind_some, hpeer, hdata, htxid, decodeXorAddr_xorMappedValue,
    hmethod, hkind]
  rfl

theorem parseRelayed_dataIndication_iff {txid : TransactionId} {peer : SocketAddr} {data : Bytes}
    (h : (dataIndication txid peer data).length < HEADER_LEN + 2 ^ 16) :
    parseRelayed (dataIndication txid peer data) = some (.data peer data) ↔ Unscoped peer := by
  rw [parseRelayed_dataIndication h, Option.some.injEq, Relayed.data.injEq, new_eq_iff]
  exact and_iff_left rfl

end TurnClient

/-! ## the result -/

/-- **The TURN codec**, which loses bit 7 of a method, and the flow label and the
scope id of an address.  A message that fits is read back as it was written if and
only if that bit is clear and no address has either, and one that is sealed
verifies under its key unless an integrity of its own stands in the way; a reply
is read as one to its request if and only if the bit is clear in the method that
the server has read; and what is relayed to a client, it reads back: on a channel
exactly if the channel's number is one of those that can be bound, from a peer
exactly if its address has neither of the two. -/
theorem turn_codec (hmac : Hmac) (key : Bytes) : (∀ method < 2 ^ 12, ∀ kind < 2 ^ 2, ∀ txid attrs,
      ((plainMessage method kind txid attrs).length < HEADER_LEN + 2 ^ 16 →
        (Reads method kind txid attrs (plainMessage method kind txid attrs) ↔
          method &&& 0x0080 = 0 ∧ AllUnscoped attrs)) ∧
      ((sealedMessage hmac key method kind txid attrs).length < HEADER_LEN + 2 ^ 16 →
        (Reads method kind txid (withCode hmac key method kind txid attrs)
            (sealedMessage hmac key method kind txid attrs) ∧
          verifyMessageIntegrity hmac (sealedMessage hmac key method kind txid attrs) key = true ↔
        method &&& 0x0080 = 0 ∧ AllUnscoped attrs ∧ SealsAgree hmac key method kind txid attrs))) ∧
    (∀ (s : TurnServer) bytes client env reply, (s.dispatch hmac bytes client env).2.1 = some reply →
      ∃ msg, parse bytes = some msg ∧
        ((∃ msg', parse reply = some msg' ∧ msg'.method = msg.method ∧ msg'.txid = msg.txid) ↔
          msg.method &&& 0x0080 = 0)) ∧
    (∀ channel data, data.length < 2 ^ 16 →
      (TurnClient.parseRelayed (channelDataFrame channel data) = some (.channel channel data) ↔
        CHANNEL_MIN ≤ channel.toNat ∧ channel.toNat ≤ CHANNEL_MAX)) ∧
    ∀ txid peer data, (dataIndication txid peer data).length < HEADER_LEN + 2 ^ 16 →
      (TurnClient.parseRelayed (dataIndication txid peer data) = some (.data peer data) ↔
        Unscoped peer) := by
  refine ⟨fun method hmethod kind hkind txid attrs => ⟨reads_plain_iff hmethod hkind, fun hfits => ?_⟩,
    fun s bytes client env reply hreply => ?_, fun channel data => TurnClient.parseRelayed_channelDataFrame,
    fun txid peer data => TurnClient.parseRelayed_dataIndication_iff⟩
  · have hplain := hfits
    rw [sealedMessage_eq] at hplain
    rw [verify_sealed hmac key hfits, sealedMessage_eq, reads_plain_iff hmethod hkind hplain,
      allUnscoped_withCode, and_assoc]
  · obtain ⟨msg, hparse, hanswers⟩ := answers_dispatch hreply
    obtain ⟨-, -, -, hmethod, -⟩ := ParsedStun.parse_eq_some hparse
    exact ⟨msg, hparse, hanswers.parse_iff (hmethod ▸ methodBits_lt _)⟩

/-- A sealed Allocate request is read back, and verifies. -/
theorem turn_codec_allocate : Reads METHOD_ALLOCATE CLASS_REQUEST (sampleTid 1)
        (withCode sampleHmac [7] METHOD_ALLOCATE CLASS_REQUEST (sampleTid 1) [.addr 0x0012 (sampleAddr 2)])
        (sealedMessage sampleHmac [7] METHOD_ALLOCATE CLASS_REQUEST (sampleTid 1) [.addr 0x0012 (sampleAddr 2)]) ∧
      verifyMessageIntegrity sampleHmac
        (sealedMessage sampleHmac [7] METHOD_ALLOCATE CLASS_REQUEST (sampleTid 1) [.addr 0x0012 (sampleAddr 2)])
        [7] = true :=
  (((turn_codec sampleHmac [7]).1 METHOD_ALLOCATE (by decide) CLASS_REQUEST (by decide) (sampleTid 1)
    [.addr 0x0012 (sampleAddr 2)]).2 (by decide +kernel)).mpr
      ⟨by decide, fun k a ha => by
        obtain ⟨-, rfl⟩ := Attr.addr.inj (List.mem_singleton.mp ha)
        exact trivial, fun x hx => by contradiction⟩

/-- A request of a method that the server does not know. -/
def sampleUnknown : Bytes :=
  beBytes 2 0x0200 ++ [0, 0] ++ beBytes 4 MAGIC_COOKIE ++ (sampleTid 1).1

/-- The method 0x080 is written as 0, and the reply to a request of that method
is one of the method 0. -/
theorem turn_codec_bit_seven : (¬ ∀ method < 2 ^ 12, ∀ kind < 2 ^ 2, ∀ txid attrs,
      (plainMessage method kind txid attrs).length < HEADER_LEN + 2 ^ 16 →
        Reads method kind txid attrs (plainMessage method kind txid attrs)) ∧
    ¬ ∀ (s : TurnServer) bytes client env reply msg,
      (s.dispatch sampleHmac bytes client env).2.1 = some reply → parse bytes = some msg →
        ∃ msg', parse reply = some msg' ∧ msg'.method = msg.method ∧ msg'.txid = msg.txid := by
  constructor
  · intro h
    obtain ⟨msg, hparse, hmethod, -⟩ :=
      h 0x080 (by decide) CLASS_REQUEST (by decide) (sampleTid 1) [] (by decide +kernel)
    have hread : (parse (plainMessage 0x080 CLASS_REQUEST (sampleTid 1) [])).map
        ParsedStun.method = some 0 := by
      decide +kernel
    rw [hparse, Option.map_some, hmethod] at hread
    cases hread
  · intro h
    have hrequest : (parse sampleUnknown).map ParsedStun.method = some 0x080 := by decide +kernel
    have hreply : ((TurnServer.new sampleConfig).dispatch sampleHmac sampleUnknown sampleClient
        (sampleEnv 0)).2.1.bind (fun reply => (parse reply).map ParsedStun.method) = some 0 := by
      decide +kernel
    obtain ⟨msg, hmsg, hmethod⟩ := Option.map_eq_some_iff.mp hrequest
    obtain ⟨reply, hdispatch, hreply⟩ := Option.bind_eq_some_iff.mp hreply
    obtain ⟨msg', hmsg', hsame, -⟩ := h _ _ _ _ reply msg hdispatch hmsg
    rw [hmsg', Option.map_some, hsame, hmethod] at hreply
    cases hreply

end SmithsNet.Ice.Turn
