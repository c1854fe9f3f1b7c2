import SmithsNet.Lib.Checked

/-!
# SmithsNet.Fax.Udptl

UDPTL framing of T.38 (`smiths-fax/src/udptl.rs`): a sequence number, the
primary payload, and a counted list of secondary payloads, every payload behind
a length of one or two bytes.

The reader indexes into the datagram, so `parse` is a `Checked` computation.
Reader and writer do not agree on the longest payload: the two-byte form holds
fifteen bits, the writer stops at fourteen.  `WithinCeiling` says of a datagram
that its lengths do.
-/

namespace SmithsNet.Fax

open Lib Checked

inductive UdptlError
  | truncated (len : Nat)
  | lengthOverflow
  | malformedErrorRecovery
  | payloadTooLarge
  deriving DecidableEq

structure UdptlPacket where
  sequence : UInt16
  primary : Bytes
  secondary : List Bytes
  deriving DecidableEq

def MIN_LEN : Nat := 4

/-- The longest payload that is written. -/
def MAX_PAYLOAD : Nat := 16383

/-! ## reading -/

/-- T.38 OpenType length: the length and how many bytes it takes. -/
def readLength (bytes : Bytes) : Checked UdptlError (Nat × Nat) :=
  if bytes = [] then fail .lengthOverflow
  else do
    let b0 ← getAt bytes 0
    if b0 &&& 0x80 = 0 then return (b0.toNat, 1)
    else if bytes.length < 2 then fail .lengthOverflow
    else do
      let b1 ← getAt bytes 1
      return ((b0 &&& 0x7F).toNat <<< 8 ||| b1.toNat, 2)

/-- The payload at the front and where it ends. -/
def readLenPrefixed (bytes : Bytes) : Checked UdptlError (Bytes × Nat) := do
  let (len, hdr) ← readLength bytes
  -- `checked_add`
  if 2 ^ 64 ≤ hdr + len then fail .lengthOverflow
  else if bytes.length < hdr + len then fail .lengthOverflow
  else do
    let payload ← range bytes hdr (hdr + len)
    return (payload, hdr + len)

/-- The counted payloads from the cursor on. -/
def readSecondary (bytes : Bytes) : Nat → Nat → Checked UdptlError (List Bytes)
  | 0, _ => .ok []
  | count + 1, cursor => do
      let rest ← range bytes cursor bytes.length
      let (entry, adv) ← readLenPrefixed rest
      let others ← readSecondary bytes count (cursor + adv)
      return entry :: others

def parse (bytes : Bytes) : Checked UdptlError UdptlPacket :=
  if bytes.length < MIN_LEN then fail (.truncated bytes.length)
  else do
    let b0 ← getAt bytes 0
    let b1 ← getAt bytes 1
    let rest ← range bytes 2 bytes.length
    let (primary, adv) ← readLenPrefixed rest
    if bytes.length ≤ 2 + adv then fail .malformedErrorRecovery
    else do
      let count ← getAt bytes (2 + adv)
      let secondary ← readSecondary bytes count.toNat (2 + adv + 1)
      return ⟨UInt16.ofNat (beNat [b0, b1]), primary, secondary⟩

/-! ## writing -/

def writeLenPrefixed (out payload : Bytes) : Except UdptlError Bytes :=
  let len := payload.length
  if MAX_PAYLOAD < len then .error .payloadTooLarge
  else if len < 128 then .ok (out ++ [UInt8.ofNat len] ++ payload)
  else .ok (out ++ [UInt8.ofNat (len >>> 8) ||| 0x80, UInt8.ofNat len] ++ payload)

def UdptlPacket.encode (p : UdptlPacket) : Except UdptlError Bytes := do
  let out := beBytes 2 p.sequence.toNat
  let out ← writeLenPrefixed out p.primary
  -- `u8::try_from`
  if 255 < p.secondary.length then .error .malformedErrorRecovery
  else p.secondary.foldlM writeLenPrefixed (out ++ [UInt8.ofNat p.secondary.length])

/-! ## one payload -/

/-- The bytes of a length that is within the ceiling. -/
def lengthBytes (len : Nat) : Bytes :=
  if len < 128 then [UInt8.ofNat len]
  else [UInt8.ofNat (len >>> 8) ||| 0x80, UInt8.ofNat len]

/-- A payload behind its length. -/
def field (payload : Bytes) : Bytes := lengthBytes payload.length ++ payload

variable {payload bytes : Bytes} {payloads entries : List Bytes} {cursor count : Nat}
    {p : UdptlPacket}

theorem writeLenPrefixed_eq (out : Bytes) (h : payload.length ≤ MAX_PAYLOAD) :
    writeLenPrefixed out payload = .ok (out ++ field payload) := by
  rw [writeLenPrefixed, if_neg (by omega), field, lengthBytes]
  split <;> simp

theorem writeLenPrefixed_error (out : Bytes) (h : MAX_PAYLOAD < payload.length) :
    writeLenPrefixed out payload = .error .payloadTooLarge := by
  rw [writeLenPrefixed, if_pos h]

theorem short_octet : ∀ n < 128, UInt8.ofNat n &&& 0x80 = 0 := by decide

theorem long_prefix : ∀ n < 64, (UInt8.ofNat n ||| 0x80) &&& 0x80 ≠ 0 ∧
    ((UInt8.ofNat n ||| 0x80) &&& 0x7F).toNat = n := by decide

theorem readLength_lengthBytes {len : Nat} (rest : Bytes) (h : len ≤ MAX_PAYLOAD) :
    readLength (lengthBytes len ++ rest) = .ok (len, (lengthBytes len).length) := by
  unfold MAX_PAYLOAD at h
  unfold lengthBytes
  split
  · next hshort =>
    have hlen : (UInt8.ofNat len).toNat = len := by
      rw [UInt8.toNat_ofNat']
      omega
    have hread : (getAt ([UInt8.ofNat len] ++ rest) 0 : Checked UdptlError UInt8) = .ok (UInt8.ofNat len) := rfl
    rw [readLength, if_neg (by simp), hread, ok_bind, if_pos (short_octet len hshort), hlen]
    rfl
  · next hlong =>
    have hhigh : len >>> 8 < 64 := by
      rw [Nat.shiftRight_eq_div_pow]
      omega
    obtain ⟨hmark, hbits⟩ := long_prefix (len >>> 8) hhigh
    have hlow : (UInt8.ofNat len).toNat = len % 2 ^ 8 := UInt8.toNat_ofNat'
    have hjoin : (len >>> 8) <<< 8 ||| len % 2 ^ 8 = len := by
      rw [← Nat.shiftLeft_add_eq_or_of_lt (Nat.mod_lt _ (by omega)), Nat.shiftRight_eq_div_pow,
        Nat.shiftLeft_eq]
      omega
    simp only [readLength, getAt, List.cons_append, List.nil_append, List.getElem?_cons_zero,
      List.getElem?_cons_succ, bind, Except.bind, pure, Except.pure, hmark, hbits, hlow, hjoin]
    simp

@[simp] theorem length_field (payload : Bytes) :
    (field payload).length = (lengthBytes payload.length).length + payload.length := by
  simp [field]

theorem readLenPrefixed_field (rest : Bytes) (h : payload.length ≤ MAX_PAYLOAD) :
    readLenPrefixed (field payload ++ rest) = .ok (payload, (field payload).length) := by
  have hhdr : (lengthBytes payload.length).length ≤ 2 := by
    unfold lengthBytes
    split <;> simp
  have hread := readLength_lengthBytes (payload ++ rest) h
  rw [← List.append_assoc, ← field] at hread
  have hslice : slice (field payload ++ rest) (lengthBytes payload.length).length payload.length =
      payload := by
    simp [slice, field]
  unfold MAX_PAYLOAD at h
  rw [readLenPrefixed, hread]
  simp only [bind, Except.bind]
  rw [if_neg (by omega), if_neg (by simp), range_eq (Nat.le_add_right _ _) (by simp),
    Nat.add_sub_cancel_left, hslice, length_field]
  rfl

/-! ## a packet -/

/-- What the writer takes: a count that fits its byte, payloads within the ceiling. -/
structure UdptlPacket.Fits (p : UdptlPacket) : Prop where
  count : p.secondary.length ≤ 255
  payloads : ∀ payload ∈ p.primary :: p.secondary, payload.length ≤ MAX_PAYLOAD

/-- The bytes of a packet that fits. -/
def UdptlPacket.wire (p : UdptlPacket) : Bytes :=
  beBytes 2 p.sequence.toNat ++ field p.primary ++ [UInt8.ofNat p.secondary.length] ++
    (p.secondary.map field).flatten

theorem foldlM_writeLenPrefixed (out : Bytes)
    (h : ∀ payload ∈ payloads, payload.length ≤ MAX_PAYLOAD) :
    payloads.foldlM writeLenPrefixed out = .ok (out ++ (payloads.map field).flatten) := by
  induction payloads generalizing out with
  | nil => simp [pure, Except.pure]
  | cons payload payloads ih =>
    rw [List.foldlM_cons, writeLenPrefixed_eq out (h payload List.mem_cons_self)]
    simp only [bind, Except.bind]
    rw [ih _ fun q hq => h q (List.mem_cons_of_mem _ hq)]
    simp

theorem encode_eq (h : p.Fits) : p.encode = .ok p.wire := by
  have hprimary := writeLenPrefixed_eq (beBytes 2 p.sequence.toNat) (h.payloads _ List.mem_cons_self)
  have hcount := h.count
  rw [UdptlPacket.encode, hprimary]
  simp only [bind, Except.bind]
  rw [if_neg (by omega),
    foldlM_writeLenPrefixed _ fun q hq => h.payloads q (List.mem_cons_of_mem _ hq)]
  rfl

theorem foldlM_writeLenPrefixed_ne_ok (out wire : Bytes)
    (hmem : payload ∈ payloads) (hlong : MAX_PAYLOAD < payload.length) :
    payloads.foldlM writeLenPrefixed out ≠ .ok wire := by
  induction payloads generalizing out with
  | nil => simp at hmem
  | cons q payloads ih =>
    rw [List.foldlM_cons]
    by_cases hq : MAX_PAYLOAD < q.length
    · simp [writeLenPrefixed_error out hq, bind, Except.bind]
    · rw [writeLenPrefixed_eq out (by omega)]
      obtain rfl | hmem := List.mem_cons.mp hmem
      · exact absurd hlong hq
      · exact ih _ hmem

theorem fits_of_encode {wire : Bytes} (h : p.encode = .ok wire) : p.Fits := by
  have hprimary : p.primary.length ≤ MAX_PAYLOAD := by
    by_contra hlong
    rw [UdptlPacket.encode, writeLenPrefixed_error _ (by omega)] at h
    contradiction
  rw [UdptlPacket.encode, writeLenPrefixed_eq _ hprimary] at h
  simp only [bind, Except.bind] at h
  split at h
  · contradiction
  · next hcount =>
    refine ⟨by omega, fun payload hmem => ?_⟩
    obtain rfl | hmem := List.mem_cons.mp hmem
    · exact hprimary
    · by_contra hlong
      exact foldlM_writeLenPrefixed_ne_ok _ wire hmem (by omega) h

/-! ## reading what was written -/

theorem readSecondary_fields (front rest : Bytes)
    (h : ∀ entry ∈ entries, entry.length ≤ MAX_PAYLOAD) :
    readSecondary (front ++ (entries.map field).flatten ++ rest) entries.length front.length =
      .ok entries := by
  induction entries generalizing front with
  | nil => rfl
  | cons entry entries ih =>
    have hdrop : (front ++ ((entry :: entries).map field).flatten ++ rest).drop front.length =
        field entry ++ ((entries.map field).flatten ++ rest) := by simp
    have hrest := ih (front ++ field entry) fun q hq => h q (List.mem_cons_of_mem _ hq)
    rw [List.length_append] at hrest
    rw [List.length_cons, readSecondary, range_length_eq (by simp), hdrop]
    simp only [bind, Except.bind]
    rw [readLenPrefixed_field _ (h entry List.mem_cons_self)]
    simp only [List.map_cons, List.flatten_cons]
    simp only [List.append_assoc] at hrest ⊢
    rw [hrest]
    rfl

theorem beBytes_two (n : Nat) : beBytes 2 n = [UInt8.ofNat (n / 256), UInt8.ofNat n] := rfl

theorem parse_wire_append (h : p.Fits) (padding : Bytes) : parse (p.wire ++ padding) = .ok p := by
  obtain ⟨sequence, primary, secondary⟩ := p
  have hcount := h.count
  have hprimary := h.payloads _ List.mem_cons_self
  have hsecondary := fun q hq => h.payloads q (List.mem_cons_of_mem _ hq)
  simp only at hcount hprimary hsecondary
  have hfield : 1 ≤ (field primary).length := by
    rw [length_field, lengthBytes]
    split
    · simp
    · simp
      omega
  -- the datagram, split behind the count
  have hread := readSecondary_fields
    (beBytes 2 sequence.toNat ++ field primary ++ [UInt8.ofNat secondary.length]) padding hsecondary
  have hseq : UInt16.ofNat (beNat [UInt8.ofNat (sequence.toNat / 256), UInt8.ofNat sequence.toNat]) =
      sequence := by
    rw [← beBytes_two, beNat_beBytes_of_lt sequence.toNat_lt]
    exact UInt16.ofNat_toNat
  have hbyte : (UInt8.ofNat secondary.length).toNat = secondary.length := by
    rw [UInt8.toNat_ofNat', Nat.mod_eq_of_lt (by omega)]
  have hlen : (beBytes 2 sequence.toNat ++ field primary ++ [UInt8.ofNat secondary.length]).length =
      2 + (field primary).length + 1 := by simp [Nat.add_assoc]
  rw [hlen] at hread
  unfold UdptlPacket.wire
  simp only
  generalize hd : beBytes 2 sequence.toNat ++ field primary ++ [UInt8.ofNat secondary.length] ++
    (secondary.map field).flatten ++ padding = datagram at hread ⊢
  rw [beBytes_two] at hd
  have hlong : 2 + (field primary).length + 1 ≤ datagram.length := by
    rw [← hd]
    simp
    omega
  have hcountAt : (getAt datagram (2 + (field primary).length) : Checked UdptlError UInt8) =
      .ok (UInt8.ofNat secondary.length) := by
    simp [getAt, ← hd, Nat.add_comm 2]
  have hdrop : datagram.drop 2 = field primary ++
      ([UInt8.ofNat secondary.length] ++ (secondary.map field).flatten ++ padding) := by simp [← hd]
  rw [parse, if_neg (by unfold MIN_LEN; omega), range_length_eq (by omega), hdrop]
  have h0 : (getAt datagram 0 : Checked UdptlError UInt8) =
      .ok (UInt8.ofNat (sequence.toNat / 256)) := by simp [getAt, ← hd]
  have h1 : (getAt datagram 1 : Checked UdptlError UInt8) = .ok (UInt8.ofNat sequence.toNat) := by
    simp [getAt, ← hd]
  simp only [h0, h1, bind, Except.bind, readLenPrefixed_field _ hprimary]
  rw [if_neg (by omega), hcountAt]
  simp only [hbyte, hread, hseq]
  rfl

/-! ## what the lengths of a datagram say -/

/-- The length in front of a payload and where the payload ends. -/
def announced (bytes : Bytes) : Nat × Nat :=
  match readLength bytes with
  | .ok (len, hdr) => (len, hdr + len)
  | .error _ => (0, 0)

/-- The lengths of so many payloads from the cursor on. -/
def announcedFrom (bytes : Bytes) : Nat → Nat → List Nat
  | 0, _ => []
  | count + 1, cursor =>
    let (len, adv) := announced (bytes.drop cursor)
    len :: announcedFrom bytes count (cursor + adv)

/-- All lengths of a datagram: the primary payload's, then the counted ones. -/
def lengths (bytes : Bytes) : List Nat :=
  let (len, adv) := announced (bytes.drop 2)
  len :: announcedFrom bytes (bytes.getD (2 + adv) 0).toNat (2 + adv + 1)

/-- No length of the datagram uses the fifteenth bit. -/
def WithinCeiling (bytes : Bytes) : Prop := ∀ len ∈ lengths bytes, len ≤ MAX_PAYLOAD

instance (bytes : Bytes) : Decidable (WithinCeiling bytes) :=
  inferInstanceAs (Decidable (∀ _ ∈ _, _))

theorem readLenPrefixed_ok {adv : Nat} (h : readLenPrefixed bytes = .ok (payload, adv)) :
    announced bytes = (payload.length, adv) ∧ adv ≤ bytes.length := by
  obtain ⟨⟨len, hdr⟩, hread, h⟩ := Checked.bind_eq_ok.mp h
  simp only at h
  split at h
  · contradiction
  · split at h
    · contradiction
    · obtain ⟨payload', hrange, h⟩ := Checked.bind_eq_ok.mp h
      obtain ⟨rfl, rfl⟩ : payload' = payload ∧ hdr + len = adv := by
        simpa [pure, Except.pure] using h
      rw [range_eq (by omega) (by omega), Nat.add_sub_cancel_left] at hrange
      obtain rfl := Except.ok.inj hrange
      rw [announced, hread, length_slice (by omega)]
      exact ⟨rfl, by omega⟩

theorem readSecondary_ok
    (hcursor : cursor ≤ bytes.length) (h : readSecondary bytes count cursor = .ok entries) :
    entries.map List.length = announcedFrom bytes count cursor := by
  induction count generalizing cursor entries with
  | zero =>
    obtain rfl := Except.ok.inj h
    rfl
  | succ count ih =>
    rw [readSecondary, range_length_eq hcursor, ok_bind] at h
    obtain ⟨⟨entry, adv⟩, hentry, h⟩ := Checked.bind_eq_ok.mp h
    obtain ⟨others, hothers, h⟩ := Checked.bind_eq_ok.mp h
    obtain rfl : entry :: others = entries := by simpa [pure, Except.pure] using h
    obtain ⟨hannounced, hadv⟩ := readLenPrefixed_ok hentry
    rw [List.length_drop] at hadv
    rw [announcedFrom, hannounced, List.map_cons, ih (by omega) hothers]

@[simp] theorem length_announcedFrom (bytes : Bytes) (count cursor : Nat) :
    (announcedFrom bytes count cursor).length = count := by
  induction count generalizing cursor with
  | zero => rfl
  | succ count ih => simp [announcedFrom, ih]

/-- What a successful reading of a datagram found: payloads of the lengths it
announces, no more secondary ones than a byte counts. -/
theorem parse_ok (h : parse bytes = .ok p) :
    (p.primary :: p.secondary).map List.length = lengths bytes ∧ p.secondary.length ≤ 255 := by
  unfold parse at h
  split at h
  · contradiction
  · next hmin =>
    unfold MIN_LEN at hmin
    obtain ⟨b0, -, h⟩ := Checked.bind_eq_ok.mp h
    obtain ⟨b1, -, h⟩ := Checked.bind_eq_ok.mp h
    rw [range_length_eq (by omega), ok_bind] at h
    obtain ⟨⟨primary, adv⟩, hprimary, h⟩ := Checked.bind_eq_ok.mp h
    obtain ⟨hannounced, -⟩ := readLenPrefixed_ok hprimary
    simp only at h
    split at h
    · contradiction
    · next hcursor =>
      rw [getAt_eq (by omega), ok_bind] at h
      obtain ⟨secondary, hsecondary, h⟩ := Checked.bind_eq_ok.mp h
      obtain rfl := Except.ok.inj h
      have hmap := readSecondary_ok (by omega) hsecondary
      have hat : bytes.getD (2 + adv) 0 = bytes[2 + adv] := by
        rw [List.getD_eq_getElem?_getD, List.getElem?_eq_getElem (by omega), Option.getD_some]
      refine ⟨?_, ?_⟩
      · simp only [lengths, hannounced, List.map_cons, hmap, hat]
      · have hcount := congrArg List.length hmap
        rw [List.length_map, length_announcedFrom] at hcount
        have hbyte := bytes[2 + adv].toNat_lt
        show secondary.length ≤ 255
        omega

theorem withinCeiling_iff_fits (h : parse bytes = .ok p) : WithinCeiling bytes ↔ p.Fits := by
  obtain ⟨hlengths, hcount⟩ := parse_ok h
  rw [WithinCeiling, ← hlengths]
  constructor
  · exact fun hall => ⟨hcount, fun q hq => hall _ (List.mem_map_of_mem hq)⟩
  · intro hfits len hlen
    obtain ⟨q, hq, rfl⟩ := List.mem_map.mp hlen
    exact hfits.payloads q hq

/-! ## no access out of range -/

theorem inRange_readLength (bytes : Bytes) : (readLength bytes).InRange := by
  unfold readLength
  split
  · exact inRange_fail _
  · next hempty =>
    have hpos : 0 < bytes.length := List.length_pos_iff.mpr hempty
    refine (inRange_getAt hpos).bind fun b0 _ => ?_
    split
    · exact inRange_ok _
    · split
      · exact inRange_fail _
      · exact (inRange_getAt (by omega)).bind fun b1 _ => inRange_ok _

theorem inRange_readLenPrefixed (bytes : Bytes) : (readLenPrefixed bytes).InRange := by
  refine (inRange_readLength bytes).bind fun (len, hdr) _ => ?_
  simp only
  split
  · exact inRange_fail _
  · split
    · exact inRange_fail _
    · exact (inRange_range (by omega) (by omega)).bind fun _ _ => inRange_ok _

theorem inRange_readSecondary (h : cursor ≤ bytes.length) :
    (readSecondary bytes count cursor).InRange := by
  induction count generalizing cursor with
  | zero => exact inRange_ok _
  | succ count ih =>
    rw [readSecondary, range_length_eq h, ok_bind]
    refine (inRange_readLenPrefixed _).bind fun (entry, adv) hentry => ?_
    have hadv := (readLenPrefixed_ok hentry).2
    rw [List.length_drop] at hadv
    exact (ih (by omega)).bind fun _ _ => inRange_ok _

theorem inRange_parse (bytes : Bytes) : (parse bytes).InRange := by
  unfold parse
  split
  · exact inRange_fail _
  · next hmin =>
    unfold MIN_LEN at hmin
    refine (inRange_getAt (by omega)).bind fun b0 _ => ?_
    refine (inRange_getAt (by omega)).bind fun b1 _ => ?_
    refine (inRange_range (by omega) (Nat.le_refl _)).bind fun rest _ => ?_
    refine (inRange_readLenPrefixed rest).bind fun (primary, adv) _ => ?_
    simp only
    split
    · exact inRange_fail _
    · refine (inRange_getAt (by omega)).bind fun count _ => ?_
      exact (inRange_readSecondary (by omega)).bind fun _ _ => inRange_ok _

/-! ## the codec -/

/-- Writing and reading a packet gives it back, with any padding; reading never
leaves the datagram; and what was read can be written and read again exactly
when no length of the datagram is above the ceiling of the writer. -/
theorem udptl_codec (bytes : Bytes) : (∀ p : UdptlPacket, p.secondary.length ≤ 255 →
      (∀ payload ∈ p.primary :: p.secondary, payload.length ≤ MAX_PAYLOAD) →
      ∃ wire, p.encode = .ok wire ∧ ∀ padding, parse (wire ++ padding) = .ok p) ∧
    (parse bytes).InRange ∧
    ∀ p, parse bytes = .ok p →
      ((∃ wire, p.encode = .ok wire ∧ parse wire = .ok p) ↔ WithinCeiling bytes) := by
  refine ⟨fun p hcount hpayloads => ?_, inRange_parse bytes, fun p h => ?_⟩
  · have hfits : p.Fits := ⟨hcount, hpayloads⟩
    exact ⟨p.wire, encode_eq hfits, parse_wire_append hfits⟩
  · rw [withinCeiling_iff_fits h]
    constructor
    · exact fun ⟨_, hwire, _⟩ => fits_of_encode hwire
    · intro hfits
      have hparse := parse_wire_append hfits []
      rw [List.append_nil] at hparse
      exact ⟨p.wire, encode_eq hfits, hparse⟩

/-- 16384 zero bytes. -/
def longPayload : Bytes := List.replicate 16384 0

/-- A datagram that carries them as its primary payload. -/
def oversized : Bytes := [0, 1, 0xC0, 0] ++ longPayload ++ [0]

theorem parse_long {q : Bytes} (hlen : q.length = 16384) : parse ([0, 1, 0xC0, 0] ++ q ++ [0]) = .ok ⟨1, q, []⟩ := by
  have hread : readLength ([0xC0, 0] ++ q ++ [0]) = .ok (16384, 2) := by
    have hmark : (0xC0 : UInt8) &&& 0x80 ≠ 0 := by decide
    simp [readLength, getAt, bind, Except.bind, pure, Except.pure, hmark]
  have hslice : slice ([0xC0, 0] ++ q ++ [0]) 2 16384 = q := by
    simp [slice, hlen]
  have hprefixed : readLenPrefixed ([0xC0, 0] ++ q ++ [0]) = .ok (q, 16386) := by
    rw [readLenPrefixed, hread, ok_bind]
    simp only
    rw [if_neg (by omega), if_neg (by simp [hlen]), range_eq (by omega) (by simp [hlen])]
    simp only [Nat.add_sub_cancel_left, hslice]
    rfl
  have htotal : ([0, 1, 0xC0, 0] ++ q ++ [0]).length = 16389 := by simp [hlen]
  have hdrop : ([0, 1, 0xC0, 0] ++ q ++ [0]).drop 2 = [0xC0, 0] ++ q ++ [0] := rfl
  have h0 : (getAt ([0, 1, 0xC0, 0] ++ q ++ [0]) 0 : Checked UdptlError UInt8) = .ok 0 := rfl
  have h1 : (getAt ([0, 1, 0xC0, 0] ++ q ++ [0]) 1 : Checked UdptlError UInt8) = .ok 1 := rfl
  have hcount : (getAt ([0, 1, 0xC0, 0] ++ q ++ [0]) 16388 : Checked UdptlError UInt8) = .ok 0 := by
    simp [getAt, hlen]
  rw [parse, if_neg (by simp [MIN_LEN]), range_length_eq (by omega), hdrop]
  simp only [h0, h1, bind, Except.bind, hprefixed]
  rw [if_neg (by omega), hcount]
  rfl

theorem parse_oversized : parse oversized = .ok ⟨1, longPayload, []⟩ := parse_long List.length_replicate

/-- The writer refuses a packet that the reader made. -/
theorem encode_refuses_parsed :
    ¬ ∀ bytes p, parse bytes = .ok p → ∃ wire, p.encode = .ok wire ∧ parse wire = .ok p := by
  intro hall
  obtain ⟨wire, hwire, -⟩ := hall oversized _ parse_oversized
  have hfits := (fits_of_encode hwire).payloads longPayload List.mem_cons_self
  rw [longPayload, List.length_replicate, MAX_PAYLOAD] at hfits
  omega

/-- Five bytes, then two older payloads, then padding. -/
def padded : Bytes := [0x12, 0x34, 5, 1, 2, 3, 4, 5, 2, 1, 9, 0, 0, 0]

theorem udptl_codec_padded : parse padded = .ok ⟨0x1234, [1, 2, 3, 4, 5], [[9], []]⟩ ∧
      ∃ wire, UdptlPacket.encode ⟨0x1234, [1, 2, 3, 4, 5], [[9], []]⟩ = .ok wire ∧
        parse wire = .ok ⟨0x1234, [1, 2, 3, 4, 5], [[9], []]⟩ :=
  have h : parse padded = .ok ⟨0x1234, [1, 2, 3, 4, 5], [[9], []]⟩ := by decide
  ⟨h, ((udptl_codec padded).2.2 _ h).mpr (by decide)⟩

end SmithsNet.Fax
