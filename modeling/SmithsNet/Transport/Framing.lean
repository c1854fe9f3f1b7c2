import SmithsNet.Lib.Text

/-!
# SmithsNet.Transport.Framing

Message framing on stream transports (`smiths-sip/src/transport/framing.rs`):
headers end at the first double CRLF, the body is as long as `Content-Length`
says, and no message may be longer than `MAX_MESSAGE_BYTES`.

A `Frame` is a well-formed message: its own header block announces its own
body.  The three lemmas at the end say what the framer does with a buffer that
starts with a frame, with a part of one, or that is too long.
-/

namespace SmithsNet.Transport

open Lib

/-- Cap on a single message. -/
def MAX_MESSAGE_BYTES : Nat := 65535

/-- `\r\n\r\n`. -/
def doubleCrlf : Bytes := [13, 10, 13, 10]

/-- Result of trying to peel one message off the buffer. -/
inductive FrameOutcome
  | complete (msg : Bytes)
  | partialFrame
  | overflow
  | badLength
  deriving DecidableEq

/-- Index of the first double CRLF. -/
def findDoubleCrlf (bytes : Bytes) : Option Nat := findSub doubleCrlf bytes

/-- The first length header decides; lines without a colon are skipped. -/
def contentLengthOf : List Text → Option Nat
  | [] => some 0
  | line :: lines =>
    match splitOnce [':'] line with
    | none => contentLengthOf lines
    | some (name, value) =>
      if eqIgnoreAsciiCase (trim name) "Content-Length".toList ||
          eqIgnoreAsciiCase (trim name) "l".toList then
        parseUnsigned 64 (trim value)
      else contentLengthOf lines

/-- `Content-Length` of a header block; `none` when it cannot be read. -/
def contentLength (headers : Bytes) : Option Nat :=
  (fromUtf8 headers).bind fun text => contentLengthOf (splitSub ['\r', '\n'] text)

/-- Try to take one message off the front of `buf`; the second component is
the buffer afterwards.  The sum is a 64-bit one. -/
def takeOneMessage (buf : Bytes) : FrameOutcome × Bytes :=
  if buf.length > MAX_MESSAGE_BYTES then (.overflow, buf)
  else
    match findDoubleCrlf buf with
    | none => (.partialFrame, buf)
    | some headerEnd =>
      let bodyStart := headerEnd + 4
      match contentLength (buf.take headerEnd) with
      | none => (.badLength, buf)
      | some bodyLen =>
        let total := (bodyStart + bodyLen) % 2 ^ 64
        if total > MAX_MESSAGE_BYTES then (.overflow, buf)
        else if buf.length < total then (.partialFrame, buf)
        else (.complete (buf.take total), buf.drop total)

/-! ## well-formed messages -/

/-- A well-formed message: a header block without a double CRLF of its own,
the terminator, and a body of the announced length. -/
structure Frame where
  head : Bytes
  body : Bytes
  terminated : findDoubleCrlf (head ++ doubleCrlf) = some head.length
  announced : contentLength head = some body.length
  fits : (head ++ doubleCrlf ++ body).length ≤ MAX_MESSAGE_BYTES

/-- The message on the wire. -/
def Frame.bytes (f : Frame) : Bytes := f.head ++ doubleCrlf ++ f.body

section

variable (f : Frame)

theorem Frame.length_bytes : f.bytes.length = f.head.length + 4 + f.body.length := by
  simp [Frame.bytes, doubleCrlf]
  omega

theorem Frame.bytes_ne_nil : f.bytes ≠ [] := by
  intro h
  have hlen := f.length_bytes
  rw [h] at hlen
  simp at hlen
  omega

/-- The header block of a frame is found in everything that continues it. -/
theorem Frame.findDoubleCrlf_append (rest : Bytes) :
    findDoubleCrlf (f.bytes ++ rest) = some f.head.length := by
  have h := findSub_append f.terminated (f.body ++ rest)
  rwa [← List.append_assoc] at h

theorem Frame.total_eq : (f.head.length + 4 + f.body.length) % 2 ^ 64 = f.bytes.length := by
  have hlen := f.length_bytes
  have hfits : f.bytes.length ≤ 65535 := f.fits
  rw [← hlen]
  omega

/-! ## what the framer does -/

theorem takeOneMessage_frame (rest : Bytes) (h : (f.bytes ++ rest).length ≤ MAX_MESSAGE_BYTES) :
    takeOneMessage (f.bytes ++ rest) = (.complete f.bytes, rest) := by
  have hhead : (f.bytes ++ rest).take f.head.length = f.head := by
    simp [Frame.bytes, List.append_assoc]
  have hfits : ¬ f.bytes.length > MAX_MESSAGE_BYTES := by
    have := f.fits
    unfold Frame.bytes
    omega
  have hlong : ¬ (f.bytes ++ rest).length < f.bytes.length := by simp
  unfold takeOneMessage
  rw [if_neg (by omega), f.findDoubleCrlf_append]
  simp only [hhead, f.announced, f.total_eq]
  rw [if_neg hfits, if_neg hlong, List.take_left, List.drop_left]

theorem takeOneMessage_part {part more : Bytes} (h : part ++ more = f.bytes)
    (hmore : more ≠ []) : takeOneMessage part = (.partialFrame, part) := by
  have hpos : 0 < more.length := List.length_pos_of_ne_nil hmore
  have hlen : part.length + more.length = f.bytes.length := by rw [← h, List.length_append]
  have hfits : f.bytes.length ≤ MAX_MESSAGE_BYTES := f.fits
  unfold takeOneMessage
  rw [if_neg (by omega)]
  cases hfind : findDoubleCrlf part with
  | none => rfl
  | some i =>
    -- the terminator found in the part is the frame's own
    have hi : i = f.head.length := by
      have hin := findSub_append hfind more
      have hf := f.findDoubleCrlf_append []
      rw [h] at hin
      rw [List.append_nil] at hf
      unfold findDoubleCrlf at hf
      rw [hf] at hin
      exact (Option.some.inj hin).symm
    have hle := (eq_append_of_findSub hfind).2
    have hhead : part.take i = f.head := by
      have htake : (part ++ more).take i = part.take i :=
        List.take_append_of_le_length (by omega)
      rw [← htake, h, hi]
      simp [Frame.bytes, List.append_assoc]
    simp only [hhead, f.announced]
    rw [hi, f.total_eq, if_neg (by omega), if_pos (by omega)]

end

theorem takeOneMessage_nil : takeOneMessage [] = (.partialFrame, []) := by decide

theorem takeOneMessage_over {buf : Bytes} (h : MAX_MESSAGE_BYTES < buf.length) :
    takeOneMessage buf = (.overflow, buf) := by
  unfold takeOneMessage
  rw [if_pos h]

/-! ## lengths near `2^64` -/

/-- The same in a build that checks its sums: `none` is a panic. -/
def takeOneMessageChecked (buf : Bytes) : Option (FrameOutcome × Bytes) :=
  if buf.length > MAX_MESSAGE_BYTES then some (.overflow, buf)
  else
    match findDoubleCrlf buf with
    | none => some (.partialFrame, buf)
    | some headerEnd =>
      let bodyStart := headerEnd + 4
      match contentLength (buf.take headerEnd) with
      | none => some (.badLength, buf)
      | some bodyLen =>
        let total := bodyStart + bodyLen
        if 2 ^ 64 ≤ total then none
        else if total > MAX_MESSAGE_BYTES then some (.overflow, buf)
        else if buf.length < total then some (.partialFrame, buf)
        else some (.complete (buf.take total), buf.drop total)

/-- A message is taken only whole, and all that follows it stays; otherwise everything stays. -/
def TakesWhole (buf : Bytes) : Prop :=
  match takeOneMessage buf with
  | (.complete msg, rest) => ∃ headerEnd bodyLen, findDoubleCrlf buf = some headerEnd ∧
      contentLength (buf.take headerEnd) = some bodyLen ∧ headerEnd + 4 + bodyLen ≤ buf.length ∧
      msg = buf.take (headerEnd + 4 + bodyLen) ∧ rest = buf.drop (headerEnd + 4 + bodyLen)
  | (_, rest) => rest = buf

/-- What is promised of one call, whether sums are checked or wrap. -/
structure SafelyFramed (buf : Bytes) : Prop where
  runs : (takeOneMessageChecked buf).isSome
  whole : TakesWhole buf

/-- No header block announces a body that ends beyond `2^64`. -/
def LengthInRange (buf : Bytes) : Prop :=
  ∀ headerEnd bodyLen, buf.length ≤ MAX_MESSAGE_BYTES → findDoubleCrlf buf = some headerEnd →
    contentLength (buf.take headerEnd) = some bodyLen → bodyLen < 2 ^ 64 - (headerEnd + 4)

theorem contentLengthOf_lt {lines : List Text} {n : Nat} (h : contentLengthOf lines = some n) : n < 2 ^ 64 := by
  induction lines with
  | nil =>
    obtain rfl : 0 = n := Option.some.inj h
    decide
  | cons line lines ih =>
    unfold contentLengthOf at h
    split at h
    · exact ih h
    · split at h
      · exact parseUnsigned_lt h
      · exact ih h

theorem contentLength_lt {headers : Bytes} {n : Nat} (h : contentLength headers = some n) : n < 2 ^ 64 := by
  obtain ⟨text, -, hlines⟩ := Option.bind_eq_some_iff.mp h
  exact contentLengthOf_lt hlines

/-- A sum that wraps ends inside the header: the message is cut there. -/
theorem takeOneMessage_wrapped {buf : Bytes} {headerEnd bodyLen : Nat} (hlen : buf.length ≤ MAX_MESSAGE_BYTES)
    (hfind : findDoubleCrlf buf = some headerEnd) (hread : contentLength (buf.take headerEnd) = some bodyLen)
    (hwrap : 2 ^ 64 ≤ headerEnd + 4 + bodyLen) :
    ∃ total < headerEnd + 4, takeOneMessage buf = (.complete (buf.take total), buf.drop total) := by
  have hin : headerEnd + 4 ≤ buf.length := (eq_append_of_findSub hfind).2
  have hlt := contentLength_lt hread
  have hmax : buf.length ≤ 65535 := hlen
  have htotal : (headerEnd + 4 + bodyLen) % 2 ^ 64 < headerEnd + 4 := by omega
  refine ⟨_, htotal, ?_⟩
  unfold takeOneMessage
  rw [if_neg (by omega), hfind]
  simp only [hread]
  rw [if_neg (by unfold MAX_MESSAGE_BYTES; omega), if_neg (by omega)]

theorem takeOneMessageChecked_eq {buf : Bytes} (h : LengthInRange buf) :
    takeOneMessageChecked buf = some (takeOneMessage buf) := by
  unfold takeOneMessageChecked takeOneMessage
  by_cases hlen : buf.length > MAX_MESSAGE_BYTES
  · rw [if_pos hlen, if_pos hlen]
  rw [if_neg hlen, if_neg hlen]
  cases hfind : findDoubleCrlf buf with
  | none => rfl
  | some headerEnd =>
    simp only
    cases hread : contentLength (buf.take headerEnd) with
    | none => rfl
    | some bodyLen =>
      have hsum := h headerEnd bodyLen (by omega) hfind hread
      have hmod : (headerEnd + 4 + bodyLen) % 2 ^ 64 = headerEnd + 4 + bodyLen := Nat.mod_eq_of_lt (by omega)
      simp only [hmod]
      rw [if_neg (show ¬ 2 ^ 64 ≤ headerEnd + 4 + bodyLen by omega)]
      split
      · rfl
      · split <;> rfl

theorem takesWhole_of_inRange {buf : Bytes} (h : LengthInRange buf) : TakesWhole buf := by
  unfold TakesWhole takeOneMessage
  by_cases hlen : buf.length > MAX_MESSAGE_BYTES
  · rw [if_pos hlen]
  rw [if_neg hlen]
  cases hfind : findDoubleCrlf buf with
  | none => rfl
  | some headerEnd =>
    simp only
    cases hread : contentLength (buf.take headerEnd) with
    | none => rfl
    | some bodyLen =>
      have hsum := h headerEnd bodyLen (by omega) hfind hread
      have hmod : (headerEnd + 4 + bodyLen) % 2 ^ 64 = headerEnd + 4 + bodyLen := Nat.mod_eq_of_lt (by omega)
      simp only [hmod]
      by_cases hmax : headerEnd + 4 + bodyLen > MAX_MESSAGE_BYTES
      · rw [if_pos hmax]
      rw [if_neg hmax]
      by_cases hpart : buf.length < headerEnd + 4 + bodyLen
      · rw [if_pos hpart]
      rw [if_neg hpart]
      exact ⟨headerEnd, bodyLen, rfl, hread, by omega, rfl, rfl⟩

theorem inRange_of_takesWhole {buf : Bytes} (h : TakesWhole buf) : LengthInRange buf := by
  intro headerEnd bodyLen hlen hfind hread
  by_contra hwrap
  have hin : headerEnd + 4 ≤ buf.length := (eq_append_of_findSub hfind).2
  obtain ⟨total, hshort, htake⟩ := takeOneMessage_wrapped hlen hfind hread (by omega)
  unfold TakesWhole at h
  rw [htake] at h
  obtain ⟨headerEnd', bodyLen', hfind', hread', hwhole, -, hrest⟩ := h
  obtain rfl : headerEnd = headerEnd' := Option.mem_unique hfind hfind'
  have hleft := congrArg List.length hrest
  simp only [List.length_drop] at hleft
  omega

/-- **The framer is safe exactly for the buffers whose announced length ends below `2^64`.** -/
theorem safelyFramed_iff (buf : Bytes) : SafelyFramed buf ↔ LengthInRange buf := by
  constructor
  · intro h
    exact inRange_of_takesWhole h.whole
  · intro h
    refine ⟨?_, takesWhole_of_inRange h⟩
    rw [takeOneMessageChecked_eq h]
    rfl

/-- The largest length there is takes all of the header block but its last byte. -/
theorem longest_length_cuts_header : ¬ ∀ buf, SafelyFramed buf := by
  intro h
  have hcut : takeOneMessage ("l:18446744073709551615\r\n\r\n".toList.map fun c => c.toUInt8) =
      (.complete ("l:18446744073709551615\r\n\r".toList.map fun c => c.toUInt8), [10]) := by
    decide +kernel
  have hwhole := (h ("l:18446744073709551615\r\n\r\n".toList.map fun c => c.toUInt8)).whole
  unfold TakesWhole at hwhole
  rw [hcut] at hwhole
  obtain ⟨headerEnd, bodyLen, hfind, -, hle, hmsg, -⟩ := hwhole
  have hend : findDoubleCrlf ("l:18446744073709551615\r\n\r\n".toList.map fun c => c.toUInt8) = some 22 := by
    decide +kernel
  obtain rfl : headerEnd = 22 := Option.mem_unique hfind hend
  have hlen := congrArg List.length hmsg
  simp at hlen hle

end SmithsNet.Transport
