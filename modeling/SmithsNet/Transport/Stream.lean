import SmithsNet.Lib.Pieces
import SmithsNet.Transport.Framing

/-!
# SmithsNet.Transport.Stream

The read loop of a stream connection (`smiths-sip/src/transport/stream.rs`,
`spawn_framed_reader`): append what was read to the buffer, then take messages
off its front until none is complete.

Main result: `stream_delivers_iff` — for well-formed messages and any reads,
the loop delivers exactly the messages and keeps the connection if and only if
no read makes the buffer longer than `MAX_MESSAGE_BYTES`.  The framer checks
that cap on the whole buffer before it looks for a complete message, so
pipelined messages can trip it (`pipelined_messages_close_connection`).
-/

namespace SmithsNet.Transport

open Lib
open Transport.Frame (bytes)

/-! ## the read loop -/

/-- Whether the connection is still read from. -/
inductive Connection
  | reading
  | closedByPeer
  | closedOverflow
  | closedBadLength
  deriving DecidableEq

/-- State of the reader task. -/
structure Reader where
  buf : Bytes
  delivered : List Bytes
  connection : Connection

/-- A reader that has read nothing yet. -/
def Reader.new : Reader := ⟨[], [], .reading⟩

/-- The inner loop: deliver messages until none is complete.  `none` when the
fuel runs out before the loop ends. -/
def drain : Nat → Reader → Option Reader
  | 0, _ => none
  | fuel + 1, r =>
    match takeOneMessage r.buf with
    | (.complete msg, rest) => drain fuel { r with buf := rest, delivered := r.delivered ++ [msg] }
    | (.partialFrame, _) => some r
    | (.overflow, _) => some { r with connection := .closedOverflow }
    | (.badLength, _) => some { r with connection := .closedBadLength }

/-- One read.  A read of zero bytes means the peer closed. -/
def onRead (fuel : Nat) (r : Reader) (chunk : Bytes) : Option Reader :=
  match r.connection with
  | .reading =>
    if chunk = [] then some { r with connection := .closedByPeer }
    else drain fuel { r with buf := r.buf ++ chunk }
  | _ => some r

/-- The read loop over a list of reads. -/
def readLoop (fuel : Nat) (r : Reader) (chunks : List Bytes) : Option Reader :=
  chunks.foldlM (onRead fuel) r

/-! ## one read -/

/-- Draining a buffer that is not too long and holds frames and the start of
the next one. -/
theorem drain_frames (fs : List Frame) {buf more : Bytes}
    (h : buf ++ more = (fs.map bytes).flatten) (hlen : buf.length ≤ MAX_MESSAGE_BYTES)
    (delivered : List Bytes) {fuel : Nat} (hfuel : fs.length < fuel) :
    drain fuel ⟨buf, delivered, .reading⟩ =
      some ⟨buf.drop (completedLength (fs.map bytes) buf.length),
        delivered ++ completed (fs.map bytes) buf.length, .reading⟩ := by
  induction fs generalizing buf delivered fuel with
  | nil =>
    obtain ⟨rfl, -⟩ := List.append_eq_nil_iff.mp h
    obtain ⟨fuel, rfl⟩ := Nat.exists_eq_add_of_lt hfuel
    simp [drain, takeOneMessage_nil, completed, completedLength]
  | cons f fs ih =>
    obtain ⟨fuel, rfl⟩ : ∃ k, fuel = k + 1 := ⟨fuel - 1, by omega⟩
    rw [List.map_cons, List.flatten_cons] at h
    by_cases hf : f.bytes.length ≤ buf.length
    · -- the frame is complete: it is delivered and the rest is drained
      obtain ⟨rest, rfl⟩ : ∃ rest, buf = f.bytes ++ rest := by
        obtain ⟨rest, hrest⟩ := List.prefix_of_prefix_length_le
          (⟨(fs.map bytes).flatten, rfl⟩ : f.bytes <+: _) ⟨more, h⟩ hf
        exact ⟨rest, hrest.symm⟩
      have hrest : rest ++ more = (fs.map bytes).flatten := by
        rw [List.append_assoc] at h
        exact List.append_cancel_left h
      have hle : rest.length ≤ MAX_MESSAGE_BYTES := by
        rw [List.length_append] at hlen
        omega
      have hsub : (f.bytes ++ rest).length - f.bytes.length = rest.length := by simp
      rw [drain, takeOneMessage_frame f rest hlen]
      simp only
      rw [ih hrest hle _ (by simpa using hfuel), List.map_cons,
        completedLength_cons_of_le _ hf, completed_cons_of_le _ hf, hsub, ← List.drop_drop,
        List.drop_left]
      simp
    · -- the frame is not complete yet
      have hlt : buf.length < f.bytes.length := by omega
      obtain ⟨missing, hmissing⟩ := List.prefix_of_prefix_length_le
        ⟨more, h⟩ (⟨(fs.map bytes).flatten, rfl⟩ : f.bytes <+: _) (by omega)
      have hne : missing ≠ [] := by
        rintro rfl
        rw [List.append_nil] at hmissing
        rw [hmissing] at hlt
        omega
      rw [drain, takeOneMessage_part f hmissing hne, List.map_cons,
        completedLength_cons_of_lt _ hlt, completed_cons_of_lt _ hlt]
      simp

/-- The reader after the first `n` bytes of the stream: everything completed
is delivered, the rest is buffered. -/
def readerAt (ms : List Bytes) (n : Nat) : Reader :=
  ⟨(ms.flatten.take n).drop (completedLength ms n), completed ms n, .reading⟩

theorem readerAt_zero (fs : List Frame) : readerAt (fs.map bytes) 0 = .new := by
  cases fs with
  | nil => rfl
  | cons f fs =>
    have hpos : 0 < f.bytes.length := List.length_pos_of_ne_nil f.bytes_ne_nil
    simp [readerAt, Reader.new, completed_cons_of_lt _ hpos]

theorem length_readerAt_append (ms : List Bytes) {n : Nat} (hn : n ≤ ms.flatten.length)
    (chunk : Bytes) :
    ((readerAt ms n).buf ++ chunk).length = n + chunk.length - completedLength ms n := by
  have hle := completedLength_le ms n
  simp only [readerAt, List.length_append, List.length_drop, List.length_take]
  omega

theorem onRead_fits (fs : List Frame) {fuel n : Nat} {chunk more : Bytes}
    (hfuel : fs.length < fuel) (hn : n ≤ (fs.map bytes).flatten.length)
    (hnext : (fs.map bytes).flatten.drop n = chunk ++ more) (hchunk : chunk ≠ [])
    (hcap : n + chunk.length - completedLength (fs.map bytes) n ≤ MAX_MESSAGE_BYTES) :
    onRead fuel (readerAt (fs.map bytes) n) chunk =
      some (readerAt (fs.map bytes) (n + chunk.length)) := by
  have hle := completedLength_le (fs.map bytes) n
  have hbuf := length_readerAt_append (fs.map bytes) hn chunk
  have hsub : n + chunk.length - completedLength (fs.map bytes) n =
      n - completedLength (fs.map bytes) n + chunk.length := by omega
  -- what is buffered and read starts the frames not delivered yet
  have hstart : (readerAt (fs.map bytes) n).buf ++ chunk ++ more =
      ((fs.drop (completed (fs.map bytes) n).length).map bytes).flatten := by
    rw [List.map_drop, ← flatten_drop_completed, List.append_assoc, ← hnext]
    conv_rhs => rw [← List.take_append_drop n (fs.map bytes).flatten]
    rw [List.drop_append_of_le_length (by rw [List.length_take]; omega)]
    rfl
  have hless : (fs.drop (completed (fs.map bytes) n).length).length < fuel := by
    rw [List.length_drop]
    omega
  have hdrain := drain_frames _ hstart (by omega) (completed (fs.map bytes) n) hless
  rw [hbuf, hsub, List.map_drop, ← completed_add] at hdrain
  have htake : (fs.map bytes).flatten.take (n + chunk.length) =
      (fs.map bytes).flatten.take n ++ chunk := by
    rw [List.take_add, hnext, List.take_left]
  have hrest : ((fs.map bytes).flatten.take (n + chunk.length)).drop
      (completedLength (fs.map bytes) (n + chunk.length)) =
      ((readerAt (fs.map bytes) n).buf ++ chunk).drop
        (completedLength ((fs.map bytes).drop (completed (fs.map bytes) n).length)
          (n - completedLength (fs.map bytes) n + chunk.length)) := by
    rw [completedLength_add, ← List.drop_drop, htake,
      List.drop_append_of_le_length (by rw [List.length_take]; omega)]
    rfl
  unfold onRead
  simp only [readerAt, if_neg hchunk] at hdrain hrest ⊢
  rw [hdrain, hrest]

theorem onRead_over (ms : List Bytes) {fuel n : Nat} {chunk : Bytes} (hfuel : 0 < fuel)
    (hn : n ≤ ms.flatten.length) (hchunk : chunk ≠ [])
    (hcap : MAX_MESSAGE_BYTES < n + chunk.length - completedLength ms n) :
    ∃ r, onRead fuel (readerAt ms n) chunk = some r ∧ r.connection = .closedOverflow := by
  obtain ⟨fuel, rfl⟩ : ∃ k, fuel = k + 1 := ⟨fuel - 1, by omega⟩
  rw [← length_readerAt_append ms hn] at hcap
  refine ⟨⟨(readerAt ms n).buf ++ chunk, completed ms n, .closedOverflow⟩, ?_, rfl⟩
  unfold onRead
  simp only [readerAt] at hcap ⊢
  rw [if_neg hchunk, drain, takeOneMessage_over hcap]

/-! ## the whole loop -/

theorem readLoop_closed (fuel : Nat) {r : Reader} (h : r.connection ≠ .reading)
    (chunks : List Bytes) : readLoop fuel r chunks = some r := by
  induction chunks with
  | nil => rfl
  | cons c cs ih =>
    have hread : onRead fuel r c = some r := by
      unfold onRead
      cases hc : r.connection <;> simp_all
    unfold readLoop at ih ⊢
    rw [List.foldlM_cons, hread]
    exact ih

/-- Every read keeps the buffer within the cap: the bytes received with the
read, less the messages complete before it. -/
def WithinCap (ms chunks : List Bytes) : Prop :=
  ∀ i < chunks.length, (chunks.take (i + 1)).flatten.length -
    completedLength ms (chunks.take i).flatten.length ≤ MAX_MESSAGE_BYTES

theorem readLoop_iff (fs : List Frame) {fuel : Nat} (hfuel : fs.length < fuel) (n : Nat)
    (chunks : List Bytes) (hsplit : (fs.map bytes).flatten.drop n = chunks.flatten)
    (hn : n ≤ (fs.map bytes).flatten.length) (hchunks : ∀ c ∈ chunks, c ≠ []) :
    readLoop fuel (readerAt (fs.map bytes) n) chunks =
        some ⟨[], fs.map bytes, .reading⟩ ↔
      ∀ i < chunks.length, n + (chunks.take (i + 1)).flatten.length -
        completedLength (fs.map bytes) (n + (chunks.take i).flatten.length) ≤
          MAX_MESSAGE_BYTES := by
  induction chunks generalizing n with
  | nil =>
    have hn' : n = (fs.map bytes).flatten.length := by
      have := List.drop_eq_nil_iff.mp hsplit
      omega
    have hlen : completedLength (fs.map bytes) (fs.map bytes).flatten.length =
        (fs.map bytes).flatten.length := by
      rw [completedLength, completed_flatten_length]
    simp only [readLoop, List.foldlM_nil, readerAt, hn', hlen, completed_flatten_length,
      List.take_length, List.drop_length]
    simp
  | cons c cs ih =>
    have hc : c ≠ [] := hchunks c (by simp)
    have hcs : ∀ c' ∈ cs, c' ≠ [] := fun c' hmem => hchunks c' (by simp [hmem])
    rw [List.flatten_cons] at hsplit
    have hnc : n + c.length ≤ (fs.map bytes).flatten.length := by
      have := congrArg List.length hsplit
      rw [List.length_drop, List.length_append] at this
      omega
    have hfirst : (∀ i < (c :: cs).length, n + ((c :: cs).take (i + 1)).flatten.length -
        completedLength (fs.map bytes) (n + ((c :: cs).take i).flatten.length) ≤
          MAX_MESSAGE_BYTES) ↔
        n + c.length - completedLength (fs.map bytes) n ≤ MAX_MESSAGE_BYTES ∧
        ∀ i < cs.length, n + c.length + (cs.take (i + 1)).flatten.length -
          completedLength (fs.map bytes) (n + c.length + (cs.take i).flatten.length) ≤
            MAX_MESSAGE_BYTES := by
      rw [List.length_cons, Nat.forall_lt_succ_left]
      simp [Nat.add_assoc]
    rw [hfirst]
    unfold readLoop at ih ⊢
    rw [List.foldlM_cons]
    by_cases hcap : n + c.length - completedLength (fs.map bytes) n ≤ MAX_MESSAGE_BYTES
    · have hrest : (fs.map bytes).flatten.drop (n + c.length) = cs.flatten := by
        rw [← List.drop_drop, hsplit, List.drop_left]
      rw [onRead_fits fs hfuel hn hsplit hc hcap]
      have hih := ih (n + c.length) hrest hnc hcs
      simp only [Option.bind_eq_bind, Option.bind_some] at hih ⊢
      rw [hih]
      simp [hcap]
    · obtain ⟨r, hr, hclosed⟩ := onRead_over (fs.map bytes) (by omega : 0 < fuel) hn hc
        (by omega)
      have hstay := readLoop_closed fuel (r := r) (by rw [hclosed]; decide) cs
      unfold readLoop at hstay
      rw [hr]
      simp only [Option.bind_eq_bind, Option.bind_some, hstay]
      constructor
      · intro h
        rw [Option.some.inj h] at hclosed
        contradiction
      · intro h
        exact absurd h.1 hcap

/-- **Stream framing delivers the messages exactly when the buffer never
passes the cap**: whatever the reads, the loop ends with all messages
delivered in order, byte for byte, and the connection open, if and only if
every read keeps the bytes not delivered yet within `MAX_MESSAGE_BYTES`. -/
theorem stream_delivers_iff (fs : List Frame) (chunks : List Bytes) (fuel : Nat)
    (hsplit : chunks.flatten = (fs.map bytes).flatten) (hchunks : ∀ c ∈ chunks, c ≠ [])
    (hfuel : fs.length < fuel) :
    readLoop fuel .new chunks = some ⟨[], fs.map bytes, .reading⟩ ↔
      WithinCap (fs.map bytes) chunks := by
  have h := readLoop_iff fs hfuel 0 chunks (by rw [List.drop_zero, hsplit]) (Nat.zero_le _) hchunks
  rw [readerAt_zero] at h
  simpa [WithinCap] using h

/-- A request with a body of two bytes. -/
def smallFrame : Frame where
  head := toUtf8 "MESSAGE sip:a@b SIP/2.0\r\nl: 2".toList
  body := [104, 105]
  terminated := by decide +kernel
  announced := by decide +kernel
  fits := by decide +kernel

/-- A read boundary inside the header terminator does no harm. -/
theorem stream_delivers_split_terminator :
    readLoop 2 .new (cut [31] smallFrame.bytes) = some ⟨[], [smallFrame.bytes], .reading⟩ := by
  have hne : ∀ c ∈ cut [31] smallFrame.bytes, c ≠ [] :=
    ne_nil_of_mem_cut (by decide) (by decide +kernel)
  have hcap : WithinCap [smallFrame.bytes] (cut [31] smallFrame.bytes) := by
    unfold WithinCap
    decide +kernel
  exact (stream_delivers_iff [smallFrame] (cut [31] smallFrame.bytes) 2
    (by rw [flatten_cut]; simp) hne (by decide)).mpr hcap

/-- A request with a body of 40000 bytes. -/
def bulkyFrame : Frame where
  head := toUtf8 "MESSAGE sip:a@b SIP/2.0\r\nl: 40000".toList
  body := List.replicate 40000 0
  terminated := by decide +kernel
  announced := by rw [List.length_replicate]; decide +kernel
  fits := by
    have hhead : (toUtf8 "MESSAGE sip:a@b SIP/2.0\r\nl: 40000".toList).length = 33 := by
      decide +kernel
    rw [List.length_append, List.length_append, hhead, List.length_replicate]
    decide

theorem bulkyFrame_length : bulkyFrame.bytes.length = 40037 := by
  have hhead : bulkyFrame.head.length = 33 := by decide +kernel
  have hbody : bulkyFrame.body.length = 40000 := List.length_replicate
  rw [Frame.length_bytes, hhead, hbody]

/-- Two such requests sent back to back. -/
def pipelined : Bytes := [bulkyFrame.bytes, bulkyFrame.bytes].flatten

theorem pipelined_length : pipelined.length = 80074 := by
  simp [pipelined, bulkyFrame_length]

/-- Reads that fill a buffer which starts at 8192 bytes and doubles. -/
def pipelinedReads : List Bytes := cut [8192, 8192, 16384, 32768] pipelined

/-- Two pipelined messages of 40037 bytes close the connection: the fourth
read completes the first one and takes the buffer to 65536 bytes. -/
theorem pipelined_messages_close_connection :
    ¬ ∀ (fs : List Frame) (chunks : List Bytes) (fuel : Nat),
      chunks.flatten = (fs.map bytes).flatten → (∀ c ∈ chunks, c ≠ []) → fs.length < fuel →
      readLoop fuel .new chunks = some ⟨[], fs.map bytes, .reading⟩ := by
  intro h
  have hflat : pipelinedReads.flatten = pipelined := flatten_cut _ _
  have hne : ∀ c ∈ pipelinedReads, c ≠ [] :=
    ne_nil_of_mem_cut (by decide) (by rw [pipelined_length]; decide)
  have hclaim := h [bulkyFrame, bulkyFrame] pipelinedReads 3 hflat hne (by decide)
  have hiff := readLoop_iff [bulkyFrame, bulkyFrame] (by decide : 2 < 3) 0 pipelinedReads
    hflat.symm (Nat.zero_le _) hne
  rw [readerAt_zero] at hiff
  have hcap := hiff.mp hclaim 3 (by decide)
  have hbefore : (pipelinedReads.take 3).flatten.length = 32768 := by
    simp [pipelinedReads, cut, pipelined_length]
  have hafter : (pipelinedReads.take 4).flatten.length = 65536 := by
    simp [pipelinedReads, cut, pipelined_length]
  have hnone : completedLength [bulkyFrame.bytes, bulkyFrame.bytes] 32768 = 0 :=
    completedLength_cons_of_lt _ (by rw [bulkyFrame_length]; decide)
  simp only [Nat.zero_add, Nat.reduceAdd, hbefore, hafter, List.map_cons, List.map_nil,
    hnone] at hcap
  exact absurd hcap (by decide)

end SmithsNet.Transport
