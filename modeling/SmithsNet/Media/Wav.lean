import Mathlib
import SmithsNet.Lib.Checked

/-!
# SmithsNet.Media.Wav

The WAV files prompts are read from and written to (`smiths-media/src/prompts.rs`).

The decoder walks the chunks of the file; every access is checked, so that leaving the
file is told apart from the decoder's own errors.

* `walk_chunk` — the walk over one chunk, wherever it stands;
* `walk_extras` — chunks it does not know leave no trace;
* `found_of_walk` — samples come from a data chunk behind a format chunk it allows.

The encoder computes the byte rate in 32 bits: `wav_codec_iff`.
-/

namespace SmithsNet.Media.Wav

open Lib Lib.Checked List

/-! ## the decoder -/

/-- The bytes of an ASCII text. -/
def ascii (s : List Char) : Bytes := s.map fun c => UInt8.ofNat c.toNat

def RIFF : Bytes := ascii ['R', 'I', 'F', 'F']

def WAVE : Bytes := ascii ['W', 'A', 'V', 'E']

def FMT : Bytes := ascii ['f', 'm', 't', ' ']

def DATA : Bytes := ascii ['d', 'a', 't', 'a']

structure WavFormat where
  rate : UInt32
  bits : UInt16
  channels : UInt16
  formatTag : UInt16

/-- `u16::from_le_bytes` -/
def leU16 (bytes : Bytes) : UInt16 := UInt16.ofNat (leNat bytes)

/-- `u32::from_le_bytes` -/
def leU32 (bytes : Bytes) : UInt32 := UInt32.ofNat (leNat bytes)

/-- `chunks_exact(2)`, each read by `i16::from_le_bytes`. -/
def pcmSamples : Bytes → List Int16
  | a :: b :: rest => (leU16 [a, b]).toInt16 :: pcmSamples rest
  | _ => []

/-- What the loop of the decoder carries along. -/
structure WavWalk where
  format : Option WavFormat
  samples : Option (List Int16)

/-- The body of the loop: what a chunk says. -/
def WavWalk.chunk (w : WavWalk) (tag body : Bytes) : Checked String WavWalk :=
  if tag = FMT then
    if body.length < 16 then fail "fmt chunk too small"
    else do
      let formatTag ← bytesAt body 0 2
      let channels ← bytesAt body 2 2
      let rate ← bytesAt body 4 4
      let bits ← bytesAt body 14 2
      return { w with
        format := some {
          rate := leU32 rate
          bits := leU16 bits
          channels := leU16 channels
          formatTag := leU16 formatTag } }
  else if tag = DATA then
    match w.format with
    | none => fail "data chunk before fmt"
    | some format =>
      if format.formatTag ≠ 1 then
        fail ("format_tag " ++ toString format.formatTag ++ ": only PCM (1) supported")
      else if format.channels ≠ 1 then
        fail (toString format.channels ++ "-channel audio; mono only")
      else if format.bits ≠ 16 then fail (toString format.bits ++ "-bit samples; 16-bit only")
      else if body.length % 2 ≠ 0 then fail "data chunk length is odd"
      else return { w with samples := some (pcmSamples body) }
  else return w

/-- The error of a chunk that is longer than what is left. -/
def overruns (tag : Bytes) : String :=
  "chunk `" ++ String.ofList (fromUtf8Lossy tag) ++ "` overruns file"

/-- The loop: one chunk after the other, each padded to an even size. -/
def walk (bytes : Bytes) (cursor : Nat) (w : WavWalk) : Checked String WavWalk :=
  if _h : cursor + 8 ≤ bytes.length then do
    let tag ← range bytes cursor (cursor + 4)
    let size ← bytesAt bytes (cursor + 4) 4
    if bytes.length < cursor + 8 + leNat size then fail (overruns tag)
    else
      let body ← range bytes (cursor + 8) (cursor + 8 + leNat size)
      let w ← w.chunk tag body
      walk bytes (cursor + 8 + (leNat size + leNat size % 2)) w
  else return w
termination_by bytes.length - cursor

def decodeWav (bytes : Bytes) : Checked String (UInt32 × List Int16) :=
  if bytes.length < 44 then fail "file too small for a RIFF header"
  else do
    let riff ← range bytes 0 4
    if riff ≠ RIFF then fail "missing RIFF magic"
    else
      let wave ← range bytes 8 12
      if wave ≠ WAVE then fail "missing WAVE magic"
      else
        let w ← walk bytes 12 ⟨none, none⟩
        match w.format with
        | none => fail "no fmt chunk"
        | some format =>
          match w.samples with
          | none => fail "no data chunk"
          | some samples => return (format.rate, samples)

/-! ## the encoder -/

/-- The result of an operation on `u32`, unless it overflows. -/
def u32 (n : Nat) : Option Nat := if n < 2 ^ 32 then some n else none

/-- A sample's two bytes. -/
def sampleBytes (s : Int16) : Bytes := leBytes 2 s.toUInt16.toNat

/-- The format chunk: PCM, one channel, 16 bits. -/
def fmtBody (sampleRate : UInt32) (byteRate : Nat) : Bytes :=
  leBytes 2 1 ++ leBytes 2 1 ++ leBytes 4 sampleRate.toNat ++ leBytes 4 byteRate ++ leBytes 2 2 ++
    leBytes 2 16

def encodeWav (sampleRate : UInt32) (samples : List Int16) : Option Bytes := do
  let byteRate ← u32 (sampleRate.toNat * 2)
  let dataSize := samples.length * 2 % 2 ^ 32
  let chunkSize ← u32 (36 + dataSize)
  return RIFF ++ leBytes 4 chunkSize ++ WAVE ++ FMT ++ leBytes 4 16 ++ fmtBody sampleRate byteRate ++
    DATA ++ leBytes 4 dataSize ++ samples.flatMap sampleBytes

/-! ## the walk over one chunk -/

/-- The size a chunk gives itself. -/
def sizeAt (bytes : Bytes) (cursor : Nat) : Nat := leNat (slice bytes (cursor + 4) 4)

variable {body tag front rest : Bytes} {samples : List Int16} {cursor : Nat} {w w' : WavWalk}

theorem walk_eq {bytes : Bytes} (h : cursor + 8 ≤ bytes.length) (w : WavWalk) :
    walk bytes cursor w =
      if bytes.length < cursor + 8 + sizeAt bytes cursor then fail (overruns (slice bytes cursor 4))
      else w.chunk (slice bytes cursor 4) (slice bytes (cursor + 8) (sizeAt bytes cursor)) >>= fun w =>
        walk bytes (cursor + 8 + (sizeAt bytes cursor + sizeAt bytes cursor % 2)) w := by
  rw [walk, dif_pos h, range_eq (by omega) (by omega), ok_bind, bytesAt_eq (by omega), ok_bind,
    Nat.add_sub_cancel_left]
  by_cases hover : bytes.length < cursor + 8 + sizeAt bytes cursor
  · rw [if_pos hover]
    exact if_pos hover
  · rw [if_neg hover, sizeAt] at *
    rw [if_neg hover, range_eq (by omega) (by omega), ok_bind, Nat.add_sub_cancel_left]

theorem walk_end {bytes : Bytes} (h : ¬ cursor + 8 ≤ bytes.length) (w : WavWalk) :
    walk bytes cursor w = .ok w := by
  rw [walk, dif_neg h]
  rfl

/-- The format a chunk's body spells. -/
def formatOf (body : Bytes) : WavFormat where
  rate := leU32 (slice body 4 4)
  bits := leU16 (slice body 14 2)
  channels := leU16 (slice body 2 2)
  formatTag := leU16 (slice body 0 2)

/-- PCM, one channel, 16 bits. -/
def WavFormat.Pcm16Mono (f : WavFormat) : Prop := f.formatTag = 1 ∧ f.channels = 1 ∧ f.bits = 16

theorem FMT_ne_DATA : FMT ≠ DATA := by decide

theorem chunk_fmt (w : WavWalk) (h : 16 ≤ body.length) :
    w.chunk FMT body = .ok { w with format := some (formatOf body) } := by
  rw [WavWalk.chunk, if_pos rfl, if_neg (Nat.not_lt.mpr h), bytesAt_eq (by omega),
    bytesAt_eq (by omega), bytesAt_eq (by omega), bytesAt_eq (by omega)]
  rfl

theorem chunk_data {f : WavFormat} (hf : w.format = some f)
    (hpcm : f.Pcm16Mono) (heven : body.length % 2 = 0) :
    w.chunk DATA body = .ok { w with samples := some (pcmSamples body) } := by
  obtain ⟨htag, hchannels, hbits⟩ := hpcm
  rw [WavWalk.chunk, if_neg FMT_ne_DATA.symm, if_pos rfl, hf]
  dsimp only
  rw [if_neg (not_not_intro htag), if_neg (not_not_intro hchannels), if_neg (not_not_intro hbits),
    if_neg (not_not_intro heven)]
  rfl

theorem chunk_other (w : WavWalk) (hfmt : tag ≠ FMT) (hdata : tag ≠ DATA)
    (body : Bytes) : w.chunk tag body = .ok w := by
  rw [WavWalk.chunk, if_neg hfmt, if_neg hdata]
  rfl

theorem chunk_eq_ok (h : w.chunk tag body = .ok w') :
    (tag = FMT ∧ 16 ≤ body.length ∧ w' = { w with format := some (formatOf body) }) ∨
      (tag = DATA ∧ body.length % 2 = 0 ∧ (∃ f, w.format = some f ∧ f.Pcm16Mono) ∧
        w' = { w with samples := some (pcmSamples body) }) ∨ w' = w := by
  by_cases hfmt : tag = FMT
  · subst hfmt
    by_cases hsize : body.length < 16
    · rw [WavWalk.chunk, if_pos rfl, if_pos hsize] at h
      contradiction
    · rw [chunk_fmt w (Nat.not_lt.mp hsize)] at h
      exact .inl ⟨rfl, Nat.not_lt.mp hsize, (Except.ok.inj h).symm⟩
  by_cases hdata : tag = DATA
  · subst hdata
    rw [WavWalk.chunk, if_neg hfmt, if_pos rfl] at h
    cases hf : w.format with
    | none =>
      rw [hf] at h
      contradiction
    | some f =>
      rw [hf] at h
      simp only [check_eq_ok, not_not] at h
      obtain ⟨htag, hchannels, hbits, heven, hw⟩ := h
      exact .inr (.inl ⟨rfl, heven, ⟨f, rfl, htag, hchannels, hbits⟩, (Except.ok.inj hw).symm⟩)
  · rw [chunk_other w hfmt hdata] at h
    exact .inr (.inr (Except.ok.inj h).symm)

/-! ## nothing is read outside the file -/

theorem inRange_check {c : Prop} [Decidable c] {e : String} {α : Type} {x : Checked String α}
    (h : ¬ c → InRange x) : InRange (if c then fail e else x) := by
  by_cases hc : c
  · rw [if_pos hc]
    exact inRange_fail e
  · rw [if_neg hc]
    exact h hc

theorem inRange_chunk (w : WavWalk) (tag body : Bytes) : InRange (w.chunk tag body) := by
  by_cases hfmt : tag = FMT
  · subst hfmt
    by_cases hsize : body.length < 16
    · rw [WavWalk.chunk, if_pos rfl, if_pos hsize]
      exact inRange_fail _
    · rw [chunk_fmt w (Nat.not_lt.mp hsize)]
      exact inRange_ok _
  by_cases hdata : tag = DATA
  · rw [WavWalk.chunk, if_neg hfmt, if_pos hdata]
    cases w.format with
    | none => exact inRange_fail _
    | some f =>
      exact inRange_check fun _ => inRange_check fun _ => inRange_check fun _ =>
        inRange_check fun _ => inRange_ok _
  · rw [chunk_other w hfmt hdata]
    exact inRange_ok w

theorem inRange_walk (bytes : Bytes) (cursor : Nat) (w : WavWalk) :
    InRange (walk bytes cursor w) := by
  induction hleft : bytes.length - cursor using Nat.strongRecOn generalizing cursor w with
  | ind left ih =>
    by_cases h : cursor + 8 ≤ bytes.length
    · rw [walk_eq h]
      refine inRange_check fun _ => InRange.bind (inRange_chunk w _ _) fun w' _ => ?_
      exact ih _ (by omega) _ w' rfl
    · rw [walk_end h]
      exact inRange_ok w

theorem inRange_decodeWav (bytes : Bytes) : InRange (decodeWav bytes) := by
  unfold decodeWav
  refine inRange_check fun hlen => ?_
  refine (inRange_range (by omega) (by omega)).bind fun riff _ => inRange_check fun _ => ?_
  refine (inRange_range (by omega) (by omega)).bind fun wave _ => inRange_check fun _ => ?_
  refine (inRange_walk bytes 12 _).bind fun w _ => ?_
  cases w.format with
  | none => exact inRange_fail _
  | some format =>
    cases w.samples with
    | none => exact inRange_fail _
    | some samples => exact inRange_ok _

/-! ## where samples come from -/

/-- Where the chunks of a file start. -/
inductive ChunkStart (bytes : Bytes) : Nat → Prop
  | first : ChunkStart bytes 12
  | next {c : Nat} : ChunkStart bytes c → c + 8 + sizeAt bytes c ≤ bytes.length →
      ChunkStart bytes (c + 8 + (sizeAt bytes c + sizeAt bytes c % 2))

def tagAt (bytes : Bytes) (c : Nat) : Bytes := slice bytes c 4

def bodyAt (bytes : Bytes) (c : Nat) : Bytes := slice bytes (c + 8) (sizeAt bytes c)

/-- A chunk that lies in the file with all of its body. -/
structure ChunkAt (bytes : Bytes) (c : Nat) (tag : Bytes) : Prop where
  start : ChunkStart bytes c
  fits : c + 8 + sizeAt bytes c ≤ bytes.length
  tag : tagAt bytes c = tag

/-- The samples are those of a data chunk of 16-bit PCM, with a format chunk in front of
it that says mono, 16 bits and PCM. -/
def FromPcmData (bytes : Bytes) (samples : List Int16) : Prop :=
  ∃ f d, f < d ∧ ChunkAt bytes f FMT ∧ 16 ≤ (bodyAt bytes f).length ∧
    (formatOf (bodyAt bytes f)).Pcm16Mono ∧ ChunkAt bytes d DATA ∧
    (bodyAt bytes d).length % 2 = 0 ∧ samples = pcmSamples (bodyAt bytes d)

/-- What the loop has found by the time it reaches a position. -/
structure Found (bytes : Bytes) (cursor : Nat) (w : WavWalk) : Prop where
  start : ChunkStart bytes cursor
  format : ∀ format, w.format = some format → ∃ f < cursor, ChunkAt bytes f FMT ∧
    16 ≤ (bodyAt bytes f).length ∧ format = formatOf (bodyAt bytes f)
  samples : ∀ samples, w.samples = some samples → FromPcmData bytes samples

theorem Found.chunk {bytes : Bytes} (h : Found bytes cursor w)
    (hfits : cursor + 8 + sizeAt bytes cursor ≤ bytes.length)
    (hw : w.chunk (tagAt bytes cursor) (bodyAt bytes cursor) = .ok w') :
    Found bytes (cursor + 8 + (sizeAt bytes cursor + sizeAt bytes cursor % 2)) w' := by
  have hformat : ∀ format, w.format = some format →
      ∃ f < cursor + 8 + (sizeAt bytes cursor + sizeAt bytes cursor % 2), ChunkAt bytes f FMT ∧
        16 ≤ (bodyAt bytes f).length ∧ format = formatOf (bodyAt bytes f) := by
    intro format hsome
    obtain ⟨f, hf, hrest⟩ := h.format format hsome
    exact ⟨f, by omega, hrest⟩
  obtain ⟨htag, hsize, rfl⟩ | ⟨htag, heven, ⟨format, hf, hpcm⟩, rfl⟩ | rfl := chunk_eq_ok hw
  · refine ⟨h.start.next hfits, ?_, h.samples⟩
    intro format hsome
    exact ⟨cursor, by omega, ⟨h.start, hfits, htag⟩, hsize, (Option.some.inj hsome).symm⟩
  · refine ⟨h.start.next hfits, hformat, ?_⟩
    intro samples hsome
    obtain ⟨f, hfc, hchunk, hsize, rfl⟩ := h.format format hf
    exact ⟨f, cursor, hfc, hchunk, hsize, hpcm, ⟨h.start, hfits, htag⟩, heven,
      (Option.some.inj hsome).symm⟩
  · exact ⟨h.start.next hfits, hformat, h.samples⟩

theorem found_of_walk {bytes : Bytes} (h : Found bytes cursor w)
    (hwalk : walk bytes cursor w = .ok w') :
    ∀ samples, w'.samples = some samples → FromPcmData bytes samples := by
  induction hleft : bytes.length - cursor using Nat.strongRecOn generalizing cursor w with
  | ind left ih =>
    by_cases hmore : cursor + 8 ≤ bytes.length
    · rw [walk_eq hmore, check_eq_ok, bind_eq_ok] at hwalk
      obtain ⟨hfits, w₁, hchunk, hwalk⟩ := hwalk
      exact ih _ (by omega) (h.chunk (Nat.not_lt.mp hfits) hchunk) hwalk rfl
    · rw [walk_end hmore] at hwalk
      obtain rfl := Except.ok.inj hwalk
      exact h.samples

theorem fromPcmData_of_decodeWav {bytes : Bytes} {rate : UInt32}
    (h : decodeWav bytes = .ok (rate, samples)) : FromPcmData bytes samples := by
  simp only [decodeWav, check_eq_ok, bind_eq_ok] at h
  obtain ⟨-, riff, -, -, wave, -, -, w, hwalk, h⟩ := h
  have hstart : Found bytes 12 ⟨none, none⟩ := ⟨.first, nofun, nofun⟩
  cases hf : w.format with
  | none =>
    rw [hf] at h
    contradiction
  | some format =>
    cases hs : w.samples with
    | none =>
      rw [hf, hs] at h
      contradiction
    | some out =>
      rw [hf, hs] at h
      obtain ⟨-, rfl⟩ := Prod.mk.inj (Except.ok.inj h)
      exact found_of_walk hstart hwalk out hs

/-! ## files that are written -/

/-- A chunk the decoder does not know, with its padding. -/
structure ExtraChunk where
  tag : Bytes
  tag_length : tag.length = 4
  tag_unknown : tag ≠ FMT ∧ tag ≠ DATA
  body : Bytes
  body_lt : body.length < 2 ^ 32
  pad : UInt8

def ExtraChunk.bytes (c : ExtraChunk) : Bytes :=
  c.tag ++ leBytes 4 c.body.length ++ c.body ++ List.replicate (c.body.length % 2) c.pad

/-- A written file with chunks inserted behind its format chunk and behind its data chunk,
and another size in front. -/
def insertChunks (wav : Bytes) (riffSize : UInt32) (before after : List ExtraChunk) : Bytes :=
  wav.take 4 ++ leBytes 4 riffSize.toNat ++ (wav.take 36).drop 8 ++ before.flatMap (·.bytes) ++
    wav.drop 36 ++ after.flatMap (·.bytes)

theorem slice_at {bytes a b c : Bytes} {i k : Nat} (h : bytes = a ++ (b ++ c)) (hi : i = a.length)
    (hk : k = b.length) : slice bytes i k = b := by
  rw [h, hi, hk, slice, drop_left, take_left]

theorem walk_chunk {bytes pad : Bytes}
    (h : bytes = front ++ (tag ++ (leBytes 4 body.length ++ (body ++ (pad ++ rest)))))
    (htag : tag.length = 4) (hbody : body.length < 2 ^ 32) (w : WavWalk) :
    walk bytes front.length w =
      w.chunk tag body >>= walk bytes (front.length + 8 + (body.length + body.length % 2)) := by
  have hlen : bytes.length = front.length + (4 + (4 + (body.length + (pad.length + rest.length)))) := by
    rw [h]
    simp only [length_append, length_leBytes, htag]
  have htagAt : slice bytes front.length 4 = tag := slice_at h rfl htag.symm
  have hsize : sizeAt bytes front.length = body.length := by
    have hfield : slice bytes (front.length + 4) 4 = leBytes 4 body.length := by
      refine slice_at (a := front ++ tag) (c := body ++ (pad ++ rest)) ?_ ?_ (length_leBytes 4 _).symm
      · rw [h, append_assoc]
      · rw [length_append, htag]
    rw [sizeAt, hfield, leNat_leBytes_of_lt hbody]
  have hbodyAt : slice bytes (front.length + 8) body.length = body := by
    refine slice_at (a := front ++ (tag ++ leBytes 4 body.length)) (c := pad ++ rest) ?_ ?_ rfl
    · rw [h]
      simp only [append_assoc]
    · simp only [length_append, length_leBytes, htag]
  rw [walk_eq (by omega), hsize, if_neg (by omega), htagAt, hbodyAt]

theorem walk_extras {bytes : Bytes} {extras : List ExtraChunk}
    (h : bytes = front ++ (extras.flatMap (·.bytes) ++ rest)) (w : WavWalk) :
    walk bytes front.length w =
      walk bytes (front.length + (extras.flatMap (·.bytes)).length) w := by
  induction extras generalizing front with
  | nil => rfl
  | cons c extras ih =>
    have hchunk : bytes = front ++ (c.tag ++ (leBytes 4 c.body.length ++ (c.body ++
        (List.replicate (c.body.length % 2) c.pad ++ (extras.flatMap (·.bytes) ++ rest))))) := by
      rw [h]
      simp only [flatMap_cons, ExtraChunk.bytes, append_assoc]
    have hnext : bytes = (front ++ c.bytes) ++ (extras.flatMap (·.bytes) ++ rest) := by
      rw [h, flatMap_cons]
      simp only [append_assoc]
    have hlen : (front ++ c.bytes).length = front.length + 8 + (c.body.length + c.body.length % 2) := by
      simp only [ExtraChunk.bytes, length_append, length_leBytes, c.tag_length,
        length_replicate]
      omega
    rw [walk_chunk hchunk c.tag_length c.body_lt, chunk_other w c.tag_unknown.1 c.tag_unknown.2,
      ok_bind, ← hlen, ih hnext, flatMap_cons, length_append, length_append,
      Nat.add_assoc]

theorem pcmSamples_sampleBytes (samples : List Int16) :
    pcmSamples (samples.flatMap sampleBytes) = samples := by
  induction samples with
  | nil => rfl
  | cons s samples ih =>
    have hread : leU16 (sampleBytes s) = s.toUInt16 := by
      rw [leU16, sampleBytes, leNat_leBytes_of_lt s.toUInt16.toNat_lt, UInt16.ofNat_toNat]
    have hpair : pcmSamples ((s :: samples).flatMap sampleBytes) =
        (leU16 (sampleBytes s)).toInt16 :: pcmSamples (samples.flatMap sampleBytes) := rfl
    rw [hpair, hread, ih, Int16.toInt16_toUInt16]

theorem length_sampleBytes (samples : List Int16) :
    (samples.flatMap sampleBytes).length = samples.length * 2 := by
  induction samples with
  | nil => rfl
  | cons s samples ih =>
    rw [flatMap_cons, length_append, ih, sampleBytes, length_leBytes, length_cons]
    omega

theorem length_fmtBody (sampleRate : UInt32) (byteRate : Nat) :
    (fmtBody sampleRate byteRate).length = 16 := by
  simp only [fmtBody, length_append, length_leBytes]

theorem formatOf_fmtBody (sampleRate : UInt32) (byteRate : Nat) :
    formatOf (fmtBody sampleRate byteRate) = ⟨sampleRate, 16, 1, 1⟩ := by
  have hpieces : fmtBody sampleRate byteRate = [leBytes 2 1, leBytes 2 1, leBytes 4 sampleRate.toNat,
      leBytes 4 byteRate, leBytes 2 2, leBytes 2 16].flatten := by
    simp only [fmtBody, flatten_cons, flatten_nil, append_nil, append_assoc]
  have htag : slice (fmtBody sampleRate byteRate) 0 2 = leBytes 2 1 := by
    rw [hpieces]
    exact slice_flatten 0 rfl rfl rfl
  have hchannels : slice (fmtBody sampleRate byteRate) 2 2 = leBytes 2 1 := by
    rw [hpieces]
    exact slice_flatten 1 rfl rfl rfl
  have hrate : slice (fmtBody sampleRate byteRate) 4 4 = leBytes 4 sampleRate.toNat := by
    rw [hpieces]
    exact slice_flatten 2 rfl rfl rfl
  have hbits : slice (fmtBody sampleRate byteRate) 14 2 = leBytes 2 16 := by
    rw [hpieces]
    exact slice_flatten 5 rfl rfl rfl
  rw [formatOf, htag, hchannels, hrate, hbits, leU32, leNat_leBytes_of_lt sampleRate.toNat_lt,
    UInt32.ofNat_toNat]
  rfl

/-- A whole file: format, some chunks, samples, some more chunks. -/
def layout (riffSize : Nat) (sampleRate : UInt32) (byteRate : Nat) (before : List ExtraChunk)
    (samples : List Int16) (after : List ExtraChunk) : Bytes :=
  RIFF ++ leBytes 4 riffSize ++ WAVE ++ FMT ++ leBytes 4 16 ++ fmtBody sampleRate byteRate ++
    before.flatMap (·.bytes) ++ (DATA ++ leBytes 4 (samples.length * 2) ++ samples.flatMap sampleBytes) ++
    after.flatMap (·.bytes)

theorem decodeWav_layout (riffSize : Nat) (sampleRate : UInt32) (byteRate : Nat)
    (before : List ExtraChunk) (after : List ExtraChunk) (hsamples : samples.length < 2 ^ 30) :
    decodeWav (layout riffSize sampleRate byteRate before samples after) =
      .ok (sampleRate, samples) := by
  generalize hbytes : layout riffSize sampleRate byteRate before samples after = bytes
  have hfmt : bytes = (RIFF ++ leBytes 4 riffSize ++ WAVE) ++ (FMT ++ (leBytes 4
      (fmtBody sampleRate byteRate).length ++ (fmtBody sampleRate byteRate ++ ([] ++
        (before.flatMap (·.bytes) ++ (DATA ++ leBytes 4 (samples.length * 2) ++
          samples.flatMap sampleBytes ++ after.flatMap (·.bytes))))))) := by
    rw [← hbytes, length_fmtBody]
    simp only [layout, append_assoc, nil_append]
  have hbefore : bytes = (RIFF ++ leBytes 4 riffSize ++ WAVE ++ FMT ++ leBytes 4 16 ++
      fmtBody sampleRate byteRate) ++ (before.flatMap (·.bytes) ++ (DATA ++
        leBytes 4 (samples.length * 2) ++ samples.flatMap sampleBytes ++ after.flatMap (·.bytes))) := by
    rw [← hbytes]
    simp only [layout, append_assoc]
  have hdata : bytes = (RIFF ++ leBytes 4 riffSize ++ WAVE ++ FMT ++ leBytes 4 16 ++
      fmtBody sampleRate byteRate ++ before.flatMap (·.bytes)) ++ (DATA ++ (leBytes 4
        (samples.flatMap sampleBytes).length ++ (samples.flatMap sampleBytes ++ ([] ++
          (after.flatMap (·.bytes) ++ []))))) := by
    rw [← hbytes, length_sampleBytes]
    simp only [layout, append_assoc, nil_append, append_nil]
  have hafter : bytes = (RIFF ++ leBytes 4 riffSize ++ WAVE ++ FMT ++ leBytes 4 16 ++
      fmtBody sampleRate byteRate ++ before.flatMap (·.bytes) ++ (DATA ++
        leBytes 4 (samples.length * 2) ++ samples.flatMap sampleBytes)) ++
          (after.flatMap (·.bytes) ++ []) := by
    rw [← hbytes, append_nil]
    rfl
  have hlen := congrArg List.length hafter
  have hrate := length_fmtBody sampleRate byteRate
  have hsize := length_sampleBytes samples
  have hriff : RIFF.length = 4 := rfl
  have hwave : WAVE.length = 4 := rfl
  have hfmtTag : FMT.length = 4 := rfl
  have hdataTag : DATA.length = 4 := rfl
  simp only [length_append, length_leBytes, hrate, hsize, hriff, hwave, hfmtTag, hdataTag,
    length_nil] at hlen
  -- the loop: the format, the chunks behind it, the samples, the chunks behind them
  have hwalk : walk bytes 12 ⟨none, none⟩ = .ok ⟨some ⟨sampleRate, 16, 1, 1⟩, some samples⟩ := by
    have h₁ := walk_chunk hfmt hfmtTag (by rw [hrate]; decide) ⟨none, none⟩
    have h₂ := walk_extras hbefore ⟨some ⟨sampleRate, 16, 1, 1⟩, none⟩
    have h₃ := walk_chunk hdata hdataTag (by rw [hsize]; omega) ⟨some ⟨sampleRate, 16, 1, 1⟩, none⟩
    have h₄ := walk_extras hafter ⟨some ⟨sampleRate, 16, 1, 1⟩, some samples⟩
    have hend := walk_end (Nat.not_le_of_gt (Nat.lt_add_of_pos_right (Nat.succ_pos 7)) :
      ¬ bytes.length + 8 ≤ bytes.length) ⟨some ⟨sampleRate, 16, 1, 1⟩, some samples⟩
    simp only [length_append, length_leBytes, hrate, hsize, hriff, hwave, hfmtTag,
      hdataTag] at h₁ h₂ h₃ h₄
    rw [chunk_fmt _ (by rw [hrate]), ok_bind, formatOf_fmtBody] at h₁
    rw [chunk_data rfl ⟨rfl, rfl, rfl⟩ (by rw [hsize]; omega), ok_bind, pcmSamples_sampleBytes] at h₃
    refine h₁.trans (h₂.trans ?_)
    refine (congrArg (walk bytes · _) ?_).trans (h₃.trans ?_)
    · omega
    refine (congrArg (walk bytes · _) ?_).trans (h₄.trans ?_)
    · omega
    refine (congrArg (walk bytes · _) ?_).trans hend
    · omega
  have hmagic : slice bytes 0 4 = RIFF := by
    refine slice_at (a := []) (c := bytes.drop 4) ?_ rfl rfl
    rw [hafter]
    simp only [append_assoc, nil_append]
    rfl
  have hwaveAt : slice bytes 8 4 = WAVE := by
    refine slice_at (a := RIFF ++ leBytes 4 riffSize) (c := bytes.drop 12) ?_ rfl rfl
    rw [hafter]
    simp only [append_assoc]
    rfl
  rw [decodeWav, if_neg (by omega), range_eq (by omega) (by omega), ok_bind, hmagic,
    if_neg (not_not_intro rfl), range_eq (by omega) (by omega), ok_bind, hwaveAt,
    if_neg (not_not_intro rfl), hwalk]
  rfl

/-! ## the codec -/

/-- Below the ceiling of 32 bits the byte rate is computed and the file written. -/
theorem encodeWav_eq {sampleRate : UInt32} (hsamples : samples.length < 2 ^ 30)
    (hrate : sampleRate < 2 ^ 31) : encodeWav sampleRate samples = some
      (layout (36 + samples.length * 2) sampleRate (sampleRate.toNat * 2) [] samples []) := by
  have hsize : samples.length * 2 % 2 ^ 32 = samples.length * 2 := Nat.mod_eq_of_lt (by omega)
  have hbyteRate : u32 (sampleRate.toNat * 2) = some (sampleRate.toNat * 2) := by
    have hlt : sampleRate.toNat < 2 ^ 31 := hrate
    exact if_pos (by omega)
  have hchunkSize : u32 (36 + samples.length * 2) = some (36 + samples.length * 2) :=
    if_pos (by omega)
  rw [encodeWav, hbyteRate]
  simp only [hsize, hchunkSize, Option.bind_eq_bind, Option.bind_some, Option.pure_def, layout,
    flatMap_nil, append_nil, append_assoc]

theorem insertChunks_layout (riffSize : Nat) (sampleRate : UInt32) (byteRate : Nat)
    (samples : List Int16) (size : UInt32) (before after : List ExtraChunk) :
    insertChunks (layout riffSize sampleRate byteRate [] samples []) size before after =
      layout size.toNat sampleRate byteRate before samples after := by
  have hfront : (RIFF ++ leBytes 4 riffSize ++ WAVE ++ FMT ++ leBytes 4 16 ++
      fmtBody sampleRate byteRate).length = 36 := by
    simp only [length_append, length_leBytes, length_fmtBody]
    rfl
  have hfile : layout riffSize sampleRate byteRate [] samples [] =
      (RIFF ++ leBytes 4 riffSize ++ WAVE ++ FMT ++ leBytes 4 16 ++ fmtBody sampleRate byteRate) ++
        (DATA ++ leBytes 4 (samples.length * 2) ++ samples.flatMap sampleBytes) := by
    simp only [layout, flatMap_nil, append_nil]
  have hmagic : (layout riffSize sampleRate byteRate [] samples []).take 4 = RIFF := rfl
  have hbehind : (RIFF ++ leBytes 4 riffSize ++ WAVE ++ FMT ++ leBytes 4 16 ++
      fmtBody sampleRate byteRate).drop 8 = WAVE ++ FMT ++ leBytes 4 16 ++ fmtBody sampleRate byteRate :=
    rfl
  rw [insertChunks, hmagic, hfile, ← hfront, take_left, drop_left, hbehind]
  simp only [layout, append_assoc]

/-- **The WAV codec.**  Fewer than `2 ^ 30` samples are written without overflow and read
back, with any chunks the decoder does not know put behind the format and behind the
samples, exactly when the sample rate is below `2 ^ 31`; and whatever the bytes, the
decoder ends without leaving the file, with samples only from a mono 16-bit PCM chunk
behind its format. -/
theorem wav_codec_iff (sampleRate : UInt32) (samples : List Int16)
    (hsamples : samples.length < 2 ^ 30) :
    ((∃ wav, encodeWav sampleRate samples = some wav ∧ decodeWav wav = .ok (sampleRate, samples) ∧
        ∀ riffSize before after,
          decodeWav (insertChunks wav riffSize before after) = .ok (sampleRate, samples)) ↔
      sampleRate < 2 ^ 31) ∧
    ∀ bytes, InRange (decodeWav bytes) ∧
      ∀ rate out, decodeWav bytes = .ok (rate, out) → FromPcmData bytes out := by
  refine ⟨?_, fun bytes => ⟨inRange_decodeWav bytes, fun rate out => fromPcmData_of_decodeWav⟩⟩
  constructor
  · rintro ⟨wav, hwav, -⟩
    rw [encodeWav, Option.bind_eq_bind, Option.bind_eq_some_iff] at hwav
    obtain ⟨byteRate, hbyteRate, -⟩ := hwav
    have hlt : sampleRate.toNat * 2 < 2 ^ 32 := (Option.ite_none_right_eq_some.mp hbyteRate).1
    have hrate : sampleRate.toNat < 2 ^ 31 := by omega
    exact hrate
  · intro hrate
    refine ⟨_, encodeWav_eq hsamples hrate, decodeWav_layout _ _ _ _ _ hsamples, ?_⟩
    intro riffSize before after
    rw [insertChunks_layout]
    exact decodeWav_layout _ _ _ _ _ hsamples

/-- Three samples at 8 kHz. -/
theorem wav_codec_three :
    ∃ wav, encodeWav 8000 [0, 1, -1] = some wav ∧ decodeWav wav = .ok (8000, [0, 1, -1]) ∧
      ∀ riffSize before after,
        decodeWav (insertChunks wav riffSize before after) = .ok (8000, [0, 1, -1]) :=
  (wav_codec_iff 8000 [0, 1, -1] (by decide)).1.mpr (by decide)

/-- At a sample rate of `2 ^ 31` the byte rate overflows. -/
theorem byte_rate_overflows :
    ¬ ∀ (sampleRate : UInt32) (samples : List Int16), samples.length < 2 ^ 30 →
      ∃ wav, encodeWav sampleRate samples = some wav ∧ decodeWav wav = .ok (sampleRate, samples) := by
  intro h
  obtain ⟨wav, hwav, -⟩ := h 2147483648 [] (by decide)
  have hnone : encodeWav 2147483648 [] = none := by decide
  rw [hnone] at hwav
  contradiction

end SmithsNet.Media.Wav
