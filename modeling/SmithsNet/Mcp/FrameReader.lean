import SmithsNet.Lib.Lines
import SmithsNet.Lib.Wire

/-!
# SmithsNet.Mcp.FrameReader

The line reader of the MCP server (`FrameReader` of `smiths-mcp/src/mcp.rs`) over a stream
that comes in chunks, called by a loop that may drop a call while it waits for the next
chunk and make another.

What has been read of the current line is in the reader and nowhere else (`Holds`), so it
does not matter where the chunks and the dropped calls fall: `frames_by_line` says that the
frames are the lines of the stream, each decoded as UTF-8 or, if it is over the limit,
reported once as too long.

Errors of the stream are left out.
-/

namespace SmithsNet.Mcp

open Lib

/-- `b'\n'` -/
def newline : UInt8 := 10

inductive Frame
  | line (text : Text)
  | tooLong
  | eof
  deriving DecidableEq

structure FrameReader where
  max : Nat
  buf : Bytes
  discarding : Bool

/-- The buffered stream: what it has of the last chunk, and the chunks that are still to come,
none of which is empty. -/
structure Source where
  available : Bytes
  chunks : List Bytes

namespace FrameReader

def new (max : Nat) : FrameReader := ⟨max, [], false⟩

def finishLine (fr : FrameReader) : Frame × FrameReader :=
  if fr.discarding then (.tooLong, { fr with discarding := false, buf := [] })
  else (.line (fromUtf8Lossy fr.buf), { fr with buf := [] })

def finishAtEof (fr : FrameReader) : Frame × FrameReader :=
  if fr.discarding ∨ fr.buf ≠ [] then fr.finishLine else (.eof, fr)

/-- The part of a chunk that belongs to the current line is kept, if there is room. -/
def take (fr : FrameReader) (part : Bytes) : FrameReader :=
  if fr.discarding then fr
  else
    let buf := fr.buf ++ part
    if buf.length > fr.max then { fr with discarding := true, buf := [] } else { fr with buf := buf }

/-- One round of the loop of `next_frame` over what `fill_buf` has returned: the frame and what
is left of the chunk, or no frame yet. -/
def round (fr : FrameReader) (available : Bytes) : Option (Frame × Bytes) × FrameReader :=
  if available = [] then
    let (f, fr) := fr.finishAtEof
    (some (f, []), fr)
  else
    match available.idxOf? newline with
    | some i =>
      let (f, fr) := (fr.take (available.take i)).finishLine
      (some (f, available.drop (i + 1)), fr)
    | none => (none, fr.take available)

/-- The rounds that wait for a chunk, or for the end of the stream; the call is dropped at the
wait after the first `patience`. -/
def await (fr : FrameReader) : List Bytes → Nat → Option Frame × FrameReader × Source
  | chunks, 0 => (none, fr, ⟨[], chunks⟩)
  | [], _ + 1 =>
    let (f, fr) := fr.finishAtEof
    (some f, fr, ⟨[], []⟩)
  | chunk :: chunks, patience + 1 =>
    match fr.round chunk with
    | (some (f, rest), fr) => (some f, fr, ⟨rest, chunks⟩)
    | (none, fr) => fr.await chunks patience

/-- A call of `next_frame`; `none` when it is dropped. -/
def nextFrame (fr : FrameReader) (src : Source) (patience : Nat) : Option Frame × FrameReader × Source :=
  if src.available = [] then fr.await src.chunks patience
  else
    match fr.round src.available with
    | (some (f, rest), fr) => (some f, fr, ⟨rest, src.chunks⟩)
    | (none, fr) => fr.await src.chunks patience

/-- Calls one after the other: the frames they yield, and what is left. -/
def run (fr : FrameReader) (src : Source) : List Nat → List Frame × FrameReader × Source
  | [] => ([], fr, src)
  | patience :: schedule =>
    let (f, fr, src) := fr.nextFrame src patience
    let (fs, fr, src) := fr.run src schedule
    (f.toList ++ fs, fr, src)

end FrameReader

/-! ## the lines of a stream -/

/-- What stands before each newline, and behind the last one if there is anything. -/
def lines (input : Bytes) : List Bytes :=
  let parts := splitBy (· == newline) input
  if parts.getLast? = some [] then parts.dropLast else parts

/-- The frame of a line. -/
def frameOf (max : Nat) (line : Bytes) : Frame :=
  if line.length ≤ max then .line (fromUtf8Lossy line) else .tooLong

theorem splitBy_ne_nil (input : Bytes) : splitBy (· == newline) input ≠ [] := splitByGo_ne_nil _ _

theorem lines_nil : lines [] = [] := rfl

variable {line : Bytes}

theorem lines_unterminated (h : newline ∉ line) (hne : line ≠ []) : lines line = [line] := by
  have hsplit : splitBy (· == newline) line = [line] :=
    splitBy_of_forall fun c hc => by simpa using fun hnl : c = newline => h (hnl ▸ hc)
  simp [lines, hsplit, hne]

theorem lines_terminated (h : newline ∉ line) (rest : Bytes) :
    lines (line ++ newline :: rest) = line :: lines rest := by
  have hsplit : splitBy (· == newline) (line ++ newline :: rest) = line :: splitBy (· == newline) rest :=
    splitBy_append (fun c hc => by simpa using fun hnl : c = newline => h (hnl ▸ hc)) (by simp) rest
  have hne := splitBy_ne_nil rest
  unfold lines
  simp only [hsplit]
  rw [List.getLast?_cons_of_ne_nil hne, List.dropLast_cons_of_ne_nil hne]
  split <;> rfl

theorem frameOf_ne_eof (max : Nat) (line : Bytes) : frameOf max line ≠ .eof := by
  unfold frameOf
  split <;> nofun

/-! ## what the reader holds -/

namespace FrameReader

variable {fr : FrameReader} {cur : Bytes}

/-- The current line so far: all of it, or that it is over the limit. -/
structure Holds (fr : FrameReader) (cur : Bytes) : Prop where
  no_newline : newline ∉ cur
  kept : fr.discarding = false → fr.buf = cur ∧ cur.length ≤ fr.max
  dropped : fr.discarding = true → fr.buf = [] ∧ fr.max < cur.length

theorem holds_new (max : Nat) : (new max).Holds [] := ⟨List.not_mem_nil, fun _ => ⟨rfl, Nat.zero_le _⟩, nofun⟩

theorem Holds.buf_le (h : fr.Holds cur) : fr.buf.length ≤ fr.max := by
  cases hd : fr.discarding with
  | false =>
    obtain ⟨hbuf, hle⟩ := h.kept hd
    rwa [hbuf]
  | true =>
    rw [(h.dropped hd).1]
    exact Nat.zero_le _

@[simp] theorem max_take (fr : FrameReader) (part : Bytes) : (fr.take part).max = fr.max := by
  unfold take
  simp only
  split
  · rfl
  · split <;> rfl

variable {part rem : Bytes} {chunks : List Bytes} {max patience : Nat} {src : Source}

theorem Holds.take (h : fr.Holds cur) (hpart : newline ∉ part) : (fr.take part).Holds (cur ++ part) := by
  have hnl : newline ∉ cur ++ part := by
    rw [List.mem_append, not_or]
    exact ⟨h.no_newline, hpart⟩
  unfold FrameReader.take
  simp only
  split
  · next hd =>
    obtain ⟨hbuf, hlt⟩ := h.dropped hd
    refine ⟨hnl, fun hd' => absurd (hd.symm.trans hd') nofun, fun _ => ⟨hbuf, ?_⟩⟩
    rw [List.length_append]
    omega
  · next hd =>
    obtain ⟨hbuf, hle⟩ := h.kept (Bool.eq_false_iff.mpr hd)
    rw [hbuf]
    split
    · next hlong => exact ⟨hnl, nofun, fun _ => ⟨rfl, hlong⟩⟩
    · next hshort => exact ⟨hnl, fun _ => ⟨rfl, Nat.le_of_not_lt hshort⟩, fun hd' => absurd hd' hd⟩

theorem Holds.finishLine (h : fr.Holds cur) :
    fr.finishLine = (frameOf fr.max cur, { fr with discarding := false, buf := [] }) := by
  unfold FrameReader.finishLine frameOf
  cases hd : fr.discarding with
  | false =>
    obtain ⟨hbuf, hle⟩ := h.kept hd
    rw [if_pos hle, hbuf]
    simp
  | true =>
    obtain ⟨-, hlt⟩ := h.dropped hd
    rw [if_neg (Nat.not_le.mpr hlt)]
    simp

theorem Holds.finishAtEof_nil (h : fr.Holds []) : fr.finishAtEof = (.eof, fr) := by
  have hd : fr.discarding = false := by
    rw [← Bool.not_eq_true]
    intro hd
    exact absurd (h.dropped hd).2 (Nat.not_lt_zero _)
  unfold FrameReader.finishAtEof
  rw [if_neg]
  simp [hd, (h.kept hd).1]

theorem Holds.finishAtEof (h : fr.Holds cur) (hne : cur ≠ []) : fr.finishAtEof = fr.finishLine := by
  unfold FrameReader.finishAtEof
  rw [if_pos]
  cases hd : fr.discarding with
  | false => exact .inr ((h.kept hd).1 ▸ hne)
  | true => exact .inl rfl

/-! ## one call -/

/-- The reader and what is left of the stream hold the bytes of which no frame was yielded yet. -/
def Ready (max : Nat) (fr : FrameReader) (src : Source) (rem : Bytes) : Prop :=
  fr.max = max ∧ (∀ c ∈ src.chunks, c ≠ []) ∧ ∃ cur, fr.Holds cur ∧ rem = cur ++ (src.available ++ src.chunks.flatten)

/-- What a call yields, and what it leaves. -/
inductive Yields (max : Nat) (rem : Bytes) : Option Frame → Bytes → Prop
  | dropped : Yields max rem none rem
  | line {line rem' : Bytes} (h : lines rem = line :: lines rem') : Yields max rem (some (frameOf max line)) rem'
  | eof (h : rem = []) : Yields max rem (some .eof) rem

theorem Holds.round (h : fr.Holds cur) {available : Bytes} (hne : available ≠ []) :
    (∃ part rest, available = part ++ newline :: rest ∧ newline ∉ cur ++ part ∧
        fr.round available = (some (frameOf fr.max (cur ++ part), rest), ⟨fr.max, [], false⟩)) ∨
      fr.round available = (none, fr.take available) ∧ (fr.take available).Holds (cur ++ available) := by
  unfold FrameReader.round
  rw [if_neg hne]
  cases hidx : available.idxOf? newline with
  | none =>
    have hnl : newline ∉ available := List.idxOf?_eq_none_iff.mp hidx
    exact .inr ⟨rfl, h.take hnl⟩
  | some i =>
    obtain ⟨hi, hat, hbefore⟩ := List.idxOf?_eq_some_iff.mp hidx
    have hnl : newline ∉ available.take i := by
      intro hmem
      obtain ⟨j, hj, hjv⟩ := List.mem_take_iff_getElem.mp hmem
      exact hbefore j (by omega) hjv
    have hsplit : available = available.take i ++ newline :: available.drop (i + 1) := by
      rw [← hat, ← List.drop_eq_getElem_cons hi, List.take_append_drop]
    have htaken := h.take hnl
    refine .inl ⟨_, _, hsplit, htaken.no_newline, ?_⟩
    simp only [htaken.finishLine, max_take]

theorem yields_line (max : Nat) {cur rest : Bytes} (hnl : newline ∉ cur ++ part)
    (hchunks : ∀ c ∈ chunks, c ≠ []) :
    Yields max (cur ++ (part ++ newline :: rest ++ chunks.flatten)) (some (frameOf max (cur ++ part)))
        (rest ++ chunks.flatten) ∧
      Ready max ⟨max, [], false⟩ ⟨rest, chunks⟩ (rest ++ chunks.flatten) := by
  refine ⟨.line ?_, rfl, hchunks, [], holds_new max, rfl⟩
  have hassoc : cur ++ (part ++ newline :: rest ++ chunks.flatten) =
      (cur ++ part) ++ newline :: (rest ++ chunks.flatten) := by simp
  rw [hassoc, lines_terminated hnl]

theorem Holds.await (h : fr.Holds cur) (hchunks : ∀ c ∈ chunks, c ≠ []) (patience : Nat) :
    ∃ rem', Yields fr.max (cur ++ chunks.flatten) (fr.await chunks patience).1 rem' ∧
      Ready fr.max (fr.await chunks patience).2.1 (fr.await chunks patience).2.2 rem' := by
  induction chunks generalizing fr cur patience with
  | nil =>
    cases patience with
    | zero => exact ⟨_, .dropped, rfl, hchunks, cur, h, rfl⟩
    | succ patience =>
      rw [FrameReader.await, List.flatten_nil, List.append_nil]
      by_cases hcur : cur = []
      · subst hcur
        rw [h.finishAtEof_nil]
        exact ⟨[], .eof rfl, rfl, hchunks, [], h, rfl⟩
      · rw [h.finishAtEof hcur, h.finishLine]
        refine ⟨[], .line ?_, rfl, hchunks, [], holds_new fr.max, rfl⟩
        rw [lines_unterminated h.no_newline hcur, lines_nil]
  | cons chunk chunks ih =>
    obtain ⟨hchunk, hrest⟩ := List.forall_mem_cons.mp hchunks
    cases patience with
    | zero => exact ⟨_, .dropped, rfl, hchunks, cur, h, rfl⟩
    | succ patience =>
      rw [FrameReader.await, List.flatten_cons]
      obtain ⟨part, rest, rfl, hnl, hround⟩ | ⟨hround, htaken⟩ := h.round hchunk
      · rw [hround]
        exact ⟨_, yields_line fr.max hnl hrest⟩
      · rw [hround]
        have hlater := ih htaken hrest patience
        rwa [max_take, List.append_assoc] at hlater

/-- One call, from wherever the calls before it have left the reader and the stream. -/
theorem Ready.nextFrame (h : Ready max fr src rem) (patience : Nat) :
    ∃ rem', Yields max rem (fr.nextFrame src patience).1 rem' ∧
      Ready max (fr.nextFrame src patience).2.1 (fr.nextFrame src patience).2.2 rem' := by
  obtain ⟨rfl, hchunks, cur, hcur, rfl⟩ := h
  unfold FrameReader.nextFrame
  split
  · next hnone =>
    rw [hnone]
    exact hcur.await hchunks patience
  · next hsome =>
    obtain ⟨part, rest, hsplit, hnl, hround⟩ | ⟨hround, htaken⟩ := hcur.round hsome
    · rw [hround, hsplit]
      exact ⟨_, yields_line fr.max hnl hchunks⟩
    · rw [hround]
      have hlater := htaken.await hchunks patience
      rwa [max_take, List.append_assoc] at hlater

/-! ## a call that is not dropped -/

theorem await_isSome (fr : FrameReader) (h : chunks.length < patience) :
    (fr.await chunks patience).1.isSome = true := by
  induction chunks generalizing fr patience with
  | nil =>
    cases patience with
    | zero => contradiction
    | succ patience => rfl
  | cons chunk chunks ih =>
    cases patience with
    | zero => contradiction
    | succ patience =>
      rw [FrameReader.await]
      split
      · rfl
      · exact ih _ (Nat.lt_of_succ_lt_succ h)

theorem nextFrame_isSome (fr : FrameReader) (h : src.chunks.length < patience) :
    (fr.nextFrame src patience).1.isSome = true := by
  unfold FrameReader.nextFrame
  split
  · exact await_isSome fr h
  · split
    · rfl
    · exact await_isSome _ h

/-! ## calls one after the other -/

theorem run_cons (fr : FrameReader) (src : Source) (patience : Nat) (schedule : List Nat) :
    fr.run src (patience :: schedule) =
      let next := fr.nextFrame src patience
      let later := next.2.1.run next.2.2 schedule
      (next.1.toList ++ later.1, later.2) := rfl

/-- The frames of the lines up to where the calls have come, and then the end of the stream,
as often as it was asked for. -/
theorem Ready.run (h : Ready max fr src rem) (schedule : List Nat) :
    ∃ served again rem', (fr.run src schedule).1 = served ++ List.replicate again .eof ∧
      (lines rem).map (frameOf max) = served ++ (lines rem').map (frameOf max) ∧
      (again ≠ 0 ∨ rem = [] → rem' = []) ∧ Ready max (fr.run src schedule).2.1 (fr.run src schedule).2.2 rem' := by
  induction schedule generalizing fr src rem with
  | nil => exact ⟨[], 0, rem, rfl, rfl, fun hend => hend.resolve_left (absurd rfl), h⟩
  | cons patience schedule ih =>
    obtain ⟨rem₁, hyields, hready⟩ := h.nextFrame patience
    obtain ⟨served, again, rem', hrun, hlines, hend, hready'⟩ := ih hready
    rw [run_cons]
    simp only [hrun]
    generalize (fr.nextFrame src patience).1 = out at hyields
    cases hyields with
    | dropped => exact ⟨served, again, rem', rfl, hlines, hend, hready'⟩
    | @line line _ hline =>
      refine ⟨frameOf max line :: served, again, rem', rfl, ?_, fun hor => hend (hor.imp_right ?_), hready'⟩
      · rw [hline, List.map_cons, hlines, List.cons_append]
      · rintro rfl
        rw [lines_nil] at hline
        contradiction
    | eof hnil =>
      -- nothing is left to be served
      obtain rfl := hend (.inr hnil)
      subst hnil
      obtain ⟨rfl, -⟩ := List.append_eq_nil_iff.mp hlines.symm
      exact ⟨[], again + 1, [], rfl, rfl, fun _ => rfl, hready'⟩

end FrameReader

/-! ## every stream, every schedule -/

theorem takeWhile_frames {served : List Frame} (h : ∀ f ∈ served, f ≠ .eof) (again : Nat) :
    (served ++ List.replicate again Frame.eof).takeWhile (· ≠ Frame.eof) = served := by
  rw [List.takeWhile_append_of_pos (by simpa using h), List.takeWhile_replicate]
  simp

/-- For every stream, cut into chunks anyhow, and every schedule of calls, each dropped at some
wait or at none: the frames before the end of the stream are the lines', in order; they are all
of them when the end is reported; a call that is not dropped yields a frame; and between the
calls the buffer is within the limit. -/
theorem frames_by_line (max : Nat) {chunks : List Bytes} (hchunks : ∀ c ∈ chunks, c ≠ []) (schedule : List Nat) :
    let (frames, fr, src) := (FrameReader.new max).run ⟨[], chunks⟩ schedule
    let all := (lines chunks.flatten).map (frameOf max)
    frames.takeWhile (· ≠ .eof) <+: all ∧
      (.eof ∈ frames → frames.takeWhile (· ≠ .eof) = all) ∧
      (∀ patience, src.chunks.length < patience → (fr.nextFrame src patience).1.isSome = true) ∧
      fr.buf.length ≤ max := by
  have hready : FrameReader.Ready max (.new max) ⟨[], chunks⟩ chunks.flatten :=
    ⟨rfl, hchunks, [], FrameReader.holds_new max, rfl⟩
  obtain ⟨served, again, rem, hrun, hlines, hend, hmax, -, cur, hcur, -⟩ := hready.run schedule
  have hserved : ∀ f ∈ served, f ≠ .eof := by
    intro f hf
    have hmem : f ∈ (lines chunks.flatten).map (frameOf max) := hlines ▸ List.mem_append_left _ hf
    obtain ⟨line, -, rfl⟩ := List.mem_map.mp hmem
    exact frameOf_ne_eof max line
  have hbuf := hcur.buf_le
  rw [hmax] at hbuf
  simp only [hrun, takeWhile_frames hserved, hlines]
  refine ⟨List.prefix_append _ _, fun hmem => ?_, fun patience => FrameReader.nextFrame_isSome _, hbuf⟩
  have hagain : again ≠ 0 := by
    rintro rfl
    rw [List.replicate_zero, List.append_nil] at hmem
    exact hserved .eof hmem rfl
  rw [hend (.inl hagain), lines_nil, List.map_nil, List.append_nil]

/-- A line of five bytes for a limit of four, in three pieces, the end of it at the start of a
piece, and a last line without an end; two calls are dropped on the way. -/
theorem frames_by_line_long :
    ((FrameReader.new 4).run ⟨[], [[104, 105, 10, 97], [98, 99, 100, 101], [10], [102]]⟩ [1, 1, 0, 9, 9, 9]).1.takeWhile
      (· ≠ .eof) = [.line ['h', 'i'], .tooLong, .line ['f']] := by
  have hall := @frames_by_line 4 [[104, 105, 10, 97], [98, 99, 100, 101], [10], [102]] (by decide) [1, 1, 0, 9, 9, 9]
  refine (hall.2.1 (by decide +kernel)).trans ?_
  decide +kernel

/-- A byte that is not UTF-8 is not handed on. -/
theorem invalid_byte_replaced :
    ((FrameReader.new 4).run ⟨[], [[0xFF, 10]]⟩ [1]).1 = [.line [Char.ofNat 0xFFFD]] ∧
      toUtf8 [Char.ofNat 0xFFFD] ≠ [0xFF] := by
  decide +kernel

end SmithsNet.Mcp
