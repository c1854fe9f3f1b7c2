import SmithsNet.Media.JitterInvariant

/-!
# SmithsNet.Media.JitterSlices

The two ways to take a frame out of the jitter buffer: `tick` returns it,
`tick_into` writes it into a slice.  Both advance the same play head and then
materialise the outcome on their own.

* `tickInto_eq` — one call of each: the same buffer afterwards, the same kind of
  outcome, and the same samples, as far as the slice has room for them;
* `observe_eq` — a run that mixes the two shows what the run of `tick`s shows.
-/

namespace SmithsNet.Media

open Lib

namespace JitterBuffer

/-- What kind of frame the next advance of the play head comes to. -/
def outcome (jb : JitterBuffer) : Playout :=
  match jb.advance.1 with
  | none => .priming
  | some (.frame _) => .played
  | some .conceal => .concealed

/-- What a caller of the buffer sees. -/
inductive Seen
  | offered (result : Insert)
  | frame (kind : Playout) (pcm : Option (List Int16))
  | slice (kind : Playout) (samples : List Int16)

/-- What a call shows. -/
def seen (fade : Fade) (jb : JitterBuffer) : Call → Seen
  | .insert seq pcm => .offered (jb.insert seq pcm).1
  | .tick => .frame jb.outcome (jb.tick fade).1
  | .tickInto n => .slice (jb.tickInto fade n).1.1 (jb.tickInto fade n).1.2

/-- What a list of calls shows. -/
def observe (fade : Fade) : JitterBuffer → List Call → List Seen
  | _, [] => []
  | jb, c :: cs => jb.seen fade c :: observe fade (jb.call fade c) cs

/-- The call with a `tick` in place of a `tick_into`. -/
def Call.whole : Call → Call
  | .tickInto _ => .tick
  | c => c

/-- What a call shows, given what it shows with a `tick` in place of a `tick_into`:
the samples that fit the slice, and silence behind them. -/
def Call.cut : Call → Seen → Seen
  | .tickInto n, .frame kind pcm => .slice kind (copyFrame (pcm.getD []) n)
  | _, s => s

theorem copyFrame_nil (n : Nat) : copyFrame [] n = List.replicate n 0 := by
  simp [copyFrame]

theorem copyFrame_replicate (m n : Nat) : copyFrame (List.replicate m 0) n = List.replicate n 0 := by
  rw [copyFrame, List.take_replicate, List.length_replicate, List.replicate_append_replicate]
  congr 1
  omega

theorem copyFrame_length (pcm : List Int16) : copyFrame pcm pcm.length = pcm := by
  simp [copyFrame]

section

variable (fade : Fade) (jb : JitterBuffer)

theorem concealInto_eq (n : Nat) :
    jb.concealInto fade n = (copyFrame (jb.concealFrame fade).1 n, (jb.concealFrame fade).2) := by
  unfold concealInto concealFrame
  obtain ⟨gain, jb'⟩ := jb.concealGain fade
  cases gain with
  | none => simp only [copyFrame_replicate]
  | some scale => rfl

/-- **One call.**  `tick_into` leaves the buffer that `tick` leaves, reports what
the play head came to, and writes the samples `tick` returns. -/
theorem tickInto_eq (n : Nat) : jb.tickInto fade n =
      ((jb.outcome, copyFrame ((jb.tick fade).1.getD []) n), (jb.tick fade).2) := by
  unfold tickInto tick outcome
  obtain ⟨next, jb'⟩ := jb.advance
  cases next with
  | none => simp only [Option.getD_none, copyFrame_nil]
  | some next =>
    cases next with
    | frame pcm => rfl
    | conceal => simp only [concealInto_eq, Option.getD_some]

theorem tick_eq_none_iff : (jb.tick fade).1 = none ↔ jb.outcome = .priming := by
  unfold tick outcome
  obtain ⟨next, jb'⟩ := jb.advance
  cases next with
  | none => simp
  | some next => cases next <;> simp

theorem call_whole (c : Call) : jb.call fade c = jb.call fade c.whole := by
  cases c with
  | insert seq pcm => rfl
  | tick => rfl
  | tickInto n =>
    show (jb.tickInto fade n).2 = (jb.tick fade).2
    rw [tickInto_eq]

theorem seen_whole (c : Call) : jb.seen fade c = c.cut (jb.seen fade c.whole) := by
  cases c with
  | insert seq pcm => rfl
  | tick => rfl
  | tickInto n =>
    show Seen.slice (jb.tickInto fade n).1.1 (jb.tickInto fade n).1.2 = _
    rw [tickInto_eq]
    rfl

/-- **Every run.**  In whatever order the two are called, the buffer and what the
caller sees are those of the run that calls `tick` throughout, each frame cut
to the slice or followed by silence in it. -/
theorem observe_eq (calls : List Call) : jb.run fade calls = jb.run fade (calls.map Call.whole) ∧
      jb.observe fade calls =
        List.zipWith Call.cut calls (jb.observe fade (calls.map Call.whole)) := by
  induction calls generalizing jb with
  | nil => exact ⟨rfl, rfl⟩
  | cons c cs ih =>
    obtain ⟨hrun, hseen⟩ := ih (jb.call fade c)
    constructor
    · show (jb.call fade c).run fade cs = (jb.call fade c.whole).run fade (cs.map Call.whole)
      rw [hrun, call_whole]
    · rw [List.map_cons, observe, observe, List.zipWith_cons_cons, hseen, ← seen_whole, ← call_whole]

end

/-- **`tick` and `tick_into` agree**: on one call from every buffer with every
slice, and over every run that mixes them. -/
theorem ticks_agree (fade : Fade) (jb : JitterBuffer) :
    (∀ n, (jb.tickInto fade n).2 = (jb.tick fade).2 ∧
      (jb.tickInto fade n).1.1 = jb.outcome ∧
      ((jb.tickInto fade n).1.1 = .priming ↔ (jb.tick fade).1 = none) ∧
      (jb.tickInto fade n).1.2 = copyFrame ((jb.tick fade).1.getD []) n) ∧
    (∀ pcm, (jb.tick fade).1 = some pcm → (jb.tickInto fade pcm.length).1.2 = pcm) ∧
    ∀ calls, jb.run fade calls = jb.run fade (calls.map Call.whole) ∧
      jb.observe fade calls =
        List.zipWith Call.cut calls (jb.observe fade (calls.map Call.whole)) := by
  refine ⟨fun n => ?_, fun pcm hpcm => ?_, fun calls => observe_eq fade jb calls⟩
  · rw [tickInto_eq, tick_eq_none_iff]
    exact ⟨rfl, rfl, Iff.rfl, rfl⟩
  · rw [tickInto_eq, hpcm]
    exact copyFrame_length pcm

/-- A frame of two samples, ready to be played. -/
def twoSamples : JitterBuffer :=
  (withConfig 2 { initialTarget := 1 }).run (fun _ => none) [.insert 7 [10, 20]]

/-- A slice of another length does not take exactly the samples that `tick`
returns: here it has room for one of two. -/
theorem slice_cuts_frame : ¬ ∀ (fade : Fade) (jb : JitterBuffer) (n : Nat) (pcm : List Int16),
      (jb.tick fade).1 = some pcm → (jb.tickInto fade n).1.2 = pcm := by
  intro hall
  have h := hall (fun _ => none) twoSamples 1 [10, 20] (by decide +kernel)
  exact absurd h (by decide +kernel)

end JitterBuffer

end SmithsNet.Media
