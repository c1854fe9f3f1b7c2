import SmithsNet.Media.JitterRestart

/-!
# SmithsNet.Media.JitterOrder

In what order the jitter buffer releases what it was offered.  A run is told as
a list of events that carry the packets' unwrapped numbers, and an epoch is a
stretch of it in which no packet re-anchors the buffer.

The first part says what a tick does to the play head and to the frames in
front of it, whatever the tunables are (`advance_moves`).  The second keeps, of
a run told so far, where every stored frame comes from and which numbers the
play head has passed (`Told`).
-/

namespace SmithsNet.Media

open Lib

namespace JitterBuffer

variable {jb jb' : JitterBuffer} {e e' : Int}

/-! ## the play head -/

/-- The anchor stands at the play head `e`, and the frames in front of it stand
where their sequence numbers belong. -/
structure Aligned (jb : JitterBuffer) (e : Int) : Prop where
  anchor : jb.anchorIndex = e
  ahead : ∀ r ∈ jb.frames.rows, e ≤ r.1
  sequence : ∀ r ∈ jb.frames.rows,
    (r.2.seq.toNat : Int) ≡ jb.anchorSeq.toNat + (r.1 - e) [ZMOD 2 ^ 16]

/-- The play head has moved from `e` to `e'`, over frames that are gone. -/
structure Moves (jb jb' : JitterBuffer) (e e' : Int) : Prop where
  expected : jb'.expected = some e'
  forward : e ≤ e'
  anchor : jb'.anchorIndex = e'
  anchorSeq : (jb'.anchorSeq.toNat : Int) ≡ jb.anchorSeq.toNat + (e' - e) [ZMOD 2 ^ 16]
  rows : ∀ r ∈ jb'.frames.rows, r ∈ jb.frames.rows ∧ e' ≤ r.1

/-- The frames that the move took out are behind the play head. -/
def LeftBehind (jb jb' : JitterBuffer) (e' : Int) : Prop :=
  ∀ r ∈ jb.frames.rows, r ∈ jb'.frames.rows ∨ r.1 < e'

theorem Moves.aligned (h : Moves jb jb' e e') (haligned : Aligned jb e) : Aligned jb' e' where
  anchor := h.anchor
  ahead := fun r hr => (h.rows r hr).2
  sequence := fun r hr => by
    have hseq := haligned.sequence r (h.rows r hr).1
    have hanchor := h.anchorSeq
    unfold Int.ModEq at hseq hanchor ⊢
    omega

variable {e'' number : Int} {r : Int × Stored} {jb'' : JitterBuffer} {pcm : List Int16}

theorem Moves.trans (h : Moves jb jb' e e') (h' : Moves jb' jb'' e' e'') : Moves jb jb'' e e'' where
  expected := h'.expected
  forward := h.forward.trans h'.forward
  anchor := h'.anchor
  anchorSeq := by
    have h₁ := h.anchorSeq
    have h₂ := h'.anchorSeq
    unfold Int.ModEq at h₁ h₂ ⊢
    omega
  rows := fun r hr => ⟨(h.rows r (h'.rows r hr).1).1, (h'.rows r hr).2⟩

/-- What leaves the play head and the frames alone. -/
structure SamePlace (jb jb' : JitterBuffer) : Prop where
  expected : jb'.expected = jb.expected
  anchor : jb'.anchorIndex = jb.anchorIndex
  anchorSeq : jb'.anchorSeq = jb.anchorSeq
  frames : jb'.frames = jb.frames

theorem Moves.same (h : Moves jb jb' e e') (hsame : SamePlace jb' jb'') : Moves jb jb'' e e' where
  expected := hsame.expected.trans h.expected
  forward := h.forward
  anchor := hsame.anchor.trans h.anchor
  anchorSeq := by
    rw [hsame.anchorSeq]
    exact h.anchorSeq
  rows := by
    rw [hsame.frames]
    exact h.rows

theorem Moves.refl (h : Aligned jb e) (he : jb.expected = some e) : Moves jb jb e e where
  expected := he
  forward := le_rfl
  anchor := h.anchor
  anchorSeq := by simp
  rows := fun r hr => ⟨hr, h.ahead r hr⟩

theorem samePlace_noteClean (jb : JitterBuffer) : SamePlace jb jb.noteClean := by
  unfold noteClean
  simp only
  split <;> exact ⟨rfl, rfl, rfl, rfl⟩

theorem samePlace_starve (jb : JitterBuffer) : SamePlace jb jb.starve := by
  unfold starve
  simp only
  split <;> exact ⟨rfl, rfl, rfl, rfl⟩

theorem moves_deliver (h : Aligned jb e) (hmem : r ∈ jb.frames.rows)
    (hleast : ∀ q ∈ jb.frames.rows, r.1 ≤ q.1) :
    Moves jb (jb.deliver r.1 r.2) e (r.1 + 1) ∧ LeftBehind jb (jb.deliver r.1 r.2) (r.1 + 1) := by
  have hfront := h.ahead r hmem
  have hseq := h.sequence r hmem
  have hsucc := toNat_succ_modEq r.2.seq
  refine ⟨⟨rfl, by omega, rfl, ?_, fun q hq => ?_⟩, fun q hq => ?_⟩
  · show ((r.2.seq + 1).toNat : Int) ≡ jb.anchorSeq.toNat + (r.1 + 1 - e) [ZMOD 2 ^ 16]
    unfold Int.ModEq at hseq hsucc ⊢
    omega
  · obtain ⟨hq, hne⟩ := Sorted.mem_keep.mp hq
    have hne : q.1 ≠ r.1 := of_decide_eq_true hne
    have hle := hleast q hq
    exact ⟨hq, by omega⟩
  · by_cases hkey : q.1 = r.1
    · exact .inr (by omega)
    · exact .inl (Sorted.mem_keep.mpr ⟨hq, by simp [hkey]⟩)

theorem moves_skip (h : Aligned jb e) (hget : jb.frames.get e = none) :
    Moves jb (jb.skip e) e (e + 1) := by
  have hsucc := toNat_succ_modEq jb.anchorSeq
  refine ⟨rfl, by omega, rfl, ?_, fun r hr => ⟨hr, ?_⟩⟩
  · show ((jb.anchorSeq + 1).toNat : Int) ≡ jb.anchorSeq.toNat + (e + 1 - e) [ZMOD 2 ^ 16]
    unfold Int.ModEq at hsucc ⊢
    omega
  · have hne := Sorted.get_eq_none hget r hr
    have hle := h.ahead r hr
    omega

/-- Dropping the oldest frames leaves the play head, and what it drops lies in
front of what it keeps. -/
theorem dropOldest_front (rounds : Nat) (jb : JitterBuffer) :
    (dropOldest rounds jb).expected = jb.expected ∧
      (dropOldest rounds jb).anchorIndex = jb.anchorIndex ∧
      (dropOldest rounds jb).anchorSeq = jb.anchorSeq ∧
      (∀ r ∈ (dropOldest rounds jb).frames.rows, r ∈ jb.frames.rows) ∧
      ∀ r ∈ jb.frames.rows, r ∈ (dropOldest rounds jb).frames.rows ∨
        ∀ q ∈ (dropOldest rounds jb).frames.rows, r.1 < q.1 := by
  induction rounds generalizing jb with
  | zero => exact ⟨rfl, rfl, rfl, fun r hr => hr, fun r hr => .inl hr⟩
  | succ rounds ih =>
    unfold dropOldest
    split
    · split
      · obtain ⟨h₁, h₂, h₃, hkept, hfront⟩ := ih jb.popOldest
        refine ⟨h₁, h₂, h₃, fun r hr => Sorted.mem_of_mem_popFirst (hkept r hr), fun r hr => ?_⟩
        obtain hr | hlt := Sorted.mem_popFirst_or_lt hr
        · exact hfront r hr
        · exact .inr fun q hq => hlt q (hkept q hq)
      · exact ⟨rfl, rfl, rfl, fun r hr => hr, fun r hr => .inl hr⟩
    · exact ⟨rfl, rfl, rfl, fun r hr => hr, fun r hr => .inl hr⟩

/-- Catching up moves the play head onto the oldest frame it keeps; it keeps
none only where the target is zero. -/
theorem moves_catchUp (h : Aligned jb e) (he : jb.expected = some e) :
    Moves jb (jb.catchUp e).2 e (jb.catchUp e).1 ∧
      (LeftBehind jb (jb.catchUp e).2 (jb.catchUp e).1 ∨
        (jb.catchUp e).2.frames.rows = [] ∧ jb.target = 0) := by
  unfold catchUp
  split
  · exact ⟨.refl h he, .inl fun r hr => .inl hr⟩
  · obtain ⟨hexpected, hindex, hseq, hkept, hfront⟩ := dropOldest_front jb.frames.len jb
    obtain ⟨-, -, -, -, -, hempty⟩ := dropOldest_cases jb.frames.len jb le_rfl
    generalize dropOldest jb.frames.len jb = jb₁ at hexpected hindex hseq hkept hfront hempty
    simp only
    split
    · next idx stored hfirst =>
      obtain ⟨hmem, hleast⟩ := Sorted.first_le hfirst
      have hold := hkept _ hmem
      refine ⟨⟨rfl, h.ahead _ hold, rfl, h.sequence _ hold, fun r hr => ⟨hkept r hr, hleast r hr⟩⟩,
        .inl fun r hr => ?_⟩
      exact (hfront r hr).imp id fun hlt => hlt _ hmem
    · next hfirst =>
      have hnil : jb₁.frames.rows = [] := List.head?_eq_none_iff.mp hfirst
      refine ⟨⟨hexpected.trans he, le_rfl, hindex.trans h.anchor, ?_, ?_⟩, ?_⟩
      · show (jb₁.anchorSeq.toNat : Int) ≡ jb.anchorSeq.toNat + (e - e) [ZMOD 2 ^ 16]
        rw [hseq, sub_self, add_zero]
      · simp only [hnil]
        intro r hr
        contradiction
      · obtain hnone | hzero := hempty hnil
        · refine .inl fun r hr => ?_
          rw [hnone] at hr
          contradiction
        · exact .inr ⟨hnil, hzero⟩

theorem starve_primed (htarget : jb.target = 0) : jb.starve.primed = false := by
  unfold starve
  simp only [htarget]
  rfl

theorem LeftBehind.trans (h : LeftBehind jb jb' e')
    (h' : LeftBehind jb' jb'' e'') (hle : e' ≤ e'') : LeftBehind jb jb'' e'' := by
  intro r hr
  obtain hr | hlt := h r hr
  · exact h' r hr
  · exact .inr (hlt.trans_le hle)

/-- What one frame interval does: the play head moves, the frames it took out are
behind it unless the buffer primes anew, and a frame it released was the one
just in front of it. -/
structure Interval (jb jb' : JitterBuffer) (next : Option Next) (e e' : Int) : Prop where
  moves : Moves jb jb' e e'
  left : LeftBehind jb jb' e' ∨ jb'.frames.rows = [] ∧ jb'.primed = false
  frame : ∀ pcm, next = some (.frame pcm) → ∃ r ∈ jb.frames.rows, r.2.pcm = pcm ∧ r.1 + 1 = e'

theorem Interval.release {jb₁ : JitterBuffer} {e₁ : Int}
    (hmoves : Moves jb jb₁ e e₁) (haligned : Aligned jb₁ e₁)
    (hleft : LeftBehind jb jb₁ e₁ ∨ jb₁.frames.rows = [] ∧ jb.target = 0)
    (hmem : r ∈ jb₁.frames.rows) (hleast : ∀ q ∈ jb₁.frames.rows, r.1 ≤ q.1)
    (hsame : SamePlace (jb₁.deliver r.1 r.2) jb') :
    Interval jb jb' (some (.frame r.2.pcm)) e (r.1 + 1) := by
  obtain ⟨hdeliver, hbehind⟩ := moves_deliver haligned hmem hleast
  have hfront : e₁ ≤ r.1 := haligned.ahead r hmem
  refine ⟨(hmoves.trans hdeliver).same hsame, ?_, fun pcm hpcm => ?_⟩
  · obtain hleft | ⟨hnil, -⟩ := hleft
    · left
      intro q hq
      rw [hsame.frames]
      exact (hleft.trans hbehind (by omega)) q hq
    · rw [hnil] at hmem
      contradiction
  · have hpcm : r.2.pcm = pcm := by simpa using hpcm
    exact ⟨r, (hmoves.rows r hmem).1, hpcm, rfl⟩

theorem interval_play (h : Aligned jb e) (he : jb.expected = some e) :
    ∃ e', Interval jb (jb.play e).2 (some (jb.play e).1) e e' := by
  obtain ⟨hmoves, hleft⟩ := moves_catchUp h he
  obtain ⟨hcaught, -⟩ := catchUp_cases jb e
  unfold play
  generalize jb.catchUp e = caught at hmoves hleft hcaught
  obtain ⟨e₁, jb₁⟩ := caught
  simp only at hmoves hleft hcaught ⊢
  have haligned := hmoves.aligned h
  split
  · next i frame hget =>
    obtain ⟨hmem, rfl⟩ := Sorted.get_eq_some hget
    exact ⟨i + 1, .release hmoves haligned hleft hmem haligned.ahead (samePlace_noteClean _)⟩
  · next hget =>
    split
    · next lowest frame hfirst =>
      obtain ⟨hmem, hleast⟩ := Sorted.first_le hfirst
      split
      · exact ⟨lowest + 1, .release hmoves haligned hleft hmem hleast ⟨rfl, rfl, rfl, rfl⟩⟩
      · have hplace : SamePlace (jb₁.skip e₁) ({ jb₁ with cleanRun := 0 }.skip e₁) := ⟨rfl, rfl, rfl, rfl⟩
        have hskip := (moves_skip haligned hget).same hplace
        refine ⟨e₁ + 1, hmoves.trans hskip, ?_, fun pcm hpcm => by simp at hpcm⟩
        obtain hleft | ⟨hnil, -⟩ := hleft
        · exact .inl (hleft.trans (fun q hq => .inl hq) (by omega))
        · rw [hnil] at hmem
          contradiction
    · have hsame := samePlace_starve jb₁
      refine ⟨e₁, hmoves.same hsame, ?_, fun pcm hpcm => by simp at hpcm⟩
      obtain hleft | ⟨hnil, hzero⟩ := hleft
      · left
        intro q hq
        rw [hsame.frames]
        exact hleft q hq
      · exact .inr ⟨by rw [hsame.frames, hnil], starve_primed (hcaught.target.trans hzero)⟩

theorem advance_eq (he : jb.expected = some e) : jb.advance = (none, jb) ∧ ¬ jb.Ready ∨
    jb.advance = (some ({ jb with primed := true }.play e).1, ({ jb with primed := true }.play e).2) ∧
      jb.Ready := by
  unfold advance Ready
  split
  · next hnone =>
    rw [he] at hnone
    contradiction
  · next e₀ he₀ =>
    obtain rfl : e₀ = e := Option.mem_unique he₀ he
    split
    · next hwait => exact .inl ⟨rfl, fun hready => hready hwait⟩
    · next hready => exact .inr ⟨rfl, hready⟩

/-- **One frame interval**, whatever the tunables are. -/
theorem interval_advance (h : Aligned jb e) (he : jb.expected = some e) :
    ∃ e', Interval jb jb.advance.2 jb.advance.1 e e' := by
  obtain ⟨heq, -⟩ | ⟨heq, -⟩ := advance_eq he
  · rw [heq]
    exact ⟨e, .refl h he, .inl fun r hr => .inl hr, fun pcm hpcm => by simp at hpcm⟩
  · rw [heq]
    have hprimed : Aligned { jb with primed := true } e := ⟨h.anchor, h.ahead, h.sequence⟩
    obtain ⟨e', hmoves, hleft, hframe⟩ := interval_play hprimed he
    exact ⟨e', ⟨hmoves.expected, hmoves.forward, hmoves.anchor, hmoves.anchorSeq, hmoves.rows⟩,
      hleft, hframe⟩

theorem advance_primed (he : jb.expected = some e) (hrows : jb.frames.rows = [])
    (hprimed : jb.primed = false) : jb.advance.2.primed = false := by
  obtain ⟨heq, -⟩ | ⟨heq, hready⟩ := advance_eq he
  · rw [heq]
    exact hprimed
  · rw [heq]
    have hlen : jb.frames.len = 0 := by rw [Sorted.len, hrows, List.length_nil]
    have hzero : jb.target = 0 := by
      by_contra hpos
      exact hready ⟨hprimed, by omega⟩
    have hcaught : JitterBuffer.catchUp { jb with primed := true } e = (e, { jb with primed := true }) := by
      rw [catchUp, if_pos (by rw [hlen]; exact Nat.zero_le _)]
    have hget : jb.frames.get e = none := by simp [Sorted.get, hrows]
    have hfirst : jb.frames.first = none := by simp [Sorted.first, hrows]
    rw [play, hcaught]
    simp only [hget, hfirst]
    exact starve_primed hzero

/-! ## a run, told as events -/

instance (jb : JitterBuffer) : Decidable jb.Blank := inferInstanceAs (Decidable (_ ∨ _ ∧ _))

/-- The unwrapped number of a packet that is offered: 0 where it anchors the
sequence space, else its play index. -/
def unwrap (jb : JitterBuffer) (seq : UInt16) : Int := if jb.Blank then 0 else jb.indexOf seq

/-- What a call does, under the unwrapped number of the packet it is about. -/
inductive Event
  | offered (anchors : Bool) (number : Int) (seq : UInt16) (pcm : List Int16) (result : Insert)
  /-- A real frame, not a concealment. -/
  | released (number : Int) (pcm : List Int16)
  | quiet
  deriving DecidableEq

/-- A tick of either kind: a released frame was the one just in front of the play
head that the tick leaves. -/
def tickEvent (jb : JitterBuffer) : Event :=
  match jb.advance with
  | (some (.frame pcm), jb) => .released (jb.expected.getD 0 - 1) pcm
  | _ => .quiet

def event (jb : JitterBuffer) : Call → Event
  | .insert seq pcm => .offered (decide jb.Blank) (jb.unwrap seq) seq pcm (jb.insert seq pcm).1
  | .tick => jb.tickEvent
  | .tickInto _ => jb.tickEvent

/-- The events of a list of calls. -/
def trace (fade : Fade) : JitterBuffer → List Call → List Event
  | _, [] => []
  | jb, c :: cs => jb.event c :: trace fade (jb.call fade c) cs

theorem trace_append_singleton (fade : Fade) (jb : JitterBuffer) (cs : List Call) (c : Call) :
    jb.trace fade (cs ++ [c]) = jb.trace fade cs ++ [(jb.run fade cs).event c] := by
  induction cs generalizing jb with
  | nil => rfl
  | cons d ds ih => simp only [List.cons_append, trace, ih, run, List.foldl_cons]

/-- The event re-anchors the buffer. -/
def Event.anchors : Event → Bool
  | .offered anchors .. => anchors
  | _ => false

variable {evs : List Event} {ev : Event} {i j k : Nat}

/-- No re-anchoring behind position `i`, up to position `j`. -/
def SameEpoch (evs : List Event) (i j : Nat) : Prop :=
  ∀ m, i < m → m ≤ j → ∀ x, evs[m]? = some x → x.anchors = false

/-- No re-anchoring behind position `i`. -/
def Current (evs : List Event) (i : Nat) : Prop :=
  ∀ m, i < m → ∀ x, evs[m]? = some x → x.anchors = false

/-- The packet offered at `k` is the frame released at `i`. -/
structure Releases (evs : List Event) (k i : Nat) (number : Int) (pcm : List Int16) : Prop where
  offered : ∃ anchors seq, evs[k]? = some (.offered anchors number seq pcm .buffered)
  released : evs[i]? = some (.released number pcm)
  after : k < i
  epoch : SameEpoch evs k i

/-- Offers with a number before position `k`, in the epoch that lasts until `j`,
were all refused as too far ahead. -/
def FirstOffer (evs : List Event) (k j : Nat) (number : Int) : Prop :=
  ∀ m < k, SameEpoch evs m j → ∀ anchors seq pcm result,
    evs[m]? = some (.offered anchors number seq pcm result) → result = .overflow

variable {x : Event}

theorem getElem?_snoc (h : (evs ++ [ev])[k]? = some x) :
    evs[k]? = some x ∧ k < evs.length ∨ k = evs.length ∧ x = ev := by
  obtain hlt | hge := Nat.lt_or_ge k evs.length
  · rw [List.getElem?_append_left hlt] at h
    exact .inl ⟨h, hlt⟩
  · rw [List.getElem?_append_right hge] at h
    obtain hzero | hpos := Nat.eq_zero_or_pos (k - evs.length)
    · rw [hzero, List.getElem?_cons_zero, Option.some.injEq] at h
      exact .inr ⟨by omega, h.symm⟩
    · rw [List.getElem?_eq_none (by simp; omega)] at h
      contradiction

theorem getElem?_of_snoc (h : evs[k]? = some x) : (evs ++ [ev])[k]? = some x := by
  obtain ⟨hlt, -⟩ := List.getElem?_eq_some_iff.mp h
  rw [List.getElem?_append_left hlt, h]

theorem Current.of_snoc (h : Current (evs ++ [ev]) k) : Current evs k :=
  fun m hm x hx => h m hm x (getElem?_of_snoc hx)

theorem Current.snoc (h : Current evs k) (hev : ev.anchors = false) : Current (evs ++ [ev]) k := by
  intro m hm x hx
  obtain ⟨hx, -⟩ | ⟨-, rfl⟩ := getElem?_snoc hx
  · exact h m hm x hx
  · exact hev

theorem Current.le_of_anchors (h : Current (evs ++ [ev]) k) (hev : ev.anchors = true) :
    evs.length ≤ k := by
  by_contra hlt
  have hlast := h evs.length (by omega) ev (by simp)
  rw [hev] at hlast
  contradiction

theorem SameEpoch.of_snoc (h : SameEpoch (evs ++ [ev]) i j) : SameEpoch evs i j :=
  fun m hm hle x hx => h m hm hle x (getElem?_of_snoc hx)

theorem SameEpoch.snoc (h : SameEpoch evs i j) (hj : j < evs.length) :
    SameEpoch (evs ++ [ev]) i j := by
  intro m hm hle x hx
  obtain ⟨hx, -⟩ | ⟨hlen, -⟩ := getElem?_snoc hx
  · exact h m hm hle x hx
  · omega

theorem sameEpoch_last : SameEpoch (evs ++ [ev]) k evs.length ↔ Current (evs ++ [ev]) k := by
  constructor
  · intro h m hm x hx
    have hlt := (List.getElem?_eq_some_iff.mp hx).1
    rw [List.length_append, List.length_singleton] at hlt
    exact h m hm (by omega) x hx
  · exact fun h m hm _ x hx => h m hm x hx

/-- What is to be shown of a run.  Within an epoch the released numbers increase;
every released frame is the first offer with its number in the epoch, but for
offers refused as too far ahead; and numbers are unwrapped sequence numbers. -/
structure InOrder (evs : List Event) : Prop where
  increasing : ∀ i j number pcm number' pcm', i < j → evs[i]? = some (.released number pcm) →
    evs[j]? = some (.released number' pcm') → SameEpoch evs i j → number < number'
  source : ∀ i number pcm, evs[i]? = some (.released number pcm) →
    ∃ k, Releases evs k i number pcm ∧ FirstOffer evs k i number
  unwrapped : ∀ m k anchors number seq pcm result anchors' number' seq' pcm' result', m < k →
    evs[m]? = some (.offered anchors number seq pcm result) →
    evs[k]? = some (.offered anchors' number' seq' pcm' result') → SameEpoch evs m k →
    (seq'.toNat : Int) ≡ seq.toNat + (number' - number) [ZMOD 2 ^ 16]

theorem InOrder.once (h : InOrder evs) {number' : Int} {pcm' : List Int16}
    (hi : Releases evs k i number pcm) (hj : Releases evs k j number' pcm') : i = j := by
  have hsame : number = number' := by
    obtain ⟨a, seq, ha⟩ := hi.offered
    obtain ⟨b, seq', hb⟩ := hj.offered
    rw [ha] at hb
    simp only [Option.some.injEq, Event.offered.injEq] at hb
    exact hb.2.1
  have hepoch {i j : Nat} (hki : k < i) (hkj : SameEpoch evs k j) : SameEpoch evs i j :=
    fun m hm hle x hx => hkj m (hki.trans hm) hle x hx
  obtain hlt | heq | hgt := Nat.lt_trichotomy i j
  · have hless := h.increasing i j _ _ _ _ hlt hi.released hj.released (hepoch hi.after hj.epoch)
    omega
  · exact heq
  · have hless := h.increasing j i _ _ _ _ hgt hj.released hi.released (hepoch hj.after hi.epoch)
    omega

theorem inOrder_nil : InOrder [] := by
  constructor
  · intro i j number pcm number' pcm' _ h
    simp at h
  · intro i number pcm h
    simp at h
  · intro m k anchors number seq pcm result anchors' number' seq' pcm' result' _ h
    simp at h

/-- A stored frame is the first offer with its number in the current epoch, but
for offers refused as too far ahead. -/
def Source (evs : List Event) (r : Int × Stored) : Prop :=
  ∃ k anchors, evs[k]? = some (.offered anchors r.1 r.2.seq r.2.pcm .buffered) ∧ Current evs k ∧
    ∀ m < k, Current evs m → ∀ anchors seq pcm result,
      evs[m]? = some (.offered anchors r.1 seq pcm result) → result = .overflow

theorem Source.snoc (h : Source evs r) (hev : ev.anchors = false) : Source (evs ++ [ev]) r := by
  obtain ⟨k, anchors, hk, hcurrent, hfirst⟩ := h
  have hlt := (List.getElem?_eq_some_iff.mp hk).1
  refine ⟨k, anchors, getElem?_of_snoc hk, hcurrent.snoc hev, fun m hm hm' a seq pcm result hx => ?_⟩
  obtain ⟨hx, -⟩ | ⟨rfl, -⟩ := getElem?_snoc hx
  · exact hfirst m hm hm'.of_snoc a seq pcm result hx
  · omega

theorem InOrder.snoc (h : InOrder evs) (hreleased : ∀ number pcm, ev = .released number pcm →
      (∀ i number' pcm', evs[i]? = some (.released number' pcm') → Current evs i → number' < number) ∧
        ∃ r : Int × Stored, r.1 = number ∧ r.2.pcm = pcm ∧ Source evs r)
    (hoffered : ∀ anchors number seq pcm result, ev = .offered anchors number seq pcm result →
      ∀ m anchors' number' seq' pcm' result',
        evs[m]? = some (.offered anchors' number' seq' pcm' result') → Current (evs ++ [ev]) m →
        (seq.toNat : Int) ≡ seq'.toNat + (number - number') [ZMOD 2 ^ 16]) :
    InOrder (evs ++ [ev]) := by
  constructor
  · intro i j number pcm number' pcm' hij hi hj hepoch
    obtain ⟨hj, hjlt⟩ | ⟨rfl, hlast⟩ := getElem?_snoc hj
    · obtain ⟨hi, -⟩ | ⟨rfl, -⟩ := getElem?_snoc hi
      · exact h.increasing i j _ _ _ _ hij hi hj hepoch.of_snoc
      · omega
    · obtain ⟨hi, -⟩ | ⟨rfl, -⟩ := getElem?_snoc hi
      · exact (hreleased number' pcm' hlast.symm).1 i number pcm hi (sameEpoch_last.mp hepoch).of_snoc
      · omega
  · intro i number pcm hi
    obtain ⟨hi, hilt⟩ | ⟨rfl, hlast⟩ := getElem?_snoc hi
    · obtain ⟨k, hk, hfirst⟩ := h.source i number pcm hi
      obtain ⟨anchors, seq, hoffer⟩ := hk.offered
      refine ⟨k, ⟨⟨anchors, seq, getElem?_of_snoc hoffer⟩, getElem?_of_snoc hk.released, hk.after,
        hk.epoch.snoc hilt⟩, fun m hm hepoch a seq' pcm' result hx => ?_⟩
      have hki := hk.after
      obtain ⟨hx, -⟩ | ⟨rfl, -⟩ := getElem?_snoc hx
      · exact hfirst m hm hepoch.of_snoc a seq' pcm' result hx
      · omega
    · obtain ⟨-, r, rfl, rfl, k, anchors, hk, hcurrent, hfirst⟩ := hreleased number pcm hlast.symm
      have hklt := (List.getElem?_eq_some_iff.mp hk).1
      have hev : ev.anchors = false := by
        rw [← hlast]
        rfl
      refine ⟨k, ⟨⟨anchors, r.2.seq, getElem?_of_snoc hk⟩, by simp [hlast], hklt,
        sameEpoch_last.mpr (hcurrent.snoc hev)⟩, fun m hm hepoch a seq' pcm' result hx => ?_⟩
      obtain ⟨hx, -⟩ | ⟨rfl, -⟩ := getElem?_snoc hx
      · exact hfirst m hm (sameEpoch_last.mp hepoch).of_snoc a seq' pcm' result hx
      · omega
  · intro m k anchors number seq pcm result anchors' number' seq' pcm' result' hmk hm hk hepoch
    obtain ⟨hk, hklt⟩ | ⟨rfl, hlast⟩ := getElem?_snoc hk
    · obtain ⟨hm, -⟩ | ⟨rfl, -⟩ := getElem?_snoc hm
      · exact h.unwrapped m k _ _ _ _ _ _ _ _ _ _ hmk hm hk hepoch.of_snoc
      · omega
    · obtain ⟨hm, -⟩ | ⟨rfl, -⟩ := getElem?_snoc hm
      · exact hoffered _ _ _ _ _ hlast.symm m _ _ _ _ _ hm (sameEpoch_last.mp hepoch)
      · omega

/-! ## what a run keeps -/

/-- What is known of the packets of the current epoch. -/
structure Told (evs : List Event) (jb : JitterBuffer) : Prop where
  order : InOrder evs
  aligned : ∀ e, jb.expected = some e → Aligned jb e
  unanchored : jb.expected = none → jb.frames.rows = []
  stored : ∀ r ∈ jb.frames.rows, Source evs r
  passed : ∀ i number pcm, evs[i]? = some (.released number pcm) → Current evs i →
    ∀ e, jb.expected = some e → number < e
  numbered : ∀ k anchors number seq pcm result,
    evs[k]? = some (.offered anchors number seq pcm result) → Current evs k →
    ∀ e, jb.expected = some e → (seq.toNat : Int) ≡ jb.anchorSeq.toNat + (number - e) [ZMOD 2 ^ 16]
  settled : ∀ k anchors number seq pcm result,
    evs[k]? = some (.offered anchors number seq pcm result) → Current evs k →
    ∀ e, jb.expected = some e → result = .overflow ∨ number < e ∨ (∃ r ∈ jb.frames.rows, r.1 = number) ∨
      jb.frames.rows = [] ∧ jb.primed = false

theorem told_withConfig (frameSamples : Nat) (cfg : JitterConfig) :
    Told [] (.withConfig frameSamples cfg) where
  order := inOrder_nil
  aligned := fun e he => by contradiction
  unanchored := fun _ => rfl
  stored := fun r hr => by contradiction
  passed := fun i number pcm h => by simp at h
  numbered := fun k anchors number seq pcm result h => by simp at h
  settled := fun k anchors number seq pcm result h => by simp at h

theorem Told.anchor (h : Told evs jb) (hblank : jb.Blank) (seq : UInt16) (pcm : List Int16) :
    Told (evs ++ [jb.event (.insert seq pcm)]) (jb.insert seq pcm).2 := by
  have hresult : (jb.insert seq pcm).1 = .buffered := by
    have hfirst : jb.expected = none ∨ jb.primed = false ∧ jb.frames.rows = [] := hblank
    unfold insert
    simp only
    rw [if_pos hfirst]
  have hev : jb.event (.insert seq pcm) = .offered true 0 seq pcm .buffered := by
    simp [event, unwrap, hblank, hresult]
  have hrow : ∀ r ∈ (jb.insert seq pcm).2.frames.rows, r = (0, ⟨seq, pcm⟩) := by
    intro r hr
    rw [insert_blank hblank] at hr
    obtain rfl | ⟨hr, -⟩ := Sorted.mem_put.mp hr
    · rfl
    · contradiction
  rw [hev]
  -- what belongs to the new epoch is the packet itself
  have hcurrent {k : Nat} {x : Event} (hk : (evs ++ [Event.offered true 0 seq pcm .buffered])[k]? = some x)
      (hc : Current (evs ++ [Event.offered true 0 seq pcm .buffered]) k) :
      k = evs.length ∧ x = .offered true 0 seq pcm .buffered := by
    have hle := hc.le_of_anchors rfl
    obtain ⟨-, hlt⟩ | hlast := getElem?_snoc hk
    · omega
    · exact hlast
  refine ⟨h.order.snoc (fun _ _ heq => by contradiction) ?_, ?_, ?_, ?_, ?_, ?_, ?_⟩
  · intro a n s p res heq m a' n' s' p' res' hm hc
    have hle := hc.le_of_anchors rfl
    have hlt := (List.getElem?_eq_some_iff.mp hm).1
    omega
  · intro e he
    rw [insert_blank hblank] at he
    obtain rfl := Option.some.inj he
    refine ⟨by rw [insert_blank hblank]; rfl, fun r hr => ?_, fun r hr => ?_⟩
    · rw [hrow r hr]
    · rw [hrow r hr, insert_blank hblank]
      show (seq.toNat : Int) ≡ seq.toNat + (0 - 0) [ZMOD 2 ^ 16]
      rw [sub_zero, add_zero]
  · intro hnone
    obtain ⟨e, he⟩ := expected_insert jb seq pcm
    exact absurd (he.symm.trans hnone) (Option.some_ne_none e)
  · intro r hr
    rw [hrow r hr]
    refine ⟨evs.length, true, by simp, fun m hm x hx => ?_, fun m hm hc => ?_⟩
    · obtain ⟨-, hlt⟩ | ⟨rfl, -⟩ := getElem?_snoc hx
      · omega
      · omega
    · have hle := hc.le_of_anchors rfl
      omega
  · intro i n p hi hc
    obtain ⟨-, heq⟩ := hcurrent hi hc
    contradiction
  · intro k a n s p res hk hc e he
    obtain ⟨-, heq⟩ := hcurrent hk hc
    simp only [Event.offered.injEq] at heq
    obtain ⟨-, rfl, rfl, -, -⟩ := heq
    rw [insert_blank hblank] at he ⊢
    obtain rfl := Option.some.inj he
    show (s.toNat : Int) ≡ s.toNat + (0 - 0) [ZMOD 2 ^ 16]
    rw [sub_zero, add_zero]
  · intro k a n s p res hk hc e he
    obtain ⟨-, heq⟩ := hcurrent hk hc
    simp only [Event.offered.injEq] at heq
    refine .inr (.inr (.inl ⟨(0, ⟨seq, pcm⟩), ?_, heq.2.1.symm⟩))
    rw [insert_blank hblank]
    exact Sorted.mem_put.mpr (.inl rfl)

theorem insert_cases (hrunning : ¬ jb.Blank) (he : jb.expected = some e) (seq : UInt16)
    (pcm : List Int16) :
    ((jb.insert seq pcm).2.expected = some e ∧ (jb.insert seq pcm).2.anchorIndex = jb.anchorIndex ∧
      (jb.insert seq pcm).2.anchorSeq = jb.anchorSeq) ∧
    ((jb.insert seq pcm).2.frames = jb.frames ∧ ((jb.insert seq pcm).1 = .overflow ∨
        (jb.insert seq pcm).1 = .late ∧ jb.indexOf seq < e ∨
        (jb.insert seq pcm).1 = .duplicate ∧ ∃ r ∈ jb.frames.rows, r.1 = jb.indexOf seq) ∨
      (jb.insert seq pcm).2.frames = jb.frames.put (jb.indexOf seq, ⟨seq, pcm⟩) ∧
        (jb.insert seq pcm).1 = .buffered ∧ e ≤ jb.indexOf seq ∧
        jb.frames.get (jb.indexOf seq) = none) := by
  have hrunning : ¬ (jb.expected = none ∨ jb.primed = false ∧ jb.frames.rows = []) := hrunning
  have hhead : jb.expected.getD 0 = e := by rw [he, Option.getD_some]
  unfold insert
  simp only
  rw [if_neg hrunning]
  split
  · next hlate =>
    have hlate : jb.indexOf seq < jb.expected.getD 0 := hlate
    rw [hhead] at hlate
    exact ⟨⟨he, rfl, rfl⟩, .inl ⟨rfl, .inr (.inl ⟨rfl, hlate⟩)⟩⟩
  · next hlow =>
    have hlow : jb.expected.getD 0 ≤ jb.indexOf seq := not_lt.mp hlow
    rw [hhead] at hlow
    split
    · exact ⟨⟨he, rfl, rfl⟩, .inl ⟨rfl, .inl rfl⟩⟩
    · split
      · next r hget =>
        obtain ⟨hmem, hkey⟩ := Sorted.get_eq_some hget
        exact ⟨⟨he, rfl, rfl⟩, .inl ⟨rfl, .inr (.inr ⟨rfl, r, hmem, hkey⟩)⟩⟩
      · next hget => exact ⟨⟨he, rfl, rfl⟩, .inr ⟨rfl, rfl, hlow, hget⟩⟩

theorem Told.offer (h : Told evs jb) (hrunning : ¬ jb.Blank) (seq : UInt16) (pcm : List Int16) :
    Told (evs ++ [jb.event (.insert seq pcm)]) (jb.insert seq pcm).2 := by
  have hsome : jb.expected ≠ none := fun hnone => hrunning (.inl hnone)
  obtain ⟨e, he⟩ := Option.ne_none_iff_exists'.mp hsome
  obtain ⟨⟨hexpected, hindex, hseq⟩, hcases⟩ := insert_cases hrunning he seq pcm
  have haligned := h.aligned e he
  have hnumber : (seq.toNat : Int) ≡ jb.anchorSeq.toNat + (jb.indexOf seq - e) [ZMOD 2 ^ 16] := by
    rw [indexOf, haligned.anchor, add_sub_cancel_left]
    exact asI16_sub_modEq seq jb.anchorSeq
  have hev : jb.event (.insert seq pcm) =
      .offered false (jb.indexOf seq) seq pcm (jb.insert seq pcm).1 := by
    simp [event, unwrap, hrunning]
  rw [hev]
  have hquiet : (Event.offered false (jb.indexOf seq) seq pcm (jb.insert seq pcm).1).anchors = false := rfl
  generalize (jb.insert seq pcm).1 = result at hcases hquiet
  generalize (jb.insert seq pcm).2 = jb' at hcases hexpected hindex hseq
  have hrows : ∀ r ∈ jb.frames.rows, ∃ q ∈ jb'.frames.rows, q.1 = r.1 := by
    intro r hr
    obtain ⟨hframes, -⟩ | ⟨hframes, -⟩ := hcases
    · rw [hframes]
      exact ⟨r, hr, rfl⟩
    · rw [hframes]
      by_cases hkey : r.1 = jb.indexOf seq
      · exact ⟨_, Sorted.mem_put.mpr (.inl rfl), hkey.symm⟩
      · exact ⟨r, Sorted.mem_put.mpr (.inr ⟨hr, hkey⟩), rfl⟩
  -- a frame that is stored now was stored before, or is the one offered
  have hnew : ∀ r ∈ jb'.frames.rows, r ∈ jb.frames.rows ∨
      r = (jb.indexOf seq, ⟨seq, pcm⟩) ∧ result = .buffered ∧ e ≤ jb.indexOf seq ∧
        jb.frames.get (jb.indexOf seq) = none := by
    intro r hr
    obtain ⟨hframes, -⟩ | ⟨hframes, hrest⟩ := hcases
    · rw [hframes] at hr
      exact .inl hr
    · rw [hframes] at hr
      obtain rfl | ⟨hr, -⟩ := Sorted.mem_put.mp hr
      · exact .inr ⟨rfl, hrest⟩
      · exact .inl hr
  refine ⟨h.order.snoc (fun _ _ heq => by contradiction) ?_, ?_, ?_, ?_, ?_, ?_, ?_⟩
  · intro a n s p res heq m a' n' s' p' res' hm hc
    simp only [Event.offered.injEq] at heq
    obtain ⟨-, rfl, rfl, -, -⟩ := heq
    have hold := h.numbered m a' n' s' p' res' hm hc.of_snoc e he
    unfold Int.ModEq at hold hnumber ⊢
    omega
  · intro e' he'
    obtain rfl : e = e' := Option.mem_unique hexpected he'
    refine ⟨hindex.trans haligned.anchor, fun r hr => ?_, fun r hr => ?_⟩
    · obtain hr | ⟨rfl, -, hle, -⟩ := hnew r hr
      · exact haligned.ahead r hr
      · exact hle
    · rw [hseq]
      obtain hr | ⟨rfl, -⟩ := hnew r hr
      · exact haligned.sequence r hr
      · exact hnumber
  · intro hnone
    rw [hexpected] at hnone
    contradiction
  · intro r hr
    obtain hr | ⟨rfl, rfl, hle, hget⟩ := hnew r hr
    · exact (h.stored r hr).snoc hquiet
    · refine ⟨evs.length, false, by simp, fun m hm x hx => ?_, fun m hm hc a s p res hx => ?_⟩
      · obtain ⟨-, hlt⟩ | ⟨rfl, -⟩ := getElem?_snoc hx
        · omega
        · omega
      · -- an earlier offer with this number was refused, as its slot is still free
        obtain ⟨hx, -⟩ | ⟨rfl, -⟩ := getElem?_snoc hx
        · obtain hover | hlt | ⟨q, hq, hkey⟩ | ⟨hnil, hprimed⟩ :=
            h.settled m a _ s p res hx hc.of_snoc e he
          · exact hover
          · simp only at hlt
            omega
          · exact absurd hkey (Sorted.get_eq_none hget q hq)
          · exact absurd (.inr ⟨hprimed, hnil⟩) hrunning
        · omega
  · intro i n p hi hc e' he'
    obtain rfl : e = e' := Option.mem_unique hexpected he'
    obtain ⟨hi, -⟩ | ⟨-, heq⟩ := getElem?_snoc hi
    · exact h.passed i n p hi hc.of_snoc e he
    · contradiction
  · intro k a n s p res hk hc e' he'
    obtain rfl : e = e' := Option.mem_unique hexpected he'
    rw [hseq]
    obtain ⟨hk, -⟩ | ⟨-, heq⟩ := getElem?_snoc hk
    · exact h.numbered k a n s p res hk hc.of_snoc e he
    · simp only [Event.offered.injEq] at heq
      obtain ⟨-, rfl, rfl, -, -⟩ := heq
      exact hnumber
  · intro k a n s p res hk hc e' he'
    obtain rfl : e = e' := Option.mem_unique hexpected he'
    obtain ⟨hk, -⟩ | ⟨-, heq⟩ := getElem?_snoc hk
    · obtain hover | hlt | ⟨q, hq, hkey⟩ | ⟨hnil, hprimed⟩ := h.settled k a n s p res hk hc.of_snoc e he
      · exact .inl hover
      · exact .inr (.inl hlt)
      · obtain ⟨q', hq', hkey'⟩ := hrows q hq
        exact .inr (.inr (.inl ⟨q', hq', hkey'.trans hkey⟩))
      · exact absurd (.inr ⟨hprimed, hnil⟩) hrunning
    · simp only [Event.offered.injEq] at heq
      obtain ⟨-, rfl, -, -, rfl⟩ := heq
      obtain ⟨-, hover | ⟨-, hlt⟩ | ⟨-, q, hq, hkey⟩⟩ | ⟨hframes, -⟩ := hcases
      · exact .inl hover
      · exact .inr (.inl hlt)
      · obtain ⟨q', hq', hkey'⟩ := hrows q hq
        exact .inr (.inr (.inl ⟨q', hq', hkey'.trans hkey⟩))
      · refine .inr (.inr (.inl ⟨(jb.indexOf seq, ⟨seq, pcm⟩), ?_, rfl⟩))
        rw [hframes]
        exact Sorted.mem_put.mpr (.inl rfl)

theorem anchors_tickEvent (jb : JitterBuffer) : jb.tickEvent.anchors = false := by
  unfold tickEvent
  split <;> rfl

theorem tickEvent_released (h : jb.tickEvent = .released number pcm) :
    jb.advance.1 = some (.frame pcm) ∧ number = jb.advance.2.expected.getD 0 - 1 := by
  unfold tickEvent at h
  generalize jb.advance = advanced at h
  split at h
  · simp only [Event.released.injEq] at h
    obtain ⟨rfl, rfl⟩ := h
    exact ⟨rfl, rfl⟩
  · contradiction

theorem tickEvent_ne_offered {anchors : Bool} {seq : UInt16}
    {result : Insert} : jb.tickEvent ≠ .offered anchors number seq pcm result := by
  unfold tickEvent
  split <;> exact fun h => by contradiction

section

variable (h : Told evs jb)
include h

theorem Told.tick : Told (evs ++ [jb.tickEvent]) jb.advance.2 := by
  have hquiet := anchors_tickEvent jb
  cases he : jb.expected with
  | none =>
    have hadvance : jb.advance = (none, jb) := by
      unfold advance
      split
      · rfl
      · next e he' =>
        rw [he] at he'
        contradiction
    have hev : jb.tickEvent = .quiet := by rw [tickEvent, hadvance]
    rw [hev, hadvance]
    refine ⟨h.order.snoc (fun _ _ heq => by contradiction) (fun _ _ _ _ _ heq => by contradiction),
      h.aligned, h.unanchored, fun r hr => (h.stored r hr).snoc rfl, ?_, ?_, ?_⟩
    · intro i n p hi hc e he'
      simp only [he] at he'
      contradiction
    · intro k a n s p res hk hc e he'
      simp only [he] at he'
      contradiction
    · intro k a n s p res hk hc e he'
      simp only [he] at he'
      contradiction
  | some e =>
    have haligned := h.aligned e he
    obtain ⟨e', hmoves, hleft, hframe⟩ := interval_advance haligned he
    have hforward := hmoves.forward
    have hrelease {n : Int} {p : List Int16} (heq : jb.tickEvent = .released n p) :
        ∃ r ∈ jb.frames.rows, r.2.pcm = p ∧ r.1 = n ∧ n + 1 = e' := by
      obtain ⟨hnext, hnumber⟩ := tickEvent_released heq
      obtain ⟨r, hr, hpcm, hkey⟩ := hframe p hnext
      rw [hmoves.expected, Option.getD_some] at hnumber
      exact ⟨r, hr, hpcm, by omega, by omega⟩
    refine ⟨h.order.snoc ?_ (fun _ _ _ _ _ heq => absurd heq tickEvent_ne_offered), ?_, ?_, ?_, ?_, ?_, ?_⟩
    · intro n p heq
      obtain ⟨r, hr, hpcm, hkey, -⟩ := hrelease heq
      have hfront := haligned.ahead r hr
      refine ⟨fun i n' p' hi hc => ?_, r, hkey, hpcm, h.stored r hr⟩
      have hpassed := h.passed i n' p' hi hc e he
      omega
    · intro e'' he''
      obtain rfl : e' = e'' := Option.mem_unique hmoves.expected he''
      exact hmoves.aligned haligned
    · intro hnone
      rw [hmoves.expected] at hnone
      contradiction
    · exact fun r hr => (h.stored r (hmoves.rows r hr).1).snoc hquiet
    · intro i n p hi hc e'' he''
      obtain rfl : e' = e'' := Option.mem_unique hmoves.expected he''
      obtain ⟨hi, -⟩ | ⟨-, heq⟩ := getElem?_snoc hi
      · have hpassed := h.passed i n p hi hc.of_snoc e he
        omega
      · obtain ⟨r, -, -, -, hnext⟩ := hrelease heq.symm
        omega
    · intro k a n s p res hk hc e'' he''
      obtain rfl : e' = e'' := Option.mem_unique hmoves.expected he''
      obtain ⟨hk, -⟩ | ⟨-, heq⟩ := getElem?_snoc hk
      · have hold := h.numbered k a n s p res hk hc.of_snoc e he
        have hmoved := hmoves.anchorSeq
        unfold Int.ModEq at hold hmoved ⊢
        omega
      · exact absurd heq.symm tickEvent_ne_offered
    · intro k a n s p res hk hc e'' he''
      obtain rfl : e' = e'' := Option.mem_unique hmoves.expected he''
      obtain ⟨hk, -⟩ | ⟨-, heq⟩ := getElem?_snoc hk
      · obtain hover | hlt | ⟨r, hr, hkey⟩ | ⟨hnil, hprimed⟩ :=
          h.settled k a n s p res hk hc.of_snoc e he
        · exact .inl hover
        · exact .inr (.inl (by omega))
        · obtain hleft | hblank := hleft
          · obtain hr | hlt := hleft r hr
            · exact .inr (.inr (.inl ⟨r, hr, hkey⟩))
            · exact .inr (.inl (by omega))
          · exact .inr (.inr (.inr hblank))
        · -- a buffer that waits for an anchor keeps waiting
          refine .inr (.inr (.inr ⟨?_, advance_primed he hnil hprimed⟩))
          apply List.eq_nil_iff_forall_not_mem.mpr
          intro r hr
          have hold := (hmoves.rows r hr).1
          rw [hnil] at hold
          contradiction
      · exact absurd heq.symm tickEvent_ne_offered

theorem Told.conceal (n : UInt32) : Told evs { jb with concealRun := n } :=
  ⟨h.order, fun e he => ⟨(h.aligned e he).anchor, (h.aligned e he).ahead, (h.aligned e he).sequence⟩,
    h.unanchored, h.stored, h.passed, h.numbered, h.settled⟩

theorem Told.tickBy (fade : Fade) (slice : Option Nat) :
    Told (evs ++ [jb.tickEvent]) (jb.tickBy fade slice) := by
  obtain ⟨n, heq⟩ := tickBy_eq fade jb slice
  rw [heq]
  exact h.tick.conceal n

/-- **Every call keeps what is told.** -/
theorem Told.call (fade : Fade) (c : Call) : Told (evs ++ [jb.event c]) (jb.call fade c) := by
  cases c with
  | insert seq pcm =>
    by_cases hblank : jb.Blank
    · exact h.anchor hblank seq pcm
    · exact h.offer hblank seq pcm
  | tick => exact h.tickBy fade none
  | tickInto n => exact h.tickBy fade (some n)

end

theorem told_run (cfg : JitterConfig) (frameSamples : Nat) (fade : Fade) (calls : List Call) :
    Told ((withConfig frameSamples cfg).trace fade calls) ((withConfig frameSamples cfg).run fade calls) := by
  induction calls using List.reverseRecOn with
  | nil => exact told_withConfig frameSamples cfg
  | append_singleton calls c ih =>
    have hrun : run fade (withConfig frameSamples cfg) (calls ++ [c]) =
        (run fade (withConfig frameSamples cfg) calls).call fade c := by
      simp [run, List.foldl_append]
    rw [trace_append_singleton, hrun]
    exact ih.call fade c

/-- **Playout order.**  In every run, between two re-anchorings, the released
frames have strictly increasing unwrapped sequence numbers; no packet is
released twice; and every released frame is the payload of the first packet
inserted with its number since the re-anchoring that was not refused as too far
ahead. -/
theorem playout_in_order (cfg : JitterConfig) (frameSamples : Nat) (fade : Fade) (calls : List Call) :
    let evs := (withConfig frameSamples cfg).trace fade calls
    InOrder evs ∧ ∀ k i j number number' pcm pcm', Releases evs k i number pcm →
      Releases evs k j number' pcm' → i = j := by
  intro evs
  have h : InOrder evs := (told_run cfg frameSamples fade calls).order
  exact ⟨h, fun k i j number number' pcm pcm' hi hj => h.once hi hj⟩

instance (evs : List Event) (i j : Nat) : Decidable (SameEpoch evs i j) :=
  decidable_of_iff (∀ m ≤ j, i < m → evs[m]?.map Event.anchors ≠ some true) <| by
    constructor
    · intro h m hm hle x hx
      have hne := h m hle hm
      rw [hx, Option.map_some] at hne
      simpa using hne
    · intro h m hle hm heq
      obtain ⟨x, hx, htrue⟩ := Option.map_eq_some_iff.mp heq
      rw [h m hm hle x hx] at htrue
      contradiction

/-- A packet that is far ahead is refused, and offered again with other samples
when the play head has come closer. -/
def refusedThenOffered : List Call :=
  [.insert 0 [1], .insert 3 [50], .tick, .insert 1 [2], .tick, .insert 3 [55], .insert 2 [3], .tick, .tick]

/-- The released frame need not be the first one inserted with its number: one
that was refused may have come before it. -/
theorem refused_offer_precedes :
    ¬ ∀ (cfg : JitterConfig) (frameSamples : Nat) (fade : Fade) (calls : List Call) (k i : Nat)
      (number : Int) (pcm : List Int16), Releases ((withConfig frameSamples cfg).trace fade calls) k i number pcm →
      ∀ m < k, SameEpoch ((withConfig frameSamples cfg).trace fade calls) m i → ∀ anchors seq pcm' result,
        ((withConfig frameSamples cfg).trace fade calls)[m]? ≠
          some (.offered anchors number seq pcm' result) := by
  intro hall
  have hreleases : Releases ((withConfig 1 { initialTarget := 1, maxBuffer := 3 }).trace (fun _ => none)
      refusedThenOffered) 5 8 3 [55] :=
    ⟨⟨false, 3, by decide +kernel⟩, by decide +kernel, by decide, by decide +kernel⟩
  exact hall _ _ _ _ 5 8 3 [55] hreleases 1 (by decide) (by decide +kernel) false 3 [50] .overflow
    (by decide +kernel)

end JitterBuffer

end SmithsNet.Media
