import SmithsNet.Sidecar.Correlation

/-!
# SmithsNet.Sidecar.Cancellation

What a call leaves behind when its future is dropped.

`call_with_timeout` cleans up on the paths on which it returns, and a future that
is dropped returns on none of them: its entry stays in the map, and what it has
written of its frame stays in the pipe, with the next caller's frame right behind
(`cancelled_mid_frame`).

`cancellation_safe`: in every run in which no call is cancelled while it has an
entry or with its frame partly written, and no write fails half way, a child's
stdin is whole frames and at most the beginning of the one being written, and a
call that has returned or been cancelled has no entry.
-/

namespace SmithsNet.Sidecar

open Lib
open State (step)
open Option

variable {Value : Type} {s s' : State Value}

/-- It holds the process. -/
def Phase.holding : Phase Value → Bool
  | .writing _ _ | .flushing | .removing _ true => true
  | .registering | .locking | .waiting | .removing _ false | .returned _ | .cancelled => false

/-- Some of its frame is written and some is not. -/
def Phase.partly : Phase Value → Bool
  | .writing _ written => 0 < written
  | _ => false

/-- The steps that leave nothing behind. -/
def Tidy (s : State Value) : Action Value → Prop
  | .cancel n => s.pending n = none ∧ (s.calls n).any (fun c => c.phase.partly) = false
  | .writeFails n => (s.calls n).any (fun c => c.phase.partly) = false
  | _ => True

instance (s : State Value) : DecidablePred (Tidy s)
  | .cancel n => inferInstanceAs (Decidable (s.pending n = none ∧ _ = false))
  | .writeFails n => inferInstanceAs (Decidable ((s.calls n).any _ = false))
  | .call _ | .register _ | .lock _ | .write _ _ | .flush _ | .resolve _ | .expire _ | .remove _ | .read _ _
  | .deliver _ | .endReader _ | .reap | .clear | .drain _ | .decide | .wake _ | .install | .halt | .shutdown _
  | .shut _ => isTrue trivial

/-- What is in a child's pipe are whole frames, and what a call that is at it has
written of its own. -/
def State.WholeFrames (s : State Value) : Prop :=
  ∀ ch child, s.children ch = some child → ∃ (whole : List Frame) (part : Bytes),
    (∀ frame ∈ whole, ∃ n c, s.calls n = some c ∧ c.frame = frame) ∧
    child.stdin = (whole.map Subtype.val).flatten ++ part ∧
    (part = [] ∨ ∃ n c written, s.calls n = some c ∧ c.phase = .writing ch written ∧ part = c.frame.1.take written)

/-- The part of a frame at the end of a child's pipe. -/
def State.Part (s : State Value) (ch : Nat) (part : Bytes) : Prop :=
  (part = [] ∧ ∀ n c written, s.calls n = some c → c.phase = .writing ch written → written = 0) ∨
  ∃ n c written, s.calls n = some c ∧ c.phase = .writing ch written ∧ 0 < written ∧ part = c.frame.1.take written

structure Clean (s : State Value) : Prop where
  locked : ∀ n c, s.calls n = some c → c.phase.holding = true → s.lockedBy = some n
  target : ∀ n c ch written, s.calls n = some c → c.phase = .writing ch written → ch < s.nextChild
  process : ∀ ch, s.process = some ch → ch < s.nextChild
  spawned : ∀ ch, s.supervisor = .spawned ch → ch < s.nextChild
  streams : ∀ ch child, s.children ch = some child → ∃ (whole : List Frame) (part : Bytes),
    (∀ frame ∈ whole, ∃ n c, s.calls n = some c ∧ c.frame = frame) ∧
    child.stdin = (whole.map Subtype.val).flatten ++ part ∧ s.Part ch part
  gone : ∀ n c, s.calls n = some c → c.phase = .cancelled → s.pending n = none

theorem Clean.rest (h : Clean s) (hlock : s'.lockedBy = s.lockedBy)
    (hold : ∀ n c', s'.calls n = some c' →
      (∃ c, s.calls n = some c ∧ c.phase = c'.phase ∧ c.frame = c'.frame) ∨
      c'.phase.holding = false ∧ c'.phase ≠ .cancelled)
    (hkept : ∀ n c, s.calls n = some c → ∃ c', s'.calls n = some c' ∧ c'.phase = c.phase ∧ c'.frame = c.frame)
    (hpending : ∀ n j, s'.pending n = some j → s.pending n = some j) (hnext : s.nextChild ≤ s'.nextChild)
    (hprocess : ∀ ch, s'.process = some ch → ch < s'.nextChild)
    (hspawned : ∀ ch, s'.supervisor = .spawned ch → ch < s'.nextChild)
    (hchildren : ∀ ch child', s'.children ch = some child' →
      s.nextChild ≤ ch ∧ child'.stdin = [] ∨ ∃ child, s.children ch = some child ∧ child'.stdin = child.stdin) :
    Clean s' := by
  have hwriting : ∀ {n c' ch written}, s'.calls n = some c' → c'.phase = .writing ch written →
      ∃ c, s.calls n = some c ∧ c.phase = .writing ch written ∧ c.frame = c'.frame := by
    intro n c' ch written hc' hp
    obtain ⟨c, hc, hphase, hframe⟩ | ⟨hnot, -⟩ := hold n c' hc'
    · exact ⟨c, hc, hphase.trans hp, hframe⟩
    · rw [hp] at hnot
      contradiction
  constructor
  · intro n c' hc' hp
    obtain ⟨c, hc, hphase, -⟩ | ⟨hnot, -⟩ := hold n c' hc'
    · rw [hlock]
      exact h.locked n c hc (hphase ▸ hp)
    · rw [hp] at hnot
      contradiction
  · intro n c' ch written hc' hp
    obtain ⟨c, hc, hphase, -⟩ := hwriting hc' hp
    exact Nat.lt_of_lt_of_le (h.target n c ch written hc hphase) hnext
  · exact hprocess
  · exact hspawned
  · intro ch child' hch
    obtain ⟨hnew, hempty⟩ | ⟨child, hchild, hstdin⟩ := hchildren ch child' hch
    · -- nobody writes to a child that was not there
      refine ⟨[], [], fun _ hf => absurd hf List.not_mem_nil, hempty, .inl ⟨rfl, fun n c' written hc' hp => ?_⟩⟩
      obtain ⟨c, hc, hphase, -⟩ := hwriting hc' hp
      exact absurd (h.target n c ch written hc hphase) (Nat.not_lt.mpr hnew)
    · obtain ⟨whole, part, hwhole, heq, hpart⟩ := h.streams ch child hchild
      refine ⟨whole, part, fun frame hf => ?_, hstdin.trans heq, ?_⟩
      · obtain ⟨n, c, hc, rfl⟩ := hwhole frame hf
        obtain ⟨c', hc', -, hframe⟩ := hkept n c hc
        exact ⟨n, c', hc', hframe⟩
      · obtain ⟨hnil, hnone⟩ | ⟨n, c, written, hc, hp, hpos, rfl⟩ := hpart
        · refine .inl ⟨hnil, fun n c' written hc' hp => ?_⟩
          obtain ⟨c, hc, hphase, -⟩ := hwriting hc' hp
          exact hnone n c written hc hphase
        · obtain ⟨c', hc', hphase, hframe⟩ := hkept n c hc
          exact .inr ⟨n, c', written, hc', hphase.trans hp, hpos, by rw [hframe]⟩
  · intro n c' hc' hp
    obtain ⟨c, hc, hphase, -⟩ | ⟨-, hnot⟩ := hold n c' hc'
    · cases hentry : s'.pending n with
      | none => rfl
      | some j =>
        have hgone := h.gone n c hc (hphase.trans hp)
        rw [hpending n j hentry] at hgone
        contradiction
    · exact absurd hp hnot

theorem Clean.moves (h : Clean s) {n : Nat} {c : Call Value} (hc : s.calls n = some c) {p : Phase Value}
    (hcalls : s'.calls = s.calls.insert n { c with phase := p })
    (hlock : p.holding = true → s'.lockedBy = some n)
    (hothers : ∀ m, m ≠ n → s.lockedBy = some m → s'.lockedBy = some m)
    (hnext : s'.nextChild = s.nextChild) (hprocess : s'.process = s.process)
    (hsupervisor : s'.supervisor = s.supervisor)
    (hchildren : ∀ ch child', s'.children ch = some child' →
      ∃ child, s.children ch = some child ∧ child'.stdin = child.stdin)
    (hpending : ∀ m, m ≠ n → s'.pending m = s.pending m)
    (hfrom : c.phase.partly = false) (hto : p.partly = false)
    (htarget : ∀ ch written, p = .writing ch written → ch < s.nextChild)
    (hgone : p = .cancelled → s'.pending n = none) : Clean s' := by
  have hself : s'.calls n = some { c with phase := p } := by rw [hcalls, Table.insert_self]
  have hother : ∀ {m}, m ≠ n → s'.calls m = s.calls m := by
    intro m hm
    rw [hcalls, Table.insert_apply, if_neg hm]
  constructor
  · intro m d hd hp
    by_cases hm : m = n
    · subst hm
      obtain rfl := mem_unique hself hd
      exact hlock hp
    · exact hothers m hm (h.locked m d ((hother hm).symm.trans hd) hp)
  · intro m d ch written hd hp
    rw [hnext]
    by_cases hm : m = n
    · subst hm
      obtain rfl := mem_unique hself hd
      exact htarget ch written hp
    · exact h.target m d ch written ((hother hm).symm.trans hd) hp
  · rw [hprocess, hnext]
    exact h.process
  · rw [hsupervisor, hnext]
    exact h.spawned
  · intro ch child' hch
    obtain ⟨child, hchild, hstdin⟩ := hchildren ch child' hch
    obtain ⟨whole, part, hwhole, heq, hpart⟩ := h.streams ch child hchild
    refine ⟨whole, part, fun frame hf => ?_, hstdin.trans heq, ?_⟩
    · obtain ⟨m, d, hd, rfl⟩ := hwhole frame hf
      by_cases hm : m = n
      · subst hm
        obtain rfl := mem_unique hc hd
        exact ⟨m, _, hself, rfl⟩
      · exact ⟨m, d, (hother hm).trans hd, rfl⟩
    · obtain ⟨hnil, hnone⟩ | ⟨m, d, written, hd, hp, hpos, rfl⟩ := hpart
      · refine .inl ⟨hnil, fun m d written hd hp => ?_⟩
        by_cases hm : m = n
        · subst hm
          obtain rfl := mem_unique hself hd
          obtain rfl : p = .writing ch written := hp
          exact Nat.eq_zero_of_not_pos (of_decide_eq_false hto)
        · exact hnone m d written ((hother hm).symm.trans hd) hp
      · by_cases hm : m = n
        · subst hm
          obtain rfl := mem_unique hc hd
          rw [hp] at hfrom
          exact absurd hpos (of_decide_eq_false hfrom)
        · exact .inr ⟨m, d, written, (hother hm).trans hd, hp, hpos, rfl⟩
  · intro m d hd hp
    by_cases hm : m = n
    · subst hm
      obtain rfl := mem_unique hself hd
      exact hgone hp
    · rw [hpending m hm]
      exact h.gone m d ((hother hm).symm.trans hd) hp

theorem Clean.part_eq (h : Clean s) {n ch written : Nat} {c : Call Value} (hc : s.calls n = some c)
    (hp : c.phase = .writing ch written) {part : Bytes} (hpart : s.Part ch part) : part = c.frame.1.take written := by
  obtain ⟨rfl, hnone⟩ | ⟨m, d, written', hd, hp', -, rfl⟩ := hpart
  · rw [hnone n c written hc hp, List.take_zero]
  · have hn := h.locked n c hc (by rw [hp]; rfl)
    have hm := h.locked m d hd (by rw [hp']; rfl)
    obtain rfl := mem_unique hn hm
    obtain rfl := mem_unique hc hd
    obtain ⟨-, rfl⟩ := Phase.writing.inj (hp.symm.trans hp')
    rfl

theorem Clean.write (h : Clean s) {n ch written count : Nat} {c : Call Value} {child : Child}
    (hc : s.calls n = some c) (hp : c.phase = .writing ch written) (hchild : s.children ch = some child)
    (hcount : 0 < count) {p : Phase Value}
    (hto : written + count = c.frame.1.length ∧ p = .flushing ∨ p = .writing ch (written + count)) :
    Clean ((s.setChild ch { child with stdin := child.stdin ++ slice c.frame.1 written count }).setPhase n c p) := by
  have hlocked := h.locked n c hc (by rw [hp]; rfl)
  have halone : ∀ {m d ch' written'}, m ≠ n → s.calls m = some d → d.phase ≠ .writing ch' written' := by
    intro m d ch' written' hm hd hp'
    have hboth := h.locked m d hd (by rw [hp']; rfl)
    exact hm (mem_unique hboth hlocked)
  have hholding : p.holding = true := by
    obtain ⟨-, rfl⟩ | rfl := hto <;> rfl
  generalize hs' : (s.setChild ch _).setPhase n c p = s'
  have hself : s'.calls n = some { c with phase := p } := by
    subst hs'
    exact Table.insert_self _ _ _
  have hother : ∀ {m}, m ≠ n → s'.calls m = s.calls m := by
    intro m hm
    subst hs'
    exact (Table.insert_apply _ _ _ _).trans (if_neg hm)
  have hframes : ∀ {frame}, (∃ m d, s.calls m = some d ∧ d.frame = frame) →
      ∃ m d, s'.calls m = some d ∧ d.frame = frame := by
    rintro frame ⟨m, d, hd, rfl⟩
    by_cases hm : m = n
    · subst hm
      obtain rfl := mem_unique hc hd
      exact ⟨m, _, hself, rfl⟩
    · exact ⟨m, d, (hother hm).trans hd, rfl⟩
  have hwriter : ∀ {m d ch' written'}, s'.calls m = some d → d.phase = .writing ch' written' →
      m = n ∧ p = .writing ch' written' := by
    intro m d ch' written' hd hp'
    by_cases hm : m = n
    · subst hm
      obtain rfl := mem_unique hself hd
      exact ⟨rfl, hp'⟩
    · exact absurd hp' (halone hm ((hother hm).symm.trans hd))
  constructor
  · intro m d hd hphase
    subst hs'
    by_cases hm : m = n
    · subst hm
      exact hlocked
    · exact h.locked m d ((hother hm).symm.trans hd) hphase
  · intro m d ch' written' hd hp'
    obtain ⟨-, hpw⟩ := hwriter hd hp'
    subst hs'
    obtain ⟨-, rfl⟩ | rfl := hto
    · contradiction
    · obtain ⟨rfl, -⟩ := Phase.writing.inj hpw
      exact h.target n c ch written hc hp
  · subst hs'
    exact h.process
  · subst hs'
    exact h.spawned
  · intro ch' child' hch'
    have hchildren : s'.children = s.children.insert ch
      { child with stdin := child.stdin ++ slice c.frame.1 written count } := by
      subst hs'
      rfl
    rw [hchildren, Table.insert_apply] at hch'
    split at hch'
    · next heq =>
      subst heq
      obtain rfl := Option.some.inj hch'
      obtain ⟨whole, part, hwhole, hstdin, hpart⟩ := h.streams ch' child hchild
      obtain rfl := h.part_eq hc hp hpart
      have hmore : c.frame.1.take written ++ slice c.frame.1 written count = c.frame.1.take (written + count) :=
        List.take_add.symm
      obtain ⟨hall, rfl⟩ | rfl := hto
      · -- the frame is whole
        refine ⟨whole ++ [c.frame], [], fun frame hf => ?_, ?_, .inl ⟨rfl, fun m d written' hd hp' => ?_⟩⟩
        · obtain hf | hf := List.mem_append.mp hf
          · exact hframes (hwhole frame hf)
          · obtain rfl := List.mem_singleton.mp hf
            exact hframes ⟨n, c, hc, rfl⟩
        · rw [hstdin, List.append_assoc, hmore, hall, List.take_length]
          simp
        · nomatch (hwriter hd hp').2
      · refine ⟨whole, _, fun frame hf => hframes (hwhole frame hf), ?_,
          .inr ⟨n, _, written + count, hself, rfl, by omega, rfl⟩⟩
        rw [hstdin, List.append_assoc, hmore]
    · next hne =>
      obtain ⟨whole, part, hwhole, hstdin, hpart⟩ := h.streams ch' child' hch'
      refine ⟨whole, part, fun frame hf => hframes (hwhole frame hf), hstdin, ?_⟩
      obtain ⟨hnil, -⟩ | ⟨m, d, written', hd, hp', hpos, rfl⟩ := hpart
      · refine .inl ⟨hnil, fun m d written' hd hp' => ?_⟩
        obtain ⟨-, hpw⟩ := hwriter hd hp'
        obtain ⟨-, rfl⟩ | rfl := hto
        · contradiction
        · exact absurd (Phase.writing.inj hpw).1.symm hne
      · by_cases hm : m = n
        · subst hm
          obtain rfl := mem_unique hc hd
          exact absurd (Phase.writing.inj (hp'.symm.trans hp)).1 hne
        · exact absurd hp' (halone hm hd)
  · intro m d hd hphase
    have hm : m ≠ n := by
      rintro rfl
      obtain rfl := mem_unique hself hd
      rw [show p = .cancelled from hphase] at hholding
      contradiction
    subst hs'
    exact h.gone m d ((hother hm).symm.trans hd) hphase

/-! ## steps -/

section Step

theorem stdin_setChild {c : Nat} {child child' : Child} (hc : s.children c = some child)
    (hsame : child'.stdin = child.stdin) :
    ∀ ch x, (s.setChild c child').children ch = some x → ∃ y, s.children ch = some y ∧ x.stdin = y.stdin := by
  intro ch x hx
  rw [show (s.setChild c child').children = s.children.insert c child' from rfl, Table.insert_apply] at hx
  split at hx
  · next hch =>
    subst hch
    obtain rfl := Option.some.inj hx
    exact ⟨child, hc, hsame⟩
  · exact ⟨x, hx, rfl⟩

section

variable (h : Clean s)
include h

theorem Clean.elsewhere (hcalls : s'.calls = s.calls) (hlock : s'.lockedBy = s.lockedBy)
    (hpending : s'.pending = s.pending) (hnext : s'.nextChild = s.nextChild)
    (hprocess : ∀ ch, s'.process = some ch → s.process = some ch ∨ s.supervisor = .spawned ch)
    (hspawned : ∀ ch, s'.supervisor = .spawned ch → s.supervisor = .spawned ch)
    (hchildren : ∀ ch x, s'.children ch = some x → ∃ y, s.children ch = some y ∧ x.stdin = y.stdin) : Clean s' := by
  refine h.rest hlock ?_ ?_ (fun n j hj => hpending ▸ hj)
    (Nat.le_of_eq hnext.symm) ?_ ?_ fun ch x hx => .inr (hchildren ch x hx)
  · intro n c hc
    exact .inl ⟨c, hcalls ▸ hc, rfl, rfl⟩
  · intro n c hc
    exact ⟨c, hcalls ▸ hc, rfl, rfl⟩
  · intro ch hch
    rw [hnext]
    obtain hch | hch := hprocess ch hch
    · exact h.process ch hch
    · exact h.spawned ch hch
  · intro ch hch
    rw [hnext]
    exact h.spawned ch (hspawned ch hch)

theorem Clean.start (hnew : s.calls s.nextId = none) (frame : Frame) : Clean (s.start frame) := by
  refine h.rest rfl ?_ ?_ (fun _ _ hj => hj) (Nat.le_refl _) h.process h.spawned fun ch x hx => .inr ⟨x, hx, rfl⟩
  · intro n c hc
    rw [show (s.start frame).calls = s.calls.insert s.nextId ⟨frame, .registering, .unresolved⟩ from rfl,
      Table.insert_apply] at hc
    split at hc
    · obtain rfl := Option.some.inj hc
      exact .inr ⟨rfl, nofun⟩
    · exact .inl ⟨c, hc, rfl, rfl⟩
  · intro n c hc
    refine ⟨c, ?_, rfl, rfl⟩
    rw [show (s.start frame).calls = s.calls.insert s.nextId ⟨frame, .registering, .unresolved⟩ from rfl,
      Table.insert_apply, if_neg]
    · exact hc
    · rintro rfl
      rw [hnew] at hc
      contradiction

theorem Clean.slots {g : Nat → Call Value → Slot}
    (hcalls : ∀ n, s'.calls n = (s.calls n).map fun c => { c with slot := g n c })
    (hlock : s'.lockedBy = s.lockedBy) (hpending : ∀ n j, s'.pending n = some j → s.pending n = some j)
    (hnext : s'.nextChild = s.nextChild) (hprocess : s'.process = s.process)
    (hspawned : ∀ ch, s'.supervisor = .spawned ch → s.supervisor = .spawned ch)
    (hchildren : ∀ ch x, s'.children ch = some x → ∃ y, s.children ch = some y ∧ x.stdin = y.stdin) : Clean s' := by
  refine h.rest hlock ?_ ?_ hpending (Nat.le_of_eq hnext.symm) ?_ ?_ fun ch x hx => .inr (hchildren ch x hx)
  · intro n c' hc'
    rw [hcalls] at hc'
    obtain ⟨c, hc, rfl⟩ := map_eq_some_iff.mp hc'
    exact .inl ⟨c, hc, rfl, rfl⟩
  · intro n c hc
    exact ⟨_, (hcalls n).trans (congrArg _ hc), rfl, rfl⟩
  · rw [hprocess, hnext]
    exact h.process
  · intro ch hch
    rw [hnext]
    exact h.spawned ch (hspawned ch hch)

theorem Clean.failPending : Clean s.failPending := by
  refine h.slots (g := fun n c => if s.pending n = some n then .dropped else c.slot) ?_ rfl
    (fun _ _ hj => nomatch hj) rfl rfl (fun _ hch => hch) fun ch x hx => ⟨x, hx, rfl⟩
  intro n
  unfold State.failPending
  simp only
  congr 1
  funext c
  split <;> rfl

theorem Clean.route (k : Nat) (resp : RpcResponse Value) : Clean (s.route k resp) := by
  unfold State.route
  split
  · next id n _ =>
    refine h.slots (g := fun m c => if m = n then .sent k else c.slot) ?_ rfl ?_ rfl rfl (fun _ hch => hch)
      fun ch x hx => ⟨x, hx, rfl⟩
    · intro m
      simp only
      congr 1
      funext c
      split <;> rfl
    · intro m j hj
      simp only [Table.erase_apply] at hj
      split at hj
      · contradiction
      · exact hj
  · exact h

end

theorem release_other {n m : Nat} (hm : m ≠ n) (h : s.lockedBy = some m) : (s.release n).lockedBy = some m := by
  unfold State.release
  simp [h, hm]

variable [Inhabited Value]

theorem Clean.step {a : Action Value} (h : Clean s) (hinv : Inv s) (ha : Tidy s a) (hstep : s.step a = some s') :
    Clean s' := by
  have hsame : ∀ ch x, s.children ch = some x → ∃ y, s.children ch = some y ∧ x.stdin = y.stdin := fun _ x hx => ⟨x, hx, rfl⟩
  cases State.moves_of_step hstep with
  | call frame => exact h.start (hinv.fresh _ (Nat.le_refl _)) frame
  | register hc =>
    refine h.moves hc rfl (by rintro ⟨⟩) (fun _ _ hm => hm) rfl rfl rfl hsame (fun m hm => ?_) rfl rfl
      (by rintro _ _ ⟨⟩) (by rintro ⟨⟩)
    simp only [Table.insert_apply, if_neg hm]
  | lock hc hfree hproc =>
    refine h.moves hc rfl (fun _ => rfl) (fun m _ hm => ?_) rfl rfl rfl hsame (fun _ _ => rfl) rfl rfl ?_
      (by rintro ⟨⟩)
    · rw [hfree] at hm
      contradiction
    · rintro _ _ ⟨⟩
      exact h.process _ hproc
  | lockCleared hc hfree =>
    refine h.moves hc rfl (fun _ => rfl) (fun m _ hm => ?_) rfl rfl rfl hsame (fun _ _ => rfl) rfl rfl
      (by rintro _ _ ⟨⟩) (by rintro ⟨⟩)
    rw [hfree] at hm
    contradiction
  | writePart hc hchild _ hcount => exact h.write hc rfl hchild hcount (.inr rfl)
  | writeAll hc hchild _ hcount hall => exact h.write hc rfl hchild hcount (.inl ⟨hall, rfl⟩)
  | writeFails hc hchild =>
    have hfrom : (s.calls _).any (fun c => c.phase.partly) = false := ha
    rw [hc] at hfrom
    exact h.moves hc rfl (fun _ => h.locked _ _ hc rfl) (fun _ _ hm => hm) rfl rfl rfl (stdin_setChild hchild rfl)
      (fun _ _ => rfl) hfrom rfl (by rintro _ _ ⟨⟩) (by rintro ⟨⟩)
  | flush hc =>
    exact h.moves hc rfl (by rintro ⟨⟩) (fun m hm hlock => release_other hm hlock) rfl rfl rfl hsame (fun _ _ => rfl) rfl rfl
      (by rintro _ _ ⟨⟩) (by rintro ⟨⟩)
  | resolve hc | dropped hc | expire hc =>
    exact h.moves hc rfl (by rintro ⟨⟩) (fun _ _ hm => hm) rfl rfl rfl hsame (fun _ _ => rfl) rfl rfl
      (by rintro _ _ ⟨⟩) (by rintro ⟨⟩)
  | remove hc =>
    refine h.moves hc rfl (by rintro ⟨⟩)
      (fun m hm hlock => release_other hm hlock) rfl rfl rfl hsame (fun m hm => ?_) rfl rfl
      (by rintro _ _ ⟨⟩) (by rintro ⟨⟩)
    simp only [Table.erase_apply, if_neg hm]
  | cancel hc =>
    obtain ⟨hentry, hfrom⟩ := ha
    rw [hc] at hfrom
    exact h.moves hc rfl (by rintro ⟨⟩) (fun m hm hlock => release_other hm hlock) rfl rfl rfl hsame
      (fun _ _ => rfl) hfrom rfl
      (by rintro _ _ ⟨⟩) (fun _ => hentry)
  | read resp hchild | endReader hchild =>
    exact h.elsewhere rfl rfl rfl rfl (fun _ hp => .inl hp) (fun _ hp => hp) (stdin_setChild hchild rfl)
  | deliver hchild =>
    refine Clean.route ?_ _ _
    exact h.elsewhere rfl rfl rfl rfl (fun _ hp => .inl hp) (fun _ hp => hp) (stdin_setChild hchild rfl)
  | reap | giveUp | retry | wakeFails | halt =>
      exact h.elsewhere rfl rfl rfl rfl (fun _ hp => .inl hp) (by rintro _ ⟨⟩) hsame
  | clear => exact h.elsewhere rfl rfl rfl rfl (by rintro _ ⟨⟩) (by rintro _ ⟨⟩) hsame
  | drain => exact h.failPending.elsewhere rfl rfl rfl rfl (fun _ hp => .inl hp) (by rintro _ ⟨⟩) hsame
  | respawn =>
    refine h.rest rfl (fun n c hc => .inl ⟨c, hc, rfl, rfl⟩) (fun n c hc => ⟨c, hc, rfl, rfl⟩) (fun _ _ hj => hj)
      (Nat.le_succ _) (fun ch hch => Nat.lt_succ_of_lt (h.process ch hch)) ?_ fun ch x hx => ?_
    · rintro _ ⟨⟩
      exact Nat.lt_succ_self _
    · simp only [State.setChild, Table.insert_apply] at hx
      split at hx
      · next hch =>
        obtain rfl := Option.some.inj hx
        exact .inl ⟨Nat.le_of_eq hch.symm, rfl⟩
      · exact .inr ⟨x, hx, rfl⟩
  | install hspawned =>
    refine h.elsewhere rfl rfl rfl rfl ?_ (by rintro _ ⟨⟩) hsame
    rintro _ ⟨⟩
    exact .inr hspawned
  | shutdown frame =>
    exact (h.start (hinv.fresh _ (Nat.le_refl _)) frame).elsewhere rfl rfl rfl rfl
      (fun _ hp => .inl hp) (fun _ hp => hp) hsame
  | asked | taken | joined => exact h.elsewhere rfl rfl rfl rfl (fun _ hp => .inl hp) (fun _ hp => hp) hsame
  | cleared => exact h.elsewhere rfl rfl rfl rfl (by rintro _ ⟨⟩) (fun _ hp => hp) hsame
  | drained => exact h.failPending.elsewhere rfl rfl rfl rfl (fun _ hp => .inl hp) (fun _ hp => hp) hsame

end Step

/-! ## runs -/

theorem Clean.spawn (maxRetries : Nat) : Clean (State.spawn Value maxRetries) where
  locked := fun _ _ h => nomatch h
  target := fun _ _ _ _ h => nomatch h
  process := by
    intro ch hch
    obtain rfl := Option.some.inj hch
    exact Nat.zero_lt_one
  spawned := nofun
  streams := by
    intro ch child hch
    simp only [State.spawn, Table.insert_apply] at hch
    split at hch
    · obtain rfl := Option.some.inj hch
      exact ⟨[], [], fun _ hf => absurd hf List.not_mem_nil, rfl, .inl ⟨rfl, fun _ _ _ h => nomatch h⟩⟩
    · contradiction
  gone := fun _ _ h => nomatch h

theorem Clean.wholeFrames (h : Clean s) : s.WholeFrames := by
  intro ch child hch
  obtain ⟨whole, part, hwhole, hstdin, hpart⟩ := h.streams ch child hch
  refine ⟨whole, part, hwhole, hstdin, hpart.imp And.left ?_⟩
  rintro ⟨n, c, written, hc, hp, -, hpart⟩
  exact ⟨n, c, written, hc, hp, hpart⟩

/-- In every run whose cancellations and write failures leave nothing behind, the
bytes written to a child are whole frames and at most the beginning of the one a
call is writing, and a call that has returned or been cancelled has no entry. -/
theorem cancellation_safe [Inhabited Value] {maxRetries : Nat} {acts : List (Action Value)}
    (hexec : exec step (State.spawn Value maxRetries) acts = some s)
    (htidy : Meets step Tidy (State.spawn Value maxRetries) acts) :
    s.WholeFrames ∧ ∀ n c, s.calls n = some c → (c.phase = .cancelled ∨ ∃ out, c.phase = .returned out) →
      s.pending n = none := by
  obtain ⟨hinv, hclean⟩ : Inv s ∧ Clean s :=
    exec_invariant_of_meets (I := fun s => Inv s ∧ Clean s)
      (fun _ _ _ h ha hstep => ⟨h.1.step hstep, h.2.step h.1 ha hstep⟩) hexec htidy ⟨.spawn maxRetries, .spawn maxRetries⟩
  refine ⟨hclean.wholeFrames, fun n c hc hp => ?_⟩
  obtain hp | ⟨out, hp⟩ := hp
  · exact hclean.gone n c hc hp
  · exact hinv.no_entry hc hp

def frameOf (first : UInt8) (rest : Bytes) : Frame :=
  ⟨first :: rest, List.cons_ne_nil first rest⟩

/-- Three calls: one cancelled before it registers, one once its answer is there,
and one half way through its frame. -/
def tidyCalls : List (Action Nat) :=
  [.call (frameOf 1 []), .cancel 1,
    .call (frameOf 2 [2]), .register 2, .lock 2, .write 2 1, .write 2 1, .flush 2,
    .read 0 ⟨some 2, some 5, none, none, none⟩, .deliver 0, .cancel 2,
    .call (frameOf 3 [4]), .register 3, .lock 3, .write 3 1]

theorem cancellation_safe_tidyCalls :
    ∃ s, exec step (State.spawn Nat 0) tidyCalls = some s ∧ s.WholeFrames ∧
      (s.children 0).map Child.stdin = some [2, 2, 3] ∧ s.pending 1 = none ∧ s.pending 2 = none := by
  obtain ⟨s, hexec⟩ := Option.isSome_iff_exists.mp
    (by decide +kernel : (exec step (State.spawn Nat 0) tidyCalls).isSome = true)
  obtain ⟨hwhole, hgone⟩ := cancellation_safe hexec (by decide +kernel)
  have hsee : ∀ {β : Type} (f : State Nat → Option β), f s =
      (exec step (State.spawn Nat 0) tidyCalls).bind f := by
    intro β f
    rw [hexec]
    rfl
  have h₁ := (hsee fun s => (s.calls 1).map Call.phase).trans (by decide +kernel : _ = some .cancelled)
  have h₂ := (hsee fun s => (s.calls 2).map Call.phase).trans (by decide +kernel : _ = some .cancelled)
  obtain ⟨c, hc, hp⟩ := map_eq_some_iff.mp h₁
  obtain ⟨d, hd, hp'⟩ := map_eq_some_iff.mp h₂
  exact ⟨s, hexec, hwhole, (hsee fun s => (s.children 0).map Child.stdin).trans (by decide +kernel),
    hgone 1 c hc (.inl hp), hgone 2 d hd (.inl hp')⟩

/-- A call is cancelled half way through its frame, and another one writes. -/
def cancelledCalls : List (Action Nat) :=
  [.call (frameOf 1 [2]), .register 1, .lock 1, .write 1 1, .cancel 1,
    .call (frameOf 3 [4]), .register 2, .lock 2, .write 2 2]

/-- The child gets half a frame with a whole one behind it, and the cancelled call
keeps its entry. -/
theorem cancelled_mid_frame :
    ∃ s c, exec step (State.spawn Nat 0) cancelledCalls = some s ∧ ¬ s.WholeFrames ∧
      s.calls 1 = some c ∧ c.phase = .cancelled ∧ s.pending 1 = some 1 := by
  obtain ⟨s, hexec⟩ := Option.isSome_iff_exists.mp
    (by decide +kernel : (exec step (State.spawn Nat 0) cancelledCalls).isSome = true)
  have hsee : ∀ {β : Type} (f : State Nat → Option β), f s =
      (exec step (State.spawn Nat 0) cancelledCalls).bind f := by
    intro β f
    rw [hexec]
    rfl
  have h₁ := (hsee fun s => (s.calls 1).map Call.phase).trans (by decide +kernel : _ = some .cancelled)
  obtain ⟨c, hc, hp⟩ := map_eq_some_iff.mp h₁
  refine ⟨s, c, hexec, fun hwhole => ?_, hc, hp, (hsee fun s => s.pending 1).trans (by decide +kernel)⟩
  have h₀ : (s.children 0).map Child.stdin = some [1, 3, 4] :=
    (hsee fun s => (s.children 0).map Child.stdin).trans (by decide +kernel)
  obtain ⟨child, hchild, hstdin⟩ := map_eq_some_iff.mp h₀
  have hnext : some s.nextId = some 3 := (hsee fun s => some s.nextId).trans (by decide +kernel)
  -- there are two calls, with two bytes each, and neither is writing
  have hcalls : ∀ n d, s.calls n = some d → d.frame.1.length = 2 ∧ ∀ ch written, d.phase ≠ .writing ch written := by
    intro n d hd
    have hn : n < 3 := by
      by_contra hge
      have hfresh := (Inv.run hexec).fresh n (by have := Option.some.inj hnext; omega)
      rw [hfresh] at hd
      contradiction
    have hview : ∀ m, m < 3 → ((exec step (State.spawn Nat 0) cancelledCalls).bind fun s => s.calls m).all
        (fun d => decide (d.frame.1.length = 2 ∧ (d.phase = .cancelled ∨ d.phase = .flushing))) = true := by
      decide +kernel
    have hthis := hview n hn
    rw [← hsee (fun s => s.calls n), hd] at hthis
    obtain ⟨hlen, hphase⟩ := of_decide_eq_true hthis
    refine ⟨hlen, fun ch written hp => ?_⟩
    rw [hp] at hphase
    obtain hphase | hphase := hphase <;> contradiction
  obtain ⟨whole, part, hframes, heq, hpart⟩ := hwhole 0 child hchild
  obtain rfl : part = [] := by
    obtain hpart | ⟨n, d, written, hd, hp', -⟩ := hpart
    · exact hpart
    · exact absurd hp' ((hcalls n d hd).2 0 written)
  -- so that an even number of bytes should have been written
  have htwo : ∀ b ∈ (whole.map Subtype.val).map List.length, b = 2 := by
    simp only [List.map_map, List.mem_map, Function.comp_apply]
    rintro b ⟨frame, hf, rfl⟩
    obtain ⟨n, d, hd, rfl⟩ := hframes frame hf
    exact (hcalls n d hd).1
  have hlen := congrArg List.length heq
  rw [hstdin, List.append_nil, List.length_flatten, List.eq_replicate_of_mem htwo, List.sum_replicate] at hlen
  simp at hlen
  omega

end SmithsNet.Sidecar
