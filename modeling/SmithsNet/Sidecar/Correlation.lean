import SmithsNet.Sidecar.Supervisor

/-!
# SmithsNet.Sidecar.Correlation

Responses find their callers.

`calls_correlated`: in every run, what a call returns is an error of its own or
what a frame with its id says that was routed while the call was outstanding; no
frame goes to two calls; a call that has returned has no entry in the map; and
once the pending calls have been failed, none that was outstanding then still
waits for something.
`response_before_request`: a frame may be taken from the pipe before the call it
answers is made.
-/

namespace SmithsNet.Sidecar

open Lib State Option Table

variable {Value : Type}

/-- An error that no frame brought. -/
def Outcome.own : Outcome Value → Bool
  | .closed | .io | .timeout => true
  | .ok _ | .plugin _ _ => false

/-- The call is in the map's hands: it has registered and has no outcome yet. -/
def Phase.unsettled : Phase Value → Bool
  | .locking | .writing _ _ | .flushing | .waiting => true
  | .registering | .removing _ _ | .returned _ | .cancelled => false

/-- It has registered and not returned. -/
def Phase.outstanding : Phase Value → Bool
  | .locking | .writing _ _ | .flushing | .waiting | .removing _ _ => true
  | .registering | .returned _ | .cancelled => false

/-- It has its outcome, or nobody to give it to. -/
def Phase.settled : Phase Value → Bool
  | .removing _ _ | .returned _ | .cancelled => true
  | .registering | .locking | .writing _ _ | .flushing | .waiting => false

/-- There is something for it: a frame, word that there will be none, or its outcome. -/
def Call.Resolved (c : Call Value) : Prop := c.slot ≠ .unresolved ∨ c.phase.settled = true

/-- The pending calls are failed: a child's death has been dealt with, or a shutdown. -/
def Action.Fails (s : State Value) : Action Value → Prop
  | .drain _ => True
  | .shut i => s.shutdowns[i]? = some .draining
  | _ => False

def State.Outstanding (s : State Value) (n : Nat) : Prop :=
  ∃ c, s.calls n = some c ∧ c.phase.outstanding = true

/-- What a call returns is its own error, or what the frame it was sent says. -/
def State.Answered [Inhabited Value] (s : State Value) (c : Call Value) (out : Outcome Value) : Prop :=
  out.own = true ∨ ∃ k resp, c.slot = .sent k ∧ s.frames[k]? = some resp ∧ out = resp.outcome

def State.readerOf (s : State Value) (ch : Nat) : Option Reader := (s.children ch).map Child.reader

structure Inv [Inhabited Value] (s : State Value) : Prop where
  fresh : ∀ n, s.nextId ≤ n → s.calls n = none
  /-- An entry is of the call with its id, which has registered and not returned. -/
  own : ∀ id n, s.pending id = some n → n = id ∧ ∃ c, s.calls n = some c ∧ c.slot = .unresolved ∧
    c.phase ≠ .registering ∧ ∀ out, c.phase ≠ .returned out
  begun : ∀ n c, s.calls n = some c → c.phase = .registering → c.slot = .unresolved
  /-- Nobody waits for a sender that is not in the map. -/
  waits : ∀ n c, s.calls n = some c → c.phase.unsettled = true → c.slot = .unresolved → s.pending n = some n
  sent : ∀ n c k, s.calls n = some c → c.slot = .sent k → ∃ resp, s.frames[k]? = some resp ∧ resp.id = some n
  once : ∀ n m c d k, s.calls n = some c → s.calls m = some d → c.slot = .sent k → d.slot = .sent k → n = m
  removing : ∀ n c out holding, s.calls n = some c → c.phase = .removing out holding → out.own = true
  returned : ∀ n c out, s.calls n = some c → c.phase = .returned out → s.Answered c out
  /-- A frame in a reader's hands has gone to nobody, and is in one reader's hands. -/
  held : ∀ ch k, s.readerOf ch = some (.holding k) → k < s.frames.length ∧
    (∀ n c, s.calls n = some c → c.slot ≠ .sent k) ∧
    ∀ ch', s.readerOf ch' = some (.holding k) → ch' = ch

variable {s s' : State Value}

theorem readerOf_setChild (s : State Value) (c : Nat) (child : Child) (ch : Nat) :
    (s.setChild c child).readerOf ch = if ch = c then some child.reader else s.readerOf ch := by
  unfold readerOf setChild
  simp only [insert_apply]
  split <;> rfl

variable {a : Action Value} {c : Call Value} {child : Child} {acts : List (Action Value)}
    {n k maxRetries : Nat} {p : Phase Value} {resp : RpcResponse Value}

theorem readerOf_setChild_same {c : Nat} {child' : Child} (hc : s.children c = some child)
    (hsame : child'.reader = child.reader) (ch : Nat) :
    (s.setChild c child').readerOf ch = s.readerOf ch := by
  rw [readerOf_setChild]
  split
  · next hch =>
    subst hch
    rw [readerOf, hc, hsame]
    rfl
  · rfl

theorem readerOf_setChild_free {c : Nat} (hfree : ∀ k, child.reader ≠ .holding k) (ch k : Nat)
    (hk : (s.setChild c child).readerOf ch = some (.holding k)) : s.readerOf ch = some (.holding k) := by
  rw [readerOf_setChild] at hk
  split at hk
  · exact absurd (Option.some.inj hk) (hfree k)
  · exact hk

theorem calls_route_setChild (s : State Value) (c : Nat) (child : Child) (k : Nat) (resp : RpcResponse Value) :
    ((s.setChild c child).route k resp).calls = (s.route k resp).calls := by
  unfold State.route
  simp only [setChild]
  split <;> rfl

theorem frames_route (s : State Value) (k : Nat) (resp : RpcResponse Value) : (s.route k resp).frames = s.frames := by
  unfold State.route
  split <;> rfl

variable [Inhabited Value]

theorem Inv.rest (h : Inv s) (hnext : s'.nextId = s.nextId) (hcalls : s'.calls = s.calls)
    (hpending : s'.pending = s.pending) (hframes : s'.frames = s.frames)
    (hreaders : ∀ ch k, s'.readerOf ch = some (.holding k) → s.readerOf ch = some (.holding k)) :
    Inv s' where
  fresh := by rw [hnext, hcalls]; exact h.fresh
  own := by rw [hpending, hcalls]; exact h.own
  begun := by rw [hcalls]; exact h.begun
  waits := by rw [hpending, hcalls]; exact h.waits
  sent := by rw [hframes, hcalls]; exact h.sent
  once := by rw [hcalls]; exact h.once
  removing := by rw [hcalls]; exact h.removing
  returned := by
    unfold State.Answered
    rw [hframes, hcalls]
    exact h.returned
  held := by
    rw [hframes, hcalls]
    intro ch k hk
    obtain ⟨hlt, hnobody, hone⟩ := h.held ch k (hreaders ch k hk)
    exact ⟨hlt, hnobody, fun ch' hk' => hone ch' (hreaders ch' k hk')⟩

section

variable (h : Inv s) (hc : s.calls n = some c)
include h hc

/-- A call moves on, and may enter or take out its entry; channels and frames stay
as they are. -/
theorem Inv.phase
    (hcalls : s'.calls = s.calls.insert n { c with phase := p }) (hnext : s'.nextId = s.nextId)
    (hframes : s'.frames = s.frames) (hreaders : ∀ ch, s'.readerOf ch = s.readerOf ch)
    (hpending : ∀ m, m ≠ n → s'.pending m = s.pending m) (hentry : ∀ j, s'.pending n = some j →
      j = n ∧ c.slot = .unresolved ∧ ∀ out, p ≠ .returned out)
    (hwaits : p.unsettled = true → c.slot = .unresolved → s'.pending n = some n)
    (hbegun : p ≠ .registering)
    (hremoving : ∀ out holding, p = .removing out holding → out.own = true)
    (hreturned : ∀ out, p = .returned out → s.Answered c out) : Inv s' := by
  have hself : s'.calls n = some { c with phase := p } := by rw [hcalls, insert_self]
  have hother : ∀ m, m ≠ n → s'.calls m = s.calls m := by
    intro m hm
    rw [hcalls, insert_apply, if_neg hm]
  -- every call was there before, with the same channel
  have hold : ∀ m d, s'.calls m = some d → ∃ d', s.calls m = some d' ∧ d.slot = d'.slot := by
    intro m d hd
    by_cases hm : m = n
    · subst hm
      obtain rfl := mem_unique hself hd
      exact ⟨c, hc, rfl⟩
    · exact ⟨d, (hother m hm).symm.trans hd, rfl⟩
  constructor
  · intro m hm
    rw [hnext] at hm
    by_cases hmn : m = n
    · subst hmn
      rw [h.fresh m hm] at hc
      contradiction
    · rw [hother m hmn, h.fresh m hm]
  · intro id m hm
    by_cases hid : id = n
    · subst hid
      obtain ⟨rfl, hslot, hnot⟩ := hentry m hm
      exact ⟨rfl, _, hself, hslot, hbegun, hnot⟩
    · rw [hpending id hid] at hm
      obtain ⟨rfl, hd⟩ := h.own id m hm
      exact ⟨rfl, by rwa [hother m hid]⟩
  · intro m d hd hphase
    by_cases hm : m = n
    · subst hm
      obtain rfl := mem_unique hself hd
      exact absurd hphase hbegun
    · exact h.begun m d ((hother m hm).symm.trans hd) hphase
  · intro m d hd hphase hslot
    by_cases hm : m = n
    · subst hm
      obtain rfl := mem_unique hself hd
      exact hwaits hphase hslot
    · rw [hpending m hm]
      exact h.waits m d ((hother m hm).symm.trans hd) hphase hslot
  · intro m d k hd hslot
    rw [hframes]
    obtain ⟨d', hd', hsame⟩ := hold m d hd
    exact h.sent m d' k hd' (hsame ▸ hslot)
  · intro m m' d e k hd he hslot hslot'
    obtain ⟨d', hd', hsame⟩ := hold m d hd
    obtain ⟨e', he', hsame'⟩ := hold m' e he
    exact h.once m m' d' e' k hd' he' (hsame ▸ hslot) (hsame' ▸ hslot')
  · intro m d out holding hd hphase
    by_cases hm : m = n
    · subst hm
      obtain rfl := mem_unique hself hd
      exact hremoving out holding hphase
    · exact h.removing m d out holding ((hother m hm).symm.trans hd) hphase
  · intro m d out hd hphase
    unfold State.Answered
    rw [hframes]
    by_cases hm : m = n
    · subst hm
      obtain rfl := mem_unique hself hd
      exact hreturned out hphase
    · exact h.returned m d out ((hother m hm).symm.trans hd) hphase
  · intro ch k hk
    rw [hreaders] at hk
    obtain ⟨hlt, hnobody, hone⟩ := h.held ch k hk
    refine ⟨by rwa [hframes], fun m d hd => ?_, fun ch' hk' => hone ch' (by rwa [← hreaders])⟩
    obtain ⟨d', hd', hsame⟩ := hold m d hd
    rw [hsame]
    exact hnobody m d' hd'

theorem Inv.entry : ∀ j, s.pending n = some j → j = n ∧ c.slot = .unresolved := by
  intro j hj
  obtain ⟨rfl, d, hd, hslot, -⟩ := h.own n j hj
  obtain rfl := mem_unique hc hd
  exact ⟨rfl, hslot⟩

theorem Inv.no_entry {out : Outcome Value} (hp : c.phase = .returned out) : s.pending n = none := by
  cases hentry : s.pending n with
  | none => rfl
  | some m =>
    obtain ⟨rfl, d, hd, -, -, hnot⟩ := h.own n m hentry
    obtain rfl := mem_unique hc hd
    exact absurd hp (hnot out)

end

theorem Inv.start (h : Inv s) {frame : Frame}
    (hcalls : s'.calls = s.calls.insert s.nextId ⟨frame, .registering, .unresolved⟩)
    (hnext : s'.nextId = s.nextId + 1) (hpending : s'.pending = s.pending) (hframes : s'.frames = s.frames)
    (hreaders : ∀ ch, s'.readerOf ch = s.readerOf ch) : Inv s' := by
  have hnew : s.calls s.nextId = none := h.fresh _ (Nat.le_refl _)
  have hold : ∀ m d, s'.calls m = some d →
      m = s.nextId ∧ d = ⟨frame, .registering, .unresolved⟩ ∨ m ≠ s.nextId ∧ s.calls m = some d := by
    intro m d hd
    rw [hcalls, insert_apply] at hd
    split at hd
    · next hm => exact .inl ⟨hm, (Option.some.inj hd).symm⟩
    · next hm => exact .inr ⟨hm, hd⟩
  constructor
  · intro m hm
    rw [hnext] at hm
    rw [hcalls, insert_apply, if_neg (by omega)]
    exact h.fresh m (by omega)
  · intro id m hm
    rw [hpending] at hm
    obtain ⟨rfl, d, hd, hrest⟩ := h.own id m hm
    refine ⟨rfl, d, ?_, hrest⟩
    rw [hcalls, insert_apply, if_neg]
    · exact hd
    · rintro rfl
      rw [hnew] at hd
      contradiction
  · intro m d hd hphase
    obtain ⟨-, rfl⟩ | ⟨-, hd⟩ := hold m d hd
    · rfl
    · exact h.begun m d hd hphase
  · intro m d hd hphase hslot
    obtain ⟨-, rfl⟩ | ⟨-, hd⟩ := hold m d hd
    · contradiction
    · rw [hpending]
      exact h.waits m d hd hphase hslot
  · intro m d k hd hslot
    rw [hframes]
    obtain ⟨-, rfl⟩ | ⟨-, hd⟩ := hold m d hd
    · contradiction
    · exact h.sent m d k hd hslot
  · intro m m' d e k hd he hslot hslot'
    obtain ⟨-, rfl⟩ | ⟨-, hd⟩ := hold m d hd
    · contradiction
    · obtain ⟨-, rfl⟩ | ⟨-, he⟩ := hold m' e he
      · contradiction
      · exact h.once m m' d e k hd he hslot hslot'
  · intro m d out holding hd hphase
    obtain ⟨-, rfl⟩ | ⟨-, hd⟩ := hold m d hd
    · contradiction
    · exact h.removing m d out holding hd hphase
  · intro m d out hd hphase
    unfold State.Answered
    rw [hframes]
    obtain ⟨-, rfl⟩ | ⟨-, hd⟩ := hold m d hd
    · contradiction
    · exact h.returned m d out hd hphase
  · intro ch k hk
    rw [hreaders] at hk
    obtain ⟨hlt, hnobody, hone⟩ := h.held ch k hk
    refine ⟨by rwa [hframes], fun m d hd => ?_, fun ch' hk' => hone ch' (by rwa [← hreaders])⟩
    obtain ⟨-, rfl⟩ | ⟨-, hd⟩ := hold m d hd
    · exact Slot.noConfusion
    · exact hnobody m d hd

theorem Inv.slots (h : Inv s) {g : Nat → Slot → Slot}
    (hcalls : ∀ m, s'.calls m = (s.calls m).map fun c => { c with slot := g m c.slot })
    (hnext : s'.nextId = s.nextId) (hframes : s'.frames = s.frames)
    (hreaders : ∀ ch k, s'.readerOf ch = some (.holding k) → s.readerOf ch = some (.holding k))
    (hpending : ∀ m j, s'.pending m = some j → s.pending m = some j)
    (hkept : ∀ m, s'.pending m = s.pending m ∧ (∀ slot, g m slot = slot) ∨
      s.pending m = some m ∧ s'.pending m = none ∧ ∀ slot, g m slot ≠ .unresolved)
    (hsent : ∀ m slot k, g m slot = .sent k → slot = .sent k ∨
      (∃ resp, s.frames[k]? = some resp ∧ resp.id = some m) ∧ (∃ ch, s.readerOf ch = some (.holding k)) ∧
        (∀ ch, s'.readerOf ch ≠ some (.holding k)) ∧
        ∀ m' slot', g m' slot' = .sent k → slot' = .sent k ∨ m' = m) :
    Inv s' := by
  have hold : ∀ m d, s'.calls m = some d → ∃ d', s.calls m = some d' ∧ d.phase = d'.phase ∧
      d.slot = g m d'.slot := by
    intro m d hd
    rw [hcalls] at hd
    obtain ⟨d', hd', rfl⟩ := map_eq_some_iff.mp hd
    exact ⟨d', hd', rfl, rfl⟩
  constructor
  · intro m hm
    rw [hnext] at hm
    rw [hcalls, h.fresh m hm]
    rfl
  · intro id m hm
    obtain ⟨rfl, d, hd, hslot, hrest⟩ := h.own id m (hpending id m hm)
    refine ⟨rfl, { d with slot := g m d.slot }, by rw [hcalls, hd]; rfl, ?_, hrest⟩
    obtain ⟨-, hg⟩ | ⟨-, hnone, -⟩ := hkept m
    · exact (hg _).trans hslot
    · rw [hnone] at hm
      contradiction
  · intro m d hd hphase
    obtain ⟨d', hd', hsame, hslot⟩ := hold m d hd
    have hunresolved := h.begun m d' hd' (hsame ▸ hphase)
    obtain ⟨-, hg⟩ | ⟨hentry, -, -⟩ := hkept m
    · rw [hslot, hg, hunresolved]
    · -- a call that has not registered has no entry
      obtain ⟨-, e, he, -, hnot, -⟩ := h.own m m hentry
      obtain rfl := mem_unique hd' he
      exact absurd (hsame ▸ hphase) hnot
  · intro m d hd hphase hslot
    obtain ⟨d', hd', hsame, hslot'⟩ := hold m d hd
    obtain ⟨hp, hg⟩ | ⟨-, -, hg⟩ := hkept m
    · rw [hp]
      rw [hslot', hg] at hslot
      exact h.waits m d' hd' (hsame ▸ hphase) hslot
    · exact absurd (hslot'.symm.trans hslot) (hg _)
  · intro m d k hd hslot
    rw [hframes]
    obtain ⟨d', hd', -, hslot'⟩ := hold m d hd
    obtain hwas | ⟨hresp, -⟩ := hsent m d'.slot k (hslot'.symm.trans hslot)
    · exact h.sent m d' k hd' hwas
    · exact hresp
  · intro m m' d e k hd he hslot hslot'
    obtain ⟨d', hd', -, hg⟩ := hold m d hd
    obtain ⟨e', he', -, hg'⟩ := hold m' e he
    have hsend := hg.symm.trans hslot
    have hsend' := hg'.symm.trans hslot'
    obtain hwas | ⟨-, ⟨ch, hch⟩, -, hone⟩ := hsent m d'.slot k hsend
    · obtain hwas' | ⟨-, ⟨ch, hch⟩, -, hone⟩ := hsent m' e'.slot k hsend'
      · exact h.once m m' d' e' k hd' he' hwas hwas'
      · exact absurd hwas ((h.held ch k hch).2.1 m d' hd')
    · obtain hwas' | rfl := hone m' e'.slot hsend'
      · exact absurd hwas' ((h.held ch k hch).2.1 m' e' he')
      · rfl
  · intro m d out holding hd hphase
    obtain ⟨d', hd', hsame, -⟩ := hold m d hd
    exact h.removing m d' out holding hd' (hsame ▸ hphase)
  · intro m d out hd hphase
    obtain ⟨d', hd', hsame, hslot⟩ := hold m d hd
    have hanswered := h.returned m d' out hd' (hsame ▸ hphase)
    obtain ⟨-, hg⟩ | ⟨hentry, -, -⟩ := hkept m
    · unfold State.Answered
      rw [hframes, hslot, hg]
      exact hanswered
    · obtain ⟨-, e, he, -, -, hnot⟩ := h.own m m hentry
      obtain rfl := mem_unique hd' he
      exact absurd (hsame ▸ hphase) (hnot out)
  · intro ch k hk
    obtain ⟨hlt, hnobody, hone⟩ := h.held ch k (hreaders ch k hk)
    refine ⟨by rwa [hframes], fun m d hd hslot => ?_, fun ch' hk' => hone ch' (hreaders ch' k hk')⟩
    obtain ⟨d', hd', -, hg⟩ := hold m d hd
    obtain hwas | ⟨-, -, hfree, -⟩ := hsent m d'.slot k (hg.symm.trans hslot)
    · exact hnobody m d' hd' hwas
    · exact hfree ch hk

theorem Inv.read (h : Inv s) {ch : Nat} (hnext : s'.nextId = s.nextId)
    (hcalls : s'.calls = s.calls) (hpending : s'.pending = s.pending) (hframes : s'.frames = s.frames ++ [resp])
    (hreaders : ∀ ch', s'.readerOf ch' =
      if ch' = ch then some (.holding s.frames.length) else s.readerOf ch') : Inv s' := by
  have hkept : ∀ {k : Nat} {resp'}, s.frames[k]? = some resp' → s'.frames[k]? = some resp' := by
    intro k resp' hk
    rw [hframes, List.getElem?_append_left (List.getElem?_eq_some_iff.mp hk).1]
    exact hk
  constructor
  · rw [hnext, hcalls]
    exact h.fresh
  · rw [hpending, hcalls]
    exact h.own
  · rw [hcalls]
    exact h.begun
  · rw [hpending, hcalls]
    exact h.waits
  · rw [hcalls]
    intro n c k hc hslot
    obtain ⟨resp', hk, hid⟩ := h.sent n c k hc hslot
    exact ⟨resp', hkept hk, hid⟩
  · rw [hcalls]
    exact h.once
  · rw [hcalls]
    exact h.removing
  · rw [hcalls]
    intro n c out hc hphase
    obtain hown | ⟨k, resp', hslot, hk, hout⟩ := h.returned n c out hc hphase
    · exact .inl hown
    · exact .inr ⟨k, resp', hslot, hkept hk, hout⟩
  · -- the new frame's number is beyond those that were sent or held
    have hnew : ∀ ch', s.readerOf ch' ≠ some (.holding s.frames.length) := by
      intro ch' hk
      exact absurd (h.held ch' _ hk).1 (Nat.lt_irrefl _)
    intro ch₁ k hk
    rw [hframes, hcalls, List.length_append, List.length_singleton]
    rw [hreaders] at hk
    split at hk
    · next hch =>
      subst hch
      obtain rfl : s.frames.length = k := Reader.holding.inj (Option.some.inj hk)
      refine ⟨Nat.lt_succ_self _, fun n c hc hslot => ?_, fun ch' hk' => ?_⟩
      · obtain ⟨resp', hsome, -⟩ := h.sent n c _ hc hslot
        simp at hsome
      · rw [hreaders] at hk'
        split at hk'
        · assumption
        · exact absurd hk' (hnew ch')
    · obtain ⟨hlt, hnobody, hone⟩ := h.held ch₁ k hk
      refine ⟨by omega, hnobody, fun ch' hk' => ?_⟩
      rw [hreaders] at hk'
      split at hk'
      · obtain rfl : s.frames.length = k := Reader.holding.inj (Option.some.inj hk')
        exact absurd hlt (Nat.lt_irrefl _)
      · exact hone ch' hk'

/-! ## steps -/

theorem Inv.spawn (maxRetries : Nat) : Inv (State.spawn Value maxRetries) where
  fresh := fun _ _ => rfl
  own := fun _ _ h => nomatch h
  begun := fun _ _ h => nomatch h
  waits := fun _ _ h => nomatch h
  sent := fun _ _ _ h => nomatch h
  once := fun _ _ _ _ _ h => nomatch h
  removing := fun _ _ _ _ h => nomatch h
  returned := fun _ _ _ h => nomatch h
  held := by
    intro ch k hk
    have hfree : ∀ k', Child.fresh.reader ≠ .holding k' := fun _ => Reader.noConfusion
    have hk := readerOf_setChild_free (s := { State.spawn Value maxRetries with children := .empty }) (c := 0) hfree ch k hk
    contradiction

theorem Inv.failPending (h : Inv s) : Inv s.failPending := by
  refine h.slots (g := fun m slot => if s.pending m = some m then .dropped else slot) ?_ rfl rfl
    (fun _ _ hk => hk) (fun _ _ hm => nomatch hm) ?_ ?_
  · intro m
    unfold State.failPending
    simp only
    congr 1
    funext c
    split <;> rfl
  · intro m
    cases hm : s.pending m with
    | none => exact .inl ⟨rfl, fun slot => by simp⟩
    | some j =>
      obtain ⟨rfl, -⟩ := h.own m j hm
      exact .inr ⟨rfl, rfl, fun slot => by simp⟩
  · intro m slot k hk
    split at hk
    · contradiction
    · exact .inl hk

theorem Inv.route (h : Inv s) {c : Nat}
    (hc : s.children c = some child) (hholding : child.reader = .holding k) (hk : s.frames[k]? = some resp) :
    Inv ((s.setChild c { child with reader := .reading }).route k resp) := by
  have hreader : s.readerOf c = some (.holding k) := by
    rw [readerOf, hc, ← hholding]
    rfl
  have hkept : ∀ ch k', (s.setChild c { child with reader := .reading }).readerOf ch = some (.holding k') →
      s.readerOf ch = some (.holding k') := readerOf_setChild_free (fun _ => Reader.noConfusion)
  unfold State.route
  split
  · next id n hfound =>
    obtain ⟨id', hid, hentry⟩ := bind_eq_some_iff.mp hfound
    obtain ⟨n', hn', heq⟩ := map_eq_some_iff.mp hentry
    obtain ⟨rfl, rfl⟩ := Prod.mk.inj heq
    obtain ⟨rfl, -⟩ := h.own _ _ hn'
    refine h.slots (g := fun m slot => if m = n' then .sent k else slot) ?_ rfl rfl hkept ?_ ?_ ?_
    · intro m
      simp only [setChild]
      congr 1
      funext d
      split <;> rfl
    · intro m j hm
      simp only [setChild, erase_apply] at hm
      split at hm
      · contradiction
      · exact hm
    · intro m
      simp only [setChild, erase_apply]
      by_cases hm : m = n'
      · subst hm
        exact .inr ⟨hn', if_pos rfl, fun slot => by simp⟩
      · exact .inl ⟨if_neg hm, fun slot => if_neg hm⟩
    · intro m slot k' hsent
      split at hsent
      · next hm =>
        subst hm
        obtain rfl := Slot.sent.inj hsent
        refine .inr ⟨⟨resp, hk, hid⟩, ⟨c, hreader⟩, fun ch hch => ?_, fun m' slot' hsent' => ?_⟩
        · -- the reader that held it was the only one
          obtain rfl := (h.held c k hreader).2.2 ch (hkept ch k hch)
          have hnow := readerOf_setChild s ch { child with reader := .reading } ch
          rw [if_pos rfl] at hnow
          exact Reader.noConfusion (mem_unique hnow hch)
        · split at hsent'
          · next hm => exact .inr hm
          · exact .inl hsent'
      · exact .inl hsent
  · exact h.rest rfl rfl rfl rfl hkept

theorem Inv.moves (h : Inv s) (hc : s.calls n = some c)
    (hcalls : s'.calls = s.calls.insert n { c with phase := p }) (hnext : s'.nextId = s.nextId)
    (hframes : s'.frames = s.frames) (hreaders : ∀ ch, s'.readerOf ch = s.readerOf ch)
    (hpending : s'.pending = s.pending) (hfrom : p.unsettled = true → c.phase.unsettled = true)
    (hto : p ≠ .registering ∧ ∀ out, p ≠ .returned out)
    (hremoving : ∀ out holding, p = .removing out holding → out.own = true) : Inv s' := by
  refine h.phase hc hcalls hnext hframes hreaders (fun m _ => by rw [hpending]) ?_ ?_ hto.1 hremoving
    (fun out hp => absurd hp (hto.2 out))
  · intro j hj
    rw [hpending] at hj
    obtain ⟨rfl, hslot⟩ := h.entry hc j hj
    exact ⟨rfl, hslot, hto.2⟩
  · intro hp hslot
    rw [hpending]
    exact h.waits n c hc (hfrom hp) hslot

theorem Inv.step (h : Inv s) (hstep : s.step a = some s') : Inv s' := by
  cases State.moves_of_step hstep with
  | call frame | shutdown frame => exact h.start rfl rfl rfl rfl fun _ => rfl
  | register hc =>
    have hslot := h.begun _ _ hc rfl
    refine h.phase hc rfl rfl rfl (fun _ => rfl) (fun m hm => ?_) (fun j hj => ?_) (fun _ _ => insert_self _ _ _)
      (by rintro ⟨⟩) (by rintro _ _ ⟨⟩) (by rintro _ ⟨⟩)
    · simp only [insert_apply, if_neg hm]
    · simp only [insert_self] at hj
      exact ⟨(Option.some.inj hj).symm, hslot, by rintro _ ⟨⟩⟩
  | lock hc | flush hc =>
    exact h.moves hc rfl rfl rfl (fun _ => rfl) rfl (fun _ => rfl) ⟨by rintro ⟨⟩, by rintro _ ⟨⟩⟩ (by rintro _ _ ⟨⟩)
  | writePart hc hchild | writeAll hc hchild =>
    exact h.moves hc rfl rfl rfl (readerOf_setChild_same hchild rfl) rfl (fun _ => rfl) ⟨by rintro ⟨⟩, by rintro _ ⟨⟩⟩
      (by rintro _ _ ⟨⟩)
  | lockCleared hc | dropped hc | expire hc =>
    exact h.moves hc rfl rfl rfl (fun _ => rfl) rfl (fun _ => rfl) ⟨by rintro ⟨⟩, by rintro _ ⟨⟩⟩ (by rintro _ _ ⟨⟩; rfl)
  | writeFails hc hchild =>
    exact h.moves hc rfl rfl rfl (readerOf_setChild_same hchild rfl) rfl (fun _ => rfl) ⟨by rintro ⟨⟩, by rintro _ ⟨⟩⟩
      (by rintro _ _ ⟨⟩; rfl)
  | resolve hc hk =>
    refine h.phase hc rfl rfl rfl (fun _ => rfl) (fun _ _ => rfl) (fun j hj => Slot.noConfusion (h.entry hc j hj).2)
      Bool.noConfusion (by rintro ⟨⟩) (by rintro _ _ ⟨⟩) ?_
    rintro _ ⟨⟩
    exact .inr ⟨_, _, rfl, hk, rfl⟩
  | remove hc =>
    refine h.phase hc rfl rfl rfl (fun _ => rfl) (fun m hm => ?_) (fun j hj => ?_) Bool.noConfusion (by rintro ⟨⟩)
      (by rintro _ _ ⟨⟩) ?_
    · simp only [erase_apply, if_neg hm]
    · simp only [erase_apply] at hj
      contradiction
    · rintro _ ⟨⟩
      exact .inl (h.removing _ _ _ _ hc rfl)
  | cancel hc =>
    exact h.moves hc rfl rfl rfl (fun _ => rfl) rfl Bool.noConfusion ⟨by rintro ⟨⟩, by rintro _ ⟨⟩⟩ (by rintro _ _ ⟨⟩)
  | read resp hchild => exact h.read rfl rfl rfl rfl (readerOf_setChild s _ _)
  | deliver hchild hk => exact h.route hchild rfl hk
  | endReader | respawn => exact h.rest rfl rfl rfl rfl (readerOf_setChild_free fun _ => Reader.noConfusion)
  | drain | drained => exact h.failPending.rest rfl rfl rfl rfl fun _ _ hk => hk
  | _ => exact h.rest rfl rfl rfl rfl fun _ _ hk => hk

/-! ## one call along a run -/

/-- What a step does to the calls: one begins, one moves on, all the pending ones
are failed, or a frame is routed. -/
theorem step_calls (hstep : s.step a = some s') : s'.calls = s.calls ∨
    (∃ frame, s'.calls = s.calls.insert s.nextId ⟨frame, .registering, .unresolved⟩) ∨
    (∃ n c p, s.calls n = some c ∧ s'.calls = s.calls.insert n { c with phase := p } ∧
      (c.phase.settled = true → p.settled = true) ∧ c.phase ≠ .cancelled) ∨
    (s'.calls = s.failPending.calls) ∨
    ∃ ch k resp, a = .deliver ch ∧ s.readerOf ch = some (.holding k) ∧ s.frames[k]? = some resp ∧
      s'.calls = (s.route k resp).calls := by
  cases State.moves_of_step hstep with
  | call frame | shutdown frame => exact .inr (.inl ⟨frame, rfl⟩)
  | register hc | lock hc | lockCleared hc | writePart hc | writeAll hc | writeFails hc | flush hc | resolve hc | dropped hc
  | expire hc => exact .inr (.inr (.inl ⟨_, _, _, hc, rfl, nofun, nofun⟩))
  | remove hc => exact .inr (.inr (.inl ⟨_, _, _, hc, rfl, fun _ => rfl, nofun⟩))
  | cancel hc hlive => exact .inr (.inr (.inl ⟨_, _, _, hc, rfl, fun _ => rfl, hlive⟩))
  | deliver hchild hk =>
    refine .inr (.inr (.inr (.inr ⟨_, _, _, rfl, ?_, hk, calls_route_setChild _ _ _ _ _⟩)))
    rw [readerOf, hchild]
    rfl
  | drain | drained => exact .inr (.inr (.inr (.inl rfl)))
  | _ => exact .inl rfl

theorem frames_step (hstep : s.step a = some s') :
    s'.frames = s.frames ∨ ∃ ch resp, a = .read ch resp ∧ s'.frames = s.frames ++ [resp] := by
  cases State.moves_of_step hstep with
  | read resp => exact .inr ⟨_, resp, rfl, rfl⟩
  | deliver => exact .inl (frames_route _ _ _)
  | _ => exact .inl rfl

theorem frames_run (hexec : exec State.step s acts = some s')
    (hk : s.frames[k]? = some resp) : s'.frames[k]? = some resp := by
  refine exec_invariant (I := fun s => s.frames[k]? = some resp) ?_ hexec hk
  intro s a s' hk hstep
  obtain hsame | ⟨_, resp', -, hmore⟩ := frames_step hstep
  · rwa [hsame]
  · rw [hmore, List.getElem?_append_left (List.getElem?_eq_some_iff.mp hk).1]
    exact hk

section

variable (h : Inv s) (hstep : s.step a = some s')
include h hstep

theorem Inv.follows (hc : s.calls n = some c) :
    ∃ c', s'.calls n = some c' ∧ (c.Resolved → c'.Resolved) ∧ (c.phase = .cancelled → c'.phase = .cancelled) := by
  obtain hcalls | ⟨frame, hcalls⟩ | ⟨m, d, p, hd, hcalls, hsettled, hlive⟩ | hcalls | ⟨ch, k, resp, -, -, -, hcalls⟩ :=
    step_calls hstep
  · rw [hcalls]
    exact ⟨c, hc, id, id⟩
  · rw [hcalls, insert_apply, if_neg]
    · exact ⟨c, hc, id, id⟩
    · rintro rfl
      rw [h.fresh _ (Nat.le_refl _)] at hc
      contradiction
  · rw [hcalls, insert_apply]
    split
    · next hnm =>
      subst hnm
      obtain rfl := mem_unique hc hd
      exact ⟨_, rfl, Or.imp id hsettled, fun hp => absurd hp hlive⟩
    · exact ⟨c, hc, id, id⟩
  · rw [hcalls]
    refine ⟨_, map_eq_some_iff.mpr ⟨c, hc, rfl⟩, ?_, ?_⟩
    · intro hresolved
      split
      · exact .inl Slot.noConfusion
      · exact hresolved
    · intro hp
      split <;> exact hp
  · rw [hcalls]
    unfold State.route
    split
    · refine ⟨_, map_eq_some_iff.mpr ⟨c, hc, rfl⟩, ?_, ?_⟩
      · intro hresolved
        split
        · exact .inl Slot.noConfusion
        · exact hresolved
      · intro hp
        split <;> exact hp
    · exact ⟨c, hc, id, id⟩

theorem Inv.sent_of_step {c' : Call Value}
    (hc' : s'.calls n = some c') (hslot : c'.slot = .sent k) (hlive : c'.phase ≠ .cancelled) :
    (∃ c, s.calls n = some c ∧ c.slot = .sent k ∧ c.phase ≠ .cancelled) ∨
    ∃ ch resp, a = .deliver ch ∧ s.readerOf ch = some (.holding k) ∧ s.frames[k]? = some resp ∧
      resp.id = some n ∧ s.Outstanding n := by
  -- the call as it was, alive then because it is now
  have hbefore : ∀ {c : Call Value}, s.calls n = some c → c.phase ≠ .cancelled := by
    intro c hc hp
    obtain ⟨d, hd, -, hcancelled⟩ := h.follows hstep hc
    obtain rfl := mem_unique hc' hd
    exact hlive (hcancelled hp)
  obtain hcalls | ⟨frame, hcalls⟩ | ⟨m, d, p, hd, hcalls, -, -⟩ | hcalls | ⟨ch, k', resp, ha, hreader, hk, hcalls⟩ :=
    step_calls hstep
  · rw [hcalls] at hc'
    exact .inl ⟨c', hc', hslot, hlive⟩
  · rw [hcalls, insert_apply] at hc'
    split at hc'
    · obtain rfl := Option.some.inj hc'
      contradiction
    · exact .inl ⟨c', hc', hslot, hlive⟩
  · rw [hcalls, insert_apply] at hc'
    split at hc'
    · next hnm =>
      subst hnm
      obtain rfl := Option.some.inj hc'
      exact .inl ⟨d, hd, hslot, hbefore hd⟩
    · exact .inl ⟨c', hc', hslot, hlive⟩
  · rw [hcalls] at hc'
    obtain ⟨c, hc, rfl⟩ := map_eq_some_iff.mp hc'
    split at hslot
    · contradiction
    · exact .inl ⟨c, hc, hslot, hbefore hc⟩
  · rw [hcalls] at hc'
    unfold State.route at hc'
    split at hc'
    · next id m hfound =>
      obtain ⟨id', hid, hentry⟩ := bind_eq_some_iff.mp hfound
      obtain ⟨m', hm', heq⟩ := map_eq_some_iff.mp hentry
      obtain ⟨rfl, rfl⟩ := Prod.mk.inj heq
      obtain ⟨rfl, e, he, -, hregistered, hnot⟩ := h.own _ _ hm'
      obtain ⟨c, hc, rfl⟩ := map_eq_some_iff.mp hc'
      split at hslot
      · next hnm =>
        subst hnm
        obtain rfl := mem_unique hc he
        obtain rfl := Slot.sent.inj hslot
        refine .inr ⟨ch, resp, ha, hreader, hk, hid, c, hc, ?_⟩
        have hcancelled := hbefore hc
        cases hp : c.phase <;> simp_all [Phase.outstanding]
      · exact .inl ⟨c, hc, hslot, hbefore hc⟩
    · exact .inl ⟨c', hc', hslot, hlive⟩

theorem Inv.resolved_of_fails (ha : a.Fails s)
    (hn : s.Outstanding n) : ∃ c, s'.calls n = some c ∧ c.Resolved := by
  obtain ⟨c, hc, hp⟩ := hn
  have hcalls : s'.calls = s.failPending.calls := by
    cases a with
    | drain healthy =>
      simp only [State.step] at hstep
      split at hstep
      · obtain rfl := Option.some.inj hstep
        rfl
      · contradiction
    | shut i =>
      obtain ⟨d, hi, hd⟩ := bind_eq_some_iff.mp hstep
      obtain rfl := mem_unique hi ha
      obtain rfl := Option.some.inj hd
      rfl
    | _ => exact ha.elim
  rw [hcalls]
  refine ⟨_, map_eq_some_iff.mpr ⟨c, hc, rfl⟩, ?_⟩
  split
  · exact .inl Slot.noConfusion
  · next hentry =>
    by_cases hslot : c.slot = .unresolved
    · -- it has no entry, so it does not wait
      have hunsettled : c.phase.unsettled = false :=
        Bool.eq_false_iff.mpr fun hu => hentry (h.waits n c hc hu hslot)
      right
      cases hphase : c.phase <;> simp_all [Phase.outstanding, Phase.unsettled, Phase.settled]
    · exact .inl hslot

end

/-! ## runs -/

theorem Inv.run (hexec : exec State.step (State.spawn Value maxRetries) acts = some s) : Inv s :=
  exec_invariant (fun _ _ _ h hstep => h.step hstep) hexec (.spawn maxRetries)

theorem sent_cause (hexec : exec State.step (State.spawn Value maxRetries) acts = some s)
    (hc : s.calls n = some c) (hslot : c.slot = .sent k) (hlive : c.phase ≠ .cancelled) :
    ∃ before ch after s₁ resp, acts = before ++ .deliver ch :: after ∧
      exec State.step (State.spawn Value maxRetries) before = some s₁ ∧
      s₁.readerOf ch = some (.holding k) ∧ s₁.frames[k]? = some resp ∧ resp.id = some n ∧ s₁.Outstanding n := by
  -- the invariant holds where a step is taken, and is given to the cause
  have hstep : ∀ (s : State Value) (a : Action Value) s', s.step a = some s' →
      (∃ c, s'.calls n = some c ∧ c.slot = .sent k ∧ c.phase ≠ .cancelled) →
      (∃ c, s.calls n = some c ∧ c.slot = .sent k ∧ c.phase ≠ .cancelled) ∨
      (Inv s → ∃ ch resp, a = .deliver ch ∧ s.readerOf ch = some (.holding k) ∧
        s.frames[k]? = some resp ∧ resp.id = some n ∧ s.Outstanding n) := by
    intro s a s' hstep ⟨c', hc', hslot', hlive'⟩
    by_cases hinv : Inv s
    · exact (hinv.sent_of_step hstep hc' hslot' hlive').imp id fun hcause _ => hcause
    · exact .inr fun h => absurd h hinv
  have hnone : ¬ ∃ c, (State.spawn Value maxRetries).calls n = some c ∧ c.slot = .sent k ∧ c.phase ≠ .cancelled := by
    rintro ⟨_, h, -⟩
    nomatch h
  obtain ⟨before, a, after, s₁, rfl, hbefore, hcause⟩ :=
    exec_cause (fun s => ∃ c, s.calls n = some c ∧ c.slot = .sent k ∧ c.phase ≠ .cancelled) hstep hexec hnone
      ⟨c, hc, hslot, hlive⟩
  obtain ⟨ch, resp, rfl, hrest⟩ := hcause (.run hbefore)
  exact ⟨before, ch, after, s₁, resp, rfl, hbefore, hrest⟩

theorem resolved_run (hexec : exec State.step s acts = some s') (h : Inv s)
    (hn : ∃ c, s.calls n = some c ∧ c.Resolved) : ∃ c, s'.calls n = some c ∧ c.Resolved := by
  have hboth : Inv s' ∧ ∃ c, s'.calls n = some c ∧ c.Resolved := by
    refine exec_invariant (I := fun s => Inv s ∧ ∃ c, s.calls n = some c ∧ c.Resolved) ?_ hexec ⟨h, hn⟩
    rintro s a s' ⟨h, c, hc, hresolved⟩ hstep
    obtain ⟨c', hc', hkept, -⟩ := h.follows hstep hc
    exact ⟨h.step hstep, c', hc', hkept hresolved⟩
  exact hboth.2

/-- In every run, whatever the child writes and however calls, the reader, the
supervisor and shutdowns interleave:
1. a call returns an error of its own, or what a frame with its id says that was
   routed while the call was outstanding;
2. no frame goes to two calls;
3. once the pending calls have been failed, no call that was outstanding then
   waits without a frame or an error;
4. a call that has returned has no entry in the map. -/
theorem calls_correlated {maxRetries : Nat} {acts : List (Action Value)}
    (hexec : exec State.step (State.spawn Value maxRetries) acts = some s) :
    (∀ n c out, s.calls n = some c → c.phase = .returned out →
      out.own = true ∨ ∃ before ch after s₁ k resp, acts = before ++ (.deliver ch :: after : List (Action Value)) ∧
        exec State.step (State.spawn Value maxRetries) before = some s₁ ∧
        s₁.readerOf ch = some (.holding k) ∧ s₁.frames[k]? = some resp ∧ resp.id = some n ∧
        s₁.Outstanding n ∧ out = resp.outcome) ∧
    (∀ n m c d k, s.calls n = some c → s.calls m = some d → c.slot = .sent k → d.slot = .sent k → n = m) ∧
    (∀ before a after s₁, acts = before ++ a :: after →
      exec State.step (State.spawn Value maxRetries) before = some s₁ → a.Fails s₁ →
      ∀ n, s₁.Outstanding n → ∃ c, s.calls n = some c ∧ c.Resolved) ∧
    ∀ n c out, s.calls n = some c → c.phase = .returned out → s.pending n = none := by
  have h := Inv.run hexec
  refine ⟨?_, h.once, ?_, ?_⟩
  · intro n c out hc hp
    obtain hown | ⟨k, resp, hslot, hk, rfl⟩ := h.returned n c out hc hp
    · exact .inl hown
    · right
      obtain ⟨before, ch, after, s₁, resp₁, rfl, hbefore, hreader, hk₁, hid, hn⟩ :=
        sent_cause hexec hc hslot (by rw [hp]; nofun)
      refine ⟨before, ch, after, s₁, k, resp₁, rfl, hbefore, hreader, hk₁, hid, hn, ?_⟩
      rw [exec_append, hbefore, bind_some] at hexec
      obtain rfl := Option.some.inj (hk.symm.trans (frames_run hexec hk₁))
      rfl
  · intro before a after s₁ hacts hbefore ha n hn
    rw [hacts, exec_append, hbefore, bind_some, exec, bind_eq_some_iff] at hexec
    obtain ⟨s₂, hstep, hafter⟩ := hexec
    have h₁ := Inv.run hbefore
    exact resolved_run hafter (h₁.step hstep) (h₁.resolved_of_fails hstep ha hn)
  · intro n c out hc hp
    exact h.no_entry hc hp

/-- Two calls, the child's answer to the first, and its death. -/
def answerAndDeath : List (Action Nat) :=
  [.call ⟨[1], by decide⟩, .register 1, .lock 1, .write 1 1, .flush 1,
    .call ⟨[2, 2], by decide⟩, .register 2, .lock 2, .write 2 2, .flush 2,
    .read 0 ⟨some 7, some 0, none, none, none⟩, .deliver 0,
    .read 0 ⟨some 1, some 5, none, none, none⟩, .deliver 0, .resolve 1,
    .endReader 0, .reap, .clear, .drain false, .resolve 2, .remove 2]

theorem calls_correlated_answerAndDeath :
    ∃ s, exec State.step (State.spawn Nat 1) answerAndDeath = some s ∧
      (s.calls 1).map Call.phase = some (.returned (.ok 5)) ∧
      (s.calls 2).map Call.phase = some (.returned .closed) ∧ s.pending 1 = none ∧ s.pending 2 = none := by
  obtain ⟨s, hexec⟩ := Option.isSome_iff_exists.mp
    (by decide +kernel : (exec State.step (State.spawn Nat 1) answerAndDeath).isSome = true)
  have hphase : ∀ n, (s.calls n).map Call.phase =
      (exec State.step (State.spawn Nat 1) answerAndDeath).bind fun s => (s.calls n).map Call.phase := by
    intro n
    rw [hexec]
    rfl
  have h₁ : (s.calls 1).map Call.phase = some (.returned (.ok 5)) := (hphase 1).trans (by decide +kernel)
  have h₂ : (s.calls 2).map Call.phase = some (.returned .closed) := (hphase 2).trans (by decide +kernel)
  obtain ⟨c, hc, hp⟩ := map_eq_some_iff.mp h₁
  obtain ⟨d, hd, hp'⟩ := map_eq_some_iff.mp h₂
  obtain ⟨-, -, -, hgone⟩ := calls_correlated hexec
  exact ⟨s, hexec, h₁, h₂, hgone 1 c _ hc hp, hgone 2 d _ hd hp'⟩

/-- The child answers a call that has not been made yet; its reader has the answer
in hand while the call is made. -/
def answerAhead : List (Action Nat) :=
  [.read 0 ⟨some 1, some 5, none, none, none⟩, .call ⟨[1], by decide⟩, .register 1, .lock 1, .write 1 1,
    .flush 1, .deliver 0, .resolve 1]

/-- A returned payload need not have been read while the call was outstanding. -/
theorem response_before_request : ¬ ∀ (acts : List (Action Nat)) (s : State Nat) n c v,
      exec State.step (State.spawn Nat 1) acts = some s → s.calls n = some c → c.phase = .returned (.ok v) →
      ∃ before ch resp after s₁, acts = before ++ (.read ch resp :: after : List (Action Nat)) ∧
        exec State.step (State.spawn Nat 1) before = some s₁ ∧ s₁.Outstanding n ∧
        resp.id = some n ∧ resp.outcome = .ok v := by
  intro hclaim
  obtain ⟨s, hexec⟩ := Option.isSome_iff_exists.mp
    (by decide +kernel : (exec State.step (State.spawn Nat 1) answerAhead).isSome = true)
  have hphase : (s.calls 1).map Call.phase =
      (exec State.step (State.spawn Nat 1) answerAhead).bind fun s => (s.calls 1).map Call.phase := by
    rw [hexec]
    rfl
  obtain ⟨c, hc, hp⟩ := map_eq_some_iff.mp (hphase.trans (by decide +kernel : _ = some (.returned (.ok 5))))
  obtain ⟨before, ch, resp, after, s₁, hacts, hbefore, hn, -⟩ := hclaim answerAhead s 1 c 5 hexec hc hp
  -- the only read comes first
  cases before with
  | nil =>
    obtain rfl := Option.some.inj hbefore
    obtain ⟨c, hc, -⟩ := hn
    nomatch hc
  | cons a before =>
    have hmem : Action.read ch resp ∈ answerAhead.tail := by
      rw [hacts]
      exact List.mem_append_right before List.mem_cons_self
    simp [answerAhead] at hmem

end SmithsNet.Sidecar
