import SmithsNet.Uas.Cancel

/-!
# SmithsNet.Uas.CancelHonoured

A CANCEL that flags its INVITE in time is honoured, whatever the schedule.

`Coherent` ties the handlers, the driver's machines and the flags together:
in particular a flag is only ever there for a handler that will still look at
it.  Each kind of state change is shown to keep it (`Coherent.setPhase`,
`Coherent.takeTag`, `Coherent.respond`, `Coherent.flag`, ...), then each action
(`Coherent.step`), then every run.

Without the condition a timely CANCEL may be answered 200 and the call still
set up: the handler looks for the flag before it connects the media and never
again (`cancel_lost_while_attaching`).
-/

namespace SmithsNet.Uas

open Lib Txn Function Server

/-! ## the invariant -/

/-- A flag set for `invite` is kept: it is in the table, or its tag is on the
way in a refusal, or the refusal was sent with it. -/
def Kept (s : Server) (invite : Nat) (tag : String) : Prop :=
  ∃ h, s.handlers invite = some h ∧ h.request.toTag = none ∧
    (s.cancelledInvites h.request.branch = some ⟨tag, invite⟩ ∨
      (∃ status, 300 ≤ status ∧ h.phase = .responding status tag) ∨
      (h.phase = .done ∧ ∃ status, 300 ≤ status ∧ s.finals invite = some (status, tag)))

/-- What holds between the handlers, the machines and the flags. -/
structure Coherent (s : Server) : Prop where
  /-- A running handler's INVITE is pending in the driver. -/
  live : ∀ i h, s.handlers i = some h → h.phase ≠ .done →
    s.finals i = none ∧ ∃ t, s.txns h.request.branch = some (i, t) ∧ t.state = .proceeding
  /-- INVITEs are numbered in order. -/
  numbered : ∀ i, s.invites ≤ i → s.handlers i = none ∧ s.finals i = none
  /-- A machine belongs to a handler. -/
  owned : ∀ b i t, s.txns b = some (i, t) → ∃ h, s.handlers i = some h ∧ h.request.branch = b
  /-- A refusal is no 2xx. -/
  refuses : ∀ i h status, s.handlers i = some h → h.phase = .refusing status → 300 ≤ status
  /-- A flag is for a handler that will still see it. -/
  flags : ∀ b f, s.cancelledInvites b = some f → ∃ h, s.handlers f.invite = some h ∧
    h.request.branch = b ∧ h.request.toTag = none ∧ h.phase.pending = true
  /-- A CANCEL matches an INVITE of its own branch. -/
  matched : ∀ c t i, s.cancels c = some t → t.phase = .matched i →
    ∃ h, s.handlers i = some h ∧ h.request.branch = t.branch
  /-- A flag set by a CANCEL still to be answered is kept. -/
  flagged : ∀ c t i tag, s.cancels c = some t → t.phase = .flagged i tag →
    t.toTag = none ∧ Kept s i tag
  /-- A flag set by an answered CANCEL is kept. -/
  answered : ∀ a ∈ s.answers, Kept s a.invite a.tag

namespace Coherent

variable {s : Server}

variable {f : Flag} {h : Handler} {i status : Nat} {phase : Phase} {s' : Server}
    {tag branch : String} {e : TransactionEvent}

theorem unique (hc : Coherent s) {j : Nat} {k : Handler} (hi : s.handlers i = some h)
    (hj : s.handlers j = some k) (hih : h.phase ≠ .done) (hjk : k.phase ≠ .done)
    (hb : h.request.branch = k.request.branch) : i = j := by
  obtain ⟨-, t, ht, -⟩ := hc.live i h hi hih
  obtain ⟨-, t', ht', -⟩ := hc.live j k hj hjk
  rw [hb, ht'] at ht
  exact (congrArg Prod.fst (Option.some.inj ht)).symm

theorem ne_done_of_pending (hp : h.phase.pending = true) : h.phase ≠ .done := by
  intro hd
  rw [hd] at hp
  contradiction

section

variable (hc : Coherent s)
include hc

/-- A flag on a running handler's branch is that handler's own, and it will
still be seen. -/
theorem flag_own (hi : s.handlers i = some h) (hd : h.phase ≠ .done)
    (hf : s.cancelledInvites h.request.branch = some f) :
    f.invite = i ∧ h.request.toTag = none ∧ h.phase.pending = true := by
  obtain ⟨k, hk, hkb, hkt, hkp⟩ := hc.flags _ f hf
  have hij := hc.unique hk hi (ne_done_of_pending hkp) hd hkb
  rw [hij, hi] at hk
  cases hk
  exact ⟨hij, hkt, hkp⟩

theorem honoured : CancelsHonoured s := by
  intro a ha status tag hfinal
  obtain ⟨h, hh, -, hkept⟩ := hc.answered a ha
  have hdone : h.phase = .done := by
    by_contra hne
    rw [(hc.live _ h hh hne).1] at hfinal
    contradiction
  obtain hflag | ⟨st, -, hresp⟩ | ⟨-, st, hge, hst⟩ := hkept
  · obtain ⟨k, hk, -, -, hkp⟩ := hc.flags _ _ hflag
    rw [hh, Option.some.injEq] at hk
    rw [← hk] at hkp
    exact absurd hdone (ne_done_of_pending hkp)
  · rw [hdone] at hresp
    contradiction
  · rw [hst, Option.some.injEq, Prod.mk.injEq] at hfinal
    obtain ⟨rfl, rfl⟩ := hfinal
    refine ⟨by omega, rfl, fun branch f hf heq => ?_⟩
    obtain ⟨k, hk, -, -, hkp⟩ := hc.flags _ _ hf
    rw [heq, hh, Option.some.injEq] at hk
    rw [← hk] at hkp
    exact absurd hdone (ne_done_of_pending hkp)

/-! ## state changes that keep it -/

/-- The machines may change as long as running handlers keep theirs pending. -/
theorem setTxns {txns : String → Option (Nat × ServerInviteTxn)}
    (hlive : ∀ b i t, s.txns b = some (i, t) → t.state = .proceeding →
      ∃ t', txns b = some (i, t') ∧ t'.state = .proceeding)
    (howned : ∀ b i t, txns b = some (i, t) → ∃ t', s.txns b = some (i, t')) :
    Coherent { s with txns } := by
  refine { hc with live := ?_, owned := ?_ }
  · intro i h hi hd
    obtain ⟨hf, t, ht, hp⟩ := hc.live i h hi hd
    exact ⟨hf, hlive _ _ _ ht hp⟩
  · intro b i t ht
    obtain ⟨t', ht'⟩ := howned b i t ht
    exact hc.owned b i t' ht'

theorem feed (branch : String)
    (he : ∀ t : ServerInviteTxn, t.state = .proceeding → (t.onEvent e).1.state = .proceeding) :
    Coherent (s.feed branch e) := by
  unfold Server.feed
  cases hb : s.txns branch with
  | none => exact hc
  | some p =>
    obtain ⟨j, m⟩ := p
    refine hc.setTxns ?_ ?_
    · intro b i t ht hp
      by_cases hbb : b = branch
      · subst hbb
        rw [hb, Option.some.injEq, Prod.mk.injEq] at ht
        obtain ⟨rfl, rfl⟩ := ht
        exact ⟨_, update_self .., he _ hp⟩
      · exact ⟨t, by rw [update_of_ne hbb]; exact ht, hp⟩
    · intro b i t ht
      by_cases hbb : b = branch
      · subst hbb
        rw [update_self, Option.some.injEq, Prod.mk.injEq] at ht
        exact ⟨m, by rw [hb, ht.1]⟩
      · rw [update_of_ne hbb] at ht
        exact ⟨t, ht⟩

/-- A handler changes phase, and with it perhaps the machines, the flags or the
finals: what has to be shown of the new state. -/
theorem ofPhase (hi : s.handlers i = some h)
    (hsame : s'.handlers = (s.setPhase i h phase).handlers ∧ s'.invites = s.invites ∧
      s'.cancels = s.cancels ∧ s'.answers = s.answers)
    (hlive : ∀ j k, s'.handlers j = some k → k.phase ≠ .done →
      s'.finals j = none ∧ ∃ t, s'.txns k.request.branch = some (j, t) ∧ t.state = .proceeding)
    (hfinals : ∀ j, j ≠ i → s'.finals j = s.finals j)
    (howned : ∀ b j t, s'.txns b = some (j, t) → ∃ t', s.txns b = some (j, t'))
    (hrefuses : ∀ status, phase = .refusing status → 300 ≤ status)
    (hflags : ∀ b f, s'.cancelledInvites b = some f →
      s.cancelledInvites b = some f ∧ (f.invite = i → phase.pending = true))
    (hkept : ∀ j tag, Kept s j tag → Kept s' j tag) : Coherent s' := by
  obtain ⟨hh, hn, hcs, has⟩ := hsame
  have hkeep : ∀ j k, s.handlers j = some k →
      ∃ k', s'.handlers j = some k' ∧ k'.request = k.request := by
    intro j k hj
    rw [hh]
    by_cases hij : j = i
    · subst hij
      rw [hi, Option.some.injEq] at hj
      exact ⟨{ h with phase }, handlers_setPhase_self .., by rw [← hj]⟩
    · exact ⟨k, by rw [handlers_setPhase_ne _ hij]; exact hj, rfl⟩
  refine ⟨hlive, ?_, ?_, ?_, ?_, ?_, ?_, ?_⟩
  · intro j hj
    rw [hn] at hj
    have hji : j ≠ i := by
      rintro rfl
      rw [(hc.numbered j hj).1] at hi
      contradiction
    rw [hh, handlers_setPhase_ne _ hji, hfinals j hji]
    exact hc.numbered j hj
  · intro b j t ht
    obtain ⟨t', ht'⟩ := howned b j t ht
    obtain ⟨k, hj, hb⟩ := hc.owned b j t' ht'
    obtain ⟨k', hk', hreq⟩ := hkeep j k hj
    exact ⟨k', hk', by rw [hreq]; exact hb⟩
  · intro j k status hj hk
    rw [hh] at hj
    by_cases hij : j = i
    · subst hij
      rw [handlers_setPhase_self, Option.some.injEq] at hj
      exact hrefuses status (by rw [← hk, ← hj])
    · rw [handlers_setPhase_ne _ hij] at hj
      exact hc.refuses j k status hj hk
  · intro b f hf
    obtain ⟨hf, hpend⟩ := hflags b f hf
    obtain ⟨k, hk, hb, ht, hkp⟩ := hc.flags b f hf
    rw [hh]
    by_cases hfi : f.invite = i
    · rw [hfi, hi, Option.some.injEq] at hk
      subst hk
      rw [hfi]
      exact ⟨{ h with phase }, handlers_setPhase_self .., hb, ht, hpend hfi⟩
    · exact ⟨k, by rw [handlers_setPhase_ne _ hfi]; exact hk, hb, ht, hkp⟩
  · intro c t j hct htj
    rw [hcs] at hct
    obtain ⟨k, hk, hb⟩ := hc.matched c t j hct htj
    obtain ⟨k', hk', hreq⟩ := hkeep j k hk
    exact ⟨k', hk', by rw [hreq]; exact hb⟩
  · intro c t j tag hct htj
    rw [hcs] at hct
    obtain ⟨ht, hk⟩ := hc.flagged c t j tag hct htj
    exact ⟨ht, hkept j tag hk⟩
  · intro a ha
    rw [has] at ha
    exact hkept _ _ (hc.answered a ha)

/-- A running handler that is not yet sending its final moves on; when its
branch is flagged it stays pending. -/
theorem setPhase (hi : s.handlers i = some h)
    (hd : h.phase ≠ .done) (hr : ∀ status tag, h.phase ≠ .responding status tag)
    (hp : ∀ f, s.cancelledInvites h.request.branch = some f → h.request.toTag = none →
      h.phase.pending = true → phase.pending = true)
    (hst : ∀ status, phase = .refusing status → 300 ≤ status) :
    Coherent (s.setPhase i h phase) := by
  refine hc.ofPhase hi ⟨rfl, rfl, rfl, rfl⟩ ?_ (fun _ _ => rfl) (fun b j t ht => ⟨t, ht⟩) hst ?_ ?_
  · intro j k hj hkd
    by_cases hij : j = i
    · subst hij
      rw [handlers_setPhase_self, Option.some.injEq] at hj
      subst hj
      exact hc.live j h hi hd
    · rw [handlers_setPhase_ne _ hij] at hj
      exact hc.live j k hj hkd
  · intro b f hf
    refine ⟨hf, fun hfi => ?_⟩
    obtain ⟨k, hk, hb, ht, hkp⟩ := hc.flags b f hf
    rw [hfi, hi, Option.some.injEq] at hk
    subst hk
    rw [← hb] at hf
    exact hp f hf ht hkp
  · rintro j tag ⟨k, hj, ht, hcase⟩
    by_cases hij : j = i
    · subst hij
      rw [hi, Option.some.injEq] at hj
      subst hj
      refine ⟨{ h with phase }, handlers_setPhase_self .., ht, ?_⟩
      obtain hflag | ⟨st, -, hresp⟩ | ⟨hdone, -⟩ := hcase
      · exact Or.inl hflag
      · exact absurd hresp (hr _ _)
      · exact absurd hdone hd
    · exact ⟨k, by rw [handlers_setPhase_ne _ hij]; exact hj, ht, hcase⟩

theorem takeFlag (hi : s.handlers i = some h) (hph : h.phase = .refusing status)
    (hf : s.cancelledInvites h.request.branch = some f) : Coherent (Server.setPhase { s with
      cancelledInvites := update s.cancelledInvites h.request.branch none } i h
        (.responding status f.tag)) := by
  have hd : h.phase ≠ .done := by rw [hph]; simp
  obtain ⟨hfi, -, -⟩ := hc.flag_own hi hd hf
  have hge := hc.refuses i h status hi hph
  refine hc.ofPhase hi ⟨rfl, rfl, rfl, rfl⟩ ?_ (fun _ _ => rfl) (fun b j t ht => ⟨t, ht⟩)
    (by simp) ?_ ?_
  · intro j k hj hkd
    by_cases hij : j = i
    · subst hij
      rw [handlers_setPhase_self, Option.some.injEq] at hj
      subst hj
      exact hc.live j h hi hd
    · rw [handlers_setPhase_ne _ hij] at hj
      exact hc.live j k hj hkd
  · intro b f' hf'
    by_cases hb : b = h.request.branch
    · subst hb
      simp [Server.setPhase] at hf'
    · have hold : s.cancelledInvites b = some f' := by
        simpa [Server.setPhase, update_of_ne hb] using hf'
      refine ⟨hold, fun hfi' => ?_⟩
      obtain ⟨k, hk, hkb, -, -⟩ := hc.flags b f' hold
      rw [hfi', hi, Option.some.injEq] at hk
      exact absurd (by rw [hk, hkb]) hb
  · rintro j tag ⟨k, hj, ht, hcase⟩
    by_cases hij : j = i
    · subst hij
      rw [hi, Option.some.injEq] at hj
      subst hj
      refine ⟨_, handlers_setPhase_self .., ht, Or.inr (Or.inl ⟨status, hge, ?_⟩)⟩
      obtain hflag | ⟨st, -, hresp⟩ | ⟨hdone, -⟩ := hcase
      · rw [hf, Option.some.injEq] at hflag
        rw [hflag]
      · rw [hph] at hresp
        contradiction
      · exact absurd hdone hd
    · refine ⟨k, by rw [handlers_setPhase_ne _ hij]; exact hj, ht, ?_⟩
      obtain hflag | hrest := hcase
      · -- another handler's flag sits on another branch
        have hb : k.request.branch ≠ h.request.branch := by
          intro hb
          rw [hb, hf, Option.some.injEq] at hflag
          rw [hflag] at hfi
          exact hij hfi
        refine Or.inl ?_
        show update s.cancelledInvites h.request.branch none k.request.branch = _
        rw [update_of_ne hb]
        exact hflag
      · exact Or.inr hrest

theorem respond
    (hi : s.handlers i = some h) (hph : h.phase = .responding status tag) (bytes : Bytes) :
    Coherent { (s.setPhase i h .done).feed h.request.branch (.sendResponseFromTu status bytes) with
      finals := update s.finals i (some (status, h.request.toTag.getD tag)) } := by
  have hd : h.phase ≠ .done := by rw [hph]; simp
  obtain ⟨-, m, hm, -⟩ := hc.live i h hi hd
  have hfeed : (s.setPhase i h .done).feed h.request.branch (.sendResponseFromTu status bytes) =
      { s.setPhase i h .done with
        txns := update s.txns h.request.branch
          (some (i, (m.onEvent (.sendResponseFromTu status bytes)).1)) } := by
    have hm' : (s.setPhase i h .done).txns h.request.branch = some (i, m) := hm
    rw [Server.feed, hm']
    rfl
  rw [hfeed]
  refine hc.ofPhase hi ⟨rfl, rfl, rfl, rfl⟩ ?_ ?_ ?_ (by simp) ?_ ?_
  · intro j k hj hkd
    have hij : j ≠ i := by
      rintro rfl
      have hself := handlers_setPhase_self s j h .done
      rw [hself, Option.some.injEq] at hj
      exact hkd (by rw [← hj])
    have hj' : s.handlers j = some k := by
      rw [← handlers_setPhase_ne s hij h .done]
      exact hj
    have hb : k.request.branch ≠ h.request.branch :=
      fun hb => hij (hc.unique hj' hi hkd hd hb)
    obtain ⟨hfin, t, ht, hp⟩ := hc.live j k hj' hkd
    refine ⟨?_, t, ?_, hp⟩
    · show update s.finals i _ j = none
      rw [update_of_ne hij]
      exact hfin
    · show update s.txns h.request.branch _ k.request.branch = _
      rw [update_of_ne hb]
      exact ht
  · intro j hij
    exact update_of_ne hij ..
  · intro b j t ht
    change update s.txns h.request.branch _ b = _ at ht
    by_cases hb : b = h.request.branch
    · subst hb
      rw [update_self, Option.some.injEq, Prod.mk.injEq] at ht
      exact ⟨m, by rw [hm, ht.1]⟩
    · rw [update_of_ne hb] at ht
      exact ⟨t, ht⟩
  · intro b f hf
    refine ⟨hf, fun hfi => ?_⟩
    obtain ⟨k, hk, -, -, hkp⟩ := hc.flags b f hf
    rw [hfi, hi, Option.some.injEq] at hk
    rw [← hk, hph] at hkp
    contradiction
  · rintro j tag' ⟨k, hj, ht, hcase⟩
    by_cases hij : j = i
    · subst hij
      rw [hi, Option.some.injEq] at hj
      subst hj
      refine ⟨_, handlers_setPhase_self .., ht, Or.inr (Or.inr ⟨rfl, ?_⟩)⟩
      obtain hflag | ⟨st, hge, hresp⟩ | ⟨hdone, -⟩ := hcase
      · have hpend := (hc.flag_own hi hd hflag).2.2
        rw [hph] at hpend
        contradiction
      · rw [hph, Phase.responding.injEq] at hresp
        obtain ⟨rfl, rfl⟩ := hresp
        refine ⟨status, hge, ?_⟩
        show update s.finals j _ j = _
        rw [update_self, ht]
        rfl
      · exact absurd hdone hd
    · refine ⟨k, by rw [← handlers_setPhase_ne s hij h .done] at hj; exact hj, ht, ?_⟩
      obtain hflag | hresp | ⟨hdone, st, hge, hst⟩ := hcase
      · exact Or.inl hflag
      · exact Or.inr (Or.inl hresp)
      · refine Or.inr (Or.inr ⟨hdone, st, hge, ?_⟩)
        show update s.finals i _ j = _
        rw [update_of_ne hij]
        exact hst

theorem enqueue {request : InviteRequest} (hfree : s.txns request.branch = none) :
    Coherent (s.enqueue request) := by
  obtain ⟨hnone, hfinal⟩ := hc.numbered s.invites (Nat.le_refl _)
  -- handlers that were there before are not the new one
  have hold : ∀ {j k}, s.handlers j = some k → (s.enqueue request).handlers j = some k := by
    intro j k hj
    have hne : j ≠ s.invites := by
      rintro rfl
      rw [hnone] at hj
      contradiction
    rw [handlers_enqueue_ne s hne]
    exact hj
  have hkept : ∀ j tag, Kept s j tag → Kept (s.enqueue request) j tag := by
    rintro j tag ⟨k, hj, hrest⟩
    exact ⟨k, hold hj, hrest⟩
  refine ⟨?_, ?_, ?_, ?_, ?_, ?_, ?_, ?_⟩
  · intro j k hj hkd
    by_cases hjn : j = s.invites
    · subst hjn
      rw [handlers_enqueue_self, Option.some.injEq] at hj
      subst hj
      exact ⟨hfinal, _, txns_enqueue_self .., rfl⟩
    · rw [handlers_enqueue_ne s hjn] at hj
      obtain ⟨hf, t', ht', hp⟩ := hc.live j k hj hkd
      have hb : k.request.branch ≠ request.branch := by
        intro hb
        rw [hb, hfree] at ht'
        contradiction
      exact ⟨hf, t', by rw [txns_enqueue_ne s hb]; exact ht', hp⟩
  · intro j hj
    change s.invites + 1 ≤ j at hj
    rw [handlers_enqueue_ne s (by omega)]
    exact hc.numbered j (by omega)
  · intro b j t' ht'
    by_cases hb : b = request.branch
    · subst hb
      rw [txns_enqueue_self, Option.some.injEq, Prod.mk.injEq] at ht'
      rw [← ht'.1]
      exact ⟨_, handlers_enqueue_self .., rfl⟩
    · rw [txns_enqueue_ne s hb] at ht'
      obtain ⟨k, hk, hkb⟩ := hc.owned b j t' ht'
      exact ⟨k, hold hk, hkb⟩
  · intro j k status hj hk
    by_cases hjn : j = s.invites
    · subst hjn
      rw [handlers_enqueue_self, Option.some.injEq] at hj
      rw [← hj] at hk
      contradiction
    · rw [handlers_enqueue_ne s hjn] at hj
      exact hc.refuses j k status hj hk
  · intro b f hf
    obtain ⟨k, hk, hrest⟩ := hc.flags b f hf
    exact ⟨k, hold hk, hrest⟩
  · intro c t' j hct htj
    obtain ⟨k, hk, hb⟩ := hc.matched c t' j hct htj
    exact ⟨k, hold hk, hb⟩
  · intro c t' j tag hct htj
    obtain ⟨hto, hk⟩ := hc.flagged c t' j tag hct htj
    exact ⟨hto, hkept j tag hk⟩
  · intro a ha
    exact hkept _ _ (hc.answered a ha)

theorem setCancel (c : Nat) (t : CancelTask) {phase : CancelPhase}
    (hm : ∀ i, phase = .matched i → ∃ h, s.handlers i = some h ∧ h.request.branch = t.branch)
    (hf : ∀ i tag, phase = .flagged i tag → t.toTag = none ∧ Kept s i tag) :
    Coherent (s.setCancel c t phase) := by
  have hcancels : ∀ c' t', (s.setCancel c t phase).cancels c' = some t' →
      t' = { t with phase } ∨ s.cancels c' = some t' := by
    intro c' t' hct
    change update s.cancels c _ c' = _ at hct
    by_cases hcc : c' = c
    · subst hcc
      rw [update_self, Option.some.injEq] at hct
      exact Or.inl hct.symm
    · rw [update_of_ne hcc] at hct
      exact Or.inr hct
  refine { hc with matched := ?_, flagged := ?_ }
  · intro c' t' i hct hti
    obtain rfl | hct := hcancels c' t' hct
    · exact hm i hti
    · exact hc.matched c' t' i hct hti
  · intro c' t' i tag hct hti
    obtain rfl | hct := hcancels c' t' hct
    · exact hf i tag hti
    · exact hc.flagged c' t' i tag hct hti

theorem addFlag (tag : String)
    (hi : s.handlers i = some h) (hb : h.request.branch = branch) (ht : h.request.toTag = none)
    (hp : h.phase.pending = true) (hfree : s.cancelledInvites branch = none) : Coherent { s with
      cancelledInvites := update s.cancelledInvites branch (some ⟨tag, i⟩) } := by
  have hkept : ∀ j tag', Kept s j tag' → Kept { s with
      cancelledInvites := update s.cancelledInvites branch (some ⟨tag, i⟩) } j tag' := by
    rintro j tag' ⟨k, hj, hkt, hcase⟩
    refine ⟨k, hj, hkt, ?_⟩
    obtain hflag | hrest := hcase
    · have hne : k.request.branch ≠ branch := by
        intro heq
        rw [heq, hfree] at hflag
        contradiction
      refine Or.inl ?_
      show update s.cancelledInvites branch _ k.request.branch = _
      rw [update_of_ne hne]
      exact hflag
    · exact Or.inr hrest
  refine { hc with flags := ?_, flagged := ?_, answered := ?_ }
  · intro b f hf
    change update s.cancelledInvites branch _ b = _ at hf
    by_cases hbb : b = branch
    · subst hbb
      rw [update_self, Option.some.injEq] at hf
      rw [← hf]
      exact ⟨h, hi, hb, ht, hp⟩
    · rw [update_of_ne hbb] at hf
      exact hc.flags b f hf
  · intro c t j tag' hct htj
    obtain ⟨hto, hk⟩ := hc.flagged c t j tag' hct htj
    exact ⟨hto, hkept j tag' hk⟩
  · intro a ha
    exact hkept _ _ (hc.answered a ha)

theorem addAnswer (hk : Kept s i tag) : Coherent { s with answers := s.answers ++ [⟨i, tag⟩] } := by
  refine { hc with answered := ?_ }
  intro a ha
  change a ∈ s.answers ++ [⟨i, tag⟩] at ha
  rw [List.mem_append, List.mem_singleton] at ha
  obtain ha | rfl := ha
  · exact hc.answered a ha
  · exact hk

end

/-! ## one action -/

/-- Neither a retransmission nor a stray ACK or timer ends Proceeding. -/
theorem proceeding_of_fromOutside (he : fromOutside e = true)
    (t : ServerInviteTxn) (ht : t.state = .proceeding) : (t.onEvent e).1.state = .proceeding := by
  cases e with
  | requestReceived method bytes =>
    simp only [ServerInviteTxn.onEvent, ht]
    split <;> exact ht
  | timerFired id => simp only [ServerInviteTxn.onEvent, ht]
  | _ => contradiction

theorem proceeding_of_trying (bytes : Bytes) (t : ServerInviteTxn) (ht : t.state = .proceeding) :
    (t.onEvent (.sendResponseFromTu 100 bytes)).1.state = .proceeding := by
  simp [ServerInviteTxn.onEvent, ht]

section

variable (hc : Coherent s) (hi : s.handlers i = some h)
include hc hi

theorem checkFlag (hp : h.phase.pending = true) {otherwise : Phase}
    (ho : ∀ status, otherwise ≠ .refusing status) : Coherent (s.checkFlag i h otherwise) := by
  have hd := ne_done_of_pending hp
  have hr : ∀ status tag, h.phase ≠ .responding status tag := by
    intro status tag heq
    rw [heq] at hp
    contradiction
  unfold Server.checkFlag
  split
  · refine hc.setPhase hi hd hr (fun _ _ _ _ => rfl) ?_
    intro status hst
    rw [Phase.refusing.injEq] at hst
    omega
  · next hflag =>
    refine hc.setPhase hi hd hr ?_ (fun status hst => absurd hst (ho status))
    intro f hf
    rw [hf] at hflag
    simp at hflag

theorem next (hnext : h.phase.next = some phase) : Coherent (s.setPhase i h phase) := by
  cases hph : h.phase <;> rw [hph] at hnext <;> simp only [Phase.next, Option.some.injEq,
    reduceCtorEq] at hnext <;> subst hnext <;>
    exact hc.setPhase hi (by simp [hph]) (by simp [hph]) (by simp [hph, Phase.pending]) (by simp)

theorem refuse
    (hmem : status ∈ refusals h.phase) : Coherent (s.setPhase i h (h.phase.refuse status)) := by
  have hge : 300 ≤ status := by
    cases hph : h.phase <;> rw [hph] at hmem <;> simp [refusals] at hmem <;> omega
  cases hph : h.phase <;> rw [hph] at hmem <;> simp only [refusals, List.not_mem_nil] at hmem <;>
    refine hc.setPhase hi (by simp [hph]) (by simp [hph]) (by simp [hph, Phase.refuse, Phase.pending])
      ?_ <;> intro st hst <;> simp only [Phase.refuse, Phase.refusing.injEq, reduceCtorEq] at hst <;>
    omega

end

theorem takeInviteTag_of_none (h : s.cancelledInvites branch = none)
    (fresh : String) : s.takeInviteTag branch fresh = (fresh, s) := by
  have hsame : update s.cancelledInvites branch none = s.cancelledInvites := by
    rw [← h, update_eq_self]
  simp [takeInviteTag, h, hsame]

theorem takeTagRefusing (hc : Coherent s)
    (hi : s.handlers i = some h) (hph : h.phase = .refusing status) (fresh : String) :
    Coherent ((s.takeInviteTag h.request.branch fresh).2.setPhase i h
      (.responding status (s.takeInviteTag h.request.branch fresh).1)) := by
  cases hf : s.cancelledInvites h.request.branch with
  | none =>
    rw [takeInviteTag_of_none hf]
    exact hc.setPhase hi (by simp [hph]) (by simp [hph]) (by simp [hf]) (by simp)
  | some f =>
    have htag : (s.takeInviteTag h.request.branch fresh).1 = f.tag := by
      simp [takeInviteTag, hf]
    rw [htag]
    exact hc.takeFlag hi hph hf

/-- A handler that has looked its last time finds no flag when it takes its
To-tag. -/
theorem takeTagUnflagged (hc : Coherent s) (hi : s.handlers i = some h)
    (hph : h.phase = .tagging) (fresh : String) :
    Coherent ((s.takeInviteTag h.request.branch fresh).2.setPhase i h
      (.attaching (s.takeInviteTag h.request.branch fresh).1)) := by
  have hnone : s.cancelledInvites h.request.branch = none := by
    cases hf : s.cancelledInvites h.request.branch with
    | none => rfl
    | some f =>
      have hp := (hc.flag_own hi (by simp [hph]) hf).2.2
      rw [hph] at hp
      contradiction
  rw [takeInviteTag_of_none hnone]
  exact hc.setPhase hi (by simp [hph]) (by simp [hph]) (by simp [hnone]) (by simp)

/-- Every possible action keeps the invariant, flags being set in time. -/
theorem step (hc : Coherent s) {a : Action} (hok : FlagsInTime s a)
    (hs : s.step a = some s') : Coherent s' := by
  cases a with
  | invite request =>
    simp only [Server.step] at hs
    split at hs
    · contradiction
    · next hfree =>
      rw [← Option.some.inj hs]
      exact hc.enqueue hfree
  | txnEvent branch e =>
    simp only [Server.step] at hs
    split at hs
    · next he =>
      rw [← Option.some.inj hs]
      exact hc.feed branch (proceeding_of_fromOutside he)
    · contradiction
  | reap branch =>
    simp only [Server.step] at hs
    split at hs
    · next j m hb =>
      split at hs
      · next hterm =>
        rw [← Option.some.inj hs]
        refine hc.setTxns ?_ ?_
        · intro b i t ht hp
          have hne : b ≠ branch := by
            rintro rfl
            rw [hb, Option.some.injEq, Prod.mk.injEq] at ht
            rw [← ht.2, hterm] at hp
            contradiction
          exact ⟨t, by rw [update_of_ne hne]; exact ht, hp⟩
        · intro b i t ht
          by_cases hbb : b = branch
          · subst hbb
            rw [update_self] at ht
            contradiction
          · rw [update_of_ne hbb] at ht
            exact ⟨t, ht⟩
      · contradiction
    · contradiction
  | check i =>
    simp only [Server.step] at hs
    split at hs
    · next h hi =>
      split at hs
      · next hph _ =>
        rw [← Option.some.inj hs]
        exact hc.checkFlag hi (by rw [hph]; rfl) (by simp)
      · next hph =>
        rw [← Option.some.inj hs]
        exact hc.checkFlag hi (by rw [hph]; rfl) (by simp)
      · contradiction
    · contradiction
  | proceed i refusal =>
    simp only [Server.step] at hs
    split at hs
    · next h hi =>
      cases refusal with
      | none =>
        rw [Option.map_eq_some_iff] at hs
        obtain ⟨phase, hnext, rfl⟩ := hs
        exact hc.next hi hnext
      | some status =>
        simp only at hs
        split at hs
        · next hmem =>
          rw [← Option.some.inj hs]
          exact hc.refuse hi hmem
        · contradiction
    · contradiction
  | greet i bytes =>
    simp only [Server.step] at hs
    split at hs
    · next h hi =>
      split at hs
      · next hph =>
        rw [← Option.some.inj hs]
        refine (hc.setPhase hi ?_ ?_ (fun _ _ _ _ => rfl) (by simp)).feed _
          (proceeding_of_trying bytes) <;> simp [hph]
      · contradiction
    · contradiction
  | takeTag i fresh =>
    simp only [Server.step] at hs
    split at hs
    · next h hi =>
      split at hs
      · next status hph =>
        rw [← Option.some.inj hs]
        exact hc.takeTagRefusing hi hph fresh
      · next hph =>
        rw [← Option.some.inj hs]
        exact hc.takeTagUnflagged hi hph fresh
      · contradiction
    · contradiction
  | renegotiate i status localTag =>
    simp only [Server.step] at hs
    split at hs
    · next h hi =>
      split at hs
      · next hph htag =>
        have hd : h.phase ≠ .done := by simp [hph]
        have hr : ∀ status tag, h.phase ≠ .responding status tag := by simp [hph]
        have hun : h.request.toTag ≠ none := by simp [htag]
        split at hs
        · rw [← Option.some.inj hs]
          exact hc.setPhase hi hd hr (fun _ _ ht => absurd ht hun)
            (fun st hst => by rw [← Phase.refusing.inj hst]; decide)
        · split at hs
          · rw [← Option.some.inj hs]
            exact hc.setPhase hi hd hr (fun _ _ ht => absurd ht hun) (by simp)
          · contradiction
      · contradiction
    · contradiction
  | respond i bytes =>
    simp only [Server.step] at hs
    split at hs
    · next h hi =>
      split at hs
      · next status tag hph =>
        rw [← Option.some.inj hs]
        exact hc.respond hi hph bytes
      · contradiction
    · contradiction
  | cancel c branch toTag =>
    simp only [Server.step] at hs
    split at hs
    · contradiction
    · rw [← Option.some.inj hs]
      exact hc.setCancel c ⟨branch, toTag, .arrived⟩ (by simp) (by simp)
  | lookUp c =>
    simp only [Server.step] at hs
    split at hs
    · next t ht =>
      split at hs
      · split at hs
        · next i m hm =>
          split at hs
          · rw [← Option.some.inj hs]
            refine hc.setCancel c t (fun j hj => ?_) (by simp)
            rw [← CancelPhase.matched.inj hj]
            exact hc.owned _ i m hm
          · rw [← Option.some.inj hs]
            exact hc.setCancel c t (by simp) (by simp)
        · rw [← Option.some.inj hs]
          exact hc.setCancel c t (by simp) (by simp)
      · contradiction
    · contradiction
  | flag c tag =>
    simp only [Server.step] at hs
    split at hs
    · next t ht =>
      split at hs
      · next i hph =>
        rw [← Option.some.inj hs]
        obtain ⟨hto, hfree, h, hi, htag, hp⟩ := hok t i ht hph
        obtain ⟨h', hi', hb⟩ := hc.matched c t i ht hph
        rw [hi, Option.some.injEq] at hi'
        subst hi'
        refine (hc.addFlag tag hi hb htag hp hfree).setCancel c t (by simp) ?_
        intro j tag' hj
        obtain ⟨rfl, rfl⟩ := CancelPhase.flagged.inj hj
        refine ⟨hto, h, hi, htag, Or.inl ?_⟩
        rw [hb]
        exact update_self ..
      · contradiction
    · contradiction
  | answer c =>
    simp only [Server.step] at hs
    split at hs
    · next t ht =>
      split at hs
      · next i tag hph =>
        rw [← Option.some.inj hs]
        obtain ⟨hto, hk⟩ := hc.flagged c t i tag ht hph
        rw [hto]
        exact (hc.addAnswer hk).setCancel c t (by simp) (by simp)
      · contradiction
    · contradiction

end Coherent

/-! ## every run -/

/-- **A CANCEL that comes in time is honoured**: in every run in which CANCELs
flag their INVITE in time, every CANCEL answered for a pending INVITE is
honoured in every state reached. -/
theorem cancel_honoured_when_timely (reliable : Bool) (as : List Action) (s : Server)
    (hexec : exec Server.step (.new reliable) as = some s)
    (hmeets : Meets Server.step FlagsInTime (.new reliable) as) : CancelsHonoured s := by
  have h0 : Coherent (.new reliable) := by
    constructor <;> simp [new]
  exact (exec_invariant_of_meets (fun _ _ _ hc hok hs => hc.step hok hs) hexec hmeets h0).honoured

/-- A CANCEL that arrives before the INVITE's worker has started. -/
def promptRun : List Action :=
  [.invite ⟨"z9hG4bK-1", none⟩, .cancel 0 "z9hG4bK-1" none, .lookUp 0, .flag 0 "b", .answer 0,
    .check 0, .takeTag 0 "a", .respond 0 []]

/-- It gets its 487, with the tag of the CANCEL's answer. -/
theorem cancel_honoured_prompt : ∃ s, exec Server.step (.new false) promptRun = some s ∧
      Meets Server.step FlagsInTime (.new false) promptRun ∧ s.answers = [⟨0, "b"⟩] ∧
      s.finals 0 = some (487, "b") ∧ CancelsHonoured s := by
  have hrun : (exec Server.step (.new false) promptRun).map (fun s => (s.answers, s.finals 0)) =
      some ([⟨0, "b"⟩], some (487, "b")) := by decide +kernel
  obtain ⟨s, hexec, hs⟩ := Option.map_eq_some_iff.mp hrun
  obtain ⟨hanswers, hfinal⟩ := Prod.mk.inj hs
  have hmeets : Meets Server.step FlagsInTime (.new false) promptRun := by
    refine ⟨trivial, trivial, trivial, ?_, trivial, trivial, trivial, trivial, trivial⟩
    intro t i ht hph
    obtain rfl := Option.some.inj ht
    obtain rfl := CancelPhase.matched.inj hph
    exact ⟨rfl, rfl, ⟨⟨"z9hG4bK-1", none⟩, .queued⟩, rfl, rfl, rfl⟩
  exact ⟨s, hexec, hmeets, hanswers, hfinal,
    cancel_honoured_when_timely false promptRun s hexec hmeets⟩

/-- A CANCEL that arrives while the handler connects the media. -/
def lateRun : List Action :=
  [.invite ⟨"z9hG4bK-1", none⟩, .check 0, .proceed 0 none, .greet 0 [], .proceed 0 none,
    .proceed 0 none, .proceed 0 none, .check 0, .takeTag 0 "a", .cancel 0 "z9hG4bK-1" none,
    .lookUp 0, .flag 0 "b", .answer 0, .proceed 0 none, .respond 0 []]

/-- It is answered `200 OK` because the INVITE is still pending, and the INVITE
then gets a `200 OK` with another tag. -/
theorem cancel_lost_while_attaching : ¬ ∀ (reliable : Bool) (as : List Action) (s : Server),
      exec Server.step (.new reliable) as = some s → CancelsHonoured s := by
  intro h
  have hrun : (exec Server.step (.new false) lateRun).map (fun s => (s.answers, s.finals 0)) =
      some ([⟨0, "b"⟩], some (200, "a")) := by decide +kernel
  obtain ⟨s, hexec, hs⟩ := Option.map_eq_some_iff.mp hrun
  obtain ⟨hanswers, hfinal⟩ := Prod.mk.inj hs
  have hlost := h false lateRun s hexec ⟨0, "b"⟩ (by rw [hanswers]; simp) 200 "a" hfinal
  exact hlost.1 (by decide)

end SmithsNet.Uas
